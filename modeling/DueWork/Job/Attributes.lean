/-
  Attributes of a job instance: a finite map of names to values.

  The entries are kept in the order of their names, each name once, so equal
  maps are equal lists.
-/

namespace DueWork

/-- A finite map of attribute names to values, in the order of the names. -/
structure Attributes where
  entries : List (String × String)
  sorted : entries.Pairwise fun a b => a.1 < b.1
deriving DecidableEq

namespace Attributes

instance : EmptyCollection Attributes := ⟨⟨[], .nil⟩⟩
instance : Inhabited Attributes := ⟨∅⟩
instance : Repr Attributes := ⟨fun a n => reprPrec a.entries n⟩

/-- The value of an attribute. -/
def get? (a : Attributes) (name : String) : Option String := a.entries.lookup name

/-- Put an entry in its place, replacing one of the same name. -/
def insertEntry (name value : String) : List (String × String) → List (String × String)
  | [] => [(name, value)]
  | (n, v) :: rest =>
    if name < n then (name, value) :: (n, v) :: rest
    else if name = n then (name, value) :: rest
    else (n, v) :: insertEntry name value rest

theorem mem_insertEntry {name value : String} {es : List (String × String)} {e : String × String}
    (h : e ∈ insertEntry name value es) : e = (name, value) ∨ e ∈ es := by
  induction es with
  | nil => simpa [insertEntry] using h
  | cons x xs ih =>
    obtain ⟨n, v⟩ := x
    simp only [insertEntry] at h
    split at h
    · simpa using h
    · split at h
      · rcases List.mem_cons.1 h with h | h
        · exact .inl h
        · exact .inr (List.mem_cons_of_mem _ h)
      · rcases List.mem_cons.1 h with h | h
        · exact .inr (h ▸ List.mem_cons_self ..)
        · rcases ih h with h | h
          · exact .inl h
          · exact .inr (List.mem_cons_of_mem _ h)

theorem sorted_insertEntry {name value : String} {es : List (String × String)}
    (h : es.Pairwise fun a b => a.1 < b.1) :
    (insertEntry name value es).Pairwise fun a b => a.1 < b.1 := by
  induction es with
  | nil => simp [insertEntry]
  | cons x xs ih =>
    obtain ⟨n, v⟩ := x
    have hx := List.pairwise_cons.1 h
    simp only [insertEntry]
    split
    · rename_i hlt
      refine List.pairwise_cons.2 ⟨fun b hb => ?_, h⟩
      rcases List.mem_cons.1 hb with rfl | hb
      · exact hlt
      · exact String.lt_trans hlt (hx.1 b hb)
    · split
      · rename_i heq
        exact List.pairwise_cons.2 ⟨fun b hb => heq ▸ hx.1 b hb, hx.2⟩
      · rename_i hlt hne
        refine List.pairwise_cons.2 ⟨fun b hb => ?_, ih hx.2⟩
        rcases mem_insertEntry hb with rfl | hb
        · exact Std.lt_of_le_of_ne hlt (Ne.symm hne)
        · exact hx.1 b hb

/-- The map with one entry added or replaced. -/
def insert (a : Attributes) (name value : String) : Attributes :=
  ⟨insertEntry name value a.entries, sorted_insertEntry a.sorted⟩

/-- The map of these entries; of two with one name the later counts. -/
def ofList (es : List (String × String)) : Attributes :=
  es.foldl (fun a e => a.insert e.1 e.2) ∅

end Attributes

end DueWork

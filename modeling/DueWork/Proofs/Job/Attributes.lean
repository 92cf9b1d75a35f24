/-
  Attributes as JSON text.

  Attributes are always read back from their text (`readAttributes_text`), and
  a predicate holds of the text exactly if it holds of the attributes
  (`satisfies_attributes`): an attribute that is not there is a field that is
  not there, and every value is a string.
-/
import DueWork.Proofs.Json.RoundTrip
import DueWork.Store.Table

namespace DueWork

open Json

namespace Attributes

theorem ext_entries {a b : Attributes} (h : a.entries = b.entries) : a = b := by
  cases a; cases b; cases h; rfl

/-- An entry of a greater name goes to the end. -/
theorem insertEntry_of_lt {name value : String} {es : List (String × String)}
    (h : ∀ e ∈ es, e.1 < name) : insertEntry name value es = es ++ [(name, value)] := by
  induction es with
  | nil => rfl
  | cons e es ih =>
    have he := h e List.mem_cons_self
    rw [insertEntry, if_neg (String.lt_asymm he), if_neg (String.ne_of_lt he).symm,
      ih fun f hf => h f (List.mem_cons_of_mem _ hf), List.cons_append]

/-- A map is the map of its entries. -/
theorem ofList_entries (a : Attributes) : ofList a.entries = a := by
  have hfold : ∀ (es : List (String × String)) (b : Attributes),
      (b.entries ++ es).Pairwise (fun e f => e.1 < f.1) →
      (es.foldl (fun a e => a.insert e.1 e.2) b).entries = b.entries ++ es := by
    intro es
    induction es with
    | nil => intro b _; simp
    | cons e es ih =>
      intro b h
      have hlt : ∀ f ∈ b.entries, f.1 < e.1 := fun f hf =>
        (List.pairwise_append.1 h).2.2 f hf e List.mem_cons_self
      have hinsert : (b.insert e.1 e.2).entries = b.entries ++ [e] := insertEntry_of_lt hlt
      rw [List.foldl_cons, ih _ (by rwa [hinsert, List.append_assoc]), hinsert, List.append_assoc]
      rfl
  exact ext_entries (hfold a.entries ∅ a.sorted)

/-- Fields that hold strings fit. -/
theorem fieldsFit_map (es : List (String × String)) :
    fieldsFit (maxDepth - 1) (es.map fun (n, v) => (n, .string v)) = true := by
  induction es with
  | nil => rfl
  | cons e es ih => exact ih

theorem fits_toJson (a : Attributes) : a.toJson.fits maxDepth = true := by
  rw [toJson, fits, fieldsFit_map, Bool.and_true, Bool.and_eq_true]
  exact ⟨rfl, decide_eq_true (List.pairwise_map.2 a.sorted)⟩

/-- The entries of the tree of some attributes. -/
theorem fieldNodes_map (es : List (String × String)) :
    fieldNodes (es.map fun (n, v) => (n, Json.string v)) =
      es.map fun (n, v) => (rawString n, .string (rawString v)) := by
  induction es with
  | nil => rfl
  | cons e es ih => rw [List.map_cons, fieldNodes, ih]; rfl

/-- The tree of the text of attributes. -/
theorem parse?_text (a : Attributes) : Node.parse? a.toJson.text =
    some (.object (a.entries.map fun (n, v) => (rawString n, .string (rawString v)))) := by
  rw [Node.parse?_text a.fits_toJson, toJson, node, fieldNodes_map]

/-- The fields of the tree of some attributes are read one by one. -/
theorem mapM_fields (es : List (String × String)) :
    (es.map fun (n, v) => (rawString n, Node.string (rawString v))).mapM (fun (name, n) => do
      let k ← decodeString? name
      let v ← Decoder.string (maxDepth - 1) n
      some (k, v)) = some es := by
  induction es with
  | nil => rfl
  | cons e es ih =>
    rw [List.map_cons, List.mapM_cons, ih]
    simp [rawString, decodeString?_encode, Decoder.string]

end Attributes

/-- Attributes are read back from their text. -/
theorem readAttributes_text (a : Attributes) : StoredJob.readAttributes a.toJson.text = .ok a := by
  have hblank : ¬Text.IsBlank a.toJson.text := by
    intro h
    have := h '\x7b' (by simp [Json.text, Attributes.toJson, Json.chars])
    exact absurd this (by decide)
  have hrun : Decoder.attributes.run a.toJson.text = some a := by
    rw [Decoder.run, a.parse?_text, Option.bind_some]
    show Option.map Attributes.ofList (List.mapM _ _) = _
    rw [Attributes.mapM_fields, Option.map_some, a.ofList_entries]
  rw [StoredJob.readAttributes, if_neg hblank, hrun]

/-- The first field of a name is the entry of that name. -/
theorem find?_rawString (name : String) (es : List (String × String)) :
    ((es.map fun (n, v) => (rawString n, Node.string (rawString v))).find? fun (raw, _) =>
        decodeString? raw == some name).map (·.2) =
      (es.lookup name).map fun v => .string (rawString v) := by
  induction es with
  | nil => rfl
  | cons e es ih =>
    obtain ⟨n, v⟩ := e
    rw [List.map_cons, List.find?_cons, List.lookup_cons]
    by_cases h : name = n
    · simp [h, rawString, decodeString?_encode]
    · have hn : (decodeString? (rawString n) == some name) = false := by
        rw [rawString, decodeString?_encode]
        simpa using fun he : n = name => h he.symm
      simp only [hn, beq_false_of_ne h]
      exact ih

/-- A clause on the tree of attributes holds if it holds of them. -/
theorem clauseHolds_tree (a : Attributes) (c : Clause) :
    Store.Row.clauseHolds
        (.object (a.entries.map fun (n, v) => (rawString n, .string (rawString v)))) c =
      c.holds a := by
  rw [Store.Row.clauseHolds, Store.Row.field?, find?_rawString, Clause.holds, Attributes.get?]
  cases a.entries.lookup c.name with
  | none => rfl
  | some v =>
    show (decodeString? (rawString v) == some c.value) = _
    rw [rawString, decodeString?_encode]

/-- A predicate on a row that holds the text of attributes. -/
theorem satisfies_attributes {r : Store.Row} {a : Attributes}
    (h : r .attributes = .text a.toJson.text) (p : Predicate) :
    r.satisfies p = .ok (p.accepts a) := by
  rw [Store.Row.satisfies, h, Predicate.accepts]
  split
  case isTrue hempty =>
    rw [List.isEmpty_iff.1 hempty]
    rfl
  case isFalse =>
    simp only [Store.Row.tree?, a.parse?_text, Option.some_or]
    congr 1
    exact List.all_congr rfl (clauseHolds_tree a)

end DueWork

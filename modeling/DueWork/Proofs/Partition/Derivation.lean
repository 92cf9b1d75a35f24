/-
  Partitions that are derived from others.

  Deriving adds one clause and lengthens the name (`Key.part`), so a chain of
  derivations adds a clause for each value (`Key.parts`), whatever the key
  asked for before.

  * `foldlM_derive_iff`: a chain succeeds if no value is blank, and what it
    gives;
  * `owns_parts`, `discriminator_of_owns`, `isDisjointFrom_part`: which
    instances are in a derived partition, what its discriminator is, and that
    it is apart from those of other values;
  * `derivation_scopes_exactly` collects this.
-/
import DueWork.Proofs.Partition.Clauses
import DueWork.Proofs.Partition.Overlap
import DueWork.Proofs.Text.Blank

namespace DueWork.Key

variable {k d : Key} {j : Job} {v w value : String} {values : List String}

/-- The part of a partition with this value of the partition attribute. -/
def part (k : Key) (value : String) : Key :=
  { k with
    name := k.name ++ "/" ++ value
    predicate := k.predicate.and k.partitionAttribute value }

theorem derive_of_not_blank (h : ¬Text.IsBlank value) : k.derive value = .ok (k.part value) :=
  if_neg h

/-- The clauses that pin the partition attribute to values. -/
def pins (k : Key) (values : List String) : List Clause :=
  values.map fun v => ⟨k.partitionAttribute, v⟩

/-- The part with all of these values of the partition attribute, one after the
    other. -/
def parts (k : Key) (values : List String) : Key :=
  { k with
    name := k.name ++ String.join (values.map ("/" ++ ·))
    predicate := k.predicate.andAll (k.pins values) }

theorem parts_nil : k.parts [] = k := by
  simp [parts, pins, Predicate.andAll]

theorem parts_cons : (k.part v).parts values = k.parts (v :: values) := by
  have hname : k.name ++ "/" ++ v ++ String.join (values.map ("/" ++ ·)) =
      k.name ++ String.join ((v :: values).map ("/" ++ ·)) := by
    rw [List.map_cons, String.join_cons, String.append_assoc, String.append_assoc,
      String.append_assoc]
  rw [parts, parts, part, hname]
  rfl

/-- A chain of derivations succeeds if no value is blank. -/
theorem foldlM_derive_iff :
    values.foldlM derive k = .ok d ↔ (∀ v ∈ values, ¬Text.IsBlank v) ∧ d = k.parts values := by
  induction values generalizing k with
  | nil =>
    rw [parts_nil, List.foldlM_nil]
    exact ⟨fun h => ⟨List.forall_mem_nil _, (Except.ok.inj h).symm⟩, fun h => h.2 ▸ rfl⟩
  | cons v values ih =>
    rw [List.foldlM_cons, List.forall_mem_cons]
    by_cases hv : Text.IsBlank v
    · rw [derive, if_pos hv]
      exact iff_of_false nofun fun h => h.1.1 hv
    · rw [derive_of_not_blank hv, and_iff_right hv, ← parts_cons]
      exact ih

/-! ## What is in a derived partition -/

theorem owns_parts : (k.parts values).owns j = true ↔
    k.owns j = true ∧ ∀ v ∈ values, j.attributes.get? k.partitionAttribute = some v := by
  simp only [owns, parts, Bool.and_eq_true, beq_iff_eq, Predicate.accepts_andAll, pins,
    List.forall_mem_map, and_assoc]

/-- The attribute of an instance of the partition is what it is pinned to, so
    the discriminator is that too. -/
theorem discriminator_of_owns (h : d.owns j = true)
    (hpin : ⟨d.partitionAttribute, v⟩ ∈ d.predicate.clauses) : d.discriminator = some v := by
  have hall := Predicate.accepts_iff.1 (Bool.and_eq_true_iff.1 h).2
  have hholds {c : Clause} (hc : c ∈ d.predicate.clauses) :
      j.attributes.get? c.name = some c.value := beq_iff_eq.1 (hall c hc)
  rw [discriminator]
  cases hfind : d.predicate.clauses.reverse.find? (·.name == d.partitionAttribute) with
  | none => simpa using List.find?_eq_none.1 hfind _ (List.mem_reverse.2 hpin)
  | some c =>
    -- whichever clause was found first, the instance has its value
    have hname : c.name = d.partitionAttribute := by simpa using List.find?_some hfind
    have hc := hholds (List.mem_reverse.1 (List.mem_of_find?_eq_some hfind))
    rw [hname, hholds hpin] at hc
    rw [Option.map_some, ← hc]

theorem isDisjointFrom_part (h : v ≠ w) : (k.part v).isDisjointFrom (k.part w) = true := by
  have hpart (u : String) : k.part u = k.parts [u] := by rw [← parts_cons, parts_nil]
  rw [isDisjointFrom_iff, hpart, hpart]
  rintro ⟨j, hv, hw⟩
  have hv := (owns_parts.1 hv).2 v (List.mem_singleton_self v)
  have hw := (owns_parts.1 hw).2 w (List.mem_singleton_self w)
  exact h (Option.some.inj (hv.symm.trans hw))

/-- **Deriving scopes a partition to the values that it is given.**  Whatever
    the key is, derived itself or not, and whatever it asks of the partition
    attribute. -/
theorem derivation_scopes_exactly (k : Key) :
    (∀ values : List String,
      (∃ d, values.foldlM derive k = .ok d) ↔ ∀ v ∈ values, Text.trim v ≠ "") ∧
    (∀ (values : List String) (d : Key), values.foldlM derive k = .ok d →
      (∀ j, d.owns j = true ↔
        k.owns j = true ∧ ∀ v ∈ values, j.attributes.get? k.partitionAttribute = some v) ∧
      d = { k with
        name := k.name ++ String.join (values.map ("/" ++ ·))
        predicate := d.predicate } ∧
      ((∃ j, d.owns j = true) → ∀ v, values.getLast? = some v → d.discriminator = some v)) ∧
    ∀ v w : String, Text.trim v ≠ "" → Text.trim w ≠ "" → v ≠ w →
      ∃ a b, k.derive v = .ok a ∧ k.derive w = .ok b ∧
        a.isDisjointFrom b = true ∧ b.isDisjointFrom a = true ∧
        ¬∃ j, a.owns j = true ∧ b.owns j = true := by
  simp only [ne_eq, Text.trim_eq_empty]
  refine ⟨fun values => ?_, fun values d h => ?_, fun v w hv hw hne => ?_⟩
  · exact ⟨fun ⟨_, h⟩ => (foldlM_derive_iff.1 h).1, fun h => ⟨_, foldlM_derive_iff.2 ⟨h, rfl⟩⟩⟩
  · obtain ⟨-, rfl⟩ := foldlM_derive_iff.1 h
    refine ⟨fun j => owns_parts, rfl, fun ⟨j, hj⟩ v hlast => ?_⟩
    refine discriminator_of_owns hj (Predicate.mem_andAll.2 (.inr ?_))
    exact List.mem_map.2 ⟨v, List.mem_of_getLast? hlast, rfl⟩
  · have hdisjoint := isDisjointFrom_part (k := k) hne
    exact ⟨k.part v, k.part w, derive_of_not_blank hv, derive_of_not_blank hw, hdisjoint,
      isDisjointFrom_comm hdisjoint, isDisjointFrom_iff.1 hdisjoint⟩

/-- Notifications by mail. -/
def mails : Key := { name := "jobs", predicate := ⟨[⟨"channel_type", "mail"⟩]⟩ }

/-- Derived for mail again they stay what they are, under another name, and
    apart from those for texts, of which there are none. -/
theorem derivation_scopes_exactly_again :
    (∃ d, ["mail"].foldlM derive mails = .ok d ∧ d.name = "jobs/mail" ∧
      d.predicate = mails.predicate ∧ (∃ j, d.owns j = true) ∧ d.discriminator = some "mail") ∧
    ∃ a b, mails.derive "mail" = .ok a ∧ mails.derive "text" = .ok b ∧
      a.isDisjointFrom b = true ∧ b.isDisjointFrom a = true := by
  obtain ⟨hchain, hscope, hapart⟩ := derivation_scopes_exactly mails
  obtain ⟨a, b, ha, hb, hab, hba, -⟩ := hapart "mail" "text" (by decide) (by decide) (by decide)
  refine ⟨?_, a, b, ha, hb, hab, hba⟩
  have hd : ["mail"].foldlM derive mails = .ok (mails.part "mail") := rfl
  have howns : ∃ j, (mails.part "mail").owns j = true :=
    ⟨sample "job_instance" (.ofList [("channel_type", "mail")]), by decide⟩
  exact ⟨_, hd, rfl, rfl, howns, (hscope _ _ hd).2.2 howns "mail" rfl⟩

end DueWork.Key

/-
  The checks of disjointness are exact.

  The other half of what `Disjoint.lean` says: clauses that do not contradict
  one another hold of the attributes that they ask for
  (`Attributes.ofClauses`).  So what the checks refuse is shared:

  * `Predicate.isSatisfiable_iff` and `Predicate.isDisjointFrom_iff`: attributes
    that satisfy the clauses of one predicate, or of two;
  * `Key.isDisjointFrom_iff`: an instance of the common type with those
    attributes;
  * `validateDisjoint_iff_unshared`: two positions of a list of keys.
-/
import DueWork.Proofs.Partition.Disjoint

namespace DueWork

/-! ## Attributes that satisfy clauses -/

namespace Attributes

theorem lookup_cons_ite (name value n : String) (es : List (String × String)) :
    ((name, value) :: es).lookup n = if n = name then some value else es.lookup n := by
  rw [List.lookup_cons]
  by_cases h : n = name
  · rw [if_pos h, h, beq_self_eq_true]
  · rw [if_neg h, beq_false_of_ne h]

theorem lookup_insertEntry (name value n : String) (es : List (String × String)) :
    (insertEntry name value es).lookup n = if n = name then some value else es.lookup n := by
  induction es with
  | nil => exact lookup_cons_ite ..
  | cons e es ih =>
    obtain ⟨m, v⟩ := e
    rw [insertEntry, lookup_cons_ite]
    split
    · rw [lookup_cons_ite, lookup_cons_ite]
    · split
      case isTrue heq =>
        rw [lookup_cons_ite, heq]
        split <;> rfl
      case isFalse hne =>
        rw [lookup_cons_ite, ih]
        by_cases h : n = m
        · rw [if_pos h, if_pos h, if_neg fun hn => hne (hn.symm.trans h)]
        · rw [if_neg h, if_neg h]

theorem get?_insert (a : Attributes) (name value n : String) :
    (a.insert name value).get? n = if n = name then some value else a.get? n :=
  lookup_insertEntry name value n a.entries

/-- The attributes that clauses ask for; of two clauses on one attribute the
    first counts. -/
def ofClauses : List Clause → Attributes
  | [] => ∅
  | c :: cs => (ofClauses cs).insert c.name c.value

end Attributes

section

variable {c d : Clause} {cs : List Clause} {p q : Predicate}

theorem Clause.contradicts_eq_false_iff :
    c.contradicts d = false ↔ (c.name = d.name → c.value = d.value) := by
  rw [← Bool.not_eq_true, contradicts_iff, not_and, not_not]

namespace Predicate

theorem consistent_iff :
    consistent cs = true ↔ cs.Pairwise fun c d => c.contradicts d = false := by
  induction cs with
  | nil => simp [consistent]
  | cons c cs ih => simp [consistent, List.pairwise_cons, ih]

/-- Consistent clauses hold of the attributes they ask for. -/
theorem holds_ofClauses (h : consistent cs = true) : ∀ c ∈ cs, c.holds (.ofClauses cs) = true := by
  rw [consistent_iff] at h
  induction h with
  | nil => exact nofun
  | @cons c cs hc _ ih =>
    intro d hd
    rw [Clause.holds, Attributes.ofClauses, Attributes.get?_insert, beq_iff_eq]
    rcases List.mem_cons.1 hd with rfl | hd
    · rw [if_pos rfl]
    · by_cases hname : d.name = c.name
      · rw [if_pos hname, Clause.contradicts_eq_false_iff.1 (hc d hd) hname.symm]
      · rw [if_neg hname]
        exact beq_iff_eq.1 (ih d hd)

/-- A predicate is satisfiable if some attributes satisfy it. -/
theorem isSatisfiable_iff : p.isSatisfiable = true ↔ ∃ a, p.accepts a = true := by
  constructor
  · intro h
    exact ⟨.ofClauses p.clauses, accepts_iff.2 (holds_ofClauses h)⟩
  · rintro ⟨a, ha⟩
    exact isSatisfiable_of_accepts ha

/-- Predicates are taken for disjoint if their clauses together are
    inconsistent. -/
theorem isDisjointFrom_eq : p.isDisjointFrom q = !consistent (p.clauses ++ q.clauses) := by
  rw [Bool.eq_iff_iff, Bool.not_eq_true', ← Bool.not_eq_true, consistent_iff, List.pairwise_append,
    ← consistent_iff, ← consistent_iff]
  simp only [isDisjointFrom, isSatisfiable, Bool.or_eq_true, Bool.not_eq_true', List.any_eq_true,
    ← Bool.not_eq_true]
  constructor
  · rintro ((hp | hq) | ⟨c, hc, d, hd, hcd⟩) ⟨hp', hq', hpq⟩
    · exact hp hp'
    · exact hq hq'
    · exact hpq c hc d hd hcd
  · intro h
    by_contra hnone
    push Not at hnone
    exact h ⟨hnone.1.1, hnone.1.2, fun c hc d hd => hnone.2 c hc d hd⟩

/-- Predicates are taken for disjoint if no attributes satisfy both. -/
theorem isDisjointFrom_iff :
    p.isDisjointFrom q = true ↔ ¬∃ a, p.accepts a = true ∧ q.accepts a = true := by
  constructor
  · rintro h ⟨a, ha⟩
    exact not_both_accept h ha
  · intro hnone
    rw [isDisjointFrom_eq, Bool.not_eq_true', Bool.eq_false_iff]
    intro h
    have hall := holds_ofClauses h
    exact hnone ⟨.ofClauses (p.clauses ++ q.clauses),
      accepts_iff.2 fun c hc => hall c (List.mem_append_left _ hc),
      accepts_iff.2 fun c hc => hall c (List.mem_append_right _ hc)⟩

end Predicate

end

/-! ## Instances in two partitions -/

namespace Key

variable {a b : Key}

/-- An instance of this type with these attributes. -/
def sample (instanceType : String) (attributes : Attributes) : Job :=
  NewJob.toJob { instanceType, jobRef := "", dueAt := .epoch, attributes } 0 .epoch

theorem owns_sample {type : String} {attributes : Attributes} :
    a.owns (sample type attributes) = true ↔
      type = a.instanceType ∧ a.predicate.accepts attributes = true := by
  rw [owns, Bool.and_eq_true, beq_iff_eq]
  rfl

/-- Keys are taken for disjoint if no instance is in both partitions. -/
theorem isDisjointFrom_iff :
    a.isDisjointFrom b = true ↔ ¬∃ j, a.owns j = true ∧ b.owns j = true := by
  constructor
  · rintro h ⟨j, hj⟩
    exact not_both_own h hj
  · intro hnone
    by_contra h
    rw [isDisjointFrom, Bool.or_eq_true, bne_iff_ne, not_or, not_not,
      Predicate.isDisjointFrom_iff, not_not] at h
    obtain ⟨htype, attributes, ha, hb⟩ := h
    exact hnone ⟨sample a.instanceType attributes, owns_sample.2 ⟨rfl, ha⟩,
      owns_sample.2 ⟨htype, hb⟩⟩

theorem isDisjointFrom_comm (h : a.isDisjointFrom b = true) : b.isDisjointFrom a = true := by
  rw [isDisjointFrom_iff] at h ⊢
  exact fun ⟨j, hb, ha⟩ => h ⟨j, ha, hb⟩

theorem Apart.symm (h : a.Apart b) : b.Apart a :=
  ⟨h.name.symm, isDisjointFrom_comm h.disjoint⟩

instance : Std.Symm Apart := ⟨fun _ _ => Apart.symm⟩

end Key

/-- A list of keys passes if the names are distinct and no instance is in the
    partitions at two positions. -/
theorem validateDisjoint_iff_unshared {ks : List Key} :
    validateDisjoint ks = .ok () ↔
      (ks.map (·.name)).Nodup ∧
        ∀ i k : Fin ks.length, i ≠ k → ¬∃ j, ks[i].owns j = true ∧ ks[k].owns j = true := by
  have hpairs : (ks.Pairwise fun a b => a.isDisjointFrom b = true) ↔
      ∀ i k : Fin ks.length, i ≠ k → ¬∃ j, ks[i].owns j = true ∧ ks[k].owns j = true := by
    simp only [Key.isDisjointFrom_iff, List.pairwise_iff_getElem]
    constructor
    · intro h i k hne hboth
      rcases Nat.lt_or_gt_of_ne (Fin.val_ne_of_ne hne) with hlt | hlt
      · exact h i k i.2 k.2 hlt hboth
      · exact h k i k.2 i.2 hlt (hboth.imp fun j => And.symm)
    · intro h i k hi hk hlt
      exact h ⟨i, hi⟩ ⟨k, hk⟩ (Fin.ne_of_val_ne (Nat.ne_of_lt hlt))
  rw [← hpairs, validateDisjoint_iff, List.Nodup, List.pairwise_map, ← List.pairwise_and_iff]
  exact List.Pairwise.iff fun _ _ => ⟨fun h => ⟨h.name, h.disjoint⟩, fun h => ⟨h.1, h.2⟩⟩

/-- What the checks decide from clauses is what holds of all attributes and of
    all instances. -/
theorem disjointness_is_exact :
    (∀ p : Predicate, p.isSatisfiable = true ↔ ∃ a, p.accepts a = true) ∧
    (∀ p q : Predicate,
      p.isDisjointFrom q = true ↔ ¬∃ a, p.accepts a = true ∧ q.accepts a = true) ∧
    (∀ a b : Key, a.isDisjointFrom b = true ↔ ¬∃ j, a.owns j = true ∧ b.owns j = true) ∧
    ∀ ks : List Key, validateDisjoint ks = .ok () ↔
      (ks.map (·.name)).Nodup ∧
        ∀ i k : Fin ks.length, i ≠ k → ¬∃ j, ks[i].owns j = true ∧ ks[k].owns j = true :=
  ⟨fun _ => Predicate.isSatisfiable_iff, fun _ _ => Predicate.isDisjointFrom_iff,
    fun _ _ => Key.isDisjointFrom_iff, fun _ => validateDisjoint_iff_unshared⟩

end DueWork

/-
  Partitions that share no instance.

  The checks look at clauses only: two partitions are taken for disjoint if
  their types differ, or if no attributes can satisfy the clauses of both.

  * `Predicate.not_both_accept` and `Key.not_both_own`: then no attributes and
    no instance are in both;
  * `validateDisjoint_iff` and `requireNewKey_iff`: the check of all keys at
    once and the check of one more key ask for the same relation `Key.Apart`,
    so that adding keys one by one agrees with checking them all
    (`validateDisjoint_concat`).
-/
import Mathlib.Data.List.Nodup
import DueWork.Manager.Startup

namespace DueWork

/-! ## Clauses -/

section

variable {c d : Clause} {cs : List Clause} {p q : Predicate} {a : Attributes}

theorem Clause.contradicts_iff : c.contradicts d = true ↔ c.name = d.name ∧ c.value ≠ d.value := by
  rw [contradicts, Bool.and_eq_true, beq_iff_eq, bne_iff_ne]

/-- Clauses that hold of the same attributes do not contradict each other. -/
theorem Clause.not_contradicts (hc : c.holds a = true) (hd : d.holds a = true) :
    c.contradicts d = false := by
  refine Bool.eq_false_iff.2 fun h => ?_
  obtain ⟨hname, hvalue⟩ := contradicts_iff.1 h
  rw [holds, beq_iff_eq] at hc hd
  rw [hname, hd] at hc
  exact hvalue (Option.some.inj hc).symm

namespace Predicate

theorem accepts_iff : p.accepts a = true ↔ ∀ c ∈ p.clauses, c.holds a = true := List.all_eq_true

/-- Clauses that all hold of some attributes are consistent. -/
theorem consistent_of_holds (h : ∀ c ∈ cs, c.holds a = true) : consistent cs = true := by
  induction cs with
  | nil => rfl
  | cons c cs ih =>
    obtain ⟨hc, hcs⟩ := List.forall_mem_cons.1 h
    rw [consistent, Bool.and_eq_true, Bool.not_eq_true', List.any_eq_false]
    exact ⟨fun d hd => by simp [Clause.not_contradicts hc (hcs d hd)], ih hcs⟩

theorem isSatisfiable_of_accepts (h : p.accepts a = true) : p.isSatisfiable = true :=
  consistent_of_holds (accepts_iff.1 h)

/-- No attributes satisfy two predicates that are disjoint by their clauses. -/
theorem not_both_accept (h : p.isDisjointFrom q = true) :
    ¬(p.accepts a = true ∧ q.accepts a = true) := by
  rintro ⟨hp, hq⟩
  rw [isDisjointFrom, isSatisfiable_of_accepts hp, isSatisfiable_of_accepts hq] at h
  obtain ⟨c, hc, h⟩ := List.any_eq_true.1 h
  obtain ⟨d, hd, h⟩ := List.any_eq_true.1 h
  rw [Clause.not_contradicts (accepts_iff.1 hp c hc) (accepts_iff.1 hq d hd)] at h
  cases h

end Predicate

end

/-! ## Keys -/

variable {a b k : Key} {ks : List Key} {j : Job} {seen : List String}

namespace Key

/-- No instance is in two partitions that are disjoint by their keys. -/
theorem not_both_own (h : a.isDisjointFrom b = true) : ¬(a.owns j = true ∧ b.owns j = true) := by
  simp only [owns, Bool.and_eq_true, beq_iff_eq]
  rintro ⟨⟨ha, hpa⟩, hb, hpb⟩
  rw [isDisjointFrom, Bool.or_eq_true, bne_iff_ne] at h
  rcases h with hne | hdisjoint
  · exact hne (ha.symm.trans hb)
  · exact Predicate.not_both_accept hdisjoint ⟨hpa, hpb⟩

/-- Two partitions with names of their own that are disjoint by their keys. -/
structure Apart (a b : Key) : Prop where
  name : a.name ≠ b.name
  disjoint : a.isDisjointFrom b = true

end Key

/-! ## The two checks -/

theorem repeatedName_eq_none :
    repeatedName seen ks = none ↔ (ks.map (·.name)).Nodup ∧ ∀ k ∈ ks, k.name ∉ seen := by
  induction ks generalizing seen with
  | nil => simp [repeatedName]
  | cons k ks ih =>
    rw [repeatedName]
    by_cases hk : k.name ∈ seen
    · simp [hk]
    · rw [if_neg (by simpa using hk), ih, List.map_cons, List.nodup_cons]
      rw [List.forall_mem_cons]
      simp only [List.mem_cons, not_or, List.mem_map, not_exists, not_and]
      constructor
      · rintro ⟨hnodup, hseen⟩
        exact ⟨⟨fun l hl => (hseen l hl).1, hnodup⟩, hk, fun l hl => (hseen l hl).2⟩
      · rintro ⟨⟨hnew, hnodup⟩, -, hseen⟩
        exact ⟨hnodup, fun l hl => ⟨hnew l hl, hseen l hl⟩⟩

theorem overlappingPair_eq_none :
    overlappingPair ks = none ↔ ks.Pairwise fun a b => a.isDisjointFrom b = true := by
  induction ks with
  | nil => simp [overlappingPair]
  | cons k ks ih =>
    rw [overlappingPair, List.pairwise_cons, ← ih]
    cases hfind : ks.find? fun l => !k.isDisjointFrom l with
    | none =>
      have hall : ∀ l ∈ ks, k.isDisjointFrom l = true := by simpa using hfind
      exact ⟨fun h => ⟨hall, h⟩, And.right⟩
    | some l =>
      have hl : k.isDisjointFrom l = false := by simpa using List.find?_some hfind
      have hmem := List.mem_of_find?_eq_some hfind
      simp only [reduceCtorEq, false_iff, not_and]
      intro h
      rw [h l hmem] at hl
      cases hl

/-- All keys at once: any two of them have to be apart. -/
theorem validateDisjoint_iff : validateDisjoint ks = .ok () ↔ ks.Pairwise Key.Apart := by
  have hapart : ks.Pairwise Key.Apart ↔
      repeatedName [] ks = none ∧ overlappingPair ks = none := by
    rw [repeatedName_eq_none, overlappingPair_eq_none, List.Nodup, List.pairwise_map]
    simp only [List.not_mem_nil, not_false_eq_true, implies_true, and_true]
    rw [← List.pairwise_and_iff]
    exact List.Pairwise.iff fun _ _ => ⟨fun h => ⟨h.name, h.disjoint⟩, fun h => ⟨h.1, h.2⟩⟩
  rw [hapart, validateDisjoint]
  cases repeatedName [] ks with
  | some name => simp
  | none => cases overlappingPair ks <;> simp

/-- Checks are passed if each of them is. -/
theorem forM_eq_ok {ε α : Type} {f : α → Except ε Unit} {xs : List α} :
    xs.forM f = .ok () ↔ ∀ x ∈ xs, f x = .ok () := by
  induction xs with
  | nil => simp [pure, Except.pure]
  | cons x xs ih =>
    rw [List.forall_mem_cons, ← ih]
    show (f x).bind (fun _ => xs.forM f) = .ok () ↔ _
    cases hx : f x with
    | error e => simp [Except.bind]
    | ok u => simp [Except.bind]

/-- One more key: it has to be apart from each of the others. -/
theorem requireNewKey_iff : requireNewKey ks k = .ok () ↔ ∀ l ∈ ks, l.Apart k := by
  rw [requireNewKey, forM_eq_ok]
  refine forall₂_congr fun l _ => ?_
  by_cases hname : l.name = k.name
  · rw [if_pos hname]
    exact iff_of_false nofun fun h => h.name hname
  · rw [if_neg hname]
    cases hdisjoint : l.isDisjointFrom k with
    | false => exact iff_of_false nofun fun h => by rw [h.disjoint] at hdisjoint; cases hdisjoint
    | true => exact iff_of_true rfl ⟨hname, hdisjoint⟩

/-- Keys that are checked one by one are checked all at once. -/
theorem validateDisjoint_concat : validateDisjoint (ks ++ [k]) = .ok () ↔
    validateDisjoint ks = .ok () ∧ requireNewKey ks k = .ok () := by
  rw [validateDisjoint_iff, validateDisjoint_iff, requireNewKey_iff, List.pairwise_append]
  simp

end DueWork

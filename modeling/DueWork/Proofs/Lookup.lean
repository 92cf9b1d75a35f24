/-
  Lookup in an association list: past an entry for another key, and after one
  key was taken out.
-/
import Mathlib.Data.List.Basic

namespace DueWork

variable {α : Type}

theorem lookup_cons_of_ne {k i : Nat} (h : i ≠ k) (a : α) (l : List (Nat × α)) :
    ((k, a) :: l).lookup i = l.lookup i := by
  rw [List.lookup_cons, beq_false_of_ne h]

@[simp] theorem lookup_filter_self (k : Nat) (l : List (Nat × α)) :
    (l.filter (·.1 != k)).lookup k = none := by
  simp only [List.lookup_eq_none_iff, List.mem_filter, bne_iff_ne, and_imp]
  exact fun p _ hp => hp.symm

theorem lookup_filter_of_ne {k i : Nat} (h : i ≠ k) (l : List (Nat × α)) :
    (l.filter (·.1 != k)).lookup i = l.lookup i := by
  induction l with
  | nil => rfl
  | cons p l ih =>
    by_cases hp : p.1 = k
    · -- the entry that goes away is not the one looked up
      rw [List.filter_cons_of_neg (by simp [hp]), ih, List.lookup_cons]
      have : (i == p.1) = false := by simp [hp, h]
      rw [this]
    · rw [List.filter_cons_of_pos (by simp [hp]), List.lookup_cons, List.lookup_cons, ih]

end DueWork

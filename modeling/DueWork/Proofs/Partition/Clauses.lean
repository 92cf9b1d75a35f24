/-
  Adding clauses to a predicate.

  A clause is added at the end, and only once (`clauses_and`); so the clauses
  of a predicate that some clauses were added to are these without repetitions,
  in the order in which they come first (`clauses_andAll`), and attributes
  match it if they match the old one and each of the clauses
  (`accepts_andAll`).
-/
import Mathlib.Data.List.Induction
import DueWork.Proofs.Partition.Disjoint

namespace DueWork.Predicate

variable {p : Predicate} {c d : Clause} {cs ds : List Clause} {a : Attributes}
variable {name value : String}

/-- A predicate with more clauses, added one after the other. -/
def andAll (p : Predicate) (cs : List Clause) : Predicate :=
  cs.foldl (fun p c => p.and c.name c.value) p

theorem and_of_mem (h : ⟨name, value⟩ ∈ p.clauses) : p.and name value = p :=
  if_pos (List.contains_iff_mem.2 h)

theorem clauses_and : (p.and name value).clauses =
    if ⟨name, value⟩ ∈ p.clauses then p.clauses else p.clauses ++ [⟨name, value⟩] := by
  simp only [and, List.contains_iff_mem]
  split <;> rfl

theorem mem_and : c ∈ (p.and name value).clauses ↔ c ∈ p.clauses ∨ c = ⟨name, value⟩ := by
  rw [clauses_and]
  split
  case isTrue h => exact ⟨.inl, fun hc => hc.elim id fun heq => heq ▸ h⟩
  case isFalse => rw [List.mem_append, List.mem_singleton]

theorem mem_andAll : c ∈ (p.andAll cs).clauses ↔ c ∈ p.clauses ∨ c ∈ cs := by
  induction cs generalizing p with
  | nil => simp [andAll]
  | cons d cs ih => rw [andAll, List.foldl_cons, ← andAll, ih, mem_and, List.mem_cons, or_assoc]

theorem accepts_andAll : (p.andAll cs).accepts a = true ↔
    p.accepts a = true ∧ ∀ c ∈ cs, a.get? c.name = some c.value := by
  simp only [accepts_iff, mem_andAll, or_imp, forall_and, Clause.holds, beq_iff_eq]

/-- Of clauses that come more than once the first are kept. -/
theorem clauses_andAll (h : p.clauses = ds.eraseDups) :
    (p.andAll cs).clauses = (ds ++ cs).eraseDups := by
  induction cs generalizing p ds with
  | nil => rw [andAll, List.foldl_nil, h, List.append_nil]
  | cons c cs ih =>
    have hadd : (p.and c.name c.value).clauses = (ds ++ [c]).eraseDups := by
      rw [clauses_and, h, List.eraseDups_append]
      by_cases hc : c ∈ ds <;> simp [hc, List.removeAll, List.eraseDups_cons]
    rw [andAll, List.foldl_cons, ← andAll, ih hadd, List.append_assoc, List.singleton_append]

/-- Built from no clause, a predicate is built from its own clauses. -/
theorem andAll_clauses (cs : List Clause) : all.andAll (all.andAll cs).clauses = all.andAll cs := by
  induction cs using List.reverseRecOn with
  | nil => rfl
  | append_singleton cs c ih =>
    have hconcat (ds : List Clause) : all.andAll (ds ++ [c]) =
        (all.andAll ds).and c.name c.value := by rw [andAll, List.foldl_append]; rfl
    rw [hconcat cs, clauses_and]
    split
    case isTrue h => rw [ih, and_of_mem h]
    case isFalse => rw [hconcat, ih]

end DueWork.Predicate

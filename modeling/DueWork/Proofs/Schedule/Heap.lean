/-
  The elements of a heap and their order.

  * `mem_merge`: merging keeps the elements of both heaps;
  * `Ordered`: no element comes before the one above it, and merging and
    popping keep that (`Ordered.merge`, `Ordered.pop`);
  * `Ordered.le_of_peek?`: so the element at the top is a least one.
-/
import DueWork.Schedule.Heap

namespace DueWork.Schedule.Heap

variable {α : Type} {le : α → α → Bool} {h k : Heap α} {x y : α}

theorem mem_merge : y ∈ (merge le h k).toList ↔ y ∈ h.toList ∨ y ∈ k.toList := by
  fun_induction merge le h k with
  | case1 k => simp [toList]
  | case2 h => simp [toList]
  | case3 x l r z l' r' _ ih =>
    simp only [toList, List.mem_cons, List.mem_append, ih]
    grind
  | case4 x l r z l' r' _ ih =>
    simp only [toList, List.mem_cons, List.mem_append, ih]
    grind

theorem mem_push : y ∈ (push le x h).toList ↔ y = x ∨ y ∈ h.toList := by
  simp [push, mem_merge, toList]

/-- What is popped is the element at the top. -/
theorem mem_iff_of_peek? (hx : h.peek? = some x) :
    y ∈ h.toList ↔ y = x ∨ y ∈ (h.pop le).toList := by
  cases h with
  | empty => cases hx
  | node z l r =>
    cases hx
    simp [toList, pop, mem_merge]

theorem mem_of_peek? (hx : h.peek? = some x) : x ∈ h.toList := by
  cases h with
  | empty => cases hx
  | node z l r => cases hx; exact List.mem_cons_self

/-- No element comes before the one above it. -/
def Ordered (le : α → α → Bool) : Heap α → Prop
  | empty => True
  | node x l r =>
    (∀ y, y ∈ l.toList ∨ y ∈ r.toList → le x y = true) ∧ l.Ordered le ∧ r.Ordered le

section

variable (trans : ∀ a b c, le a b = true → le b c = true → le a c = true)
  (total : ∀ a b, le a b = true ∨ le b a = true)
include total

theorem Ordered.le_of_peek? (ho : h.Ordered le) (hx : h.peek? = some x) (hy : y ∈ h.toList) :
    le x y = true := by
  cases h with
  | empty => cases hx
  | node z l r =>
    cases hx
    simp only [toList, List.mem_cons, List.mem_append] at hy
    rcases hy with rfl | hy
    · exact (total y y).elim id id
    · exact ho.1 y hy

include trans

theorem Ordered.merge (hh : h.Ordered le) (hk : k.Ordered le) : (merge le h k).Ordered le := by
  fun_induction Heap.merge le h k with
  | case1 k => exact hk
  | case2 h => exact hh
  | case3 x l r z l' r' hle ih =>
    refine ⟨?_, ih hh.2.2 hk, hh.2.1⟩
    rintro y (hy | hy)
    · rcases mem_merge.1 hy with hy | hy
      · exact hh.1 y (.inr hy)
      · -- what is below `z` is not before `x` either
        exact trans _ _ _ hle (hk.le_of_peek? total rfl hy)
    · exact hh.1 y (.inl hy)
  | case4 x l r z l' r' hle ih =>
    have hzx : le z x = true := (total x z).resolve_left hle
    refine ⟨?_, ih hh hk.2.2, hk.2.1⟩
    rintro y (hy | hy)
    · rcases mem_merge.1 hy with hy | hy
      · exact trans _ _ _ hzx (hh.le_of_peek? total rfl hy)
      · exact hk.1 y (.inr hy)
    · exact hk.1 y (.inl hy)

theorem Ordered.push (hh : h.Ordered le) : (push le x h).Ordered le :=
  Ordered.merge trans total ⟨nofun, trivial, trivial⟩ hh

theorem Ordered.pop (hh : h.Ordered le) : (pop le h).Ordered le := by
  cases h with
  | empty => trivial
  | node z l r => exact Ordered.merge trans total hh.2.1 hh.2.2

end

end DueWork.Schedule.Heap

/-
  Heaps: collections that give up their least element first.

  A heap is a tree whose children are never before their parent.  Two heaps
  are merged along their right sides, and the sides are swapped on the way so
  that none of them grows long.

  * `merge` keeps all elements (`size_merge`); `push` and `pop` are merges;
  * `toList` lists the elements in the order of the tree.
-/

namespace DueWork.Schedule

/-- A binary tree of elements. -/
inductive Heap (α : Type) where
  | empty
  | node (least : α) (left right : Heap α)
deriving Repr

namespace Heap

variable {α : Type}

instance : Inhabited (Heap α) := ⟨empty⟩

/-- The number of elements. -/
def size : Heap α → Nat
  | empty => 0
  | node _ l r => l.size + r.size + 1

/-- The elements. -/
def toList : Heap α → List α
  | empty => []
  | node x l r => x :: (l.toList ++ r.toList)

/-- All elements of two heaps. -/
def merge (le : α → α → Bool) : Heap α → Heap α → Heap α
  | empty, h => h
  | h, empty => h
  | node x l r, node y l' r' =>
    if le x y then node x (merge le r (node y l' r')) l
    else node y (merge le (node x l r) r') l'
termination_by h k => h.size + k.size
decreasing_by all_goals simp only [size]; omega

/-- One more element. -/
def push (le : α → α → Bool) (x : α) (h : Heap α) : Heap α := merge le (node x empty empty) h

/-- The least element. -/
def peek? : Heap α → Option α
  | empty => none
  | node x _ _ => some x

/-- The heap without its least element. -/
def pop (le : α → α → Bool) : Heap α → Heap α
  | empty => empty
  | node _ l r => merge le l r

theorem size_merge (le : α → α → Bool) (h k : Heap α) : (merge le h k).size = h.size + k.size := by
  fun_induction merge le h k with
  | case1 => simp [size]
  | case2 => simp [size]
  | case3 x l r y l' r' _ ih => simp only [size, ih]; omega
  | case4 x l r y l' r' _ ih => simp only [size, ih]; omega

theorem size_pop (le : α → α → Bool) (x : α) (l r : Heap α) :
    (pop le (node x l r)).size < (node x l r).size := by
  simp only [pop, size_merge, size]; omega

end Heap

end DueWork.Schedule

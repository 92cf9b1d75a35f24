/-
  The wake queue: when each slot is to be looked at next.

  A slot has at most one wake time.  Scheduling it earlier replaces the time,
  scheduling it later changes nothing.  The times are in a heap; an entry
  that was replaced stays there until it reaches the top, and is known by its
  generation, which is no longer that of its slot.

  * `schedule`, `next?` and `popDue` are the operations; equal times leave in
    the order in which they came;
  * `discardStale` takes replaced entries off the top.
-/
import DueWork.Schedule.Heap

namespace DueWork.Schedule

/-- A wake time of a slot; the generation is new for every entry. -/
structure WakeEntry where
  time : Nat
  generation : Nat
  slot : Nat
deriving DecidableEq, Repr

/-- By time, then by generation. -/
def WakeEntry.le (a b : WakeEntry) : Bool :=
  a.time < b.time || (a.time == b.time && a.generation ≤ b.generation)

/-- Wake times by slot. -/
structure WakeQueue where
  heap : Heap WakeEntry := .empty
  /-- wake time and generation of each scheduled slot -/
  live : List (Nat × (Nat × Nat)) := []
  nextGeneration : Nat := 0

namespace WakeQueue

instance : Inhabited WakeQueue := ⟨{}⟩

/-- The wake time of a slot. -/
def time? (q : WakeQueue) (slot : Nat) : Option Nat := (q.live.lookup slot).map (·.1)

/-- The number of scheduled slots. -/
def size (q : WakeQueue) : Nat := q.live.length

/-- The list without the entry of a key. -/
def eraseKey {α : Type} (k : Nat) (l : List (Nat × α)) : List (Nat × α) := l.filter (·.1 != k)

/-- Schedule a slot unless it is scheduled no later already. -/
def insert (q : WakeQueue) (slot time : Nat) : WakeQueue :=
  let generation := q.nextGeneration + 1
  { heap := q.heap.push WakeEntry.le ⟨time, generation, slot⟩
    live := (slot, (time, generation)) :: eraseKey slot q.live
    nextGeneration := generation }

/-- Schedule a slot unless it is scheduled no later already, and say whether
    that changed anything. -/
def schedule (q : WakeQueue) (slot time : Nat) : Bool × WakeQueue :=
  match q.time? slot with
  | some current => if current ≤ time then (false, q) else (true, q.insert slot time)
  | none => (true, q.insert slot time)

/-- The entry is the current one of its slot. -/
def isLive (live : List (Nat × (Nat × Nat))) (e : WakeEntry) : Bool :=
  (live.lookup e.slot).map (·.2) == some e.generation

/-- A heap without the replaced entries at its top. -/
def dropStale (live : List (Nat × (Nat × Nat))) (h : Heap WakeEntry) : Heap WakeEntry :=
  match h with
  | .empty => .empty
  | .node e l r =>
    if isLive live e then .node e l r else dropStale live (Heap.pop WakeEntry.le (.node e l r))
termination_by h.size
decreasing_by exact Heap.size_pop ..

/-- Forget the replaced entries at the top. -/
def discardStale (q : WakeQueue) : WakeQueue := { q with heap := dropStale q.live q.heap }

/-- The earliest wake time. -/
def next? (q : WakeQueue) : Option Nat := q.discardStale.heap.peek?.map (·.time)

/-- Take the earliest slot if its time has come. -/
def popDue (q : WakeQueue) (now : Nat) : Option Nat × WakeQueue :=
  let q := q.discardStale
  match q.heap.peek? with
  | some e =>
    if e.time ≤ now then
      (some e.slot, { q with heap := q.heap.pop WakeEntry.le, live := eraseKey e.slot q.live })
    else (none, q)
  | none => (none, q)

/-- Take slots until none is due, at most `fuel` of them. -/
def popAll (q : WakeQueue) (now : Nat) : (fuel : Nat) → List Nat × WakeQueue
  | 0 => ([], q)
  | fuel + 1 =>
    match q.popDue now with
    | (some slot, q) =>
      let (slots, q) := popAll q now fuel
      (slot :: slots, q)
    | (none, q) => ([], q)

/-- Take every slot that is due, in the order of their times. -/
def popAllDue (q : WakeQueue) (now : Nat) : List Nat × WakeQueue := q.popAll now q.size

end WakeQueue

end DueWork.Schedule

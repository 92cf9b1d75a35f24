/-
  A broadcast channel with bounded memory.

  Every message goes to every subscriber, in order.  The channel keeps the
  last `capacity` messages; a subscriber that falls further behind is told
  how many it missed and goes on with the oldest one kept.
-/

namespace DueWork.Signal

/-- The messages that are kept, last first, and the number ever sent. -/
structure Broadcast (α : Type) where
  capacity : Nat := 256
  kept : List α := []
  sent : Nat := 0
deriving Repr

/-- What a subscriber finds. -/
inductive Received (α : Type) where
  | message (m : α)
  | empty
  /-- so many messages are lost to it -/
  | lagged (missed : Nat)
deriving DecidableEq, Repr

/-- A subscriber: the number of messages before the one it reads next. -/
structure Subscriber where
  position : Nat
deriving DecidableEq, Repr

namespace Broadcast

variable {α : Type}

instance : Inhabited (Broadcast α) := ⟨{}⟩

/-- Send a message. -/
def publish (b : Broadcast α) (m : α) : Broadcast α :=
  { b with kept := (m :: b.kept).take b.capacity, sent := b.sent + 1 }

/-- A subscriber of what comes from now on. -/
def subscribe (b : Broadcast α) : Subscriber := ⟨b.sent⟩

/-- The number of messages before the oldest one kept. -/
def oldest (b : Broadcast α) : Nat := b.sent - b.kept.length

/-- Read the next message. -/
def receive (b : Broadcast α) (s : Subscriber) : Received α × Subscriber :=
  if s.position < b.oldest then (.lagged (b.oldest - s.position), ⟨b.oldest⟩)
  else if s.position < b.sent then
    match b.kept[b.sent - 1 - s.position]? with
    | some m => (.message m, ⟨s.position + 1⟩)
    | none => (.empty, s)
  else (.empty, s)

/-- Read `n` times. -/
def receiveMany (b : Broadcast α) : Nat → Subscriber → List (Received α) × Subscriber
  | 0, s => ([], s)
  | n + 1, s =>
    let (r, s) := b.receive s
    let (rs, s) := b.receiveMany n s
    (r :: rs, s)

/-- Read all there is: the number of messages missed, and those that were not. -/
def drain (b : Broadcast α) (s : Subscriber) : Nat × List α × Subscriber :=
  let start := max s.position b.oldest
  (start - s.position, (b.kept.take (b.sent - start)).reverse, ⟨b.sent⟩)

end Broadcast

end DueWork.Signal

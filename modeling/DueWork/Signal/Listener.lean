/-
  Listeners: how a producer tells a partition that there may be new work.

  A listener belongs to one slot of one manager.  A registry holds listeners
  under discriminators; it may be shared by several managers, and it holds
  one listener per discriminator and slot.

  * `Registry.register` adds a listener unless its slot is there already;
  * `Registry.under` and `Registry.selecting` are the listeners to be
    signalled for a discriminator and for an instance.
-/
import DueWork.Partition.Key
import DueWork.Text.Quoted

namespace DueWork.Signal

/-- The wake handle of a partition. -/
structure Listener where
  manager : Nat
  slot : Nat
  key : Key
deriving DecidableEq, Repr

/-- The description of a listener. -/
def Listener.description (l : Listener) (pending : Bool) : String :=
  "ConsumerListener \x7b partition: " ++ Text.quoted l.key.name ++ ", pending: " ++
    toString pending ++ " \x7d"

/-- Listeners by discriminator. -/
structure Registry where
  entries : List (String × List Listener) := []
deriving DecidableEq, Repr

namespace Registry

/-- The listeners under a discriminator. -/
def under (r : Registry) (discriminator : String) : List Listener :=
  (r.entries.lookup discriminator).getD []

/-- Add a listener, unless the discriminator has one of its slot. -/
def register (r : Registry) (discriminator : String) (l : Listener) : Registry :=
  let old := r.under discriminator
  if old.any (·.slot == l.slot) then r
  else
    if r.entries.any (·.1 == discriminator) then
      ⟨r.entries.map fun (d, ls) => (d, if d = discriminator then ls ++ [l] else ls)⟩
    else ⟨r.entries ++ [(discriminator, [l])]⟩

/-- The listeners whose partition an instance belongs to. -/
def selecting (r : Registry) (j : Job) : List Listener :=
  (r.entries.flatMap (·.2)).filter fun l => l.key.owns j

/-- The number of listeners. -/
def size (r : Registry) : Nat := (r.entries.flatMap (·.2)).length

/-- The description of a registry. -/
def description (r : Registry) : String :=
  "ListenerRegistry \x7b listeners: " ++ toString r.size ++ " \x7d"

end Registry

/-- A partition is selected by its name and by its discriminator. -/
def selects (key : Key) (discriminator : String) : Bool :=
  key.name == discriminator || key.discriminator == some discriminator

end DueWork.Signal

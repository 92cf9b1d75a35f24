/-
  The instance types that a service can process.

  A partition of another type is a mistake in the configuration, found when
  the partition is set up and not when its first instance is due.
-/
import DueWork.Error
import DueWork.Text.Quoted

namespace DueWork

/-- Instance types that have a processor, in order, each once. -/
structure Processors where
  types : List String
deriving DecidableEq, Repr

namespace Processors

/-- The processors for these types. -/
def ofList (types : List String) : Processors :=
  ⟨(types.mergeSort fun a b => a ≤ b).eraseDups⟩

/-- A type has to have a processor. -/
def require (p : Processors) (instanceType : String) : Except Error Unit :=
  if p.types.contains instanceType then .ok ()
  else
    .error (.configuration ("no processor registered for instance type '" ++ instanceType ++ "'"))

/-- The description of the processors. -/
def description (p : Processors) : String :=
  "ProcessorRegistry \x7b instance_types: " ++ Text.quotedList p.types ++ " \x7d"

end Processors

end DueWork

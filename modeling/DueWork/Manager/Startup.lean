/-
  What is checked before a manager starts, and before it takes a partition
  later on.

  `Startup.ofConfig` makes all checks of a configuration at once, so that a
  manager that cannot run has not touched the store; its result holds every
  key that the manager starts with and the bases of its fan-outs.
  `requireNewKey` makes the same checks for one key against those in use.
-/
import DueWork.Config.Scheduler
import DueWork.Manager.Processors

namespace DueWork

/-- A configuration that passed its checks. -/
structure Startup where
  /-- every partition to start with -/
  keys : List Key
  /-- fan-out partitions by name -/
  bases : List (String × Key)
deriving DecidableEq, Repr

namespace Startup

/-- Add a declared partition. -/
def addPartition (s : Startup) (p : PartitionConfig) : Except Error Startup := do
  if p.fanOut.isSome && s.bases.any (·.1 == p.key.name) then
    throw (.configuration ("fan-out partition '" ++ p.key.name ++ "' declared twice"))
  let keys ← p.expand
  return {
    keys := s.keys ++ keys
    bases := if p.fanOut.isSome then s.bases ++ [(p.key.name, p.key)] else s.bases }

/-- Check a configuration: its values, its partitions, and that there is a
    processor for each of them. -/
def ofConfig (c : SchedulerConfig) (processors : Processors) : Except Error Startup := do
  c.validate
  let s ← c.partitions.foldlM addPartition ⟨[], []⟩
  validateDisjoint s.keys
  s.keys.forM fun k => processors.require k.instanceType
  return s

end Startup

/-- A key that is added to others: its name is new and it shares no instance
    with any of them. -/
def requireNewKey (existing : List Key) (key : Key) : Except Error Unit :=
  existing.forM fun k =>
    if k.name = key.name then
      .error (.configuration ("partition '" ++ key.name ++ "' is already registered"))
    else if !k.isDisjointFrom key then
      .error (.configuration ("partition '" ++ key.name ++ "' overlaps partition '" ++ k.name ++
        "'"))
    else .ok ()

end DueWork

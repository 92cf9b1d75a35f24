/-
  Configured partitions.

  A partition is declared by the properties `partition.<name>.*`.  One with a
  list of discriminator values (`fan_out`) is a base: it stands for one
  partition per value, and values can be added while the service runs.
-/
import DueWork.Config.Source
import DueWork.Partition.Key

namespace DueWork

/-- A declared partition; with `fanOut` it is the base of one per value. -/
structure PartitionConfig where
  key : Key
  fanOut : Option (List String) := none
deriving DecidableEq, Repr

namespace PartitionConfig

/-- Read `partition.<name>.*`. -/
def ofSource (source : Source) (name : String) : Except Error PartitionConfig := do
  let property (field : String) : String := "partition." ++ name ++ "." ++ field
  let text (field default : String) : Except Error String :=
    source.getD readText (property field) default
  let d : Key := { name := name }
  let stateText ← text "ready_state" d.readyState.name
  let readyState ← match State.ofName? (stateText.map Char.toUpper) with
    | some s => .ok s
    | none => .error (.configuration ("unknown ready state '" ++ stateText ++ "' for partition '" ++
        name ++ "'"))
  let predicate ← Predicate.parse ((source.nonBlank? (property "predicate")).getD "")
  let key ← Key.build {
    name := name
    instanceType := ← text "instance_type" d.instanceType
    idAttribute := ← text "id_attribute" d.idAttribute
    scheduleAttribute := ← text "schedule_attribute" d.scheduleAttribute
    stateAttribute := ← text "state_attribute" d.stateAttribute
    partitionAttribute := ← text "partition_attribute" d.partitionAttribute
    readyState := readyState
    predicate := predicate
    joinFetches := source.list (property "join_fetches") }
  return ⟨key, (source.property? (property "fan_out")).map (Text.splitList ',')⟩

/-- The keys of the partitions that a declaration starts with. -/
def expand (p : PartitionConfig) : Except Error (List Key) :=
  match p.fanOut with
  | some values => values.mapM p.key.derive
  | none => .ok [p.key]

end PartitionConfig

end DueWork

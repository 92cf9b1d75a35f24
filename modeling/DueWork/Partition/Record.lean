/-
  Partition keys as JSON records.  Every field has to be given; nothing is
  checked that `Key.build` checks.
-/
import DueWork.Job.Record
import DueWork.Partition.Key

namespace DueWork

open Json

def Clause.decoder : Decoder Clause := fun depth n => do
  let r ← Record.ofNode? ["attribute", "value"] depth n
  some ⟨← r.required "attribute" .string, ← r.required "value" .string⟩

def Clause.toJson (c : Clause) : Json :=
  .ofFields [("attribute", .string c.name), ("value", .string c.value)]

def Predicate.decoder : Decoder Predicate := fun depth n => do
  let r ← Record.ofNode? ["clauses"] depth n
  some ⟨← r.required "clauses" (.list Clause.decoder)⟩

def Predicate.toJson (p : Predicate) : Json :=
  .ofFields [("clauses", .array (p.clauses.map Clause.toJson))]

def Key.fieldNames : List String :=
  ["name", "instance_type", "id_attribute", "schedule_attribute", "state_attribute",
    "partition_attribute", "ready_state", "predicate", "join_fetches"]

def Key.decoder : Decoder Key := fun depth n => do
  let r ← Record.ofNode? Key.fieldNames depth n
  some {
    name := ← r.required "name" .string
    instanceType := ← r.required "instance_type" .string
    idAttribute := ← r.required "id_attribute" .string
    scheduleAttribute := ← r.required "schedule_attribute" .string
    stateAttribute := ← r.required "state_attribute" .string
    partitionAttribute := ← r.required "partition_attribute" .string
    readyState := ← r.required "ready_state" State.decoder
    predicate := ← r.required "predicate" Predicate.decoder
    joinFetches := ← r.required "join_fetches" (.list .string) }

def Key.toJson (k : Key) : Json :=
  .ofFields [("name", .string k.name), ("instance_type", .string k.instanceType),
    ("id_attribute", .string k.idAttribute), ("schedule_attribute", .string k.scheduleAttribute),
    ("state_attribute", .string k.stateAttribute),
    ("partition_attribute", .string k.partitionAttribute),
    ("ready_state", .string k.readyState.name), ("predicate", k.predicate.toJson),
    ("join_fetches", .array (k.joinFetches.map .string))]

/-- A key and what follows from it. -/
def Key.summary (k : Key) : Json :=
  .ofFields [("key", k.toJson), ("display", .string k.text),
    ("discriminator", .ofOption .string k.discriminator),
    ("ready_states", .array (k.readyStates.map fun s => .string s.name)),
    ("satisfiable", .bool k.predicate.isSatisfiable)]

end DueWork

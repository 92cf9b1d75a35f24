/-
  Jobs as JSON records.

  Fields that are empty need not be given; those of a stored job that are
  empty are not written.
-/
import DueWork.Job.Instance
import DueWork.Json.Record

namespace DueWork

open Json Time

def State.decoder : Decoder State := Decoder.choice State.ofName?

/-- A state and what follows from it. -/
def State.summary (s : State) : Json :=
  .ofFields [("as_str", .string s.name), ("display", .string s.name), ("json", .string s.name),
    ("terminal", .bool s.isTerminal), ("claimable", .bool s.isClaimable),
    ("to", .array ((State.all.filter s.canBecome).map fun t => .string t.name))]

def Attributes.toJson (a : Attributes) : Json :=
  .object (a.entries.map fun (n, v) => (n, .string v))

def Job.fieldNames : List String :=
  ["id", "instance_type", "job_ref", "due_at", "state", "attributes", "payload", "result",
    "failure_count", "last_error", "claimed_at", "created_at"]

def Job.decoder : Decoder Job := fun depth n => do
  let r ← Record.ofNode? Job.fieldNames depth n
  some {
    id := ← r.required "id" (.integer (-(Nat.pow 2 63 : Nat)) (Nat.pow 2 63 - 1 : Nat))
    instanceType := ← r.required "instance_type" .string
    jobRef := ← r.required "job_ref" .string
    dueAt := ← r.required "due_at" .instant
    state := ← r.required "state" State.decoder
    attributes := ← r.orElse "attributes" .attributes ∅
    payload := ← r.orElse "payload" Decoder.value.nullable none
    result := ← r.orElse "result" Decoder.value.nullable none
    failureCount := .ofNat (← r.orElse "failure_count" (.natural 32) 0)
    lastError := ← r.orElse "last_error" Decoder.string.nullable none
    claimedAt := ← r.orElse "claimed_at" Decoder.instant.nullable none
    createdAt := ← r.required "created_at" .instant }

/-- The fields of a job, with instants written by `time`. -/
def Job.toJsonWith (time : Instant → String) (j : Job) : Json :=
  .ofFields (
    [("id", .ofInt j.id), ("instance_type", .string j.instanceType), ("job_ref", .string j.jobRef),
      ("due_at", .string (time j.dueAt)), ("state", .string j.state.name),
      ("attributes", j.attributes.toJson), ("failure_count", .ofNat j.failureCount.toNat),
      ("created_at", .string (time j.createdAt))] ++
    (j.payload.toList.map fun v => ("payload", v)) ++
    (j.result.toList.map fun v => ("result", v)) ++
    (j.lastError.toList.map fun e => ("last_error", .string e)) ++
    (j.claimedAt.toList.map fun t => ("claimed_at", .string (time t))))

def Job.toJson (j : Job) : Json := j.toJsonWith Instant.text

def NewJob.fieldNames : List String :=
  ["instance_type", "job_ref", "due_at", "attributes", "payload"]

def NewJob.decoder : Decoder NewJob := fun depth n => do
  let r ← Record.ofNode? NewJob.fieldNames depth n
  some {
    instanceType := ← r.required "instance_type" .string
    jobRef := ← r.required "job_ref" .string
    dueAt := ← r.required "due_at" .instant
    attributes := ← r.orElse "attributes" .attributes ∅
    payload := ← r.orElse "payload" Decoder.value.nullable none }

def NewJob.toJson (j : NewJob) : Json :=
  .ofFields [("instance_type", .string j.instanceType), ("job_ref", .string j.jobRef),
    ("due_at", .string j.dueAt.text), ("attributes", j.attributes.toJson),
    ("payload", j.payload.getD .null)]

end DueWork

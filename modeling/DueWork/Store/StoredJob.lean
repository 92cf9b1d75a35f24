/-
  Job instances as they are written in a row.

  Instants are milliseconds, attributes and JSON values are text, and the
  state is its name.  `StoredJob.toJob` reads a row back and says what is
  wrong with one that holds no job instance; `StoredJob.ofJob` writes one.
-/
import DueWork.Error
import DueWork.Job.Record
import DueWork.Json.Printer
import DueWork.Text.Blank

namespace DueWork

open Time

/-- The fields of a job instance in a row. -/
structure StoredJob where
  id : Int
  jobRef : String
  dueAt : Int
  state : String
  attributes : String
  payload : Option String := none
  result : Option String := none
  failureCount : Int
  lastError : Option String := none
  claimedAt : Option Int := none
  createdAt : Int
deriving DecidableEq, Repr

namespace StoredJob

/-- The attributes that a text holds; a blank one holds none. -/
def readAttributes (s : String) : Except Error Attributes :=
  if Text.IsBlank s then .ok ∅
  else match Json.Decoder.attributes.run s with
    | some a => .ok a
    | none => .error (.serialization "attributes are not an object of strings")

/-- The value that a text holds; no text holds no value. -/
def readValue : Option String → Except Error (Option Json)
  | none => .ok none
  | some s =>
    match Json.parse? s with
    | some j => .ok (some j)
    | none => .error (.serialization "not a JSON value")

/-- A failure count is never negative and has 32 bits. -/
def clampFailures (n : Int) : UInt32 := .ofNat (min n.toNat (Nat.pow 2 32 - 1))

/-- The job instance of a row. -/
def toJob (r : StoredJob) (instanceType : String) : Except Error Job := do
  let state ← match State.ofName? r.state with
    | some s => .ok s
    | none => .error (.database (instanceType ++ " " ++ toString r.id ++ " has unknown state '" ++
        r.state ++ "'"))
  let attributes ← readAttributes r.attributes
  let payload ← readValue r.payload
  let result ← readValue r.result
  return {
    id := r.id
    instanceType := instanceType
    jobRef := r.jobRef
    dueAt := .ofMillis r.dueAt
    state := state
    attributes := attributes
    payload := payload
    result := result
    failureCount := clampFailures r.failureCount
    lastError := r.lastError
    claimedAt := r.claimedAt.map .ofMillis
    createdAt := .ofMillis r.createdAt }

/-- The row of a job instance as it is, instants rounded down. -/
def ofJob (j : Job) : StoredJob where
  id := j.id
  jobRef := j.jobRef
  dueAt := j.dueAt.toMillis
  state := j.state.name
  attributes := j.attributes.toJson.text
  payload := j.payload.map Json.text
  result := j.result.map Json.text
  failureCount := j.failureCount.toNat
  lastError := j.lastError
  claimedAt := j.claimedAt.map Instant.toMillis
  createdAt := j.createdAt.toMillis

end StoredJob

end DueWork

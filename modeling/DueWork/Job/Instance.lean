/-
  Job instances: the units of work that are scheduled.

  A producer hands over a `NewJob`; the store that takes it gives it an id and
  makes it a `Job` in state `new`.  A claimed job is changed by a `Transition`,
  which sets the state and those fields that it names, and ends the claim.
-/
import DueWork.Job.Attributes
import DueWork.Job.State
import DueWork.Json.Value
import DueWork.Time.Instant

namespace DueWork

open Time

/-- The instance type of jobs that do not name one. -/
def defaultInstanceType : String := "job_instance"

/-- One unit of work. -/
structure Job where
  id : Int
  /-- selects the table and the processor -/
  instanceType : String
  /-- the job or trigger that this is an instance of -/
  jobRef : String
  dueAt : Instant
  state : State
  attributes : Attributes
  payload : Option Json
  result : Option Json
  failureCount : UInt32
  lastError : Option String
  claimedAt : Option Instant
  createdAt : Instant
deriving DecidableEq, Repr

/-- The value of an attribute. -/
def Job.attribute? (j : Job) (name : String) : Option String := j.attributes.get? name

/-- A unit of work before a store has given it an id. -/
structure NewJob where
  instanceType : String := defaultInstanceType
  jobRef : String
  dueAt : Instant
  attributes : Attributes := ∅
  payload : Option Json := none
deriving DecidableEq, Repr

/-- The stored form of a new job. -/
def NewJob.toJob (n : NewJob) (id : Int) (createdAt : Instant) : Job where
  id := id
  instanceType := n.instanceType
  jobRef := n.jobRef
  dueAt := n.dueAt
  state := .new
  attributes := n.attributes
  payload := n.payload
  result := none
  failureCount := 0
  lastError := none
  claimedAt := none
  createdAt := createdAt

/-- A change of state, with the fields that change along with it; what is
    `none` stays as it is. -/
structure Transition where
  state : State
  dueAt : Option Instant := none
  result : Option Json := none
  failureCount : Option UInt32 := none
  lastError : Option String := none
deriving DecidableEq, Repr

namespace Transition

def done (result : Option Json) : Transition := { state := .done, result := result }

def failed (failureCount : UInt32) (error : String) : Transition :=
  { state := .failed, failureCount := some failureCount, lastError := some error }

def deferred (dueAt : Instant) (failureCount : UInt32) (error : String) : Transition :=
  { state := .deferred, dueAt := some dueAt, failureCount := some failureCount,
    lastError := some error }

def dropped : Transition := { state := .dropped }

/-- The job after the transition; it is no longer claimed. -/
def apply (t : Transition) (j : Job) : Job :=
  { j with
    state := t.state
    dueAt := t.dueAt.getD j.dueAt
    result := t.result.or j.result
    failureCount := t.failureCount.getD j.failureCount
    lastError := t.lastError.or j.lastError
    claimedAt := none }

end Transition

end DueWork

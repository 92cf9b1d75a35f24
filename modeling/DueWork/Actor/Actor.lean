/-
  Actors: one per partition, each the only one to drain it.

  An actor is idle, draining, suspended until a permit is free, or stopped;
  once stopped it stays so (`setState`).  Stopping sets the state first and
  then raises the request that a running cycle looks for.
-/
import DueWork.Actor.Metrics
import DueWork.Partition.Key
import DueWork.Retry.Policy
import DueWork.Text.Quoted

namespace DueWork

open Time

inductive RunState where
  | idle
  | draining
  | suspended
  | stopped
deriving DecidableEq, Repr

def RunState.name : RunState → String
  | idle => "IDLE"
  | draining => "DRAINING"
  | suspended => "SUSPENDED"
  | stopped => "STOPPED"

/-- The name as it is shown in a description. -/
def RunState.title : RunState → String
  | idle => "Idle"
  | draining => "Draining"
  | suspended => "Suspended"
  | stopped => "Stopped"

/-- How an actor drains its partition. -/
structure ActorConfig where
  batchSize : Nat := 10
  processorTimeout : Duration := .ofSeconds 60
  suspendBase : Duration := .ofMillis 25
  suspendMax : Duration := .ofSeconds 1
  retry : RetryPolicy := {}
deriving DecidableEq, Repr

structure Actor where
  key : Key
  state : RunState := .idle
  /-- a running cycle is asked to end -/
  stopRequested : Bool := false
  metrics : Metrics := {}
deriving DecidableEq, Repr

namespace Actor

/-- Change the state, unless the actor is stopped. -/
def setState (a : Actor) (s : RunState) : Actor :=
  if a.state = .stopped then a else { a with state := s }

/-- Stop for good; a running cycle is not told yet. -/
def markStopped (a : Actor) : Actor := { a with state := .stopped }

/-- Tell a running cycle to end. -/
def requestStop (a : Actor) : Actor := { a with stopRequested := true }

def stop (a : Actor) : Actor := a.markStopped.requestStop

def isStopped (a : Actor) : Bool := a.state == .stopped

/-- Change the metrics. -/
def count (a : Actor) (f : Metrics → Metrics) : Actor := { a with metrics := f a.metrics }

/-- The description of an actor. -/
def description (a : Actor) : String :=
  "ConsumingActor \x7b partition: " ++ Text.quoted a.key.name ++ ", state: " ++ a.state.title ++
    " \x7d"

end Actor

end DueWork

/-
  What a store of job instances has to offer.

  Every operation is one step that nothing can interrupt.  One that may change
  the store returns its answer, a value or an error, together with the store
  that it leaves behind: that an error leaves everything as it was is for each
  store to show.  A claim and a commit are conditional on the stored state, so
  of several claimants at most one wins.

  * `JobStore` is the interface, with the wall clock as an argument where an
    operation stamps a row;
  * `requireClaimable` and `requireOutcome` are checks on the arguments that
    every store makes before it looks at its contents.
-/
import DueWork.Partition.Key

namespace DueWork

open Time

/-- A store of job instances. -/
class JobStore (σ : Type) where
  /-- the number of instances that are ready at `now` -/
  countReady (s : σ) (key : Key) (now : Instant) : Except Error Nat
  /-- up to `limit` instances that are ready at `now`, by due time and id -/
  fetchReady (s : σ) (key : Key) (now : Instant) (limit : Nat) : Except Error (List Job)
  /-- move an instance from `expected` to running; false if it is elsewhere -/
  claim (s : σ) (key : Key) (id : Int) (expected : State) (now : Instant) : Except Error Bool × σ
  /-- apply a transition to a running instance -/
  commit (s : σ) (key : Key) (id : Int) (t : Transition) (now : Instant) : Except Error Unit × σ
  /-- the earliest due time of an instance in a ready state -/
  nextDue (s : σ) (key : Key) : Except Error (Option Instant)
  /-- store a new instance and answer its id -/
  insert (s : σ) (job : NewJob) (now : Instant) : Except Error Int × σ
  get (s : σ) (instanceType : String) (id : Int) : Except Error (Option Job)
  /-- defer the running instances that were claimed before `cutoff` -/
  resetStale (s : σ) (key : Key) (cutoff now : Instant) : Except Error Nat × σ

namespace Store

/-- A claim starts from a state that allows one. -/
def requireClaimable (id : Int) (expected : State) : Except Error Unit :=
  if expected.isClaimable then .ok ()
  else .error (.validation ("cannot claim instance " ++ toString id ++ " from non-ready state " ++
    expected.name))

/-- The transition that the lifecycle does not allow. -/
def refused (source target : State) : Error := .invalidTransition source.name target.name

/-- A commit leads to a state that may follow on running. -/
def requireOutcome (t : Transition) : Except Error Unit :=
  if State.running.canBecome t.state then .ok () else .error (refused .running t.state)

/-- An instance type that may name a table. -/
def requireTableName (instanceType : String) : Except Error Unit :=
  if Text.isIdentifier instanceType then .ok ()
  else .error (.validation ("invalid instance type '" ++ instanceType ++ "'"))

end Store

end DueWork

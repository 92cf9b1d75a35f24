/-
  Calls of a store as data.

  A `Call` is an operation with its arguments and an `Answer` its value; `step`
  is one call, and `run` a sequence of calls, whatever they are answered.
-/
import DueWork.Store.Contract

namespace DueWork.Store

open Time

/-- An operation of a store with its arguments. -/
inductive Call where
  | countReady (key : Key) (now : Instant)
  | fetchReady (key : Key) (now : Instant) (limit : Nat)
  | claim (key : Key) (id : Int) (expected : State)
  | commit (key : Key) (id : Int) (transition : Transition)
  | nextDue (key : Key)
  | insert (job : NewJob)
  | get (instanceType : String) (id : Int)
  | resetStale (key : Key) (cutoff : Instant)
deriving DecidableEq, Repr

/-- The value of an operation. -/
inductive Answer where
  | count (n : Nat)
  | jobs (js : List Job)
  | won (b : Bool)
  | committed
  | due (t : Option Instant)
  | inserted (id : Int)
  | job (j : Option Job)
  | reset (n : Nat)
deriving DecidableEq, Repr

variable {σ : Type} [JobStore σ]

/-- What a call of one kind returns, as that of a call. -/
def answering {α : Type} (f : α → Answer) (r : Except Error α × σ) : Except Error Answer × σ :=
  (r.1.map f, r.2)

/-- One call at the wall clock `now`. -/
def step (s : σ) (now : Instant) : Call → Except Error Answer × σ
  | .countReady key ready => ((JobStore.countReady s key ready).map .count, s)
  | .fetchReady key ready limit => ((JobStore.fetchReady s key ready limit).map .jobs, s)
  | .claim key id expected => answering .won (JobStore.claim s key id expected now)
  | .commit key id t => answering (fun _ => .committed) (JobStore.commit s key id t now)
  | .nextDue key => ((JobStore.nextDue s key).map .due, s)
  | .insert job => answering .inserted (JobStore.insert s job now)
  | .get instanceType id => ((JobStore.get s instanceType id).map .job, s)
  | .resetStale key cutoff => answering .reset (JobStore.resetStale s key cutoff now)

/-- The answers of a sequence of calls, each at its own wall clock, and the
    store after them. -/
def run (s : σ) : List (Instant × Call) → List (Except Error Answer) × σ
  | [] => ([], s)
  | (now, c) :: cs =>
    let (a, s) := step s now c
    let (as, s) := run s cs
    (a :: as, s)

end DueWork.Store

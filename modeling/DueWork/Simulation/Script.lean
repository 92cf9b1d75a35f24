/-
  Scripted processors and scripted store failures.

  A processor follows a script: for each kind of job a list of steps, one per
  call, of which the last repeats.  A step sleeps, then changes the store and
  the actor as it is told, and then ends.

  Store failures are queued by method: each call takes the next one, if there
  is one, and fails instead of doing anything.
-/
import DueWork.Actor.Cycle

namespace DueWork.Simulation

/-- What a processor does in one call. -/
structure ScriptStep where
  /-- in milliseconds -/
  sleep : Nat := 0
  /-- the state to store for the instance, whatever it is -/
  setState : Option State := none
  /-- an instance to insert -/
  insert : Option NewJob := none
  /-- stop the actor -/
  stop : Bool := false
  ending : Processing := .answered (.done none)

/-- The steps for each kind of job. -/
abbrev Script := List (String × List ScriptStep)

namespace Script

/-- The step for the next call, and the script after it.  Unknown kinds are
    done at once. -/
def next (s : Script) (jobRef : String) : ScriptStep × Script :=
  match s.lookup jobRef with
  | none | some [] => ({}, s)
  | some [step] => (step, s)
  | some (step :: steps) => (step, s.map fun (k, old) => (k, if k = jobRef then steps else old))

end Script

/-- The store methods that can be made to fail. -/
inductive Method where
  | countReady | fetchReady | claim | commit | nextDue | resetStale
deriving DecidableEq, Repr

/-- Queued failures by method; a call may also be let through. -/
abbrev Failures := List (Method × Option Failure)

namespace Failures

/-- What is queued for a call, and the queue after it. -/
def next (q : Failures) (m : Method) : Option Failure × Failures :=
  match q with
  | [] => (none, [])
  | (n, f) :: rest =>
    if n = m then (f, rest)
    else
      let (g, rest) := next rest m
      (g, (n, f) :: rest)

end Failures

/-- A processor call. -/
structure CallLine where
  jobRef : String
  id : Int
  failures : UInt32
  state : State
  /-- in milliseconds of simulated time -/
  time : Nat
  /-- the instance's channel -/
  group : String
deriving Repr

/-- A commit that reached the store. -/
structure CommitLine where
  id : Int
  state : State
  failures : Option UInt32
deriving Repr

end DueWork.Simulation

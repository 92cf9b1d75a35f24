/-
  A worker pool in simulated time.

  Time stands still while tasks start and end, and jumps to the next end when
  nothing else can happen.  A task sleeps for its time and then ends, or
  sleeps forever; waiting tasks get workers in the order of submission.

  * `settle` starts and ends whatever can start and end now;
  * `runBefore` handles everything strictly before a time;
  * `shutdown` waits for the tasks until its grace is over.
-/
import DueWork.Pool.WorkerPool

namespace DueWork.Simulation

/-- What a task does: it sleeps, and then ends, by a panic if asked. -/
structure SleepTask where
  name : String
  /-- in milliseconds; without it the task sleeps forever -/
  sleep : Option Nat
  panics : Bool
deriving Repr

/-- A line of the log: the time, the task, and whether it started or ended. -/
structure PoolLogLine where
  time : Nat
  name : String
  isEnd : Bool
deriving DecidableEq, Repr

structure PoolRun where
  pool : WorkerPool
  time : Nat := 0
  /-- accepted tasks by number, with the time of their start -/
  tasks : List (Nat × SleepTask × Option Nat) := []
  log : List PoolLogLine := []

namespace PoolRun

/-- When a task ends, if it has started and ever ends. -/
def endTime? (t : SleepTask × Option Nat) : Option Nat :=
  match t.2, t.1.sleep with
  | some start, some ms => some (start + ms)
  | _, _ => none

/-- The tasks that are running, with the time of their end. -/
def ends (r : PoolRun) : List (Nat × Nat) :=
  r.tasks.filterMap fun (n, t) =>
    if r.pool.stage? n = some .running then (endTime? t).map fun e => (n, e) else none

/-- The next time at which a task ends. -/
def nextEnd? (r : PoolRun) : Option Nat := (r.ends.map (·.2)).min?

def submit (r : PoolRun) (t : SleepTask) : Except SubmitError Unit × PoolRun :=
  match r.pool.submit with
  | (.ok n, p) => (.ok (), { r with pool := p, tasks := r.tasks ++ [(n, t, none)] })
  | (.error e, p) => (.error e, { r with pool := p })

/-- Start a task now. -/
def start (r : PoolRun) (task : Nat) : PoolRun :=
  match r.tasks.lookup task with
  | none => r
  | some (t, _) =>
    { r with
      pool := r.pool.start task
      tasks := r.tasks.map fun (n, u) => (n, if n = task then (t, some r.time) else u)
      log := r.log ++ [⟨r.time, t.name, false⟩] }

/-- End a task now. -/
def finish (r : PoolRun) (task : Nat) : PoolRun :=
  match r.tasks.lookup task with
  | none => r
  | some (t, _) =>
    { r with
      pool := (r.pool.releaseWorker task).releaseSlot task
      log := if t.panics then r.log else r.log ++ [⟨r.time, t.name, true⟩] }

/-- End what is over and start what has a worker, at most `fuel` times. -/
def settleFor (r : PoolRun) : (fuel : Nat) → PoolRun
  | 0 => r
  | fuel + 1 =>
    match r.ends.find? (·.2 ≤ r.time) with
    | some (task, _) => (r.finish task).settleFor fuel
    | none =>
      match r.pool.nextWaiting? with
      | some task => (r.start task).settleFor fuel
      | none => r

/-- Each task starts and ends once. -/
def settle (r : PoolRun) : PoolRun := r.settleFor (2 * r.tasks.length)

/-- Handle what comes before `target`, at most `fuel` jumps of the clock; stop
    early if asked to when every task has ended. -/
def runFor (r : PoolRun) (target : Nat) (stopsEarly : Bool) : (fuel : Nat) → PoolRun
  | 0 => { r with time := target }
  | fuel + 1 =>
    if target ≤ r.time then r
    else
      let r := r.settle
      if stopsEarly && r.pool.allEnded then r
      else match r.nextEnd? with
        | some e =>
          if e < target then { r with time := e }.runFor target stopsEarly fuel
          else { r with time := target }
        | none => { r with time := target }

/-- Handle everything strictly before `target`. -/
def runBefore (r : PoolRun) (target : Nat) (stopsEarly : Bool) : PoolRun :=
  r.runFor target stopsEarly (r.tasks.length + 1)

def advance (r : PoolRun) (ms : Nat) : PoolRun := r.runBefore (r.time + ms) false

/-- Close the pool, wait for its tasks, and discard those that have not ended
    when the grace is over. -/
def shutdown (r : PoolRun) (graceMs : Nat) : PoolShutdown × PoolRun :=
  if r.pool.closed then ({}, r)
  else
    let r := { r with pool := r.pool.close }
    let r := if r.pool.allEnded then r else r.runBefore (r.time + graceMs) true
    let (report, p) := r.pool.finish
    (report, { r with pool := p })

/-- The log by time, task and start before end. -/
def sortedLog (r : PoolRun) : List PoolLogLine :=
  r.log.mergeSort fun a b =>
    a.time < b.time || (a.time == b.time &&
      (a.name < b.name || (a.name == b.name && (!a.isEnd || b.isEnd))))

end PoolRun

end DueWork.Simulation

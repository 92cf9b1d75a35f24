/-
  The worker pool: how many drain cycles may run, and how many may wait.

  An accepted task takes a slot, waits for a worker, runs, and gives back
  first the worker and then the slot.  Tasks beyond the slots are refused.
  Independently of both, admission permits bound the instances that are in
  processing at once.

  * `ofConfig` is a pool of given sizes, and `build?` the same in machine words;
  * `submit`, `start`, `releaseWorker` and `releaseSlot` are the steps of a
    task's life, and `acquire` and `giveBack` those of a permit;
  * `close` is the start of a shutdown and `finish` its end: what has not
    ended by then is discarded.
-/

namespace DueWork

/-- The sizes of a pool. -/
structure PoolConfig where
  /-- tasks that may run at once -/
  poolSize : Nat := 4
  /-- tasks that may wait for a worker -/
  queueCapacity : Nat := 64
  /-- instances that may be in processing at once -/
  maxInFlight : Nat := 4
deriving DecidableEq, Repr

namespace PoolConfig

/-- There is always one worker. -/
def workers (c : PoolConfig) : Nat := max c.poolSize 1

/-- Running and waiting tasks together. -/
def slots (c : PoolConfig) : Nat := c.workers + c.queueCapacity

/-- There is always one permit. -/
def permits (c : PoolConfig) : Nat := max c.maxInFlight 1

end PoolConfig

/-- Where an accepted task stands. -/
inductive TaskStage where
  /-- it has a slot and no worker -/
  | waiting
  /-- it has a slot and a worker -/
  | running
  /-- it has given back its worker -/
  | leaving
  /-- it has given back everything -/
  | ended
deriving DecidableEq, Repr

/-- Why a task is not accepted. -/
inductive SubmitError where
  | saturated
  | closed
deriving DecidableEq, Repr

def SubmitError.message : SubmitError → String
  | saturated => "worker pool saturated"
  | closed => "worker pool closed"

/-- What a shutdown found: tasks that had ended, and tasks that it discarded. -/
structure PoolShutdown where
  completed : Nat := 0
  aborted : Nat := 0
deriving DecidableEq, Repr

/-- The most permits that a semaphore may have. -/
def maxPermits : Nat := (Nat.pow 2 64 - 1) / Nat.pow 2 3

structure WorkerPool where
  config : PoolConfig
  freeWorkers : Nat
  freeSlots : Nat
  freePermits : Nat
  /-- accepted tasks that were not reaped, in the order of acceptance -/
  tasks : List (Nat × TaskStage) := []
  nextTask : Nat := 0
  closed : Bool := false
deriving DecidableEq, Repr

namespace WorkerPool

/-- A pool with everything free. -/
def ofConfig (c : PoolConfig) : WorkerPool where
  config := c
  freeWorkers := c.workers
  freeSlots := c.slots
  freePermits := c.permits

/-- A pool as it is built from words: the slots are added up in one, and no
    semaphore is built with more permits than it may have. -/
def build? (c : PoolConfig) : Option WorkerPool :=
  let slots := (UInt64.ofNat c.workers + UInt64.ofNat c.queueCapacity).toNat
  if c.workers ≤ maxPermits ∧ slots ≤ maxPermits ∧ c.permits ≤ maxPermits then
    some { ofConfig c with freeSlots := slots }
  else none

instance : Inhabited WorkerPool := ⟨ofConfig {}⟩

def stage? (p : WorkerPool) (task : Nat) : Option TaskStage := p.tasks.lookup task

/-- Put a task in a stage. -/
def setStage (p : WorkerPool) (task : Nat) (s : TaskStage) : WorkerPool :=
  { p with tasks := p.tasks.map fun (t, old) => (t, if t = task then s else old) }

/-- Forget the tasks that have ended. -/
def reap (p : WorkerPool) : WorkerPool := { p with tasks := p.tasks.filter (·.2 != .ended) }

/-- Accept a task if the pool is open and a slot is free. -/
def submit (p : WorkerPool) : Except SubmitError Nat × WorkerPool :=
  if p.closed then (.error .closed, p)
  else
    let p := p.reap
    if p.freeSlots = 0 then (.error .saturated, p)
    else
      (.ok p.nextTask, { p with
        freeSlots := p.freeSlots - 1
        tasks := p.tasks ++ [(p.nextTask, .waiting)]
        nextTask := p.nextTask + 1 })

/-- The task that gets the next free worker. -/
def nextWaiting? (p : WorkerPool) : Option Nat :=
  if p.freeWorkers = 0 then none else (p.tasks.find? (·.2 == .waiting)).map (·.1)

/-- Give a worker to a waiting task. -/
def start (p : WorkerPool) (task : Nat) : WorkerPool :=
  if p.stage? task = some .waiting ∧ 0 < p.freeWorkers then
    { p.setStage task .running with freeWorkers := p.freeWorkers - 1 }
  else p

/-- A running task is done with its worker. -/
def releaseWorker (p : WorkerPool) (task : Nat) : WorkerPool :=
  if p.stage? task = some .running then
    { p.setStage task .leaving with freeWorkers := p.freeWorkers + 1 }
  else p

/-- A task is done with its slot. -/
def releaseSlot (p : WorkerPool) (task : Nat) : WorkerPool :=
  if p.stage? task = some .leaving then
    { p.setStage task .ended with freeSlots := p.freeSlots + 1 }
  else p

/-- Take an admission permit, if one is free. -/
def acquire (p : WorkerPool) : Bool × WorkerPool :=
  if p.freePermits = 0 then (false, p) else (true, { p with freePermits := p.freePermits - 1 })

/-- Give an admission permit back. -/
def giveBack (p : WorkerPool) : WorkerPool := { p with freePermits := p.freePermits + 1 }

/-- Tasks that run or wait. -/
def queued (p : WorkerPool) : Nat := p.config.slots - p.freeSlots

/-- Accept nothing more. -/
def close (p : WorkerPool) : WorkerPool := { p with closed := true }

/-- Every accepted task has ended. -/
def allEnded (p : WorkerPool) : Bool := p.tasks.all (·.2 == .ended)

/-- Discard what has not ended, with the worker and the slot that it holds. -/
def finish (p : WorkerPool) : PoolShutdown × WorkerPool :=
  let unfinished := p.tasks.countP (·.2 != .ended)
  ({ completed := p.tasks.countP (·.2 == .ended), aborted := unfinished },
    { p with
      tasks := []
      freeWorkers := p.freeWorkers + p.tasks.countP (·.2 == .running)
      freeSlots := p.freeSlots + unfinished })

end WorkerPool

end DueWork

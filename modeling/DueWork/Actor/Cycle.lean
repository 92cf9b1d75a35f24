/-
  Drain cycles, step by step.

  A cycle fetches what is ready, batch by batch, until a fetch is not full.
  Each instance waits for an admission permit, is claimed, processed and
  committed; between instances the cycle looks whether it is to stop.  At
  the end it looks up when the partition is due next.

  A cycle stands at a `Point`, and `Cycle.step` takes it to the next one: it
  makes at most one store call, so whatever else happens may happen between
  any two steps.  What it does not decide itself, a `Moment` does: the clock,
  how a processor call ended, and whether a store call fails.

  * `Point.holdsPermit` and `Point.claimed?` say what a cycle holds;
  * a store call that fails ends the cycle, except for a commit that is
    refused because the instance was moved: that concerns one instance only.
-/
import DueWork.Actor.Actor
import DueWork.Actor.Outcome
import DueWork.Actor.Report
import DueWork.Pool.WorkerPool
import DueWork.Signal.Broadcast
import DueWork.Signal.Event
import DueWork.Store.Contract

namespace DueWork

open Time Signal

/-- What may become of a store call instead of an answer. -/
inductive Failure where
  | error (e : Error)
  | panic (message : Option String)
deriving DecidableEq, Repr

/-- What a step finds around it. -/
structure Moment where
  /-- the wall clock -/
  now : Instant
  /-- the store call fails and does nothing -/
  failure : Option Failure := none
  /-- another claimant was first -/
  claimLost : Bool := false
  /-- how the processor call ended, where one is running -/
  processing : Processing := .answered (.done none)
  /-- the random part of a retry delay -/
  jitter : UInt64 := 0
  /-- the delay of a suspension is over -/
  delayOver : Bool := true
  /-- how long the cycle took so far -/
  took : Duration := .zero
deriving DecidableEq, Repr

/-- What the cycles of all partitions act on. -/
structure Shared (σ : Type) where
  store : σ
  pool : WorkerPool
  events : Broadcast Event := {}

/-- The rest of a batch, and whether it was full when it was fetched. -/
structure Batch where
  jobs : List Job
  full : Bool
deriving DecidableEq, Repr

/-- Where a cycle stands. -/
inductive Point where
  /-- before anything else -/
  | start
  /-- before a fetch -/
  | checking
  | fetching
  /-- before the next instance of the batch -/
  | picking (batch : Batch)
  /-- about to take a permit, after `attempt` failures to get one -/
  | admission (job : Job) (batch : Batch) (attempt : UInt32)
  /-- waiting until the next attempt to get a permit -/
  | suspended (job : Job) (batch : Batch) (attempt : UInt32)
  | claiming (job : Job) (batch : Batch)
  /-- the processor is running -/
  | processing (job : Job) (batch : Batch)
  | committing (job : Job) (transition : Transition) (batch : Batch)
  /-- after the last batch -/
  | closing
  | lookingAhead
  | ended (result : CycleResult)
  /-- a store call panicked -/
  | panicked (message : Option String)
deriving Repr

namespace Point

/-- A cycle at this point holds an admission permit. -/
def holdsPermit : Point → Bool
  | claiming _ _ | processing _ _ | committing _ _ _ => true
  | _ => false

/-- The instance that a cycle at this point has claimed and not committed. -/
def claimed? : Point → Option Job
  | processing j _ => some j
  | committing j _ _ => some j
  | _ => none

/-- No step leads on from here. -/
def isFinal : Point → Bool
  | ended _ | panicked _ => true
  | _ => false

end Point

/-- A drain cycle: where it stands and what it did so far. -/
structure Cycle where
  point : Point := .start
  report : Report := {}
deriving Repr

namespace Cycle

/-- The shared state, the actor and the cycle after a step. -/
abbrev Next (σ : Type) := Shared σ × Actor × Cycle

variable {σ : Type} [JobStore σ]

/-- The answer of a store call, unless the moment has it fail. -/
def answered {α : Type} (m : Moment) (answer : Except Error α) : Except Failure α :=
  match m.failure, answer with
  | some f, _ => .error f
  | none, .ok a => .ok a
  | none, .error e => .error (.error e)

/-- The answer of a store call that may change the store, and what is left
    behind: the store that the call returns, unless the moment has it fail. -/
def called {α : Type} (m : Moment) (s : Shared σ) (call : Except Error α × σ) :
    Except Failure α × Shared σ :=
  (answered m call.1, match m.failure with
    | some _ => s
    | none => { s with store := call.2 })

/-- Give the permit back, if the cycle holds one. -/
def releasePermit (s : Shared σ) (p : Point) : Shared σ :=
  if p.holdsPermit then { s with pool := s.pool.giveBack } else s

/-- End with a store failure. -/
def endFailed (a : Actor) (c : Cycle) (e : Error) : Actor × Cycle :=
  ((a.count fun m => { m with storeErrors := m.storeErrors + 1 }).setState .idle,
    { c with point := .ended (.error (.storeUnavailable a.key.name e.message)) })

/-- A store call did not succeed while batches were drained: the cycle ends,
    and so does its claim on a permit. -/
def cutShort (m : Moment) (s : Shared σ) (a : Actor) (c : Cycle) (f : Failure) :
    Next σ :=
  let s := releasePermit s c.point
  match f with
  | .error e => (s, endFailed (a.count (·.recordCycle m.took)) c e)
  | .panic message => (s, a, { c with point := .panicked message })

/-- The draining is over. -/
def close (m : Moment) (s : Shared σ) (a : Actor) (c : Cycle) : Next σ :=
  (s, a.count (·.recordCycle m.took), { c with point := .closing })

/-- An instance is dealt with: give the permit back and go on with the batch. -/
def goOn (s : Shared σ) (a : Actor) (c : Cycle) (batch : Batch) : Next σ :=
  (releasePermit s c.point, a, { c with point := .picking batch })

/-- Count a committed instance by the state that it is in now. -/
def countCommitted (a : Actor) (c : Cycle) : State → Actor × Cycle
  | .done =>
    (a.count fun m => { m with done := m.done + 1 },
      { c with report := { c.report with done := c.report.done + 1 } })
  | .deferred =>
    (a.count fun m => { m with deferred := m.deferred + 1 },
      { c with report := { c.report with deferred := c.report.deferred + 1 } })
  | .failed =>
    (a.count fun m => { m with failed := m.failed + 1 },
      { c with report := { c.report with failed := c.report.failed + 1 } })
  | _ => (a, c)

/-- Count a lost claim. -/
def countLost (a : Actor) (c : Cycle) : Actor × Cycle :=
  (a.count fun m => { m with lostClaims := m.lostClaims + 1 },
    { c with report := { c.report with lostClaims := c.report.lostClaims + 1 } })

/-- Count a claim. -/
def countClaimed (a : Actor) (c : Cycle) : Actor × Cycle :=
  (a.count fun m => { m with claimed := m.claimed + 1 },
    { c with report := { c.report with claimed := c.report.claimed + 1 } })

/-- The event that an instance fails for good, if it does. -/
def failureEvents (a : Actor) (j : Job) (reason : Option String) : List Event :=
  reason.toList.map fun r => .instanceFailed a.key.name j.id j.nextFailureCount r

/-- The start of a cycle. -/
def enter (s : Shared σ) (a : Actor) (c : Cycle) : Next σ :=
  if a.stopRequested then
    (s, a.setState .stopped, { c with point := .ended (.ok { stopped := true }) })
  else (s, a.setState .draining, { c with point := .checking })

/-- Fetch the next batch. -/
def fetch (k : ActorConfig) (m : Moment) (s : Shared σ) (a : Actor) (c : Cycle) : Next σ :=
  let limit := max k.batchSize 1
  match answered m (JobStore.fetchReady s.store a.key m.now limit) with
  | .error f => cutShort m s a c f
  | .ok jobs =>
    (s, a, { point := .picking ⟨jobs, !decide (jobs.length < limit)⟩
             report := { c.report with fetched := c.report.fetched + jobs.length } })

/-- Take the next instance of a batch, or the next batch. -/
def pick (m : Moment) (s : Shared σ) (a : Actor) (c : Cycle) (b : Batch) : Next σ :=
  match b.jobs with
  | [] => if b.full then (s, a, { c with point := .checking }) else close m s a c
  | j :: js =>
    if a.stopRequested then close m s a c
    else (s, a, { c with point := .admission j { b with jobs := js } 0 })

/-- Try to get a permit, or suspend. -/
def ask (s : Shared σ) (a : Actor) (c : Cycle) (j : Job) (b : Batch) (attempt : UInt32) : Next σ :=
  match s.pool.acquire with
  | (true, pool) =>
    ({ s with pool := pool }, if attempt = 0 then a else a.setState .draining,
      { c with point := .claiming j b })
  | (false, _) =>
    let a :=
      if attempt = 0 then
        (a.setState .suspended).count fun m => { m with suspensions := m.suspensions + 1 }
      else a
    (s, a, { c with point := .suspended j b attempt })

/-- Wake up from a suspension: to ask again, or to end. -/
def wake (m : Moment) (s : Shared σ) (a : Actor) (c : Cycle) (j : Job) (b : Batch)
    (attempt : UInt32) : Next σ :=
  if m.delayOver then (s, a, { c with point := .admission j b (Duration.nextCount attempt) })
  else if a.stopRequested then close m s a c
  else (s, a, c)

/-- Claim an instance as it was fetched. -/
def claim (m : Moment) (s : Shared σ) (a : Actor) (c : Cycle) (j : Job) (b : Batch) : Next σ :=
  let call :=
    if m.claimLost then (.ok false, s.store)
    else JobStore.claim s.store a.key j.id j.state m.now
  match called m s call with
  | (.error f, s) => cutShort m s a c f
  | (.ok true, s) =>
    let (a, c) := countClaimed a c
    (s, a, { c with point := .processing { j with state := .running } b })
  | (.ok false, s) =>
    let (a, c) := countLost a c
    goOn s a c b

/-- The processor call is over. -/
def settle (k : ActorConfig) (m : Moment) (s : Shared σ) (a : Actor) (c : Cycle) (j : Job)
    (b : Batch) : Next σ :=
  let o := m.processing.outcome k.processorTimeout
  let t := o.transition k.retry m.now m.jitter j
  ({ s with events := (failureEvents a j (o.failure? k.retry j)).foldl Broadcast.publish s.events },
    a, { c with point := .committing j t b })

/-- Commit the outcome of an instance. -/
def commit (m : Moment) (s : Shared σ) (a : Actor) (c : Cycle) (j : Job) (t : Transition)
    (b : Batch) : Next σ :=
  match called m s (JobStore.commit s.store a.key j.id t m.now) with
  | (.ok _, s) =>
    let (a, c) := countCommitted a c t.state
    goOn s a c b
  | (.error (.error (.invalidTransition _ _)), s) => goOn s a c b
  | (.error f, s) => cutShort m s a c f

/-- The last look whether to stop. -/
def check (s : Shared σ) (a : Actor) (c : Cycle) : Next σ :=
  if a.stopRequested then
    (s, a.setState .stopped,
      { c with point := .ended (.ok { c.report with stopped := true }) })
  else (s, a, { c with point := .lookingAhead })

/-- Look up when the partition is due next. -/
def lookAhead (m : Moment) (s : Shared σ) (a : Actor) (c : Cycle) : Next σ :=
  match answered m (JobStore.nextDue s.store a.key) with
  | .ok due =>
    let report := { c.report with nextDue := due }
    (s, a.setState .idle, { point := .ended (.ok report), report := report })
  | .error (.error e) => (s, endFailed a c e)
  | .error (.panic message) => (s, a, { c with point := .panicked message })

/-- One step of a cycle. -/
def step (k : ActorConfig) (m : Moment) (s : Shared σ) (a : Actor) (c : Cycle) : Next σ :=
  match c.point with
  | .start => enter s a c
  | .checking => if a.stopRequested then close m s a c else (s, a, { c with point := .fetching })
  | .fetching => fetch k m s a c
  | .picking b => pick m s a c b
  | .admission j b attempt => ask s a c j b attempt
  | .suspended j b attempt => wake m s a c j b attempt
  | .claiming j b => claim m s a c j b
  | .processing j b => settle k m s a c j b
  | .committing j t b => commit m s a c j t b
  | .closing => check s a c
  | .lookingAhead => lookAhead m s a c
  | .ended _ | .panicked _ => (s, a, c)

/-- The delay of a suspension. -/
def suspension (k : ActorConfig) (attempt : UInt32) : Duration :=
  .cappedExponential k.suspendBase k.suspendMax attempt

/-- The result of a cycle that panicked, for whoever submitted it. -/
def panicResult (a : Actor) (message : Option String) : CycleResult :=
  .error (.panicked a.key.name (panicText message))

end Cycle

end DueWork

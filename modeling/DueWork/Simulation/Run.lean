/-
  A manager in simulated time.

  Time stands still while anything can run and then jumps to the next timer.
  What can run stands in a queue: the dispatcher, cycles in the worker pool,
  and cycles that are driven directly.  A cycle runs until it waits for a
  worker, a permit or its processor, or is over; the dispatcher runs until it
  has no command and nothing is due.

  * `turn` runs the first in the queue, `settle` runs the queue until it is
    empty;
  * `jump` goes to the next timer, `advance` handles everything strictly
    before the end of a time span;
  * `drain` drives a cycle to its end, and `stop` shuts the manager down.
-/
import DueWork.Manager.System
import DueWork.Simulation.Script
import DueWork.Simulation.ScriptedStore
import DueWork.Store.Call

namespace DueWork.Simulation

open Time Signal Schedule

/-- What can run. -/
inductive Runner where
  | dispatcher
  /-- a cycle in the worker pool -/
  | task (n : Nat)
  /-- a cycle that is driven directly -/
  | direct (n : Nat)
deriving DecidableEq, Repr

/-- What a cycle waits for. -/
inductive Wait where
  /-- for the delay of a suspension -/
  | delay (deadline : Nat)
  /-- for a scripted processor call that ends so, after the changes of its step -/
  | call (deadline : Nat) (step : ScriptStep) (ending : Processing)

def Wait.time : Wait → Nat
  | delay t | call t _ _ => t

structure Run (σ : Type) where
  system : System σ
  script : Script := []
  failures : Failures := []
  /-- instances whose next claim is lost -/
  lost : List Int := []
  /-- inserts signal the registry -/
  notifies : Bool := false
  /-- what can run, first to last -/
  ready : List Runner := []
  /-- what waits, and for what, in the order in which it began -/
  waits : List (Runner × Wait) := []
  /-- cycles of slot zero that are driven directly -/
  direct : List (Nat × Cycle) := []
  subscriber : Subscriber := ⟨0⟩
  calls : List CallLine := []
  commits : List CommitLine := []

/-- A bound on the steps between two inputs. -/
def maxSteps : Nat := 1000000

/-- Timers fire at whole milliseconds. -/
def ceilMillis (nanos : Nat) : Nat := (nanos + 999999) / 1000000 * 1000000

namespace Run

variable {σ : Type}

/-- Nanoseconds of simulated time. -/
def time (r : Run σ) : Nat := r.system.clock.time

def millis (r : Run σ) : Nat := r.time / 1000000

def setTime (r : Run σ) (t : Nat) : Run σ :=
  { r with system := { r.system with clock := { r.system.clock with time := t } } }

/-- Let something run after what can run already. -/
def enqueue (r : Run σ) (x : Runner) : Run σ :=
  if r.ready.contains x then r else { r with ready := r.ready ++ [x] }

/-- Change the system, and let the dispatcher run if there is a command. -/
def withSystem (r : Run σ) (s : System σ) : Run σ :=
  let r := { r with system := s }
  if s.commands.isEmpty then r else r.enqueue .dispatcher

def setStore (r : Run σ) (store : σ) : Run σ :=
  { r with system := { r.system with shared := { r.system.shared with store := store } } }

def store (r : Run σ) : σ := r.system.shared.store

/-- What is queued for a call of a store method. -/
def takeFailure (r : Run σ) (m : Method) : Option Failure × Run σ :=
  let (f, q) := Failures.next r.failures m
  (f, { r with failures := q })

/-- Whether the next claim of an instance is lost; only the next one is. -/
def takeLost (r : Run σ) (id : Int) : Bool × Run σ :=
  if r.lost.contains id then (true, { r with lost := r.lost.erase id }) else (false, r)

/-- Note a commit that reached the store. -/
def noteCommit (r : Run σ) (id : Int) (t : Transition) : Run σ :=
  { r with commits := r.commits ++ [⟨id, t.state, t.failureCount⟩] }

/-- Signal the registry of an insert. -/
def notifyInsert (r : Run σ) (j : Job) : Run σ :=
  if r.notifies then r.withSystem (r.system.notifyJob j).2 else r

section Stores

variable [ScriptedStore σ]

/-- Insert an instance and signal the registry. -/
def insertJob (r : Run σ) (job : NewJob) : Except Error Int × Run σ :=
  let now := r.system.clock.wall
  match JobStore.insert r.store job now with
  | (.ok id, store) => (.ok id, (r.setStore store).notifyInsert (job.toJob id now))
  | (.error e, store) => (.error e, r.setStore store)

/-! ## Cycles -/

/-- A cycle and its slot. -/
def cycle? (r : Run σ) : Runner → Option (Nat × Cycle)
  | .task n => (r.system.task? n).map fun t => (t.slot, t.cycle)
  | .direct n => (r.direct.lookup n).map fun c => (0, c)
  | .dispatcher => none

/-- One step of a cycle. -/
def step (r : Run σ) (x : Runner) (m : Moment) : Run σ :=
  match x with
  | .task n => { r with system := r.system.stepTask n m }
  | .direct n =>
    match r.direct.lookup n with
    | none => r
    | some c =>
      let (s, c) := r.system.stepCycle 0 m c
      { r with
        system := s
        direct := r.direct.map fun (k, old) => (k, if k = n then c else old) }
  | .dispatcher => r

/-- A moment at the current wall clock. -/
def moment (r : Run σ) : Moment := { now := r.system.clock.wall }

/-- Let a cycle wait. -/
def await (r : Run σ) (x : Runner) (w : Wait) : Run σ := { r with waits := r.waits ++ [(x, w)] }

def endWait (r : Run σ) (x : Runner) : Run σ := { r with waits := r.waits.filter (·.1 != x) }

def wait? (r : Run σ) (x : Runner) : Option Wait := r.waits.lookup x

/-- Let the cycles run that wait for a permit and were asked to stop. -/
def wakeCancelled (r : Run σ) : Run σ :=
  r.waits.foldl (fun r (x, w) =>
    match w, r.cycle? x with
    | .delay _, some (slot, _) =>
      if ((r.system.actor? slot).map (·.stopRequested)).getD false then r.enqueue x else r
    | _, _ => r) r

/-- The changes that a step makes after its sleep. -/
def applyStep (r : Run σ) (slot : Nat) (j : Job) (s : ScriptStep) : Run σ :=
  let r := match s.setState with
    | some state => r.setStore (ScriptedStore.setState r.store j.id state)
    | none => r
  let r := match s.insert with
    | some job => (r.insertJob job).2
    | none => r
  if s.stop then { r with system := r.system.stopActor slot }.wakeCancelled else r

/-- Start a processor call: note it, and find out when and how it ends. -/
def startCall (r : Run σ) (x : Runner) (j : Job) : Run σ :=
  let line : CallLine :=
    ⟨j.jobRef, j.id, j.failureCount, j.state, r.millis, (j.attribute? "channel_type").getD ""⟩
  let (s, script) := Script.next r.script j.jobRef
  let r := { r with calls := r.calls ++ [line], script := script }
  let timeout := ceilMillis r.system.config.processorTimeout.nanos
  if s.sleep * 1000000 ≤ timeout then
    r.await x (.call (r.time + s.sleep * 1000000) s s.ending)
  else r.await x (.call (r.time + timeout) {} .timedOut)

/-- Take a cycle one step further: false if it has to wait. -/
def stepOn (r : Run σ) (x : Runner) (slot : Nat) (c : Cycle) : Bool × Run σ :=
  let stopRequested := ((r.system.actor? slot).map (·.stopRequested)).getD false
  match c.point with
  | .ended _ | .panicked _ => (false, r)
  | .suspended _ _ attempt =>
    match r.wait? x with
    | none =>
      let delay := Cycle.suspension r.system.actorConfig attempt
      (true, r.await x (.delay (r.time + max (ceilMillis delay.nanos) 1000000)))
    | some w =>
      if stopRequested then (true, (r.endWait x).step x { r.moment with delayOver := false })
      else if w.time ≤ r.time then (true, (r.endWait x).step x r.moment)
      else (false, r)
  | .processing j _ =>
    match r.wait? x with
    | some (.call t s ending) =>
      if t ≤ r.time then
        let r := (r.endWait x).applyStep slot j s
        (true, r.step x { r.moment with processing := ending })
      else (false, r)
    | _ => (true, r.startCall x j)
  | .fetching =>
    let (f, r) := r.takeFailure .fetchReady
    (true, r.step x { r.moment with failure := f })
  | .claiming j _ =>
    let (f, r) := r.takeFailure .claim
    let (lost, r) := if f.isNone then r.takeLost j.id else (false, r)
    (true, r.step x { r.moment with failure := f, claimLost := lost })
  | .committing j t _ =>
    let (f, r) := r.takeFailure .commit
    let r := if f.isNone then r.noteCommit j.id t else r
    (true, r.step x { r.moment with failure := f })
  | .lookingAhead =>
    let (f, r) := r.takeFailure .nextDue
    (true, r.step x { r.moment with failure := f })
  | .start | .checking | .picking _ | .admission _ _ _ | .closing => (true, r.step x r.moment)

/-- Run a cycle until it waits or is over. -/
def runCycle (r : Run σ) (x : Runner) : (fuel : Nat) → Run σ
  | 0 => r
  | fuel + 1 =>
    match r.cycle? x with
    | none => r
    | some (slot, c) =>
      match r.stepOn x slot c with
      | (true, r) => r.runCycle x fuel
      | (false, r) => r

/-- A cycle is over. -/
def isOver (r : Run σ) (x : Runner) : Bool :=
  match r.cycle? x with
  | some (_, c) => c.point.isFinal
  | none => true

/-! ## Turns -/

/-- Give a free worker to the next waiting task. -/
def assignWorker (r : Run σ) : Run σ :=
  match r.system.shared.pool.nextWaiting? with
  | some n => { r with system := r.system.startTask n }.enqueue (.task n)
  | none => r

/-- Run a task: get a worker, run the cycle, report its end and leave. -/
def runTask (r : Run σ) (n : Nat) : Run σ :=
  let r :=
    if r.system.shared.pool.nextWaiting? = some n then
      { r with system := r.system.startTask n }
    else r
  if r.system.shared.pool.stage? n = some .running then
    let r := r.runCycle (.task n) maxSteps
    if r.isOver (.task n) then
      let r := r.withSystem (r.system.reportTask n)
      let r := ({ r with system := r.system.releaseWorker n }).assignWorker
      { r with system := r.system.releaseSlot n }
    else r
  else r

/-- Submit every due slot. -/
def dispatchAll (r : Run σ) : (fuel : Nat) → Run σ
  | 0 => r
  | fuel + 1 =>
    let tasks := r.system.shared.pool.nextTask
    let r := { r with system := r.system.dispatchNext }
    let r := if tasks < r.system.shared.pool.nextTask then r.enqueue (.task tasks) else r
    if r.system.dispatcher.dispatching.isSome then r.dispatchAll fuel else r

/-- Run the dispatcher until it has nothing to do. -/
def runDispatcher (r : Run σ) : (fuel : Nat) → Run σ
  | 0 => r
  | fuel + 1 =>
    if !r.system.loopAlive then r
    else if r.system.cancelled then { r with system := r.system.endLoop }
    else if !r.system.commands.isEmpty then
      { r with system := r.system.handleCommand }.runDispatcher fuel
    else
      match r.system.dispatcher.nextDeadline? with
      | some t =>
        if t ≤ r.time then
          ({ r with system := r.system.beginDispatch }.dispatchAll maxSteps).runDispatcher fuel
        else r
      | none => r

/-- Run the first in the queue. -/
def turn (r : Run σ) : Run σ :=
  match r.ready with
  | [] => r
  | x :: xs =>
    let r := { r with ready := xs }
    match x with
    | .dispatcher => r.runDispatcher maxSteps
    | .task n => r.runTask n
    | .direct n => r.runCycle (.direct n) maxSteps

/-- Run the queue until it is empty. -/
def settleFor (r : Run σ) : (fuel : Nat) → Run σ
  | 0 => r
  | fuel + 1 => if r.ready.isEmpty then r else r.turn.settleFor fuel

def settle (r : Run σ) : Run σ := r.settleFor maxSteps

/-! ## Timers -/

/-- The deadline of the dispatcher's timer. -/
def dispatcherTimer? (r : Run σ) : Option Nat :=
  if r.system.loopAlive then r.system.dispatcher.nextDeadline?.map ceilMillis else none

/-- The next timer. -/
def nextTimer? (r : Run σ) : Option Nat :=
  (r.dispatcherTimer?.toList ++ r.waits.map (·.2.time)).min?

/-- Let everything run whose timer has fired. -/
def fire (r : Run σ) : Run σ :=
  let due := r.waits.filter fun (_, w) => w.time ≤ r.time
  let r := (due.mergeSort fun a b => a.2.time ≤ b.2.time).foldl (fun r (x, _) => r.enqueue x) r
  match r.dispatcherTimer? with
  | some t => if t ≤ r.time then r.enqueue .dispatcher else r
  | none => r

/-- Go to a time. -/
def jump (r : Run σ) (t : Nat) : Run σ := (r.setTime t).fire

/-- Handle everything strictly before `target`. -/
def advanceFor (r : Run σ) (target : Nat) : (fuel : Nat) → Run σ
  | 0 => r
  | fuel + 1 =>
    if target ≤ r.time then r
    else
      let r := r.settle
      match r.nextTimer? with
      | some t => if t < target then (r.jump t).advanceFor target fuel else r.jump target
      | none => r.jump target

/-- Let so many milliseconds pass. -/
def advance (r : Run σ) (ms : Nat) : Run σ := r.advanceFor (r.time + ms * 1000000) maxSteps

/-! ## Direct cycles -/

/-- Start a cycle of slot zero. -/
def startDirect (r : Run σ) : Nat × Run σ :=
  let n := r.direct.length
  (n, { r with direct := r.direct ++ [(n, {})] })

/-- The result of a direct cycle, or the message of its panic. -/
inductive DirectResult where
  | pending
  | ended (r : CycleResult)
  | panicked (message : String)

def directResult (r : Run σ) (n : Nat) : DirectResult :=
  match r.direct.lookup n with
  | some ⟨.ended result, _⟩ => .ended result
  | some ⟨.panicked message, _⟩ => .panicked (panicText message)
  | _ => .pending

/-- Run a direct cycle to its end, and everything else meanwhile. -/
def driveFor (r : Run σ) (n : Nat) : (fuel : Nat) → Run σ
  | 0 => r
  | fuel + 1 =>
    let r := r.runCycle (.direct n) maxSteps
    if r.isOver (.direct n) then r
    else
      let r := r.settle
      if r.isOver (.direct n) then r
      else match r.nextTimer? with
        | some t =>
          let r := r.jump t
          { r with ready := r.ready.erase (.direct n) }.driveFor n fuel
        | none => r

/-- Start a cycle and run it to its end. -/
def drain (r : Run σ) : Nat × Run σ :=
  let (n, r) := r.startDirect
  (n, r.driveFor n maxSteps)

/-! ## Store calls from outside -/

/-- What is queued for a store call, and whether a claim is lost. -/
def intercept (r : Run σ) : Store.Call → (Option Failure × Bool) × Run σ
  | .countReady _ _ => let (f, r) := r.takeFailure .countReady; ((f, false), r)
  | .fetchReady _ _ _ => let (f, r) := r.takeFailure .fetchReady; ((f, false), r)
  | .nextDue _ => let (f, r) := r.takeFailure .nextDue; ((f, false), r)
  | .resetStale _ _ => let (f, r) := r.takeFailure .resetStale; ((f, false), r)
  | .claim _ id _ =>
    let (f, r) := r.takeFailure .claim
    let (lost, r) := if f.isNone then r.takeLost id else (false, r)
    ((f, lost), r)
  | .commit _ id t =>
    let (f, r) := r.takeFailure .commit
    ((f, false), if f.isNone then r.noteCommit id t else r)
  | .insert _ | .get _ _ => ((none, false), r)

/-- A store call; inserts signal the registry. -/
def call (r : Run σ) (c : Store.Call) : Except Failure Store.Answer × Run σ :=
  let ((f, lost), r) := r.intercept c
  match f, lost, c with
  | some f, _, _ => (.error f, r)
  | none, true, _ => (.ok (.won false), r)
  | none, false, .insert job =>
    let (id, r) := r.insertJob job
    (match id with
      | .ok id => .ok (.inserted id)
      | .error e => .error (.error e), r)
  | none, false, c =>
    let (answer, store) := Store.step r.store r.system.clock.wall c
    (answer.mapError .error, r.setStore store)

/-! ## The manager -/

/-- The failure of a call as an error. -/
def failureError : Failure → Error
  | .error e => e
  | .panic message => .other (panicText message)

/-- Put a partition into the manager, all steps at once. -/
def addPartition (r : Run σ) (key : Key) : Except Error Nat × Run σ :=
  let slot := r.system.posts.length
  let r := { r with system := r.system.claimKey key }
  let (f, r) := r.takeFailure .nextDue
  match (r.system.readDue slot (f.map failureError)).sendRegister slot with
  | .ok s => (.ok slot, r.withSystem ((s.publish slot).attach slot))
  | .error e => (.error e, r)

/-- Defer what was claimed long ago, partition by partition. -/
def recover (r : Run σ) (cutoff : Instant) (keys : List Key) : Run σ :=
  keys.foldl (fun r k =>
    let (f, r) := r.takeFailure .resetStale
    if f.isNone then { r with system := r.system.recover k cutoff } else r) r

/-- Start a manager on what the store of this run holds. -/
def startManager (r : Run σ) (config : SchedulerConfig) (processors : Processors) :
    Except Error (Run σ) := do
  let startup ← Startup.ofConfig config processors
  let system := System.ofConfig config processors startup r.store r.system.clock
  let r := { r with system := system }
  let r := match config.staleClaimTimeout with
    | some age => r.recover (r.system.clock.wall.minus age) startup.keys
    | none => r
  let r := startup.keys.foldl (fun r k =>
    let (slot, r) := r.addPartition k
    match slot with
    | .ok slot => { r with system := r.system.forget slot }
    | .error _ => r) r
  return { r with subscriber := r.system.shared.events.subscribe }

/-- Add a partition while the manager runs. -/
def register (r : Run σ) (key : Key) : Except Error Nat × Run σ :=
  match r.system.requireNew key with
  | .error e => (.error e, r)
  | .ok () =>
    match r.addPartition key with
    | (.ok slot, r) => (.ok slot, { r with system := r.system.announce slot })
    | (.error e, r) => (.error e, r)

/-- Add the partition for a value of a fan-out base. -/
def registerValue (r : Run σ) (base value : String) : Except Error Nat × Run σ :=
  match r.system.bases.lookup base with
  | none => (.error (.notFound "fan-out partition" base), r)
  | some key =>
    match key.derive value with
    | .error e => (.error e, r)
    | .ok k => r.register k

/-- The number of instances that wait in a partition. -/
def pendingCount (r : Run σ) (partition : String) : Except Error Nat × Run σ :=
  match (r.system.slot? partition).bind r.system.actor? with
  | none => (.error (.notFound "partition" partition), r)
  | some a =>
    match r.call (.countReady a.key r.system.clock.wall) with
    | (.ok (.count n), r) => (.ok n, r)
    | (.ok _, r) => (.ok 0, r)
    | (.error f, r) => (.error (failureError f), r)

/-- Wait until every cycle has ended or the grace is over. -/
def awaitPool (r : Run σ) (deadline : Nat) : (fuel : Nat) → Run σ
  | 0 => r
  | fuel + 1 =>
    if r.system.shared.pool.allEnded || deadline ≤ r.time then r
    else
      let r := r.settle
      if r.system.shared.pool.allEnded then r
      else match r.nextTimer? with
        | some t => (r.jump (min t deadline)).awaitPool deadline fuel
        | none => (r.jump deadline).awaitPool deadline fuel

/-- What a manager reports when it is stopped. -/
structure StopReport where
  partitions : Nat := 0
  shutdown : PoolShutdown := {}

/-- Stop the manager: actors first, then the dispatcher, then the pool. -/
def stop (r : Run σ) : StopReport × Run σ :=
  if r.system.stopped then ({}, r)
  else
    let s := r.system.beginStop
    let s := (s.actors.map (·.2)).foldl System.stopActor s
    let r := ({ r with system := s.cancelAll }.wakeCancelled).enqueue .dispatcher
    let r := r.settle
    let r := { r with system := r.system.closePool }
    let grace := ceilMillis r.system.config.shutdownTimeout.nanos
    let r := r.awaitPool (r.time + grace) maxSteps
    let (shutdown, s) := r.system.finishShutdown
    (⟨r.system.actors.length, shutdown⟩,
      { r with system := s, waits := r.waits.filter fun (x, _) => match x with
          | .task _ => false
          | _ => true })

end Stores

/-! ## Logs -/

/-- The events since the last time, and how many were missed. -/
def takeEvents (r : Run σ) : Nat × List Event × Run σ :=
  let (missed, events, s) := r.system.shared.events.drain r.subscriber
  (missed, events, { r with subscriber := s })

def takeCalls (r : Run σ) : List CallLine × Run σ := (r.calls, { r with calls := [] })

/-- The commits since the last time, by id. -/
def takeCommits (r : Run σ) : List CommitLine × Run σ :=
  (r.commits.mergeSort fun a b => a.id ≤ b.id, { r with commits := [] })

end Run

end DueWork.Simulation

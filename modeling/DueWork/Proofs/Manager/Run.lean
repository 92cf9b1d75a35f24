/-
  Runs of a manager: its steps in every order.

  An `Action` is one step of one of the parties: a producer, the dispatcher, a
  drain cycle, a late registration or a shutdown.  `System.Allows` has an
  action wait for what its party does before it; for the rest any action may
  follow on any other, and the clock may show anything.

  * `Reachable` are the states of a manager that was started on some store;
  * `System.after` and `System.Permits` take a list of actions;
  * `System.trace` is what can be seen of a run: signals and the wakes that
    they lead to, the begin of drain cycles, and their calls.
-/
import DueWork.Manager.System
import DueWork.Proofs.Actor.Cycle
import DueWork.Store.Memory

namespace DueWork

open Time Signal Schedule

/-- A step of one of the parties. -/
inductive Action where
  /-- time passes -/
  | clock (clock : Clock)
  /-- a producer writes an instance -/
  | insert (job : NewJob)
  /-- a producer raises the flag of a slot -/
  | ring (slot : Nat)
  /-- a producer that raised a flag sends the command -/
  | deliver (slot : Nat)
  /-- the dispatcher handles a command -/
  | handle
  /-- the wake timer fires -/
  | timer
  /-- the dispatcher takes the next due slot -/
  | dispatch
  /-- the dispatcher ends -/
  | endLoop
  /-- a task gets a worker -/
  | start (n : Nat)
  /-- a step of a drain cycle -/
  | step (n : Nat) (m : Moment)
  /-- the end of a drain cycle is reported -/
  | report (n : Nat)
  | releaseWorker (n : Nat)
  | releaseSlot (n : Nat)
  /-- a registration begins -/
  | claimKey (key : Key)
  | readDue (slot : Nat) (failure : Option Error)
  | sendRegister (slot : Nat)
  | publish (slot : Nat)
  | attach (slot : Nat)
  | announce (slot : Nat)
  /-- the registry is attached under a discriminator -/
  | registerListener (discriminator : String)
  | beginStop
  /-- an actor is stopped; its cycle is told later -/
  | markStopped (slot : Nat)
  | requestStop (slot : Nat)
  | cancelAll
  | closePool
  | finishShutdown

/-- How far the registration of a slot has come. -/
def stageAt (rs : List Registration) (slot : Nat) : Option RegistrationStage :=
  (rs.find? (·.slot == slot)).map (·.stage)

namespace System

variable {σ : Type}

def stage? (s : System σ) (slot : Nat) : Option RegistrationStage := stageAt s.registrations slot

/-- What an action waits for: a producer for the listener, the dispatcher for
    the end of its last step, a registration for its last stage, and a
    shutdown for the end of the dispatcher. -/
def Allows (s : System σ) : Action → Prop
  | .ring slot => slot ∈ s.actors.map (·.2)
  | .handle | .timer => s.loopAlive = true ∧ s.dispatcher.dispatching = none
  | .dispatch => s.loopAlive = true
  | .endLoop => s.cancelled = true ∧ s.dispatcher.dispatching = none
  | .readDue slot _ => s.stage? slot = some .claimed
  | .publish slot => s.stage? slot = some .sent
  | .attach slot => s.stage? slot = some .published
  | .announce slot => s.stage? slot = some .attached
  | .closePool => s.loopAlive = false
  | .finishShutdown => s.shared.pool.closed = true
  | _ => True

instance (s : System σ) : (a : Action) → Decidable (s.Allows a)
  | .ring _ => inferInstanceAs (Decidable (_ ∈ _))
  | .handle | .timer | .endLoop => inferInstanceAs (Decidable (_ ∧ _))
  | .dispatch | .readDue .. | .publish _ | .attach _ | .announce _ | .closePool
  | .finishShutdown => inferInstanceAs (Decidable (_ = _))
  | .clock _ | .insert _ | .deliver _ | .start _ | .step .. | .report _ | .releaseWorker _
  | .releaseSlot _ | .claimKey _ | .sendRegister _ | .registerListener _ | .beginStop
  | .markStopped _ | .requestStop _ | .cancelAll => inferInstanceAs (Decidable True)

variable [JobStore σ]

/-- Write an instance, if the store takes it. -/
def insert (s : System σ) (job : NewJob) : System σ :=
  let (_, store) := JobStore.insert s.shared.store job s.clock.wall
  { s with shared := { s.shared with store := store } }

/-- The system after an action. -/
def next (s : System σ) : Action → System σ
  | .clock clock => { s with clock := clock }
  | .insert job => s.insert job
  | .ring slot => (s.ring slot).2
  | .deliver slot => (s.deliver slot).2
  | .handle => s.handleCommand
  | .timer => s.beginDispatch
  | .dispatch => s.dispatchNext
  | .endLoop => s.endLoop
  | .start n => s.startTask n
  | .step n m => s.stepTask n m
  | .report n => s.reportTask n
  | .releaseWorker n => s.releaseWorker n
  | .releaseSlot n => s.releaseSlot n
  | .claimKey key => s.claimKey key
  | .readDue slot failure => s.readDue slot failure
  | .sendRegister slot =>
    match s.sendRegister slot with
    | .ok s' => s'
    | .error _ => s.forget slot
  | .publish slot => s.publish slot
  | .attach slot => s.attach slot
  | .announce slot => s.announce slot
  | .registerListener discriminator => (s.registerListener discriminator).2
  | .beginStop => s.beginStop
  | .markStopped slot => s.modifyActor slot Actor.markStopped
  | .requestStop slot => s.modifyActor slot Actor.requestStop
  | .cancelAll => s.cancelAll
  | .closePool => s.closePool
  | .finishShutdown => s.finishShutdown.2

/-- The system after some actions. -/
def after (s : System σ) : List Action → System σ
  | [] => s
  | a :: as => (s.next a).after as

/-- Each of the actions is allowed when its turn comes. -/
def Permits (s : System σ) : List Action → Prop
  | [] => True
  | a :: as => s.Allows a ∧ (s.next a).Permits as

/-- Whether a run is allowed can be computed. -/
def decidePermits (s : System σ) : (as : List Action) → Decidable (s.Permits as)
  | [] => inferInstanceAs (Decidable True)
  | a :: as =>
    have := (s.next a).decidePermits as
    inferInstanceAs (Decidable (s.Allows a ∧ (s.next a).Permits as))

instance (s : System σ) (as : List Action) : Decidable (s.Permits as) := s.decidePermits as

/-- A manager that was just started. -/
def IsNew (s : System σ) : Prop :=
  ∃ config processors startup store clock, s = ofConfig config processors startup store clock

end System

/-- The states of a manager that was started on some store. -/
inductive Reachable {σ : Type} [JobStore σ] : System σ → Prop
  | init (config : SchedulerConfig) (processors : Processors) (startup : Startup) (store : σ)
    (clock : Clock) : Reachable (.ofConfig config processors startup store clock)
  | next {s : System σ} (a : Action) : Reachable s → s.Allows a → Reachable (s.next a)

/-! ## What can be seen -/

inductive Observation where
  /-- a producer signalled a slot -/
  | rang (slot : Nat)
  /-- the wake of a slot was handled -/
  | woke (slot : Nat)
  /-- a drain cycle of a slot began -/
  | began (slot : Nat)
  /-- a task made a call -/
  | called (task : Nat) (call : JobCall)
deriving DecidableEq, Repr

namespace System

variable {σ : Type} [JobStore σ]

/-- Where the cycle of a running task stands. -/
def runningPoint? (s : System σ) (n : Nat) : Option Point :=
  if s.shared.pool.stage? n = some .running then (s.task? n).map (·.cycle.point) else none

/-- What a step of a drain cycle shows. -/
def observeStep (s : System σ) (n : Nat) (m : Moment) : List Observation :=
  match s.task? n, s.runningPoint? n, (s.stepTask n m).runningPoint? n with
  | some t, some .start, _ => [.began t.slot]
  | some _, some p, some p' => (p.call? p').toList.map (.called n)
  | _, _, _ => []

/-- What an action shows. -/
def observe (s : System σ) : Action → List Observation
  | .ring slot => [.rang slot]
  | .handle =>
    match s.commands with
    | .wake slot :: _ => [.woke slot]
    | _ => []
  | .step n m => s.observeStep n m
  | _ => []

/-- What a run shows. -/
def trace (s : System σ) : List Action → List Observation
  | [] => []
  | a :: as => s.observe a ++ (s.next a).trace as

/-! ## Lists of actions -/

variable {s : System σ}

theorem after_append (as bs : List Action) : s.after (as ++ bs) = (s.after as).after bs := by
  induction as generalizing s with
  | nil => rfl
  | cons a as ih => exact ih

end System

theorem System.IsNew.reachable {σ : Type} [JobStore σ] {s : System σ} (h : s.IsNew) :
    Reachable s := by
  obtain ⟨config, processors, startup, store, clock, rfl⟩ := h
  exact .init ..

theorem Reachable.after {σ : Type} [JobStore σ] {s : System σ} (h : Reachable s)
    {as : List Action} (hp : s.Permits as) : Reachable (s.after as) := by
  induction as generalizing s with
  | nil => exact h
  | cons a as ih => exact ih (h.next a hp.1) hp.2

/-! ## A small manager -/

namespace System

/-- A new manager on an empty store. -/
def blank : System MemoryStore :=
  ofConfig { pollInterval := none } ⟨[]⟩ ⟨[], []⟩ .empty ⟨.epoch, 0⟩

theorem isNew_blank : blank.IsNew := ⟨_, _, _, _, _, rfl⟩

/-- A partition is registered. -/
def registration : List Action :=
  [.claimKey { name := "p" }, .readDue 0 none, .sendRegister 0, .publish 0, .attach 0,
    .announce 0, .handle]

/-- An instance is inserted, and the wake has a cycle submitted. -/
def wakeUp : List Action :=
  [.insert { jobRef := "r", dueAt := .epoch }, .ring 0, .deliver 0, .handle, .timer, .dispatch,
    .dispatch, .start 0]

end System

end DueWork

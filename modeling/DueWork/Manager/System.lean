/-
  A running manager with everything around it.

  A `System` is one manager: its partitions, each with an actor and a flag
  for a wake on its way, the dispatcher with the commands on their way to it,
  the drain cycles in the worker pool, and what they share.  Producers,
  cycles, the dispatcher and late registrations act at the same time, so each
  of them is cut into steps that nothing can interrupt, and every step is a
  function on systems.

  * listeners: `ring` raises the flag, `deliver` sends the command;
  * dispatcher: `handleCommand`, `beginDispatch`, `dispatchNext`, `endLoop`;
  * cycles: `startTask`, `stepTask`, `reportTask`, `releaseWorker`,
    `releaseSlot`;
  * registration: `claimKey`, `readDue`, `sendRegister`, `publish`, `attach`,
    `announce`;
  * shutdown: `beginStop`, `stopActor`, `cancelAll`, `closePool`,
    `finishShutdown`.
-/
import DueWork.Actor.Cycle
import DueWork.Manager.Startup
import DueWork.Schedule.Dispatcher
import DueWork.Signal.Listener

namespace DueWork

open Time Signal Schedule

/-- The actor of a slot, and whether a wake for it is on its way. -/
structure Post where
  actor : Actor
  pending : Bool := false

/-- A drain cycle in the worker pool. -/
structure CycleTask where
  /-- its number in the pool -/
  task : Nat
  slot : Nat
  cycle : Cycle := {}
  /-- the dispatcher was told of its end -/
  reported : Bool := false

/-- How far a registration has come. -/
inductive RegistrationStage where
  /-- the slot is taken -/
  | claimed
  /-- the due time is read -/
  | read (due : Option Instant)
  /-- the dispatcher is told -/
  | sent
  /-- the actor can be found by its name -/
  | published
  /-- its listener is attached -/
  | attached
deriving DecidableEq, Repr

/-- A partition on its way into the manager. -/
structure Registration where
  slot : Nat
  stage : RegistrationStage
deriving DecidableEq, Repr

structure System (σ : Type) where
  /-- tells managers apart that share a registry -/
  manager : Nat := 0
  config : SchedulerConfig
  processors : Processors
  /-- fan-out partitions by name -/
  bases : List (String × Key) := []
  shared : Shared σ
  clock : Clock
  /-- actors by slot -/
  posts : List Post := []
  /-- keys that are taken, in the order of registration -/
  keys : List Key := []
  registrations : List Registration := []
  /-- slots by the names of their partitions -/
  actors : List (String × Nat) := []
  /-- discriminators whose listeners go to the registry -/
  discriminators : List String := []
  registry : Registry := {}
  /-- slots whose flag is raised and whose command is not sent -/
  ringing : List Nat := []
  /-- commands on their way to the dispatcher, first to last -/
  commands : List Command := []
  dispatcher : Dispatcher := {}
  /-- the dispatcher takes commands -/
  loopAlive : Bool := true
  /-- everything was asked to stop -/
  cancelled : Bool := false
  tasks : List CycleTask := []
  stopped : Bool := false

namespace System

variable {σ : Type}

/-- How the actors of this manager drain. -/
def actorConfig (s : System σ) : ActorConfig where
  batchSize := s.config.batchSize
  processorTimeout := s.config.processorTimeout
  suspendBase := s.config.suspendBackoffBase
  suspendMax := s.config.suspendBackoffMax
  retry := s.config.retry

def dispatchConfig (s : System σ) : DispatchConfig := .ofScheduler s.config

/-- A manager before it has any partition. -/
def ofConfig (config : SchedulerConfig) (processors : Processors) (startup : Startup) (store : σ)
    (clock : Clock) : System σ where
  config := config
  processors := processors
  bases := startup.bases
  shared :=
    { store := store
      pool := .ofConfig ⟨config.poolSize, config.queueCapacity, config.maxInFlight⟩ }
  clock := clock

/-! ## Posts -/

def actor? (s : System σ) (slot : Nat) : Option Actor := (s.posts[slot]?).map (·.actor)

/-- Change the post of a slot. -/
def modifyPost (s : System σ) (slot : Nat) (f : Post → Post) : System σ :=
  { s with posts := s.posts.modify slot f }

/-- Change the actor of a slot. -/
def modifyActor (s : System σ) (slot : Nat) (f : Actor → Actor) : System σ :=
  s.modifyPost slot fun p => { p with actor := f p.actor }

/-- The actor of a slot is stopped; so is one that is not there. -/
def isStopped (s : System σ) (slot : Nat) : Bool := ((s.actor? slot).map (·.isStopped)).getD true

def isPending (s : System σ) (slot : Nat) : Bool := ((s.posts[slot]?).map (·.pending)).getD false

/-- The name of a slot's partition. -/
def partitionName (s : System σ) (slot : Nat) : String :=
  ((s.actor? slot).map (·.key.name)).getD ""

/-- Publish events. -/
def publishAll (s : System σ) (events : List Event) : System σ :=
  { s with shared := { s.shared with events := events.foldl Broadcast.publish s.shared.events } }

/-- Send a command, if the dispatcher takes any. -/
def send (s : System σ) (c : Command) : System σ :=
  if s.loopAlive then { s with commands := s.commands ++ [c] } else s

/-! ## Listeners -/

/-- Raise the flag of a slot: false if it is up already. -/
def ring (s : System σ) (slot : Nat) : Bool × System σ :=
  if s.isPending slot then (false, s)
  else
    (true, { s.modifyPost slot (fun p => { p with pending := true }) with
      ringing := slot :: s.ringing })

/-- Send the command of a raised flag; without a dispatcher the flag goes down
    again. -/
def deliver (s : System σ) (slot : Nat) : Bool × System σ :=
  if slot ∈ s.ringing then
    let s := { s with ringing := s.ringing.erase slot }
    if s.loopAlive then (true, s.send (.wake slot))
    else (false, s.modifyPost slot fun p => { p with pending := false })
  else (false, s)

/-- Tell a slot that there may be new work: whether a wake was sent. -/
def signal (s : System σ) (slot : Nat) : Bool × System σ :=
  match s.ring slot with
  | (true, s) => s.deliver slot
  | (false, s) => (false, s)

/-- Signal listeners one after another, and count the wakes that were sent. -/
def signalAll (s : System σ) : List Listener → Nat × System σ
  | [] => (0, s)
  | l :: ls =>
    if l.manager = s.manager then
      let (sent, s) := s.signal l.slot
      let (n, s) := s.signalAll ls
      (n + sent.toNat, s)
    else s.signalAll ls

/-- Signal what is registered under a discriminator. -/
def notify (s : System σ) (discriminator : String) : Nat × System σ :=
  s.signalAll (s.registry.under discriminator)

/-- Signal the partitions that an instance belongs to. -/
def notifyJob (s : System σ) (j : Job) : Nat × System σ := s.signalAll (s.registry.selecting j)

/-! ## Dispatcher -/

/-- The dispatcher handles the first command. -/
def handleCommand (s : System σ) : System σ :=
  match s.commands with
  | [] => s
  | c :: cs =>
    let s := { s with commands := cs }
    match c with
    | .register slot due =>
      { s with dispatcher := s.dispatcher.register s.dispatchConfig s.clock slot due }
    | .wake slot =>
      if (s.dispatcher.slot? slot).isNone then s
      else
        let s := s.modifyPost slot fun p => { p with pending := false }
        if s.isStopped slot then s
        else
          { s.modifyActor slot (·.count fun m => { m with earlyWakes := m.earlyWakes + 1 }) with
            dispatcher := s.dispatcher.wake s.clock slot }
    | .finished slot result =>
      let (d, events) := s.dispatcher.finished s.dispatchConfig s.clock (s.partitionName slot)
        (s.isStopped slot) slot result
      { s with dispatcher := d }.publishAll events

/-- The wake timer fires. -/
def beginDispatch (s : System σ) : System σ :=
  { s with dispatcher := s.dispatcher.beginDispatch s.clock }

/-- Submit the next due slot to the pool, or end the dispatching. -/
def dispatchNext (s : System σ) : System σ :=
  match s.dispatcher.nextSlot with
  | (none, d) => { s with dispatcher := d }
  | (some slot, d) =>
    let stopped := s.isStopped slot
    if d.wantsSubmit slot stopped then
      match s.shared.pool.submit with
      | (.ok n, pool) =>
        { s with
          dispatcher := d.submitted slot
          shared := { s.shared with pool := pool }
          tasks := s.tasks ++ [{ task := n, slot := slot }] }
      | (.error e, pool) =>
        let (d, events) := d.refused s.dispatchConfig s.clock (s.partitionName slot) slot e
        { s with dispatcher := d, shared := { s.shared with pool := pool } }.publishAll events
    else { s with dispatcher := d.noteRerun slot stopped }

/-- The dispatcher ends; what was on its way to it is lost. -/
def endLoop (s : System σ) : System σ := { s with loopAlive := false, commands := [] }

/-! ## Drain cycles -/

section Cycles

variable [JobStore σ]

/-- One step of a cycle of a slot. -/
def stepCycle (s : System σ) (slot : Nat) (m : Moment) (c : Cycle) : System σ × Cycle :=
  match s.actor? slot with
  | none => (s, c)
  | some a =>
    let (shared, a, c) := c.step s.actorConfig { m with now := s.clock.wall } s.shared a
    ({ s.modifyActor slot (fun _ => a) with shared := shared }, c)

end Cycles

def task? (s : System σ) (n : Nat) : Option CycleTask := s.tasks.find? (·.task == n)

/-- Change a task. -/
def modifyTask (s : System σ) (n : Nat) (f : CycleTask → CycleTask) : System σ :=
  { s with tasks := s.tasks.map fun t => if t.task = n then f t else t }

/-- Change the pool. -/
def modifyPool (s : System σ) (f : WorkerPool → WorkerPool) : System σ :=
  { s with shared := { s.shared with pool := f s.shared.pool } }

/-- A task gets a worker. -/
def startTask (s : System σ) (n : Nat) : System σ := s.modifyPool (·.start n)

/-- One step of the cycle of a running task. -/
def stepTask [JobStore σ] (s : System σ) (n : Nat) (m : Moment) : System σ :=
  match s.task? n with
  | none => s
  | some t =>
    if s.shared.pool.stage? n = some .running then
      let (s, c) := s.stepCycle t.slot m t.cycle
      s.modifyTask n fun t => { t with cycle := c }
    else s

/-- Tell the dispatcher that a cycle is over.  One that panicked leaves its
    actor idle. -/
def reportTask (s : System σ) (n : Nat) : System σ :=
  match s.task? n with
  | none => s
  | some t =>
    if t.reported then s
    else
      let s' := s.modifyTask n fun t => { t with reported := true }
      match t.cycle.point, s.actor? t.slot with
      | .ended r, _ => s'.send (.finished t.slot r)
      | .panicked message, some a =>
        (s'.modifyActor t.slot (·.setState .idle)).send
          (.finished t.slot (Cycle.panicResult a message))
      | _, _ => s

/-- A task whose end was reported gives back its worker. -/
def releaseWorker (s : System σ) (n : Nat) : System σ :=
  if ((s.task? n).map (·.reported)).getD false then s.modifyPool (·.releaseWorker n) else s

/-- A task gives back its slot and is gone. -/
def releaseSlot (s : System σ) (n : Nat) : System σ :=
  if s.shared.pool.stage? n = some .leaving then
    { s.modifyPool (·.releaseSlot n) with tasks := s.tasks.filter (·.task != n) }
  else s

/-! ## Registration -/

/-- Take a name and a slot for a partition. -/
def claimKey (s : System σ) (key : Key) : System σ :=
  { s with
    keys := s.keys ++ [key]
    posts := s.posts ++ [{ actor := { key := key, stopRequested := s.cancelled } }]
    registrations := s.registrations ++ [⟨s.posts.length, .claimed⟩] }

/-- The checks for a partition that is added while the manager runs. -/
def requireNew (s : System σ) (key : Key) : Except Error Unit := do
  if s.stopped then throw (.scheduler "actor manager is stopped")
  s.processors.require key.instanceType
  requireNewKey s.keys key

/-- Move a registration to another stage. -/
def setStage (s : System σ) (slot : Nat) (stage : RegistrationStage) : System σ :=
  { s with registrations := s.registrations.map fun r =>
      if r.slot = slot then { r with stage := stage } else r }

/-- Read when the partition is due first; if that fails, it is looked at right
    away. -/
def readDue [JobStore σ] (s : System σ) (slot : Nat) (failure : Option Error) : System σ :=
  match s.actor? slot with
  | none => s
  | some a =>
    let due := match failure, JobStore.nextDue s.shared.store a.key with
      | none, .ok due => due
      | _, _ => some s.clock.wall
    s.setStage slot (.read due)

/-- Tell the dispatcher of the partition, if it still takes commands. -/
def sendRegister (s : System σ) (slot : Nat) : Except Error (System σ) :=
  match s.registrations.find? (·.slot == slot) with
  | some ⟨_, .read due⟩ =>
    if s.loopAlive then .ok ((s.send (.register slot due)).setStage slot .sent)
    else .error (.scheduler "scheduling loop has stopped")
  | _ => .ok s

/-- Let the partition be found by its name. -/
def publish (s : System σ) (slot : Nat) : System σ :=
  { s with actors := s.actors ++ [(s.partitionName slot, slot)] }.setStage slot .published

/-- The listener of a slot. -/
def listener? (s : System σ) (slot : Nat) : Option Listener :=
  (s.actor? slot).map fun a => ⟨s.manager, slot, a.key⟩

/-- Add the listener of a slot to the registry under a discriminator, if that
    selects it. -/
def attachUnder (s : System σ) (slot : Nat) (discriminator : String) : System σ :=
  match s.listener? slot with
  | none => s
  | some l =>
    if selects l.key discriminator then
      { s with registry := s.registry.register discriminator l }
    else s

/-- Attach the listener of a new partition wherever it is selected. -/
def attach (s : System σ) (slot : Nat) : System σ :=
  (s.discriminators.foldl (fun s d => s.attachUnder slot d) s).setStage slot .attached

/-- The registration is over. -/
def forget (s : System σ) (slot : Nat) : System σ :=
  { s with registrations := s.registrations.filter (·.slot != slot) }

/-- Say that a partition was added to the running manager. -/
def announce (s : System σ) (slot : Nat) : System σ :=
  (s.publishAll [.partitionRegistered (s.partitionName slot)]).forget slot

/-- The partitions that a discriminator selects among those that can be found. -/
def selected (s : System σ) (discriminator : String) : List Nat :=
  (s.actors.map (·.2)).filter fun slot =>
    ((s.actor? slot).map fun a => selects a.key discriminator).getD false

/-- Attach the partitions that a discriminator selects, now and later; the
    number of those attached now. -/
def registerListener (s : System σ) (discriminator : String) : Nat × System σ :=
  let s := { s with discriminators := s.discriminators ++ [discriminator] }
  let slots := s.selected discriminator
  (slots.length, slots.foldl (fun s slot => s.attachUnder slot discriminator) s)

/-- Defer the instances of a partition whose claims are stale at startup. -/
def recover [JobStore σ] (s : System σ) (key : Key) (cutoff : Instant) : System σ :=
  let (_, store) := JobStore.resetStale s.shared.store key cutoff s.clock.wall
  { s with shared := { s.shared with store := store } }

/-! ## Shutdown -/

/-- Refuse new partitions. -/
def beginStop (s : System σ) : System σ := { s with stopped := true }

/-- Stop the actor of a slot. -/
def stopActor (s : System σ) (slot : Nat) : System σ := s.modifyActor slot Actor.stop

/-- Ask every cycle and the dispatcher to end. -/
def cancelAll (s : System σ) : System σ :=
  { s with
    posts := s.posts.map fun p => { p with actor := p.actor.requestStop }
    cancelled := true }

def closePool (s : System σ) : System σ := s.modifyPool WorkerPool.close

/-- Discard the cycles that have not ended, with the permits that they hold. -/
def finishShutdown (s : System σ) : PoolShutdown × System σ :=
  let (report, pool) := s.shared.pool.finish
  let held := s.tasks.countP fun t => t.cycle.point.holdsPermit
  (report, { s with
    tasks := []
    shared := { s.shared with pool := { pool with freePermits := pool.freePermits + held } } })

/-! ## Descriptions -/

/-- The names of the partitions, in order. -/
def partitions (s : System σ) : List String := (s.actors.map (·.1)).mergeSort fun a b => a ≤ b

/-- The slot of a partition. -/
def slot? (s : System σ) (partition : String) : Option Nat := s.actors.lookup partition

/-- The description of a manager. -/
def description (s : System σ) : String :=
  "ActorManager \x7b partitions: " ++ Text.quotedList s.partitions ++ ", stopped: " ++
    toString s.stopped ++ " \x7d"

end System

end DueWork

/-
  The dispatcher: the one place that decides when a partition is drained.

  Everything that changes the schedule reaches it as a `Command`: a partition
  is registered, a producer wakes it, or one of its drain cycles is over.
  When the earliest wake time has come the dispatcher submits every slot that
  is due, and it submits no slot whose cycle it has not seen the end of.

  * `register`, `wake` and `finished` handle the commands;
  * `beginDispatch` reads the clock once, and each `nextSlot` takes one due
    slot until none is left;
  * `submitted` and `refused` note the answer of the worker pool;
  * `wakeTime` is the time at which an idle partition is looked at again.
-/
import DueWork.Actor.Report
import DueWork.Config.Scheduler
import DueWork.Pool.WorkerPool
import DueWork.Schedule.WakeQueue
import DueWork.Signal.Event

namespace DueWork.Schedule

open Time

/-- The wall clock, and the time that timers run by, in nanoseconds. -/
structure Clock where
  wall : Instant
  time : Nat
deriving DecidableEq, Repr

/-- No wake time is further off than a day, whatever the calendar says. -/
def maxWakeDelay : Duration := .ofSeconds (24 * 60 * 60)

/-- How long a partition without work may be left alone, and the delays after
    a refused submission and a failed cycle. -/
structure DispatchConfig where
  pollInterval : Option Duration
  submitBase : Duration
  submitMax : Duration
  storeBase : Duration
  storeMax : Duration
deriving DecidableEq, Repr

def DispatchConfig.ofScheduler (c : SchedulerConfig) : DispatchConfig where
  pollInterval := c.pollInterval
  submitBase := c.submitBackoffBase
  submitMax := c.submitBackoffMax
  storeBase := c.storeBackoffBase
  storeMax := c.storeBackoffMax

/-- What reaches the dispatcher. -/
inductive Command where
  /-- a partition is there, and due at this time -/
  | register (slot : Nat) (due : Option Instant)
  /-- a partition may have new work -/
  | wake (slot : Nat)
  /-- a drain cycle is over -/
  | finished (slot : Nat) (result : CycleResult)

/-- What the dispatcher knows of a slot. -/
structure SlotState where
  /-- a submitted cycle is not over -/
  running : Bool := false
  /-- a wake came while a cycle was running -/
  rerun : Bool := false
  /-- submissions refused in a row -/
  submitAttempts : UInt32 := 0
  /-- failed cycles in a row -/
  storeFailures : UInt32 := 0
deriving DecidableEq, Repr

structure Dispatcher where
  queue : WakeQueue := {}
  slots : List (Nat × SlotState) := []
  /-- the clock reading by which due slots are being dispatched -/
  dispatching : Option Nat := none

/-- The time at which a partition is to be looked at: when it is due, and at
    the latest after the poll interval, each at most a day away. -/
def wakeTime (poll : Option Duration) (clock : Clock) (due : Option Instant) : Option Nat :=
  let atDue := due.map fun d => clock.time + (min (d.delayFrom clock.wall) maxWakeDelay).nanos
  let atPoll := poll.map fun p => clock.time + (min p maxWakeDelay).nanos
  match atDue, atPoll with
  | some a, some b => some (min a b)
  | some a, none => some a
  | none, b => b

namespace Dispatcher

instance : Inhabited Dispatcher := ⟨{}⟩

def slot? (d : Dispatcher) (slot : Nat) : Option SlotState := d.slots.lookup slot

/-- Put a slot's state in the place of the old one. -/
def setSlot (d : Dispatcher) (slot : Nat) (s : SlotState) : Dispatcher :=
  { d with slots := (slot, s) :: d.slots.filter (·.1 != slot) }

/-- Wake a slot at a time, or earlier if it is scheduled earlier. -/
def scheduleAt (d : Dispatcher) (slot time : Nat) : Dispatcher :=
  { d with queue := (d.queue.schedule slot time).2 }

/-- Wake a slot at a time, if there is one. -/
def scheduleIf (d : Dispatcher) (slot : Nat) : Option Nat → Dispatcher
  | some time => d.scheduleAt slot time
  | none => d

/-! ## Commands -/

/-- A new slot, to be looked at when it is due. -/
def register (c : DispatchConfig) (clock : Clock) (d : Dispatcher) (slot : Nat)
    (due : Option Instant) : Dispatcher :=
  (d.setSlot slot {}).scheduleIf slot (wakeTime c.pollInterval clock due)

/-- A signal for a slot that is not stopped: drain it now, or again after the
    running cycle. -/
def wake (clock : Clock) (d : Dispatcher) (slot : Nat) : Dispatcher :=
  match d.slot? slot with
  | none => d
  | some s =>
    if s.running then d.setSlot slot { s with rerun := true } else d.scheduleAt slot clock.time

/-- A cycle is over; `stopped` says whether its actor is. -/
def finished (c : DispatchConfig) (clock : Clock) (partition : String) (stopped : Bool)
    (d : Dispatcher) (slot : Nat) (result : CycleResult) : Dispatcher × List Event :=
  match d.slot? slot with
  | none => (d, [])
  | some s =>
    let rerun := s.rerun
    let s := { s with running := false, rerun := false }
    if stopped then (d.setSlot slot s, [])
    else match result with
      | .ok report =>
        let d := d.setSlot slot { s with storeFailures := 0 }
        if report.stopped then (d, [])
        else
          let time :=
            if rerun then some clock.time else wakeTime c.pollInterval clock report.nextDue
          (d.scheduleIf slot time, [])
      | .error e =>
        let attempt := s.storeFailures
        let delay := Duration.cappedExponential c.storeBase c.storeMax attempt
        let d := d.setSlot slot { s with storeFailures := Duration.nextCount attempt }
        let events := match e with
          | .storeUnavailable _ _ =>
            [.storeUnavailable partition (attempt + 1) e.message delay]
          | .panicked _ _ => []
        (d.scheduleAt slot (clock.time + delay.nanos), events)

/-! ## Dispatching -/

/-- The earliest wake time. -/
def nextDeadline? (d : Dispatcher) : Option Nat := d.queue.next?

/-- Begin to dispatch what is due now. -/
def beginDispatch (clock : Clock) (d : Dispatcher) : Dispatcher :=
  { d with dispatching := some clock.time }

/-- Take the next due slot; without one the dispatching is over. -/
def nextSlot (d : Dispatcher) : Option Nat × Dispatcher :=
  match d.dispatching with
  | none => (none, d)
  | some time =>
    match d.queue.popDue time with
    | (some slot, q) => (some slot, { d with queue := q })
    | (none, q) => (none, { d with queue := q, dispatching := none })

/-- A slot that was taken is to be submitted: it is known, its actor is not
    stopped, and no cycle of it is running. -/
def wantsSubmit (d : Dispatcher) (slot : Nat) (stopped : Bool) : Bool :=
  match d.slot? slot with
  | none => false
  | some s => !stopped && !s.running

/-- A slot that was taken and is running is drained again afterwards. -/
def noteRerun (d : Dispatcher) (slot : Nat) (stopped : Bool) : Dispatcher :=
  match d.slot? slot with
  | none => d
  | some s => if !stopped && s.running then d.setSlot slot { s with rerun := true } else d

/-- The pool accepted a cycle of the slot. -/
def submitted (d : Dispatcher) (slot : Nat) : Dispatcher :=
  match d.slot? slot with
  | none => d
  | some s => d.setSlot slot { s with running := true, submitAttempts := 0 }

/-- The pool refused a cycle of the slot: a full pool is tried again later. -/
def refused (c : DispatchConfig) (clock : Clock) (partition : String) (d : Dispatcher)
    (slot : Nat) (e : SubmitError) : Dispatcher × List Event :=
  match d.slot? slot, e with
  | none, _ | _, .closed => (d, [])
  | some s, .saturated =>
    let attempt := s.submitAttempts
    let delay := Duration.cappedExponential c.submitBase c.submitMax attempt
    ((d.setSlot slot { s with submitAttempts := Duration.nextCount attempt }).scheduleAt slot
        (clock.time + delay.nanos),
      [.poolSaturated partition (attempt + 1) delay])

end Dispatcher

end DueWork.Schedule

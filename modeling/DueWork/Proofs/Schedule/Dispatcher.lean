/-
  The dispatcher, slot by slot.

  What the dispatcher holds on a slot is its state (`slot?`) and its wake time
  (`time?`).  A command concerns one slot and leaves the others alone, and so
  does a turn of the dispatching.

  * `handle` is the answer to a command, `offer` a turn of the dispatching
    with the answer of the worker pool;
  * `handle_of_ne` and `offer_at` say what they do to a slot;
  * `handle_fits` and `Turn.fits`: `running` goes with the cycles in flight.
-/
import DueWork.Proofs.Schedule.WakeQueue
import DueWork.Schedule.Dispatcher

namespace DueWork.Schedule

open Time

namespace Command

/-- The slot that a command is about. -/
def slot : Command → Nat
  | register slot _ | wake slot | finished slot _ => slot

/-- The command registers this slot. -/
def isRegister (slot : Nat) : Command → Bool
  | register i _ => i == slot
  | _ => false

/-- The command wakes this slot. -/
def isWake (slot : Nat) : Command → Bool
  | wake i => i == slot
  | _ => false

/-- The command ends a cycle of this slot. -/
def isFinished (slot : Nat) : Command → Bool
  | finished i _ => i == slot
  | _ => false

variable {i : Nat} {cmd : Command}

theorem isRegister_of_ne (h : i ≠ cmd.slot) : cmd.isRegister i = false := by
  cases cmd with
  | register j due => exact beq_eq_false_iff_ne.2 (Ne.symm h)
  | wake j => rfl
  | finished j r => rfl

theorem isWake_of_ne (h : i ≠ cmd.slot) : cmd.isWake i = false := by
  cases cmd with
  | register j due => rfl
  | wake j => exact beq_eq_false_iff_ne.2 (Ne.symm h)
  | finished j r => rfl

theorem isFinished_of_ne (h : i ≠ cmd.slot) : cmd.isFinished i = false := by
  cases cmd with
  | register j due => rfl
  | wake j => rfl
  | finished j r => exact beq_eq_false_iff_ne.2 (Ne.symm h)

end Command

namespace Dispatcher

variable {c : DispatchConfig} {clock : Clock} {partition : Nat → String} {stopped : Nat → Bool}
variable {d d' : Dispatcher} {slot i t : Nat} {s : SlotState} {o : Option Nat}

/-- When a slot is to be looked at next. -/
def time? (d : Dispatcher) (slot : Nat) : Option Nat := d.queue.time? slot

/-- A cycle of the slot is submitted, and its end was not handled. -/
def isRunning (d : Dispatcher) (slot : Nat) : Bool := (d.slot? slot).elim false (·.running)

/-! ## States and wake times -/

@[simp] theorem slot?_setSlot_self : (d.setSlot slot s).slot? slot = some s := by
  simp [slot?, setSlot]

@[simp] theorem slot?_setSlot_of_ne (h : i ≠ slot) : (d.setSlot slot s).slot? i = d.slot? i := by
  have hi : (i == slot) = false := by simp [h]
  simp [slot?, setSlot, List.lookup_cons, hi, lookup_filter_of_ne h]

@[simp] theorem time?_setSlot : (d.setSlot slot s).time? i = d.time? i := rfl

@[simp] theorem dispatching_setSlot : (d.setSlot slot s).dispatching = d.dispatching := rfl

@[simp] theorem slot?_scheduleAt : (d.scheduleAt slot t).slot? i = d.slot? i := rfl

@[simp] theorem dispatching_scheduleAt : (d.scheduleAt slot t).dispatching = d.dispatching := rfl

theorem time?_scheduleAt_self :
    (d.scheduleAt slot t).time? slot = some ((d.time? slot).elim t (min · t)) :=
  WakeQueue.time?_schedule_self

theorem isSome_time?_scheduleAt : ((d.scheduleAt slot t).time? slot).isSome := by
  rw [time?_scheduleAt_self]; rfl

@[simp] theorem time?_scheduleAt_of_ne (h : i ≠ slot) :
    (d.scheduleAt slot t).time? i = d.time? i :=
  WakeQueue.time?_schedule_of_ne h

@[simp] theorem slot?_scheduleIf : (d.scheduleIf slot o).slot? i = d.slot? i := by
  cases o <;> rfl

@[simp] theorem dispatching_scheduleIf : (d.scheduleIf slot o).dispatching = d.dispatching := by
  cases o <;> rfl

@[simp] theorem time?_scheduleIf_of_ne (h : i ≠ slot) :
    (d.scheduleIf slot o).time? i = d.time? i := by
  cases o with
  | none => rfl
  | some t => exact time?_scheduleAt_of_ne h

/-- A slot that was not scheduled gets exactly the time that it is given. -/
theorem time?_scheduleIf_self (h : d.time? slot = none) : (d.scheduleIf slot o).time? slot = o := by
  cases o with
  | none => exact h
  | some t => rw [scheduleIf, time?_scheduleAt_self, h]; rfl

/-! ## Commands -/

/-- The answer to a command. -/
def handle (c : DispatchConfig) (clock : Clock) (partition : Nat → String) (stopped : Nat → Bool)
    (d : Dispatcher) : Command → Dispatcher
  | .register slot due => d.register c clock slot due
  | .wake slot => if stopped slot then d else d.wake clock slot
  | .finished slot result =>
    (d.finished c clock (partition slot) (stopped slot) slot result).1

theorem wake_of_running (h : d.slot? slot = some s) (hs : s.running = true) :
    d.wake clock slot = d.setSlot slot { s with rerun := true } := by
  simp [wake, h, hs]

theorem wake_of_not_running (h : d.slot? slot = some s) (hs : s.running = false) :
    d.wake clock slot = d.scheduleAt slot clock.time := by
  simp [wake, h, hs]

theorem wake_of_none (h : d.slot? slot = none) : d.wake clock slot = d := by
  simp [wake, h]

theorem finished_of_none {p : String} {b : Bool} {r : CycleResult} (h : d.slot? slot = none) :
    (d.finished c clock p b slot r).1 = d := by
  simp [finished, h]

/-- The delay after a failed cycle. -/
def storeDelay (c : DispatchConfig) (s : SlotState) : Duration :=
  .cappedExponential c.storeBase c.storeMax s.storeFailures

/-- When a slot is to be looked at after a cycle that ended with this result. -/
def timeAfter (c : DispatchConfig) (clock : Clock) (s : SlotState) : CycleResult → Option Nat
  | .ok report =>
    if report.stopped then none
    else if s.rerun then some clock.time
    else wakeTime c.pollInterval clock report.nextDue
  | .error _ => some (clock.time + (storeDelay c s).nanos)

/-- The end of a cycle clears `running` and `rerun`, and schedules the slot
    unless its actor is stopped. -/
theorem finished_of_some (c : DispatchConfig) (clock : Clock) (p : String) (b : Bool)
    (r : CycleResult) (h : d.slot? slot = some s) :
    ∃ s', s'.running = false ∧ s'.rerun = false ∧
      (d.finished c clock p b slot r).1 =
        (d.setSlot slot s').scheduleIf slot (if b then none else timeAfter c clock s r) := by
  cases b with
  | true => exact ⟨{ s with running := false, rerun := false }, rfl, rfl, by simp [finished, h]; rfl⟩
  | false =>
    cases r with
    | error e =>
      refine ⟨{ s with running := false, rerun := false,
                       storeFailures := Duration.nextCount s.storeFailures }, rfl, rfl, ?_⟩
      simp only [finished, h]; rfl
    | ok report =>
      refine ⟨{ s with running := false, rerun := false, storeFailures := 0 }, rfl, rfl, ?_⟩
      cases hs : report.stopped with
      | true => simp [finished, h, timeAfter, hs]; rfl
      | false => simp [finished, h, timeAfter, hs]

/-- The end of a cycle decides when its slot is looked at next. -/
theorem time?_finished {p : String} {b : Bool} {r : CycleResult} (h : d.slot? slot = some s)
    (ht : d.time? slot = none) :
    (d.finished c clock p b slot r).1.time? slot =
      if b then none else timeAfter c clock s r := by
  obtain ⟨s', -, -, heq⟩ := finished_of_some c clock p b r h
  rw [heq, time?_scheduleIf_self (by simpa using ht)]

@[simp] theorem dispatching_handle {cmd : Command} :
    (d.handle c clock partition stopped cmd).dispatching = d.dispatching := by
  cases cmd with
  | register slot due => simp [handle, register]
  | wake slot =>
    cases hs : d.slot? slot with
    | none => simp [handle, wake_of_none hs]
    | some s => simp only [handle, wake, hs]; split <;> (try split) <;> rfl
  | finished slot result =>
    cases hs : d.slot? slot with
    | none => simp [handle, finished_of_none hs]
    | some s =>
      obtain ⟨s', -, -, heq⟩ := finished_of_some c clock (partition slot) (stopped slot) result hs
      simp [handle, heq]

/-- A command leaves the other slots alone. -/
theorem handle_of_ne (c : DispatchConfig) (clock : Clock) (partition : Nat → String)
    (stopped : Nat → Bool) (d : Dispatcher) {cmd : Command} (h : i ≠ cmd.slot) :
    (d.handle c clock partition stopped cmd).slot? i = d.slot? i ∧
      (d.handle c clock partition stopped cmd).time? i = d.time? i := by
  cases cmd with
  | register slot due => simp [handle, register, show i ≠ slot from h]
  | wake slot =>
    replace h : i ≠ slot := h
    cases hs : d.slot? slot with
    | none => simp [handle, wake_of_none hs]
    | some s => simp only [handle, wake, hs]; split <;> (try split) <;> simp [h]
  | finished slot result =>
    replace h : i ≠ slot := h
    cases hs : d.slot? slot with
    | none => simp [handle, finished_of_none hs]
    | some s =>
      obtain ⟨s', -, -, heq⟩ := finished_of_some c clock (partition slot) (stopped slot) result hs
      simp [handle, heq, h]

/-! ## Dispatching -/

/-- A turn of the dispatching: take the next due slot and submit it, if that is
    wanted, to a pool that accepts the cycle or answers with an error.  The
    slot whose cycle was accepted, if there is one. -/
def offer (c : DispatchConfig) (clock : Clock) (partition : Nat → String) (stopped : Nat → Bool)
    (answer : Option SubmitError) (d : Dispatcher) : Option Nat × Dispatcher :=
  match d.nextSlot with
  | (none, d) => (none, d)
  | (some slot, d) =>
    if d.wantsSubmit slot (stopped slot) then
      match answer with
      | none => (some slot, d.submitted slot)
      | some e => (none, (d.refused c clock (partition slot) slot e).1)
    else (none, d.noteRerun slot (stopped slot))

theorem nextSlot_none (h : d.nextSlot = (none, d')) :
    d'.slots = d.slots ∧ d'.dispatching = none ∧ ∀ i, d'.time? i = d.time? i := by
  unfold nextSlot at h
  split at h
  case h_1 hd => cases h; exact ⟨rfl, hd, fun _ => rfl⟩
  case h_2 now _ =>
    split at h
    case h_1 => cases h
    case h_2 q hq => cases h; exact ⟨rfl, rfl, fun _ => WakeQueue.popDue_none hq⟩

theorem nextSlot_some (h : d.nextSlot = (some slot, d')) :
    d'.slots = d.slots ∧ d'.dispatching = d.dispatching ∧ d'.time? slot = none ∧
      ∀ i, i ≠ slot → d'.time? i = d.time? i := by
  unfold nextSlot at h
  split at h
  case h_1 => cases h
  case h_2 now _ =>
    split at h
    case h_1 slot q hq =>
      cases h
      obtain ⟨hself, hne⟩ := WakeQueue.popDue_some hq
      exact ⟨rfl, rfl, hself, hne⟩
    case h_2 => cases h

/-- What a turn of the dispatching may do to the state and the wake time of a
    slot, and whether it submits a cycle of it. -/
inductive Turn (stopped : Bool) (answer : Option SubmitError) :
    Option SlotState → Option Nat → Bool → Option SlotState → Option Nat → Prop
  /-- the slot was not taken -/
  | kept (st : Option SlotState) (t : Option Nat) : Turn stopped answer st t false st t
  /-- no partition of this slot is known -/
  | unknown (t : Option Nat) : Turn stopped answer none t false none none
  /-- the actor is stopped -/
  | stopped (s : SlotState) (t : Option Nat) (h : stopped = true) :
    Turn stopped answer (some s) t false (some s) none
  /-- a cycle is running, and another is to follow -/
  | rerun (s : SlotState) (t : Option Nat) (h : stopped = false) (hs : s.running = true) :
    Turn stopped answer (some s) t false (some { s with rerun := true }) none
  /-- the pool accepted a cycle -/
  | submitted (s : SlotState) (t : Option Nat) (h : stopped = false) (hs : s.running = false)
    (ha : answer = none) :
    Turn stopped answer (some s) t true (some { s with running := true, submitAttempts := 0 }) none
  /-- the pool was full -/
  | saturated (s : SlotState) (t : Option Nat) (n : UInt32) (t' : Nat) (h : stopped = false)
    (hs : s.running = false) (ha : answer = some .saturated) :
    Turn stopped answer (some s) t false (some { s with submitAttempts := n }) (some t')
  /-- the pool was closed -/
  | closed (s : SlotState) (t : Option Nat) (h : stopped = false) (hs : s.running = false)
    (ha : answer = some .closed) :
    Turn stopped answer (some s) t false (some s) none

/-- No slot becomes known, or unknown. -/
theorem Turn.isSome_eq {b sub : Bool} {answer : Option SubmitError} {st st' : Option SlotState}
    {t t' : Option Nat} (h : Turn b answer st t sub st' t') : st'.isSome = st.isSome := by
  cases h <;> rfl

/-- With an open pool only a slot that was idle and unscheduled is left so. -/
theorem Turn.idle {sub : Bool} {answer : Option SubmitError} {st : Option SlotState}
    {t : Option Nat} (h : Turn false answer st t sub (some s) none) (ha : answer ≠ some .closed)
    (hs : s.running = false) : st = some s ∧ t = none := by
  cases h with
  | kept => exact ⟨rfl, rfl⟩
  | stopped _ _ hb => cases hb
  | rerun s _ _ hrun => rw [show s.running = true from hrun] at hs; cases hs
  | submitted => cases hs
  | closed _ _ _ _ hc => exact absurd hc ha

/-- The slot that was taken is submitted, refused or passed over. -/
theorem offer_taken {answer : Option SubmitError} (h : d.nextSlot = (some slot, d')) :
    Turn (stopped slot) answer (d.slot? slot) (d.time? slot)
      ((d.offer c clock partition stopped answer).1 == some slot)
      ((d.offer c clock partition stopped answer).2.slot? slot)
      ((d.offer c clock partition stopped answer).2.time? slot) := by
  obtain ⟨hslots, -, htime, -⟩ := nextSlot_some h
  have hslot : d.slot? slot = d'.slot? slot := by simp [slot?, hslots]
  simp only [offer, h]
  rw [hslot]
  cases hs : d'.slot? slot with
  | none => simpa [wantsSubmit, noteRerun, hs, htime] using Turn.unknown _
  | some s =>
    cases hb : stopped slot with
    | true => simpa [wantsSubmit, noteRerun, hs, htime] using Turn.stopped s _ rfl
    | false =>
      cases hr : s.running with
      | true => simpa [wantsSubmit, noteRerun, hs, hr, htime] using Turn.rerun s _ rfl hr
      | false =>
        match answer with
        | none => simpa [wantsSubmit, submitted, hs, hr, htime] using Turn.submitted s _ rfl hr rfl
        | some .closed => simpa [wantsSubmit, refused, hs, hr, htime] using Turn.closed s _ rfl hr rfl
        | some .saturated =>
          simpa [wantsSubmit, refused, hs, hr, htime, time?_scheduleAt_self] using
            Turn.saturated s _ (Duration.nextCount s.submitAttempts) _ rfl hr rfl

theorem submitted_of_ne (h : i ≠ slot) :
    (d.submitted slot).slot? i = d.slot? i ∧ (d.submitted slot).time? i = d.time? i := by
  unfold submitted
  split <;> simp [h]

theorem refused_of_ne {p : String} {e : SubmitError} (h : i ≠ slot) :
    (d.refused c clock p slot e).1.slot? i = d.slot? i ∧
      (d.refused c clock p slot e).1.time? i = d.time? i := by
  unfold refused
  split <;> simp [h]

theorem noteRerun_of_ne {b : Bool} (h : i ≠ slot) :
    (d.noteRerun slot b).slot? i = d.slot? i ∧ (d.noteRerun slot b).time? i = d.time? i := by
  unfold noteRerun
  split
  · simp
  · split <;> simp [h]

/-- A slot that was not taken keeps its state and its wake time. -/
theorem offer_of_ne (c : DispatchConfig) (clock : Clock) (partition : Nat → String)
    (stopped : Nat → Bool) (answer : Option SubmitError) (h : d.nextSlot = (some slot, d'))
    (hi : i ≠ slot) :
    (d.offer c clock partition stopped answer).1 ≠ some i ∧
      (d.offer c clock partition stopped answer).2.slot? i = d.slot? i ∧
      (d.offer c clock partition stopped answer).2.time? i = d.time? i := by
  obtain ⟨hslots, -, -, htime⟩ := nextSlot_some h
  have hslot : d.slot? i = d'.slot? i := by simp [slot?, hslots]
  rw [hslot, ← htime i hi]
  simp only [offer, h]
  split
  · split
    · exact ⟨by simpa using Ne.symm hi, submitted_of_ne hi⟩
    · exact ⟨by simp, refused_of_ne hi⟩
  · exact ⟨by simp, noteRerun_of_ne hi⟩

/-- A turn of the dispatching as one slot sees it. -/
theorem offer_at (c : DispatchConfig) (clock : Clock) (partition : Nat → String)
    (stopped : Nat → Bool) (answer : Option SubmitError) (d : Dispatcher) (i : Nat) :
    Turn (stopped i) answer (d.slot? i) (d.time? i)
      ((d.offer c clock partition stopped answer).1 == some i)
      ((d.offer c clock partition stopped answer).2.slot? i)
      ((d.offer c clock partition stopped answer).2.time? i) := by
  cases h : d.nextSlot with
  | mk next d' =>
    cases next with
    | none =>
      obtain ⟨hslots, -, htime⟩ := nextSlot_none h
      have hslot : d'.slot? i = d.slot? i := by simp [slot?, hslots]
      simpa [offer, h, hslot, htime] using Turn.kept (d.slot? i) (d.time? i)
    | some slot =>
      by_cases hi : i = slot
      · exact hi ▸ offer_taken h
      · obtain ⟨hne, hslot, htime⟩ := offer_of_ne c clock partition stopped answer h hi
        rw [hslot, htime, beq_eq_false_iff_ne.2 hne]
        exact Turn.kept ..

/-- Only a slot that is known is submitted. -/
theorem Turn.isSome_of_submitted {b : Bool} {answer : Option SubmitError}
    {st st' : Option SlotState} {t t' : Option Nat} (h : Turn b answer st t true st' t') :
    st.isSome := by
  cases h; rfl

theorem isSome_of_offer {answer : Option SubmitError}
    (h : (d.offer c clock partition stopped answer).1 = some slot) : (d.slot? slot).isSome := by
  have hturn := offer_at c clock partition stopped answer d slot
  rw [h, beq_self_eq_true] at hturn
  exact hturn.isSome_of_submitted

/-! ## Cycles in flight -/

/-- The state and the wake time of a slot go with `n` cycles that are submitted
    and not over: `running` counts them, and a running slot is not scheduled. -/
def Fits (st : Option SlotState) (t : Option Nat) (n : Nat) : Prop :=
  match st with
  | none => n = 0 ∧ t = none
  | some s => n = s.running.toNat ∧ (s.running = true → t = none)

theorem Fits.le_one {st : Option SlotState} {t : Option Nat} {n : Nat} (h : Fits st t n) :
    n ≤ 1 := by
  cases st with
  | none => exact h.1 ▸ Nat.zero_le 1
  | some s => exact h.1 ▸ Bool.toNat_le s.running

/-- A slot with a cycle in flight is not scheduled. -/
theorem Fits.time_of_pos {st : Option SlotState} {t : Option Nat} {n : Nat} (h : Fits st t n)
    (hn : 0 < n) : t = none := by
  cases st with
  | none => exact h.2
  | some s =>
    refine h.2 ?_
    cases hr : s.running with
    | true => rfl
    | false => rw [h.1, hr] at hn; cases hn

theorem Turn.fits {b sub : Bool} {answer : Option SubmitError} {st st' : Option SlotState}
    {t t' : Option Nat} {n : Nat} (h : Turn b answer st t sub st' t') (hf : Fits st t n) :
    Fits st' t' (n + sub.toNat) := by
  cases h with
  | kept => exact hf
  | unknown => exact ⟨hf.1, rfl⟩
  | stopped s t => exact ⟨hf.1, fun _ => rfl⟩
  | rerun s t => exact ⟨hf.1, fun _ => rfl⟩
  | closed s t => exact ⟨hf.1, fun _ => rfl⟩
  | submitted s t _ hs => exact ⟨by simp [hf.1, hs], fun _ => rfl⟩
  | saturated s t _ _ _ hs => exact ⟨hf.1, fun h => absurd h (by simp [hs])⟩

/-- A slot that is scheduled, or is running and runs again, is submitted or stays
    so. -/
theorem Turn.stays {sub : Bool} {answer : Option SubmitError} {st st' : Option SlotState}
    {t t' : Option Nat} {n : Nat} (h : Turn false answer st t sub st' t') (hf : Fits st t n)
    (ha : answer ≠ some .closed)
    (hd : t.isSome ∨ ∃ s, st = some s ∧ s.running = true ∧ s.rerun = true) :
    sub = true ∨ t'.isSome ∨ ∃ s, st' = some s ∧ s.running = true ∧ s.rerun = true := by
  cases h with
  | kept => exact .inr hd
  | unknown =>
    rcases hd with hd | ⟨s, hs, -⟩
    · rw [hf.2] at hd; cases hd
    · cases hs
  | stopped _ _ h => cases h
  | rerun s _ _ hs => exact .inr (.inr ⟨_, rfl, hs, rfl⟩)
  | submitted => exact .inl rfl
  | saturated => exact .inr (.inl rfl)
  | closed _ _ _ _ hc => exact absurd hc ha

theorem register_fits {due : Option Instant} :
    Fits ((d.register c clock slot due).slot? slot) ((d.register c clock slot due).time? slot)
      0 := by
  simp [Fits, register]

theorem wake_fits {n : Nat} (h : Fits (d.slot? slot) (d.time? slot) n) :
    Fits ((d.wake clock slot).slot? slot) ((d.wake clock slot).time? slot) n := by
  cases hs : d.slot? slot with
  | none => rw [wake_of_none hs]; exact h
  | some s =>
    rw [hs] at h
    cases hr : s.running with
    | true => rw [wake_of_running hs hr]; simpa [Fits, hr] using h
    | false => rw [wake_of_not_running hs hr]; simpa [Fits, hs, hr] using h.1

theorem finished_fits {p : String} {b : Bool} {r : CycleResult} {n : Nat}
    (h : Fits (d.slot? slot) (d.time? slot) (n + 1)) :
    Fits ((d.finished c clock p b slot r).1.slot? slot)
      ((d.finished c clock p b slot r).1.time? slot) n := by
  cases hs : d.slot? slot with
  | none => rw [hs] at h; exact absurd h.1 (Nat.succ_ne_zero n)
  | some s =>
    obtain ⟨s', hr, -, heq⟩ := finished_of_some c clock p b r hs
    have hn : n = 0 := by have := h.le_one; omega
    simp [heq, Fits, hr, hn]

/-- A command keeps the count of the cycles in flight; the end of a cycle takes
    one away. -/
theorem handle_fits (c : DispatchConfig) (clock : Clock) (partition : Nat → String)
    (stopped : Nat → Bool) {cmd : Command} {n : Nat}
    (hreg : cmd.isRegister slot = true → d.slot? slot = none)
    (h : Fits (d.slot? slot) (d.time? slot) (n + (cmd.isFinished slot).toNat)) :
    Fits ((d.handle c clock partition stopped cmd).slot? slot)
      ((d.handle c clock partition stopped cmd).time? slot) n := by
  by_cases hne : slot = cmd.slot
  · cases cmd with
    | register i due =>
      obtain rfl : slot = i := hne
      rw [hreg (by simp [Command.isRegister])] at h
      obtain ⟨hn, -⟩ := h
      obtain rfl : n = 0 := by omega
      exact register_fits
    | wake i =>
      obtain rfl : slot = i := hne
      simp only [handle]
      split
      · exact h
      · exact wake_fits h
    | finished i r =>
      obtain rfl : slot = i := hne
      exact finished_fits (by simpa [Command.isFinished] using h)
  · obtain ⟨hs, ht⟩ := handle_of_ne c clock partition stopped d hne
    rw [hs, ht]
    simpa [Command.isFinished_of_ne hne] using h

/-- Only a registration makes a slot known. -/
theorem isSome_handle (c : DispatchConfig) (clock : Clock) (partition : Nat → String)
    (stopped : Nat → Bool) (d : Dispatcher) (cmd : Command) (slot : Nat) :
    ((d.handle c clock partition stopped cmd).slot? slot).isSome =
      ((d.slot? slot).isSome || cmd.isRegister slot) := by
  by_cases hne : slot = cmd.slot
  · cases cmd with
    | register i due =>
      obtain rfl : slot = i := hne
      simp [handle, register, Command.isRegister]
    | wake i =>
      obtain rfl : slot = i := hne
      simp only [handle, Command.isRegister, Bool.or_false]
      cases hs : d.slot? slot with
      | none => simp [wake_of_none hs, hs]
      | some s => cases hr : s.running <;> cases stopped slot <;> simp [wake, hs, hr]
    | finished i r =>
      obtain rfl : slot = i := hne
      simp only [handle, Command.isRegister, Bool.or_false]
      cases hs : d.slot? slot with
      | none => simp [finished_of_none hs, hs]
      | some s =>
        obtain ⟨s', -, -, heq⟩ := finished_of_some c clock (partition slot) (stopped slot) r hs
        simp [heq]
  · obtain ⟨hs, -⟩ := handle_of_ne c clock partition stopped d hne
    rw [hs, Command.isRegister_of_ne hne, Bool.or_false]

end Dispatcher

end DueWork.Schedule

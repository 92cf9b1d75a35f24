/-
  The dispatching loop on its own: no partition is forgotten.

  A `Loop` is the dispatcher with what surrounds it: the clock, the actors that
  are stopped, and the drain cycles that the pool accepted.  It takes an
  `Input` at a time, in any order; `Loop.Allows` rules out what cannot reach
  it.  The pool is open throughout: it accepts a cycle or is full.

  * `wakeTime_some` and `wakeTime_eq_none`: the wake time of an idle partition;
  * `Reachable.invAt`: what every input preserves;
  * `no_partition_is_forgotten`: a partition runs, is scheduled, or is idle
    because nothing asks for it.
-/
import DueWork.Proofs.Schedule.Dispatcher
import DueWork.Proofs.Time.Delays

namespace DueWork.Schedule

open Time

/-! ## Wake times -/

/-- A day. -/
def dayNanos : Nat := 24 * 60 * 60 * nanosPerSecond

theorem nanos_maxWakeDelay : maxWakeDelay.nanos = dayNanos := by decide

/-- The delay to a due time is capped long before a duration is full. -/
theorem nanos_delayFrom (due now : Instant) :
    (min (due.delayFrom now) maxWakeDelay).nanos = min (due.nanosSince now).toNat dayNanos := by
  have hday : dayNanos ≤ maxDurationNanos := by decide
  rw [Duration.nanos_min, nanos_maxWakeDelay]
  show min (min _ maxDurationNanos) dayNanos = _
  rw [Nat.min_assoc, Nat.min_eq_right hday]

/-- The delay of a wake: to the due time, at most the poll interval and a day. -/
def wakeDelay (poll : Option Duration) (wall due : Instant) : Nat :=
  let atMost := poll.elim dayNanos fun p => min p.nanos dayNanos
  min (due.nanosSince wall).toNat atMost

theorem wakeTime_some (poll : Option Duration) (clock : Clock) (due : Instant) :
    wakeTime poll clock (some due) = some (clock.time + wakeDelay poll clock.wall due) := by
  cases poll with
  | none => simp [wakeTime, wakeDelay, nanos_delayFrom]
  | some p =>
    simp only [wakeTime, wakeDelay, Option.map_some, nanos_delayFrom, Option.elim_some]
    rw [Duration.nanos_min, nanos_maxWakeDelay]
    congr 1
    omega

theorem wakeTime_eq_none {poll : Option Duration} {clock : Clock} {due : Option Instant} :
    wakeTime poll clock due = none ↔ poll = none ∧ due = none := by
  cases poll <;> cases due <;> simp [wakeTime]

/-- No wake is more than a day away. -/
theorem wakeTime_le {poll : Option Duration} {clock : Clock} {due : Option Instant} {t : Nat}
    (h : wakeTime poll clock due = some t) : t ≤ clock.time + dayNanos := by
  have hcap (d : Duration) : clock.time + (min d maxWakeDelay).nanos ≤ clock.time + dayNanos := by
    rw [Duration.nanos_min, nanos_maxWakeDelay]
    exact Nat.add_le_add_left (Nat.min_le_right ..) _
  cases poll with
  | some p =>
    cases due with
    | some d => cases h; exact Nat.le_trans (Nat.min_le_right ..) (hcap p)
    | none => cases h; exact hcap p
  | none =>
    cases due with
    | some d => cases h; exact hcap (d.delayFrom clock.wall)
    | none => cases h

/-! ## The loop -/

/-- The dispatcher and what it reacts to. -/
structure Loop where
  dispatcher : Dispatcher := {}
  clock : Clock
  /-- the slots whose actors are stopped -/
  stopped : Nat → Bool := fun _ => false
  /-- the slots of submitted cycles whose end was not handled -/
  inFlight : List Nat := []
  /-- the commands that were handled, last first -/
  handled : List Command := []

/-- What happens to the loop. -/
inductive Input where
  /-- the clock shows another time -/
  | clock (clock : Clock)
  /-- an actor is stopped -/
  | stop (slot : Nat)
  /-- a command is handled -/
  | command (cmd : Command)
  /-- the wake timer fires -/
  | timer
  /-- the next due slot is offered to the pool, which answers -/
  | offer (answer : Option SubmitError)

namespace Loop

variable (c : DispatchConfig) (partition : Nat → String)

/-- The loop after an input. -/
def next (l : Loop) : Input → Loop
  | .clock clock => { l with clock := clock }
  | .stop slot => { l with stopped := fun i => i == slot || l.stopped i }
  | .command cmd =>
    { l with
      dispatcher := l.dispatcher.handle c l.clock partition l.stopped cmd
      inFlight := match cmd with
        | .finished slot _ => l.inFlight.erase slot
        | _ => l.inFlight
      handled := cmd :: l.handled }
  | .timer => { l with dispatcher := l.dispatcher.beginDispatch l.clock }
  | .offer answer =>
    let (submitted, d) := l.dispatcher.offer c l.clock partition l.stopped answer
    { l with dispatcher := d, inFlight := submitted.toList ++ l.inFlight }

/-- A partition of this slot was registered. -/
def Registered (l : Loop) (slot : Nat) : Prop := ∃ due, Command.register slot due ∈ l.handled

/-- A slot is registered once; a cycle ends after its submission, and it reports
    that it was stopped only if its actor is. -/
def Expects (l : Loop) : Command → Prop
  | .register slot _ => ¬ l.Registered slot
  | .wake _ => True
  | .finished slot result =>
    slot ∈ l.inFlight ∧ ∀ r, result = .ok r → r.stopped = true → l.stopped slot = true

/-- Commands and the timer wait for the end of a dispatching; the pool is open. -/
def Allows (l : Loop) : Input → Prop
  | .clock _ | .stop _ => True
  | .command cmd => l.dispatcher.dispatching = none ∧ l.Expects cmd
  | .timer => l.dispatcher.dispatching = none
  | .offer answer => answer ≠ some .closed

/-- The states that a loop comes to. -/
inductive Reachable : Loop → Prop
  | init (clock : Clock) (stopped : Nat → Bool) :
    Reachable { clock := clock, stopped := stopped }
  | next {l : Loop} (x : Input) : Reachable l → l.Allows x → Reachable (l.next c partition x)

/-- Nothing asks for a slot: its last registration or report had no due time,
    and no wake came after it. -/
def quiet (slot : Nat) : List Command → Bool
  | [] => false
  | .register i due :: cs => if i = slot then due.isNone else quiet slot cs
  | .wake i :: cs => if i = slot then false else quiet slot cs
  | .finished i (.ok r) :: cs => if i = slot then r.nextDue.isNone else quiet slot cs
  | .finished _ (.error _) :: cs => quiet slot cs

theorem quiet_cons_of_ne {slot : Nat} {cmd : Command} {cs : List Command} (h : slot ≠ cmd.slot) :
    quiet slot (cmd :: cs) = quiet slot cs := by
  cases cmd with
  | register i due => simp [quiet, Ne.symm (show slot ≠ i from h)]
  | wake i => simp [quiet, Ne.symm (show slot ≠ i from h)]
  | finished i r => cases r <;> simp [quiet, Ne.symm (show slot ≠ i from h)]

/-! ## The invariant -/

/-- A slot that nothing will wake is one that nothing asks for. -/
def Asleep (l : Loop) (slot : Nat) : Prop :=
  l.stopped slot = false → ∀ s, l.dispatcher.slot? slot = some s → s.running = false →
    l.dispatcher.time? slot = none → c.pollInterval = none ∧ quiet slot l.handled = true

/-- What every input preserves, at one slot. -/
structure InvAt (l : Loop) (slot : Nat) : Prop where
  /-- `running` goes with the cycles in flight -/
  fits : Dispatcher.Fits (l.dispatcher.slot? slot) (l.dispatcher.time? slot) (l.inFlight.count slot)
  /-- the dispatcher knows the registered slots -/
  known : (l.dispatcher.slot? slot).isSome = true ↔ l.Registered slot
  asleep : Asleep c l slot

variable {c partition}
variable {l : Loop} {slot : Nat}

theorem invAt_init (clock : Clock) (stopped : Nat → Bool) :
    InvAt c { clock := clock, stopped := stopped } slot where
  fits := ⟨rfl, rfl⟩
  known := by simp [Registered, Dispatcher.slot?]
  asleep _ s h := by simp [Dispatcher.slot?] at h

theorem count_submitted (o : Option Nat) (ns : List Nat) (i : Nat) :
    (o.toList ++ ns).count i = ns.count i + (o == some i).toNat := by
  cases o with
  | none => simp
  | some n =>
    by_cases h : n = i
    · simp [h]
    · simp [h]

theorem InvAt.offer (h : InvAt c l slot) {answer : Option SubmitError}
    (ha : answer ≠ some .closed) : InvAt c (l.next c partition (.offer answer)) slot := by
  have hturn := Dispatcher.offer_at c l.clock partition l.stopped answer l.dispatcher slot
  constructor
  case fits => simpa only [next, count_submitted] using hturn.fits h.fits
  case known => simp only [next, hturn.isSome_eq]; exact h.known
  case asleep =>
    intro hstop s hs hr ht
    replace hstop : l.stopped slot = false := hstop
    simp only [next] at hs ht
    rw [hstop, hs, ht] at hturn
    obtain ⟨hs, ht⟩ := hturn.idle ha hr
    exact h.asleep hstop s hs hr ht

/-! ## Commands -/

theorem registered_cons {cmd : Command} :
    (l.next c partition (.command cmd)).Registered slot ↔
      l.Registered slot ∨ cmd.isRegister slot = true := by
  have hcmd : (∃ due, cmd = .register slot due) ↔ cmd.isRegister slot = true := by
    cases cmd <;> simp [Command.isRegister]
  rw [← hcmd]
  simp only [Registered, next, List.mem_cons, exists_or, eq_comm, or_comm]

theorem count_inFlight {cmd : Command} (hexp : l.Expects cmd) :
    l.inFlight.count slot =
      (l.next c partition (.command cmd)).inFlight.count slot + (cmd.isFinished slot).toNat := by
  cases cmd with
  | register i due => rfl
  | wake i => rfl
  | finished i r =>
    obtain ⟨hin, -⟩ := hexp
    by_cases hi : i = slot
    · subst hi
      have := List.count_pos_iff.2 hin
      simp only [next, List.count_erase_self, Command.isFinished, beq_self_eq_true, Bool.toNat_true]
      omega
    · have hb : (i == slot) = false := by simp [hi]
      simp [next, List.count_erase_of_ne (Ne.symm hi), Command.isFinished, hb]

theorem InvAt.unknown (h : InvAt c l slot) (hnew : ¬ l.Registered slot) :
    l.dispatcher.slot? slot = none ∧ l.dispatcher.time? slot = none := by
  have hslot : l.dispatcher.slot? slot = none := by
    rw [← h.known] at hnew; simpa using hnew
  have hfits := h.fits
  rw [hslot] at hfits
  exact ⟨hslot, hfits.2⟩

theorem InvAt.asleep_register (h : InvAt c l slot) {due : Option Instant}
    (hnew : ¬ l.Registered slot) :
    Asleep c (l.next c partition (.command (.register slot due))) slot := by
  intro _ s _ _ ht
  have : wakeTime c.pollInterval l.clock due = none := by
    rw [← ht]
    simp [next, Dispatcher.handle, Dispatcher.register, Dispatcher.time?_scheduleIf_self,
      (h.unknown hnew).2]
  obtain ⟨hpoll, rfl⟩ := wakeTime_eq_none.1 this
  exact ⟨hpoll, by simp [next, quiet]⟩

/-- A wake has a known slot run again, or schedules it. -/
theorem asleep_wake (slot : Nat) (l : Loop) :
    Asleep c (l.next c partition (.command (.wake slot))) slot := by
  intro hstop s hs hr ht
  replace hstop : l.stopped slot = false := hstop
  simp only [next, Dispatcher.handle, hstop, Bool.false_eq_true, if_false] at hs ht
  exfalso
  cases hold : l.dispatcher.slot? slot with
  | none => rw [Dispatcher.wake_of_none hold, hold] at hs; cases hs
  | some s₀ =>
    cases hr₀ : s₀.running with
    | true =>
      rw [Dispatcher.wake_of_running hold hr₀, Dispatcher.slot?_setSlot_self] at hs
      cases hs
      rw [show s₀.running = false from hr] at hr₀
      cases hr₀
    | false =>
      rw [Dispatcher.wake_of_not_running hold hr₀, Dispatcher.time?_scheduleAt_self] at ht
      cases ht

/-- A cycle in flight has a known slot, which is not scheduled. -/
theorem InvAt.inFlight (h : InvAt c l slot) (hin : slot ∈ l.inFlight) :
    ∃ s, l.dispatcher.slot? slot = some s ∧ l.dispatcher.time? slot = none := by
  have hpos := List.count_pos_iff.2 hin
  have hfits := h.fits
  cases hs : l.dispatcher.slot? slot with
  | none => rw [hs] at hfits; have := hfits.1; omega
  | some s =>
    rw [hs] at hfits
    refine ⟨s, rfl, hfits.2 ?_⟩
    have := hfits.1
    cases hr : s.running with
    | true => rfl
    | false => simp [hr] at this; omega

/-- A cycle of an actor that is not stopped does not report that it was. -/
theorem report_stopped {report : Report} (hexp : l.Expects (.finished slot (.ok report)))
    (hstop : l.stopped slot = false) : report.stopped = false := by
  cases hb : report.stopped with
  | false => rfl
  | true => rw [hexp.2 report rfl hb] at hstop; cases hstop

/-- The end of a cycle schedules its slot unless the report asks for nothing. -/
theorem InvAt.asleep_finished (h : InvAt c l slot) {r : CycleResult}
    (hexp : l.Expects (.finished slot r)) :
    Asleep c (l.next c partition (.command (.finished slot r))) slot := by
  obtain ⟨s₀, hold, htime⟩ := h.inFlight hexp.1
  intro hstop s _ _ ht
  replace hstop : l.stopped slot = false := hstop
  simp only [next, Dispatcher.handle] at ht
  rw [Dispatcher.time?_finished hold htime, hstop, if_neg Bool.false_ne_true] at ht
  cases r with
  | error e => cases ht
  | ok report =>
    have hrep := report_stopped hexp hstop
    cases hre : s₀.rerun with
    | true => simp [Dispatcher.timeAfter, hrep, hre] at ht
    | false =>
      simp only [Dispatcher.timeAfter, hrep, hre, Bool.false_eq_true, if_false] at ht
      obtain ⟨hpoll, hdue⟩ := wakeTime_eq_none.1 ht
      exact ⟨hpoll, by simp [next, quiet, hdue]⟩

theorem InvAt.asleep_command (h : InvAt c l slot) {cmd : Command} (hexp : l.Expects cmd) :
    Asleep c (l.next c partition (.command cmd)) slot := by
  by_cases hne : slot = cmd.slot
  · subst hne
    cases cmd with
    | register i due => exact h.asleep_register hexp
    | wake i => exact asleep_wake i l
    | finished i r => exact h.asleep_finished hexp
  · -- the command is about another slot
    obtain ⟨hs, ht⟩ := Dispatcher.handle_of_ne c l.clock partition l.stopped l.dispatcher hne
    simp only [Asleep, next, hs, ht, quiet_cons_of_ne hne]
    exact h.asleep

theorem InvAt.command (h : InvAt c l slot) {cmd : Command} (hexp : l.Expects cmd) :
    InvAt c (l.next c partition (.command cmd)) slot := by
  constructor
  case fits =>
    refine Dispatcher.handle_fits c l.clock partition l.stopped (fun hreg => ?_) ?_
    · cases cmd with
      | register i due =>
        obtain rfl : i = slot := by simpa [Command.isRegister] using hreg
        exact (h.unknown hexp).1
      | wake i => cases hreg
      | finished i r => cases hreg
    · rw [← count_inFlight hexp]; exact h.fits
  case known =>
    rw [registered_cons, ← h.known, ← Bool.or_eq_true, ← Dispatcher.isSome_handle]
    rfl
  case asleep => exact h.asleep_command hexp

theorem InvAt.next (h : InvAt c l slot) {x : Input} (hx : l.Allows x) :
    InvAt c (l.next c partition x) slot := by
  cases x with
  | clock clock => exact ⟨h.fits, h.known, h.asleep⟩
  | stop i =>
    refine ⟨h.fits, h.known, fun hstop => h.asleep ?_⟩
    simp only [Loop.next, Bool.or_eq_false_iff] at hstop
    exact hstop.2
  | command cmd => exact h.command hx.2
  | timer => exact ⟨h.fits, h.known, h.asleep⟩
  | offer answer => exact h.offer hx

theorem Reachable.invAt (h : Reachable c partition l) (slot : Nat) : InvAt c l slot := by
  induction h with
  | init clock stopped => exact invAt_init clock stopped
  | next x _ hx ih => exact ih.next hx

/-! ## No partition is forgotten -/

/-- Where a slot stands whose actor is not stopped: exactly one of three. -/
inductive Standing (c : DispatchConfig) (l : Loop) (slot : Nat) : Prop
  /-- a cycle is submitted or runs -/
  | running (s : SlotState) (h : l.dispatcher.slot? slot = some s) (hs : s.running = true)
    (ht : l.dispatcher.time? slot = none)
  /-- it is in the wake queue -/
  | scheduled (s : SlotState) (h : l.dispatcher.slot? slot = some s) (hs : s.running = false)
    (ht : (l.dispatcher.time? slot).isSome)
  /-- nothing asks for it, and there is no poll interval -/
  | idle (s : SlotState) (h : l.dispatcher.slot? slot = some s) (hs : s.running = false)
    (ht : l.dispatcher.time? slot = none) (hpoll : c.pollInterval = none)
    (hquiet : quiet slot l.handled = true)

theorem InvAt.standing (h : InvAt c l slot) (hreg : l.Registered slot)
    (hstop : l.stopped slot = false) : Standing c l slot := by
  obtain ⟨s, hs⟩ := Option.isSome_iff_exists.1 (h.known.2 hreg)
  have hfits := h.fits
  rw [hs] at hfits
  cases hr : s.running with
  | true => exact .running s hs hr (hfits.2 hr)
  | false =>
    cases ht : l.dispatcher.time? slot with
    | some t => exact .scheduled s hs hr (by simp [ht])
    | none =>
      obtain ⟨hpoll, hquiet⟩ := h.asleep hstop s hs hr ht
      exact .idle s hs hr ht hpoll hquiet

/-- A new partition with a due time is scheduled exactly by it. -/
theorem InvAt.time?_register (h : InvAt c l slot) (hnew : ¬ l.Registered slot) (due : Instant) :
    (l.next c partition (.command (.register slot (some due)))).dispatcher.time? slot =
      some (l.clock.time + wakeDelay c.pollInterval l.clock.wall due) := by
  simp only [Loop.next, Dispatcher.handle, Dispatcher.register, wakeTime_some]
  exact Dispatcher.time?_scheduleIf_self (h.unknown hnew).2

/-- A report with a due time, and no wake meanwhile, schedules the slot exactly
    by it. -/
theorem InvAt.time?_report (h : InvAt c l slot) {s : SlotState} {report : Report} {due : Instant}
    (hexp : l.Expects (.finished slot (.ok report))) (hstop : l.stopped slot = false)
    (hs : l.dispatcher.slot? slot = some s) (hrerun : s.rerun = false)
    (hdue : report.nextDue = some due) :
    (l.next c partition (.command (.finished slot (.ok report)))).dispatcher.time? slot =
      some (l.clock.time + wakeDelay c.pollInterval l.clock.wall due) := by
  obtain ⟨s₀, hs₀, htime⟩ := h.inFlight hexp.1
  obtain rfl : s = s₀ := Option.some.inj (hs.symm.trans hs₀)
  have hrep := report_stopped hexp hstop
  simp only [Loop.next, Dispatcher.handle]
  rw [Dispatcher.time?_finished hs htime, hstop]
  simp [Dispatcher.timeAfter, hrep, hrerun, hdue, wakeTime_some]

/-- **No partition is forgotten.**  In every state that the loop comes to with an
    open pool, a registered slot whose actor is not stopped runs, is scheduled,
    or is idle because nothing asks for it; and a registration or a report that
    names a due time schedules its slot exactly by that, the poll interval and
    the limit of a day. -/
theorem no_partition_is_forgotten (h : Reachable c partition l) (slot : Nat) :
    (l.Registered slot → l.stopped slot = false → Standing c l slot) ∧
    (∀ due, l.Allows (.command (.register slot (some due))) →
      (l.next c partition (.command (.register slot (some due)))).dispatcher.time? slot =
        some (l.clock.time + wakeDelay c.pollInterval l.clock.wall due)) ∧
    (∀ s report due, l.Allows (.command (.finished slot (.ok report))) →
      l.stopped slot = false → l.dispatcher.slot? slot = some s → s.rerun = false →
      report.nextDue = some due →
      (l.next c partition (.command (.finished slot (.ok report)))).dispatcher.time? slot =
        some (l.clock.time + wakeDelay c.pollInterval l.clock.wall due)) := by
  have hinv := h.invAt slot
  refine ⟨hinv.standing, ?registered, ?reported⟩
  case registered => exact fun due hallow => hinv.time?_register hallow.2 due
  case reported =>
    exact fun s report due hallow hstop hs hrerun hdue =>
      hinv.time?_report hallow.2 hstop hs hrerun hdue

/-- A dispatcher that does not poll. -/
def unpolled : DispatchConfig := ⟨none, .zero, .zero, .zero, .zero⟩

/-- A loop after some inputs, without names for its partitions. -/
def after (xs : List Input) : Loop :=
  xs.foldl (Loop.next unpolled fun _ => "") { clock := ⟨.epoch, 5⟩ }

/-- A partition is registered without a due time, woken, and submitted. -/
def submission : List Input :=
  [.command (.register 0 none), .command (.wake 0), .timer, .offer none, .offer none]

theorem reachable_submission : Reachable unpolled (fun _ => "") (after submission) := by
  have h₀ : Reachable unpolled (fun _ => "") (after []) := .init _ _
  have h₁ := h₀.next (.command (.register 0 none)) ⟨rfl, by simp [Expects, Registered, after]⟩
  have h₂ := h₁.next (.command (.wake 0)) ⟨rfl, trivial⟩
  have h₃ := h₂.next .timer rfl
  have h₄ := h₃.next (.offer none) nofun
  exact h₄.next (.offer none) nofun

/-- The cycle reports a due time a second away: the slot, which is running until
    then, is scheduled for it. -/
theorem no_partition_is_forgotten_after_report :
    Standing unpolled (after submission) 0 ∧
      ((after submission).next unpolled (fun _ => "") (.command (.finished 0 (.ok
        { nextDue := some (.ofMillis 1000) })))).dispatcher.time? 0 = some 1000000005 := by
  obtain ⟨hstanding, -, hreport⟩ := no_partition_is_forgotten reachable_submission 0
  refine ⟨hstanding ⟨none, by simp [after, submission, next]⟩ rfl, ?_⟩
  refine hreport { running := true } { nextDue := some (.ofMillis 1000) } (.ofMillis 1000)
    ⟨by decide +kernel, by decide +kernel, ?_⟩ rfl (by decide +kernel) rfl rfl
  rintro r ⟨⟩ hr
  cases hr

end Loop

end DueWork.Schedule

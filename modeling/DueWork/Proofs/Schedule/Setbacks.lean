/-
  What the dispatcher does about setbacks: cycles that the pool refuses, and
  cycles that fail.

  For either a slot has a count of how often it happened in a row, and the slot
  waits longer each time.  Whatever else the loop takes in between, for this slot
  or for others, leaves the counts alone.

  * `Turnout` is what an input means to a slot, and `Turnout.Effect` what it does
    to the two counts;
  * `Loop.hasEffect`: the loop keeps to this with every input;
  * `Loop.doubles_waits`: the waits in a row are those of the backoff.
-/
import DueWork.Proofs.Schedule.Loop
import DueWork.Proofs.Time.Backoff

namespace DueWork.Schedule

open Time

namespace Dispatcher

variable {c : DispatchConfig} {clock : Clock} {d : Dispatcher} {slot : Nat} {s : SlotState}
  {p : String}

/-- The delay after a refused submission. -/
def submitDelay (c : DispatchConfig) (s : SlotState) : Duration :=
  .cappedExponential c.submitBase c.submitMax s.submitAttempts

/-- The refused submissions of a slot in a row, and its failed cycles in a row. -/
def counts (d : Dispatcher) (slot : Nat) : Option (UInt32 × UInt32) :=
  (d.slot? slot).map fun s => (s.submitAttempts, s.storeFailures)

theorem counts_of_some (h : d.slot? slot = some s) :
    d.counts slot = some (s.submitAttempts, s.storeFailures) := by
  rw [counts, h, Option.map_some]

theorem counts_setSlot_self :
    (d.setSlot slot s).counts slot = some (s.submitAttempts, s.storeFailures) :=
  counts_of_some slot?_setSlot_self

theorem counts_congr {d' : Dispatcher} (h : d'.slot? slot = d.slot? slot) :
    d'.counts slot = d.counts slot :=
  congrArg (Option.map _) h

/-! ## Commands -/

theorem counts_wake : (d.wake clock slot).counts slot = d.counts slot := by
  cases hs : d.slot? slot with
  | none => rw [wake_of_none hs]
  | some s =>
    cases hr : s.running with
    | true => rw [wake_of_running hs hr, counts_setSlot_self, counts_of_some hs]
    | false => rw [wake_of_not_running hs hr, counts_congr slot?_scheduleAt]

theorem counts_finished_stopped {r : CycleResult} :
    (d.finished c clock p true slot r).1.counts slot = d.counts slot := by
  cases hs : d.slot? slot with
  | none => rw [finished_of_none hs]
  | some s => simp [finished, hs, counts_setSlot_self, counts_of_some hs]

theorem counts_finished_ok {report : Report} (h : d.slot? slot = some s) :
    (d.finished c clock p false slot (.ok report)).1.counts slot = some (s.submitAttempts, 0) := by
  simp only [finished, h, Bool.false_eq_true, if_false]
  split
  · exact counts_setSlot_self
  · rw [counts_congr slot?_scheduleIf]
    exact counts_setSlot_self

theorem counts_finished_error {e : CycleError} (h : d.slot? slot = some s) :
    (d.finished c clock p false slot (.error e)).1.counts slot =
      some (s.submitAttempts, Duration.nextCount s.storeFailures) := by
  simp only [finished, h, Bool.false_eq_true, if_false]
  rw [counts_congr slot?_scheduleAt]
  exact counts_setSlot_self

/-! ## Dispatching -/

theorem wantsSubmit_eq_true {b : Bool} :
    d.wantsSubmit slot b = true ↔ ∃ s, d.slot? slot = some s ∧ b = false ∧ s.running = false := by
  cases hs : d.slot? slot with
  | none => simp [wantsSubmit, hs]
  | some s => simp [wantsSubmit, hs]

theorem counts_noteRerun {b : Bool} : (d.noteRerun slot b).counts slot = d.counts slot := by
  unfold noteRerun
  split
  next => rfl
  next s hs =>
    split
    · rw [counts_setSlot_self, counts_of_some hs]
    · rfl

theorem counts_submitted (h : d.slot? slot = some s) :
    (d.submitted slot).counts slot = some (0, s.storeFailures) := by
  simp only [submitted, h]
  exact counts_setSlot_self

theorem refused_closed : d.refused c clock p slot .closed = (d, []) := by
  cases hs : d.slot? slot <;> simp [refused, hs]

/-- A full pool is tried again after the delay that is announced. -/
theorem refused_saturated (h : d.slot? slot = some s) :
    d.refused c clock p slot .saturated =
      ((d.setSlot slot { s with submitAttempts := Duration.nextCount s.submitAttempts }).scheduleAt
          slot (clock.time + (submitDelay c s).nanos),
        [.poolSaturated p (s.submitAttempts + 1) (submitDelay c s)]) := by
  simp only [refused, h]
  rfl

end Dispatcher

/-- What an input means to a slot. -/
inductive Turnout where
  | registered
  /-- the pool accepted a cycle, -/
  | accepted
  /-- or was full -/
  | refused
  /-- a cycle is over, -/
  | drained
  /-- or failed -/
  | failed
  /-- nothing, or something that is not counted -/
  | aside
deriving DecidableEq, Repr

namespace Turnout

/-- The refused submissions count, with the time to wait after the input. -/
def refusal (wait : Nat) : Turnout → Mark
  | registered | accepted => .anew
  | refused => .failure wait
  | drained | failed | aside => .nothing

/-- The failed cycles count, with the time to wait after the input. -/
def failure (wait : Nat) : Turnout → Mark
  | registered | drained => .anew
  | failed => .failure wait
  | accepted | refused | aside => .nothing

/-- What becomes of the two counts of a slot, and how long it is put off. -/
inductive Effect (c : DispatchConfig) :
    Turnout → Nat → Option (UInt32 × UInt32) → Option (UInt32 × UInt32) → Prop
  | registered (w : Nat) (o : Option (UInt32 × UInt32)) : Effect c registered w o (some (0, 0))
  | accepted (w : Nat) (m n : UInt32) : Effect c accepted w (some (m, n)) (some (0, n))
  | refused (m n : UInt32) :
    Effect c refused (Duration.cappedExponential c.submitBase c.submitMax m).nanos
      (some (m, n)) (some (Duration.nextCount m, n))
  | drained (w : Nat) (m n : UInt32) : Effect c drained w (some (m, n)) (some (m, 0))
  | failed (m n : UInt32) :
    Effect c failed (Duration.cappedExponential c.storeBase c.storeMax n).nanos
      (some (m, n)) (some (m, Duration.nextCount n))
  | aside (w : Nat) (o : Option (UInt32 × UInt32)) : Effect c aside w o o

namespace Effect

variable {c : DispatchConfig} {t : Turnout} {w : Nat} {o o' : Option (UInt32 × UInt32)}

theorem refusal (h : Effect c t w o o') :
    Counted c.submitBase c.submitMax (o.map (·.1)) (t.refusal w) (o'.map (·.1)) := by
  cases h with
  | registered | accepted => exact .anew _
  | refused => exact .failure _
  | drained | failed | aside => exact .kept _

theorem failure (h : Effect c t w o o') :
    Counted c.storeBase c.storeMax (o.map (·.2)) (t.failure w) (o'.map (·.2)) := by
  cases h with
  | registered | drained => exact .anew _
  | failed => exact .failure _
  | accepted | refused | aside => exact .kept _

end Effect

end Turnout

namespace Loop

variable (c : DispatchConfig) (partition : Nat → String)

/-- How long it is until a slot is looked at. -/
def waitOf (l : Loop) (slot : Nat) : Nat := (l.dispatcher.time? slot).elim 0 (· - l.clock.time)

/-- The next turn of the dispatching is to submit a cycle of this slot. -/
def submits (l : Loop) (slot : Nat) : Bool :=
  match l.dispatcher.nextSlot with
  | (some i, d) => i == slot && d.wantsSubmit i (l.stopped i)
  | (none, _) => false

/-- What an input means to a slot: the cycles of a stopped actor do not count. -/
def turnout (l : Loop) (slot : Nat) : Input → Turnout
  | .command (.register i _) => if i = slot then .registered else .aside
  | .command (.finished i (.ok _)) => if i = slot ∧ l.stopped slot = false then .drained else .aside
  | .command (.finished i (.error _)) =>
    if i = slot ∧ l.stopped slot = false then .failed else .aside
  | .offer none => if l.submits slot then .accepted else .aside
  | .offer (some .saturated) => if l.submits slot then .refused else .aside
  | .command (.wake _) | .offer (some .closed) | .clock _ | .stop _ | .timer => .aside

/-- The inputs may follow one on another. -/
def Permits (l : Loop) : List Input → Prop
  | [] => True
  | x :: xs => l.Allows x ∧ (l.next c partition x).Permits xs

/-- The waits in a row with which some inputs leave a slot, in one of its counts. -/
def waits (mark : Nat → Turnout → Mark) (slot : Nat) (l : Loop) (ws : List Nat) :
    List Input → List Nat
  | [] => ws
  | x :: xs =>
    let l' := l.next c partition x
    l'.waits mark slot ((mark (l'.waitOf slot) (l.turnout slot x)).note ws) xs

variable {c partition}
variable {l : Loop} {slot : Nat} {x : Input}

/-! ## One input -/

/-- What an input does to the counts of a slot, and how long it puts the slot off. -/
def HasEffect (c : DispatchConfig) (partition : Nat → String) (l : Loop) (slot : Nat)
    (x : Input) : Prop :=
  Turnout.Effect c (l.turnout slot x) ((l.next c partition x).waitOf slot)
    (l.dispatcher.counts slot) ((l.next c partition x).dispatcher.counts slot)

theorem hasEffect_aside (ht : l.turnout slot x = .aside)
    (hcounts : (l.next c partition x).dispatcher.counts slot = l.dispatcher.counts slot) :
    l.HasEffect c partition slot x := by
  rw [HasEffect, ht, hcounts]
  exact .aside _ _

/-- A slot that is put off waits until then. -/
theorem waitOf_eq {t delay : Nat} (hclock : l.clock.time = t)
    (htime : l.dispatcher.time? slot = some (t + delay)) : l.waitOf slot = delay := by
  rw [waitOf, htime, hclock]
  exact Nat.add_sub_cancel_left ..

/-- A command about another slot is nothing to a slot. -/
theorem hasEffect_of_ne {cmd : Command} (h : slot ≠ cmd.slot) :
    l.HasEffect c partition slot (.command cmd) := by
  refine hasEffect_aside ?_ (Dispatcher.counts_congr
    (Dispatcher.handle_of_ne c l.clock partition l.stopped l.dispatcher h).1)
  cases cmd with
  | register i due => exact if_neg (Ne.symm h)
  | wake i => rfl
  | finished i r => cases r <;> exact if_neg fun hi => h hi.1.symm

theorem hasEffect_register (slot : Nat) (due : Option Instant) :
    l.HasEffect c partition slot (.command (.register slot due)) := by
  have hcounts : (l.next c partition (.command (.register slot due))).dispatcher.counts slot =
      some (0, 0) := by
    simp only [next, Dispatcher.handle, Dispatcher.register]
    rw [Dispatcher.counts_congr Dispatcher.slot?_scheduleIf]
    exact Dispatcher.counts_setSlot_self
  rw [HasEffect, hcounts, turnout, if_pos rfl]
  exact .registered _ _

theorem hasEffect_wake (slot : Nat) : l.HasEffect c partition slot (.command (.wake slot)) := by
  refine hasEffect_aside rfl ?_
  simp only [next, Dispatcher.handle]
  split
  · rfl
  · exact Dispatcher.counts_wake

/-- The end of a cycle in flight. -/
theorem hasEffect_finished (h : InvAt c l slot) (hin : slot ∈ l.inFlight) (r : CycleResult) :
    l.HasEffect c partition slot (.command (.finished slot r)) := by
  obtain ⟨s, hs, htime⟩ := h.inFlight hin
  cases hstop : l.stopped slot with
  | true =>
    refine hasEffect_aside ?_ ?_
    · cases r <;> exact if_neg fun hi => by rw [hstop] at hi; cases hi.2
    · simp only [next, Dispatcher.handle, hstop]
      exact Dispatcher.counts_finished_stopped
  | false =>
    rw [HasEffect, Dispatcher.counts_of_some hs]
    cases r with
    | ok report =>
      have hcounts : (l.next c partition (.command (.finished slot (.ok report)))).dispatcher.counts
          slot = some (s.submitAttempts, 0) := by
        simp only [next, Dispatcher.handle, hstop]
        exact Dispatcher.counts_finished_ok hs
      rw [hcounts, turnout, if_pos ⟨rfl, hstop⟩]
      exact .drained _ _ _
    | error e =>
      have hcounts : (l.next c partition (.command (.finished slot (.error e)))).dispatcher.counts
          slot = some (s.submitAttempts, Duration.nextCount s.storeFailures) := by
        simp only [next, Dispatcher.handle, hstop]
        exact Dispatcher.counts_finished_error hs
      have hwait : (l.next c partition (.command (.finished slot (.error e)))).waitOf slot =
          (Dispatcher.storeDelay c s).nanos := by
        refine waitOf_eq rfl ?_
        simp only [next, Dispatcher.handle, hstop]
        rw [Dispatcher.time?_finished hs htime]
        rfl
      rw [hcounts, hwait, turnout, if_pos ⟨rfl, hstop⟩]
      exact .failed _ _

/-- A turn of the dispatching that does not submit the slot is nothing to it. -/
theorem hasEffect_of_not_submits (h : l.submits slot = false) (answer : Option SubmitError) :
    l.HasEffect c partition slot (.offer answer) := by
  have hslot : (l.next c partition (.offer answer)).dispatcher.counts slot =
      l.dispatcher.counts slot := by
    simp only [next]
    cases hnext : l.dispatcher.nextSlot with
    | mk taken d =>
      cases taken with
      | none =>
        obtain ⟨hslots, -⟩ := Dispatcher.nextSlot_none hnext
        refine Dispatcher.counts_congr ?_
        simp only [Dispatcher.offer, hnext, Dispatcher.slot?, hslots]
      | some i =>
        by_cases hi : slot = i
        · subst hi
          obtain ⟨hslots, -⟩ := Dispatcher.nextSlot_some hnext
          have hwants : d.wantsSubmit slot (l.stopped slot) = false := by
            simpa [submits, hnext] using h
          simp only [Dispatcher.offer, hnext, hwants, Bool.false_eq_true, if_false]
          rw [Dispatcher.counts_noteRerun]
          refine Dispatcher.counts_congr ?_
          rw [Dispatcher.slot?, Dispatcher.slot?, hslots]
        · exact Dispatcher.counts_congr (Dispatcher.offer_of_ne _ _ _ _ _ hnext hi).2.1
  refine hasEffect_aside ?_ hslot
  have hnot : ¬ l.submits slot = true := by
    rw [h]
    exact Bool.false_ne_true
  cases answer with
  | none => exact if_neg hnot
  | some e =>
    cases e with
    | saturated => exact if_neg hnot
    | closed => rfl

/-- A turn that submits the slot takes it off the queue first. -/
theorem taken_of_submits (h : l.submits slot = true) :
    ∃ d s, l.dispatcher.nextSlot = (some slot, d) ∧ d.wantsSubmit slot (l.stopped slot) = true ∧
      d.slot? slot = some s ∧ d.time? slot = none ∧
      l.dispatcher.counts slot = some (s.submitAttempts, s.storeFailures) := by
  cases hnext : l.dispatcher.nextSlot with
  | mk taken d =>
    cases taken with
    | none => simp [submits, hnext] at h
    | some i =>
      simp only [submits, hnext, Bool.and_eq_true, beq_iff_eq] at h
      obtain ⟨rfl, hwants⟩ := h
      obtain ⟨s, hs, -⟩ := Dispatcher.wantsSubmit_eq_true.1 hwants
      obtain ⟨hslots, -, htime, -⟩ := Dispatcher.nextSlot_some hnext
      have hslot : l.dispatcher.slot? i = d.slot? i := by
        rw [Dispatcher.slot?, Dispatcher.slot?, hslots]
      exact ⟨d, s, rfl, hwants, hs, htime, Dispatcher.counts_of_some (hslot.trans hs)⟩

/-- A pool that accepts the cycle ends the run of refusals. -/
theorem hasEffect_accepted (h : l.submits slot = true) :
    l.HasEffect c partition slot (.offer none) := by
  obtain ⟨d, s, hnext, hwants, hs, -, hcounts⟩ := taken_of_submits h
  have hcounts' : (l.next c partition (.offer none)).dispatcher.counts slot =
      some (0, s.storeFailures) := by
    simp only [next, Dispatcher.offer, hnext, hwants, if_true]
    exact Dispatcher.counts_submitted hs
  rw [HasEffect, hcounts, hcounts', turnout, if_pos h]
  exact .accepted _ _ _

/-- A full pool adds to it. -/
theorem hasEffect_saturated (h : l.submits slot = true) :
    l.HasEffect c partition slot (.offer (some .saturated)) := by
  obtain ⟨d, s, hnext, hwants, hs, htime, hcounts⟩ := taken_of_submits h
  have hrefused : (l.next c partition (.offer (some .saturated))).dispatcher =
      (d.setSlot slot { s with submitAttempts := Duration.nextCount s.submitAttempts }).scheduleAt
        slot (l.clock.time + (Dispatcher.submitDelay c s).nanos) := by
    simp only [next, Dispatcher.offer, hnext, hwants, if_true, Dispatcher.refused_saturated hs]
  have hcounts' : (l.next c partition (.offer (some .saturated))).dispatcher.counts slot =
      some (Duration.nextCount s.submitAttempts, s.storeFailures) := by
    rw [hrefused, Dispatcher.counts_congr Dispatcher.slot?_scheduleAt]
    exact Dispatcher.counts_setSlot_self
  have hwait : (l.next c partition (.offer (some .saturated))).waitOf slot =
      (Dispatcher.submitDelay c s).nanos := by
    refine waitOf_eq rfl ?_
    rw [hrefused, Dispatcher.time?_scheduleAt_self, Dispatcher.time?_setSlot, htime]
    rfl
  rw [HasEffect, hcounts, hcounts', hwait, turnout, if_pos h]
  exact .refused _ _

/-- A pool that is closed is not asked again. -/
theorem hasEffect_closed (h : l.submits slot = true) :
    l.HasEffect c partition slot (.offer (some .closed)) := by
  obtain ⟨d, s, hnext, hwants, hs, -, hcounts⟩ := taken_of_submits h
  refine hasEffect_aside rfl ?_
  rw [hcounts]
  simp only [next, Dispatcher.offer, hnext, hwants, if_true, Dispatcher.refused_closed]
  exact Dispatcher.counts_of_some hs

/-- Every input that the loop takes. -/
theorem hasEffect (hl : Reachable c partition l) (hx : l.Allows x) (slot : Nat) :
    l.HasEffect c partition slot x := by
  cases x with
  | clock clock => exact hasEffect_aside rfl rfl
  | stop i => exact hasEffect_aside rfl rfl
  | timer => exact hasEffect_aside rfl rfl
  | command cmd =>
    by_cases hslot : slot = cmd.slot
    · subst hslot
      cases cmd with
      | register i due => exact hasEffect_register i due
      | wake i => exact hasEffect_wake i
      | finished i r => exact hasEffect_finished (hl.invAt i) hx.2.1 r
    · exact hasEffect_of_ne hslot
  | offer answer =>
    cases hsub : l.submits slot with
    | true =>
      cases answer with
      | none => exact hasEffect_accepted hsub
      | some e =>
        cases e with
        | saturated => exact hasEffect_saturated hsub
        | closed => exact hasEffect_closed hsub
    | false => exact hasEffect_of_not_submits hsub answer

/-! ## Runs -/

/-- Where a mark counts properly, the waits in a row are those of the backoff. -/
theorem doubles_waits {base max : Duration} {mark : Nat → Turnout → Mark}
    {count : UInt32 × UInt32 → UInt32} {ws : List Nat} {xs : List Input}
    (hcounted : ∀ {t w o o'}, Turnout.Effect c t w o o' →
      Counted base max (o.map count) (mark w t) (o'.map count))
    (hl : Reachable c partition l) (hp : l.Permits c partition xs)
    (hws : InStep base max ((l.dispatcher.counts slot).map count) ws) :
    Doubles base max (l.waits c partition mark slot ws xs) := by
  induction xs generalizing l ws with
  | nil => exact hws.doubles
  | cons x xs ih =>
    have heffect := hasEffect hl hp.1 slot
    exact ih (hl.next x hp.1) hp.2 ((hcounted heffect).inStep hws)

end Loop

end DueWork.Schedule

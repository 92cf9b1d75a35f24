/-
  One firing of the wake timer.

  When the timer fires, the clock is read once, and slots are taken until none
  is due by that reading.  A slot that the pool refuses is scheduled again while
  this goes on, so everything rests on the delay after which it is: `Firing`
  lets the rest of the system do what it likes between two turns, and the clock
  stand still.

  * `Turning.isDue_dispatchNext`: a turn takes one of the slots that are due, and
    adds none;
  * `takesOnce_of_backoff`: with a delay, a firing takes what is due once each
    and ends;
  * `Jammed`: without one, a full pool has it take the same slot for ever.
-/
import DueWork.Proofs.Manager.Step
import DueWork.Proofs.Schedule.Loop
import DueWork.Proofs.Schedule.WakeMap

namespace DueWork

open Time Signal Schedule

/-! ## Delays -/

theorem Time.Duration.nanos_cappedExponential_eq_zero (base max : Duration) (attempt : UInt32) :
    (cappedExponential base max attempt).nanos = 0 ↔ base.nanos = 0 ∨ max.nanos = 0 := by
  have hpow : 0 < Nat.pow 2 (min attempt.toNat maxDoublings) := Nat.pow_pos (by decide)
  rw [nanos_cappedExponential, Nat.min_eq_zero_iff, Nat.mul_eq_zero, or_iff_left hpow.ne']

/-- A refused submission is tried again after a delay. -/
def SchedulerConfig.HasSubmitDelay (c : SchedulerConfig) : Prop :=
  c.submitBackoffBase.nanos ≠ 0 ∧ c.submitBackoffMax.nanos ≠ 0

theorem SchedulerConfig.HasSubmitDelay.nanos_ne_zero {c : SchedulerConfig} (h : c.HasSubmitDelay)
    (attempt : UInt32) :
    (Duration.cappedExponential c.submitBackoffBase c.submitBackoffMax attempt).nanos ≠ 0 := by
  rw [Ne, Duration.nanos_cappedExponential_eq_zero]
  exact fun hzero => hzero.elim h.1 h.2

namespace Schedule

namespace WakeQueue

variable {q : WakeQueue} {slot now : Nat}

/-- What is taken is due. -/
theorem Indexed.popDue_some (hq : q.Indexed) (h : (q.popDue now).1 = some slot) :
    ∃ t ≤ now, q.time? slot = some t := by
  have hstep := (hq.step (.popDue now)).1
  rw [show (q.call (.popDue now)).1 = .slot (some slot) from congrArg WakeAnswer.slot h] at hstep
  generalize (q.call (.popDue now)).2.toMap = m at hstep
  cases hstep with
  | pop _ _ w hfirst hdue => exact ⟨w.time, hdue, by rw [time?_eq, hfirst.1]; rfl⟩

/-- Where nothing is taken, nothing is due. -/
theorem Indexed.popDue_none (hq : q.Indexed) (h : (q.popDue now).1 = none) (s t : Nat)
    (ht : q.time? s = some t) : now < t := by
  have hstep := (hq.step (.popDue now)).1
  rw [show (q.call (.popDue now)).1 = .slot none from congrArg WakeAnswer.slot h] at hstep
  generalize (q.call (.popDue now)).2.toMap = m at hstep
  cases hstep with
  | noPop _ hlate =>
    rw [time?_eq, Option.map_eq_some_iff] at ht
    obtain ⟨w, hw, rfl⟩ := ht
    exact hlate s w hw

end WakeQueue

namespace Dispatcher

variable {c : DispatchConfig} {clock : Clock} {partition : Nat → String} {stopped : Nat → Bool}
variable {answer : Option SubmitError} {d d' : Dispatcher} {slot t : Nat}

theorem queue_submitted : (d.submitted slot).queue = d.queue := by
  unfold submitted
  split <;> rfl

theorem queue_noteRerun {b : Bool} : (d.noteRerun slot b).queue = d.queue := by
  unfold noteRerun
  split
  · rfl
  · split <;> rfl

theorem indexed_refused (h : d.queue.Indexed) (p : String) (e : SubmitError) :
    (d.refused c clock p slot e).1.queue.Indexed := by
  unfold refused
  split
  · exact h
  · exact h
  · exact (h.step (.schedule slot _)).2

theorem indexed_nextSlot (h : d.queue.Indexed) : d.nextSlot.2.queue.Indexed := by
  unfold nextSlot
  split
  case h_1 => exact h
  case h_2 now _ =>
    have hpop := (h.step (.popDue now)).2
    split
    · rename_i hq
      rwa [WakeQueue.call, hq] at hpop
    · rename_i hq
      rwa [WakeQueue.call, hq] at hpop

theorem indexed_offer (h : d.queue.Indexed) :
    (d.offer c clock partition stopped answer).2.queue.Indexed := by
  have hnext := indexed_nextSlot h
  unfold offer
  split
  case h_1 hd =>
    rw [hd] at hnext
    exact hnext
  case h_2 hd =>
    rw [hd] at hnext
    split
    · split
      · rw [queue_submitted]
        exact hnext
      · exact indexed_refused hnext _ _
    · rw [queue_noteRerun]
      exact hnext

theorem nextSlot_due (hq : d.queue.Indexed) (ht : d.dispatching = some t)
    (h : d.nextSlot.1 = some slot) : ∃ u ≤ t, d.time? slot = some u := by
  refine hq.popDue_some ?_
  simp only [nextSlot, ht] at h
  split at h
  · rename_i hpop
    rw [hpop]
    exact h
  · cases h

theorem nextSlot_late (hq : d.queue.Indexed) (ht : d.dispatching = some t)
    (h : d.nextSlot.1 = none) {i u : Nat} (hi : d.time? i = some u) : t < u := by
  refine hq.popDue_none ?_ i u hi
  simp only [nextSlot, ht] at h
  split at h
  · cases h
  · rename_i hpop
    rw [hpop]

/-- A slot that was taken is not scheduled, or again after a delay. -/
theorem time?_offer (c : DispatchConfig) (clock : Clock) (partition : Nat → String)
    (stopped : Nat → Bool) (answer : Option SubmitError) (h : d.nextSlot = (some slot, d')) :
    (d.offer c clock partition stopped answer).2.time? slot = none ∨
    ∃ attempt, (d.offer c clock partition stopped answer).2.time? slot = some
      (clock.time + (Duration.cappedExponential c.submitBase c.submitMax attempt).nanos) := by
  obtain ⟨-, -, htime, -⟩ := nextSlot_some h
  simp only [offer, h]
  split
  · split
    · left
      rw [time?, queue_submitted]
      exact htime
    · unfold refused
      split
      · exact .inl htime
      · exact .inl htime
      · right
        exact ⟨_, by rw [time?_scheduleAt_self, time?_setSlot, htime]; rfl⟩
  · left
    rw [time?, queue_noteRerun]
    exact htime

theorem dispatching_offer (c : DispatchConfig) (clock : Clock) (partition : Nat → String)
    (stopped : Nat → Bool) (answer : Option SubmitError) (d : Dispatcher) :
    (d.offer c clock partition stopped answer).2.dispatching = d.nextSlot.2.dispatching := by
  unfold offer
  split
  case h_1 hd => rw [hd]
  case h_2 hd =>
    rw [hd]
    split
    · split
      · unfold submitted
        split <;> rfl
      · unfold refused
        split <;> rfl
    · unfold noteRerun
      split
      · rfl
      · split <;> rfl

end Dispatcher

end Schedule

namespace System

variable {σ : Type} {s x : System σ} {turn : Nat → System σ} {c : SchedulerConfig}
variable {slot i t n : Nat}

/-- The slot that the next turn of a dispatching takes. -/
def taken? (s : System σ) : Option Nat := s.dispatcher.nextSlot.1

/-- What may happen between two turns of a dispatching: the dispatcher is busy,
    and the clock does not run backwards. -/
structure Meanwhile (s x : System σ) : Prop where
  dispatcher : x.dispatcher = s.dispatcher
  config : x.config = s.config
  clock : s.clock.time ≤ x.clock.time

theorem Meanwhile.refl (s : System σ) : s.Meanwhile s := ⟨rfl, rfl, Nat.le_refl _⟩

/-- The wake timer fires, and one turn follows the other; the system at each
    turn. -/
structure Firing (s : System σ) (turn : Nat → System σ) : Prop where
  first : s.beginDispatch.Meanwhile (turn 0)
  next : ∀ n, (turn n).dispatchNext.Meanwhile (turn (n + 1))

/-- A firing takes every slot that is due, each of them once, and ends. -/
structure TakesOnce (s : System σ) (turn : Nat → System σ) : Prop where
  once : ∀ i n n', (turn n).taken? = some i → (turn n').taken? = some i → n = n'
  all : ∀ i u, s.dispatcher.time? i = some u → u ≤ s.clock.time → ∃ n, (turn n).taken? = some i
  ends : ∃ n ≤ s.dispatcher.queue.size, ∀ n', n ≤ n' → (turn n').taken? = none

/-! ## With a delay after a refusal -/

theorem dispatcher_dispatchNext (s : System σ) : s.dispatchNext.dispatcher = s.offered.2 := by
  obtain ⟨_, _, -, -, heq⟩ | ⟨_, _, -, -, heq⟩ := s.dispatch_cases <;> rw [heq]

theorem config_dispatchNext (s : System σ) : s.dispatchNext.config = s.config := by
  obtain ⟨_, _, -, -, heq⟩ | ⟨_, _, -, -, heq⟩ := s.dispatch_cases <;> rw [heq]

theorem clock_dispatchNext (s : System σ) : s.dispatchNext.clock = s.clock := by
  obtain ⟨_, _, -, -, heq⟩ | ⟨_, _, -, -, heq⟩ := s.dispatch_cases <;> rw [heq]

theorem nextSlot_of_taken (h : s.taken? = some slot) :
    s.dispatcher.nextSlot = (some slot, s.dispatcher.nextSlot.2) := by
  rw [← show s.dispatcher.nextSlot.1 = some slot from h]

/-- A turn that takes a slot is not the last one. -/
theorem dispatching_dispatchNext (h : s.taken? = some slot) :
    s.dispatchNext.dispatcher.dispatching = s.dispatcher.dispatching := by
  rw [dispatcher_dispatchNext, offered, Dispatcher.dispatching_offer,
    (Dispatcher.nextSlot_some (nextSlot_of_taken h)).2.1]

/-- Once nothing is taken, nothing is taken any more. -/
theorem dispatchNext_of_none (h : s.taken? = none) : s.dispatchNext.taken? = none ∧
    ∀ i, s.dispatchNext.dispatcher.time? i = s.dispatcher.time? i := by
  rw [taken?, dispatcher_dispatchNext, offered, Dispatcher.offer]
  cases hnext : s.dispatcher.nextSlot with
  | mk next d =>
    obtain rfl : next = none := by rw [taken?, hnext] at h; exact h
    obtain ⟨-, hover, htime⟩ := Dispatcher.nextSlot_none hnext
    exact ⟨by simp only [Dispatcher.nextSlot, hover], htime⟩

/-- The slot is due by a reading of the clock. -/
def IsDue (t : Nat) (s : System σ) (i : Nat) : Prop := ∃ u ≤ t, s.dispatcher.time? i = some u

/-- A system in the middle of a firing, for which the clock showed `t`. -/
structure Turning (c : SchedulerConfig) (t : Nat) (s : System σ) : Prop where
  config : s.config = c
  indexed : s.dispatcher.queue.Indexed
  clock : t ≤ s.clock.time
  dispatching : s.dispatcher.dispatching = some t ∨ s.taken? = none

namespace Turning

theorem begin (hq : s.dispatcher.queue.Indexed) :
    s.beginDispatch.Turning s.config s.clock.time :=
  ⟨rfl, hq, Nat.le_refl _, .inl rfl⟩

theorem meanwhile (h : s.Turning c t) (hx : s.Meanwhile x) : x.Turning c t where
  config := hx.config.trans h.config
  indexed := hx.dispatcher ▸ h.indexed
  clock := Nat.le_trans h.clock hx.clock
  dispatching := by
    rw [taken?, hx.dispatcher]
    exact h.dispatching

theorem busy (h : s.Turning c t) (htaken : s.taken? = some slot) :
    s.dispatcher.dispatching = some t :=
  h.dispatching.resolve_right (by rw [htaken]; exact Option.some_ne_none slot)

theorem dispatchNext (h : s.Turning c t) : s.dispatchNext.Turning c t where
  config := (config_dispatchNext s).trans h.config
  indexed := by
    rw [dispatcher_dispatchNext]
    exact Dispatcher.indexed_offer h.indexed
  clock := by
    rw [clock_dispatchNext]
    exact h.clock
  dispatching := by
    cases htaken : s.taken? with
    | none => exact .inr (dispatchNext_of_none htaken).1
    | some slot => exact .inl ((dispatching_dispatchNext htaken).trans (h.busy htaken))

/-- A slot that is taken was due. -/
theorem isDue_of_taken (h : s.Turning c t) (htaken : s.taken? = some slot) : s.IsDue t slot :=
  Dispatcher.nextSlot_due h.indexed (h.busy htaken) htaken

/-- With a delay it is not due after its turn, accepted or refused. -/
theorem not_isDue_of_taken (h : s.Turning c t) (hdelay : c.HasSubmitDelay)
    (htaken : s.taken? = some slot) : ¬s.dispatchNext.IsDue t slot := by
  rintro ⟨u, hu, htime⟩
  rw [dispatcher_dispatchNext, offered] at htime
  rcases Dispatcher.time?_offer s.dispatchConfig s.clock s.partitionName s.isStopped s.answer
    (nextSlot_of_taken htaken) with hnone | ⟨attempt, hlater⟩
  · rw [hnone] at htime
    cases htime
  · have hconfig : s.dispatchConfig = .ofScheduler c := congrArg _ h.config
    rw [hlater, Option.some.injEq, hconfig] at htime
    have hpos := hdelay.nanos_ne_zero attempt
    have hclock := h.clock
    simp only [DispatchConfig.ofScheduler] at htime
    omega

/-- After a turn the same slots are due, without the one that was taken. -/
theorem isDue_dispatchNext (h : s.Turning c t) (hdelay : c.HasSubmitDelay) (i : Nat) :
    s.dispatchNext.IsDue t i ↔ s.IsDue t i ∧ s.taken? ≠ some i := by
  cases htaken : s.taken? with
  | none =>
    rw [IsDue, (dispatchNext_of_none htaken).2 i]
    exact (and_iff_left (by simp)).symm
  | some slot =>
    by_cases hi : i = slot
    · subst hi
      exact iff_of_false (h.not_isDue_of_taken hdelay htaken) fun hne => hne.2 rfl
    · have hothers := (Dispatcher.offer_of_ne s.dispatchConfig s.clock s.partitionName s.isStopped
        s.answer (nextSlot_of_taken htaken) hi).2.2
      rw [IsDue, dispatcher_dispatchNext, offered, hothers]
      exact (and_iff_left fun he => hi (Option.some.inj he).symm).symm

end Turning

namespace Firing

theorem turning (h : s.Firing turn) (hq : s.dispatcher.queue.Indexed) (n : Nat) :
    (turn n).Turning s.config s.clock.time := by
  induction n with
  | zero => exact (Turning.begin hq).meanwhile h.first
  | succ n ih => exact ih.dispatchNext.meanwhile (h.next n)

theorem time?_zero (h : s.Firing turn) (i : Nat) :
    (turn 0).dispatcher.time? i = s.dispatcher.time? i := by
  rw [h.first.dispatcher]
  rfl

theorem taken_none (h : s.Firing turn) {n' : Nat} (hn : n ≤ n') (hnone : (turn n).taken? = none) :
    (turn n').taken? = none := by
  induction n', hn using Nat.le_induction with
  | base => exact hnone
  | succ n' _ ih =>
    rw [taken?, (h.next n').dispatcher]
    exact (dispatchNext_of_none ih).1

theorem isDue_succ (h : s.Firing turn) (hq : s.dispatcher.queue.Indexed)
    (hdelay : s.config.HasSubmitDelay) : (turn (n + 1)).IsDue s.clock.time i ↔
      (turn n).IsDue s.clock.time i ∧ (turn n).taken? ≠ some i := by
  rw [IsDue, (h.next n).dispatcher]
  exact (h.turning hq n).isDue_dispatchNext hdelay i

/-- Nothing becomes due. -/
theorem isDue_anti (h : s.Firing turn) (hq : s.dispatcher.queue.Indexed)
    (hdelay : s.config.HasSubmitDelay) {n' : Nat} (hn : n ≤ n')
    (hdue : (turn n').IsDue s.clock.time i) : (turn n).IsDue s.clock.time i := by
  induction n', hn using Nat.le_induction with
  | base => exact hdue
  | succ n' _ ih => exact ih ((h.isDue_succ hq hdelay).1 hdue).1

/-- While slots are taken the dispatcher is busy. -/
theorem dispatching (h : s.Firing turn) (hq : s.dispatcher.queue.Indexed)
    (hbefore : ∀ m < n, (turn m).taken? ≠ none) :
    (turn n).dispatcher.dispatching = some s.clock.time := by
  cases n with
  | zero =>
    rw [h.first.dispatcher]
    rfl
  | succ n =>
    obtain ⟨slot, htaken⟩ := Option.ne_none_iff_exists'.1 (hbefore n (Nat.lt_succ_self n))
    rw [(h.next n).dispatcher, dispatching_dispatchNext htaken]
    exact (h.turning hq n).busy htaken

/-- A slot that was taken is not taken again. -/
theorem not_taken_of_lt (h : s.Firing turn) (hq : s.dispatcher.queue.Indexed)
    (hdelay : s.config.HasSubmitDelay) {n' : Nat} (hn : n < n')
    (htaken : (turn n).taken? = some i) : (turn n').taken? ≠ some i := by
  intro hagain
  have hdue := h.isDue_anti hq hdelay hn ((h.turning hq n').isDue_of_taken hagain)
  exact ((h.isDue_succ hq hdelay).1 hdue).2 htaken

theorem once (h : s.Firing turn) (hq : s.dispatcher.queue.Indexed)
    (hdelay : s.config.HasSubmitDelay) {n n' : Nat} (hn : (turn n).taken? = some i)
    (hn' : (turn n').taken? = some i) : n = n' := by
  rcases Nat.lt_trichotomy n n' with hlt | heq | hlt
  · exact absurd hn' (h.not_taken_of_lt hq hdelay hlt hn)
  · exact heq
  · exact absurd hn (h.not_taken_of_lt hq hdelay hlt hn')

/-- There are no more turns that take a slot than there are scheduled slots. -/
theorem ends (h : s.Firing turn) (hq : s.dispatcher.queue.Indexed)
    (hdelay : s.config.HasSubmitDelay) :
    ∃ n ≤ s.dispatcher.queue.size, (turn n).taken? = none := by
  by_contra hnone
  push Not at hnone
  have htaken (n : Nat) (hn : n ∈ List.range (s.dispatcher.queue.size + 1)) :
      (turn n).taken? = some ((turn n).taken?.getD 0) := by
    obtain ⟨slot, hslot⟩ := Option.ne_none_iff_exists'.1
      (hnone n (Nat.lt_succ_iff.1 (List.mem_range.1 hn)))
    rw [hslot, Option.getD_some]
  have hnodup : ((List.range (s.dispatcher.queue.size + 1)).map
      fun n => (turn n).taken?.getD 0).Nodup := by
    refine List.nodup_range.map_on fun n hn n' hn' heq => ?_
    exact h.once hq hdelay (htaken n hn) (heq ▸ htaken n' hn')
  have hsub : (List.range (s.dispatcher.queue.size + 1)).map (fun n => (turn n).taken?.getD 0) ⊆
      s.dispatcher.queue.live.map (·.1) := by
    intro i hi
    obtain ⟨n, hn, rfl⟩ := List.mem_map.1 hi
    obtain ⟨u, -, hu⟩ := h.isDue_anti hq hdelay (Nat.zero_le n)
      ((h.turning hq n).isDue_of_taken (htaken n hn))
    rw [h.time?_zero] at hu
    obtain ⟨w, hw, -⟩ := Option.map_eq_some_iff.1 hu
    obtain ⟨l₁, l₂, heq, -⟩ := List.lookup_eq_some_iff.1 hw
    rw [heq, List.map_append, List.map_cons]
    exact List.mem_append_right _ List.mem_cons_self
  have hle := (hnodup.subperm hsub).length_le
  rw [List.length_map, List.length_map, List.length_range] at hle
  exact Nat.lt_irrefl _ hle

end Firing

theorem takesOnce_of_backoff (h : s.Firing turn) (hq : s.dispatcher.queue.Indexed)
    (hdelay : s.config.HasSubmitDelay) : s.TakesOnce turn where
  once _ _ _ := h.once hq hdelay
  all i u hi hu := by
    by_contra hnever
    push Not at hnever
    have hdue (n : Nat) : (turn n).IsDue s.clock.time i := by
      induction n with
      | zero => exact ⟨u, hu, (h.time?_zero i).trans hi⟩
      | succ n ih => exact (h.isDue_succ hq hdelay).2 ⟨ih, hnever n⟩
    -- at the first turn that takes nothing, nothing is due
    have hends : ∃ n, (turn n).taken? = none := (h.ends hq hdelay).imp fun _ => And.right
    classical
    obtain ⟨v, hv, htime⟩ := hdue (Nat.find hends)
    have hbusy := h.dispatching hq fun m hm => Nat.find_min hends hm
    have hindexed := (h.turning hq (Nat.find hends)).indexed
    have hlate := Dispatcher.nextSlot_late hindexed hbusy (Nat.find_spec hends) htime
    omega
  ends := by
    obtain ⟨n, hn, hnone⟩ := h.ends hq hdelay
    exact ⟨n, hn, fun n' hle => h.taken_none hle hnone⟩

/-! ## Without a delay -/

/-- One slot is due, the pool is full, and there is no delay after a refusal. -/
structure Jammed (s : System σ) : Prop where
  delay : ¬s.config.HasSubmitDelay
  dispatching : s.dispatcher.dispatching = some s.clock.time
  indexed : s.dispatcher.queue.Indexed
  known : ∃ st, s.dispatcher.slot? 0 = some st ∧ st.running = false
  due : s.dispatcher.time? 0 = some s.clock.time
  alone : ∀ i, i ≠ 0 → s.dispatcher.time? i = none
  stopped : s.isStopped 0 = false
  full : s.shared.pool.freeSlots = 0 ∧ s.shared.pool.closed = false

namespace Jammed

theorem taken (h : s.Jammed) : s.taken? = some 0 := by
  cases htaken : s.dispatcher.nextSlot.1 with
  | none =>
    have hlate := Dispatcher.nextSlot_late h.indexed h.dispatching htaken h.due
    exact absurd hlate (Nat.lt_irrefl _)
  | some slot =>
    obtain ⟨u, -, hu⟩ := Dispatcher.nextSlot_due h.indexed h.dispatching htaken
    by_cases hslot : slot = 0
    · rw [taken?, htaken, hslot]
    · rw [h.alone slot hslot] at hu
      cases hu

theorem answer_eq (h : s.Jammed) : s.answer = some .saturated := by
  simp [answer, WorkerPool.submit, WorkerPool.reap, h.full]

/-- The slot is refused, and due again at once. -/
theorem offered_eq (h : s.Jammed) : ∃ (d' : Dispatcher) (st : SlotState), st.running = false ∧
    d'.queue = s.dispatcher.nextSlot.2.queue ∧ d'.slot? 0 = some st ∧
    d'.dispatching = some s.clock.time ∧ s.offered = (none, d'.scheduleAt 0 s.clock.time) := by
  have hnext := nextSlot_of_taken h.taken
  obtain ⟨hslots, hbusy, -⟩ := Dispatcher.nextSlot_some hnext
  obtain ⟨st, hst, hrun⟩ := h.known
  have hknown : s.dispatcher.nextSlot.2.slot? 0 = some st := by
    rw [Dispatcher.slot?, hslots]
    exact hst
  have hwants : s.dispatcher.nextSlot.2.wantsSubmit 0 (s.isStopped 0) = true := by
    simp [Dispatcher.wantsSubmit, hknown, h.stopped, hrun]
  have hzero : (Duration.cappedExponential s.dispatchConfig.submitBase s.dispatchConfig.submitMax
      st.submitAttempts).nanos = 0 := by
    rw [Duration.nanos_cappedExponential_eq_zero]
    have := h.delay
    simp only [SchedulerConfig.HasSubmitDelay] at this
    simp only [dispatchConfig, DispatchConfig.ofScheduler]
    omega
  let st' : SlotState := { st with submitAttempts := Duration.nextCount st.submitAttempts }
  refine ⟨s.dispatcher.nextSlot.2.setSlot 0 st', st', hrun, rfl, Dispatcher.slot?_setSlot_self,
    hbusy.trans h.dispatching, ?_⟩
  rw [offered, Dispatcher.offer, hnext]
  simp only [hwants, if_true, h.answer_eq, Dispatcher.refused, hknown, hzero, Nat.add_zero]
  rfl

theorem dispatchNext (h : s.Jammed) : s.dispatchNext.Jammed := by
  obtain ⟨d', st, hrun, hqueue, hknown, hbusy, hoffered⟩ := h.offered_eq
  have hnext := nextSlot_of_taken h.taken
  obtain ⟨-, -, hself, hothers⟩ := Dispatcher.nextSlot_some hnext
  have htime (i : Nat) : d'.time? i = s.dispatcher.nextSlot.2.time? i := by
    rw [Dispatcher.time?, hqueue]
    rfl
  obtain ⟨_, _, hsubmitted, -⟩ | ⟨pool, events, -, hpool, heq⟩ := s.dispatch_cases
  · rw [hoffered] at hsubmitted
    cases hsubmitted
  rw [heq, hoffered]
  constructor
  case delay => exact h.delay
  case dispatching => exact hbusy
  case indexed =>
    have hindexed : d'.queue.Indexed := hqueue ▸ Dispatcher.indexed_nextSlot h.indexed
    exact (hindexed.step (.schedule 0 s.clock.time)).2
  case known => exact ⟨st, hknown, hrun⟩
  case due =>
    simp only [Dispatcher.time?_scheduleAt_self, htime, hself]
    rfl
  case alone =>
    intro i hi
    simp only [Dispatcher.time?_scheduleAt_of_ne hi, htime, hothers i hi]
    exact h.alone i hi
  case stopped => exact h.stopped
  case full =>
    rcases hpool with rfl | ⟨e, hsubmit⟩
    · exact h.full
    · obtain ⟨-, rfl⟩ := WorkerPool.submit_error hsubmit h.full.2
      exact h.full

end Jammed

/-- The turns of a firing while nothing else happens. -/
def spin (s : System σ) (n : Nat) : System σ := dispatchNext^[n] s.beginDispatch

theorem firing_spin (s : System σ) : s.Firing s.spin where
  first := .refl _
  next n := by
    rw [spin, spin, Function.iterate_succ_apply']
    exact .refl _

/-- A system whose only partition is due, and whose pool is full. -/
def crowded (c : SchedulerConfig) (store : σ) : System σ where
  config := c
  processors := .ofList []
  shared := { store := store, pool := (WorkerPool.ofConfig ⟨1, 0, c.maxInFlight⟩).submit.2 }
  clock := ⟨.epoch, 0⟩
  posts := [{ actor := { key := { name := "jobs" } } }]
  dispatcher := { queue := .after {} [.schedule 0 0], slots := [(0, {})] }

theorem jammed_crowded (hdelay : ¬c.HasSubmitDelay) (store : σ) :
    (crowded c store).beginDispatch.Jammed where
  delay := hdelay
  dispatching := rfl
  indexed := WakeQueue.indexed_empty.after _
  known := ⟨{}, rfl, rfl⟩
  due := rfl
  alone _ hi := WakeQueue.time?_schedule_of_ne hi
  stopped := rfl
  full := ⟨rfl, rfl⟩

/-- With a full pool and no delay after a refusal a firing takes one slot for
    ever. -/
theorem taken_spin_crowded (hdelay : ¬c.HasSubmitDelay) (store : σ) (n : Nat) :
    ((crowded c store).spin n).taken? = some 0 := by
  suffices h : ((crowded c store).spin n).Jammed from h.taken
  induction n with
  | zero => exact jammed_crowded hdelay store
  | succ n ih =>
    rw [spin, Function.iterate_succ_apply']
    exact ih.dispatchNext

/-- **A firing takes every slot once, if there is a delay after a refusal.**
    Whatever was called on the wake queue, whatever slots there are, however the
    pool answers and the clock stands still, each slot that is due is taken once
    and the firing ends; and this is so for no other configurations. -/
theorem takesOnce_iff [Inhabited σ] (c : SchedulerConfig) :
    (∀ (s : System σ) (turn : Nat → System σ) (cs : List WakeCall), s.config = c →
      s.dispatcher.queue = WakeQueue.after {} cs → s.Firing turn → s.TakesOnce turn) ↔
    c.submitBackoffBase.nanos ≠ 0 ∧ c.submitBackoffMax.nanos ≠ 0 := by
  constructor
  · intro h
    by_contra hdelay
    have honce := (h (crowded c default) _ [.schedule 0 0] rfl rfl (firing_spin _)).once 0 0 1
      (taken_spin_crowded hdelay default 0) (taken_spin_crowded hdelay default 1)
    exact absurd honce Nat.zero_ne_one
  · rintro hdelay s turn cs rfl hqueue hfiring
    exact takesOnce_of_backoff hfiring (hqueue ▸ WakeQueue.indexed_empty.after cs) hdelay

/-- No backoff at all is a configuration that is accepted. -/
def noSubmitDelay : SchedulerConfig :=
  { submitBackoffBase := .zero, poolSize := 1, queueCapacity := 0 }

/-- With it a firing takes the slot of a full pool again and again, and does not
    end. -/
theorem firing_spins :
    noSubmitDelay.validate = .ok () ∧
    ∃ (s : System MemoryStore) (turn : Nat → System MemoryStore), s.config = noSubmitDelay ∧
      s.dispatcher.queue = WakeQueue.after {} [.schedule 0 0] ∧ s.Firing turn ∧
      ∀ n, (turn n).taken? = some 0 := by
  refine ⟨by decide +kernel, crowded noSubmitDelay .empty, _, rfl, rfl, firing_spin _, fun n => ?_⟩
  exact taken_spin_crowded (fun h => h.1 rfl) _ n

end System

end DueWork

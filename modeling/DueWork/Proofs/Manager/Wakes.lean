/-
  Wakes are coalesced, and no signal is lost.

  * `Owed`: a signalled slot is still to be drained, and where it waits for
    that: in its flag, in the wake queue, in the running cycle, or in a cycle
    that has not begun;
  * `Owed.next`: until a cycle of the slot begins, it is only passed on;
  * `wakes_coalesce_without_loss`: what calls, however many, lead to.
-/
import DueWork.Proofs.Manager.Signals

namespace DueWork

open Time Signal Schedule

namespace System

variable {σ : Type} {s s' : System σ} {slot i : Nat}

/-- Wakes of a slot on their way to the dispatcher. -/
def queuedWakes (s : System σ) (slot : Nat) : Nat := s.commands.countP (·.isWake slot)

/-- A task whose cycle was submitted and has not begun. -/
structure Unbegun (slot : Nat) (t : CycleTask) : Prop where
  slot : t.slot = slot
  start : t.cycle.point = .start
  reported : t.reported = false

/-- A drain cycle of a slot is still to begin. -/
inductive Owed (s : System σ) (slot : Nat) : Prop
  /-- its flag is up, and the wake is queued or about to be sent -/
  | flagged (h : s.isPending slot = true) (hw : 0 < s.queuedWakes slot ∨ slot ∈ s.ringing)
  /-- it is in the wake queue -/
  | scheduled (h : (s.dispatcher.time? slot).isSome)
  /-- it is running and runs again -/
  | rerun (st : SlotState) (h : s.dispatcher.slot? slot = some st) (hr : st.running = true)
    (hrr : st.rerun = true)
  /-- a cycle was submitted and has not begun -/
  | submitted (t : CycleTask) (h : t ∈ s.tasks) (ht : Unbegun slot t)

/-- A raised flag stands for a wake on its way. -/
theorem owed_of_isPending (h : (s.ledger slot).Ok) (hp : s.isPending slot = true) :
    s.Owed slot := by
  refine .flagged hp ?_
  have hflag : s.queuedWakes slot + s.ringing.count slot = (s.isPending slot).toNat := h.flag
  rw [hp, Bool.toNat_true] at hflag
  by_cases hq : 0 < s.queuedWakes slot
  · exact .inl hq
  · exact .inr (List.count_pos_iff.1 (by omega))

/-! ## The dispatcher -/

/-- What is owed for a slot is not lost as long as its state, its wake time and
    its cycles are as they were. -/
theorem Owed.of_same (h : s.Owed slot) (hl : (s'.ledger slot).Ok)
    (hp : s.isPending slot = true → s'.isPending slot = true)
    (hs : s'.dispatcher.slot? slot = s.dispatcher.slot? slot)
    (ht : s'.dispatcher.time? slot = s.dispatcher.time? slot)
    (htasks : ∀ t ∈ s.tasks, Unbegun slot t → t ∈ s'.tasks) : s'.Owed slot := by
  cases h with
  | flagged h => exact owed_of_isPending hl (hp h)
  | scheduled h => exact .scheduled (ht ▸ h)
  | rerun st h hr hrr => exact .rerun st (hs ▸ h) hr hrr
  | submitted t h hu => exact .submitted t (htasks t h hu) hu

/-- A handled wake is passed on to the wake queue, or to the running cycle. -/
theorem owed_of_wake {c : DispatchConfig} {partition : Nat → String} {stopped : Nat → Bool}
    (hd : s'.dispatcher = s.dispatcher.handle c s.clock partition stopped (.wake slot))
    (hk : (s.dispatcher.slot? slot).isSome) (hstop : stopped slot = false) : s'.Owed slot := by
  obtain ⟨st, hst⟩ := Option.isSome_iff_exists.1 hk
  simp only [Dispatcher.handle, hstop, Bool.false_eq_true, if_false] at hd
  cases hr : st.running with
  | true =>
    rw [Dispatcher.wake_of_running hst hr] at hd
    exact .rerun { st with rerun := true } (by rw [hd]; exact Dispatcher.slot?_setSlot_self) hr rfl
  | false =>
    rw [Dispatcher.wake_of_not_running hst hr] at hd
    exact .scheduled (by rw [hd]; exact Dispatcher.isSome_time?_scheduleAt)

/-- A handled report passes on what is owed: a slot whose cycle ends was running,
    so it was not scheduled, and it is scheduled now if it is to run again. -/
theorem Owed.finished {c : DispatchConfig} {p : String} {r : CycleResult} (h : s.Owed slot)
    (hl' : (s'.ledger slot).Ok) (hp : s'.isPending slot = s.isPending slot)
    (ht : s.dispatcher.time? slot = none) (hr : ∀ report, r = .ok report → report.stopped = false)
    (hd : s'.dispatcher = (s.dispatcher.finished c s.clock p false slot r).1)
    (htasks : s'.tasks = s.tasks) : s'.Owed slot := by
  cases h with
  | flagged h => exact owed_of_isPending hl' (hp.trans h)
  | scheduled h => rw [ht] at h; cases h
  | rerun st h _ hrr =>
    refine .scheduled ?_
    rw [hd, Dispatcher.time?_finished h ht]
    cases r with
    | ok report => simp [Dispatcher.timeAfter, hr report rfl, hrr]
    | error e => rfl
  | submitted t h hu => exact .submitted t (htasks ▸ h) hu

/-- A slot whose registration is handled was not known, and owed nothing there. -/
theorem Owed.register (h : s.Owed slot) (hl : (s.ledger slot).Ok) (hl' : (s'.ledger slot).Ok)
    (hs : s.dispatcher.slot? slot = none) (hp : s'.isPending slot = s.isPending slot)
    (htasks : s'.tasks = s.tasks) : s'.Owed slot := by
  have hfits : Dispatcher.Fits (s.dispatcher.slot? slot) (s.dispatcher.time? slot) _ := hl.fits
  rw [hs] at hfits
  cases h with
  | flagged h => exact owed_of_isPending hl' (hp.trans h)
  | scheduled h => rw [hfits.2] at h; cases h
  | rerun st h => rw [hs] at h; cases h
  | submitted t h hu => exact .submitted t (htasks ▸ h) hu

/-- The report of an actor that is not stopped does not say so. -/
theorem Manned.not_stopped (hm : s.Manned) {r : CycleResult} {cs : List Command}
    (hc : s.commands = .finished slot r :: cs) (hstop : s.isStopped slot = false)
    (report : Report) (hr : r = .ok report) : report.stopped = false := by
  by_contra hs
  obtain ⟨a, ha, hsa⟩ := hm.report slot report (by rw [hc, ← hr]; exact List.mem_cons_self)
    (by simpa using hs)
  simp [isStopped, ha, hsa] at hstop

theorem Owed.handle (h : s.Owed slot) (hl : (s.ledger slot).Ok) (hl' : (s'.ledger slot).Ok)
    (hm : s.Manned) (hstop : s.isStopped slot = false) {cmd : Command} {cs : List Command}
    {f : Post → Post} (hc : s.commands = cmd :: cs) (hf : s.Handles cmd f)
    (hd : s'.dispatcher =
      s.dispatcher.handle s.dispatchConfig s.clock s.partitionName s.isStopped cmd)
    (hposts : s'.posts = s.posts.modify cmd.slot f) (htasks : s'.tasks = s.tasks) :
    s'.Owed slot := by
  have hpend : cmd.isWake slot = false → s'.isPending slot = s.isPending slot := by
    intro hw
    have hsignal := signalAt_handle hl hc hf
    rw [← hposts, signalAt_eq, hw] at hsignal
    exact (Prod.mk.inj hsignal).1
  by_cases hslot : slot = cmd.slot
  · cases cmd with
    | wake i =>
      obtain rfl : slot = i := hslot
      have hk : (s.dispatcher.slot? slot).isSome :=
        hl.known_of_wake hc (by simp [Command.isWake, ledger])
      exact owed_of_wake hd hk hstop
    | register i due =>
      obtain rfl : slot = i := hslot
      have hnone : s.dispatcher.slot? slot = none :=
        hl.unknown_of_register hc (by simp [Command.isRegister, ledger])
      exact h.register hl hl' hnone (hpend rfl) htasks
    | finished i r =>
      obtain rfl : slot = i := hslot
      have hfin : 0 < s.commands.countP (·.isFinished slot) := by
        rw [hc, List.countP_cons_of_pos (by simp [Command.isFinished])]
        exact Nat.succ_pos _
      have htime : s.dispatcher.time? slot = none := hl.fits.time_of_pos (Nat.add_pos_right _ hfin)
      simp only [Dispatcher.handle, hstop] at hd
      exact h.finished hl' (hpend rfl) htime (hm.not_stopped hc hstop) hd htasks
  · obtain ⟨hs, ht⟩ := Dispatcher.handle_of_ne s.dispatchConfig s.clock s.partitionName
      s.isStopped s.dispatcher hslot
    refine h.of_same hl' (fun h => (hpend (Command.isWake_of_ne hslot)).trans h) ?_ ?_ ?_
    · rw [hd]; exact hs
    · rw [hd]; exact ht
    · rw [htasks]; exact fun t h _ => h

theorem answer_ne_closed (h : s.shared.pool.closed = false) : s.answer ≠ some .closed := by
  unfold answer
  cases hsub : s.shared.pool.submit with
  | mk result pool =>
    cases result with
    | ok n => exact nofun
    | error e => obtain ⟨rfl, -⟩ := WorkerPool.submit_error hsub h; exact nofun

/-- A turn of the dispatcher keeps what is owed: a slot that it takes and may
    not submit is scheduled again. -/
theorem Owed.dispatch (h : s.Owed slot) (hl : (s.ledger slot).Ok) (hl' : (s'.ledger slot).Ok)
    (hopen : s.shared.pool.closed = false) (hstop : s.isStopped slot = false)
    (hd : s'.dispatcher = s.offered.2) (hposts : s'.posts = s.posts)
    (htasks : ∀ t ∈ s.tasks, t ∈ s'.tasks)
    (hsub : s.offered.1 = some slot → ∃ t ∈ s'.tasks, Unbegun slot t) : s'.Owed slot := by
  have hturn := Dispatcher.offer_at s.dispatchConfig s.clock s.partitionName s.isStopped s.answer
    s.dispatcher slot
  rw [hstop] at hturn
  have hstays (hd' : (s.dispatcher.time? slot).isSome ∨
      ∃ st, s.dispatcher.slot? slot = some st ∧ st.running = true ∧ st.rerun = true) :
      s'.Owed slot := by
    rcases hturn.stays hl.fits (answer_ne_closed hopen) hd' with hoff | ht | ⟨st, hs, hr, hrr⟩
    · obtain ⟨t, ht, hu⟩ := hsub (beq_iff_eq.1 hoff)
      exact .submitted t ht hu
    · exact .scheduled (by rw [hd]; exact ht)
    · exact .rerun st (by rw [hd]; exact hs) hr hrr
  cases h with
  | flagged h =>
    refine owed_of_isPending hl' ?_
    rw [isPending, hposts]; exact h
  | scheduled h => exact hstays (.inl h)
  | rerun st h hr hrr => exact hstays (.inr ⟨st, h, hr, hrr⟩)
  | submitted t h ht => exact .submitted t (htasks t h) ht

/-! ## Every action -/

/-- Commands and the timer aside, the dispatcher does nothing. -/
theorem Effect.dispatcher [JobStore σ] {a : Action} (he : s.Effect a s') (hh : a ≠ .handle)
    (hd : a ≠ .dispatch) (slot : Nat) :
    s'.dispatcher.slot? slot = s.dispatcher.slot? slot ∧
      s'.dispatcher.time? slot = s.dispatcher.time? slot := by
  cases he with
  | handle => exact absurd rfl hh
  | submit | pass => exact absurd rfl hd
  | _ => exact ⟨rfl, rfl⟩

/-- A task that has not begun stays until its cycle begins. -/
theorem Effect.unbegun [JobStore σ] (hn : s.Numbered) {a : Action} (ha : s.Allows a)
    (he : s.Effect a s') (hl : s.loopAlive = true) (hb : .began slot ∉ s.observe a)
    {t : CycleTask} (ht : t ∈ s.tasks) (hu : Unbegun slot t) : t ∈ s'.tasks := by
  cases he with
  | submit => exact List.mem_append_left _ ht
  | @step n m _ _ _ hstep =>
    rw [← hstep]
    obtain ⟨heq, -⟩ | ⟨t', a, shared, a', c, ht', hrun, -, -, heq⟩ := stepTask_cases hn.nodup n m
    · rw [heq]; exact ht
    · have hne : t.task ≠ n := by
        -- the first step of a cycle is its begin
        rintro rfl
        obtain rfl : t = t' := Option.some.inj ((task?_of_mem hn.nodup ht).symm.trans ht')
        refine hb ?_
        simp [observe, observeStep, ht', runningPoint?, hrun, hu.start, hu.slot]
      rw [heq]
      exact List.mem_map.2 ⟨t, ht, if_neg hne⟩
  | @report t' r posts ht' hr hp =>
    have hne : t.task ≠ t'.task := by
      intro he
      obtain rfl := eq_of_task_eq hn.nodup ht (mem_of_task? ht').1 he
      cases hp with
      | ended h | panicked h => rw [hu.start] at h; cases h
    exact List.mem_map.2 ⟨t, ht, if_neg hne⟩
  | @releaseSlot n hleave =>
    have hne : t.task ≠ n := by
      rintro rfl
      have := hn.reported t ht (WorkerPool.mem_of_stage? hleave)
      rw [hu.reported] at this; cases this
    exact List.mem_filter.2 ⟨ht, by simpa using hne⟩
  | finishShutdown =>
    have hclosed := hn.isOpen hl
    rw [show s.shared.pool.closed = true from ha] at hclosed; cases hclosed
  | _ => exact ht

/-- A cycle that is owed stays so until one begins. -/
theorem Owed.next [JobStore σ] (h : s.Owed slot) (hr : Reachable s) {a : Action}
    (ha : s.Allows a) (hl : (s.next a).loopAlive = true) (hstop : s.isStopped slot = false)
    (hb : .began slot ∉ s.observe a) : (s.next a).Owed slot := by
  have hn := hr.numbered
  have he := s.effect_next a
  have halive := he.loopAlive hl
  have hok := hr.ledger_ok halive
  have hok' := (hr.next a ha).ledger_ok hl slot
  generalize s.next a = s' at *
  -- the dispatcher aside, what is owed stays where it waits
  have hother (hh : a ≠ .handle) (hd : a ≠ .dispatch) : s'.Owed slot := by
    obtain ⟨hs, ht⟩ := he.dispatcher hh hd slot
    refine h.of_same hok' (fun hp => ?_) hs ht fun t ht hu => he.unbegun hn ha halive hb ht hu
    have hw : .woke slot ∉ s.observe a := woke_not_mem hh
    have hsignal := signalAt_next hn hok ha he hl hw
    rw [signalAt_eq, hp, Bool.true_or] at hsignal
    exact (Prod.mk.inj hsignal).1
  cases he with
  | handle hc hf => exact h.handle (hok slot) hok' hr.manned hstop hc hf rfl rfl rfl
  | @submit i pool ho =>
    refine h.dispatch (hok slot) hok' (hn.isOpen halive) hstop rfl rfl
      (fun t ht => List.mem_append_left _ ht) fun hi => ?_
    obtain rfl : i = slot := Option.some.inj (ho.symm.trans hi)
    exact ⟨_, List.mem_append_right _ List.mem_cons_self, rfl, rfl, rfl⟩
  | pass ho =>
    exact h.dispatch (hok slot) hok' (hn.isOpen halive) hstop rfl rfl (fun _ => id)
      fun hi => by rw [ho] at hi; cases hi
  | idle => exact h
  | _ => exact hother nofun nofun

theorem Owed.after [JobStore σ] (h : s.Owed slot) (hr : Reachable s) {as : List Action}
    (hp : s.Permits as) (hl : (s.after as).loopAlive = true) {a : Actor}
    (ha : s.actor? slot = some a) (hstop : (s.after as).isStopped slot = false)
    (hb : .began slot ∉ s.trace as) : (s.after as).Owed slot := by
  induction as generalizing s a with
  | nil => exact h
  | cons x as ih =>
    have hr' := hr.next x hp.1
    simp only [trace, List.mem_append, not_or] at hb
    have hrun : s.isStopped slot = false := by
      by_contra hs
      have := (carries_after hr hp).isStopped ha (by simpa using hs)
      rw [hstop] at this; cases this
    obtain ⟨a', ha', -⟩ := (s.effect_next x).carries hr.numbered slot a ha
    exact ih (h.next hr hp.1 (loopAlive_of_after hr' hp.2 hl) hrun hb.1) hr' hp.2 hl ha' hstop hb.2

/-! ## Coalescing without loss -/

/-- A call raises the flag of its slot, or finds it raised. -/
theorem isPending_ring [JobStore σ] (hi : slot < s.posts.length) :
    (s.next (.ring slot)).isPending slot = true := by
  have he := s.effect_next (.ring slot)
  generalize s.next (.ring slot) = s' at he ⊢
  cases he with
  | ring => exact flagAt_modify_raise hi
  | rung hp => exact hp
  | idle hidle => cases hidle

/-- From a call on a cycle is owed, until one begins. -/
theorem owed_after_ring [JobStore σ] (hr : Reachable s) {as : List Action}
    (hp : s.Permits (.ring slot :: as)) (hl : s.loopAlive = true)
    (hend : (s.after (.ring slot :: as)).loopAlive = true)
    (hstop : (s.after (.ring slot :: as)).isStopped slot = false)
    (hb : .began slot ∉ (s.next (.ring slot)).trace as) :
    (s.after (.ring slot :: as)).Owed slot := by
  have hr' := hr.next _ hp.1
  have hok := hr.ledger_ok hl slot
  have hok' := hr'.ledger_ok (loopAlive_of_after hr' hp.2 hend) slot
  have hposted := posted_of_announced hok (hok.published (published_of_mem hp.1))
  have howed := owed_of_isPending hok' (isPending_ring hposted)
  obtain ⟨a, ha, -⟩ := (s.effect_next (.ring slot)).carries hr.numbered slot s.posts[slot].actor
    (by simp [actor?, hposted])
  exact howed.after hr' hp.2 hend ha hstop hb

/-- Calls that follow on a flag that is down have one wake on its way. -/
theorem queuedWakes_after [JobStore σ] (hr : Reachable s) {as : List Action} (hp : s.Permits as)
    (hend : (s.after as).loopAlive = true) (hdown : s.isPending slot = false)
    (hw : .woke slot ∉ s.trace as) :
    (s.after as).queuedWakes slot + (s.after as).ringing.count slot =
        min 1 ((s.trace as).count (.rang slot)) ∧
      (s.after as).earlyWakes slot = s.earlyWakes slot := by
  have hflag : (s.after as).queuedWakes slot + (s.after as).ringing.count slot =
      ((s.after as).isPending slot).toNat := ((hr.after hp).ledger_ok hend slot).flag
  have hsignal := signalAt_after hr hp hend hw
  rw [signalAt_eq, hdown, Bool.false_or] at hsignal
  obtain ⟨hpend, hearly⟩ := Prod.mk.inj hsignal
  refine ⟨?_, hearly⟩
  rw [hflag, hpend]
  by_cases hmem : .rang slot ∈ s.trace as
  · have hpos := List.count_pos_iff.2 hmem
    rw [decide_eq_true hmem, Bool.toNat_true]
    omega
  · rw [decide_eq_false hmem, List.count_eq_zero_of_not_mem hmem]; rfl

/-- A wake that is handled was queued; it lowers the flag, and is counted unless
    the actor is stopped. -/
theorem signal_of_woke [JobStore σ] (hok : (s.ledger slot).Ok)
    (h : .woke slot ∈ s.observe .handle) :
    0 < s.queuedWakes slot ∧ (s.next .handle).isPending slot = false ∧
      (s.isStopped slot = false →
        (s.next .handle).earlyWakes slot = s.earlyWakes slot + 1) := by
  simp only [observe] at h
  split at h
  case h_1 i cs hc =>
    cases List.mem_singleton.1 h
    have hwake : Command.isWake slot (.wake slot) = true := by simp [Command.isWake]
    obtain ⟨f, events, heq, hf⟩ := handle_cases hc
    have hhandled := signalAt_handle hok hc hf
    have hposts : (s.next .handle).posts = s.posts.modify slot f := by
      simp only [System.next, heq]; rfl
    rw [show s.posts.modify (Command.wake slot).slot f = _ from hposts.symm, signalAt_eq,
      hwake] at hhandled
    obtain ⟨hdown, hcounted⟩ := Prod.mk.inj hhandled
    refine ⟨?_, hdown, fun hstop => ?_⟩
    · rw [queuedWakes, hc, List.countP_cons_of_pos hwake]
      exact Nat.succ_pos _
    · rw [hstop] at hcounted; exact hcounted
  case h_2 => cases h

/-- **Wakes are coalesced, and none is lost.**  While the dispatcher lives, at
    most one wake of a slot is queued, and none while its flag is down.  From a
    call on, whatever it returns, a cycle is owed until one begins.  The calls
    between two handled wakes, if there are any, lead to one wake, and that to
    one early wake. -/
theorem wakes_coalesce_without_loss [JobStore σ] (h : Reachable s) (hl : s.loopAlive = true)
    (slot : Nat) :
    (s.queuedWakes slot ≤ 1 ∧ (s.isPending slot = false → s.queuedWakes slot = 0)) ∧
    (∀ as, s.Permits (.ring slot :: as) → (s.after (.ring slot :: as)).loopAlive = true →
      (s.after (.ring slot :: as)).isStopped slot = false →
      .began slot ∉ (s.next (.ring slot)).trace as →
      (s.after (.ring slot :: as)).Owed slot) ∧
    (∀ as, s.isPending slot = false → s.Permits as → (s.after as).loopAlive = true →
      .woke slot ∉ s.trace as →
      (s.after as).queuedWakes slot + (s.after as).ringing.count slot =
        min 1 ((s.trace as).count (.rang slot)) ∧
      (s.after as).earlyWakes slot = s.earlyWakes slot ∧
      (.woke slot ∈ (s.after as).observe .handle →
        1 ≤ (s.trace as).count (.rang slot) ∧
        ((s.after as).next .handle).isPending slot = false ∧
        ((s.after as).isStopped slot = false →
          ((s.after as).next .handle).earlyWakes slot = s.earlyWakes slot + 1))) := by
  refine ⟨?atMostOne, ?owed, ?counted⟩
  case atMostOne =>
    have hflag : s.queuedWakes slot + s.ringing.count slot = (s.isPending slot).toNat :=
      (h.ledger_ok hl slot).flag
    have hle := Bool.toNat_le (s.isPending slot)
    refine ⟨by omega, ?_⟩
    intro hp
    rw [hp, Bool.toNat_false] at hflag
    omega
  case owed =>
    intro as hp hend hstop hb
    exact owed_after_ring h hp hl hend hstop hb
  case counted =>
    intro as hdown hp hend hw
    obtain ⟨hflag, hearly⟩ := queuedWakes_after h hp hend hdown hw
    refine ⟨hflag, hearly, ?_⟩
    intro hwoke
    obtain ⟨hqueued, hlowered, hcounted⟩ := signal_of_woke ((h.after hp).ledger_ok hend slot) hwoke
    refine ⟨by omega, hlowered, ?_⟩
    intro hstop
    rw [hcounted hstop, hearly]

/-- Two calls, of which the second finds the flag raised: the cycle is owed
    until it begins, and one early wake is counted. -/
theorem wakes_coalesce_of_two_calls :
    (blank.after (registration ++ [.ring 0, .ring 0, .deliver 0])).Owed 0 ∧
      ((blank.after (registration ++ [.ring 0, .ring 0, .deliver 0])).next .handle).earlyWakes 0 =
        1 := by
  obtain ⟨-, howed, hcounted⟩ := wakes_coalesce_without_loss
    (isNew_blank.reachable.after (show blank.Permits registration by decide +kernel))
    (by decide +kernel) 0
  rw [after_append]
  refine ⟨howed [.ring 0, .deliver 0] (by decide +kernel) (by decide +kernel) (by decide +kernel)
    (by decide +kernel), ?_⟩
  obtain ⟨-, -, hwoke⟩ := hcounted [.ring 0, .ring 0, .deliver 0] (by decide +kernel)
    (by decide +kernel) (by decide +kernel) (by decide +kernel)
  obtain ⟨-, -, hearly⟩ := hwoke (by decide +kernel)
  rw [hearly (by decide +kernel)]
  decide +kernel

end System

end DueWork

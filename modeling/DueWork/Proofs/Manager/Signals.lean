/-
  Flags and early wakes over time.

  * `signalAt_ring`, `signalAt_handle`: a call raises the flag of its slot, and
    the wake that is handled lowers it and counts;
  * `signalAt_next`, `signalAt_after`: as long as no wake of a slot is handled,
    calls are all that its signal notices.
-/
import DueWork.Proofs.Manager.Actors

namespace DueWork

open Time Signal Schedule

namespace System

variable {σ : Type} {s s' : System σ} {slot i : Nat}

/-! ## Signals -/

theorem signalAt_step [JobStore σ] (hn : s.Numbered) (n : Nat) (m : Moment) :
    signalAt (s.stepTask n m).posts slot = signalAt s.posts slot := by
  obtain ⟨heq, -⟩ | ⟨t, a, shared, a', c, -, -, ha, hstep, heq⟩ := stepTask_cases hn.nodup n m
  · rw [heq]
  · have hfollows := (t.cycle.step_stepped s.actorConfig { m with now := s.clock.wall }
      s.shared a).actor
    rw [hstep] at hfollows
    rw [heq]
    refine readAt_modify ?_
    intro p hp
    obtain rfl : p.actor = a := by simpa [actor?, hp] using ha
    exact congrArg (p.pending, ·) hfollows.earlyWakes

theorem signalAt_report {t : CycleTask} {r : CycleResult} {posts : List Post}
    (h : s.Reports t r posts) : signalAt posts slot = signalAt s.posts slot := by
  cases h with
  | ended => rfl
  | panicked =>
    exact readAt_modify fun p _ => by simp only [(p.actor.follows_setState .idle).earlyWakes]

theorem signalAt_ring (hi : i < s.posts.length) :
    signalAt (s.posts.modify i Post.raise) slot =
      (s.isPending slot || i == slot, s.earlyWakes slot) := by
  by_cases hslot : i = slot
  · subst hslot
    simp [signalAt, readAt, earlyWakes, actor?, hi, Post.raise]
  · rw [signalAt, readAt_modify_of_ne (Ne.symm hslot), ← signalAt, signalAt_eq]
    simp [hslot]

/-- The wake of a slot lowers its flag, and counts if the actor is not
    stopped. -/
theorem signalAt_handle {cmd : Command} {cs : List Command} {f : Post → Post}
    (h : (s.ledger slot).Ok) (hc : s.commands = cmd :: cs) (hf : s.Handles cmd f) :
    signalAt (s.posts.modify cmd.slot f) slot =
      (if cmd.isWake slot then false else s.isPending slot,
        s.earlyWakes slot + (cmd.isWake slot && !s.isStopped slot).toNat) := by
  by_cases hslot : slot = cmd.slot
  · subst hslot
    have hwakes : s.wakes cmd = cmd.isWake cmd.slot := by
      cases hw : cmd.isWake cmd.slot with
      | true => rw [wakes, hw, Bool.true_and]; exact h.known_of_wake hc hw
      | false => simp [wakes, hw]
    cases hp : s.posts[cmd.slot]? with
    | none =>
      have hstop : s.isStopped cmd.slot = true := by simp [isStopped, actor?, hp]
      simp [signalAt, readAt, isPending, earlyWakes, actor?, hp, hstop]
    | some p =>
      simp [signalAt, readAt, isPending, earlyWakes, actor?, hp, hf.pending, hf.earlyWakes, hwakes]
  · rw [signalAt, readAt_modify_of_ne hslot, ← signalAt, signalAt_eq, Command.isWake_of_ne hslot]
    simp

theorem signalAt_of_same (h : signalAt s'.posts slot = signalAt s.posts slot)
    {os : List Observation} (hr : .rang slot ∉ os) :
    signalAt s'.posts slot = (s.isPending slot || decide (.rang slot ∈ os), s.earlyWakes slot) := by
  rw [h, signalAt_eq, decide_eq_false hr, Bool.or_false]

theorem mem_observeStep [JobStore σ] {n : Nat} {m : Moment} {o : Observation}
    (h : o ∈ s.observeStep n m) : (∃ i, o = .began i) ∨ ∃ call, o = .called n call := by
  unfold observeStep at h
  split at h
  · exact .inl ⟨_, List.mem_singleton.1 h⟩
  · obtain ⟨call, -, rfl⟩ := List.mem_map.1 h
    exact .inr ⟨call, rfl⟩
  · cases h

/-- Only calls show calls. -/
theorem rang_not_mem [JobStore σ] {a : Action} (h : ∀ i, a ≠ .ring i) :
    .rang slot ∉ s.observe a := by
  intro hr
  cases a with
  | ring i => exact h i rfl
  | handle =>
    simp only [observe] at hr
    split at hr
    · cases List.mem_singleton.1 hr
    · cases hr
  | step n m => obtain ⟨i, he⟩ | ⟨call, he⟩ := mem_observeStep hr <;> cases he
  | _ => cases hr

/-- Only the dispatcher shows wakes. -/
theorem woke_not_mem [JobStore σ] {a : Action} (h : a ≠ .handle) : .woke slot ∉ s.observe a := by
  intro hw
  cases a with
  | handle => exact h rfl
  | ring i => cases List.mem_singleton.1 hw
  | step n m => obtain ⟨i, he⟩ | ⟨call, he⟩ := mem_observeStep hw <;> cases he
  | _ => cases hw

theorem decide_rang_mem [JobStore σ] :
    decide (Observation.rang slot ∈ s.observe (.ring i)) = (i == slot) := by
  by_cases hi : i = slot
  · simp [observe, hi]
  · simp [observe, hi, Ne.symm hi]

/-- The handled command is not a wake that is not seen. -/
theorem not_isWake_of_woke [JobStore σ] {cmd : Command} {cs : List Command}
    (hc : s.commands = cmd :: cs) (hw : .woke slot ∉ s.observe .handle) :
    cmd.isWake slot = false := by
  cases cmd with
  | wake i =>
    simp only [observe, hc, List.mem_singleton, Observation.woke.injEq] at hw
    exact beq_eq_false_iff_ne.2 (Ne.symm hw)
  | _ => rfl

/-- As long as no wake of a slot is handled, its flag goes up by a call, and
    nothing else happens to its signal. -/
theorem signalAt_next [JobStore σ] (hn : s.Numbered) (h : ∀ i, (s.ledger i).Ok) {a : Action}
    (ha : s.Allows a) (he : s.Effect a s') (hl : s'.loopAlive = true)
    (hw : .woke slot ∉ s.observe a) :
    signalAt s'.posts slot =
      (s.isPending slot || decide (.rang slot ∈ s.observe a), s.earlyWakes slot) := by
  have halive := he.loopAlive hl
  cases he with
  | @ring i hp =>
    have hlt := posted_of_announced (h i) ((h i).published (published_of_mem ha))
    rw [decide_rang_mem]
    exact signalAt_ring hlt
  | @rung i hp =>
    rw [decide_rang_mem, signalAt_eq]
    by_cases hi : i = slot
    · subst hi; simp [hp]
    · simp [hi]
  | handle hc hf =>
    have hwake := not_isWake_of_woke hc hw
    have hrang : .rang slot ∉ s.observe .handle := rang_not_mem nofun
    rw [decide_eq_false hrang, Bool.or_false]
    simp only [signalAt_handle (h slot) hc hf, hwake, Bool.false_eq_true, if_false,
      Bool.false_and, Bool.toNat_false, Nat.add_zero]
  | lower _ hdead => rw [halive] at hdead; cases hdead
  | @step n m _ _ _ heq =>
    exact signalAt_of_same (heq ▸ signalAt_step hn n m) (rang_not_mem nofun)
  | report _ _ hp => exact signalAt_of_same (signalAt_report hp) (rang_not_mem nofun)
  | claimKey =>
    refine signalAt_of_same ?_ (rang_not_mem nofun)
    exact readAt_append rfl
  | markStopped | requestStop =>
    refine signalAt_of_same ?_ (rang_not_mem nofun)
    exact readAt_modify fun _ _ => rfl
  | cancelAll =>
    refine signalAt_of_same ?_ (rang_not_mem nofun)
    exact readAt_map fun _ => rfl
  | idle _ ho => exact signalAt_of_same rfl (ho ▸ List.not_mem_nil)
  | _ => exact signalAt_of_same rfl (rang_not_mem nofun)

/-! ## Runs -/

theorem loopAlive_of_after [JobStore σ] (hr : Reachable s) {as : List Action}
    (hp : s.Permits as) (hl : (s.after as).loopAlive = true) : s.loopAlive = true := by
  induction as generalizing s with
  | nil => exact hl
  | cons a as ih => exact (s.effect_next a).loopAlive (ih (hr.next a hp.1) hp.2 hl)

/-- Without a handled wake the calls of a slot raise its flag once, and nothing
    is counted. -/
theorem signalAt_after [JobStore σ] (hr : Reachable s) {as : List Action} (hp : s.Permits as)
    (hl : (s.after as).loopAlive = true) (hw : .woke slot ∉ s.trace as) :
    signalAt (s.after as).posts slot =
      (s.isPending slot || decide (.rang slot ∈ s.trace as), s.earlyWakes slot) := by
  induction as generalizing s with
  | nil => exact signalAt_of_same rfl List.not_mem_nil
  | cons a as ih =>
    have hr' := hr.next a hp.1
    have hl' := loopAlive_of_after hr' hp.2 hl
    simp only [trace, List.mem_append, not_or] at hw
    have he := s.effect_next a
    have hnext := signalAt_next hr.numbered (hr.ledger_ok (he.loopAlive hl')) hp.1 he hl' hw.1
    rw [signalAt_eq, Prod.mk.injEq] at hnext
    rw [after, ih hr' hp.2 hl hw.2, hnext.1, hnext.2, Bool.or_assoc, ← Bool.decide_or]
    simp only [trace, List.mem_append]

end System

end DueWork

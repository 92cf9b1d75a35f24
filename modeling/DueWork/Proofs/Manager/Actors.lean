/-
  The actors of a manager over time.

  * `Effect.carries`: whatever is done, every actor stays in its slot with its
    key, and a stopped one stays stopped;
  * `Manned`: every cycle has an actor, and it reports that it was stopped
    only if its actor is, also while the report is on its way.
-/
import DueWork.Proofs.Manager.Slots

namespace DueWork

open Time Signal Schedule

namespace System

variable {σ : Type} {s s' : System σ} {slot : Nat}

/-- A step of a cycle changes the actor of its slot, which follows the old one. -/
theorem carries_step [JobStore σ] (hn : s.Numbered) (n : Nat) (m : Moment) :
    s.Carries (s.stepTask n m) := by
  obtain ⟨heq, -⟩ | ⟨t, a, shared, a', c, -, -, ha, hstep, heq⟩ := stepTask_cases hn.nodup n m
  · exact carries_of_posts (by rw [heq])
  · have hfollows := (t.cycle.step_stepped s.actorConfig { m with now := s.clock.wall }
      s.shared a).actor
    rw [hstep] at hfollows
    refine carries_modify (by rw [heq]; rfl) ?_
    intro p hp
    obtain rfl : p.actor = a := by simpa [actor?, hp] using ha
    exact hfollows.toPersists

theorem carries_report {t : CycleTask} {r : CycleResult} {posts : List Post}
    (h : s.Reports t r posts) (hs : s'.posts = posts) : s.Carries s' := by
  cases h with
  | ended => exact carries_of_posts hs
  | panicked => exact carries_modify hs fun p _ => (p.actor.follows_setState .idle).toPersists

/-- No action takes an actor away, changes its key or has it go on once stopped. -/
theorem Effect.carries [JobStore σ] (hn : s.Numbered) {a : Action} (he : s.Effect a s') :
    s.Carries s' := by
  cases he with
  | ring => exact carries_modify (f := Post.raise) rfl fun p _ => .refl _
  | lower => exact carries_modify (f := Post.lower) rfl fun p _ => .refl _
  | handle _ hf => exact carries_modify rfl fun p _ => hf.persists p
  | @step n m _ _ _ heq => exact heq ▸ carries_step hn n m
  | report _ _ h => exact carries_report h rfl
  | claimKey => exact carries_append rfl
  | markStopped => exact carries_modify rfl fun p _ => (persists_stop p.actor).1
  | requestStop => exact carries_modify rfl fun p _ => (persists_stop p.actor).2
  | cancelAll => exact carries_map rfl fun p => (persists_stop p.actor).2
  | _ => exact carries_of_posts rfl

theorem carries_after [JobStore σ] (hr : Reachable s) {as : List Action} (hp : s.Permits as) :
    s.Carries (s.after as) := by
  induction as generalizing s with
  | nil => exact carries_of_posts rfl
  | cons a as ih =>
    exact ((s.effect_next a).carries hr.numbered).trans (ih (hr.next a hp.1) hp.2)

/-! ## Cycles and their actors -/

/-- Every cycle has an actor, and what it reports of it is so. -/
structure Manned (s : System σ) : Prop where
  task : ∀ t ∈ s.tasks, ∃ a, s.actor? t.slot = some a ∧ t.cycle.Honest a
  report : ∀ slot r, .finished slot (.ok r) ∈ s.commands → r.stopped = true →
    ∃ a, s.actor? slot = some a ∧ a.isStopped = true

/-- A cycle that was manned still is. -/
theorem Manned.task_of_carries (h : s.Manned) (hc : s.Carries s') {t : CycleTask}
    (ht : t ∈ s.tasks) : ∃ a, s'.actor? t.slot = some a ∧ t.cycle.Honest a := by
  obtain ⟨a, ha, hh⟩ := h.task t ht
  obtain ⟨a', ha', hp⟩ := hc _ a ha
  exact ⟨a', ha', hh.persists hp⟩

/-- What was reported of an actor still is so. -/
theorem Manned.report_of_carries (h : s.Manned) (hc : s.Carries s') {r : Report}
    (hr : .finished slot (.ok r) ∈ s.commands) (hs : r.stopped = true) :
    ∃ a, s'.actor? slot = some a ∧ a.isStopped = true := by
  obtain ⟨a, ha, hstop⟩ := h.report slot r hr hs
  obtain ⟨a', ha', hp⟩ := hc _ a ha
  exact ⟨a', ha', hp.isStopped hstop⟩

/-- No new cycle, and no new report. -/
theorem Manned.of_carries (h : s.Manned) (hc : s.Carries s')
    (ht : ∀ t' ∈ s'.tasks, ∃ t ∈ s.tasks, t'.slot = t.slot ∧ t'.cycle = t.cycle)
    (hr : ∀ slot r, .finished slot (.ok r) ∈ s'.commands → .finished slot (.ok r) ∈ s.commands) :
    s'.Manned where
  task t' hmem := by
    obtain ⟨t, hmem, hslot, hcycle⟩ := ht t' hmem
    rw [hslot, hcycle]
    exact h.task_of_carries hc hmem
  report slot r hmem hs := h.report_of_carries hc (hr slot r hmem) hs

theorem Manned.of_eq (h : s.Manned) (hc : s.Carries s') (ht : s'.tasks = s.tasks)
    (hr : s'.commands = s.commands) : s'.Manned :=
  h.of_carries hc (fun t hmem => ⟨t, ht ▸ hmem, rfl, rfl⟩) fun _ _ hmem => hr ▸ hmem

theorem Manned.submit (h : s.Manned) (hl : ∀ i, (s.ledger i).Ok) (hc : s.Carries s')
    (hs : s.offered.1 = some slot)
    (ht : s'.tasks = s.tasks ++ [{ task := s.shared.pool.nextTask, slot := slot }])
    (hr : s'.commands = s.commands) : s'.Manned where
  task t hmem := by
    rw [ht] at hmem
    rcases List.mem_append.1 hmem with hmem | hmem
    · exact h.task_of_carries hc hmem
    · -- only a slot that the dispatcher knows is submitted, and that one has a post
      obtain rfl := List.mem_singleton.1 hmem
      have hlt := posted_of_announced (hl slot) (.inl (Dispatcher.isSome_of_offer hs))
      obtain ⟨a', ha', -⟩ := hc slot s.posts[slot].actor (by simp [actor?, hlt])
      exact ⟨a', ha', rfl, fun r hr => by cases hr⟩
  report i r hmem hstop := h.report_of_carries hc (hr ▸ hmem) hstop

theorem actor?_modifyActor {f : Actor → Actor} {a : Actor} (h : s.actor? slot = some a) :
    (s.modifyActor slot f).actor? slot = some (f a) := by
  simp only [actor?, Option.map_eq_some_iff] at h
  obtain ⟨p, hp, rfl⟩ := h
  simp [actor?, modifyActor, modifyPost, hp]

theorem Manned.stepTask [JobStore σ] (h : s.Manned) (hn : s.Numbered) (n : Nat) (m : Moment) :
    (s.stepTask n m).Manned := by
  have hcarries := carries_step hn n m
  obtain ⟨heq, -⟩ | ⟨t, a, shared, a', c, ht, -, ha, hstep, heq⟩ := stepTask_cases hn.nodup n m
  · rw [heq]; exact h
  · obtain ⟨hmem, rfl⟩ := mem_of_task? ht
    have hhonest := (t.cycle.step_stepped s.actorConfig { m with now := s.clock.wall }
      s.shared a).honest
    rw [hstep] at hhonest
    refine ⟨fun t' hmem' => ?_, fun slot r hr hs => ?_⟩
    · rw [heq] at hmem'
      obtain ⟨u, hu, ⟨hut, rfl⟩ | ⟨-, rfl⟩⟩ := mem_map_cycle hmem'
      · obtain rfl := eq_of_task_eq hn.nodup hu hmem hut
        obtain ⟨b, hb, hh⟩ := h.task u hu
        obtain rfl : b = a := Option.some.inj (hb.symm.trans ha)
        refine ⟨a', ?_, hhonest hh⟩
        rw [heq]; exact actor?_modifyActor (f := fun _ => a') ha
      · exact h.task_of_carries hcarries hu
    · exact h.report_of_carries hcarries (by rw [heq] at hr; exact hr) hs

theorem Manned.reported (h : s.Manned) {t : CycleTask} {r : CycleResult} {posts : List Post}
    (hp : s.Reports t r posts) (ht : s.task? t.task = some t) (hc : s.Carries s')
    (htasks : s'.tasks =
      s.tasks.map fun u => if u.task = t.task then { u with reported := true } else u)
    (hr : s'.commands = if s.loopAlive then s.commands ++ [.finished t.slot r] else s.commands) :
    s'.Manned where
  task t' hmem' := by
    rw [htasks] at hmem'
    obtain ⟨u, hu, rfl⟩ := List.mem_map.1 hmem'
    obtain ⟨a, ha, hh⟩ := h.task_of_carries hc hu
    split <;> exact ⟨a, ha, hh⟩
  report slot r' hmem hs := by
    have hmem : .finished slot (.ok r') ∈ s.commands ++ [Command.finished t.slot r] := by
      rw [hr] at hmem
      split at hmem
      · exact hmem
      · exact List.mem_append_left _ hmem
    rcases List.mem_append.1 hmem with hmem | hmem
    · exact h.report_of_carries hc hmem hs
    · -- what a cycle reports of its actor is so
      cases List.mem_singleton.1 hmem
      obtain ⟨a, ha, hh⟩ := h.task_of_carries hc (mem_of_task? ht).1
      cases hp with
      | ended hended => exact ⟨a, ha, hh.2 r' (by rw [hended]; rfl) hs⟩

theorem manned_ofConfig (config : SchedulerConfig) (processors : Processors) (startup : Startup)
    (store : σ) (clock : Clock) :
    (System.ofConfig config processors startup store clock).Manned where
  task _ ht := absurd ht List.not_mem_nil
  report _ _ hr := absurd hr List.not_mem_nil

theorem Manned.next [JobStore σ] (h : s.Manned) (hn : s.Numbered)
    (hl : s.loopAlive = true → ∀ i, (s.ledger i).Ok) {a : Action} (ha : s.Allows a)
    (he : s.Effect a s') : s'.Manned := by
  have hc := he.carries hn
  cases he with
  | deliver | register =>
    -- a report is neither a wake nor a registration
    refine h.of_carries hc (fun t ht => ⟨t, ht, rfl, rfl⟩) ?_
    intro slot r hr
    rcases List.mem_append.1 hr with hr | hr
    · exact hr
    · cases List.mem_singleton.1 hr
  | handle hcmds =>
    refine h.of_carries hc (fun t ht => ⟨t, ht, rfl, rfl⟩) ?_
    intro slot r hr
    rw [hcmds]; exact List.mem_cons_of_mem _ hr
  | submit hs => exact h.submit (hl ha) hc hs rfl rfl
  | endLoop =>
    exact h.of_carries hc (fun t ht => ⟨t, ht, rfl, rfl⟩) fun _ _ hr => absurd hr List.not_mem_nil
  | @step n m _ _ _ heq => exact heq ▸ h.stepTask hn n m
  | report ht _ hp => exact h.reported hp ht hc rfl rfl
  | releaseSlot =>
    exact h.of_carries hc (fun t ht => ⟨t, (List.mem_filter.1 ht).1, rfl, rfl⟩) fun _ _ => id
  | finishShutdown => exact h.of_carries hc (fun _ ht => absurd ht List.not_mem_nil) fun _ _ => id
  | _ => exact h.of_eq hc rfl rfl

end System

/-- Every cycle has an actor, in every state that a manager comes to. -/
theorem Reachable.manned {σ : Type} [JobStore σ] {s : System σ} (h : Reachable s) : s.Manned := by
  induction h with
  | init config processors startup store clock => exact System.manned_ofConfig ..
  | @next s a hr ha ih => exact ih.next hr.numbered hr.ledger_ok ha (s.effect_next a)

end DueWork

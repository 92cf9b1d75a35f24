/-
  The tasks of a manager and their numbers.

  * `Numbered`: a number names one task, a task that leaves its worker was
    reported, and the pool is open as long as the dispatcher lives;
  * `Reachable.numbered`: it holds of every state that a manager comes to;
  * `Effect.loopAlive`: a dispatcher that lives has lived.
-/
import DueWork.Proofs.Manager.Posts

namespace DueWork

open Time Signal Schedule

namespace System

variable {σ : Type} {s s' : System σ}

/-- The tasks and the pool fit together. -/
structure Numbered (s : System σ) : Prop where
  nodup : (s.tasks.map (·.task)).Nodup
  lt : ∀ t ∈ s.tasks, t.task < s.shared.pool.nextTask
  fresh : s.shared.pool.Fresh
  reported : ∀ t ∈ s.tasks, s.shared.pool.IsLeaving t.task → t.reported = true
  isOpen : s.loopAlive = true → s.shared.pool.closed = false

/-- Only the tasks, the pool and the end of the dispatcher matter. -/
theorem Numbered.of_eq (h : s.Numbered) (ht : s'.tasks = s.tasks)
    (hp : s'.shared.pool = s.shared.pool) (hl : s'.loopAlive = s.loopAlive) : s'.Numbered where
  nodup := ht ▸ h.nodup
  lt := by rw [ht, hp]; exact h.lt
  fresh := hp ▸ h.fresh
  reported := by rw [ht, hp]; exact h.reported
  isOpen := by rw [hl, hp]; exact h.isOpen

/-- The tasks may change apart from their numbers and reports. -/
theorem Numbered.of_map (h : s.Numbered) {f : CycleTask → CycleTask}
    (ht : s'.tasks = s.tasks.map f) (hf : ∀ t, (f t).task = t.task)
    (hr : ∀ t, t.reported = true → (f t).reported = true)
    (hp : ∃ permits, s'.shared.pool = { s.shared.pool with freePermits := permits })
    (hl : s'.loopAlive = s.loopAlive) : s'.Numbered := by
  obtain ⟨permits, hp⟩ := hp
  have hnum : s'.tasks.map (·.task) = s.tasks.map (·.task) := by
    rw [ht, List.map_map]; exact List.map_congr_left fun t _ => hf t
  constructor
  case nodup => exact hnum ▸ h.nodup
  case lt =>
    rw [ht, hp]
    intro _ hmem
    obtain ⟨t, ht, rfl⟩ := List.mem_map.1 hmem
    rw [hf]; exact h.lt t ht
  case fresh => rw [hp]; exact h.fresh
  case reported =>
    rw [ht, hp]
    intro _ hmem hleave
    obtain ⟨t, ht, rfl⟩ := List.mem_map.1 hmem
    rw [hf] at hleave
    exact hr t (h.reported t ht hleave)
  case isOpen => rw [hl, hp]; exact h.isOpen

/-- The stages of the tasks may change, unless a task that was not reported
    leaves. -/
theorem Numbered.of_pool (h : s.Numbered) (pool : WorkerPool) (hfresh : pool.Fresh)
    (hnext : pool.nextTask = s.shared.pool.nextTask) (hclosed : pool.closed = s.shared.pool.closed)
    (hleave : ∀ t ∈ s.tasks, pool.IsLeaving t.task →
      t.reported = true ∨ s.shared.pool.IsLeaving t.task) :
    (s.modifyPool fun _ => pool).Numbered where
  nodup := h.nodup
  lt t hmem := hnext ▸ h.lt t hmem
  fresh := hfresh
  reported t hmem hl := (hleave t hmem hl).elim id (h.reported t hmem)
  isOpen hl := hclosed.trans (h.isOpen hl)

theorem Numbered.submit (h : s.Numbered) {slot : Nat} {pool : WorkerPool}
    (hp : s.shared.pool.submit = (.ok s.shared.pool.nextTask, pool))
    (ht : s'.tasks = s.tasks ++ [{ task := s.shared.pool.nextTask, slot := slot }])
    (hp' : s'.shared.pool = pool) : s'.Numbered := by
  subst hp'
  obtain ⟨-, -, -, hnext, hclosed⟩ := WorkerPool.submit_ok hp
  constructor
  case nodup =>
    rw [ht, List.map_append, List.nodup_append]
    refine ⟨h.nodup, by simp, ?_⟩
    rintro n hn m hm rfl
    obtain ⟨t, ht, rfl⟩ := List.mem_map.1 hn
    simp only [List.map_cons, List.map_nil, List.mem_singleton] at hm
    exact absurd hm (Nat.ne_of_lt (h.lt t ht))
  case lt =>
    rw [ht, hnext]
    intro t ht
    rcases List.mem_append.1 ht with ht | ht
    · exact Nat.lt_succ_of_lt (h.lt t ht)
    · rw [List.mem_singleton.1 ht]; exact Nat.lt_succ_self _
  case fresh => exact h.fresh.submit hp
  case reported =>
    rw [ht]
    intro t ht hleave
    have hleave := WorkerPool.leaving_submit hp hleave
    rcases List.mem_append.1 ht with ht | ht
    · exact h.reported t ht hleave
    · rw [List.mem_singleton.1 ht] at hleave
      exact absurd hleave (WorkerPool.not_leaving_nextTask h.fresh)
  case isOpen => exact fun _ => hclosed

/-- A submission that is refused reaps the pool at most. -/
theorem Numbered.pass (h : s.Numbered) {pool : WorkerPool}
    (hp : pool = s.shared.pool ∨ ∃ e, s.shared.pool.submit = (.error e, pool)) :
    (s.modifyPool fun _ => pool).Numbered := by
  have hpool : pool = s.shared.pool ∨ pool = s.shared.pool.reap := by
    rcases hp with hp | ⟨e, hsub⟩
    · exact .inl hp
    · cases hc : s.shared.pool.closed with
      | true => rw [WorkerPool.submit_closed hc] at hsub; cases hsub; exact .inl rfl
      | false => exact .inr (WorkerPool.submit_error hsub hc).2
  rcases hpool with rfl | rfl
  · exact h.of_eq rfl rfl rfl
  · exact h.of_pool s.shared.pool.reap h.fresh.reap rfl rfl fun t _ hl =>
      .inr (WorkerPool.leaving_reap hl)

theorem Numbered.stepTask [JobStore σ] (h : s.Numbered) (n : Nat) (m : Moment) :
    (s.stepTask n m).Numbered := by
  obtain ⟨heq, -⟩ | ⟨t, a, shared, a', c, -, -, -, hstep, heq⟩ := stepTask_cases h.nodup n m
  · rw [heq]; exact h
  · obtain ⟨-, hpool, -, -⟩ := t.cycle.step_stepped s.actorConfig { m with now := s.clock.wall }
      s.shared a
    rw [hstep] at hpool
    rw [heq]
    refine h.of_map rfl (fun t => ?_) (fun t ht => ?_) hpool rfl
    · split <;> rfl
    · split <;> exact ht

theorem Numbered.report (h : s.Numbered) {n : Nat}
    (ht : s'.tasks = s.tasks.map fun u => if u.task = n then { u with reported := true } else u)
    (hs : s'.shared = s.shared) (hl : s'.loopAlive = s.loopAlive) : s'.Numbered := by
  refine h.of_map ht (fun t => ?_) (fun t ht => ?_) ⟨s.shared.pool.freePermits, by rw [hs]⟩ hl
  · split <;> rfl
  · split
    · rfl
    · exact ht

theorem Numbered.releaseWorker (h : s.Numbered) {t : CycleTask} (ht : s.task? t.task = some t)
    (hr : t.reported = true) : (s.modifyPool (·.releaseWorker t.task)).Numbered := by
  obtain ⟨hmem, -⟩ := mem_of_task? ht
  refine h.of_pool _ h.fresh.releaseWorker (WorkerPool.nextTask_releaseWorker ..) ?_
    fun t' ht' hl => ?_
  · unfold WorkerPool.releaseWorker; split <;> rfl
  · rcases WorkerPool.leaving_releaseWorker hl with he | hl
    · exact .inl (eq_of_task_eq h.nodup ht' hmem he ▸ hr)
    · exact .inr hl

theorem Numbered.releaseSlot (h : s.Numbered) (n : Nat) :
    Numbered { s.modifyPool (·.releaseSlot n) with tasks := s.tasks.filter (·.task != n) } := by
  have hpool := h.of_pool _ h.fresh.releaseSlot (s.shared.pool.nextTask_releaseSlot n)
    (by unfold WorkerPool.releaseSlot; split <;> rfl)
    fun t _ hl => .inr (WorkerPool.leaving_releaseSlot (t := n) hl)
  constructor
  case nodup => exact hpool.nodup.sublist (List.Sublist.map _ List.filter_sublist)
  case lt => exact fun t ht => hpool.lt t (List.mem_filter.1 ht).1
  case fresh => exact hpool.fresh
  case reported => exact fun t ht => hpool.reported t (List.mem_filter.1 ht).1
  case isOpen => exact hpool.isOpen

theorem numbered_ofConfig (config : SchedulerConfig) (processors : Processors) (startup : Startup)
    (store : σ) (clock : Clock) :
    (System.ofConfig config processors startup store clock).Numbered where
  nodup := .nil
  lt _ ht := absurd ht List.not_mem_nil
  fresh _ he := absurd he List.not_mem_nil
  reported _ ht := absurd ht List.not_mem_nil
  isOpen _ := rfl

theorem Numbered.next [JobStore σ] (h : s.Numbered) {a : Action} (ha : s.Allows a)
    (he : s.Effect a s') : s'.Numbered := by
  cases he with
  | submit _ hp => exact h.submit hp rfl rfl
  | pass _ hp => exact (h.pass hp).of_eq rfl rfl rfl
  | endLoop => exact ⟨h.nodup, h.lt, h.fresh, h.reported, fun hf => Bool.noConfusion hf⟩
  | start n =>
    refine h.of_pool _ h.fresh.start (WorkerPool.nextTask_start ..) ?_ fun t _ hl =>
      .inr (WorkerPool.leaving_start hl)
    unfold WorkerPool.start; split <;> rfl
  | @step n m _ _ _ heq => exact heq ▸ h.stepTask n m
  | report => exact h.report rfl rfl rfl
  | releaseWorker ht hr => exact h.releaseWorker ht hr
  | @releaseSlot n => exact h.releaseSlot n
  | closePool =>
    refine ⟨h.nodup, h.lt, h.fresh, h.reported, fun hl : s.loopAlive = true => ?_⟩
    rw [show s.loopAlive = false from ha] at hl; cases hl
  | finishShutdown =>
    refine ⟨.nil, fun _ ht => absurd ht List.not_mem_nil, fun _ he => absurd he List.not_mem_nil,
      fun _ ht => absurd ht List.not_mem_nil, fun hl => ?_⟩
    have := h.isOpen hl
    rw [show s.shared.pool.closed = true from ha] at this; cases this
  | _ => exact h.of_eq rfl rfl rfl

/-! ## The life of the dispatcher -/

/-- Only the end of the dispatcher ends it. -/
theorem Effect.loopAlive [JobStore σ] {a : Action} (he : s.Effect a s')
    (h : s'.loopAlive = true) : s.loopAlive = true := by
  cases he with
  | endLoop => cases h
  | _ => exact h

end System

/-- The tasks and the pool fit together in every state that a manager comes to. -/
theorem Reachable.numbered {σ : Type} [JobStore σ] {s : System σ} (h : Reachable s) :
    s.Numbered := by
  induction h with
  | init config processors startup store clock => exact System.numbered_ofConfig ..
  | @next s a _ ha ih => exact ih.next ha (s.effect_next a)

end DueWork

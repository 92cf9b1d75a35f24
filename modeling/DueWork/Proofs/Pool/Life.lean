/-
  The life of a worker pool: submissions, tasks, and its shutdown.

  A `PoolAction` is a step of one of the parties, and `PoolLife.trace` is what
  is seen of a pool in the course of some actions: answers, how far the tasks
  come, and what a shutdown reports.

  * `TaskStep`: starting a task and giving back its worker or its slot are one
    kind of step, from one stage to the next;
  * `Balanced`: free workers and running tasks are as many as there are
    workers, and free slots and unfinished tasks as many as there are slots;
  * `Told`: what was seen of a task says in which stage it is;
  * `PoolAccounts` collects what holds after any actions, and `pool_accounts`
    proves it of every pool.
-/
import DueWork.Proofs.Lookup
import DueWork.Proofs.Pool.WorkerPool

namespace DueWork

/-- What may happen next to a pool. -/
inductive PoolAction where
  | submit
  /-- a task gets a worker -/
  | start (task : Nat)
  /-- a task is over, by itself or by a panic, and gives back its worker -/
  | releaseWorker (task : Nat)
  /-- and then its slot -/
  | releaseSlot (task : Nat)
  /-- a shutdown is called -/
  | shutdown
  /-- the grace of the shutdown is over, or there is nothing to wait for -/
  | deadline
deriving DecidableEq, Repr

/-- What is seen of a pool. -/
inductive PoolSight where
  | accepted (task : Nat)
  | refused (e : SubmitError)
  | started (task : Nat)
  | left (task : Nat)
  | ended (task : Nat)
  /-- a shutdown returned -/
  | reported (r : PoolShutdown)
deriving DecidableEq, Repr

/-- The task that something is seen of. -/
def PoolSight.task? : PoolSight → Option Nat
  | accepted n | started n | left n | ended n => some n
  | refused _ | reported _ => none

/-- What was seen of a task that came to a stage. -/
def TaskStage.course (n : Nat) : TaskStage → List PoolSight
  | waiting => [.accepted n]
  | running => [.accepted n, .started n]
  | leaving => [.accepted n, .started n, .left n]
  | ended => [.accepted n, .started n, .left n, .ended n]

namespace WorkerPool

/-- Tasks that have a worker. -/
def running (p : WorkerPool) : Nat := p.tasks.countP (·.2 == .running)

/-- Tasks that have a slot. -/
def unfinished (p : WorkerPool) : Nat := p.tasks.countP (·.2 != .ended)

/-- The pool after an action. -/
def act (p : WorkerPool) : PoolAction → WorkerPool
  | .submit => p.submit.2
  | .start n => p.start n
  | .releaseWorker n => p.releaseWorker n
  | .releaseSlot n => p.releaseSlot n
  | .shutdown => p.close
  | .deadline => if p.closed then p.finish.2 else p

/-- What is seen of a task that goes from one stage to another, if it does. -/
def shift (p p' : WorkerPool) (n : Nat) (old new : TaskStage) (s : PoolSight) : List PoolSight :=
  if p.stage? n = some old ∧ p'.stage? n = some new then [s] else []

end WorkerPool

/-- A pool, and whether its shutdown has returned. -/
structure PoolLife where
  pool : WorkerPool
  returned : Bool := false

namespace PoolLife

def ofConfig (c : PoolConfig) : PoolLife := { pool := .ofConfig c }

/-- What follows on an action. -/
def next (l : PoolLife) : PoolAction → PoolLife
  | .deadline => ⟨l.pool.act .deadline, l.returned || l.pool.closed⟩
  | a => { l with pool := l.pool.act a }

/-- What is seen of an action.  Only the first shutdown waits; what it reports
    is what the pool finds at the deadline. -/
def shows (l : PoolLife) : PoolAction → List PoolSight
  | .submit =>
    match l.pool.submit.1 with
    | .ok n => [.accepted n]
    | .error e => [.refused e]
  | .start n => l.pool.shift (l.pool.start n) n .waiting .running (.started n)
  | .releaseWorker n => l.pool.shift (l.pool.releaseWorker n) n .running .leaving (.left n)
  | .releaseSlot n => l.pool.shift (l.pool.releaseSlot n) n .leaving .ended (.ended n)
  | .shutdown => if l.pool.closed then [.reported {}] else []
  | .deadline => if l.pool.closed && !l.returned then [.reported l.pool.finish.1] else []

/-- What follows on some actions. -/
def after (l : PoolLife) : List PoolAction → PoolLife
  | [] => l
  | a :: as => (l.next a).after as

/-- What is seen of some actions. -/
def trace (l : PoolLife) : List PoolAction → List PoolSight
  | [] => []
  | a :: as => l.shows a ++ (l.next a).trace as

end PoolLife

namespace WorkerPool

variable {p p' : WorkerPool} {c : PoolConfig} {n t : Nat} {st old new : TaskStage}

/-! ## Stages -/

/-- Setting the stage of a task that is not there changes nothing. -/
theorem map_setStage_of_notMem {ts : List (Nat × TaskStage)} {m : Nat} (h : m ∉ ts.map (·.1)) :
    (ts.map fun (u, s) => (u, if u = m then st else s)) = ts := by
  refine (List.map_congr_left fun e he => ?_).trans (List.map_id _)
  have hne : e.1 ≠ m := fun heq => h (List.mem_map.2 ⟨e, he, heq⟩)
  simp only [if_neg hne, id]

/-- A task that moves is counted for its new stage in place of its old one. -/
theorem countP_setStage (hnd : (p.tasks.map (·.1)).Nodup) (h : p.stage? t = some old)
    (st : TaskStage) (q : TaskStage → Bool) :
    (p.setStage t st).tasks.countP (fun e => q e.2) + (q old).toNat =
      p.tasks.countP (fun e => q e.2) + (q st).toNat := by
  simp only [setStage, stage?] at h ⊢
  generalize p.tasks = ts at hnd h
  induction ts with
  | nil => cases h
  | cons e ts ih =>
    obtain ⟨m, s⟩ := e
    obtain ⟨hm, hnd⟩ := List.nodup_cons.1 hnd
    rw [List.map_cons, List.countP_cons, List.countP_cons]
    by_cases hmt : m = t
    · subst hmt
      have hs : s = old := by simpa using h
      -- no other entry has this number
      simp only [map_setStage_of_notMem hm, hs, if_true]
      cases q st <;> cases q old <;> simp
    · have := ih hnd ((lookup_cons_of_ne (Ne.symm hmt) ..).symm.trans h)
      simp only [if_neg hmt]
      omega

theorem stage?_setStage_self (h : p.stage? t = some old) :
    (p.setStage t st).stage? t = some st := by
  simp only [setStage, stage?] at h ⊢
  generalize p.tasks = ts at h
  induction ts with
  | nil => cases h
  | cons e ts ih =>
    obtain ⟨m, s⟩ := e
    rw [List.map_cons]
    by_cases hmt : t = m
    · simp [hmt]
    · rw [lookup_cons_of_ne hmt] at h ⊢
      exact ih h

theorem stage?_setStage_of_ne (h : n ≠ t) : (p.setStage t st).stage? n = p.stage? n := by
  simp only [setStage, stage?]
  induction p.tasks with
  | nil => rfl
  | cons e ts ih =>
    obtain ⟨m, s⟩ := e
    rw [List.map_cons]
    by_cases hmn : n = m
    · subst hmn
      simp [h]
    · rw [lookup_cons_of_ne hmn, lookup_cons_of_ne hmn]
      exact ih

/-- Only tasks that have ended are forgotten. -/
theorem stage?_reap (hnd : (p.tasks.map (·.1)).Nodup) :
    p.reap.stage? n = p.stage? n ∨ p.stage? n = some .ended ∧ p.reap.stage? n = none := by
  simp only [reap, stage?]
  generalize p.tasks = ts at hnd
  induction ts with
  | nil => exact .inl rfl
  | cons e ts ih =>
    obtain ⟨m, s⟩ := e
    obtain ⟨hm, hnd⟩ := List.nodup_cons.1 hnd
    replace ih := ih hnd
    by_cases hs : s = .ended
    · subst hs
      rw [List.filter_cons_of_neg (by simp)]
      by_cases hmn : n = m
      · subst hmn
        refine .inr ⟨by simp, List.lookup_eq_none_iff.2 fun e he => ?_⟩
        have : n ≠ e.1 := fun heq =>
          hm (List.mem_map.2 ⟨e, (List.mem_filter.1 he).1, heq.symm⟩)
        simpa using this
      · rw [lookup_cons_of_ne hmn]
        exact ih
    · rw [List.filter_cons_of_pos (by simpa using hs)]
      by_cases hmn : n = m
      · exact .inl (by simp [hmn])
      · rw [lookup_cons_of_ne hmn, lookup_cons_of_ne hmn]
        exact ih

theorem Fresh.stage?_eq_none (h : p.Fresh) (hn : p.nextTask ≤ n) : p.stage? n = none := by
  refine List.lookup_eq_none_iff.2 fun e he => ?_
  have := h e he
  simpa using (by omega : n ≠ e.1)

/-! ## What one action does -/

/-- A task is taken from one stage to the next with what it holds, or nothing
    happens. -/
inductive TaskStep (p : WorkerPool) (t : Nat) (old new : TaskStage) : WorkerPool → Prop
  | moved {freeWorkers freeSlots : Nat} (hs : p.stage? t = some old)
      (hw : freeWorkers + (new == .running).toNat = p.freeWorkers + (old == .running).toNat)
      (hf : freeSlots + (new != .ended).toNat = p.freeSlots + (old != .ended).toNat) :
      TaskStep p t old new
        { p.setStage t new with freeWorkers := freeWorkers, freeSlots := freeSlots }
  | idle : TaskStep p t old new p

theorem start_step (p : WorkerPool) (t : Nat) : TaskStep p t .waiting .running (p.start t) := by
  unfold start
  split
  next h => exact .moved h.1 (Nat.sub_add_cancel h.2) rfl
  next => exact .idle

theorem releaseWorker_step (p : WorkerPool) (t : Nat) :
    TaskStep p t .running .leaving (p.releaseWorker t) := by
  unfold releaseWorker
  split
  next h => exact .moved h rfl rfl
  next => exact .idle

theorem releaseSlot_step (p : WorkerPool) (t : Nat) :
    TaskStep p t .leaving .ended (p.releaseSlot t) := by
  unfold releaseSlot
  split
  next h => exact .moved h rfl rfl
  next => exact .idle

/-- What a step of a task does to the stages of all tasks. -/
theorem TaskStep.stages (h : TaskStep p t old new p') :
    p' = p ∨ p.stage? t = some old ∧ p'.stage? t = some new ∧
      ∀ n, n ≠ t → p'.stage? n = p.stage? n := by
  cases h with
  | idle => exact .inl rfl
  | moved hs => exact .inr ⟨hs, stage?_setStage_self hs, fun _ hn => stage?_setStage_of_ne hn⟩

/-- What a step of a task leaves alone. -/
theorem TaskStep.frame (h : TaskStep p t old new p') :
    p'.nextTask = p.nextTask ∧ p'.closed = p.closed ∧ p'.tasks.length = p.tasks.length ∧
      p'.freePermits = p.freePermits := by
  cases h with
  | idle => exact ⟨rfl, rfl, rfl, rfl⟩
  | moved => exact ⟨rfl, rfl, List.length_map _, rfl⟩

theorem submit_open (h : p.closed = false) :
    p.submit = if p.freeSlots = 0 then (.error .saturated, p.reap)
      else (.ok p.nextTask, { p.reap with
        freeSlots := p.freeSlots - 1
        tasks := p.reap.tasks ++ [(p.nextTask, .waiting)]
        nextTask := p.nextTask + 1 }) := by
  simp only [submit, h, Bool.false_eq_true, if_false]
  rfl

/-- Tasks and their shutdown leave the admission permits alone. -/
theorem freePermits_act (p : WorkerPool) (a : PoolAction) :
    (p.act a).freePermits = p.freePermits := by
  cases a with
  | submit =>
    cases hclosed : p.closed with
    | true => simp only [act, submit_closed hclosed]
    | false =>
      simp only [act, submit_open hclosed]
      split <;> rfl
  | start t => exact (start_step p t).frame.2.2.2
  | releaseWorker t => exact (releaseWorker_step p t).frame.2.2.2
  | releaseSlot t => exact (releaseSlot_step p t).frame.2.2.2
  | shutdown => rfl
  | deadline =>
    simp only [act]
    split <;> rfl

/-! ## Workers and slots -/

/-- Every worker is free or has a task, and every slot is free or has a task
    that has not ended. -/
structure Balanced (c : PoolConfig) (p : WorkerPool) : Prop where
  fresh : p.Fresh
  nodup : (p.tasks.map (·.1)).Nodup
  workers : p.freeWorkers + p.running = c.workers
  slots : p.freeSlots + p.unfinished = c.slots

theorem balanced_ofConfig (c : PoolConfig) : Balanced c (.ofConfig c) :=
  ⟨List.forall_mem_nil _, List.nodup_nil, rfl, rfl⟩

namespace Balanced

variable (h : Balanced c p)
include h

theorem task (hs : TaskStep p t old new p') : Balanced c p' := by
  cases hs with
  | idle => exact h
  | moved hs hw hf =>
    have hrun := countP_setStage h.nodup hs new (· == .running)
    have hunf := countP_setStage h.nodup hs new (· != .ended)
    have hworkers := h.workers
    have hslots := h.slots
    refine ⟨h.fresh.setStage, ?_, ?_, ?_⟩
    · have hmap : (p.setStage t new).tasks.map (·.1) = p.tasks.map (·.1) := by
        simp [setStage, List.map_map, Function.comp_def]
      exact hmap ▸ h.nodup
    · simp only [running] at hworkers ⊢
      omega
    · simp only [unfinished] at hslots ⊢
      omega

theorem reap : Balanced c p.reap where
  fresh := h.fresh.reap
  nodup := h.nodup.sublist (List.filter_sublist.map _)
  workers := by
    rw [← h.workers]
    simp only [running, WorkerPool.reap, List.countP_filter]
    congr 1
    refine List.countP_congr fun e _ => ?_
    cases e.2 <;> decide
  slots := by
    rw [← h.slots]
    simp only [unfinished, WorkerPool.reap, List.countP_filter, Bool.and_self]

theorem submit : Balanced c p.submit.2 := by
  cases hclosed : p.closed with
  | true => rw [submit_closed hclosed]; exact h
  | false =>
    rw [submit_open hclosed]
    split
    next => exact h.reap
    next hfree =>
      have hr := h.reap
      refine ⟨fun e he => ?_, ?_, ?_, ?_⟩
      · rcases List.mem_append.1 he with he | he
        · exact Nat.lt_succ_of_lt (hr.fresh e he)
        · rw [List.mem_singleton.1 he]; exact Nat.lt_succ_self _
      · simp only [List.map_append, List.map_cons, List.map_nil]
        refine List.nodup_append.2 ⟨hr.nodup, List.pairwise_singleton .., fun m hm m' hm' => ?_⟩
        obtain ⟨e, he, rfl⟩ := List.mem_map.1 hm
        rw [List.mem_singleton.1 hm']
        exact Nat.ne_of_lt (hr.fresh e he)
      · rw [← hr.workers]
        simp [running]
      · have := hr.slots
        simp only [unfinished, WorkerPool.reap, List.countP_append] at this ⊢
        simp only [List.countP_cons, List.countP_nil]
        have : ((TaskStage.waiting != TaskStage.ended) = true) := by decide
        simp only [this, if_true]
        omega

theorem act (a : PoolAction) : Balanced c (p.act a) := by
  cases a with
  | submit => exact h.submit
  | start t => exact h.task (start_step p t)
  | releaseWorker t => exact h.task (releaseWorker_step p t)
  | releaseSlot t => exact h.task (releaseSlot_step p t)
  | shutdown => exact ⟨h.fresh, h.nodup, h.workers, h.slots⟩
  | deadline =>
    simp only [WorkerPool.act]
    split
    next => exact ⟨List.forall_mem_nil _, List.nodup_nil, h.workers, h.slots⟩
    next => exact h

/-- A slot is free exactly if fewer tasks are unfinished than there are slots. -/
theorem freeSlots_eq_zero_iff :
    p.freeSlots = 0 ↔ ¬ p.unfinished < max c.poolSize 1 + c.queueCapacity := by
  have := h.slots
  simp only [PoolConfig.slots, PoolConfig.workers] at this
  omega

end Balanced

end WorkerPool

/-! ## What is seen of one task -/

/-- What is seen of a task. -/
def sightsOf (n : Nat) (ss : List PoolSight) : List PoolSight := ss.filter (·.task? == some n)

namespace PoolLife

variable {l : PoolLife} {c : PoolConfig} {n t : Nat} {seen : List PoolSight} {old new : TaskStage}

/-- What was seen of a task leads to the stage in which it is.  A task that is
    no longer there had ended, or was discarded by a shutdown that returned. -/
def Told (l : PoolLife) (n : Nat) (seen : List PoolSight) : Prop :=
  match l.pool.stage? n with
  | some st => seen = st.course n
  | none =>
    if n < l.pool.nextTask then ∃ st : TaskStage, seen = st.course n ∧ (st = .ended ∨ l.returned)
    else seen = []

theorem told_some {st : TaskStage} (h : l.pool.stage? n = some st) :
    l.Told n seen ↔ seen = st.course n := by
  simp only [Told, h]

theorem told_gone (h : l.pool.stage? n = none) (hn : n < l.pool.nextTask) :
    l.Told n seen ↔ ∃ st : TaskStage, seen = st.course n ∧ (st = .ended ∨ l.returned) := by
  simp only [Told, h, if_pos hn]

theorem told_new (h : l.pool.stage? n = none) (hn : ¬ n < l.pool.nextTask) :
    l.Told n seen ↔ seen = [] := by
  simp only [Told, h, if_neg hn]

/-- Forgetting a task that has ended keeps what was told of it. -/
theorem Told.reap (hb : l.pool.Balanced c) (h : l.Told n seen) :
    ({ l with pool := l.pool.reap } : PoolLife).Told n seen := by
  obtain hs | ⟨hs, hs'⟩ := WorkerPool.stage?_reap (n := n) hb.nodup
  · simp only [Told, hs] at h ⊢
    exact h
  · have hn : n < l.pool.reap.nextTask := hb.fresh _ (WorkerPool.mem_of_stage? hs)
    exact (told_gone (l := { l with pool := l.pool.reap }) hs' hn).2
      ⟨.ended, (told_some hs).1 h, .inl rfl⟩

/-- An accepted task begins its course, and no other is touched. -/
theorem Told.accept (hb : l.pool.Balanced c) (h : l.Told n seen) (slots : Nat) :
    ({ l with pool := { l.pool with
        freeSlots := slots
        tasks := l.pool.tasks ++ [(l.pool.nextTask, .waiting)]
        nextTask := l.pool.nextTask + 1 } } : PoolLife).Told n
      (seen ++ sightsOf n [.accepted l.pool.nextTask]) := by
  by_cases hn : n = l.pool.nextTask
  · subst hn
    have hnone : l.pool.stage? l.pool.nextTask = none := hb.fresh.stage?_eq_none (Nat.le_refl _)
    obtain rfl := (told_new hnone (Nat.lt_irrefl _)).1 h
    refine (told_some (?_ : _ = some TaskStage.waiting)).2
      (by simp [sightsOf, PoolSight.task?, TaskStage.course])
    simp only [WorkerPool.stage?] at hnone ⊢
    simp [List.lookup_append, hnone]
  · have hother : (l.pool.tasks ++ [(l.pool.nextTask, TaskStage.waiting)]).lookup n =
        l.pool.tasks.lookup n := by
      simp [List.lookup_append, lookup_cons_of_ne hn]
    have hlt : n < l.pool.nextTask + 1 ↔ n < l.pool.nextTask := by omega
    have hsight : sightsOf n [.accepted l.pool.nextTask] = [] := by
      simp [sightsOf, PoolSight.task?, Ne.symm hn]
    simp only [Told, WorkerPool.stage?, hother, hlt, hsight, List.append_nil] at h ⊢
    exact h

theorem Told.submit (hb : l.pool.Balanced c) (h : l.Told n seen) :
    (l.next .submit).Told n (seen ++ sightsOf n (l.shows .submit)) := by
  have hrefused (e : SubmitError) : seen ++ sightsOf n [.refused e] = seen := by
    simp [sightsOf, PoolSight.task?]
  simp only [next, WorkerPool.act, shows]
  cases hclosed : l.pool.closed with
  | true =>
    rw [WorkerPool.submit_closed hclosed]
    exact (hrefused _).symm ▸ h
  | false =>
    rw [WorkerPool.submit_open hclosed]
    split
    next => exact (hrefused _).symm ▸ h.reap hb
    next => exact (h.reap hb).accept hb.reap _

/-- A step of a task is seen of this task, and of no other. -/
theorem Told.task {p' : WorkerPool} {s : PoolSight} (hstep : l.pool.TaskStep t old new p')
    (hne : old ≠ new) (hcourse : new.course t = old.course t ++ [s]) (hts : s.task? = some t)
    (h : l.Told n seen) :
    ({ l with pool := p' } : PoolLife).Told n
      (seen ++ sightsOf n (l.pool.shift p' t old new s)) := by
  obtain rfl | ⟨hold, hnew, hother⟩ := hstep.stages
  · have hshift : l.pool.shift l.pool t old new s = [] :=
      if_neg fun hm => hne (Option.some.inj (hm.1.symm.trans hm.2))
    rw [hshift]
    exact (List.append_nil seen).symm ▸ h
  · rw [show l.pool.shift p' t old new s = [s] from if_pos ⟨hold, hnew⟩]
    by_cases hn : n = t
    · subst hn
      refine (told_some (l := { l with pool := p' }) hnew).2 ?_
      rw [(told_some hold).1 h, hcourse]
      simp [sightsOf, hts]
    · have hsight : sightsOf n [s] = [] := by simp [sightsOf, hts, Ne.symm hn]
      simp only [Told, hother n hn, hstep.frame.1, hsight, List.append_nil] at h ⊢
      exact h

/-- What is told of a task stays true when a shutdown discards it. -/
theorem Told.deadline (hb : l.pool.Balanced c) (h : l.Told n seen) :
    (l.next .deadline).Told n seen := by
  simp only [next, WorkerPool.act]
  cases hclosed : l.pool.closed with
  | false => simpa using h
  | true =>
    simp only [if_true, Bool.or_true]
    have hnone : l.pool.finish.2.stage? n = none := rfl
    by_cases hn : n < l.pool.nextTask
    · refine (told_gone (l := ⟨l.pool.finish.2, true⟩) hnone hn).2 ?_
      cases hs : l.pool.stage? n with
      | some st => exact ⟨st, (told_some hs).1 h, .inr rfl⟩
      | none =>
        obtain ⟨st, hst, -⟩ := (told_gone hs hn).1 h
        exact ⟨st, hst, .inr rfl⟩
    · have hs := hb.fresh.stage?_eq_none (Nat.le_of_not_lt hn)
      exact (told_new (l := ⟨l.pool.finish.2, true⟩) hnone hn).2 ((told_new hs hn).1 h)

theorem Told.next (hb : l.pool.Balanced c) (h : l.Told n seen) (a : PoolAction) :
    (l.next a).Told n (seen ++ sightsOf n (l.shows a)) := by
  cases a with
  | submit => exact h.submit hb
  | start t => exact h.task (WorkerPool.start_step _ t) (by decide) rfl rfl
  | releaseWorker t => exact h.task (WorkerPool.releaseWorker_step _ t) (by decide) rfl rfl
  | releaseSlot t => exact h.task (WorkerPool.releaseSlot_step _ t) (by decide) rfl rfl
  | shutdown =>
    have hsight : sightsOf n (l.shows .shutdown) = [] := by
      simp only [shows]; split <;> rfl
    rw [hsight]
    exact (List.append_nil seen).symm ▸ h
  | deadline =>
    have hsight : sightsOf n (l.shows .deadline) = [] := by
      simp only [shows]; split <;> rfl
    rw [hsight, List.append_nil]
    exact h.deadline hb

/-! ## One action and its report -/

theorem pool_next (l : PoolLife) (a : PoolAction) : (l.next a).pool = l.pool.act a := by
  cases a <;> rfl

theorem closed_next (l : PoolLife) (a : PoolAction) :
    (l.next a).pool.closed = (l.pool.closed || a == .shutdown) := by
  rw [pool_next]
  cases a with
  | submit =>
    cases hclosed : l.pool.closed with
    | true => simp [WorkerPool.act, WorkerPool.submit_closed hclosed, hclosed]
    | false =>
      simp only [WorkerPool.act, WorkerPool.submit_open hclosed]
      split <;> exact hclosed
  | start t => exact ((WorkerPool.start_step l.pool t).frame.2.1).trans (Bool.or_false _).symm
  | releaseWorker t =>
    exact ((WorkerPool.releaseWorker_step l.pool t).frame.2.1).trans (Bool.or_false _).symm
  | releaseSlot t =>
    exact ((WorkerPool.releaseSlot_step l.pool t).frame.2.1).trans (Bool.or_false _).symm
  | shutdown => exact (Bool.or_true _).symm
  | deadline =>
    simp only [WorkerPool.act]
    split <;> exact (Bool.or_false _).symm

theorem shows_submit_open (hb : l.pool.Balanced c) (hclosed : l.pool.closed = false) :
    l.shows .submit =
      if l.pool.unfinished < max c.poolSize 1 + c.queueCapacity then [.accepted l.pool.nextTask]
      else [.refused .saturated] := by
  simp only [shows, WorkerPool.submit_open hclosed, hb.freeSlots_eq_zero_iff]
  by_cases hlt : l.pool.unfinished < max c.poolSize 1 + c.queueCapacity
  · simp only [hlt, not_true_eq_false, if_true, if_false]
  · simp only [hlt, not_false_eq_true, if_true, if_false]

theorem after_append (l : PoolLife) (as bs : List PoolAction) :
    l.after (as ++ bs) = (l.after as).after bs := by
  induction as generalizing l with
  | nil => rfl
  | cons a as ih => exact ih (l.next a)

theorem balanced_after (hb : l.pool.Balanced c) (acts : List PoolAction) :
    (l.after acts).pool.Balanced c := by
  induction acts generalizing l with
  | nil => exact hb
  | cons a acts ih => exact ih (pool_next l a ▸ hb.act a)

theorem Told.after (hb : l.pool.Balanced c) (h : l.Told n seen) (acts : List PoolAction) :
    (l.after acts).Told n (seen ++ sightsOf n (l.trace acts)) := by
  induction acts generalizing l seen with
  | nil => exact (List.append_nil seen).symm ▸ h
  | cons a acts ih =>
    have := ih (pool_next l a ▸ hb.act a) (h.next hb a)
    rwa [List.append_assoc, sightsOf, sightsOf, ← List.filter_append] at this

theorem closed_after (l : PoolLife) (acts : List PoolAction) :
    (l.after acts).pool.closed = true ↔ l.pool.closed = true ∨ .shutdown ∈ acts := by
  induction acts generalizing l with
  | nil => simp [after]
  | cons a acts ih =>
    simp only [after, ih, closed_next, Bool.or_eq_true, beq_iff_eq, List.mem_cons]
    rw [or_assoc, eq_comm (a := a)]

/-- A pool in the course of whose life some actions happened. -/
def lived (c : PoolConfig) (acts : List PoolAction) : PoolLife := (ofConfig c).after acts

/-- What was seen of it. -/
def history (c : PoolConfig) (acts : List PoolAction) : List PoolSight := (ofConfig c).trace acts

theorem balanced_lived (c : PoolConfig) (acts : List PoolAction) :
    (lived c acts).pool.Balanced c :=
  balanced_after (WorkerPool.balanced_ofConfig c) acts

theorem closed_lived (c : PoolConfig) (acts : List PoolAction) :
    (lived c acts).pool.closed = true ↔ .shutdown ∈ acts :=
  (closed_after _ acts).trans (or_iff_right Bool.false_ne_true)

theorem open_lived {acts : List PoolAction} (h : .shutdown ∉ acts) :
    (lived c acts).pool.closed = false :=
  Bool.eq_false_iff.2 (mt (closed_lived c acts).1 h)

end PoolLife

open PoolLife

/-! ## The accounts of a pool -/

end DueWork

/-
  Which tasks of a pool are about to leave, and which numbers they have.

  * `Fresh`: the next number is above those of all tasks;
  * `submit_ok` and `submit_error`: what the answers to a submission mean;
  * `leaving_start`, `leaving_releaseWorker`, `leaving_releaseSlot`: only
    giving back a worker has a task leave.
-/
import Mathlib.Data.List.Basic
import DueWork.Pool.WorkerPool

namespace DueWork.WorkerPool

variable {p p' : WorkerPool} {n t : Nat} {st : TaskStage}

/-- A task has given back its worker, and not its slot. -/
def IsLeaving (p : WorkerPool) (n : Nat) : Prop := (n, .leaving) ∈ p.tasks

/-- No task has the number of the next one. -/
def Fresh (p : WorkerPool) : Prop := ∀ e ∈ p.tasks, e.1 < p.nextTask

theorem mem_of_stage? (h : p.stage? n = some st) : (n, st) ∈ p.tasks := by
  obtain ⟨l₁, l₂, heq, -⟩ := List.lookup_eq_some_iff.1 h
  rw [heq]; simp

theorem mem_setStage {e : Nat × TaskStage} (h : e ∈ (p.setStage t st).tasks) :
    ∃ old, (e.1, old) ∈ p.tasks ∧ e.2 = if e.1 = t then st else old := by
  simp only [setStage, List.mem_map, Prod.exists] at h
  obtain ⟨m, old, hmem, rfl⟩ := h
  exact ⟨old, hmem, rfl⟩

theorem Fresh.setStage (h : p.Fresh) : (p.setStage t st).Fresh := by
  intro e he
  obtain ⟨old, hmem, -⟩ := mem_setStage he
  exact h (e.1, old) hmem

theorem leaving_setStage (hst : st ≠ .leaving) (h : (p.setStage t st).IsLeaving n) :
    p.IsLeaving n := by
  obtain ⟨old, hmem, heq⟩ := mem_setStage h
  by_cases hn : n = t
  · exact absurd (by simpa [hn] using heq.symm) hst
  · simp only [hn, if_false] at heq
    rw [IsLeaving, heq]; exact hmem

/-! ## Steps of a task -/

theorem Fresh.start (h : p.Fresh) : (p.start t).Fresh := by
  unfold WorkerPool.start; split
  · exact Fresh.setStage h
  · exact h

theorem leaving_start (h : (p.start t).IsLeaving n) : p.IsLeaving n := by
  unfold start at h; split at h
  · exact leaving_setStage (by decide) h
  · exact h

theorem Fresh.releaseWorker (h : p.Fresh) : (p.releaseWorker t).Fresh := by
  unfold WorkerPool.releaseWorker; split
  · exact Fresh.setStage h
  · exact h

theorem leaving_releaseWorker (h : (p.releaseWorker t).IsLeaving n) : n = t ∨ p.IsLeaving n := by
  unfold releaseWorker at h; split at h
  · obtain ⟨old, hmem, heq⟩ := mem_setStage h
    by_cases hn : n = t
    · exact .inl hn
    · simp only [hn, if_false] at heq
      exact .inr (by rw [IsLeaving, heq]; exact hmem)
  · exact .inr h

theorem Fresh.releaseSlot (h : p.Fresh) : (p.releaseSlot t).Fresh := by
  unfold WorkerPool.releaseSlot; split
  · exact Fresh.setStage h
  · exact h

theorem leaving_releaseSlot (h : (p.releaseSlot t).IsLeaving n) : p.IsLeaving n := by
  unfold releaseSlot at h; split at h
  · exact leaving_setStage (by decide) h
  · exact h

theorem nextTask_start (p : WorkerPool) (t : Nat) : (p.start t).nextTask = p.nextTask := by
  unfold start; split <;> rfl

theorem nextTask_releaseWorker (p : WorkerPool) (t : Nat) :
    (p.releaseWorker t).nextTask = p.nextTask := by
  unfold releaseWorker; split <;> rfl

theorem nextTask_releaseSlot (p : WorkerPool) (t : Nat) :
    (p.releaseSlot t).nextTask = p.nextTask := by
  unfold releaseSlot; split <;> rfl

/-! ## Submissions -/

theorem Fresh.reap (h : p.Fresh) : p.reap.Fresh := fun e he => h e (List.mem_filter.1 he).1

theorem submit_closed (h : p.closed = true) : p.submit = (.error .closed, p) := by
  simp [submit, h]

/-- An open pool refuses a task only because it is full; what has ended is
    forgotten all the same. -/
theorem submit_error {e : SubmitError} (h : p.submit = (.error e, p')) (hopen : p.closed = false) :
    e = .saturated ∧ p' = p.reap := by
  simp only [submit, hopen, Bool.false_eq_true, if_false] at h
  split at h
  · cases h; exact ⟨rfl, rfl⟩
  · cases h

theorem nextTask_of_error {e : SubmitError} (h : p.submit = (.error e, p')) :
    p'.nextTask = p.nextTask := by
  unfold submit at h
  split at h
  · cases h; rfl
  · simp only at h
    split at h
    · cases h; rfl
    · cases h

/-- An accepted task gets the next number and waits. -/
theorem submit_ok (h : p.submit = (.ok n, p')) :
    p.closed = false ∧ n = p.nextTask ∧ p'.tasks = p.reap.tasks ++ [(n, .waiting)] ∧
      p'.nextTask = n + 1 ∧ p'.closed = false := by
  unfold submit at h
  split at h
  · cases h
  · rename_i hopen
    simp only [Bool.not_eq_true] at hopen
    simp only at h
    split at h
    · cases h
    · cases h; exact ⟨hopen, rfl, rfl, rfl, hopen⟩

theorem Fresh.submit (h : p.Fresh) (hs : p.submit = (.ok n, p')) : p'.Fresh := by
  obtain ⟨-, rfl, htasks, hnext, -⟩ := submit_ok hs
  intro e he
  rw [htasks, List.mem_append, List.mem_singleton] at he
  rw [hnext]
  rcases he with he | rfl
  · exact Nat.lt_succ_of_lt (h.reap e he)
  · exact Nat.lt_succ_self _

theorem leaving_submit (hs : p.submit = (.ok t, p')) (h : p'.IsLeaving n) : p.IsLeaving n := by
  obtain ⟨-, -, htasks, -⟩ := submit_ok hs
  rw [IsLeaving, htasks, List.mem_append, List.mem_singleton] at h
  rcases h with h | h
  · exact (List.mem_filter.1 h).1
  · cases h

theorem leaving_reap (h : p.reap.IsLeaving n) : p.IsLeaving n := (List.mem_filter.1 h).1

theorem not_leaving_nextTask (h : p.Fresh) : ¬ p.IsLeaving p.nextTask :=
  fun hl => Nat.lt_irrefl _ (h _ hl)

end DueWork.WorkerPool

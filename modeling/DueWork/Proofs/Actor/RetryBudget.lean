/-
  The retry budget of an instance.

  The failure count of an instance is stored with it, read with a fetched copy,
  and written back by the commit of the outcome.  `WithinBudget` ties it to the
  number of times that the instance was handed to the processor, so no run of
  cycles hands it over more than `maxRetries + 1` times.
-/
import DueWork.Proofs.Actor.Attempts

namespace DueWork

open Time

theorem toNat_nextCount {n : UInt32} (h : n.toNat + 1 < Nat.pow 2 32) :
    (Duration.nextCount n).toNat = n.toNat + 1 := by
  rw [Duration.nextCount, if_pos h, UInt32.toNat_add]
  exact Nat.mod_eq_of_lt h

/-- An instance that stands so was handed over no more often than its failure
    count and the budget say. -/
def WithinBudget (max : Nat) : Option Standing → Nat → Prop
  | none, n => n = 0
  | some r, n =>
    match r.state with
    | .new => n = 0 ∧ r.failures = 0
    | .deferred => r.failures.toNat = n ∧ n ≤ max
    | .running => r.failures.toNat + 1 = n ∧ n ≤ max + 1
    | .done | .failed | .dropped => n ≤ max + 1

theorem WithinBudget.le {max n : Nat} {o : Option Standing} (h : WithinBudget max o n) :
    n ≤ max + 1 := by
  unfold WithinBudget at h
  split at h
  · omega
  · split at h <;> omega

theorem WithinBudget.advance {A : Outcome → Prop} {policy : RetryPolicy} {o o' : Option Standing}
    {n c : Nat} (hmax : policy.maxRetries.toNat < Nat.pow 2 32 - 1)
    (h : WithinBudget policy.maxRetries.toNat o n) (ha : Advance A policy o o' c) :
    WithinBudget policy.maxRetries.toNat o' (n + c) := by
  cases ha with
  | stays => exact h
  | born hstate hfailures =>
    have hzero : n = 0 := h
    simp [WithinBudget, hstate, hfailures, hzero]
  | @handed r hclaimable =>
    simp only [WithinBudget] at h ⊢
    cases hstate : r.state with
    | new =>
      rw [hstate] at h
      obtain ⟨rfl, hfailures⟩ := h
      simp [hfailures]
    | deferred =>
      rw [hstate] at h
      obtain ⟨rfl, hle⟩ := h
      exact ⟨rfl, by omega⟩
    | _ =>
      rw [hstate] at hclaimable
      cases hclaimable
  | @settled r r' o now jitter j hrun ho hj hstate hfailures =>
    simp only [WithinBudget, hrun] at h ⊢
    obtain ⟨hcount, hle⟩ := h
    rcases o.transition_cases policy now jitter j with ht | ht | ⟨ht, -, hcount', hmore⟩
    · rw [hstate, ht]
      exact hle
    · rw [hstate, ht]
      exact hle
    · rw [hcount', Option.getD_some, Job.nextFailureCount, ← hj] at hfailures
      rw [Job.nextFailureCount, ← hj, UInt32.lt_iff_toNat_lt] at hmore
      have hnext : (Duration.nextCount r.failures).toNat = r.failures.toNat + 1 :=
        toNat_nextCount (by omega)
      rw [hnext] at hmore
      rw [hstate, ht]
      exact ⟨by rw [hfailures, hnext]; exact hcount, by omega⟩

namespace Drain

section

variable {σ : Type} [JobStore σ] [StandingStore σ] {k : ActorConfig} {key : Key} {i : Int}
  {d : Drain σ}

/-- The first cycle of an actor, before it starts. -/
structure Fresh (key : Key) (d : Drain σ) : Prop where
  serves : StandingStore.Serves key d.shared.store
  ofKey : d.actor.key = key
  point : d.cycle.point = .start
  handed : d.handed = []

theorem Fresh.tracked {A : Outcome → Prop} (h : d.Fresh key) : d.Tracked A k key i := by
  refine ⟨h.ofKey, ?_⟩
  rw [h.point]
  exact .start h.serves

/-- In a run every instance stays within the budget. -/
theorem withinBudget_run (hmax : k.retry.maxRetries.toNat < Nat.pow 2 32 - 1)
    (htracked : d.Tracked (fun _ => True) k key i) (acts : List Act)
    (h : WithinBudget k.retry.maxRetries.toNat (d.standing? key i) (d.timesHanded i)) :
    WithinBudget k.retry.maxRetries.toNat ((d.run k acts).standing? key i)
      ((d.run k acts).timesHanded i) := by
  induction acts generalizing d with
  | nil => exact h
  | cons a acts ih =>
    obtain ⟨htracked', n, htimes, hadvance⟩ := act_tracked htracked (a := a) (by
      cases a <;> simp [Answers])
    refine ih htracked' ?_
    rw [htimes]
    exact h.advance hmax hadvance

end

end Drain

end DueWork

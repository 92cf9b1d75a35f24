/-
  Drain cycles of one actor, with the instances that they hand to the
  processor.

  A `Drain` is an actor with its cycle, what they work on, and the instances
  that were handed over so far.  In a quiet run nobody else changes the store:
  the clock stands still, a `Processor` answers every call by the calls so
  far, and the rest of the system takes and returns permits as it likes.

  * one lemma for each point says what a step does there (`Stands`);
  * `Granted` says that every wait for a permit ends: an instance that waits is
    claimed then (`claiming_of_granted`).
-/
import DueWork.Proofs.Actor.Cycle

namespace DueWork

open Time Signal

/-- The instance that a cycle hands to the processor on the way from one point
    to the next. -/
def Point.handed? : Point → Point → Option Job
  | .claiming _ _, .processing j _ => some j
  | _, _ => none

/-- The cycle waits for a permit. -/
def Point.isWaiting : Point → Bool
  | .admission _ _ _ | .suspended _ _ _ => true
  | _ => false

/-- An actor and its cycle, with what they work on. -/
structure Drain (σ : Type) where
  shared : Shared σ
  actor : Actor
  cycle : Cycle := {}
  /-- the instances that were handed to the processor, in order -/
  handed : List Job := []

/-- How the processor ends a call, by all calls so far, and the random part of
    the delay that may follow. -/
abbrev Processor := List Job → Processing × UInt64

/-- What the rest of the system decides before a step. -/
structure Around where
  pool : WorkerPool
  events : Broadcast Event := {}
  delayOver : Bool := true
  took : Duration := .zero

namespace Drain

/-- Every wait for a permit ends. -/
def Granted {σ : Type} (run : Nat → Drain σ) : Prop :=
  ∀ n, ∃ m, n ≤ m ∧ (run m).cycle.point.isWaiting = false

/-- Where a cycle of an actor that is not stopped stands. -/
structure Stands {σ : Type} (key : Key) (d : Drain σ) (store : σ) (handed : List Job) (point : Point)
    (report : Report) : Prop where
  store : d.shared.store = store
  handed : d.handed = handed
  point : d.cycle.point = point
  report : d.cycle.report = report
  key : d.actor.key = key
  notStopped : d.actor.stopRequested = false

/-- A run comes to where the cycle stands so. -/
def Passes {σ : Type} (run : Nat → Drain σ) (key : Key) (store : σ) (handed : List Job)
    (point : Point) (report : Report) : Prop :=
  ∃ n, (run n).Stands key store handed point report

/-- The cycle waits for a permit for an instance. -/
def Awaits {σ : Type} (key : Key) (d : Drain σ) (s : σ) (h : List Job) (j : Job) (b : Batch)
    (r : Report) :
    Prop :=
  ∃ attempt, d.Stands key s h (.admission j b attempt) r ∨
    d.Stands key s h (.suspended j b attempt) r

theorem Awaits.isWaiting {σ : Type} {key : Key} {d : Drain σ} {s : σ} {h : List Job} {j : Job}
    {b : Batch} {r : Report} (hd : d.Awaits key s h j b r) : d.cycle.point.isWaiting = true := by
  obtain ⟨attempt, hd | hd⟩ := hd <;> rw [hd.point] <;> rfl

section

variable {σ : Type} [JobStore σ]

/-- One step of the cycle. -/
def step (k : ActorConfig) (m : Moment) (d : Drain σ) : Drain σ :=
  let (s, a, c) := d.cycle.step k m d.shared d.actor
  ⟨s, a, c, d.handed ++ (d.cycle.point.handed? c.point).toList⟩

/-- One step while the clock shows `now` and nobody else changes the store. -/
def quietStep (k : ActorConfig) (P : Processor) (now : Instant) (e : Around) (d : Drain σ) :
    Drain σ :=
  step k { now := now, processing := (P d.handed).1, jitter := (P d.handed).2,
           delayOver := e.delayOver, took := e.took }
    { d with shared := { d.shared with pool := e.pool, events := e.events } }

/-- The cycle after a number of such steps. -/
def quietRun (k : ActorConfig) (P : Processor) (now : Instant) (e : Nat → Around) (d : Drain σ) :
    Nat → Drain σ
  | 0 => d
  | n + 1 => (quietRun k P now e d n).quietStep k P now (e n)

end

end Drain

/-! ## Outcomes -/

namespace Outcome

/-- What an outcome makes of an instance: it is finished, or deferred to some
    time while there are retries left. -/
theorem transition_cases (o : Outcome) (policy : RetryPolicy) (now : Instant) (jitter : UInt64)
    (j : Job) :
    (o.transition policy now jitter j).state = .done ∨
    (o.transition policy now jitter j).state = .failed ∨
    (o.transition policy now jitter j).state = .deferred ∧
      (∃ due, (o.transition policy now jitter j).dueAt = some due) ∧
      (o.transition policy now jitter j).failureCount = some j.nextFailureCount ∧
      ¬policy.maxRetries < j.nextFailureCount := by
  cases o with
  | done result => exact .inl rfl
  | failed reason => exact .inr (.inl rfl)
  | retry reason notBefore =>
    simp only [transition]
    split
    case isTrue => exact .inr (.inl rfl)
    case isFalse h => exact .inr (.inr ⟨rfl, ⟨_, rfl⟩, rfl, h⟩)

theorem requireOutcome_transition (o : Outcome) {policy : RetryPolicy} {now : Instant}
    {jitter : UInt64} {j : Job} :
    Store.requireOutcome (o.transition policy now jitter j) = .ok () := by
  rcases o.transition_cases policy now jitter j with hs | hs | ⟨hs, -⟩ <;>
    simp only [Store.requireOutcome, hs] <;> rfl

end Outcome

/-! ## Actors -/

namespace Actor

@[simp] theorem key_setState (a : Actor) (st : RunState) : (a.setState st).key = a.key := by
  unfold setState; split <;> rfl

@[simp] theorem stopRequested_setState (a : Actor) (st : RunState) :
    (a.setState st).stopRequested = a.stopRequested := by
  unfold setState; split <;> rfl

@[simp] theorem key_count (a : Actor) (f : Metrics → Metrics) : (a.count f).key = a.key := rfl

@[simp] theorem stopRequested_count (a : Actor) (f : Metrics → Metrics) :
    (a.count f).stopRequested = a.stopRequested := rfl

end Actor

namespace Drain

section Steps

variable {σ : Type} [JobStore σ] {key : Key} {k : ActorConfig} {P : Processor} {now : Instant}
  {e : Around} {d : Drain σ} {s : σ} {h : List Job} {r : Report} {j : Job} {b : Batch}

/-- A step to another point with the store and the handed instances that
    follow. -/
theorem Stands.quietStep {p p' : Point} {s' : σ} {h' : List Job} {r' : Report}
    (hd : d.Stands key s h p r)
    (hstep : ∀ a : Actor, a.key = key → a.stopRequested = false →
      let m : Moment := { now := now, processing := (P h).1, jitter := (P h).2,
                          delayOver := e.delayOver, took := e.took }
      let x := Cycle.step k m ⟨s, e.pool, e.events⟩ a ⟨p, r⟩
      x.1.store = s' ∧ x.2.1.key = key ∧ x.2.1.stopRequested = false ∧ x.2.2 = ⟨p', r'⟩)
    (hh : h' = h ++ (p.handed? p').toList) :
    (d.quietStep k P now e).Stands key s' h' p' r' := by
  obtain ⟨⟨store, pool, events⟩, a, ⟨point, report⟩, handed⟩ := d
  obtain ⟨rfl, rfl, rfl, rfl, hkey, hstop⟩ := hd
  obtain ⟨hs, hk, hn, hc⟩ := hstep a hkey hstop
  refine ⟨hs, ?_, congrArg Cycle.point hc, congrArg Cycle.report hc, hk, hn⟩
  subst hh
  exact congrArg (fun c : Cycle => handed ++ (point.handed? c.point).toList) hc

theorem Passes.next {e : Nat → Around} {p p' : Point} {s' : σ} {h' : List Job} {r' : Report}
    (hd : Passes (quietRun k P now e d) key s h p r)
    (hstep : ∀ {d : Drain σ} {e : Around}, d.Stands key s h p r →
      (d.quietStep k P now e).Stands key s' h' p' r') :
    Passes (quietRun k P now e d) key s' h' p' r' := by
  obtain ⟨n, hn⟩ := hd
  exact ⟨n + 1, hstep hn⟩

theorem stands_start (hd : d.Stands key s h .start r) :
    (d.quietStep k P now e).Stands key s h .checking r := by
  refine hd.quietStep (fun a hk hn => ?_) (by simp [Point.handed?])
  simp [Cycle.step, Cycle.enter, hk, hn]

theorem stands_checking (hd : d.Stands key s h .checking r) :
    (d.quietStep k P now e).Stands key s h .fetching r := by
  refine hd.quietStep (fun a hk hn => ?_) (by simp [Point.handed?])
  simp [Cycle.step, hk, hn]

theorem stands_fetching {js : List Job} (hd : d.Stands key s h .fetching r)
    (hjs : JobStore.fetchReady s key now (max k.batchSize 1) = .ok js) :
    (d.quietStep k P now e).Stands key s h
      (.picking ⟨js, !decide (js.length < max k.batchSize 1)⟩)
      { r with fetched := r.fetched + js.length } := by
  refine hd.quietStep (fun a hk hn => ?_) (by simp [Point.handed?])
  simp [Cycle.step, Cycle.fetch, Cycle.answered, hk, hn, hjs]

theorem stands_picking_cons {js : List Job} {full : Bool}
    (hd : d.Stands key s h (.picking ⟨j :: js, full⟩) r) :
    (d.quietStep k P now e).Stands key s h (.admission j ⟨js, full⟩ 0) r := by
  refine hd.quietStep (fun a hk hn => ?_) (by simp [Point.handed?])
  simp [Cycle.step, Cycle.pick, hk, hn]

theorem stands_picking_full (hd : d.Stands key s h (.picking ⟨[], true⟩) r) :
    (d.quietStep k P now e).Stands key s h .checking r := by
  refine hd.quietStep (fun a hk hn => ?_) (by simp [Point.handed?])
  simp [Cycle.step, Cycle.pick, hk, hn]

theorem stands_picking_last (hd : d.Stands key s h (.picking ⟨[], false⟩) r) :
    (d.quietStep k P now e).Stands key s h .closing r := by
  refine hd.quietStep (fun a hk hn => ?_) (by simp [Point.handed?])
  simp [Cycle.step, Cycle.pick, Cycle.close, hk, hn]

/-- A cycle that waits goes on to claim or waits on. -/
theorem awaits_step (hd : d.Awaits key s h j b r) :
    (d.quietStep k P now e).Stands key s h (.claiming j b) r ∨
      (d.quietStep k P now e).Awaits key s h j b r := by
  obtain ⟨attempt, hd | hd⟩ := hd
  · by_cases hfree : e.pool.acquire.1 = true
    · left
      refine hd.quietStep (fun a hk hn => ?_) (by simp [Point.handed?])
      have hacq : e.pool.acquire = (true, e.pool.acquire.2) := by rw [← hfree]
      simp only [Cycle.step, Cycle.ask]
      rw [hacq]
      simp only
      split <;> simp [hk, hn]
    · right
      refine ⟨attempt, .inr (hd.quietStep (fun a hk hn => ?_) (by simp [Point.handed?]))⟩
      have hacq : e.pool.acquire = (false, e.pool.acquire.2) := by
        rw [Bool.not_eq_true] at hfree
        rw [← hfree]
      simp only [Cycle.step, Cycle.ask]
      rw [hacq]
      simp only
      split <;> simp [hk, hn]
  · right
    by_cases hover : e.delayOver = true
    · refine ⟨Duration.nextCount attempt,
        .inl (hd.quietStep (fun a hk hn => ?_) (by simp [Point.handed?]))⟩
      simp [Cycle.step, Cycle.wake, hk, hn, hover]
    · refine ⟨attempt, .inr (hd.quietStep (fun a hk hn => ?_) (by simp [Point.handed?]))⟩
      simp [Cycle.step, Cycle.wake, hk, hn, hover]

/-- A cycle that waits claims the instance in the end, when permits are granted. -/
theorem claiming_of_granted {e : Nat → Around} {n : Nat}
    (hgrant : Granted (quietRun k P now e d))
    (hwait : (quietRun k P now e d n).Awaits key s h j b r) :
    Passes (quietRun k P now e d) key s h (.claiming j b) r := by
  obtain ⟨m, hnm, hm⟩ := hgrant n
  obtain ⟨t, rfl⟩ := Nat.exists_eq_add_of_le hnm
  induction t generalizing n with
  | zero =>
    rw [Nat.add_zero, hwait.isWaiting] at hm
    cases hm
  | succ t ih =>
    have hnext : (quietRun k P now e d (n + 1)).Stands key s h (.claiming j b) r ∨
        (quietRun k P now e d (n + 1)).Awaits key s h j b r := awaits_step hwait
    rcases hnext with hstands | hwait'
    · exact ⟨n + 1, hstands⟩
    · exact ih (n := n + 1) hwait' (by omega) (by rwa [Nat.add_right_comm])

/-- Where a permit is always free, every wait ends. -/
theorem granted_of_free {e : Nat → Around} (hfree : ∀ n, (e n).pool.freePermits ≠ 0)
    (hover : ∀ n, (e n).delayOver = true) : Granted (quietRun k P now e d) := by
  have hask (n : Nat) {j : Job} {b : Batch} {attempt : UInt32}
      (hp : (quietRun k P now e d n).cycle.point = .admission j b attempt) :
      (quietRun k P now e d (n + 1)).cycle.point = .claiming j b := by
    simp only [quietRun, quietStep, step, Cycle.step, hp, Cycle.ask, WorkerPool.acquire,
      if_neg (hfree n)]
  intro n
  cases hp : (quietRun k P now e d n).cycle.point with
  | admission j b attempt => exact ⟨n + 1, by omega, by rw [hask n hp]; rfl⟩
  | suspended j b attempt =>
    have hwake : (quietRun k P now e d (n + 1)).cycle.point =
        .admission j b (Duration.nextCount attempt) := by
      simp only [quietRun, quietStep, step, Cycle.step, hp, Cycle.wake, hover n, if_true]
    exact ⟨n + 2, by omega, by rw [hask (n + 1) hwake]; rfl⟩
  | _ => exact ⟨n, Nat.le_refl n, by rw [hp]; rfl⟩

theorem stands_claiming {s' : σ} (hd : d.Stands key s h (.claiming j b) r)
    (hclaim : JobStore.claim s key j.id j.state now = (.ok true, s')) :
    (d.quietStep k P now e).Stands key s' (h ++ [{ j with state := .running }])
      (.processing { j with state := .running } b) { r with claimed := r.claimed + 1 } := by
  refine hd.quietStep (fun a hk hn => ?_) (by simp [Point.handed?])
  simp [Cycle.step, Cycle.claim, Cycle.called, Cycle.answered, Cycle.countClaimed, hk, hn, hclaim]

/-- The transition of an instance after the call that ends a list of calls. -/
def verdict (k : ActorConfig) (P : Processor) (now : Instant) (h : List Job) (j : Job) :
    Transition :=
  ((P h).1.outcome k.processorTimeout).transition k.retry now (P h).2 j

theorem stands_processing (hd : d.Stands key s h (.processing j b) r) :
    (d.quietStep k P now e).Stands key s h (.committing j (verdict k P now h j) b) r := by
  refine hd.quietStep (fun a hk hn => ?_) (by simp [Point.handed?])
  simp [Cycle.step, Cycle.settle, hk, hn, verdict]

/-- A report that counts a committed instance. -/
def counted (r : Report) : State → Report
  | .done => { r with done := r.done + 1 }
  | .deferred => { r with deferred := r.deferred + 1 }
  | .failed => { r with failed := r.failed + 1 }
  | _ => r

theorem stands_committing {s' : σ} {t : Transition} (hd : d.Stands key s h (.committing j t b) r)
    (hcommit : JobStore.commit s key j.id t now = (.ok (), s')) :
    (d.quietStep k P now e).Stands key s' h (.picking b) (counted r t.state) := by
  refine hd.quietStep (fun a hk hn => ?_) (by simp [Point.handed?])
  simp only [Cycle.step, Cycle.commit, Cycle.called, Cycle.answered, hk, hcommit, Cycle.goOn]
  cases t.state <;> simp [Cycle.countCommitted, counted, hk, hn]

theorem stands_closing (hd : d.Stands key s h .closing r) :
    (d.quietStep k P now e).Stands key s h .lookingAhead r := by
  refine hd.quietStep (fun a hk hn => ?_) (by simp [Point.handed?])
  simp [Cycle.step, Cycle.check, hk, hn]

theorem stands_lookingAhead {due : Option Instant} (hd : d.Stands key s h .lookingAhead r)
    (hdue : JobStore.nextDue s key = .ok due) :
    (d.quietStep k P now e).Stands key s h (.ended (.ok { r with nextDue := due }))
      { r with nextDue := due } := by
  refine hd.quietStep (fun a hk hn => ?_) (by simp [Point.handed?])
  simp [Cycle.step, Cycle.lookAhead, Cycle.answered, hk, hn, hdue]

end Steps

end Drain

end DueWork

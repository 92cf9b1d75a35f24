/-
  The books of a partition: what a step of a cycle counts, holds, announces and
  ends with.

  * metrics and reports have five numbers in common (`Tally`), and a step adds
    to both what `Cycle.counts` says;
  * the free permits and those that a cycle holds stay the same together;
  * a step publishes the failure that comes to light in it (`Point.fails?`);
  * a step that ends its cycle counts a store error, if there was one, and
    leaves the actor at rest (`Ending`).

  `booked_step` says so for every step.
-/
import DueWork.Proofs.Actor.Edge

namespace DueWork

open Time Signal

/-! ## Numbers -/

/-- What metrics and reports count alike. -/
@[ext] structure Tally where
  claimed : Nat := 0
  lostClaims : Nat := 0
  done : Nat := 0
  failed : Nat := 0
  deferred : Nat := 0
deriving DecidableEq, Repr

namespace Tally

instance : Add Tally where
  add a b := ⟨a.claimed + b.claimed, a.lostClaims + b.lostClaims, a.done + b.done,
    a.failed + b.failed, a.deferred + b.deferred⟩

theorem failed_add (a b : Tally) : (a + b).failed = a.failed + b.failed := rfl

theorem add_assoc (a b c : Tally) : a + b + c = a + (b + c) := by
  ext <;> exact Nat.add_assoc ..

/-- What a commit to a state counts. -/
def ofState : State → Tally
  | .done => { done := 1 }
  | .deferred => { deferred := 1 }
  | .failed => { failed := 1 }
  | _ => {}

end Tally

def Metrics.tally (m : Metrics) : Tally := ⟨m.claimed, m.lostClaims, m.done, m.failed, m.deferred⟩

def Report.tally (r : Report) : Tally := ⟨r.claimed, r.lostClaims, r.done, r.failed, r.deferred⟩

namespace Actor

@[simp] theorem metrics_setState (a : Actor) (st : RunState) :
    (a.setState st).metrics = a.metrics := by
  unfold setState; split <;> rfl

theorem state_setState (a : Actor) (st : RunState) :
    (a.setState st).state = if a.state = .stopped then .stopped else st := by
  unfold setState
  split
  case isTrue h => exact h
  case isFalse => rfl

/-- A change that counts neither instances nor store errors. -/
structure Uncounted (a a' : Actor) : Prop where
  tally : a'.metrics.tally = a.metrics.tally
  storeErrors : a'.metrics.storeErrors = a.metrics.storeErrors

theorem Uncounted.of_metrics {a a' : Actor} (h : a'.metrics = a.metrics) : a.Uncounted a' :=
  ⟨by rw [h], by rw [h]⟩

theorem uncounted_setState (a : Actor) (st : RunState) : a.Uncounted (a.setState st) :=
  .of_metrics (a.metrics_setState st)

end Actor

/-! ## Failures and permits -/

/-- An instance fails for good. -/
structure JobFailure where
  id : Int
  failureCount : UInt32
  error : String
deriving DecidableEq, Repr

/-- The announcement of a failure in a partition. -/
def JobFailure.event (partition : String) (f : JobFailure) : Event :=
  .instanceFailed partition f.id f.failureCount f.error

namespace Point

/-- The failure that comes to light in a step from this point. -/
def fails? (k : ActorConfig) (m : Moment) : Point → Option JobFailure
  | .processing j _ => ((m.processing.outcome k.processorTimeout).failure? k.retry j).map fun e =>
      ⟨j.id, j.nextFailureCount, e⟩
  | _ => none

/-- The permits that a cycle holds at a point. -/
def permits (p : Point) : Int := if p.holdsPermit then 1 else 0

theorem permits_of_isFinal {p : Point} (h : p.isFinal = true) : p.permits = 0 := by
  cases p <;> first | rfl | cases h

/-- A cycle at this point has begun and not returned. -/
def isMidway : Point → Bool
  | start | ended _ => false
  | _ => true

end Point

namespace Cycle

variable {σ : Type} {k : ActorConfig} {m : Moment} {s : Shared σ} {a : Actor} {c : Cycle}
  {u : Tally}

/-- The ways in which a step ends its cycle or goes on. -/
inductive Ending (a : Actor) (c : Cycle) : Next σ → Prop
  /-- with an error, which is counted -/
  | failed {s' : Shared σ} {a' : Actor} {c' : Cycle} {e : CycleError}
    (hp : c'.point = .ended (.error e))
    (herrors : a'.metrics.storeErrors = a.metrics.storeErrors + 1)
    (hstate : a'.state = if a.state = .stopped then .stopped else .idle) : Ending a c (s', a', c')
  /-- with the report -/
  | returned {s' : Shared σ} {a' : Actor} {c' : Cycle} {r : Report}
    (hp : c'.point = .ended (.ok r)) (hclaimed : c.point.claimed? = none)
    (hr : r.tally = c'.report.tally ∨ c.point = .start ∧ r.tally = {} ∧ c'.report = c.report)
    (herrors : a'.metrics.storeErrors = a.metrics.storeErrors) : Ending a c (s', a', c')
  | goesOn {s' : Shared σ} {a' : Actor} {c' : Cycle} (hp : c'.point.isMidway = true)
    (herrors : a'.metrics.storeErrors = a.metrics.storeErrors) : Ending a c (s', a', c')

/-- What a step books, if it counts `u`. -/
structure Booked (k : ActorConfig) (m : Moment) (s : Shared σ) (a : Actor) (c : Cycle) (u : Tally)
    (next : Next σ) : Prop where
  metrics : next.2.1.metrics.tally = a.metrics.tally + u
  report : next.2.2.report.tally = c.report.tally + u
  permits : (next.1.pool.freePermits : Int) + next.2.2.point.permits =
    s.pool.freePermits + c.point.permits
  events : next.1.events =
    ((c.point.fails? k m).toList.map (·.event a.key.name)).foldl Broadcast.publish s.events
  ending : c.point.isFinal = false → Ending a c next

/-- A step that only changes the actor and the point. -/
theorem booked_plain {a' : Actor} {c' : Cycle} (ha : a.Uncounted a')
    (hreport : c'.report.tally = c.report.tally) (hpermits : c'.point.permits = c.point.permits)
    (hfails : c.point.fails? k m = none)
    (hending : c.point.isFinal = false → Ending a c (s, a', c')) :
    Booked k m s a c {} (s, a', c') where
  metrics := ha.tally
  report := hreport
  permits := by rw [hpermits]
  events := by rw [hfails]; rfl
  ending := hending

theorem booked_midway {a' : Actor} {c' : Cycle} (ha : a.Uncounted a')
    (hreport : c'.report.tally = c.report.tally) (hpermits : c'.point.permits = c.point.permits)
    (hfails : c.point.fails? k m = none) (hp : c'.point.isMidway = true) :
    Booked k m s a c {} (s, a', c') :=
  booked_plain ha hreport hpermits hfails fun _ => .goesOn hp ha.storeErrors

theorem booked_close (hpermits : c.point.permits = 0) (hfails : c.point.fails? k m = none) :
    Booked k m s a c {} (close m s a c) :=
  booked_midway ⟨rfl, rfl⟩ rfl hpermits.symm hfails rfl

theorem freePermits_releasePermit (s : Shared σ) (p : Point) :
    ((releasePermit s p).pool.freePermits : Int) = s.pool.freePermits + p.permits := by
  unfold releasePermit Point.permits
  split <;> simp [WorkerPool.giveBack]

theorem events_releasePermit (s : Shared σ) (p : Point) : (releasePermit s p).events = s.events := by
  unfold releasePermit
  split <;> rfl

theorem tally_endFailed (e : Error) : (endFailed a c e).1.metrics.tally = a.metrics.tally := by
  rw [endFailed, Actor.metrics_setState]
  rfl

theorem ending_endFailed {a' : Actor} {s' : Shared σ} (e : Error) (hstate : a'.state = a.state)
    (herrors : a'.metrics.storeErrors = a.metrics.storeErrors) :
    Ending a c (s', endFailed a' c e) := by
  refine .failed rfl ?_ ?_
  · simp only [Actor.metrics_setState, Actor.count, herrors]
  · simp only [Actor.state_setState, Actor.count, hstate]

/-- A call that fails ends the cycle, and the permit is given back. -/
theorem booked_cutShort (f : Failure) {store : σ} (hfails : c.point.fails? k m = none) :
    Booked k m s a c {} (cutShort m { s with store := store } a c f) := by
  cases f with
  | error e =>
    refine ⟨(tally_endFailed e).trans rfl, rfl, ?_, ?_, fun _ => ending_endFailed e rfl rfl⟩
    · exact (Int.add_zero _).trans (freePermits_releasePermit _ c.point)
    · rw [hfails]
      exact events_releasePermit _ c.point
  | panic message =>
    refine ⟨rfl, rfl, ?_, ?_, fun _ => .goesOn rfl rfl⟩
    · exact (Int.add_zero _).trans (freePermits_releasePermit _ c.point)
    · rw [hfails]
      exact events_releasePermit _ c.point

/-- An instance is dealt with and counted, and the permit is given back. -/
theorem booked_goOn {store : σ} {a' : Actor} {c' : Cycle} {b : Batch}
    (hmetrics : a'.metrics.tally = a.metrics.tally + u)
    (herrors : a'.metrics.storeErrors = a.metrics.storeErrors)
    (hreport : c'.report.tally = c.report.tally + u) (hp : c'.point = c.point)
    (hfails : c.point.fails? k m = none) :
    Booked k m s a c u (goOn { s with store := store } a' c' b) := by
  refine ⟨hmetrics, hreport, ?_, ?_, fun _ => .goesOn rfl herrors⟩
  · refine (Int.add_zero _).trans ((freePermits_releasePermit _ c'.point).trans ?_)
    rw [hp]
  · rw [hfails]
    exact events_releasePermit _ c'.point

theorem booked_committed {store : σ} {b : Batch} (st : State) (hfails : c.point.fails? k m = none) :
    Booked k m s a c (.ofState st)
      (goOn { s with store := store } (countCommitted a c st).1 (countCommitted a c st).2 b) := by
  cases st <;> exact booked_goOn rfl rfl rfl rfl hfails

variable {j : Job} {b : Batch}

theorem booked_ask {n : UInt32} (hp : c.point = .admission j b n) :
    Booked k m s a c {} (ask s a c j b n) := by
  have hfails : c.point.fails? k m = none := by rw [hp]; rfl
  unfold ask WorkerPool.acquire
  split
  case h_1 pool hacq =>
    split at hacq
    case isTrue => cases hacq
    case isFalse hfree =>
      cases hacq
      have ha : a.Uncounted (if n = 0 then a else a.setState .draining) := by
        split
        · exact ⟨rfl, rfl⟩
        · exact a.uncounted_setState _
      refine ⟨ha.tally, rfl, ?_, by rw [hfails]; rfl, fun _ => .goesOn rfl ha.storeErrors⟩
      simp only [hp, Point.permits, Point.holdsPermit, Bool.false_eq_true, if_false, if_true]
      omega
  case h_2 =>
    refine booked_midway ?_ rfl (by rw [hp]; rfl) hfails rfl
    split
    · exact ⟨(a.uncounted_setState .suspended).tally, (a.uncounted_setState .suspended).storeErrors⟩
    · exact ⟨rfl, rfl⟩

theorem booked_settle (hp : c.point = .processing j b) :
    Booked k m s a c {} (settle k m s a c j b) where
  metrics := rfl
  report := rfl
  permits := by rw [hp]; rfl
  events := by
    rw [hp]
    simp only [settle, failureEvents, Point.fails?]
    cases (m.processing.outcome k.processorTimeout).failure? k.retry j <;> rfl
  ending _ := .goesOn rfl rfl

theorem booked_enter (hp : c.point = .start) : Booked k m s a c {} (enter s a c) := by
  have ha (st : RunState) := a.uncounted_setState st
  unfold enter
  split
  · exact booked_plain (ha _) rfl (by rw [hp]; rfl) (by rw [hp]; rfl) fun _ =>
      .returned rfl (by rw [hp]; rfl) (.inr ⟨hp, rfl, rfl⟩) (ha _).storeErrors
  · exact booked_midway (ha _) rfl (by rw [hp]; rfl) (by rw [hp]; rfl) rfl

theorem booked_check (hp : c.point = .closing) : Booked k m s a c {} (check s a c) := by
  unfold check
  split
  · exact booked_plain (a.uncounted_setState _) rfl (by rw [hp]; rfl) (by rw [hp]; rfl) fun _ =>
      .returned rfl (by rw [hp]; rfl) (.inl rfl) (a.uncounted_setState _).storeErrors
  · exact booked_midway ⟨rfl, rfl⟩ rfl (by rw [hp]; rfl) (by rw [hp]; rfl) rfl

variable [JobStore σ]

/-- What the next step counts. -/
def counts (m : Moment) (s : Shared σ) (a : Actor) (c : Cycle) : Tally :=
  match c.point with
  | .claiming j _ =>
    match answered m (if m.claimLost then (.ok false, s.store)
      else JobStore.claim s.store a.key j.id j.state m.now).1 with
    | .ok true => { claimed := 1 }
    | .ok false => { lostClaims := 1 }
    | .error _ => {}
  | .committing j t _ =>
    match answered m (JobStore.commit s.store a.key j.id t m.now).1 with
    | .ok _ => .ofState t.state
    | .error _ => {}
  | _ => {}

theorem booked_claim (hp : c.point = .claiming j b) :
    Booked k m s a c (c.counts m s a) (claim m s a c j b) := by
  have hfails : c.point.fails? k m = none := by rw [hp]; rfl
  obtain ⟨store, hcalled⟩ := called_eq m s (if m.claimLost then (.ok false, s.store)
    else JobStore.claim s.store a.key j.id j.state m.now)
  simp only [counts, hp, claim, hcalled]
  cases answered m (if m.claimLost then (.ok false, s.store)
      else JobStore.claim s.store a.key j.id j.state m.now).1 with
  | error f => exact booked_cutShort f hfails
  | ok won =>
    cases won with
    | false => exact booked_goOn rfl rfl rfl rfl hfails
    | true =>
      refine ⟨rfl, rfl, ?_, by rw [hfails]; rfl, fun _ => .goesOn rfl rfl⟩
      rw [hp]
      rfl

theorem booked_commit {t : Transition} (hp : c.point = .committing j t b) :
    Booked k m s a c (c.counts m s a) (commit m s a c j t b) := by
  have hfails : c.point.fails? k m = none := by rw [hp]; rfl
  obtain ⟨store, hcalled⟩ := called_eq m s (JobStore.commit s.store a.key j.id t m.now)
  simp only [counts, hp, commit, hcalled]
  cases answered m (JobStore.commit s.store a.key j.id t m.now).1 with
  | ok => exact booked_committed t.state hfails
  | error f =>
    dsimp only
    split
    case h_1 heq => cases heq
    case h_2 heq => cases heq; exact booked_goOn rfl rfl rfl rfl hfails
    case h_3 heq => cases heq; exact booked_cutShort _ hfails

theorem booked_lookAhead (hp : c.point = .lookingAhead) :
    Booked k m s a c {} (lookAhead m s a c) := by
  have hfails : c.point.fails? k m = none := by rw [hp]; rfl
  unfold lookAhead
  split
  · exact booked_plain (a.uncounted_setState _) rfl (by rw [hp]; rfl) hfails fun _ =>
      .returned rfl (by rw [hp]; rfl) (.inl rfl) (a.uncounted_setState _).storeErrors
  · refine ⟨(tally_endFailed _).trans rfl, rfl, ?_, by rw [hfails]; rfl,
      fun _ => ending_endFailed _ rfl rfl⟩
    rw [hp]
    rfl
  · exact booked_midway ⟨rfl, rfl⟩ rfl (by rw [hp]; rfl) hfails rfl

/-- What every step books. -/
theorem booked_step (k : ActorConfig) (m : Moment) (s : Shared σ) (a : Actor) (c : Cycle) :
    Booked k m s a c (c.counts m s a) (c.step k m s a) := by
  cases hp : c.point with
  | claiming j b =>
    simp only [step, hp]
    exact booked_claim hp
  | committing j t b =>
    simp only [step, hp]
    exact booked_commit hp
  | start =>
    simp only [step, hp, counts]
    exact booked_enter hp
  | checking =>
    simp only [step, hp, counts]
    split
    · exact booked_close (by rw [hp]; rfl) (by rw [hp]; rfl)
    · exact booked_midway ⟨rfl, rfl⟩ rfl (by rw [hp]; rfl) (by rw [hp]; rfl) rfl
  | fetching =>
    simp only [step, hp, counts, fetch]
    split
    · exact booked_cutShort _ (by rw [hp]; rfl)
    · exact booked_midway ⟨rfl, rfl⟩ rfl (by rw [hp]; rfl) (by rw [hp]; rfl) rfl
  | picking b =>
    simp only [step, hp, counts, pick]
    split <;> split <;> first
      | exact booked_close (by rw [hp]; rfl) (by rw [hp]; rfl)
      | exact booked_midway ⟨rfl, rfl⟩ rfl (by rw [hp]; rfl) (by rw [hp]; rfl) rfl
  | admission j b n =>
    simp only [step, hp, counts]
    exact booked_ask hp
  | suspended j b n =>
    simp only [step, hp, counts, wake]
    split
    · exact booked_midway ⟨rfl, rfl⟩ rfl (by rw [hp]; rfl) (by rw [hp]; rfl) rfl
    · split
      · exact booked_close (by rw [hp]; rfl) (by rw [hp]; rfl)
      · exact booked_midway ⟨rfl, rfl⟩ rfl rfl (by rw [hp]; rfl) (by rw [hp]; rfl)
  | processing j b =>
    simp only [step, hp, counts]
    exact booked_settle hp
  | closing =>
    simp only [step, hp, counts]
    exact booked_check hp
  | lookingAhead =>
    simp only [step, hp, counts]
    exact booked_lookAhead hp
  | ended | panicked =>
    simp only [step, hp, counts]
    exact booked_plain ⟨rfl, rfl⟩ rfl rfl (by rw [hp]; rfl) fun hc => by rw [hp] at hc; cases hc

end Cycle

end DueWork

/-
  The course of an instance that is retried until its budget is spent.

  If every call ends with a retryable failure, the instance goes through the
  stages of one `course`.  An act takes it to the next stage or leaves it where
  it is (`At.act`); a cycle that runs to its end when the instance is due takes
  it two stages further, from claimable to claimable or to failed, because it
  cannot end without having come to the instance (`Point.ComesTo`).
-/
import Mathlib.Data.List.Destutter
import DueWork.Proofs.Actor.RetryBudget
import DueWork.Proofs.Store.Ready

namespace DueWork

open Time

/-- To be tried again. -/
def Outcome.IsRetry (o : Outcome) : Prop := ∃ reason notBefore, o = .retry reason notBefore

/-- The state and the failure count of an instance. -/
def Standing.mark (r : Standing) : State × Nat := (r.state, r.failures.toNat)

/-- The course of an instance that is tried until its retries are used up. -/
def course (max : Nat) : List (State × Nat) :=
  (.new, 0) :: (List.range max).flatMap (fun n => [(.running, n), (.deferred, n + 1)]) ++
    [(.running, max), (.failed, max + 1)]

/-- Its stages, one by one. -/
def stage (max n : Nat) : State × Nat :=
  if n % 2 = 1 then (.running, n / 2)
  else if n = 0 then (.new, 0)
  else if n / 2 ≤ max then (.deferred, n / 2)
  else (.failed, n / 2)

/-- The last stage. -/
def lastStage (max : Nat) : Nat := 2 * (max + 1)

section Stages

variable {max n n' : Nat}

theorem stage_odd (h : n % 2 = 1) : stage max n = (.running, n / 2) := if_pos h

theorem stage_deferred (h : n % 2 = 0) (hzero : n ≠ 0) (hle : n / 2 ≤ max) :
    stage max n = (.deferred, n / 2) := by
  rw [stage, if_neg (by omega), if_neg hzero, if_pos hle]

theorem stage_failed (h : n % 2 = 0) (hlt : max < n / 2) : stage max n = (.failed, n / 2) := by
  rw [stage, if_neg (by omega), if_neg (by omega), if_neg (by omega)]

/-- An instance runs at every other stage. -/
theorem running_stage_iff : (stage max n).1 = .running ↔ n % 2 = 1 := by
  unfold stage
  split
  · simp [*]
  · split
    · simp [*]
    · split <;> simp [*]

/-- Where it does not, it is claimable until the last one. -/
theorem claimable_stage (h : n % 2 = 0) (hlt : n < lastStage max) :
    (stage max n).1 = .new ∨ (stage max n).1 = .deferred := by
  rcases Nat.eq_zero_or_pos n with rfl | hpos
  · exact .inl rfl
  · rw [stage_deferred h (by omega) (by unfold lastStage at hlt; omega)]
    exact .inr rfl

theorem count_stage : (stage max n).2 = n / 2 := by
  unfold stage
  split
  · rfl
  · split
    · omega
    · split <;> rfl

theorem stage_ne_succ : stage max n ≠ stage max (n + 1) := by
  intro he
  have h := congrArg (fun x : State × Nat => x.1 = State.running) he
  simp only [running_stage_iff, eq_iff_iff] at h
  omega

theorem stage_injective (h : stage max n = stage max n') : n = n' := by
  have hrunning := congrArg (fun x : State × Nat => x.1 = State.running) h
  simp only [running_stage_iff, eq_iff_iff] at hrunning
  have hhalf := congrArg Prod.snd h
  rw [count_stage, count_stage] at hhalf
  omega

theorem stages_eq_course : (List.range (lastStage max + 1)).map (stage max) = course max := by
  have hpairs (n : Nat) (hn : n ≤ max) : (List.range (2 * n + 1)).map (stage max) =
      (.new, 0) :: (List.range n).flatMap fun n => [(.running, n), (.deferred, n + 1)] := by
    induction n with
    | zero => rfl
    | succ n ih =>
      rw [show 2 * (n + 1) + 1 = 2 * n + 1 + 1 + 1 by omega, List.range_succ, List.range_succ,
        List.map_append, List.map_append, ih (by omega), List.range_succ, List.flatMap_append]
      simp only [List.map_cons, List.map_nil, List.flatMap_cons, List.flatMap_nil]
      rw [stage_odd (by omega), stage_deferred (by omega) (by omega) (by omega),
        show (2 * n + 1) / 2 = n by omega, show (2 * n + 1 + 1) / 2 = n + 1 by omega]
      simp
  rw [show lastStage max + 1 = 2 * max + 1 + 1 + 1 by unfold lastStage; omega, List.range_succ,
    List.range_succ, List.map_append, List.map_append, hpairs max (Nat.le_refl _)]
  simp only [List.map_cons, List.map_nil]
  rw [stage_odd (by omega), stage_failed (by omega) (by omega),
    show (2 * max + 1) / 2 = max by omega, show (2 * max + 1 + 1) / 2 = max + 1 by omega, course]
  simp

end Stages

/-- A delay does not lead back in time. -/
theorem Time.Instant.le_plus {t : Instant} (h : t ≤ .last) (d : Duration) : t ≤ t.plus d := by
  have hof {s : Int} {n : Nat} (hle : t.seconds < s ∨ t.seconds = s ∧ t.nanos ≤ n) :
      t ≤ (of? s n).getD last := by
    unfold of?
    split
    · exact hle
    · exact h
  have hnanos := t.nanos_lt
  unfold plus plus?
  split
  · exact hof (.inr ⟨rfl, Nat.le_add_right ..⟩)
  case isFalse hleap =>
    simp only [nanosPerSecond] at *
    refine hof ?_
    omega

/-- A deferral to the usual delay is not to a time before the clock. -/
theorem Outcome.le_of_retry {policy : RetryPolicy} {now : Instant} (h : now ≤ .last)
    {jitter : UInt64} {j : Job} {reason : String} {due : Instant}
    (hdue : ((Outcome.retry reason none).transition policy now jitter j).dueAt = some due) :
    now ≤ due := by
  simp only [Outcome.transition] at hdue
  split at hdue
  case isTrue => cases hdue
  case isFalse =>
    cases hdue
    exact Instant.le_plus h _

theorem Outcome.IsRetry.transition {o : Outcome} (h : o.IsRetry) (policy : RetryPolicy)
    (now : Instant) (jitter : UInt64) (j : Job) :
    (o.transition policy now jitter j).state =
      (if policy.maxRetries < j.nextFailureCount then .failed else .deferred) ∧
    (o.transition policy now jitter j).failureCount = some j.nextFailureCount := by
  obtain ⟨reason, notBefore, rfl⟩ := h
  simp only [Outcome.transition]
  split <;> exact ⟨rfl, rfl⟩

/-- What happens to an instance at a stage: nothing, or what leads to the next
    one.  It is handed over on leaving a stage where it is claimable. -/
theorem Advance.stage {policy : RetryPolicy} {r : Standing} {o' : Option Standing} {c n : Nat}
    (hmax : policy.maxRetries.toNat < Nat.pow 2 32 - 1)
    (ha : Advance Outcome.IsRetry policy (some r) o' c)
    (hr : r.mark = stage policy.maxRetries.toNat n) (hn : n ≤ lastStage policy.maxRetries.toNat) :
    o' = some r ∧ c = 0 ∨
    n < lastStage policy.maxRetries.toNat ∧ (n + 1) / 2 + c = (n + 2) / 2 ∧
      ∃ r', o' = some r' ∧ r'.mark = stage policy.maxRetries.toNat (n + 1) := by
  have hstate : r.state = (DueWork.stage policy.maxRetries.toNat n).1 := congrArg Prod.fst hr
  have hcount : r.failures.toNat = n / 2 := (congrArg Prod.snd hr).trans count_stage
  cases ha with
  | stays => exact .inl ⟨rfl, rfl⟩
  | handed hclaimable =>
    right
    have heven : n % 2 = 0 := by
      by_contra hodd
      rw [hstate, running_stage_iff.2 (by omega)] at hclaimable
      cases hclaimable
    have hlt : n < lastStage policy.maxRetries.toNat := by
      by_contra hlast
      unfold lastStage at hn hlast
      rw [hstate, stage_failed heven (by omega)] at hclaimable
      cases hclaimable
    refine ⟨hlt, by omega, _, rfl, ?_⟩
    rw [stage_odd (by omega), Standing.mark, hcount, show (n + 1) / 2 = n / 2 by omega]
  | @settled r r' o now jitter j hrun ho hj hstate' hfailures =>
    right
    have hodd : n % 2 = 1 := running_stage_iff.1 (hstate ▸ hrun)
    unfold lastStage at hn
    have hnext : (Duration.nextCount r.failures).toNat = n / 2 + 1 := by
      rw [toNat_nextCount (by omega), hcount]
    obtain ⟨htarget, hwritten⟩ := ho.transition policy now jitter j
    rw [htarget, Job.nextFailureCount, ← hj] at hstate'
    simp only [UInt32.lt_iff_toNat_lt, hnext] at hstate'
    rw [hwritten, Option.getD_some, Job.nextFailureCount, ← hj] at hfailures
    refine ⟨by unfold lastStage; omega, by omega, r', rfl, ?_⟩
    rw [Standing.mark, hstate', hfailures, hnext, show n / 2 + 1 = (n + 1) / 2 by omega]
    split
    case isTrue hlt => rw [stage_failed (by omega) hlt]
    case isFalse hle => rw [stage_deferred (by omega) (by omega) (by omega)]

/-! ## Steps without failures -/

namespace Point.ComesTo

variable {i : Int} {stop : Bool}

theorem stopped {p : Point} (h : p.ComesTo i stop) : p.ComesTo i true := by
  cases p with
  | closing => rfl
  | ended r => cases r <;> exact h
  | _ => exact h

/-- An instance that is not the one to claim comes later. -/
theorem of_claiming {j : Job} {b : Batch} (h : (Point.claiming j b).ComesTo i stop)
    (hne : j.id ≠ i) : (Point.picking b).ComesTo i stop := by
  rcases h with ⟨j', hj', hid⟩ | h
  · rcases List.mem_cons.1 hj' with rfl | hj'
    · exact absurd hid hne
    · exact .inl ⟨j', hj', hid⟩
  · exact .inr h

end Point.ComesTo

section Edges

variable {σ : Type} [JobStore σ] [StandingStore σ] {A : Outcome → Prop} {k : ActorConfig} {key : Key}
  {i : Int} {s s' : σ} {p p' : Point} {m : Moment} {stop : Bool} {j : Job}

open StandingStore

/-- The commit of an instance in hand takes place. -/
theorem Tracks.not_refused {t : Transition} {b : Batch}
    (ht : Tracks A k key i s (.committing j t b)) (hid : j.id = i) (hfail : m.failure = none) :
    ¬Refused key m s j t s' := by
  subst hid
  intro h
  simp only [Refused, hfail] at h
  obtain ⟨r, hr, hrun, -⟩ := ht.held j rfl rfl
  obtain ⟨o, now, jitter, -, rfl⟩ := ht.decided j t b rfl rfl
  obtain ⟨e, he⟩ := h
  obtain ⟨_, hs'⟩ : ∃ s', JobStore.commit s key j.id _ m.now = (.ok (), s') :=
    commit_running ht.serves hr hrun o.requireOutcome_transition
  cases hs'.symm.trans he

/-- An instance in hand stays so until it no longer runs. -/
theorem Edge.holds (he : Edge k key m stop s p s' p') (ht : Tracks A k key i s p)
    (hfail : m.failure = none) (hj : p.claimed? = some j) (hid : j.id = i) :
    (∃ j', p'.claimed? = some j' ∧ j'.id = i) ∨
      ∀ r, standing? key s' i = some r → r.state ≠ .running := by
  cases he with
  | quiet hp =>
    rw [hp] at hj
    cases hj
  | fetched | lost | won => cases hj
  | cut hp =>
    cases p with
    | processing => cases hp
    | committing =>
      cases hj
      exact absurd hp (ht.not_refused hid hfail)
    | _ => cases hj
  | settled => exact .inl ⟨_, hj, hid⟩
  | @committed s' j' t b _ h =>
    cases hj
    subst hid
    obtain ⟨-, -, hself⟩ := commit_ok ht.serves h
    obtain ⟨r, hr, -⟩ := ht.held j rfl rfl
    obtain ⟨o, now, jitter, -, rfl⟩ := ht.decided j t b rfl rfl
    obtain ⟨r', hr', hstate, -⟩ := hself r hr
    right
    intro r'' hr''
    cases hr'.symm.trans hr''
    rw [hstate]
    rcases o.transition_cases k.retry now jitter j with hs | hs | ⟨hs, -⟩ <;> rw [hs] <;> simp
  | refused h =>
    cases hj
    exact absurd h (ht.not_refused hid hfail)

/-- A claimable instance that is due and does not change is still come to. -/
theorem Edge.comesTo {r : Standing} (he : Edge k key m stop s p s' p') (ht : Tracks A k key i s p)
    (hlost : m.claimLost = false) (hr : standing? key s i = some r)
    (hr' : standing? key s' i = some r) (hclaimable : r.state ≠ .running)
    (hready : key.isReadyState r.state = true) (hdue : r.isDue m.now) (hc : p.ComesTo i stop) :
    p'.ComesTo i stop := by
  cases he with
  | quiet hp hp' hahead hcomes => exact hcomes i hc
  | cut hp hp' hcomes => exact hcomes i
  | @fetched js limit h =>
    by_cases hshort : js.length < limit
    · exact .inl (fetched_short ht.serves h hshort hr hready hdue)
    · exact .inr (by simpa using hshort)
  | @lost s' j b h =>
    have hne : j.id ≠ i := by
      rintro rfl
      obtain ⟨r₀, hr₀, hstate, -⟩ := ht.copies j List.mem_cons_self rfl
      rcases h with ⟨h, -⟩ | h
      · rw [hlost] at h
        cases h
      · exact (claim_lost ht.serves h).2.2 r₀ hr₀ hstate
    exact hc.of_claiming hne
  | @won s' j b h =>
    have hne : j.id ≠ i := by
      rintro rfl
      obtain ⟨-, -, r₀, -, -, -, hr₀⟩ := claim_won ht.serves h
      cases hr₀.symm.trans hr'
      exact hclaimable rfl
    exact hc.of_claiming hne
  | settled | committed | refused => exact hc

end Edges

namespace Drain

/-! ## Runs without failures -/

section

variable {σ : Type} [JobStore σ] [StandingStore σ] {A : Outcome → Prop} {k : ActorConfig} {key : Key}
  {i : Int} {d : Drain σ} {a : Act} {acts : List Act} {n : Nat}

/-- No call fails, no claim is lost, and the processor ends its calls for the
    instance with retryable failures. -/
def Smooth (k : ActorConfig) (i : Int) (d : Drain σ) (a : Act) : Prop :=
  d.Answers Outcome.IsRetry k i a ∧
    ∀ n m, a = .step n m → m.failure = none ∧ m.claimLost = false

/-- The instance is at a stage of its course. -/
structure At (max : Nat) (key : Key) (i : Int) (n : Nat) (d : Drain σ) : Prop where
  stands : ∃ r, d.standing? key i = some r ∧ r.mark = stage max n
  le : n ≤ lastStage max
  times : d.timesHanded i = (n + 1) / 2
  /-- while it runs the cycle has it in hand -/
  held : n % 2 = 1 → ∃ j, d.cycle.point.claimed? = some j ∧ j.id = i

/-- The instance in hand is settled before anything else happens. -/
theorem claimed_act (htracked : d.Tracked A k key i)
    (ha : ∀ n m, a = .step n m → m.failure = none) {j : Job}
    (hj : d.cycle.point.claimed? = some j) (hid : j.id = i) :
    (∃ j', (d.act k a).cycle.point.claimed? = some j' ∧ j'.id = i) ∨
      ∀ r, (d.act k a).standing? key i = some r → r.state ≠ .running := by
  cases a with
  | step n m => exact (htracked.edge n m).holds htracked.tracks (ha n m rfl) hj hid
  | begin =>
    refine .inl ⟨j, ?_, hid⟩
    simp only [act]
    split
    case isTrue hfinal =>
      rw [Point.claimed?_of_isFinal hfinal] at hj
      cases hj
    case isFalse => exact hj
  | _ => exact .inl ⟨j, hj, hid⟩

/-- An act leaves the instance at its stage or takes it to the next one. -/
theorem At.act (hmax : k.retry.maxRetries.toNat < Nat.pow 2 32 - 1)
    (h : d.At k.retry.maxRetries.toNat key i n) (htracked : d.Tracked Outcome.IsRetry k key i)
    (ha : d.Smooth k i a) :
    (d.act k a).At k.retry.maxRetries.toNat key i n ∧
      (d.act k a).standing? key i = d.standing? key i ∨
    (d.act k a).At k.retry.maxRetries.toNat key i (n + 1) := by
  obtain ⟨⟨r, hr, hmark⟩, hle, htimes, hheld⟩ := h
  obtain ⟨-, c, htimes', hadvance⟩ := act_tracked htracked ha.1
  rw [hr] at hadvance
  rcases hadvance.stage hmax hmark hle with ⟨hr', rfl⟩ | ⟨hlt, hc, r', hr', hmark'⟩
  · refine .inl ⟨⟨⟨r, hr', hmark⟩, hle, by omega, fun hodd => ?_⟩, hr'.trans hr.symm⟩
    obtain ⟨j, hj, hid⟩ := hheld hodd
    rcases claimed_act htracked (fun n m he => (ha.2 n m he).1) hj hid with hclaimed | hnot
    · exact hclaimed
    · exact absurd ((congrArg Prod.fst hmark).trans (running_stage_iff.2 hodd)) (hnot r hr')
  · refine .inr ⟨⟨r', hr', hmark'⟩, hlt, by omega, fun hodd => ?_⟩
    exact claimed_of_timesHanded (by omega)

/-- An instance that is due and stays claimable is still come to. -/
theorem comesTo_act {r : Standing} (htracked : d.Tracked A k key i) (hbegin : a ≠ .begin)
    (hstep : ∀ n m, a = .step n m → m.claimLost = false ∧ r.isDue m.now)
    (hr : d.standing? key i = some r) (hr' : (d.act k a).standing? key i = some r)
    (hclaimable : r.state ≠ .running) (hready : key.isReadyState r.state = true)
    (hc : d.cycle.point.ComesTo i d.actor.stopRequested) :
    (d.act k a).cycle.point.ComesTo i (d.act k a).actor.stopRequested := by
  cases a with
  | step n m =>
    obtain ⟨hlost, hdue⟩ := hstep n m rfl
    have hstop : (d.act k (.step n m)).actor.stopRequested = d.actor.stopRequested :=
      (Cycle.step_turned k n m d.shared d.actor d.cycle).stop
    rw [hstop]
    exact (htracked.edge n m).comesTo htracked.tracks hlost hr hr' hclaimable hready hdue hc
  | begin => exact absurd rfl hbegin
  | requestStop => exact hc.stopped
  | insert | around | markStopped => exact hc

/-- A new cycle leaves an instance alone that does not run. -/
theorem At.begin {max : Nat} (h : d.At max key i n) (heven : n % 2 = 0) :
    (d.act k .begin).At max key i n := by
  simp only [Drain.act]
  split
  · exact ⟨h.stands, h.le, h.times, fun hodd => by omega⟩
  · exact h

/-- The acts of one cycle that runs to its end, while the instance is due. -/
structure Completes (k : ActorConfig) (key : Key) (i : Int) (d : Drain σ) (acts : List Act) :
    Prop where
  smooth : Along k (Smooth k i) d acts
  one : Act.begin ∉ acts
  due : ∀ r, d.standing? key i = some r → ∀ n m, Act.step n m ∈ acts → r.isDue m.now
  ended : ∃ r, (d.run k acts).cycle.point = .ended (.ok r) ∧ r.stopped = false

/-- Such cycles, one after the other. -/
def Cycles (k : ActorConfig) (key : Key) (i : Int) (d : Drain σ) : List (List Act) → Prop
  | [] => True
  | acts :: cycles => Completes k key i (d.act k .begin) acts ∧
    Cycles k key i ((d.act k .begin).run k acts) cycles

/-- Until the instance goes on from its stage, it is still come to. -/
theorem comesTo_run (hmax : k.retry.maxRetries.toNat < Nat.pow 2 32 - 1)
    (hnew : key.readyState = .new) {r : Standing} (heven : n % 2 = 0)
    (hr : r.mark = stage k.retry.maxRetries.toNat n)
    (htracked : d.Tracked Outcome.IsRetry k key i) (hsmooth : Along k (Smooth k i) d acts)
    (hone : Act.begin ∉ acts) (hdue : ∀ n m, Act.step n m ∈ acts → r.isDue m.now) {n' : Nat}
    (h : d.At k.retry.maxRetries.toNat key i n') (hn : n ≤ n')
    (hc : n' = n → n < lastStage k.retry.maxRetries.toNat → d.standing? key i = some r ∧
      d.cycle.point.ComesTo i d.actor.stopRequested) :
    ∃ n'', n ≤ n'' ∧ (d.run k acts).At k.retry.maxRetries.toNat key i n'' ∧
      (d.run k acts).Tracked Outcome.IsRetry k key i ∧
      (n'' = n → n < lastStage k.retry.maxRetries.toNat →
        (d.run k acts).cycle.point.ComesTo i (d.run k acts).actor.stopRequested) := by
  induction acts generalizing d n' with
  | nil => exact ⟨n', hn, h, htracked, fun he hlt => (hc he hlt).2⟩
  | cons a acts ih =>
    obtain ⟨ha, hsmooth⟩ := hsmooth
    obtain ⟨htracked', -⟩ := act_tracked htracked ha.1
    have hone' : Act.begin ∉ acts := fun hmem => hone (List.mem_cons_of_mem _ hmem)
    have hdue' : ∀ n m, Act.step n m ∈ acts → r.isDue m.now :=
      fun n m hmem => hdue n m (List.mem_cons_of_mem _ hmem)
    rcases h.act hmax htracked ha with ⟨h', hsame⟩ | h'
    · refine ih htracked' hsmooth hone' hdue' h' hn fun he hlt => ?_
      obtain ⟨hstands, hcomes⟩ := hc he hlt
      refine ⟨hsame.trans hstands, comesTo_act htracked (fun hb => hone (hb ▸ List.mem_cons_self))
        (fun n m hm => ⟨(ha.2 n m hm).2, hdue n m (hm ▸ List.mem_cons_self)⟩) hstands
        (hsame.trans hstands) ?_ ?_ hcomes⟩
      · rw [show r.state = _ from congrArg Prod.fst hr, ne_eq, running_stage_iff]
        omega
      · rw [Key.isReadyState_iff, hnew, show r.state = _ from congrArg Prod.fst hr]
        exact claimable_stage heven hlt
    · exact ih htracked' hsmooth hone' hdue' h' (by omega) (by omega)

/-- A cycle that runs to its end takes the instance to the next stage where it
    does not run, unless there is none. -/
theorem cycle_advances (hmax : k.retry.maxRetries.toNat < Nat.pow 2 32 - 1)
    (hnew : key.readyState = .new) (htracked : d.Tracked Outcome.IsRetry k key i)
    (hstart : d.cycle.point = .start) (h : d.At k.retry.maxRetries.toNat key i n)
    (heven : n % 2 = 0) (hcycle : Completes k key i d acts) :
    ∃ n', n' % 2 = 0 ∧ min (n + 2) (lastStage k.retry.maxRetries.toNat) ≤ n' ∧
      (d.run k acts).At k.retry.maxRetries.toNat key i n' ∧
      (d.run k acts).Tracked Outcome.IsRetry k key i := by
  obtain ⟨r, hr, hmark⟩ := h.stands
  have hcomes : d.cycle.point.ComesTo i d.actor.stopRequested := by
    rw [hstart]
    trivial
  obtain ⟨n', hn, h', htracked', hcomes'⟩ := comesTo_run hmax hnew heven hmark htracked
    hcycle.smooth hcycle.one (hcycle.due r hr) h (Nat.le_refl n) fun _ _ => ⟨hr, hcomes⟩
  obtain ⟨report, hended, hstopped⟩ := hcycle.ended
  have heven' : n' % 2 = 0 := by
    by_contra hodd
    obtain ⟨j, hj, -⟩ := h'.held (by omega)
    rw [hended] at hj
    cases hj
  refine ⟨n', heven', ?_, h', htracked'⟩
  by_cases hlt : n < lastStage k.retry.maxRetries.toNat
  · have hne : n' ≠ n := by
      intro he
      have hcomes := hcomes' he hlt
      rw [hended] at hcomes
      have hstop : report.stopped = true := hcomes
      rw [hstopped] at hstop
      cases hstop
    omega
  · omega

/-- As many cycles as there are stages to leave take the instance to its last
    one. -/
theorem cycles_advance (hmax : k.retry.maxRetries.toNat < Nat.pow 2 32 - 1)
    (hnew : key.readyState = .new) (htracked : d.Tracked Outcome.IsRetry k key i)
    (hstart : d.cycle.point = .start ∨ d.cycle.point.isFinal = true)
    (h : d.At k.retry.maxRetries.toNat key i n) (heven : n % 2 = 0) {cycles : List (List Act)}
    (hcycles : Cycles k key i d cycles) :
    ∃ n', min (n + 2 * cycles.length) (lastStage k.retry.maxRetries.toNat) ≤ n' ∧
      (d.run k (cycles.flatMap (Act.begin :: ·))).At k.retry.maxRetries.toNat key i n' := by
  induction cycles generalizing d n with
  | nil => exact ⟨n, by simp, h⟩
  | cons acts cycles ih =>
    obtain ⟨hcycle, hcycles⟩ := hcycles
    obtain ⟨n', heven', hle, h', htracked'⟩ := cycle_advances hmax hnew (begin_tracked htracked)
      (begin_start hstart) (h.begin heven) heven hcycle
    obtain ⟨report, hended, -⟩ := hcycle.ended
    obtain ⟨n'', hle', h''⟩ := ih htracked' (.inr (by rw [hended]; rfl)) h' heven' hcycles
    refine ⟨n'', by rw [List.length_cons]; omega, ?_⟩
    rw [List.flatMap_cons, run_append]
    exact h''

theorem along_cycles {cycles : List (List Act)} (h : Cycles k key i d cycles) :
    Along k (Smooth k i) d (cycles.flatMap (Act.begin :: ·)) := by
  induction cycles generalizing d with
  | nil => trivial
  | cons acts cycles ih =>
    obtain ⟨hcycle, hcycles⟩ := h
    rw [List.flatMap_cons, along_append]
    exact ⟨⟨⟨trivial, fun _ _ he => by cases he⟩, hcycle.smooth⟩, ih hcycles⟩

/-! ## Histories -/

/-- State and failure count of an instance now. -/
def mark? (key : Key) (i : Int) (d : Drain σ) : Option (State × Nat) :=
  (d.standing? key i).map Standing.mark

/-- The states that a run goes through. -/
def trail (k : ActorConfig) (d : Drain σ) : List Act → List (Drain σ)
  | [] => [d]
  | a :: acts => d :: trail k (d.act k a) acts

/-- How the state and the failure count of an instance change in a run. -/
def history (k : ActorConfig) (key : Key) (i : Int) (d : Drain σ) (acts : List Act) :
    List (Option (State × Nat)) :=
  ((d.trail k acts).map (mark? key i)).destutter (· ≠ ·)

theorem At.mark?_eq {max : Nat} (h : d.At max key i n) : d.mark? key i = some (stage max n) := by
  obtain ⟨r, hr, hmark⟩ := h.stands
  rw [mark?, hr, Option.map_some, hmark]

theorem history_cons : history k key i d (a :: acts) =
    if d.mark? key i ≠ (d.act k a).mark? key i then
      d.mark? key i :: history k key i (d.act k a) acts
    else history k key i (d.act k a) acts := by
  have htrail (d : Drain σ) (acts : List Act) : ∃ ds, d.trail k acts = d :: ds := by
    cases acts <;> exact ⟨_, rfl⟩
  obtain ⟨ds, hds⟩ := htrail (d.act k a) acts
  rw [history, history, trail, hds, List.map_cons, List.map_cons, List.destutter,
    List.destutter'_cons]
  split
  · rfl
  case isFalse h =>
    rw [not_not] at h
    rw [h]
    rfl

/-- The history of an instance is the list of the stages that it goes through. -/
theorem history_eq_stages (hmax : k.retry.maxRetries.toNat < Nat.pow 2 32 - 1)
    (htracked : d.Tracked Outcome.IsRetry k key i) (hsmooth : Along k (Smooth k i) d acts)
    (h : d.At k.retry.maxRetries.toNat key i n) :
    ∃ len, (d.run k acts).At k.retry.maxRetries.toNat key i (n + len) ∧
      history k key i d acts =
        (List.range' n (len + 1)).map fun n => some (stage k.retry.maxRetries.toNat n) := by
  induction acts generalizing d n with
  | nil => exact ⟨0, h, by simp [history, trail, h.mark?_eq]⟩
  | cons a acts ih =>
    obtain ⟨ha, hsmooth⟩ := hsmooth
    obtain ⟨htracked', -⟩ := act_tracked htracked ha.1
    rcases h.act hmax htracked ha with ⟨h', -⟩ | h'
    · obtain ⟨len, hend, hhistory⟩ := ih htracked' hsmooth h'
      refine ⟨len, hend, ?_⟩
      rw [history_cons, h.mark?_eq, h'.mark?_eq, if_neg (by simp), hhistory]
    · obtain ⟨len, hend, hhistory⟩ := ih htracked' hsmooth h'
      refine ⟨len + 1, by rwa [Nat.add_right_comm] at hend, ?_⟩
      rw [history_cons, h.mark?_eq, h'.mark?_eq, if_pos fun he => stage_ne_succ (Option.some.inj he),
        hhistory]
      rfl

/-- An instance that is new and did not fail yet is at the start of its course. -/
theorem at_zero (h : d.Fresh key) {r : Standing} (hr : d.standing? key i = some r)
    (hstate : r.state = .new) (hfailures : r.failures = 0) (max : Nat) : d.At max key i 0 := by
  refine ⟨⟨r, hr, by rw [Standing.mark, hstate, hfailures]; rfl⟩, Nat.zero_le _, ?_, ?_⟩
  · rw [timesHanded, h.handed]
    rfl
  · intro hodd
    cases hodd

/-- In every run of cycles an instance is handed to the processor once more
    than it has retries at most.  If all its calls end with retryable failures,
    then one cycle more than there are retries, each of them run to its end
    when the instance is due, take it through its course to the end.  A deferral
    to the usual delay is never to a time before the clock. -/
theorem retry_budget (k : ActorConfig) (key : Key) (i : Int)
    (hmax : k.retry.maxRetries.toNat < Nat.pow 2 32 - 1) :
    (∀ (d : Drain σ) (acts : List Act), d.Fresh key →
      (∀ r, d.standing? key i = some r → r.state = .new ∧ r.failures = 0) →
      (d.run k acts).timesHanded i ≤ k.retry.maxRetries.toNat + 1) ∧
    (∀ (d : Drain σ) (cycles : List (List Act)), key.readyState = .new → d.Fresh key →
      (∃ r, d.standing? key i = some r ∧ r.state = .new ∧ r.failures = 0) →
      Cycles k key i d cycles → cycles.length = k.retry.maxRetries.toNat + 1 →
      (d.run k (cycles.flatMap (Act.begin :: ·))).timesHanded i = k.retry.maxRetries.toNat + 1 ∧
      history k key i d (cycles.flatMap (Act.begin :: ·)) =
        (course k.retry.maxRetries.toNat).map some) ∧
    ∀ (d : Drain σ) (n : Nat) (m : Moment) (j : Job) (b : Batch) (reason : String),
      d.cycle.point = .processing j b →
      m.processing.outcome k.processorTimeout = .retry reason none → m.now ≤ .last →
      ∃ t, (d.act k (.step n m)).cycle.point = .committing j t b ∧
        ∀ due, t.dueAt = some due → m.now ≤ due := by
  refine ⟨fun d acts hfresh hnew => ?_, fun d cycles hready hfresh hnew hcycles hlength => ?_, ?_⟩
  · refine (withinBudget_run hmax hfresh.tracked acts ?_).le
    rw [timesHanded, hfresh.handed]
    cases hr : d.standing? key i with
    | none => rfl
    | some r =>
      obtain ⟨hstate, hfailures⟩ := hnew r hr
      simp [WithinBudget, hstate, hfailures]
  · obtain ⟨r, hr, hstate, hfailures⟩ := hnew
    have hzero := at_zero hfresh hr hstate hfailures k.retry.maxRetries.toNat
    obtain ⟨n, hn, hlast⟩ := cycles_advance hmax hready hfresh.tracked (.inl hfresh.point) hzero rfl
      hcycles
    obtain ⟨len, hlast', hhistory⟩ := history_eq_stages hmax hfresh.tracked (along_cycles hcycles)
      hzero
    have hsame : n = 0 + len := by
      have := hlast.mark?_eq.symm.trans hlast'.mark?_eq
      exact stage_injective (Option.some.inj this)
    have hend : n = lastStage k.retry.maxRetries.toNat := by
      have := hlast.le
      unfold lastStage at *
      omega
    constructor
    · rw [hlast.times, hend, lastStage]
      omega
    · rw [hhistory, ← stages_eq_course, List.map_map, List.range_eq_range',
        show len = lastStage k.retry.maxRetries.toNat by omega]
      rfl
  · intro d n m j b reason hp houtcome hnow
    refine ⟨(Outcome.retry reason none).transition k.retry m.now m.jitter j, ?_,
      fun due hdue => Outcome.le_of_retry hnow hdue⟩
    simp only [act, step, Cycle.step, hp, Cycle.settle, houtcome]

end

/-! A cycle in memory, where every call takes too long. -/

section

/-- Steps of a cycle while the clock shows `now`. -/
def slowSteps (now : Instant) (n : Nat) : List Act :=
  List.replicate n (.step 10 { now := now, processing := .timedOut })

variable {k : ActorConfig} {key : Key} {i : Int} {d : Drain MemoryStore} {now : Instant} {n : Nat}

/-- Whether such a cycle runs to its end while an instance is due. -/
def slowlyCompletes (k : ActorConfig) (i : Int) (d : Drain MemoryStore) (now : Instant) (n : Nat) :
    Bool :=
  (d.shared.store.find? i).all (fun j => j.dueAt ≤ now) &&
    (d.run k (slowSteps now n)).cycle.point.report?.any fun r => !r.stopped

theorem completes_of_slowly (h : slowlyCompletes k i d now n = true) :
    Completes k key i d (slowSteps now n) := by
  simp only [slowlyCompletes, Bool.and_eq_true, Option.all_eq_true, decide_eq_true_eq,
    Option.any_eq_true, Bool.not_eq_true'] at h
  obtain ⟨hdue, report, hreport, hstopped⟩ := h
  have hstep {a : Act} (ha : a ∈ slowSteps now n) :
      a = .step 10 { now := now, processing := .timedOut } := List.eq_of_mem_replicate ha
  refine ⟨along_of_forall fun a ha d => ?_, fun hb => ?_, fun r hr n' m hm => ?_, report, ?_, hstopped⟩
  · rw [hstep ha]
    refine ⟨fun j b _ _ => ⟨_, _, rfl⟩, ?_⟩
    rintro _ _ he
    cases he
    exact ⟨rfl, rfl⟩
  · cases hstep hb
  · cases hstep hm
    obtain ⟨j, hj, -, rfl⟩ := MemoryStore.standing?_eq_some hr
    exact hdue j hj
  · generalize (d.run k (slowSteps now n)).cycle.point = p at hreport
    unfold Point.report? at hreport
    split at hreport <;> cases hreport
    rfl

theorem retry_budget_of_slow_calls :
    let key : Key := { name := "jobs" }
    let k : ActorConfig := { retry := { maxRetries := 1 } }
    let job : NewJob := { jobRef := "job", dueAt := .epoch }
    let d : Drain MemoryStore :=
      { shared := ⟨MemoryStore.empty.append job .epoch, .ofConfig {}, {}⟩, actor := { key := key },
        handed := [] }
    let cycles := [slowSteps .epoch 11, slowSteps (.ofMillis 2000) 11]
    (d.run k (cycles.flatMap (Act.begin :: ·))).timesHanded 1 = 2 ∧
      history k key 1 d (cycles.flatMap (Act.begin :: ·)) =
        [some (.new, 0), some (.running, 0), some (.deferred, 1), some (.running, 1),
          some (.failed, 2)] := by
  intro key k job d cycles
  have hcycles : Cycles k key 1 d cycles :=
    ⟨completes_of_slowly (by decide +kernel), completes_of_slowly (by decide +kernel), trivial⟩
  exact (retry_budget k key 1 (by decide)).2.1 d cycles rfl ⟨trivial, rfl, rfl, rfl⟩
    ⟨_, rfl, rfl, rfl⟩ hcycles rfl

/-- A partition whose ready state is not new passes over new instances: one that
    is due is not handed over in a cycle that runs to its end. -/
theorem deferred_partition_passes_over_new :
    ¬∀ (k : ActorConfig) (key : Key) (i : Int) (d : Drain MemoryStore) (cycles : List (List Act)),
      k.retry.maxRetries.toNat < Nat.pow 2 32 - 1 → key.build = .ok key → d.Fresh key →
      (∃ r, d.standing? key i = some r ∧ r.state = .new ∧ r.failures = 0) →
      Cycles k key i d cycles → cycles.length = k.retry.maxRetries.toNat + 1 →
      (d.run k (cycles.flatMap (Act.begin :: ·))).timesHanded i = k.retry.maxRetries.toNat + 1 := by
  intro h
  let key : Key := { name := "jobs", readyState := .deferred }
  let k : ActorConfig := { retry := { maxRetries := 0 } }
  let job : NewJob := { jobRef := "job", dueAt := .epoch }
  let d : Drain MemoryStore :=
    { shared := ⟨MemoryStore.empty.append job .epoch, .ofConfig {}, {}⟩, actor := { key := key },
      handed := [] }
  have hcycles : Cycles k key 1 d [slowSteps .epoch 6] :=
    ⟨completes_of_slowly (by decide +kernel), trivial⟩
  have hhanded := h k key 1 d [slowSteps .epoch 6] (by decide) (by decide +kernel)
    ⟨trivial, rfl, rfl, rfl⟩ ⟨_, rfl, rfl, rfl⟩ hcycles rfl
  revert hhanded
  decide +kernel

end

end Drain

end DueWork

/-
  Failures that concern one instance.

  Before each step of a cycle others may change one instance of the store, and
  only the calls for that instance may go wrong: its claim is lost, or its
  commit is refused because the instance was moved.  The cycle serves all other
  instances of every batch, in the order of the batch, and ends well.

  * `Meeting` is what a step meets, and `Local` says that it concerns one
    instance only;
  * `Spared` says that the cycle keeps track of all others: each step keeps it,
    and does what it is meant to do;
  * `ServedAt` are the three steps in which an instance is claimed, processed
    and committed.

  Only an instance that was deleted while it was processed is not passed over:
  its commit ends the cycle.
-/
import DueWork.Proofs.Actor.StoreFailures
import DueWork.Proofs.Actor.SortedPass
import DueWork.Proofs.Store.Recorded

namespace DueWork

open Time Signal StandingStore RecordingStore

/-- What a step of a cycle meets. -/
structure Meeting (σ : Type) where
  moment : Moment
  /-- what others did to the store -/
  others : σ → σ := id
  pool : WorkerPool
  events : Broadcast Event := {}

namespace Meeting

variable {σ : Type}

/-- The processor, as far as this step shows it. -/
def processor (e : Meeting σ) : Processor := fun _ => (e.moment.processing, e.moment.jitter)

/-- What the rest of the system decided, apart from the store. -/
def around (e : Meeting σ) : Around := ⟨e.pool, e.events, e.moment.delayOver, e.moment.took⟩

end Meeting

namespace Point

/-- A cycle at this point was not cut short. -/
def IsWell : Point → Prop
  | ended (.error _) | panicked _ => False
  | _ => True

/-- The instance that waits for a permit, and the rest of its batch. -/
def awaited? : Point → Option (Job × Batch)
  | admission j b _ | suspended j b _ => some (j, b)
  | _ => none

theorem awaited?_eq_some {p : Point} {j : Job} {b : Batch} (h : p.awaited? = some (j, b)) :
    ∃ attempt, p = .admission j b attempt ∨ p = .suspended j b attempt := by
  cases p <;> cases h
  · exact ⟨_, .inl rfl⟩
  · exact ⟨_, .inr rfl⟩

theorem isWell_of_awaited {p : Point} {j : Job} {b : Batch} (h : p.awaited? = some (j, b)) :
    p.IsWell := by
  obtain ⟨_, rfl | rfl⟩ := awaited?_eq_some h <;> trivial

end Point

/-- Some instances are served one after the other, between two steps of a run;
    each of them takes three steps. -/
def ServedInOrder (served : Job → Nat → Prop) : List Job → Nat → Nat → Prop
  | [], n, n' => n ≤ n'
  | j :: js, n, n' => ∃ c, n ≤ c ∧ served j c ∧ ServedInOrder served js (c + 3) n'

theorem ServedInOrder.mono {served : Job → Nat → Prop} {js : List Job} {n₀ n n' : Nat}
    (h : ServedInOrder served js n n') (hn : n₀ ≤ n) : ServedInOrder served js n₀ n' := by
  cases js with
  | nil => exact Nat.le_trans hn h
  | cons j js =>
    obtain ⟨c, hc, hserved, hrest⟩ := h
    exact ⟨c, Nat.le_trans hn hc, hserved, hrest⟩

section

variable {σ : Type} [JobStore σ] [StandingStore σ] {A : Outcome → Prop} {k : ActorConfig} {key : Key}
  {i : Int} {s s' : σ} {p p' : Point} {m : Moment} {stop : Bool}

/-- Another store tracks as well if the instance stands there as it did, where
    it stood. -/
theorem Tracks.kept (ht : Tracks A k key i s p) (hserves : Serves key s')
    (hi : ∀ r, standing? key s i = some r → standing? key s' i = some r) :
    Tracks A k key i s' p where
  serves := hserves
  nodup := ht.nodup
  copies j hj hid := by
    obtain ⟨r, hr, hcopy⟩ := ht.copies j hj hid
    exact ⟨r, hi r hr, hcopy⟩
  held j hj hid := by
    obtain ⟨r, hr, hrun⟩ := ht.held j hj hid
    exact ⟨r, hi r hr, hrun⟩
  decided := ht.decided

/-- What holds of all that is ready holds of what is ahead, as that was
    fetched. -/
theorem Edge.forall_ahead [RecordingStore σ] {P : Job → Prop}
    (hP : ∀ j, key.isReadyState j.state = true → P j) (he : Edge k key m stop s p s' p')
    (hserves : Serves key s) (h : ∀ j ∈ p.ahead, P j) : ∀ j ∈ p'.ahead, P j := by
  cases he with
  | quiet _ _ hahead =>
    rcases hahead with hsame | hnone
    · rw [hsame]
      exact h
    · rw [hnone]
      intro j hj
      cases hj
  | cut _ hfinal =>
    rw [Point.ahead_of_isFinal hfinal]
    intro j hj
    cases hj
  | fetched hfetch => exact fun j hj => hP j (fetched_ready hserves hfetch j hj)
  | lost => exact fun j hj => h j (List.mem_cons_of_mem _ hj)
  | won => exact fun j hj => h j (List.mem_cons_of_mem _ hj)
  | settled | committed | refused => exact h

/-- What is ahead is claimable. -/
theorem Edge.claimable [RecordingStore σ] (he : Edge k key m stop s p s' p')
    (hkey : key.build = .ok key) (hserves : Serves key s)
    (h : ∀ j ∈ p.ahead, j.state.isClaimable = true) :
    ∀ j ∈ p'.ahead, j.state.isClaimable = true :=
  he.forall_ahead (fun _ => Key.isClaimable_of_isReadyState hkey) hserves h

end

namespace Drain

section

variable {σ : Type} [JobStore σ]

/-- What a cycle finds before a step. -/
def found (e : Meeting σ) (d : Drain σ) : Drain σ :=
  { d with shared := ⟨e.others d.shared.store, e.pool, e.events⟩ }

/-- One step of a cycle among others. -/
def stepAmong (k : ActorConfig) (e : Meeting σ) (d : Drain σ) : Drain σ :=
  (d.found e).step k e.moment

/-- The cycle after a number of such steps. -/
def runAmong (k : ActorConfig) (e : Nat → Meeting σ) (d : Drain σ) : Nat → Drain σ
  | 0 => d
  | n + 1 => (runAmong k e d n).stepAmong k (e n)

/-- A step in which no call goes wrong is one of a quiet run. -/
theorem stepAmong_quiet {k : ActorConfig} {e : Meeting σ} {d : Drain σ}
    (hfail : e.moment.failure = none) (hlost : e.moment.claimLost = false) :
    d.stepAmong k e = (d.found e).quietStep k e.processor e.moment.now e.around := by
  obtain ⟨⟨now, _, _, processing, jitter, delayOver, took⟩, others, pool, events⟩ := e
  cases hfail
  cases hlost
  rfl

variable (k : ActorConfig) (key : Key) (e : Nat → Meeting σ) (d : Drain σ)

/-- The store that a step of a run finds. -/
def storeAt (n : Nat) : σ := (e n).others (runAmong k e d n).shared.store

/-- Three steps of a run claim an instance, hand it to the processor, and commit
    the outcome. -/
structure ServedAt (j : Job) (c : Nat) : Prop where
  claimed : JobStore.claim (storeAt k e d c) key j.id j.state (e c).moment.now =
    (.ok true, (runAmong k e d (c + 1)).shared.store)
  handed : (runAmong k e d (c + 1)).handed = (runAmong k e d c).handed ++ [j.running]
  committed :
    let outcome := (e (c + 1)).moment.processing.outcome k.processorTimeout
    let t := outcome.transition k.retry (e (c + 1)).moment.now (e (c + 1)).moment.jitter j.running
    JobStore.commit (storeAt k e d (c + 2)) key j.id t (e (c + 2)).moment.now =
      (.ok (), (runAmong k e d (c + 3)).shared.store)

end

section

variable {σ : Type} [JobStore σ] [StandingStore σ]

/-- A cycle of the partition that is neither stopped nor cut short, and keeps
    track of all instances but one. -/
structure Spared (k : ActorConfig) (key : Key) (x : Int) (d : Drain σ) : Prop where
  ofKey : d.actor.key = key
  notStopped : d.actor.stopRequested = false
  tracks : ∀ i, i ≠ x → Tracks (fun _ => True) k key i d.shared.store d.cycle.point
  claimable : ∀ j ∈ d.cycle.point.ahead, j.state.isClaimable = true
  decided : ∀ j t b, d.cycle.point = .committing j t b → Store.requireOutcome t = .ok ()
  isWell : d.cycle.point.IsWell

/-- What goes wrong in a step concerns one instance: others may have changed it,
    its claim may be lost, and its commit may be refused as it was moved. -/
structure Local [RecordingStore σ] (k : ActorConfig) (key : Key) (x : Int) (d : Drain σ)
    (e : Meeting σ) : Prop where
  serves : Serves key (e.others d.shared.store)
  /-- the other instances stand where they stood -/
  spares : ∀ i, i ≠ x → ∀ r, StandingStore.standing? key d.shared.store i = some r →
    StandingStore.standing? key (e.others d.shared.store) i = some r
  fetches : d.cycle.point = .fetching → ∃ js,
    JobStore.fetchReady (e.others d.shared.store) key e.moment.now (max k.batchSize 1) = .ok js
  lost : e.moment.claimLost = true → ∃ j b, d.cycle.point = .claiming j b ∧ j.id = x
  refused : ∀ f, e.moment.failure = some f → ∃ j t b source target,
    d.cycle.point = .committing j t b ∧ j.id = x ∧ f = .error (.invalidTransition source target)
  /-- and the instance was not deleted after its claim -/
  there : ∀ j t b, d.cycle.point = .committing j t b → j.id = x →
    (recorded? (e.others d.shared.store) x).isSome

variable {k : ActorConfig} {key : Key} {x : Int} {d : Drain σ} {e : Meeting σ} {p : Point} {j : Job}
  {t : Transition} {b : Batch} {js : List Job}

/-! ## One step -/

namespace Spared

theorem serves (h : Spared k key x d) : Serves key d.shared.store :=
  (h.tracks (x + 1) (by omega)).serves

/-- The cycle stands somewhere, with all that it has. -/
theorem stands (h : Spared k key x d) (hp : d.cycle.point = p) :
    (d.found e).Stands key (e.others d.shared.store) d.handed p d.cycle.report :=
  ⟨rfl, rfl, hp, rfl, h.ofKey, h.notStopped⟩

end Spared

variable [RecordingStore σ]

/-- The rest of the system spares the other instances. -/
theorem Spared.found (h : Spared k key x d) (hl : Local k key x d e) :
    Spared k key x (d.found e) where
  ofKey := h.ofKey
  notStopped := h.notStopped
  tracks i hi := (h.tracks i hi).kept hl.serves (hl.spares i hi)
  claimable := h.claimable
  decided := h.decided
  isWell := h.isWell

namespace Local

theorem noFailure (hl : Local k key x d e) (hp : ∀ j t b, d.cycle.point ≠ .committing j t b) :
    e.moment.failure = none := by
  by_contra hf
  obtain ⟨f, hf⟩ := Option.ne_none_iff_exists'.1 hf
  obtain ⟨j, t, b, -, -, hpoint, -⟩ := hl.refused f hf
  exact hp j t b hpoint

/-- Away from claims and commits nothing goes wrong. -/
theorem quietly (hl : Local k key x d e) (hp : d.cycle.point = p)
    (hclaim : ∀ j b, p ≠ .claiming j b) (hcommit : ∀ j t b, p ≠ .committing j t b) :
    d.stepAmong k e = (d.found e).quietStep k e.processor e.moment.now e.around := by
  subst hp
  refine stepAmong_quiet (hl.noFailure hcommit) ?_
  by_contra hlost
  obtain ⟨j, b, hpoint, -⟩ := hl.lost (Bool.not_eq_false _ ▸ hlost)
  exact hclaim j b hpoint

end Local

namespace Spared

theorem start (h : Spared k key x d) (hl : Local k key x d e) (hp : d.cycle.point = .start) :
    (d.stepAmong k e).cycle.point = .checking := by
  rw [hl.quietly hp (by simp) (by simp)]
  exact (stands_start (h.stands hp)).point

theorem checking (h : Spared k key x d) (hl : Local k key x d e) (hp : d.cycle.point = .checking) :
    (d.stepAmong k e).cycle.point = .fetching := by
  rw [hl.quietly hp (by simp) (by simp)]
  exact (stands_checking (h.stands hp)).point

theorem fetching (h : Spared k key x d) (hl : Local k key x d e) (hp : d.cycle.point = .fetching) :
    ∃ b, (d.stepAmong k e).cycle.point = .picking b := by
  obtain ⟨js, hjs⟩ := hl.fetches hp
  rw [hl.quietly hp (by simp) (by simp)]
  exact ⟨_, (stands_fetching (h.stands hp) hjs).point⟩

theorem picking_cons {full : Bool} (h : Spared k key x d) (hl : Local k key x d e)
    (hp : d.cycle.point = .picking ⟨j :: js, full⟩) :
    (d.stepAmong k e).cycle.point = .admission j ⟨js, full⟩ 0 := by
  rw [hl.quietly hp (by simp) (by simp)]
  exact (stands_picking_cons (h.stands hp)).point

theorem picking_full (h : Spared k key x d) (hl : Local k key x d e)
    (hp : d.cycle.point = .picking ⟨[], true⟩) : (d.stepAmong k e).cycle.point = .checking := by
  rw [hl.quietly hp (by simp) (by simp)]
  exact (stands_picking_full (h.stands hp)).point

theorem picking_last (h : Spared k key x d) (hl : Local k key x d e)
    (hp : d.cycle.point = .picking ⟨[], false⟩) : (d.stepAmong k e).cycle.point = .closing := by
  rw [hl.quietly hp (by simp) (by simp)]
  exact (stands_picking_last (h.stands hp)).point

/-- An instance that waits for a permit is claimed next, or it waits on. -/
theorem waiting (h : Spared k key x d) (hl : Local k key x d e)
    (hp : d.cycle.point.awaited? = some (j, b)) :
    (d.stepAmong k e).cycle.point = .claiming j b ∨
      (d.stepAmong k e).cycle.point.awaited? = some (j, b) := by
  have hwait : (d.found e).Awaits key (e.others d.shared.store) d.handed j b d.cycle.report := by
    obtain ⟨attempt, hp | hp⟩ := Point.awaited?_eq_some hp
    · exact ⟨attempt, .inl (h.stands hp)⟩
    · exact ⟨attempt, .inr (h.stands hp)⟩
  have hquiet : d.stepAmong k e = (d.found e).quietStep k e.processor e.moment.now e.around := by
    refine hl.quietly rfl (fun j' b' hc => ?_) fun j' t b' hc => ?_ <;>
    · rw [hc] at hp
      cases hp
  rw [hquiet]
  refine (awaits_step hwait).imp (fun hd => hd.point) ?_
  rintro ⟨attempt, hd | hd⟩ <;> rw [hd.point] <;> rfl

/-- A claim is won, or the instance is the one that is not spared. -/
theorem claiming (h : Spared k key x d) (hl : Local k key x d e)
    (hp : d.cycle.point = .claiming j b) :
    (JobStore.claim (e.others d.shared.store) key j.id j.state e.moment.now =
        (.ok true, (d.stepAmong k e).shared.store) ∧
      (d.stepAmong k e).handed = d.handed ++ [j.running] ∧
      (d.stepAmong k e).cycle.point = .processing j.running b) ∨
    (j.id = x ∧ (d.stepAmong k e).cycle.point = .picking b) := by
  have hfail : e.moment.failure = none := hl.noFailure (by simp [hp])
  have hlost {s' : σ} (ha : (if e.moment.claimLost then (.ok false, e.others d.shared.store)
      else JobStore.claim (e.others d.shared.store) key j.id j.state e.moment.now) =
      (.ok false, s')) : (d.stepAmong k e).cycle.point = .picking b := by
    simp only [stepAmong, step, Drain.found, Cycle.step, hp, Cycle.claim, h.ofKey, ha,
      Cycle.called, Cycle.answered, hfail, Cycle.goOn]
  by_cases hclaim : e.moment.claimLost = true
  · obtain ⟨j', b', hp', hid⟩ := hl.lost hclaim
    cases hp.symm.trans hp'
    exact .inr ⟨hid, hlost (if_pos hclaim)⟩
  · have hclaimable : j.state.isClaimable = true := h.claimable j (by rw [hp]; exact List.mem_cons_self)
    obtain ⟨won, s', hanswer⟩ : ∃ won s', JobStore.claim (e.others d.shared.store) key j.id j.state
      e.moment.now = (.ok won, s') := claim_answers hl.serves hclaimable
    cases won with
    | true =>
      have hd := stands_claiming (k := k) (P := e.processor) (e := e.around) (h.stands hp) hanswer
      rw [← stepAmong_quiet hfail (Bool.not_eq_true _ ▸ hclaim)] at hd
      exact .inl ⟨hd.store ▸ hanswer, hd.handed, hd.point⟩
    | false =>
      refine .inr ⟨?_, hlost ((if_neg hclaim).trans hanswer)⟩
      by_contra hid
      have htracks := (h.found hl).tracks j.id hid
      rw [show (d.found e).cycle.point = _ from hp] at htracks
      obtain ⟨r, hr, hstate, -⟩ := htracks.copies j List.mem_cons_self rfl
      exact (claim_lost hl.serves hanswer).2.2 r hr hstate

theorem processing (h : Spared k key x d) (hl : Local k key x d e)
    (hp : d.cycle.point = .processing j b) : (d.stepAmong k e).cycle.point = .committing j
      ((e.moment.processing.outcome k.processorTimeout).transition k.retry e.moment.now
        e.moment.jitter j) b := by
  rw [hl.quietly hp (by simp) (by simp)]
  exact (stands_processing (h.stands hp)).point

/-- Only the commit of the one instance is not made, and then it is refused as
    moved. -/
theorem refused (h : Spared k key x d) (hl : Local k key x d e)
    (hp : d.cycle.point = .committing j t b) {f : Failure}
    (hf : Cycle.answered e.moment (JobStore.commit (e.others d.shared.store) key j.id t
      e.moment.now).1 = .error f) :
    j.id = x ∧ ∃ source target, f = .error (.invalidTransition source target) := by
  cases hfail : e.moment.failure with
  | some f' =>
    obtain ⟨j', t', b', source, target, hp', hid, rfl⟩ := hl.refused f' hfail
    cases hp.symm.trans hp'
    simp only [Cycle.answered, hfail] at hf
    cases hf
    exact ⟨hid, source, target, rfl⟩
  | none =>
    rcases hcommit : JobStore.commit (e.others d.shared.store) key j.id t e.moment.now with
      ⟨error | _, s'⟩
    · have hid : j.id = x := by
        by_contra hid
        have htracks := (h.found hl).tracks j.id hid
        rw [show (d.found e).cycle.point = _ from hp] at htracks
        exact htracks.not_refused rfl hfail (.of_error hfail hcommit)
      obtain ⟨source, target, rfl⟩ := RecordingStore.refused hl.serves (h.decided j t b hp)
        (hid ▸ hl.there j t b hp hid) hcommit
      simp only [Cycle.answered, hfail, hcommit] at hf
      cases hf
      exact ⟨hid, source, target, rfl⟩
    · simp only [Cycle.answered, hfail, hcommit] at hf
      cases hf

/-- A commit is made, or the instance is the one that is not spared. -/
theorem committing (h : Spared k key x d) (hl : Local k key x d e)
    (hp : d.cycle.point = .committing j t b) :
    (d.stepAmong k e).cycle.point = .picking b ∧
      (j.id ≠ x → JobStore.commit (e.others d.shared.store) key j.id t e.moment.now =
        (.ok (), (d.stepAmong k e).shared.store)) := by
  cases ha : Cycle.answered e.moment (JobStore.commit (e.others d.shared.store) key j.id t
      e.moment.now).1 with
  | ok =>
    obtain ⟨hfail, hanswer⟩ := Cycle.answered_eq_ok.1 ha
    refine ⟨?_, fun _ => Prod.ext hanswer ?_⟩ <;>
      simp only [stepAmong, step, Drain.found, Cycle.step, hp, Cycle.commit, h.ofKey, Cycle.called, ha,
        hfail, Cycle.goOn, Cycle.store_releasePermit]
  | error f =>
    obtain ⟨hid, source, target, rfl⟩ := h.refused hl hp ha
    refine ⟨?_, fun hne => absurd hid hne⟩
    simp only [stepAmong, step, Drain.found, Cycle.step, hp, Cycle.commit, h.ofKey, Cycle.called, ha,
      Cycle.goOn]

theorem closing (h : Spared k key x d) (hl : Local k key x d e) (hp : d.cycle.point = .closing) :
    (d.stepAmong k e).cycle.point = .lookingAhead := by
  rw [hl.quietly hp (by simp) (by simp)]
  exact (stands_closing (h.stands hp)).point

theorem lookingAhead (h : Spared k key x d) (hl : Local k key x d e)
    (hp : d.cycle.point = .lookingAhead) :
    ∃ r, (d.stepAmong k e).cycle.point = .ended (.ok r) := by
  obtain ⟨due, hdue⟩ := nextDue_answers hl.serves
  rw [hl.quietly hp (by simp) (by simp)]
  exact ⟨_, (stands_lookingAhead (h.stands hp) hdue).point⟩

/-- A step does not cut the cycle short. -/
theorem isWell_step (h : Spared k key x d) (hl : Local k key x d e) :
    (d.stepAmong k e).cycle.point.IsWell := by
  have well {p' : Point} (hp' : (d.stepAmong k e).cycle.point = p') (hwell : p'.IsWell) :
      (d.stepAmong k e).cycle.point.IsWell := hp' ▸ hwell
  have waiting {j : Job} {b : Batch} (hp : d.cycle.point.awaited? = some (j, b)) :
      (d.stepAmong k e).cycle.point.IsWell :=
    (h.waiting hl hp).elim (fun hnext => well hnext trivial) Point.isWell_of_awaited
  cases hp : d.cycle.point with
  | start => exact well (h.start hl hp) trivial
  | checking => exact well (h.checking hl hp) trivial
  | fetching =>
    obtain ⟨b, hb⟩ := h.fetching hl hp
    exact well hb trivial
  | picking b =>
    obtain ⟨_ | ⟨j, js⟩, full⟩ := b
    · cases full with
      | true => exact well (h.picking_full hl hp) trivial
      | false => exact well (h.picking_last hl hp) trivial
    · exact well (h.picking_cons hl hp) trivial
  | admission j b attempt => exact waiting (by rw [hp]; rfl)
  | suspended j b attempt => exact waiting (by rw [hp]; rfl)
  | claiming j b =>
    rcases h.claiming hl hp with ⟨-, -, hnext⟩ | ⟨-, hnext⟩
    · exact well hnext trivial
    · exact well hnext trivial
  | processing j b => exact well (h.processing hl hp) trivial
  | committing j t b => exact well (h.committing hl hp).1 trivial
  | closing => exact well (h.closing hl hp) trivial
  | lookingAhead =>
    obtain ⟨r, hr⟩ := h.lookingAhead hl hp
    exact well hr trivial
  | ended r =>
    have hover : (d.stepAmong k e).cycle.point = .ended r := by
      simp only [stepAmong, step, Drain.found, Cycle.step, hp]
    exact well hover (hp ▸ h.isWell)
  | panicked message => exact absurd h.isWell (by rw [hp]; exact id)

/-- A step spares the other instances. -/
theorem step (h : Spared k key x d) (hl : Local k key x d e) (hkey : key.build = .ok key) :
    Spared k key x (d.stepAmong k e) := by
  have hfound := h.found hl
  have hedge : Edge k key e.moment false (d.found e).shared.store d.cycle.point
      (d.stepAmong k e).shared.store (d.stepAmong k e).cycle.point := by
    have := (d.found e).edge k k.batchSize e.moment
    rw [hfound.ofKey, hfound.notStopped] at this
    exact this
  have hstepped := Cycle.step_turned k k.batchSize e.moment (d.found e).shared (d.found e).actor
    (d.found e).cycle
  refine ⟨?_, hstepped.stop.trans h.notStopped, fun i hi => ?_, ?_, fun j t b hp => ?_,
    h.isWell_step hl⟩
  · exact (key_act (k := k) (.step k.batchSize e.moment)).trans h.ofKey
  · exact (hedge.tracks (hfound.tracks i hi) fun _ _ _ _ => trivial).1
  · exact hedge.claimable hkey hfound.serves h.claimable
  · rw [hp] at hedge
    obtain ⟨o, now, jitter, rfl⟩ := hedge.settles
    exact o.requireOutcome_transition

end Spared

/-! ## Runs -/

section

variable {e : Nat → Meeting σ}

theorem spared_run (hkey : key.build = .ok key) (h : Spared k key x d)
    (hl : ∀ n, Local k key x (runAmong k e d n) (e n)) (n : Nat) :
    Spared k key x (runAmong k e d n) := by
  induction n with
  | zero => exact h
  | succ n ih => exact ih.step (hl n) hkey

variable {n : Nat}

/-- An instance that waits for a permit is claimed in the end, when permits are
    granted. -/
theorem comes_to_claim (h : ∀ n, Spared k key x (runAmong k e d n))
    (hl : ∀ n, Local k key x (runAmong k e d n) (e n)) (hgrant : Granted (runAmong k e d))
    (hn : (runAmong k e d n).cycle.point.awaited? = some (j, b)) :
    ∃ c, n ≤ c ∧ (runAmong k e d c).cycle.point = .claiming j b := by
  obtain ⟨m, hnm, hm⟩ := hgrant n
  obtain ⟨t, rfl⟩ := Nat.exists_eq_add_of_le hnm
  induction t generalizing n with
  | zero =>
    obtain ⟨_, hp | hp⟩ := Point.awaited?_eq_some hn <;>
    · rw [Nat.add_zero, hp] at hm
      cases hm
  | succ t ih =>
    rcases (h n).waiting (hl n) hn with hclaim | hwait
    · exact ⟨n + 1, by omega, hclaim⟩
    · obtain ⟨c, hc, hclaim⟩ := ih (n := n + 1) hwait (by omega) (by rwa [Nat.add_right_comm])
      exact ⟨c, by omega, hclaim⟩

/-- The cycle comes through the next instance of a batch, and serves it if it is
    one of the others. -/
theorem serves_next {full : Bool} (h : ∀ n, Spared k key x (runAmong k e d n))
    (hl : ∀ n, Local k key x (runAmong k e d n) (e n)) (hgrant : Granted (runAmong k e d))
    (hn : (runAmong k e d n).cycle.point = .picking ⟨j :: js, full⟩) :
    ∃ m, n ≤ m ∧ (runAmong k e d m).cycle.point = .picking ⟨js, full⟩ ∧
      (j.id ≠ x → ∃ c, n ≤ c ∧ c + 3 = m ∧ ServedAt k key e d j c) := by
  have hnext : (runAmong k e d (n + 1)).cycle.point = .admission j ⟨js, full⟩ 0 :=
    (h n).picking_cons (hl n) hn
  obtain ⟨c, hc, hclaim⟩ : ∃ c, n + 1 ≤ c ∧
      (runAmong k e d c).cycle.point = .claiming j ⟨js, full⟩ :=
    comes_to_claim h hl hgrant (by rw [hnext]; rfl)
  rcases (h c).claiming (hl c) hclaim with ⟨hwon, hhanded, hp₁⟩ | ⟨hid, hp₁⟩
  · have hp₂ := (h (c + 1)).processing (hl (c + 1)) hp₁
    obtain ⟨hp₃, hcommit⟩ := (h (c + 2)).committing (hl (c + 2)) hp₂
    exact ⟨c + 3, by omega, hp₃, fun hid => ⟨c, by omega, rfl, hwon, hhanded, hcommit hid⟩⟩
  · exact ⟨c + 1, by omega, hp₁, fun hne => absurd hid hne⟩

/-- The cycle serves all others of a batch. -/
theorem serves_batch {full : Bool} (h : ∀ n, Spared k key x (runAmong k e d n))
    (hl : ∀ n, Local k key x (runAmong k e d n) (e n)) (hgrant : Granted (runAmong k e d))
    (hn : (runAmong k e d n).cycle.point = .picking ⟨js, full⟩) :
    ∃ m, n ≤ m ∧ (runAmong k e d m).cycle.point = .picking ⟨[], full⟩ ∧
      ServedInOrder (ServedAt k key e d) (js.filter (·.id ≠ x)) n m := by
  induction js generalizing n with
  | nil => exact ⟨n, Nat.le_refl n, hn, Nat.le_refl n⟩
  | cons j js ih =>
    obtain ⟨m, hm, hp, hserved⟩ := serves_next h hl hgrant hn
    obtain ⟨m', hm', hp', hrest⟩ := ih hp
    refine ⟨m', by omega, hp', ?_⟩
    by_cases hid : j.id = x
    · rw [List.filter_cons_of_neg (by simpa using hid)]
      exact hrest.mono hm
    · rw [List.filter_cons_of_pos (by simpa using hid)]
      obtain ⟨c, hc, rfl, hj⟩ := hserved hid
      exact ⟨c, hc, hj, hrest⟩

/-- A cycle that is about to fetch ends, or fetches a full batch and is about to
    fetch again later. -/
theorem fetches_on (h : ∀ n, Spared k key x (runAmong k e d n))
    (hl : ∀ n, Local k key x (runAmong k e d n) (e n)) (hgrant : Granted (runAmong k e d))
    (hn : (runAmong k e d n).cycle.point = .fetching) :
    (∃ m r, (runAmong k e d m).cycle.point = .ended (.ok r)) ∨
      (∃ js, (runAmong k e d (n + 1)).cycle.point = .picking ⟨js, true⟩) ∧
      ∃ m, n < m ∧ (runAmong k e d m).cycle.point = .fetching := by
  obtain ⟨⟨js, full⟩, hb⟩ := (h n).fetching (hl n) hn
  obtain ⟨m, hm, hp, -⟩ := serves_batch (n := n + 1) h hl hgrant hb
  cases full with
  | true =>
    have hp₁ := (h m).picking_full (hl m) hp
    have hp₂ := (h (m + 1)).checking (hl (m + 1)) hp₁
    exact .inr ⟨⟨js, hb⟩, m + 2, by omega, hp₂⟩
  | false =>
    have hp₁ := (h m).picking_last (hl m) hp
    have hp₂ := (h (m + 1)).closing (hl (m + 1)) hp₁
    obtain ⟨r, hr⟩ := (h (m + 2)).lookingAhead (hl (m + 2)) hp₂
    exact .inl ⟨m + 3, r, hr⟩

/-- As long as what goes wrong concerns one instance only, a cycle serves all
    others of each batch, in order.  It never ends with an error, and it returns
    unless the batches that it fetches are full again and again. -/
theorem failures_of_one_instance_stay_local (hkey : key.build = .ok key) (hstart : d.cycle = {})
    (hof : d.actor.key = key) (hstop : d.actor.stopRequested = false)
    (hserves : Serves key d.shared.store)
    (hlocal : ∀ n, Local k key x (runAmong k e d n) (e n)) (hgrant : Granted (runAmong k e d)) :
    let point (n : Nat) := (runAmong k e d n).cycle.point
    (∀ n b, point n = .picking b → ∃ m, n ≤ m ∧ point m = .picking ⟨[], b.full⟩ ∧
      ServedInOrder (ServedAt k key e d) (b.jobs.filter (·.id ≠ x)) n m) ∧
    (∀ n, (point n).IsWell) ∧
    ((∃ n r, point n = .ended (.ok r)) ∨
      ∀ n, ∃ m js, n ≤ m ∧ point m = .fetching ∧ point (m + 1) = .picking ⟨js, true⟩) := by
  intro point
  have hspared : Spared k key x d := by
    refine ⟨hof, hstop, fun i _ => ?_, ?_, ?_, ?_⟩
    · rw [hstart]
      exact Tracks.start hserves
    · rw [hstart]
      intro j hj
      cases hj
    · rw [hstart]
      intro j t b hp
      cases hp
    · rw [hstart]
      trivial
  have h := spared_run hkey hspared hlocal
  refine ⟨fun n b hb => serves_batch h hlocal hgrant hb, fun n => (h n).isWell, ?_⟩
  by_cases hend : ∃ n r, point n = .ended (.ok r)
  · exact .inl hend
  · right
    have hagain (n : Nat) : ∃ m, n ≤ m ∧ point m = .fetching := by
      induction n with
      | zero =>
        have hfirst : point 1 = .checking := (h 0).start (hlocal 0) (congrArg Cycle.point hstart)
        exact ⟨2, by omega, (h 1).checking (hlocal 1) hfirst⟩
      | succ n ih =>
        obtain ⟨m, hm, hp⟩ := ih
        obtain hend' | ⟨-, m', hm', hp'⟩ := fetches_on h hlocal hgrant hp
        · exact absurd hend' hend
        · exact ⟨m', by omega, hp'⟩
    intro n
    obtain ⟨m, hm, hp⟩ := hagain n
    obtain hend' | ⟨⟨js, hjs⟩, -⟩ := fetches_on h hlocal hgrant hp
    · exact absurd hend' hend
    · exact ⟨m, js, hm, hp, hjs⟩

end

end

/-! ## Two instances in one batch -/

section

variable {σ : Type} [JobStore σ] {k : ActorConfig} {e : Nat → Meeting σ} {d : Drain σ}

theorem runAmong_add (m n : Nat) :
    runAmong k e d (m + n) = runAmong k (fun i => e (m + i)) (runAmong k e d m) n := by
  induction n with
  | zero => rfl
  | succ n ih => exact congrArg (stepAmong k (e (m + n))) ih

/-- A cycle that is over stays so. -/
theorem isFinal_of_le {m n : Nat} (hm : (runAmong k e d m).cycle.point.isFinal = true)
    (hmn : m ≤ n) : (runAmong k e d n).cycle.point.isFinal = true := by
  induction n, hmn using Nat.le_induction with
  | base => exact hm
  | succ n hmn ih =>
    show (((runAmong k e d n).found (e n)).cycle.step k (e n).moment
      ((runAmong k e d n).found (e n)).shared
      ((runAmong k e d n).found (e n)).actor).2.2.point.isFinal = true
    rw [Cycle.step_of_isFinal (c := ((runAmong k e d n).found (e n)).cycle) ih]
    exact ih

theorem granted_of_isFinal {m : Nat} (hm : (runAmong k e d m).cycle.point.isFinal = true) :
    Granted (runAmong k e d) := by
  intro n
  have hfinal := isFinal_of_le hm (Nat.le_max_left m n)
  refine ⟨max m n, Nat.le_max_right m n, ?_⟩
  cases hp : (runAmong k e d (max m n)).cycle.point <;>
    first | rfl | (rw [hp] at hfinal; cases hfinal)

end

/-- Others change the store once, while the first instance is processed. -/
def changedOnce (f : MemoryStore → MemoryStore) (n : Nat) : Meeting MemoryStore where
  moment := { now := .ofMillis 6000 }
  others := if n = 7 then f else id
  pool := .ofConfig {}

/-- The two instances were fetched together. -/
def twoTogether : Drain MemoryStore where
  shared := twoInTurn.shared
  actor := twoInTurn.actor.setState .draining
  cycle := { point := .picking ⟨twoInTurn.shared.store.jobs, false⟩, report := { fetched := 2 } }

theorem runAmong_changedOnce (f : MemoryStore → MemoryStore) (n : Nat) :
    runAmong {} (changedOnce f) twoInTurn (3 + n) =
      runAmong {} (fun i => changedOnce f (3 + i)) twoTogether n := by
  have hall : ∀ j ∈ twoInTurn.shared.store.jobs,
      twoInTurn.actor.key.isReady j (.ofMillis 6000) = true := by decide +kernel
  have hready : JobStore.fetchReady twoTogether.shared.store twoTogether.actor.key (.ofMillis 6000)
      10 = .ok (twoTogether.shared.store.jobs.take 10) :=
    congrArg (fun js : List Job => Except.ok (js.take 10))
      (MemoryStore.ready_eq (by decide +kernel) fun j => ⟨fun h => ⟨h, hall j h⟩, And.left⟩)
  have hfetch : Cycle.fetch {} { now := .ofMillis 6000 } twoTogether.shared twoTogether.actor
      { point := .fetching } = (twoTogether.shared, twoTogether.actor, twoTogether.cycle) := by
    simp only [Cycle.fetch, Cycle.answered]
    rw [show max 10 1 = 10 from rfl, hready]
    rfl
  have hthree : runAmong {} (changedOnce f) twoInTurn 3 = twoTogether :=
    congrArg (fun x : Cycle.Next MemoryStore =>
      Drain.mk x.1 x.2.1 x.2.2 (Point.fetching.handed? x.2.2.point).toList) hfetch
  rw [runAmong_add, hthree]

/-- The first instance is given back. -/
def givenBack (s : MemoryStore) : MemoryStore :=
  s.updateAt 1 (fun j => { j with state := .deferred }) fun _ => rfl

theorem isFinal_givenBack :
    (runAmong {} (changedOnce givenBack) twoInTurn 16).cycle.point.isFinal = true := by
  rw [show 16 = 3 + 13 from rfl, runAmong_changedOnce]
  decide +kernel

theorem local_givenBack (n : Nat) :
    Local {} twoInTurn.actor.key 1 (runAmong {} (changedOnce givenBack) twoInTurn n)
      (changedOnce givenBack n) := by
  have hthere : ∀ n < 16, ((storeAt {} (changedOnce givenBack) twoInTurn n).recorded? 1).isSome := by
    have hfirst : ∀ n < 3,
        ((storeAt {} (changedOnce givenBack) twoInTurn n).recorded? 1).isSome := by decide +kernel
    have hlater : ∀ n < 13, (((changedOnce givenBack (3 + n)).others (runAmong {}
        (fun i => changedOnce givenBack (3 + i)) twoTogether n).shared.store).recorded? 1).isSome := by
      decide +kernel
    intro n hn
    by_cases hlt : n < 3
    · exact hfirst n hlt
    · obtain ⟨m, rfl⟩ := Nat.exists_eq_add_of_le (Nat.not_lt.1 hlt)
      rw [storeAt, runAmong_changedOnce]
      exact hlater m (by omega)
  refine ⟨trivial, fun i hi r hr => ?_, fun _ => ⟨_, rfl⟩, ?_, ?_, fun j t b hp _ => ?_⟩
  · unfold changedOnce
    dsimp only
    split
    · exact (MemoryStore.standing?_updateAt_of_ne hi).trans hr
    · exact hr
  · intro hlost
    cases hlost
  · intro f hf
    cases hf
  · refine hthere n ?_
    by_contra hn
    have hfinal := isFinal_of_le isFinal_givenBack (Nat.not_lt.1 hn)
    rw [hp] at hfinal
    cases hfinal

/-- The first instance is given back while it is processed: its commit is
    refused, and the second one is served. -/
theorem failures_stay_with_the_instance_given_back :
    let e := changedOnce givenBack
    let run := runAmong {} e twoInTurn
    (∃ m, 3 ≤ m ∧ ServedInOrder (ServedAt {} twoInTurn.actor.key e twoInTurn)
      (twoInTurn.shared.store.jobs.filter (·.id ≠ 1)) 3 m) ∧
    (twoInTurn.shared.store.jobs.filter (·.id ≠ 1)).map (·.id) = [2] ∧
    (run 16).cycle.point.report?.map (fun r => (r.claimed, r.done)) = some (2, 1) ∧
    (run 16).shared.store.jobs.map (fun j => (j.id, j.state)) = [(1, .deferred), (2, .done)] := by
  intro e run
  have hrun (n : Nat) : run (3 + n) = _ := runAmong_changedOnce givenBack n
  have hkey : twoInTurn.actor.key.build = .ok twoInTurn.actor.key := by decide +kernel
  have hthree : (run 3).cycle.point = .picking ⟨twoInTurn.shared.store.jobs, false⟩ := by
    rw [show run 3 = _ from hrun 0]
    rfl
  obtain ⟨hserves, -, -⟩ := failures_of_one_instance_stay_local hkey rfl rfl rfl trivial
    local_givenBack (granted_of_isFinal isFinal_givenBack)
  obtain ⟨m, hm, -, hserved⟩ := hserves 3 _ hthree
  refine ⟨⟨m, hm, hserved⟩, by decide +kernel, ?_⟩
  rw [show run 16 = _ from hrun 13]
  decide +kernel

/-- The first instance is deleted while it is processed: its commit ends the
    cycle, and the second one of the batch is not claimed. -/
theorem deleted_instance_cuts_its_batch_short :
    let run := runAmong {} (changedOnce (·.erase 1)) twoInTurn
    (run 3).cycle.point.ahead.map (·.id) = [1, 2] ∧
    (run 8).handed.map (·.id) = [1] ∧
    (run 8).cycle.point.error? = some (.storeUnavailable "jobs"
      (Error.notFound "JobInstance" "1").message) ∧
    (run 8).shared.store.jobs.map (fun j => (j.id, j.state)) = [(2, .new)] := by
  intro run
  have hrun (n : Nat) : run (3 + n) = _ := runAmong_changedOnce (·.erase 1) n
  rw [show run 3 = _ from hrun 0, show run 8 = _ from hrun 5]
  decide +kernel

end Drain

end DueWork

/-
  The way of a drain cycle through the instances that it fetched.

  `Edge` says what a step does with the fetched instances and with the store:
  it fetches some, loses or wins the claim of the next one, settles and commits
  it, or goes on without a call.  `Point.ComesTo` says that a cycle cannot end
  well without having come to an instance; a step that goes on without a call
  keeps this.
-/
import DueWork.Proofs.Actor.Drain

namespace DueWork

open Time Signal

namespace Point

/-- The fetched instances that are not claimed yet. -/
def ahead : Point → List Job
  | picking b | processing _ b | committing _ _ b => b.jobs
  | admission j b _ | suspended j b _ | claiming j b => j :: b.jobs
  | _ => []

/-- The cycle still comes to the instance, or it is stopped or cut short. -/
def ComesTo (id : Int) (stop : Bool) : Point → Prop
  | start | checking | fetching => True
  | picking b | processing _ b | committing _ _ b => (∃ j ∈ b.jobs, j.id = id) ∨ b.full = true
  | admission j b _ | suspended j b _ | claiming j b =>
    (∃ i ∈ j :: b.jobs, i.id = id) ∨ b.full = true
  | closing => stop = true
  | lookingAhead => False
  | ended (.ok r) => r.stopped = true
  | ended (.error _) | panicked _ => True

end Point

/-- The commit of an outcome does not take place, and this store is left. -/
def Refused {σ : Type} [JobStore σ] (key : Key) (m : Moment) (s : σ) (j : Job) (t : Transition)
    (s' : σ) : Prop :=
  match m.failure with
  | some _ => s' = s
  | none => ∃ e, JobStore.commit s key j.id t m.now = (.error e, s')

theorem Refused.of_error {σ : Type} [JobStore σ] {key : Key} {m : Moment} {s s' : σ} {j : Job}
    {t : Transition} {e : Error} (hm : m.failure = none)
    (h : JobStore.commit s key j.id t m.now = (.error e, s')) : Refused key m s j t s' := by
  simp only [Refused, hm]
  exact ⟨e, h⟩

/-- The call at a point fails, and this store is left. -/
def Point.Fails {σ : Type} [JobStore σ] (key : Key) (m : Moment) (s : σ) (s' : σ) : Point → Prop
  | .claiming j _ => s' = s ∨ ∃ e, JobStore.claim s key j.id j.state m.now = (.error e, s')
  | .processing _ _ => False
  | .committing j t _ => Refused key m s j t s'
  | _ => s' = s

/-- The ways of a step from one store and point to the next. -/
inductive Edge {σ : Type} [JobStore σ] (k : ActorConfig) (key : Key) (m : Moment) (stop : Bool) :
    σ → Point → σ → Point → Prop
  /-- the cycle goes on -/
  | quiet {s : σ} {p p' : Point} (hp : p.claimed? = none) (hp' : p'.claimed? = none)
    (hahead : p'.ahead = p.ahead ∨ p'.ahead = [])
    (hcomes : ∀ id, p.ComesTo id stop → p'.ComesTo id stop) : Edge k key m stop s p s p'
  /-- a call failed -/
  | cut {s s' : σ} {p p' : Point} (hp : p.Fails key m s s') (hp' : p'.isFinal = true)
    (hcomes : ∀ id, p'.ComesTo id stop) : Edge k key m stop s p s' p'
  | fetched {s : σ} {js : List Job} {limit : Nat}
    (h : JobStore.fetchReady s key m.now limit = .ok js) :
    Edge k key m stop s .fetching s (.picking ⟨js, !decide (js.length < limit)⟩)
  | lost {s s' : σ} {j : Job} {b : Batch}
    (h : m.claimLost = true ∧ s' = s ∨
      JobStore.claim s key j.id j.state m.now = (.ok false, s')) :
    Edge k key m stop s (.claiming j b) s' (.picking b)
  | won {s s' : σ} {j : Job} {b : Batch}
    (h : JobStore.claim s key j.id j.state m.now = (.ok true, s')) :
    Edge k key m stop s (.claiming j b) s' (.processing { j with state := .running } b)
  | settled {s : σ} (j : Job) (b : Batch) :
    Edge k key m stop s (.processing j b) s (.committing j
      ((m.processing.outcome k.processorTimeout).transition k.retry m.now m.jitter j) b)
  | committed {s s' : σ} {j : Job} {t : Transition} {b : Batch}
    (hm : m.failure = none) (h : JobStore.commit s key j.id t m.now = (.ok (), s')) :
    Edge k key m stop s (.committing j t b) s' (.picking b)
  | refused {s s' : σ} {j : Job} {t : Transition} {b : Batch} (h : Refused key m s j t s') :
    Edge k key m stop s (.committing j t b) s' (.picking b)

namespace Cycle

variable {σ : Type} [JobStore σ]

/-- A step goes along an edge and leaves the request to stop alone. -/
structure Turned (k : ActorConfig) (m : Moment) (s : Shared σ) (a : Actor) (c : Cycle)
    (next : Next σ) : Prop where
  edge : Edge k a.key m a.stopRequested s.store c.point next.1.store next.2.2.point
  stop : next.2.1.stopRequested = a.stopRequested

variable {k : ActorConfig} {m : Moment} {s : Shared σ} {a : Actor} {c : Cycle} {j : Job} {b : Batch}

/-- A commit that does not take place is answered with a failure. -/
theorem answered_of_refused {key : Key} {store store' : σ} {t : Transition}
    (h : Refused key m store j t store') :
    ∃ f, answered m (JobStore.commit store key j.id t m.now).1 = .error f := by
  unfold Refused at h
  unfold answered
  cases hf : m.failure with
  | some f => exact ⟨f, rfl⟩
  | none =>
    simp only [hf] at h
    obtain ⟨e, he⟩ := h
    exact ⟨.error e, by rw [he]⟩

theorem turned_cutShort (f : Failure) {store : σ} (hp : c.point.Fails a.key m s.store store) :
    Turned k m s a c (cutShort m { s with store := store } a c f) := by
  have hedge {p' : Point} (hfinal : p'.isFinal = true)
      (hcomes : ∀ id, p'.ComesTo id a.stopRequested) : Edge k a.key m a.stopRequested s.store
        c.point (releasePermit { s with store := store } c.point).store p' := by
    rw [store_releasePermit]
    exact .cut hp hfinal hcomes
  cases f with
  | error e => exact ⟨hedge rfl fun _ => trivial, by simp [cutShort, endFailed]⟩
  | panic message => exact ⟨hedge rfl fun _ => trivial, rfl⟩

/-- A step that makes no call. -/
theorem turned_quiet {a' : Actor} {c' : Cycle} (hstop : a'.stopRequested = a.stopRequested)
    (hp : c.point.claimed? = none) (hp' : c'.point.claimed? = none)
    (hahead : c'.point.ahead = c.point.ahead ∨ c'.point.ahead = [])
    (hcomes : ∀ id, c.point.ComesTo id a.stopRequested → c'.point.ComesTo id a.stopRequested) :
    Turned k m s a c (s, a', c') :=
  ⟨.quiet hp hp' hahead hcomes, hstop⟩

theorem turned_close (hp : c.point.claimed? = none)
    (hcomes : ∀ id, c.point.ComesTo id a.stopRequested → a.stopRequested = true) :
    Turned k m s a c (close m s a c) :=
  turned_quiet rfl hp rfl (.inr rfl) hcomes

theorem turned_enter (hp : c.point = .start) : Turned k m s a c (enter s a c) := by
  unfold enter
  split <;> exact turned_quiet (by simp) (by rw [hp]; rfl) rfl (.inr rfl)
    fun _ _ => by simp [Point.ComesTo]

theorem turned_fetch {n : Nat} (hp : c.point = .fetching) :
    Turned k m s a c (fetch { k with batchSize := n } m s a c) := by
  simp only [fetch]
  split
  · exact turned_cutShort _ (by rw [hp]; rfl)
  · rename_i hfetch
    refine ⟨?_, rfl⟩
    rw [hp]
    exact .fetched (answered_eq_ok.1 hfetch).2

theorem turned_pick (hp : c.point = .picking b) : Turned k m s a c (pick m s a c b) := by
  unfold pick
  split
  case h_1 hb =>
    split
    · exact turned_quiet rfl (by rw [hp]; rfl) rfl (.inr rfl) fun _ _ => trivial
    · refine turned_close (by rw [hp]; rfl) fun id hid => ?_
      rw [hp] at hid
      simp_all [Point.ComesTo]
  case h_2 i js hb =>
    split
    case isTrue hstop => exact turned_close (by rw [hp]; rfl) fun _ _ => hstop
    case isFalse =>
      refine turned_quiet rfl (by rw [hp]; rfl) rfl (.inl ?_) fun id hid => ?_
      · rw [hp]
        exact hb.symm
      · rw [hp] at hid
        simpa [Point.ComesTo, hb] using hid

theorem turned_ask {n : UInt32} (hp : c.point = .admission j b n) :
    Turned k m s a c (ask s a c j b n) := by
  unfold ask
  split
  case h_1 pool hacq =>
    refine ⟨?_, by dsimp only; split <;> simp⟩
    refine .quiet (by rw [hp]; rfl) rfl ?_ fun id hid => ?_
    · rw [hp]
      exact .inl rfl
    · rw [hp] at hid
      exact hid
  case h_2 =>
    refine turned_quiet (by split <;> simp) (by rw [hp]; rfl) rfl ?_ fun id hid => ?_
    · rw [hp]
      exact .inl rfl
    · rw [hp] at hid
      exact hid

theorem turned_wake {n : UInt32} (hp : c.point = .suspended j b n) :
    Turned k m s a c (wake m s a c j b n) := by
  unfold wake
  split
  · refine turned_quiet rfl (by rw [hp]; rfl) rfl ?_ fun id hid => ?_
    · rw [hp]
      exact .inl rfl
    · rw [hp] at hid
      exact hid
  · split
    case isTrue hstop => exact turned_close (by rw [hp]; rfl) fun _ _ => hstop
    case isFalse =>
      exact turned_quiet rfl (by rw [hp]; rfl) (by rw [hp]; rfl) (.inl rfl) fun _ => id

/-- An instance is dealt with, and the cycle goes on with the batch. -/
theorem turned_goOn {a' : Actor} {c' : Cycle} {store : σ} (hstop : a'.stopRequested = a.stopRequested)
    (hedge : Edge k a.key m a.stopRequested s.store c.point store (.picking b)) :
    Turned k m s a c (goOn { s with store := store } a' c' b) := by
  refine ⟨?_, hstop⟩
  show Edge k a.key m a.stopRequested s.store c.point (releasePermit _ c'.point).store _
  rw [store_releasePermit]
  exact hedge

theorem turned_claim (hp : c.point = .claiming j b) : Turned k m s a c (claim m s a c j b) := by
  simp only [claim, called, answered]
  cases m.failure with
  | some f => exact turned_cutShort f (by rw [hp]; exact .inl rfl)
  | none =>
    cases hlost : m.claimLost with
    | true => exact turned_goOn rfl (by rw [hp]; exact .lost (.inl ⟨hlost, rfl⟩))
    | false =>
      simp only [Bool.false_eq_true, if_false]
      cases hclaim : JobStore.claim s.store a.key j.id j.state m.now with
      | mk answer store =>
        cases answer with
        | error e => exact turned_cutShort (.error e) (by rw [hp]; exact .inr ⟨e, hclaim⟩)
        | ok won =>
          cases won with
          | false => exact turned_goOn rfl (by rw [hp]; exact .lost (.inr hclaim))
          | true => exact ⟨by rw [hp]; exact .won hclaim, rfl⟩

theorem stopRequested_countCommitted (a : Actor) (c : Cycle) (st : State) :
    (countCommitted a c st).1.stopRequested = a.stopRequested := by
  cases st <;> rfl

theorem turned_commit {t : Transition} (hp : c.point = .committing j t b) :
    Turned k m s a c (commit m s a c j t b) := by
  -- a commit that failed is passed over, or ends the cycle
  have hfailed (f : Failure) (store : σ) (h : Refused a.key m s.store j t store) :
      Turned k m s a c (cutShort m { s with store := store } a c f) ∧
        Turned k m s a c (goOn { s with store := store } a c b) :=
    ⟨turned_cutShort f (by rw [hp]; exact h), turned_goOn rfl (by rw [hp]; exact .refused h)⟩
  simp only [commit, called, answered]
  cases hm : m.failure with
  | some f =>
    obtain ⟨hcut, hgoOn⟩ := hfailed f s.store (by simp only [Refused, hm])
    dsimp only
    split
    case h_1 heq => cases heq
    case h_2 heq => cases heq; exact hgoOn
    case h_3 heq => cases heq; exact hcut
  | none =>
    cases hcommit : JobStore.commit s.store a.key j.id t m.now with
    | mk answer store =>
      cases answer with
      | ok =>
        exact turned_goOn (stopRequested_countCommitted a c t.state)
          (by rw [hp]; exact .committed hm hcommit)
      | error e =>
        obtain ⟨hcut, hgoOn⟩ := hfailed (.error e) store (.of_error hm hcommit)
        cases e with
        | invalidTransition => exact hgoOn
        | _ => exact hcut

theorem turned_check (hp : c.point = .closing) : Turned k m s a c (check s a c) := by
  unfold check
  split
  case isTrue => exact turned_quiet (by simp) (by rw [hp]; rfl) rfl (.inr rfl) fun _ _ => rfl
  case isFalse hstop =>
    refine turned_quiet rfl (by rw [hp]; rfl) rfl (.inr rfl) fun id hid => ?_
    rw [hp] at hid
    exact absurd hid hstop

theorem turned_lookAhead (hp : c.point = .lookingAhead) :
    Turned k m s a c (lookAhead m s a c) := by
  have hnever (i : Int) : ¬c.point.ComesTo i a.stopRequested := by
    rw [hp]
    exact id
  unfold lookAhead
  split <;> exact turned_quiet (by simp) (by rw [hp]; rfl) rfl (.inr rfl)
    fun i hi => absurd hi (hnever i)

/-- Every step goes along an edge, whatever the batch size. -/
theorem step_turned (k : ActorConfig) (n : Nat) (m : Moment) (s : Shared σ) (a : Actor) (c : Cycle) :
    Turned k m s a c (c.step { k with batchSize := n } m s a) := by
  unfold step
  cases hp : c.point with
  | start => exact turned_enter hp
  | checking =>
    simp only
    split
    case isTrue hstop => exact turned_close (by rw [hp]; rfl) fun _ _ => hstop
    case isFalse =>
      exact turned_quiet rfl (by rw [hp]; rfl) rfl (.inr rfl) fun _ _ => trivial
  | fetching => exact turned_fetch hp
  | picking b => exact turned_pick hp
  | admission j b n => exact turned_ask hp
  | suspended j b n => exact turned_wake hp
  | claiming j b => exact turned_claim hp
  | processing j b =>
    refine ⟨?_, rfl⟩
    rw [hp]
    exact .settled j b
  | committing j t b => exact turned_commit hp
  | closing => exact turned_check hp
  | lookingAhead => exact turned_lookAhead hp
  | ended r =>
    exact turned_quiet rfl (by rw [hp]; rfl) (by rw [hp]; rfl) (.inl rfl) fun _ => id
  | panicked message =>
    exact turned_quiet rfl (by rw [hp]; rfl) (by rw [hp]; rfl) (.inl rfl) fun _ => id

end Cycle

end DueWork

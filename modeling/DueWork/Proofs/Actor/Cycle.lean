/-
  One step of a drain cycle.

  A step changes four things together: the store and the point at which the
  cycle stands (`Move`), the permits of the pool, the actor (`Follows`), and
  what the cycle reports.  `step_stepped` says so for every step; nothing else
  opens the steps.

  * `Move` are the ways in which a step can use the store;
  * `Point.call?` is the call that a step makes, and `Phase` where a cycle is
    between the calls on one instance: `Move.phase` ties the two.
-/
import DueWork.Actor.Cycle

namespace DueWork

open Time Signal

/-! ## Calls -/

/-- A call on an instance. -/
inductive JobCall where
  /-- its claim was won, and its processor is called -/
  | won (id : Int)
  /-- its processor is done -/
  | processed (id : Int)
  /-- its outcome is committed, or the commit fails -/
  | committed (id : Int)
deriving DecidableEq, Repr

/-- The call that a cycle makes on its way from one point to the next. -/
def Point.call? : Point → Point → Option JobCall
  | .claiming j _, .processing _ _ => some (.won j.id)
  | .processing j _, _ => some (.processed j.id)
  | .committing j _ _, _ => some (.committed j.id)
  | _, _ => none

/-- Where a cycle is between the calls on one instance. -/
inductive Phase where
  /-- it holds no instance -/
  | free
  /-- the processor of this instance is running -/
  | held (id : Int)
  /-- the outcome of this instance is not committed yet -/
  | decided (id : Int)
deriving DecidableEq, Repr

def Point.phase : Point → Phase
  | .processing j _ => .held j.id
  | .committing j _ _ => .decided j.id
  | _ => .free

/-- The phase after a call, if the call may come now. -/
def Phase.next? : Phase → JobCall → Option Phase
  | .free, .won id => some (.held id)
  | .held i, .processed id => if i = id then some (.decided id) else none
  | .decided i, .committed id => if i = id then some .free else none
  | _, _ => none

/-- The report at the end of a cycle that was not cut short. -/
def Point.report? : Point → Option Report
  | .ended (.ok r) => some r
  | _ => none

theorem Point.phase_of_isFinal {p : Point} (h : p.isFinal = true) : p.phase = .free := by
  cases p <;> first | rfl | cases h

/-- A cycle that takes hold of no instance has called no processor. -/
theorem Point.call?_claiming {j : Job} {b : Batch} {p : Point} (h : p.phase = .free) :
    (Point.claiming j b).call? p = none := by
  cases p <;> first | rfl | cases h

/-- The instance that is held in a phase. -/
def Phase.id? : Phase → Option Int
  | .held id | .decided id => some id
  | .free => none

theorem Point.id?_phase (p : Point) : p.phase.id? = p.claimed?.map (·.id) := by
  cases p <;> rfl

/-! ## Actors -/

/-- An actor keeps its key, and a stopped one stays so. -/
structure Actor.Persists (a a' : Actor) : Prop where
  key : a'.key = a.key
  isStopped : a.isStopped = true → a'.isStopped = true

/-- What no step of a cycle changes of its actor. -/
structure Actor.Follows (a a' : Actor) : Prop extends Actor.Persists a a' where
  earlyWakes : a'.metrics.earlyWakes = a.metrics.earlyWakes

namespace Actor

variable {a a' : Actor}

theorem Persists.refl (a : Actor) : a.Persists a := ⟨rfl, id⟩

theorem Persists.trans {a'' : Actor} (h : a.Persists a') (h' : a'.Persists a'') :
    a.Persists a'' :=
  ⟨h'.key.trans h.key, h'.isStopped ∘ h.isStopped⟩

theorem Follows.refl (a : Actor) : a.Follows a := ⟨.refl a, rfl⟩

theorem Follows.trans {a'' : Actor} (h : a.Follows a') (h' : a'.Follows a'') : a.Follows a'' where
  toPersists := h.toPersists.trans h'.toPersists
  earlyWakes := h'.earlyWakes.trans h.earlyWakes

theorem follows_setState (a : Actor) (st : RunState) : a.Follows (a.setState st) := by
  unfold setState
  split
  case isTrue => exact .refl a
  case isFalse h => exact ⟨⟨rfl, fun hs => absurd (by simpa [isStopped] using hs) h⟩, rfl⟩

theorem follows_count (a : Actor) {f : Metrics → Metrics}
    (hf : (f a.metrics).earlyWakes = a.metrics.earlyWakes) : a.Follows (a.count f) :=
  ⟨⟨rfl, id⟩, hf⟩

theorem isStopped_setState_stopped (a : Actor) : (a.setState .stopped).isStopped = true := by
  unfold setState isStopped
  split <;> simp_all

end Actor

/-! ## Steps -/

/-- The ways of a step from one store and point to the next. -/
inductive Move {σ : Type} [JobStore σ] (key : Key) : σ → Point → σ → Point → Prop
  /-- nothing happens to an instance -/
  | quiet (store : σ) {p p' : Point} (h : p'.phase = p.phase) (hc : p.call? p' = none) :
    Move key store p store p'
  /-- another claimant was first -/
  | lost {store store' : σ} {j : Job} {b : Batch} {now : Instant}
    (h : JobStore.claim store key j.id j.state now = (.ok false, store')) :
    Move key store (.claiming j b) store' (.picking b)
  /-- the claim is won, and the processor is called -/
  | won {store store' : σ} {j : Job} {b : Batch} {now : Instant}
    (h : JobStore.claim store key j.id j.state now = (.ok true, store')) :
    Move key store (.claiming j b) store' (.processing { j with state := .running } b)
  /-- the claim failed -/
  | unclaimed {store store' : σ} {j : Job} {b : Batch} {now : Instant} {e : Error} {p' : Point}
    (h : JobStore.claim store key j.id j.state now = (.error e, store')) (hp : p'.phase = .free) :
    Move key store (.claiming j b) store' p'
  /-- the processor is done -/
  | processed (store : σ) (j : Job) (t : Transition) (b : Batch) :
    Move key store (.processing j b) store (.committing j t b)
  | committed {store store' : σ} {j : Job} {t : Transition} {b : Batch} {now : Instant}
    (h : JobStore.commit store key j.id t now = (.ok (), store')) :
    Move key store (.committing j t b) store' (.picking b)
  /-- the commit failed -/
  | refused {store store' : σ} {j : Job} {t : Transition} {b : Batch} {now : Instant} {e : Error}
    {p' : Point} (h : JobStore.commit store key j.id t now = (.error e, store'))
    (hp : p'.phase = .free) : Move key store (.committing j t b) store' p'
  /-- the commit did not reach the store -/
  | uncommitted (store : σ) (j : Job) (t : Transition) (b : Batch) {p' : Point}
    (h : p'.phase = .free) : Move key store (.committing j t b) store p'

/-- A step makes the call that its phase allows, or none and keeps the phase. -/
theorem Move.phase {σ : Type} [JobStore σ] {key : Key} {store store' : σ} {p p' : Point}
    (h : Move key store p store' p') :
    match p.call? p' with
    | some call => p.phase.next? call = some p'.phase
    | none => p'.phase = p.phase := by
  cases h with
  | quiet h hc => rw [hc]; exact h
  | lost => rfl
  | won => rfl
  | unclaimed _ hp =>
    rw [Point.call?_claiming hp]
    exact hp
  | processed => simp [Point.call?, Point.phase, Phase.next?]
  | committed => simp [Point.call?, Point.phase, Phase.next?]
  | refused _ h | uncommitted _ _ _ h =>
    rw [h]
    simp [Point.call?, Point.phase, Phase.next?]

namespace Cycle

variable {σ : Type}

@[simp] theorem store_releasePermit (s : Shared σ) (p : Point) :
    (releasePermit s p).store = s.store := by
  unfold releasePermit; split <;> rfl

theorem pool_releasePermit (s : Shared σ) (p : Point) :
    ∃ permits, (releasePermit s p).pool = { s.pool with freePermits := permits } := by
  unfold releasePermit; split
  · exact ⟨_, rfl⟩
  · exact ⟨s.pool.freePermits, rfl⟩

/-- A cycle says that it was stopped only if its actor is. -/
def Honest (a : Actor) (c : Cycle) : Prop :=
  c.report.stopped = false ∧
    ∀ r, c.point.report? = some r → r.stopped = true → a.isStopped = true

theorem Honest.of_report {a a' : Actor} {c c' : Cycle} (h : c.Honest a)
    (hr : c'.report.stopped = c.report.stopped) (hp : c'.point.report? = none) : c'.Honest a' :=
  ⟨hr.trans h.1, fun r he => by rw [hp] at he; cases he⟩

theorem Honest.persists {a a' : Actor} {c : Cycle} (h : c.Honest a) (hp : a.Persists a') :
    c.Honest a' :=
  ⟨h.1, fun r hr hs => hp.isStopped (h.2 r hr hs)⟩

/-- A store call is answered if the moment lets it through and the store answers. -/
theorem answered_eq_ok {α : Type} {m : Moment} {r : Except Error α} {x : α} :
    answered m r = .ok x ↔ m.failure = none ∧ r = .ok x := by
  unfold answered
  cases m.failure <;> cases r <;> simp

/-- A call that may change the store changes nothing else. -/
theorem called_eq {α : Type} (m : Moment) (s : Shared σ) (call : Except Error α × σ) :
    ∃ store, called m s call = (answered m call.1, { s with store := store }) := by
  unfold called
  split
  · exact ⟨s.store, rfl⟩
  · exact ⟨call.2, rfl⟩

variable [JobStore σ]

/-- What a step does. -/
structure Stepped (s : Shared σ) (a : Actor) (c : Cycle) (next : Next σ) : Prop where
  move : Move a.key s.store c.point next.1.store next.2.2.point
  pool : ∃ permits, next.1.pool = { s.pool with freePermits := permits }
  actor : a.Follows next.2.1
  honest : c.Honest a → next.2.2.Honest next.2.1

variable {s : Shared σ} {a : Actor} {c : Cycle} {m : Moment} {j : Job} {b : Batch}

/-- A step that goes to another point and changes the actor at most. -/
theorem stepped_quiet {a' : Actor} {c' : Cycle} (ha : a.Follows a')
    (hp : c'.point.phase = c.point.phase) (hc : c.point.call? c'.point = none)
    (hh : c.Honest a → c'.Honest a') : Stepped s a c (s, a', c') :=
  ⟨.quiet _ hp hc, ⟨s.pool.freePermits, rfl⟩, ha, hh⟩

theorem follows_endFailed (a : Actor) (c : Cycle) (e : Error) :
    a.Follows (endFailed a c e).1 :=
  .trans (a.follows_count rfl) (Actor.follows_setState ..)

/-- A store call that did not succeed ends the cycle. -/
theorem stepped_cutShort (f : Failure) {store : σ}
    (h : ∀ p', p'.isFinal = true → Move a.key s.store c.point store p') :
    Stepped s a c (cutShort m { s with store := store } a c f) := by
  have hpool : ∃ permits, (releasePermit { s with store := store } c.point).pool =
      { s.pool with freePermits := permits } := pool_releasePermit ..
  cases f with
  | error e =>
    refine ⟨?_, hpool, .trans (a.follows_count rfl) (follows_endFailed ..),
      fun hc => hc.of_report rfl rfl⟩
    show Move _ _ _ (releasePermit _ c.point).store _
    rw [store_releasePermit]; exact h _ rfl
  | panic message =>
    refine ⟨?_, hpool, .refl a, fun hc => hc.of_report rfl rfl⟩
    show Move _ _ _ (releasePermit _ c.point).store _
    rw [store_releasePermit]; exact h _ rfl

theorem stepped_close (hp : c.point.phase = .free) (hc : c.point.call? .closing = none) :
    Stepped s a c (close m s a c) :=
  stepped_quiet (a.follows_count rfl) hp.symm hc fun h => h.of_report rfl rfl

theorem stepped_enter (hp : c.point = .start) : Stepped s a c (enter s a c) := by
  unfold enter
  split
  · refine stepped_quiet (a.follows_setState _) (by rw [hp]; rfl) (by rw [hp]; rfl) ?_
    intro h
    exact ⟨h.1, fun _ _ _ => a.isStopped_setState_stopped⟩
  · exact stepped_quiet (a.follows_setState _) (by rw [hp]; rfl) (by rw [hp]; rfl)
      fun h => h.of_report rfl rfl

theorem stepped_fetch (k : ActorConfig) (hp : c.point = .fetching) :
    Stepped s a c (fetch k m s a c) := by
  simp only [fetch]
  split
  · exact stepped_cutShort _ fun p' hf =>
      .quiet _ (by rw [hp, Point.phase_of_isFinal hf]; rfl) (by rw [hp]; rfl)
  · exact stepped_quiet (.refl a) (by rw [hp]; rfl) (by rw [hp]; rfl)
      fun h => h.of_report rfl rfl

theorem stepped_pick (hp : c.point = .picking b) : Stepped s a c (pick m s a c b) := by
  have hclose : Stepped s a c (close m s a c) := stepped_close (by rw [hp]; rfl) (by rw [hp]; rfl)
  unfold pick
  split
  · split
    · exact stepped_quiet (.refl a) (by rw [hp]; rfl) (by rw [hp]; rfl)
        fun h => h.of_report rfl rfl
    · exact hclose
  · split
    · exact hclose
    · exact stepped_quiet (.refl a) (by rw [hp]; rfl) (by rw [hp]; rfl)
        fun h => h.of_report rfl rfl

theorem stepped_ask {attempt : UInt32} (hp : c.point = .admission j b attempt) :
    Stepped s a c (ask s a c j b attempt) := by
  unfold ask WorkerPool.acquire
  split
  case h_1 pool hacq =>
    split at hacq
    · cases hacq
    · cases hacq
      refine ⟨.quiet _ (by rw [hp]; rfl) (by rw [hp]; rfl), ⟨_, rfl⟩, ?_,
        fun h => h.of_report rfl rfl⟩
      show a.Follows (if attempt = 0 then a else _)
      split
      · exact .refl a
      · exact a.follows_setState _
  case h_2 =>
    refine stepped_quiet ?_ (by rw [hp]; rfl) (by rw [hp]; rfl) fun h => h.of_report rfl rfl
    split
    · exact (a.follows_setState _).trans (Actor.follows_count _ rfl)
    · exact .refl a

theorem stepped_wake {attempt : UInt32} (hp : c.point = .suspended j b attempt) :
    Stepped s a c (wake m s a c j b attempt) := by
  unfold wake
  split
  · exact stepped_quiet (.refl a) (by rw [hp]; rfl) (by rw [hp]; rfl) fun h => h.of_report rfl rfl
  · split
    · exact stepped_close (by rw [hp]; rfl) (by rw [hp]; rfl)
    · exact stepped_quiet (.refl a) rfl (by rw [hp]; rfl) id

/-- A lost claim: the store answers so, or it is not even asked. -/
theorem stepped_goOn {a' : Actor} {c' : Cycle} {store : σ} (ha : a.Follows a')
    (hr : c'.report.stopped = c.report.stopped)
    (hm : Move a.key s.store c.point store (.picking b)) :
    Stepped s a c (goOn { s with store := store } a' c' b) := by
  refine ⟨?_, ?_, ha, fun h => h.of_report hr rfl⟩
  · show Move _ _ _ (releasePermit _ c'.point).store _
    rw [store_releasePermit]; exact hm
  · show ∃ permits, (releasePermit { s with store := store } c'.point).pool = _
    exact pool_releasePermit ..

theorem stepped_claim (hp : c.point = .claiming j b) :
    Stepped s a c (claim m s a c j b) := by
  have hcut (f : Failure) : Stepped s a c (cutShort m s a c f) := stepped_cutShort f fun p' hf => by
    have hfree := Point.phase_of_isFinal hf
    exact .quiet _ (by rw [hp, hfree]; rfl) (by rw [hp]; exact Point.call?_claiming hfree)
  have hlost (store : σ) (hm : Move a.key s.store c.point store (.picking b)) :
      Stepped s a c (goOn { s with store := store } (countLost a c).1 (countLost a c).2 b) :=
    stepped_goOn ⟨⟨rfl, id⟩, rfl⟩ rfl hm
  simp only [claim, called, answered]
  cases m.failure with
  | some f => exact hcut f
  | none =>
    cases m.claimLost with
    | true => exact hlost s.store (.quiet _ (by rw [hp]; rfl) (by rw [hp]; rfl))
    | false =>
      simp only [Bool.false_eq_true, if_false]
      cases hclaim : JobStore.claim s.store a.key j.id j.state m.now with
      | mk answer store =>
        cases answer with
        | error e =>
          refine stepped_cutShort (.error e) fun p' hf => ?_
          rw [hp]
          exact .unclaimed hclaim (Point.phase_of_isFinal hf)
        | ok won =>
          cases won with
          | false => exact hlost store (by rw [hp]; exact .lost hclaim)
          | true =>
            refine ⟨?_, ⟨s.pool.freePermits, rfl⟩, ⟨⟨rfl, id⟩, rfl⟩, fun h => h.of_report rfl rfl⟩
            rw [hp]
            exact .won hclaim

theorem stepped_settle (k : ActorConfig) (hp : c.point = .processing j b) :
    Stepped s a c (settle k m s a c j b) := by
  refine ⟨?_, ⟨s.pool.freePermits, rfl⟩, .refl a, fun h => h.of_report rfl rfl⟩
  rw [hp]
  exact .processed ..

theorem follows_countCommitted (a : Actor) (c : Cycle) (st : State) :
    a.Follows (countCommitted a c st).1 ∧
      (countCommitted a c st).2.report.stopped = c.report.stopped := by
  unfold countCommitted
  split
  case h_4 => exact ⟨.refl a, rfl⟩
  all_goals exact ⟨⟨⟨rfl, id⟩, rfl⟩, rfl⟩

theorem stepped_commit {t : Transition} (hp : c.point = .committing j t b) :
    Stepped s a c (commit m s a c j t b) := by
  -- a commit that failed is passed over, or ends the cycle
  have hfailed (f : Failure) (store : σ)
      (hmove : ∀ p', p'.phase = .free → Move a.key s.store c.point store p') :
      Stepped s a c (cutShort m { s with store := store } a c f) ∧
        Stepped s a c (goOn { s with store := store } a c b) :=
    ⟨stepped_cutShort f fun p' hf => hmove p' (Point.phase_of_isFinal hf),
      stepped_goOn (.refl a) rfl (hmove _ rfl)⟩
  have huncommitted (p' : Point) (h : p'.phase = .free) :
      Move a.key s.store c.point s.store p' := by
    rw [hp]
    exact .uncommitted _ _ _ _ h
  simp only [commit, called, answered]
  cases m.failure with
  | some f =>
    obtain ⟨hcut, hgoOn⟩ := hfailed f s.store huncommitted
    dsimp only
    split
    case h_1 heq => cases heq
    case h_2 heq => cases heq; exact hgoOn
    case h_3 heq => cases heq; exact hcut
  | none =>
    cases hcommit : JobStore.commit s.store a.key j.id t m.now with
    | mk answer store =>
      cases answer with
      | ok =>
        obtain ⟨ha, hr⟩ := follows_countCommitted a c t.state
        exact stepped_goOn ha hr (by rw [hp]; exact .committed hcommit)
      | error e =>
        obtain ⟨hcut, hgoOn⟩ := hfailed (.error e) store fun p' h => by
          rw [hp]
          exact .refused hcommit h
        cases e with
        | invalidTransition => exact hgoOn
        | _ => exact hcut

theorem stepped_check (hp : c.point = .closing) : Stepped s a c (check s a c) := by
  unfold check
  split
  · refine stepped_quiet (a.follows_setState _) (by rw [hp]; rfl) (by rw [hp]; rfl) ?_
    intro h
    exact ⟨h.1, fun _ _ _ => a.isStopped_setState_stopped⟩
  · exact stepped_quiet (.refl a) (by rw [hp]; rfl) (by rw [hp]; rfl) fun h => h.of_report rfl rfl

theorem stepped_lookAhead (hp : c.point = .lookingAhead) :
    Stepped s a c (lookAhead m s a c) := by
  unfold lookAhead
  split
  · refine stepped_quiet (a.follows_setState _) (by rw [hp]; rfl) (by rw [hp]; rfl) ?_
    intro h
    refine ⟨h.1, ?_⟩
    intro r hr hs
    cases hr
    exact absurd h.1 (by simpa using hs)
  · rename_i e _
    exact stepped_quiet (follows_endFailed a c e) (by rw [hp]; rfl) (by rw [hp]; rfl)
      fun h => h.of_report rfl rfl
  · exact stepped_quiet (.refl a) (by rw [hp]; rfl) (by rw [hp]; rfl) fun h => h.of_report rfl rfl

/-- What a step of a drain cycle does, wherever the cycle stands. -/
theorem step_stepped (k : ActorConfig) (m : Moment) (s : Shared σ) (a : Actor) (c : Cycle) :
    Stepped s a c (c.step k m s a) := by
  unfold step
  cases hp : c.point with
  | start => exact stepped_enter hp
  | checking =>
    simp only
    split
    · exact stepped_close (by rw [hp]; rfl) (by rw [hp]; rfl)
    · exact stepped_quiet (.refl a) (by rw [hp]; rfl) (by rw [hp]; rfl) fun h => h.of_report rfl rfl
  | fetching => exact stepped_fetch k hp
  | picking b => exact stepped_pick hp
  | admission j b attempt => exact stepped_ask hp
  | suspended j b attempt => exact stepped_wake hp
  | claiming j b => exact stepped_claim hp
  | processing j b => exact stepped_settle k hp
  | committing j t b => exact stepped_commit hp
  | closing => exact stepped_check hp
  | lookingAhead => exact stepped_lookAhead hp
  | ended r => exact stepped_quiet (.refl a) rfl (by rw [hp]; rfl) id
  | panicked message => exact stepped_quiet (.refl a) rfl (by rw [hp]; rfl) id

end Cycle

end DueWork

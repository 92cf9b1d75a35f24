/-
  The way of a drain cycle from point to point.

  `Passage` has one constructor for each way in which a step can go on: what
  the request to stop and the moment have to do with it, and what becomes of
  the state of the actor.  `step_passage` says that every step is one of them.
-/
import DueWork.Proofs.Actor.Books

namespace DueWork

open Time Signal

/-- The state after it was to be changed: a stopped actor stays so. -/
def RunState.set (old new : RunState) : RunState := if old = .stopped then .stopped else new

theorem Actor.state_setState_eq (a : Actor) (st : RunState) :
    (a.setState st).state = a.state.set st :=
  a.state_setState st

/-- The next step from this point makes a store call. -/
def Point.callsStore : Point → Bool
  | fetching | claiming _ _ | committing _ _ _ | lookingAhead => true
  | _ => false

/-- The ways of a step from one point to the next, and from one state of the
    actor to the next; `stop` if the actor was asked to stop. -/
inductive Passage (stop : Bool) (m : Moment) :
    RunState → Point → RunState → Point → Prop
  /-- a cycle that was asked to stop before it began -/
  | declined {st : RunState} (hs : stop = true) :
    Passage stop m st .start .stopped (.ended (.ok { stopped := true }))
  | entered {st : RunState} (hs : stop = false) :
    Passage stop m st .start (st.set .draining) .checking
  /-- the request is seen before a fetch, -/
  | unfetched {st : RunState} (hs : stop = true) : Passage stop m st .checking st .closing
  /-- before an instance, -/
  | unpicked {st : RunState} {b : Batch} (hs : stop = true) :
    Passage stop m st (.picking b) st .closing
  /-- or while the actor is suspended -/
  | unasked {st : RunState} {j : Job} {b : Batch} {n : UInt32} (hs : stop = true) :
    Passage stop m st (.suspended j b n) st .closing
  | checked {st : RunState} (hs : stop = false) : Passage stop m st .checking st .fetching
  | fetched {st : RunState} (b : Batch) : Passage stop m st .fetching st (.picking b)
  | next {st : RunState} : Passage stop m st (.picking ⟨[], true⟩) st .checking
  | drained {st : RunState} : Passage stop m st (.picking ⟨[], false⟩) st .closing
  | picked {st : RunState} {j : Job} {js : List Job} {full : Bool} (hs : stop = false) :
    Passage stop m st (.picking ⟨j :: js, full⟩) st (.admission j ⟨js, full⟩ 0)
  | admitted {st : RunState} {j : Job} {b : Batch} {n : UInt32} :
    Passage stop m st (.admission j b n) (if n = 0 then st else st.set .draining) (.claiming j b)
  | suspended {st : RunState} {j : Job} {b : Batch} {n : UInt32} :
    Passage stop m st (.admission j b n) (if n = 0 then st.set .suspended else st)
      (.suspended j b n)
  | again {st : RunState} {j : Job} {b : Batch} {n : UInt32} (hd : m.delayOver = true) :
    Passage stop m st (.suspended j b n) st (.admission j b (Duration.nextCount n))
  | waits {st : RunState} {j : Job} {b : Batch} {n : UInt32} (hs : stop = false) :
    Passage stop m st (.suspended j b n) st (.suspended j b n)
  | lost {st : RunState} {j : Job} {b : Batch} : Passage stop m st (.claiming j b) st (.picking b)
  | won {st : RunState} {j : Job} {b : Batch} :
    Passage stop m st (.claiming j b) st (.processing { j with state := .running } b)
  | settled {st : RunState} {j : Job} {b : Batch} (t : Transition) :
    Passage stop m st (.processing j b) st (.committing j t b)
  /-- the commit was made, or refused as the instance was moved -/
  | committed {st : RunState} {j : Job} {t : Transition} {b : Batch} :
    Passage stop m st (.committing j t b) st (.picking b)
  /-- the last look whether to stop -/
  | stopped {st : RunState} {r : Report} (hs : stop = true) (hr : r.stopped = true) :
    Passage stop m st .closing .stopped (.ended (.ok r))
  | passed {st : RunState} (hs : stop = false) : Passage stop m st .closing st .lookingAhead
  | returned {st : RunState} (r : Report) :
    Passage stop m st .lookingAhead (st.set .idle) (.ended (.ok r))
  /-- a store call was answered with an error -/
  | failed {st : RunState} {p : Point} (partition message : String) (hp : p.callsStore = true) :
    Passage stop m st p (st.set .idle) (.ended (.error (.storeUnavailable partition message)))
  | panicked {st : RunState} {p : Point} {message : Option String} (hp : p.callsStore = true)
    (hf : m.failure = some (.panic message)) : Passage stop m st p st (.panicked message)
  | rests {st : RunState} {p : Point} (hp : p.isFinal = true) : Passage stop m st p st p

namespace Cycle

variable {σ : Type} {k : ActorConfig} {m : Moment} {s : Shared σ} {a : Actor} {c : Cycle} {j : Job}
  {b : Batch}

/-- A step is a passage. -/
def Passes (m : Moment) (a : Actor) (c : Cycle) (next : Next σ) : Prop :=
  Passage a.stopRequested m a.state c.point next.2.1.state next.2.2.point

theorem passes_of {p : Point} {next : Next σ} (hp : c.point = p)
    (h : Passage a.stopRequested m a.state p next.2.1.state next.2.2.point) : Passes m a c next := by
  rwa [Passes, hp]

/-- Only the moment has a call panic. -/
theorem failure_of_panic {α : Type} {x : Except Error α} {message : Option String}
    (h : answered m x = .error (.panic message)) : m.failure = some (.panic message) := by
  unfold answered at h
  split at h
  case h_1 f hf => cases h; exact hf
  case h_2 => cases h
  case h_3 => cases h

theorem state_endFailed (a : Actor) (c : Cycle) (e : Error) :
    (endFailed a c e).1.state = a.state.set .idle :=
  Actor.state_setState_eq ..

theorem passes_cutShort {α : Type} {x : Except Error α} {f : Failure}
    (h : answered m x = .error f) (hp : c.point.callsStore = true) :
    Passes m a c (cutShort m s a c f) := by
  cases f with
  | error e =>
    show Passage _ m a.state _ (endFailed _ _ e).1.state _
    rw [state_endFailed]
    exact .failed _ _ hp
  | panic message => exact .panicked hp (failure_of_panic h)

theorem state_setState_stopped (a : Actor) : (a.setState .stopped).state = .stopped := by
  rw [a.state_setState]
  split <;> rfl

theorem passes_enter (hp : c.point = .start) : Passes m a c (enter s a c) := by
  refine passes_of hp ?_
  unfold enter
  split
  next hs =>
    simp only [state_setState_stopped]
    exact .declined hs
  next hs =>
    simp only [Actor.state_setState_eq]
    exact .entered (Bool.eq_false_iff.2 hs)

theorem passes_pick (hp : c.point = .picking b) : Passes m a c (pick m s a c b) := by
  obtain ⟨js, full⟩ := b
  refine passes_of hp ?_
  unfold pick
  cases js with
  | nil =>
    cases full with
    | true => exact .next
    | false => exact .drained
  | cons j js =>
    simp only
    split
    next hs => exact .unpicked hs
    next hs => exact .picked (Bool.eq_false_iff.2 hs)

theorem passes_ask {n : UInt32} (hp : c.point = .admission j b n) :
    Passes m a c (ask s a c j b n) := by
  refine passes_of hp ?_
  unfold ask
  split
  next =>
    have hstate : (if n = 0 then a else a.setState .draining).state =
        if n = 0 then a.state else a.state.set .draining := by
      split
      · rfl
      · exact a.state_setState_eq _
    simp only [hstate]
    exact .admitted
  next =>
    have hstate : (if n = 0 then
          (a.setState .suspended).count fun m => { m with suspensions := m.suspensions + 1 }
        else a).state = if n = 0 then a.state.set .suspended else a.state := by
      split
      · exact a.state_setState_eq _
      · rfl
    simp only [hstate]
    exact .suspended

theorem passes_wake {n : UInt32} (hp : c.point = .suspended j b n) :
    Passes m a c (wake m s a c j b n) := by
  unfold wake
  split
  next hd => exact passes_of hp (.again hd)
  next =>
    split
    next hs => exact passes_of hp (.unasked hs)
    next hs =>
      refine passes_of hp ?_
      rw [hp]
      exact .waits (Bool.eq_false_iff.2 hs)

theorem passes_check (hp : c.point = .closing) : Passes m a c (check s a c) := by
  refine passes_of hp ?_
  unfold check
  split
  next hs =>
    simp only [state_setState_stopped]
    exact .stopped hs rfl
  next hs => exact .passed (Bool.eq_false_iff.2 hs)

theorem state_countCommitted (a : Actor) (c : Cycle) (st : State) :
    (countCommitted a c st).1.state = a.state := by
  cases st <;> rfl

variable [JobStore σ]

theorem passes_fetch (hp : c.point = .fetching) : Passes m a c (fetch k m s a c) := by
  simp only [fetch]
  split
  next f hf => exact passes_cutShort hf (by rw [hp]; rfl)
  next => exact passes_of hp (.fetched _)

theorem passes_claim (hp : c.point = .claiming j b) : Passes m a c (claim m s a c j b) := by
  simp only [claim]
  split
  next hf => exact passes_cutShort (congrArg Prod.fst hf) (by rw [hp]; rfl)
  next => exact passes_of hp .won
  next => exact passes_of hp .lost

theorem passes_commit {t : Transition} (hp : c.point = .committing j t b) :
    Passes m a c (commit m s a c j t b) := by
  unfold commit
  split
  next =>
    refine passes_of hp ?_
    show Passage _ m a.state _ (countCommitted a c t.state).1.state _
    rw [state_countCommitted]
    exact .committed
  next => exact passes_of hp .committed
  next hf => exact passes_cutShort (congrArg Prod.fst hf) (by rw [hp]; rfl)

theorem passes_lookAhead (hp : c.point = .lookingAhead) : Passes m a c (lookAhead m s a c) := by
  unfold lookAhead
  refine passes_of hp ?_
  split
  next =>
    simp only [Actor.state_setState_eq]
    exact .returned _
  next =>
    simp only [state_endFailed]
    exact .failed _ _ rfl
  next hf => exact .panicked rfl (failure_of_panic hf)

/-- Every step goes along a passage. -/
theorem step_passage (k : ActorConfig) (m : Moment) (s : Shared σ) (a : Actor) (c : Cycle) :
    Passes m a c (c.step k m s a) := by
  unfold step
  split
  next hp => exact passes_enter hp
  next hp =>
    split
    next hs => exact passes_of hp (.unfetched hs)
    next hs => exact passes_of hp (.checked (Bool.eq_false_iff.2 hs))
  next hp => exact passes_fetch hp
  next b hp => exact passes_pick hp
  next j b n hp => exact passes_ask hp
  next j b n hp => exact passes_wake hp
  next j b hp => exact passes_claim hp
  next j b hp => exact passes_of hp (.settled _)
  next j t b hp => exact passes_commit hp
  next hp => exact passes_check hp
  next hp => exact passes_lookAhead hp
  next r hp => exact .rests (by rw [hp]; rfl)
  next message hp => exact .rests (by rw [hp]; rfl)

end Cycle

end DueWork

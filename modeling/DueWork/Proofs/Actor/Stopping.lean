/-
  What becomes of an actor that is stopped.

  The stop comes in two parts, and may come wherever the cycle of the actor
  stands: first the actor is marked, then its cycle is asked to end.  From then
  on a mate `IsStopping`, whatever it finds when it takes its next steps, and
  whatever else is done to it.

  * a cycle that `Passage` takes further can win one claim more
    (`Passage.claimsLeft_le`), comes closer to its end unless it asks for a
    permit again (`Passage.stepsLeft_le`), and ends as stopped if it did not
    look for the last time (`Passage.lastLook`);
  * `StopHolds` collects what holds of the mate from then on, and `stop_holds`
    proves it of every mate.
-/
import DueWork.Proofs.Actor.Crew
import DueWork.Proofs.Manager.SingleFlight

namespace DueWork

open Time Signal

/-! ## Calls -/

def JobCall.isWon : JobCall → Bool
  | .won _ => true
  | _ => false

/-- The calls for one instance after another, each committed. -/
inductive WholeRounds : List JobCall → Prop
  | nil : WholeRounds []
  | round (id : Int) {cs : List JobCall} (h : WholeRounds cs) :
    WholeRounds (.won id :: .processed id :: .committed id :: cs)

/-- Calls that lead to where no instance is in hand are whole rounds. -/
theorem wholeRounds_of_after? {p : Phase} {cs : List JobCall} (h : p.after? cs = some .free) :
    WholeRounds (p.opening ++ cs) := by
  induction cs generalizing p with
  | nil =>
    cases h
    exact .nil
  | cons c cs ih =>
    obtain ⟨q, hq, h⟩ := Option.bind_eq_some_iff.1 h
    have hrounds := ih h
    obtain hopening | ⟨id, hopening, rfl, rfl⟩ := Phase.next?_eq_some hq
    · rwa [hopening, List.append_assoc] at hrounds
    · rw [hopening]
      exact .round id hrounds

/-! ## Passages of a cycle that is asked to end -/

namespace Point

/-- The claims that a cycle may still win from here. -/
def claimsLeft : Point → Nat
  | admission _ _ _ | suspended _ _ _ | claiming _ _ => 1
  | _ => 0

/-- The steps from here to the end, if no permit is asked for again. -/
def stepsLeft : Point → Nat
  | ended _ | panicked _ => 0
  | start | closing | lookingAhead => 1
  | checking => 2
  | picking _ => 3
  | fetching | committing _ _ _ => 4
  | processing _ _ => 5
  | claiming _ _ => 6
  | suspended _ _ _ => 7
  | admission _ _ _ => 8

theorem stepsLeft_le (p : Point) : p.stepsLeft ≤ 8 := by
  cases p <;> exact Nat.le_of_ble_eq_true rfl

theorem isFinal_of_stepsLeft {p : Point} (h : p.stepsLeft = 0) : p.isFinal = true := by
  cases p <;> first | rfl | cases h

/-- The last look whether to stop is still to come. -/
def isBeforeLastLook : Point → Bool
  | lookingAhead | ended _ | panicked _ => false
  | _ => true

end Point

/-- A step of a cycle. -/
structure Leg where
  before : Point
  moment : Moment
  after : Point

namespace Leg

def call? (l : Leg) : Option JobCall := l.before.call? l.after

/-- The calls of some steps. -/
def calls (ls : List Leg) : List JobCall := ls.flatMap (·.call?.toList)

/-- A claim is won. -/
def wins (l : Leg) : Bool := l.call?.any (·.isWon)

/-- The delay of a suspension was over before the request to stop was seen. -/
def asksAgain (l : Leg) : Bool :=
  match l.before with
  | .suspended _ _ _ => l.moment.delayOver
  | _ => false

end Leg

theorem Point.isBeforeLastLook_of_isFinal {p : Point} (h : p.isFinal = true) :
    p.isBeforeLastLook = false := by
  cases p <;> first | rfl | cases h

/-- How a cycle ends that was asked to stop before its last look: as stopped,
    with a store error, or in a call that panicked. -/
inductive StopEnding (ls : List Leg) : Point → Prop
  | stopped {r : Report} (hr : r.stopped = true) : StopEnding ls (.ended (.ok r))
  | failed (partition message : String) :
    StopEnding ls (.ended (.error (.storeUnavailable partition message)))
  | panicked {l : Leg} {message : Option String} (hl : l ∈ ls)
    (hf : l.moment.failure = some (.panic message)) : StopEnding ls (.panicked message)

theorem StopEnding.mono {ls ls' : List Leg} {p : Point} (h : StopEnding ls p) (hls : ls ⊆ ls') :
    StopEnding ls' p := by
  cases h with
  | stopped hr => exact .stopped hr
  | failed partition message => exact .failed partition message
  | panicked hl hf => exact .panicked (hls hl) hf

theorem StopEnding.isFinal {ls : List Leg} {p : Point} (h : StopEnding ls p) :
    p.isFinal = true := by
  cases h <;> rfl

namespace Passage

variable {m : Moment} {st st' : RunState} {p p' : Point}

theorem stays_stopped {stop : Bool} (h : Passage stop m st p st' p') (hst : st = .stopped) :
    st' = .stopped := by
  subst hst
  cases h with
  | admitted | suspended => split <;> rfl
  | _ => rfl

theorem claimsLeft_le (h : Passage true m st p st' p') :
    (if Leg.wins ⟨p, m, p'⟩ then 1 else 0) + p'.claimsLeft ≤ p.claimsLeft := by
  cases h with
  | entered hs | checked hs | picked hs | waits hs | passed hs => cases hs
  | failed _ _ hp | panicked hp =>
    cases p with
    | fetching | claiming | committing | lookingAhead => simp [Leg.wins, Leg.call?, Point.call?,
        Point.claimsLeft, JobCall.isWon]
    | _ => cases hp
  | rests hp =>
    cases p with
    | ended | panicked => exact Nat.le_refl _
    | _ => cases hp
  | _ => exact Nat.le_of_ble_eq_true rfl

theorem stepsLeft_le (h : Passage true m st p st' p') (hp : p.isFinal = false) :
    p'.stepsLeft + 1 ≤ p.stepsLeft + if Leg.asksAgain ⟨p, m, p'⟩ then 2 else 0 := by
  cases h with
  | entered hs | checked hs | picked hs | waits hs | passed hs => cases hs
  | again hd => simp [Leg.asksAgain, hd, Point.stepsLeft]
  | unasked => exact Nat.le_add_right_of_le (Nat.le_of_ble_eq_true rfl)
  | failed _ _ hcall | panicked hcall =>
    cases p with
    | fetching | claiming | committing | lookingAhead => simp [Leg.asksAgain, Point.stepsLeft]
    | _ => cases hcall
  | rests hover => exact Bool.noConfusion (hp.symm.trans hover)
  | _ => exact Nat.le_of_ble_eq_true rfl

theorem lastLook (h : Passage true m st p st' p') (hp : p.isBeforeLastLook = true) :
    p'.isBeforeLastLook = true ∨ StopEnding [⟨p, m, p'⟩] p' := by
  cases h with
  | entered hs | checked hs | picked hs | waits hs | passed hs => cases hs
  | declined => exact .inr (.stopped rfl)
  | stopped _ hr => exact .inr (.stopped hr)
  | returned => cases hp
  | failed partition message => exact .inr (.failed partition message)
  | panicked _ hf => exact .inr (.panicked List.mem_cons_self hf)
  | rests => exact .inl hp
  | _ => exact .inl rfl

theorem of_isFinal {stop : Bool} (h : Passage stop m st p st' p') (hp : p.isFinal = true) :
    p' = p := by
  cases h with
  | rests => rfl
  | failed _ _ hcall | panicked hcall =>
    cases p with
    | ended | panicked => cases hcall
    | _ => cases hp
  | _ => cases hp

end Passage

/-! ## The course of a mate -/

theorem Actor.setState_of_stopped {a : Actor} (h : a.state = .stopped) (st : RunState) :
    a.setState st = a :=
  if_pos h

/-- The cycle in progress is neither followed by another nor aborted. -/
def Doing.keepsCycle : Doing → Bool
  | begin | abort => false
  | _ => true

def Doing.isStep : Doing → Bool
  | step _ => true
  | _ => false

namespace Mate

variable {σ : Type} [JobStore σ] {x : Mate} {s : Shared σ} {d : Doing} {l : Leg}
  {es : List (Shared σ × Doing)}

/-- The step that the cycle takes in a doing, if one is in progress. -/
def leg? (s : Shared σ) (x : Mate) : Doing → Option Leg
  | .step m =>
    if x.isBusy then
      x.point?.bind fun p => (x.does s (.step m)).2.point?.map fun p' => ⟨p, m, p'⟩
    else none
  | _ => none

/-- A mate after some doings, each with what it finds shared. -/
def after (x : Mate) : List (Shared σ × Doing) → Mate
  | [] => x
  | (s, d) :: es => (x.does s d).2.after es

/-- The steps of its cycles. -/
def legs (x : Mate) : List (Shared σ × Doing) → List Leg
  | [] => []
  | (s, d) :: es => (x.leg? s d).toList ++ (x.does s d).2.legs es

/-- The actor is stopped, and its cycle is asked to end. -/
structure IsStopping (x : Mate) : Prop where
  asked : x.actor.stopRequested = true
  state : x.actor.state = .stopped

omit [JobStore σ] in
theorem point?_eq_some {p : Point} (h : x.point? = some p) :
    ∃ c, x.cycle = some c ∧ c.point = p := by
  simpa [point?] using h

/-- The step of a cycle in progress. -/
theorem leg?_eq_some (h : x.leg? s d = some l) :
    ∃ c c', x.cycle = some c ∧ c.point = l.before ∧ l.before.isFinal = false ∧
      d = .step l.moment ∧ (x.does s d).2.cycle = some c' ∧ c'.point = l.after ∧
      Passage x.actor.stopRequested l.moment x.actor.state l.before
        (x.does s d).2.actor.state l.after := by
  cases d with
  | step m =>
    simp only [leg?] at h
    split at h
    next hbusy =>
      cases hc : x.cycle with
      | none => rw [point?, hc] at h; cases h
      | some c =>
        obtain ⟨c', hc', hpass⟩ := passage_does (s := s) hc m
        simp only [point?, hc, hc', Option.map_some, Option.bind_some, Option.some.injEq] at h
        subst h
        exact ⟨c, c', rfl, rfl, by simpa [isBusy, hc] using hbusy, rfl, hc', rfl, hpass⟩
    next => cases h
  | _ => cases h

/-- Where no step is taken the cycle stays where it stands. -/
theorem point?_of_no_leg (hd : d.keepsCycle = true) (h : x.leg? s d = none) :
    (x.does s d).2.point? = x.point? := by
  cases d with
  | step m =>
    cases hc : x.cycle with
    | none => simp only [does, hc]
    | some c =>
      obtain ⟨c', hc', hpass⟩ := passage_does (s := s) hc m
      have hfinal : c.point.isFinal = true := by
        by_contra hopen
        simp [leg?, isBusy, point?, hc, hc', hopen] at h
      rw [point?, point?, hc, hc', Option.map_some, Option.map_some, hpass.of_isFinal hfinal]
  | begin | abort => cases hd
  | markStopped | requestStop | markIdle => rfl

omit [JobStore σ] in
theorem isBusy_of_point? {p : Point} (h : x.point? = some p) : x.isBusy = !p.isFinal := by
  obtain ⟨c, hc, rfl⟩ := point?_eq_some h
  rw [isBusy, hc, Option.any_some]

theorem leg?_of_not_busy (h : x.isBusy = false) (s : Shared σ) (d : Doing) :
    x.leg? s d = none := by
  cases d with
  | step m => exact if_neg (by rw [h]; exact Bool.false_ne_true)
  | _ => rfl

/-- A cycle that is over stays so. -/
theorem point?_after_of_isFinal {p : Point} (hp : x.point? = some p) (hfinal : p.isFinal = true)
    (hes : ∀ e ∈ es, e.2.keepsCycle = true) : (x.after es).point? = some p := by
  induction es generalizing x with
  | nil => exact hp
  | cons e es ih =>
    obtain ⟨he, hes⟩ := List.forall_mem_cons.1 hes
    have hrest : x.isBusy = false := by rw [isBusy_of_point? hp, hfinal]; rfl
    exact ih ((point?_of_no_leg he (leg?_of_not_busy hrest e.1 e.2)).trans hp) hes

/-- A step makes its call in time. -/
theorem after?_leg (h : x.leg? s d = some l) :
    l.before.phase.after? l.call?.toList = some l.after.phase := by
  obtain ⟨c, c', hc, hp, -, rfl, hc', hp', -⟩ := leg?_eq_some h
  simp only [does, hc, Option.some.injEq] at hc'
  have hmove := (c.step_stepped x.config l.moment s x.actor).move
  rw [hc', hp, hp'] at hmove
  exact hmove.after?

/-- The calls of a cycle lead to where it stands. -/
theorem after?_legs {p : Point} (hp : x.point? = some p)
    (hes : ∀ e ∈ es, e.2.keepsCycle = true) :
    ∃ q, (x.after es).point? = some q ∧
      p.phase.after? (Leg.calls (x.legs es)) = some q.phase := by
  induction es generalizing x p with
  | nil => exact ⟨p, hp, rfl⟩
  | cons e es ih =>
    obtain ⟨he, hes⟩ := List.forall_mem_cons.1 hes
    cases hl : x.leg? e.1 e.2 with
    | none =>
      obtain ⟨q, hq, hcalls⟩ := ih ((point?_of_no_leg he hl).trans hp) hes
      exact ⟨q, hq, by rwa [legs, hl]⟩
    | some l =>
      obtain ⟨c, c', hc, hbefore, -, -, hc', hafter, -⟩ := leg?_eq_some hl
      have hp' : (x.does e.1 e.2).2.point? = some l.after := by
        rw [point?, hc', Option.map_some, hafter]
      obtain rfl : l.before = p := by
        rw [point?, hc, Option.map_some, hbefore] at hp
        exact Option.some.inj hp
      obtain ⟨q, hq, hcalls⟩ := ih hp' hes
      refine ⟨q, hq, ?_⟩
      rw [legs, hl, Option.toList_some, List.singleton_append, Leg.calls, List.flatMap_cons,
        Phase.after?_append, after?_leg hl, Option.bind_some]
      exact hcalls

/-- When a cycle is over, each of its claims was followed by a commit. -/
theorem wholeRounds {p : Point} (hp : x.point? = some p)
    (hes : ∀ e ∈ es, e.2.keepsCycle = true) (hover : (x.after es).isBusy = false) :
    WholeRounds (p.phase.opening ++ Leg.calls (x.legs es)) := by
  obtain ⟨q, hq, hcalls⟩ := after?_legs hp hes
  rw [isBusy_of_point? hq, Bool.not_eq_false'] at hover
  rw [Point.phase_of_isFinal hover] at hcalls
  exact wholeRounds_of_after? hcalls

/-- An actor that is marked as stopped stays so. -/
theorem state_does (h : x.actor.state = .stopped) (s : Shared σ) (d : Doing) :
    (x.does s d).2.actor.state = .stopped := by
  cases d with
  | begin =>
    simp only [does]
    split <;> exact h
  | step m =>
    cases hc : x.cycle with
    | none => simpa only [does, hc] using h
    | some c =>
      obtain ⟨c', -, hpass⟩ := passage_does (s := s) hc m
      exact hpass.stays_stopped h
  | abort =>
    simp only [does]
    split <;> exact h
  | markStopped => rfl
  | requestStop => exact h
  | markIdle => exact (congrArg Actor.state (Actor.setState_of_stopped h _)).trans h

theorem state_after (h : x.actor.state = .stopped) (es : List (Shared σ × Doing)) :
    (x.after es).actor.state = .stopped := by
  induction es generalizing x with
  | nil => exact h
  | cons e es ih => exact ih (state_does h e.1 e.2)

namespace IsStopping

theorem does (h : x.IsStopping) (s : Shared σ) (d : Doing) : (x.does s d).2.IsStopping where
  state := state_does h.state s d
  asked := by
    cases d with
    | begin =>
      simp only [Mate.does]
      split <;> exact h.asked
    | step m =>
      cases hc : x.cycle with
      | none => simpa only [Mate.does, hc] using h.asked
      | some c =>
        simp only [Mate.does, hc]
        exact (c.step_turned x.config x.config.batchSize m s x.actor).stop.trans h.asked
    | abort =>
      simp only [Mate.does]
      split <;> exact h.asked
    | requestStop => rfl
    | markStopped => exact h.asked
    | markIdle =>
      exact (congrArg Actor.stopRequested (Actor.setState_of_stopped h.state _)).trans h.asked

theorem after (h : x.IsStopping) (es : List (Shared σ × Doing)) : (x.after es).IsStopping := by
  induction es generalizing x with
  | nil => exact h
  | cons e es ih => exact ih (h.does e.1 e.2)

/-- The step of a cycle that is asked to end. -/
theorem passage (h : x.IsStopping) (hl : x.leg? s d = some l) :
    x.point? = some l.before ∧ (x.does s d).2.point? = some l.after ∧ l.before.isFinal = false ∧
      Passage true l.moment .stopped l.before .stopped l.after := by
  obtain ⟨c, c', hc, hp, hopen, -, hc', hp', hpass⟩ := leg?_eq_some hl
  rw [h.asked, h.state, (h.does s d).state] at hpass
  exact ⟨by rw [point?, hc, Option.map_some, hp], by rw [point?, hc', Option.map_some, hp'], hopen,
    hpass⟩

/-! ## Claims -/

omit [JobStore σ] in
/-- The claims that the cycle of a mate may still win. -/
def claimsLeft (x : Mate) : Nat := (x.point?.map (·.claimsLeft)).getD 0

theorem claimsLeft_does (h : x.IsStopping) (s : Shared σ) (d : Doing) :
    (x.leg? s d).toList.countP (·.wins) + claimsLeft (x.does s d).2 ≤ claimsLeft x := by
  cases hl : x.leg? s d with
  | some l =>
    obtain ⟨hp, hp', -, hpass⟩ := h.passage hl
    have := hpass.claimsLeft_le
    simpa [claimsLeft, hp, hp', List.countP_cons] using this
  | none =>
    rw [Option.toList_none, List.countP_nil, Nat.zero_add]
    cases hd : d.keepsCycle with
    | true => rw [claimsLeft, claimsLeft, point?_of_no_leg hd hl]
    | false =>
      cases d with
      | begin =>
        simp only [Mate.does]
        split
        · exact Nat.le_refl _
        · exact Nat.zero_le _
      | abort =>
        simp only [Mate.does]
        split
        · exact Nat.zero_le _
        · exact Nat.le_refl _
      | _ => cases hd

theorem wins_le (h : x.IsStopping) (es : List (Shared σ × Doing)) :
    (x.legs es).countP (·.wins) + claimsLeft (x.after es) ≤ claimsLeft x := by
  induction es generalizing x with
  | nil => simp [legs, Mate.after]
  | cons e es ih =>
    have hdoes := h.claimsLeft_does e.1 e.2
    have := ih (h.does e.1 e.2)
    simp only [legs, List.countP_append, Mate.after]
    omega

omit [JobStore σ] in
theorem claimsLeft_le (x : Mate) : claimsLeft x ≤ 1 := by
  unfold claimsLeft
  cases x.point? with
  | none => exact Nat.zero_le _
  | some p => cases p <;> exact Nat.le_of_ble_eq_true rfl

/-! ## The end of a cycle -/

/-- A cycle that is asked to end before its last look ends as stopped, or in a
    call that went wrong. -/
theorem ending (h : x.IsStopping) {p : Point} (hp : x.point? = some p)
    (hlook : p.isBeforeLastLook = true) (hes : ∀ e ∈ es, e.2.keepsCycle = true) :
    ∃ q, (x.after es).point? = some q ∧
      (q.isBeforeLastLook = true ∨ StopEnding (x.legs es) q) := by
  induction es generalizing x p with
  | nil => exact ⟨p, hp, .inl hlook⟩
  | cons e es ih =>
    obtain ⟨he, hes⟩ := List.forall_mem_cons.1 hes
    cases hl : x.leg? e.1 e.2 with
    | none =>
      obtain ⟨q, hq, hend⟩ := ih (h.does e.1 e.2) ((point?_of_no_leg he hl).trans hp) hlook hes
      exact ⟨q, hq, by rwa [legs, hl]⟩
    | some l =>
      obtain ⟨hbefore, hafter, -, hpass⟩ := h.passage hl
      obtain rfl : l.before = p := Option.some.inj (hbefore.symm.trans hp)
      rw [legs, hl, Option.toList_some]
      rcases hpass.lastLook hlook with hlook' | hend
      · obtain ⟨q, hq, hend⟩ := ih (h.does e.1 e.2) hafter hlook' hes
        exact ⟨q, hq, hend.imp_right fun hend => hend.mono (List.subset_append_right ..)⟩
      · have hstays := point?_after_of_isFinal hafter hend.isFinal hes
        exact ⟨_, hstays, .inr (hend.mono (List.subset_append_left ..))⟩

/-- Each step brings a cycle closer to its end, unless it asks for a permit
    again. -/
theorem stepsLeft_after (h : x.IsStopping) {p : Point} (hp : x.point? = some p)
    (hes : ∀ e ∈ es, e.2.keepsCycle = true) :
    ∃ q, (x.after es).point? = some q ∧ (q.isFinal = true ∨
      q.stepsLeft + es.countP (·.2.isStep) ≤
        p.stepsLeft + 2 * (x.legs es).countP (·.asksAgain)) := by
  induction es generalizing x p with
  | nil => exact ⟨p, hp, .inr (Nat.le_refl _)⟩
  | cons e es ih =>
    cases hfinal : p.isFinal with
    | true => exact ⟨p, point?_after_of_isFinal hp hfinal hes, .inl hfinal⟩
    | false =>
      obtain ⟨he, hes⟩ := List.forall_mem_cons.1 hes
      cases hl : x.leg? e.1 e.2 with
      | none =>
        -- a step of a cycle in progress would be one of its legs
        have hstep : e.2.isStep = false := by
          obtain ⟨s, d⟩ := e
          obtain ⟨c, hc, rfl⟩ := point?_eq_some hp
          cases d with
          | step m => simp [leg?, isBusy, point?, Mate.does, hc, hfinal] at hl
          | _ => rfl
        obtain ⟨q, hq, hleft⟩ := ih (h.does e.1 e.2) ((point?_of_no_leg he hl).trans hp) hes
        refine ⟨q, hq, hleft.imp_right fun hleft => ?_⟩
        rw [legs, hl, List.countP_cons_of_neg (by rw [hstep]; exact Bool.false_ne_true)]
        exact hleft
      | some l =>
        obtain ⟨hbefore, hafter, -, hpass⟩ := h.passage hl
        obtain rfl : l.before = p := Option.some.inj (hbefore.symm.trans hp)
        obtain ⟨q, hq, hleft⟩ := ih (h.does e.1 e.2) hafter hes
        refine ⟨q, hq, hleft.imp_right fun hleft => ?_⟩
        have hnext := hpass.stepsLeft_le hfinal
        have hsteps : (e :: es).countP (·.2.isStep) ≤ es.countP (·.2.isStep) + 1 := by
          rw [List.countP_cons]; split <;> omega
        have hagain : (x.legs (e :: es)).countP (·.asksAgain) =
            ((x.does e.1 e.2).2.legs es).countP (·.asksAgain) + if l.asksAgain then 1 else 0 := by
          rw [legs, hl, Option.toList_some, List.singleton_append, List.countP_cons]
        rw [hagain]
        split at hnext
        next hl => rw [if_pos hl]; omega
        next => omega

theorem isBusy_after_of_none (hp : x.point? = none) (hes : ∀ e ∈ es, e.2.keepsCycle = true) :
    (x.after es).isBusy = false := by
  induction es generalizing x with
  | nil =>
    cases hc : x.cycle with
    | none => simp [Mate.after, isBusy, hc]
    | some c => simp [point?, hc] at hp
  | cons e es ih =>
    obtain ⟨he, hes⟩ := List.forall_mem_cons.1 hes
    have hrest : x.isBusy = false := by
      cases hc : x.cycle with
      | none => simp [isBusy, hc]
      | some c => simp [point?, hc] at hp
    exact ih ((point?_of_no_leg he (leg?_of_not_busy hrest e.1 e.2)).trans hp) hes

/-- After enough steps a cycle that is asked to end is over. -/
theorem over_of_steps (h : x.IsStopping) (hes : ∀ e ∈ es, e.2.keepsCycle = true)
    (henough : 8 + 2 * (x.legs es).countP (·.asksAgain) ≤ es.countP (·.2.isStep)) :
    (x.after es).isBusy = false := by
  cases hp : x.point? with
  | none => exact isBusy_after_of_none hp hes
  | some p =>
    obtain ⟨q, hq, hfinal | hleft⟩ := h.stepsLeft_after hp hes
    · rw [isBusy_of_point? hq, hfinal]; rfl
    · have := p.stepsLeft_le
      have hq' : q.isFinal = true := Point.isFinal_of_stepsLeft (by omega)
      rw [isBusy_of_point? hq, hq']; rfl

omit [JobStore σ] in
/-- A new cycle returns as stopped in its first step, whatever its store is. -/
theorem step_start (h : x.IsStopping) {c : Cycle} (hp : c.point = .start) (k : ActorConfig)
    {τ : Type} [JobStore τ] (m : Moment) (s : Shared τ) :
    c.step k m s x.actor =
      (s, x.actor, { c with point := .ended (.ok { stopped := true }) }) := by
  simp only [Cycle.step, hp, Cycle.enter, h.asked, if_true, Actor.setState_of_stopped h.state]

end IsStopping

variable (σ) in
/-- What holds of a mate from the moment on at which a stop takes effect. -/
structure StopHolds (x : Mate) : Prop where
  /-- one claim more is won at most, in this cycle and all later ones -/
  wins (es : List (Shared σ × Doing)) : (x.legs es).countP (·.wins) ≤ 1
  /-- the actor is stopped, and stays so whatever its state is to be -/
  state (es : List (Shared σ × Doing)) (st : RunState) :
    (x.after es).actor.state = .stopped ∧
      ((x.after es).actor.setState st).state = .stopped
  /-- each instance that the cycle claims or has in hand is committed before the
      cycle ends, unless it is aborted -/
  commits (p : Point) (es : List (Shared σ × Doing)) : x.point? = some p →
    (∀ e ∈ es, e.2.keepsCycle = true) → (x.after es).isBusy = false →
    WholeRounds (p.phase.opening ++ Leg.calls (x.legs es))
  /-- the cycle ends if it goes on, -/
  ends (es : List (Shared σ × Doing)) : (∀ e ∈ es, e.2.keepsCycle = true) →
    8 + 2 * (x.legs es).countP (·.asksAgain) ≤ es.countP (·.2.isStep) →
    (x.after es).isBusy = false
  /-- as stopped, or with a store error, if it was still to look -/
  result (p q : Point) (es : List (Shared σ × Doing)) : x.point? = some p →
    p.isBeforeLastLook = true → (∀ e ∈ es, e.2.keepsCycle = true) →
    (x.after es).point? = some q → q.isFinal = true → StopEnding (x.legs es) q
  /-- every later cycle begins, -/
  begins (es : List (Shared σ × Doing)) (s : Shared σ) : (x.after es).isBusy = false →
    ((x.after es).does s .begin).2.cycle = some {}
  /-- and returns as stopped in its first step, the same for all stores there
      might be -/
  later (es : List (Shared σ × Doing)) (c : Cycle) : (x.after es).cycle = some c →
    c.point = .start → ∀ (τ : Type) [JobStore τ] (m : Moment) (s : Shared τ),
    c.step (x.after es).config m s (x.after es).actor =
      (s, (x.after es).actor, { c with point := .ended (.ok { stopped := true }) })

theorem IsStopping.holds (h : x.IsStopping) : StopHolds σ x where
  wins es := by
    have := h.wins_le es
    have := IsStopping.claimsLeft_le x
    omega
  state es st := by
    rw [Actor.setState_of_stopped (h.after es).state]
    exact ⟨(h.after es).state, (h.after es).state⟩
  commits _ _ := wholeRounds
  ends _ := h.over_of_steps
  result p q es hp hlook hes hq hfinal := by
    obtain ⟨q', hq', hend⟩ := h.ending hp hlook hes
    obtain rfl : q' = q := Option.some.inj (hq'.symm.trans hq)
    have hover := Point.isBeforeLastLook_of_isFinal hfinal
    exact hend.resolve_left (by rw [hover]; exact Bool.false_ne_true)
  begins es s hrest := by
    simp only [Mate.does, hrest, Bool.false_eq_true, if_false]
  later es c _ hp _ _ m s := (h.after es).step_start hp _ m s

/-- **A stop is final.**  Wherever the cycle of an actor stands when the actor
    is marked as stopped, whatever happens until its cycle is asked to end, and
    whatever happens after that.  The mark alone settles the state. -/
theorem stop_holds (x : Mate) (s s' : Shared σ) (between : List (Shared σ × Doing)) :
    ((x.does s .markStopped).2.after between).actor.state = .stopped ∧
      StopHolds σ (((x.does s .markStopped).2.after between).does s' .requestStop).2 := by
  have hmarked : ((x.does s .markStopped).2.after between).actor.state = .stopped :=
    state_after rfl between
  exact ⟨hmarked, IsStopping.holds ⟨rfl, hmarked⟩⟩

/-- What a mate meets in some doings if it is alone. -/
def alone (s : Shared σ) (x : Mate) : List Doing → List (Shared σ × Doing)
  | [] => []
  | d :: ds => (s, d) :: alone (x.does s d).1 (x.does s d).2 ds

/-- An actor for two instances. -/
def lone : Mate := { actor := { key := { name := "jobs" } } }

def loneShared : Shared MemoryStore := ⟨Crew.twoDue, .ofConfig {}, {}⟩

def loneSteps (n : Nat) : List Doing := List.replicate n (.step { now := .ofMillis 2000 })

/-- A stop while the cycle asks for a permit: the instance is still claimed and
    committed, the cycle ends as stopped, and so does the next one. -/
theorem stop_holds_at_admission :
    let x := lone.after (lone.alone loneShared (.begin :: loneSteps 4))
    let marked := (x.does loneShared .markStopped).2
    let y := ((marked.after (marked.alone loneShared [])).does loneShared .requestStop).2
    let es := y.alone loneShared (loneSteps 6)
    x.point?.any (·.isWaiting) = true ∧
    WholeRounds [.won 1, .processed 1, .committed 1] ∧
    (y.legs es).countP (·.wins) = 1 ∧
    ((y.after es).point?.bind (·.report?)).map (fun r => (r.done, r.stopped)) = some (1, true) ∧
    (y.after es).actor.state = .stopped ∧
    ((y.after es).does loneShared .begin).2.cycle = some {} := by
  intro x marked y es
  have hstop : StopHolds MemoryStore y := (stop_holds x loneShared loneShared _).2
  have hover : (y.after es).isBusy = false := by decide +kernel
  refine ⟨by decide +kernel, ?_, by decide +kernel, by decide +kernel, (hstop.state es .idle).1,
    hstop.begins es loneShared hover⟩
  obtain ⟨p, hp⟩ : ∃ p, y.point? = some p := Option.isSome_iff_exists.1 (by decide +kernel)
  have hphase : y.point?.map (·.phase) = some .free := by decide +kernel
  have hcalls : Leg.calls (y.legs es) = [.won 1, .processed 1, .committed 1] := by decide +kernel
  have hrounds := hstop.commits p es hp (by decide +kernel) hover
  rw [hp, Option.map_some, Option.some.injEq] at hphase
  rwa [hphase, hcalls] at hrounds

end Mate

end DueWork

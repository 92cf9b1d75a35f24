/-
  Actors that share one pool and one store, and the admission permits that they
  take.

  A `Crew` is any number of `Mate`s, each an actor with its cycle.  They take
  their steps in any order, with whatever the moment brings, are stopped, or
  have their cycles aborted; others use the store and the pool.

  * the free permits and those that the mates hold are always as many as there
    are (`Permitted`);
  * an actor is suspended only where its cycle holds nothing (`Composed`);
  * what a mate took out of the pool is what it holds (`drawn_eq`).
-/
import DueWork.Proofs.Actor.Passage
import DueWork.Proofs.Pool.Life
import DueWork.Proofs.Actor.RetryBudget

namespace DueWork

open Time Signal

/-- An actor with its cycle, the last one if it is over. -/
structure Mate where
  actor : Actor
  config : ActorConfig := {}
  cycle : Option Cycle := none

/-- What a mate does, or what is done to it. -/
inductive Doing where
  /-- a new cycle, unless one is in progress -/
  | begin
  | step (m : Moment)
  /-- the task of the cycle is discarded, with what it holds -/
  | abort
  | markStopped
  | requestStop
  | markIdle

namespace Mate

variable {σ : Type}

/-- A cycle is in progress. -/
def isBusy (x : Mate) : Bool := x.cycle.any fun c => !c.point.isFinal

/-- Where the cycle stands. -/
def point? (x : Mate) : Option Point := x.cycle.map (·.point)

/-- The cycle holds a permit. -/
def holdsPermit (x : Mate) : Bool := x.point?.any (·.holdsPermit)

/-- The instance that the cycle has claimed and not committed. -/
def claimed? (x : Mate) : Option Job := x.point?.bind (·.claimed?)

/-- The permits that a mate holds. -/
def permits (x : Mate) : Int := (x.point?.map (·.permits)).getD 0

/-- What follows on a doing, with what is shared. -/
def does [JobStore σ] (s : Shared σ) (x : Mate) : Doing → Shared σ × Mate
  | .begin => (s, if x.isBusy then x else { x with cycle := some {} })
  | .step m =>
    match x.cycle with
    | some c =>
      let (s, a, c) := c.step x.config m s x.actor
      (s, { x with actor := a, cycle := some c })
    | none => (s, x)
  | .abort =>
    match x.cycle with
    | some c => (Cycle.releasePermit s c.point, { x with cycle := none })
    | none => (s, x)
  | .markStopped => (s, { x with actor := x.actor.markStopped })
  | .requestStop => (s, { x with actor := x.actor.requestStop })
  | .markIdle => (s, { x with actor := x.actor.setState .idle })

end Mate

/-- Actors over one pool and one store. -/
structure Crew (σ : Type) where
  shared : Shared σ
  mates : List Mate := []

/-- What may happen next to a crew. -/
inductive Happening (σ : Type) where
  | joins (key : Key) (config : ActorConfig)
  | does (i : Nat) (d : Doing)
  /-- others use the store, -/
  | store (s : σ)
  /-- and the workers and slots of the pool -/
  | pool (a : PoolAction)

namespace Crew

variable {σ : Type} [JobStore σ]

/-- What follows on a happening. -/
def turn (f : Crew σ) : Happening σ → Crew σ
  | .joins key config =>
    { f with mates := f.mates ++ [{ actor := { key := key }, config := config }] }
  | .does i d =>
    match f.mates[i]? with
    | some x => ⟨(x.does f.shared d).1, f.mates.set i (x.does f.shared d).2⟩
    | none => f
  | .store s => { f with shared := { f.shared with store := s } }
  | .pool a => { f with shared := { f.shared with pool := f.shared.pool.act a } }

/-- What follows on some happenings. -/
def run (f : Crew σ) : List (Happening σ) → Crew σ
  | [] => f
  | h :: hs => (f.turn h).run hs

/-- The permits that a mate takes out of the pool in a happening, or puts back
    if negative. -/
def draws (i : Nat) (f : Crew σ) : Happening σ → Int
  | .does j d =>
    if j = i then f.shared.pool.freePermits - (f.turn (.does j d)).shared.pool.freePermits else 0
  | _ => 0

/-- The permits that a mate takes in the course of some happenings. -/
def drawn (i : Nat) (f : Crew σ) : List (Happening σ) → Int
  | [] => 0
  | h :: hs => f.draws i h + (f.turn h).drawn i hs

end Crew

/-! ## Permits of one step -/

/-- Where a cycle may stand while its actor is suspended. -/
def Point.mayBeSuspended : Point → Bool
  | start | suspended _ _ _ | closing | lookingAhead | ended _ | panicked _ => true
  | admission _ _ n => n != 0
  | _ => false

theorem Point.holds_nothing {p : Point} (h : p.mayBeSuspended = true) :
    p.holdsPermit = false ∧ p.claimed? = none := by
  cases p <;> first | exact ⟨rfl, rfl⟩ | cases h

theorem Time.Duration.nextCount_ne_zero (n : UInt32) : nextCount n ≠ 0 := by
  intro h
  have hzero : (nextCount n).toNat = 0 := by rw [h]; rfl
  by_cases hn : n.toNat + 1 < Nat.pow 2 32
  · rw [toNat_nextCount hn] at hzero
    cases hzero
  · rw [nextCount, if_neg hn] at hzero
    exact hn (by rw [hzero]; decide)

theorem RunState.set_ne_suspended (st : RunState) {new : RunState} (h : new ≠ .suspended) :
    st.set new ≠ .suspended := by
  unfold RunState.set
  split
  · exact nofun
  · exact h

namespace Passage

variable {stop : Bool} {m : Moment} {st st' : RunState} {p p' : Point}

/-- An actor is suspended where its cycle waits for a permit, and goes on only
    when it has one. -/
theorem mayBeSuspended (h : Passage stop m st p st' p')
    (hp : st = .suspended → p.mayBeSuspended = true) (hst : st' = .suspended) :
    p'.mayBeSuspended = true := by
  cases h with
  | declined | stopped => rfl
  | unfetched | unpicked | unasked | suspended | waits | drained | passed | returned | failed |
    panicked => rfl
  | entered => exact absurd hst (RunState.set_ne_suspended _ nofun)
  | again => simpa [Point.mayBeSuspended] using Duration.nextCount_ne_zero _
  | admitted =>
    split at hst
    next hn =>
      -- the first attempt: the actor was draining
      have := hp hst
      simp [Point.mayBeSuspended, hn] at this
    next => exact absurd hst (RunState.set_ne_suspended _ nofun)
  | rests => exact hp hst
  | checked | fetched | next | picked | lost | won | settled | committed => cases hp hst

/-- A permit is taken in one place only. -/
theorem takes (h : Passage stop m st p st' p') (hp : p.holdsPermit = false)
    (hp' : p'.holdsPermit = true) : ∃ j b n, p = .admission j b n ∧ p' = .claiming j b := by
  cases h with
  | admitted => exact ⟨_, _, _, rfl, rfl⟩
  | rests => exact Bool.noConfusion (hp.symm.trans hp')
  | won | settled => cases hp
  | _ => cases hp'

/-- It is given back when a claim was not won, or a commit was attempted. -/
theorem gives (h : Passage stop m st p st' p') (hp : p.holdsPermit = true)
    (hp' : p'.holdsPermit = false) :
    (∃ j b, p = .claiming j b) ∨ ∃ j t b, p = .committing j t b := by
  cases h with
  | lost => exact .inl ⟨_, _, rfl⟩
  | committed => exact .inr ⟨_, _, _, rfl⟩
  | failed _ _ hcall | panicked hcall =>
    cases p with
    | claiming j b => exact .inl ⟨_, _, rfl⟩
    | committing j t b => exact .inr ⟨_, _, _, rfl⟩
    | processing => cases hcall
    | _ => cases hp
  | rests => exact Bool.noConfusion (hp.symm.trans hp')
  | won | settled => cases hp'
  | _ => cases hp

end Passage

namespace Mate

variable {σ : Type} [JobStore σ] {x : Mate} {s : Shared σ} {d : Doing} {c : Cycle}

omit [JobStore σ] in
theorem permits_eq (x : Mate) : x.permits = if x.holdsPermit then 1 else 0 := by
  unfold permits holdsPermit
  cases x.point? with
  | none => rfl
  | some p => rfl

omit [JobStore σ] in
theorem permits_of_not_busy (h : x.isBusy = false) : x.permits = 0 := by
  obtain ⟨a, k, c⟩ := x
  cases c with
  | none => rfl
  | some c => exact Point.permits_of_isFinal (by simpa [isBusy] using h)

/-- The permits that a mate takes out of the pool are those that it holds then. -/
theorem permits_does (s : Shared σ) (x : Mate) (d : Doing) :
    ((x.does s d).1.pool.freePermits : Int) + (x.does s d).2.permits =
      s.pool.freePermits + x.permits := by
  obtain ⟨a, k, c⟩ := x
  cases d with
  | begin =>
    cases hb : isBusy ⟨a, k, c⟩ with
    | true => simp only [does, hb, if_true]
    | false =>
      simp only [does, hb, Bool.false_eq_true, if_false, permits_of_not_busy hb]
      rfl
  | step m =>
    cases c with
    | none => rfl
    | some c => exact (c.booked_step k m s a).permits
  | abort =>
    cases c with
    | none => rfl
    | some c => exact (Int.add_zero _).trans (Cycle.freePermits_releasePermit s c.point)
  | markStopped | requestStop | markIdle => rfl

/-- What a step of a mate is. -/
theorem passage_does (hc : x.cycle = some c) (m : Moment) :
    ∃ c', (x.does s (.step m)).2.cycle = some c' ∧
      Passage x.actor.stopRequested m x.actor.state c.point
        (x.does s (.step m)).2.actor.state c'.point := by
  obtain ⟨a, k, _⟩ := x
  cases hc
  exact ⟨_, rfl, c.step_passage k m s a⟩

/-- A mate takes a permit only in the step from admission. -/
theorem takes (hold : x.holdsPermit = false) (hold' : (x.does s d).2.holdsPermit = true) :
    ∃ m j b n, d = .step m ∧ x.point? = some (.admission j b n) ∧
      (x.does s d).2.point? = some (.claiming j b) := by
  cases d with
  | step m =>
    cases hc : x.cycle with
    | none =>
      simp only [does, hc] at hold'
      exact Bool.noConfusion (hold.symm.trans hold')
    | some c =>
      obtain ⟨c', hc', hpass⟩ := passage_does (s := s) hc m
      simp only [holdsPermit, point?, hc, hc', Option.map_some, Option.any_some] at hold hold'
      obtain ⟨j, b, n, hp, hp'⟩ := hpass.takes hold hold'
      refine ⟨m, j, b, n, rfl, ?_, ?_⟩
      · rw [point?, hc, Option.map_some, hp]
      · rw [point?, hc', Option.map_some, hp']
  | begin =>
    simp only [does] at hold'
    split at hold'
    · exact Bool.noConfusion (hold.symm.trans hold')
    · cases hold'
  | abort =>
    simp only [does] at hold'
    split at hold'
    · cases hold'
    · exact Bool.noConfusion (hold.symm.trans hold')
  | markStopped | requestStop | markIdle => exact Bool.noConfusion (hold.symm.trans hold')

/-- A mate gives a permit back when its cycle is aborted, and otherwise only in
    the step that claims, if the claim is not won, or that commits. -/
theorem gives (hold : x.holdsPermit = true) (hold' : (x.does s d).2.holdsPermit = false) :
    d = .abort ∨ ∃ m, d = .step m ∧ ((∃ j b, x.point? = some (.claiming j b)) ∨
      ∃ j t b, x.point? = some (.committing j t b)) := by
  cases d with
  | abort => exact .inl rfl
  | step m =>
    refine .inr ⟨m, rfl, ?_⟩
    cases hc : x.cycle with
    | none =>
      simp only [does, hc] at hold'
      exact Bool.noConfusion (hold'.symm.trans hold)
    | some c =>
      obtain ⟨c', hc', hpass⟩ := passage_does (s := s) hc m
      simp only [holdsPermit, point?, hc, hc', Option.map_some, Option.any_some] at hold hold'
      rw [point?, hc, Option.map_some]
      refine (hpass.gives hold hold').imp ?_ ?_
      · exact fun ⟨j, b, hp⟩ => ⟨j, b, congrArg some hp⟩
      · exact fun ⟨j, t, b, hp⟩ => ⟨j, t, b, congrArg some hp⟩
  | begin =>
    simp only [does] at hold'
    split at hold'
    · exact Bool.noConfusion (hold'.symm.trans hold)
    · rename_i hbusy
      have hnone := permits_of_not_busy (Bool.eq_false_iff.2 hbusy)
      rw [permits_eq, hold] at hnone
      cases hnone
  | markStopped | requestStop | markIdle => exact Bool.noConfusion (hold'.symm.trans hold)

omit [JobStore σ] in
/-- Whoever has an instance in hand holds a permit. -/
theorem holdsPermit_of_claimed (h : x.claimed?.isSome = true) : x.holdsPermit = true := by
  unfold claimed? at h
  unfold holdsPermit
  cases hp : x.point? with
  | none => rw [hp] at h; cases h
  | some p =>
    rw [hp] at h
    cases p <;> first | rfl | cases h

/-- A suspended actor has a cycle that holds nothing, if any. -/
def Composed (x : Mate) : Prop :=
  x.actor.state = .suspended → ∀ p, x.point? = some p → p.mayBeSuspended = true

theorem Composed.does (h : x.Composed) (s : Shared σ) (d : Doing) : (x.does s d).2.Composed := by
  cases d with
  | begin =>
    simp only [Mate.does]
    split
    next => exact h
    next =>
      rintro - p hp
      cases hp
      rfl
  | step m =>
    cases hc : x.cycle with
    | none => simpa only [Mate.does, hc] using h
    | some c =>
      obtain ⟨c', hc', hpass⟩ := passage_does (s := s) hc m
      intro hst p hp
      rw [point?, hc'] at hp
      cases hp
      exact hpass.mayBeSuspended (fun hst => h hst _ (by rw [point?, hc]; rfl)) hst
  | abort =>
    cases hc : x.cycle with
    | none => simpa only [Mate.does, hc] using h
    | some c =>
      simp only [Mate.does, hc]
      exact fun _ _ hp => nomatch hp
  | markStopped => exact fun hst => nomatch hst
  | requestStop => exact h
  | markIdle =>
    intro hst
    simp only [Mate.does, Actor.state_setState_eq] at hst
    exact absurd hst (RunState.set_ne_suspended _ nofun)

omit [JobStore σ] in
theorem Composed.holds_nothing (h : x.Composed) (hst : x.actor.state = .suspended) :
    x.holdsPermit = false ∧ x.claimed? = none := by
  unfold holdsPermit claimed?
  cases hp : x.point? with
  | none => exact ⟨rfl, rfl⟩
  | some p => exact Point.holds_nothing (h hst p hp)

end Mate

namespace Crew

variable {σ : Type} [JobStore σ] {f : Crew σ} {i : Nat} {x : Mate} {n : Nat}

/-! ## Permits of a crew -/

omit [JobStore σ] in
/-- Mates that hold a permit. -/
def holders (f : Crew σ) : Nat := f.mates.countP (·.holdsPermit)

theorem turn_does (hx : f.mates[i]? = some x) (d : Doing) :
    f.turn (.does i d) = ⟨(x.does f.shared d).1, f.mates.set i (x.does f.shared d).2⟩ := by
  simp only [turn, hx]

theorem turn_does_none (hx : f.mates[i]? = none) (d : Doing) : f.turn (.does i d) = f := by
  simp only [turn, hx]

omit [JobStore σ] in
/-- A mate is counted for what it is now. -/
theorem holders_set (hi : i < f.mates.length) (y : Mate) :
    (({ f with mates := f.mates.set i y } : Crew σ).holders : Int) + f.mates[i].permits =
      f.holders + y.permits := by
  have hpos (hold : f.mates[i].holdsPermit = true) : 0 < f.mates.countP (·.holdsPermit) :=
    List.countP_pos_iff.2 ⟨_, List.getElem_mem hi, hold⟩
  simp only [holders, List.countP_set hi, Mate.permits_eq]
  cases hold : f.mates[i].holdsPermit with
  | true =>
    have := hpos hold
    cases y.holdsPermit <;> simp only [Bool.false_eq_true, if_true, if_false] <;> omega
  | false => cases y.holdsPermit <;> simp only [Bool.false_eq_true, if_true, if_false] <;> omega

/-- The free permits of the pool and those that the mates hold are `n`
    together, and suspended mates hold none. -/
structure Permitted (n : Nat) (f : Crew σ) : Prop where
  permits : f.shared.pool.freePermits + f.holders = n
  composed : ∀ x ∈ f.mates, x.Composed

theorem Permitted.turn (h : Permitted n f) (a : Happening σ) : Permitted n (f.turn a) := by
  cases a with
  | joins key config =>
    refine ⟨?_, fun x hx => ?_⟩
    · rw [← h.permits]
      simp [Crew.turn, holders, Mate.holdsPermit, Mate.point?]
    · rcases List.mem_append.1 hx with hx | hx
      · exact h.composed x hx
      · rw [List.mem_singleton.1 hx]
        exact fun hst => nomatch hst
  | does i d =>
    cases hx : f.mates[i]? with
    | none => rwa [turn_does_none hx]
    | some x =>
      obtain ⟨hi, rfl⟩ := List.getElem?_eq_some_iff.1 hx
      rw [turn_does hx]
      refine ⟨?_, fun y hy => ?_⟩
      · have hmate := Mate.permits_does f.shared f.mates[i] d
        have hset := holders_set hi (f.mates[i].does f.shared d).2
        have hpermits := h.permits
        simp only [holders] at hset hpermits ⊢
        omega
      · rcases List.mem_or_eq_of_mem_set hy with hy | rfl
        · exact h.composed y hy
        · exact (h.composed _ (List.getElem_mem hi)).does f.shared d
  | store s => exact ⟨h.permits, h.composed⟩
  | pool a =>
    refine ⟨?_, h.composed⟩
    rw [← h.permits]
    exact congrArg (· + f.holders) (f.shared.pool.freePermits_act a)

theorem Permitted.run (h : Permitted n f) (as : List (Happening σ)) : Permitted n (f.run as) := by
  induction as generalizing f with
  | nil => exact h
  | cons a as ih => exact ih (h.turn a)

omit [JobStore σ] in
/-- The permits that a mate holds. -/
def permitsOf (i : Nat) (f : Crew σ) : Int := (f.mates[i]?.map (·.permits)).getD 0

/-- What a mate takes out of the pool is what it holds more. -/
theorem draws_eq (i : Nat) (f : Crew σ) (a : Happening σ) :
    f.draws i a = permitsOf i (f.turn a) - permitsOf i f := by
  cases a with
  | joins key config =>
    simp only [draws, permitsOf, turn]
    by_cases hi : i < f.mates.length
    · simp [List.getElem?_append_left hi]
    · by_cases hlast : i = f.mates.length
      · subst hlast
        simp [Mate.permits, Mate.point?]
      · have hnone : f.mates[i]? = none := List.getElem?_eq_none_iff.2 (by omega)
        rw [List.getElem?_append_right (by omega), hnone,
          List.getElem?_eq_none_iff.2 (by simp; omega)]
        rfl
  | does j d =>
    cases hx : f.mates[j]? with
    | none => simp [draws, turn_does_none hx]
    | some x =>
      obtain ⟨hj, -⟩ := List.getElem?_eq_some_iff.1 hx
      have hmate := Mate.permits_does f.shared x d
      simp only [draws, turn_does hx, permitsOf]
      by_cases hji : j = i
      · subst hji
        simp only [if_true, List.getElem?_set_self hj, hx, Option.map_some, Option.getD_some]
        omega
      · rw [if_neg hji, List.getElem?_set_ne hji, Int.sub_self]
  | store | pool => simp [draws, permitsOf, turn]

theorem drawn_eq (i : Nat) (f : Crew σ) (as : List (Happening σ)) :
    f.drawn i as = permitsOf i (f.run as) - permitsOf i f := by
  induction as generalizing f with
  | nil => exact (Int.sub_self _).symm
  | cons a as ih =>
    rw [drawn, ih, draws_eq, run]
    omega

omit [JobStore σ] in
/-- A pool and a store that nobody uses yet. -/
def ofPool (c : PoolConfig) (store : σ) : Crew σ := { shared := ⟨store, .ofConfig c, {}⟩ }

/-- A crew that came together and worked on a pool and a store. -/
def worked (c : PoolConfig) (store : σ) (as : List (Happening σ)) : Crew σ :=
  (ofPool c store).run as

theorem permitted_worked (c : PoolConfig) (store : σ) (as : List (Happening σ)) :
    Permitted (max c.maxInFlight 1) (worked c store as) :=
  (show Permitted _ (ofPool c store) from ⟨rfl, fun _ hx => nomatch hx⟩).run as

omit [JobStore σ] in
theorem Permitted.acquire_refused (h : Permitted n f) (hrefused : f.shared.pool.acquire.1 = false) :
    f.holders = n := by
  have hpermits := h.permits
  unfold WorkerPool.acquire at hrefused
  split at hrefused
  · omega
  · cases hrefused

omit [JobStore σ] in
/-- If no cycle is in progress, all permits are free. -/
theorem Permitted.free_of_rest (h : Permitted n f) (hrest : ∀ x ∈ f.mates, x.isBusy = false) :
    f.shared.pool.freePermits = n := by
  have hnone : f.holders = 0 := by
    refine List.countP_eq_zero.2 fun x hx hold => ?_
    have hpermits := Mate.permits_of_not_busy (hrest x hx)
    rw [Mate.permits_eq, if_pos hold] at hpermits
    cases hpermits
  have hpermits := h.permits
  omega

/-- What holds of the admission permits of a crew after some happenings. -/
structure PermitsKept (c : PoolConfig) (store : σ) (as : List (Happening σ)) : Prop where
  conserved : (worked c store as).shared.pool.freePermits + (worked c store as).holders =
    max c.maxInFlight 1
  /-- a mate took at most one permit more than it put back, and holds it then -/
  drawn (i : Nat) : (ofPool c store).drawn i as =
    if (worked c store as).mates[i]?.any (·.holdsPermit) then 1 else 0
  /-- it is taken at the admission, -/
  takes (x : Mate) (s : Shared σ) (d : Doing) : x ∈ (worked c store as).mates →
    x.holdsPermit = false → (x.does s d).2.holdsPermit = true →
    ∃ m j b n, d = .step m ∧ x.point? = some (.admission j b n) ∧
      (x.does s d).2.point? = some (.claiming j b)
  /-- and put back by an abort, or when the claim was made and not won, or the
      commit was attempted -/
  gives (x : Mate) (s : Shared σ) (d : Doing) : x ∈ (worked c store as).mates →
    x.holdsPermit = true → (x.does s d).2.holdsPermit = false →
    d = .abort ∨ ∃ m, d = .step m ∧ ((∃ j b, x.point? = some (.claiming j b)) ∨
      ∃ j t b, x.point? = some (.committing j t b))
  suspended : ∀ x ∈ (worked c store as).mates, x.actor.state = .suspended →
    x.holdsPermit = false ∧ x.claimed? = none
  /-- who asks in vain is not among those who hold all permits -/
  refused (j : Job) (b : Batch) (n : UInt32) : ∀ x ∈ (worked c store as).mates,
    x.point? = some (.admission j b n) → (worked c store as).shared.pool.acquire.1 = false →
    x.holdsPermit = false ∧ (worked c store as).holders = max c.maxInFlight 1
  inFlight : (worked c store as).mates.countP (·.claimed?.isSome) ≤ max c.maxInFlight 1
  atRest : (∀ x ∈ (worked c store as).mates, x.isBusy = false) →
    (worked c store as).shared.pool.freePermits = max c.maxInFlight 1

theorem permits_kept (c : PoolConfig) (store : σ) (as : List (Happening σ)) :
    PermitsKept c store as where
  conserved := (permitted_worked c store as).permits
  drawn i := by
    rw [drawn_eq, show permitsOf i (ofPool c store) = 0 from rfl, Int.sub_zero]
    show permitsOf i (worked c store as) = _
    unfold permitsOf
    cases (worked c store as).mates[i]? with
    | none => rfl
    | some x => exact x.permits_eq
  takes _ _ _ _ := Mate.takes
  gives _ _ _ _ := Mate.gives
  suspended x hx := ((permitted_worked c store as).composed x hx).holds_nothing
  refused j b n x _ hp hrefused := by
    refine ⟨?_, (permitted_worked c store as).acquire_refused hrefused⟩
    rw [Mate.holdsPermit, hp]
    rfl
  inFlight := by
    have hle : (worked c store as).mates.countP (·.claimed?.isSome) ≤ (worked c store as).holders :=
      List.countP_mono_left fun x _ hx => x.holdsPermit_of_claimed hx
    have := (permitted_worked c store as).permits
    omega
  atRest := (permitted_worked c store as).free_of_rest

/-- A store with two instances, due one after the other. -/
def twoDue : MemoryStore :=
  let job (millis : Int) : NewJob := { jobRef := "job", dueAt := .ofMillis millis }
  (MemoryStore.empty.append (job 1000) .epoch).append (job 5000) .epoch

/-- Two actors for them: the first claims an instance, and the second asks for
    a permit. -/
def rivals : List (Happening MemoryStore) :=
  let steps (i : Nat) (millis : Int) : List (Happening MemoryStore) :=
    .does i .begin :: List.replicate 6 (.does i (.step { now := .ofMillis millis }))
  [.joins { name := "jobs" } {}, .joins { name := "jobs" } {}] ++ steps 0 2000 ++ steps 1 6000

/-- With one permit for both the second actor is suspended while the first has
    an instance in hand, and the permit is free again when the first is
    aborted. -/
theorem permits_kept_of_rivals :
    (worked { maxInFlight := 1 } twoDue rivals).mates.map
        (fun x => (x.actor.state, x.claimed?.map (·.id))) =
      [(.draining, some 1), (.suspended, none)] ∧
    (worked { maxInFlight := 1 } twoDue rivals).holders = 1 ∧
    (worked { maxInFlight := 1 } twoDue rivals).shared.pool.freePermits = 0 ∧
    (ofPool { maxInFlight := 1 } twoDue).drawn 0 (rivals ++ [.does 0 .abort]) = 0 := by
  have hholders : (worked { maxInFlight := 1 } twoDue rivals).holders = 1 := by decide +kernel
  have hconserved := (permits_kept { maxInFlight := 1 } twoDue rivals).conserved
  have hdrawn := (permits_kept { maxInFlight := 1 } twoDue (rivals ++ [.does 0 .abort])).drawn 0
  refine ⟨by decide +kernel, hholders, ?_, hdrawn.trans (if_neg (by decide +kernel))⟩
  rw [hholders] at hconserved
  exact Nat.succ.inj hconserved

end Crew

end DueWork

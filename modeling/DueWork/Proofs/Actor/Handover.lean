/-
  Handovers: an instance is claimed, and its copy goes to the processor.

  A cycle holds copies of instances, the one in hand and those ahead, and it
  gets them from a fetch only (`Edge.copies`).  What is written of an instance
  changes by its commit only (`Edge.written`).  `Drain.handovers` lists the
  handovers of a run with what is written when the claim is won.
-/
import DueWork.Proofs.Actor.Attempts
import DueWork.Proofs.Store.Written

namespace DueWork

open Time

/-- An instance is handed to the processor: the clock at the claim, what is
    written of it then, and the copy that is handed over. -/
structure Handover where
  now : Instant
  written : Option Written
  copy : Job
deriving DecidableEq, Repr

/-- The instance that a copy is of, and what it says of it. -/
def Job.label (j : Job) : Int × Written := (j.id, j.written)

/-- The copies that a cycle holds. -/
def Point.copies (p : Point) : List Job := p.claimed?.toList ++ p.ahead

/-- The clock of a step. -/
def Act.reading? : Act → Option Instant
  | .step _ m => some m.now
  | _ => none

/-- What the clock shows in the course of some acts. -/
def readings (acts : List Act) : List Instant := acts.filterMap Act.reading?

section

variable {σ : Type} [JobStore σ] {k : ActorConfig} {key : Key} {m : Moment} {stop : Bool} {s s' : σ}
  {p p' : Point}

/-- The copies after a step were there before, or they are fetched. -/
theorem Edge.copies (he : Edge k key m stop s p s' p') :
    (p'.copies.map Job.label).Sublist (p.copies.map Job.label) ∨
      p = .fetching ∧ ∃ limit, JobStore.fetchReady s key m.now limit = .ok p'.copies := by
  cases he with
  | quiet hp hp' hahead =>
    left
    rw [Point.copies, Point.copies, hp, hp']
    rcases hahead with h | h <;> rw [h]
    exact List.nil_sublist _
  | cut _ hp' =>
    left
    rw [Point.copies, Point.claimed?_of_isFinal hp', Point.ahead_of_isFinal hp']
    exact List.nil_sublist _
  | fetched h => exact .inr ⟨rfl, _, h⟩
  | lost | committed | refused => exact .inl (List.sublist_cons_self ..)
  | won | settled => exact .inl (List.Sublist.refl _)

/-- What is handed over is what was claimed. -/
theorem Edge.handed (he : Edge k key m stop s p s' p') {j' : Job} (h : p.handed? p' = some j') :
    ∃ j b, p = .claiming j b ∧ j' = { j with state := .running } := by
  cases he with
  | quiet _ hp' =>
    rw [Point.handed?_eq_none hp'] at h
    cases h
  | cut _ hp' =>
    rw [Point.handed?_eq_none (Point.claimed?_of_isFinal hp')] at h
    cases h
  | fetched | lost | settled | committed | refused => cases h
  | won =>
    cases h
    exact ⟨_, _, rfl, rfl⟩

variable [StandingStore σ] [WrittenStore σ]

open StandingStore WrittenStore

/-- A step writes again only what it commits. -/
theorem Edge.written (he : Edge k key m stop s p s' p') (hs : Serves key s) :
    Serves key s' ∧ ∀ i, written? s' i = written? s i ∨
      ∃ j t b, p = .committing j t b ∧ j.id = i ∧ m.failure = none ∧
        JobStore.commit s key j.id t m.now = (.ok (), s') := by
  cases he with
  | quiet | fetched | settled => exact ⟨hs, fun i => .inl rfl⟩
  | cut hp =>
    obtain rfl := hp.same hs
    exact ⟨hs, fun i => .inl rfl⟩
  | refused h =>
    obtain rfl := h.same hs
    exact ⟨hs, fun i => .inl rfl⟩
  | lost h =>
    rcases h with ⟨-, rfl⟩ | h
    · exact ⟨hs, fun i => .inl rfl⟩
    · exact ⟨(claim_lost hs h).1, fun i => .inl (claimed hs h i)⟩
  | won h => exact ⟨(claim_won hs h).1, fun i => .inl (claimed hs h i)⟩
  | @committed _ j t b hm h =>
    refine ⟨(commit_ok hs h).1, fun i => ?_⟩
    by_cases hi : j.id = i
    · exact .inr ⟨j, t, b, rfl, hi, hm, h⟩
    · exact .inl ((WrittenStore.committed hs h).1 i fun he => hi he.symm)

end

namespace Drain

section

variable {σ : Type} [JobStore σ] {k : ActorConfig} {d : Drain σ}

/-- An actor stays with its partition. -/
theorem key_act (a : Act) : (d.act k a).actor.key = d.actor.key := by
  cases a with
  | step n m =>
    exact (Cycle.step_stepped { k with batchSize := n } m d.shared d.actor d.cycle).actor.key
  | begin =>
    simp only [act]
    split <;> rfl
  | _ => rfl

variable [StandingStore σ] [WrittenStore σ]

/-- The handover of an act, if it is one. -/
def handover? (k : ActorConfig) (d : Drain σ) : Act → Option Handover
  | .step n m => (d.cycle.point.handed? (d.act k (.step n m)).cycle.point).map fun copy =>
    ⟨m.now, WrittenStore.written? d.shared.store copy.id, copy⟩
  | _ => none

/-- The handovers of a run, in order. -/
def handovers (k : ActorConfig) (d : Drain σ) : List Act → List Handover
  | [] => []
  | a :: acts => (d.handover? k a).toList ++ handovers k (d.act k a) acts

theorem handed_act (a : Act) :
    (d.act k a).handed = d.handed ++ (d.handover? k a).toList.map (·.copy) := by
  cases a with
  | step n m =>
    show d.handed ++ (d.cycle.point.handed? (d.act k (.step n m)).cycle.point).toList = _
    rw [handover?]
    cases d.cycle.point.handed? (d.act k (.step n m)).cycle.point <;> rfl
  | begin =>
    simp only [act]
    split <;> exact (List.append_nil _).symm
  | _ => exact (List.append_nil _).symm

/-- All that is handed over is listed. -/
theorem handed_run (acts : List Act) :
    (d.run k acts).handed = d.handed ++ (d.handovers k acts).map (·.copy) := by
  induction acts generalizing d with
  | nil => exact (List.append_nil _).symm
  | cons a acts ih =>
    rw [handovers, List.map_append, ← List.append_assoc, ← handed_act]
    exact ih

end

end Drain

end DueWork

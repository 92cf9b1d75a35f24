/-
  Suspensions: how long a cycle waits for an admission permit.

  A cycle counts, for one instance after the other, how often it asked for a
  permit in vain, and each time it is suspended for longer.  Nothing that happens
  to the actor, its cycle or what it shares with others breaks the count, except
  for the end of the waiting.

  * `Passage.counted`: what a step does to the count;
  * `Mate.doubles_suspensions`: the waits in a row are those of the backoff.
-/
import DueWork.Proofs.Actor.Stopping
import DueWork.Proofs.Time.Backoff

namespace DueWork

open Time Signal

namespace Point

/-- How often a cycle at this point has asked for a permit in vain. -/
def attempts? : Point → Option UInt32
  | admission _ _ n => some n
  | suspended _ _ n => some (Duration.nextCount n)
  | _ => none

/-- What the way from one point to the next means to the attempts to get a permit. -/
def asking (k : ActorConfig) : Point → Point → Mark
  | picking _, admission _ _ _ => .anew
  | admission _ _ _, suspended _ _ n => .failure (Cycle.suspension k n).nanos
  | _, _ => .nothing

theorem asking_of_isFinal (k : ActorConfig) (p : Point) {p' : Point} (h : p'.isFinal = true) :
    p.asking k p' = .nothing := by
  cases p' with
  | ended r => cases p <;> rfl
  | panicked message => cases p <;> rfl
  | _ => cases h

theorem asking_self (k : ActorConfig) (p : Point) : p.asking k p = .nothing := by
  cases p <;> rfl

theorem attempts?_of_isFinal {p : Point} (h : p.isFinal = true) : p.attempts? = none := by
  cases p with
  | ended r => rfl
  | panicked message => rfl
  | _ => cases h

end Point

theorem Passage.counted {stop : Bool} {m : Moment} {st st' : RunState} {p p' : Point}
    (h : Passage stop m st p st' p') (k : ActorConfig) :
    Counted k.suspendBase k.suspendMax p.attempts? (p.asking k p') p'.attempts? := by
  cases h with
  | picked => exact .anew _
  | suspended => exact .failure _
  | again | waits => exact .kept _
  | failed | panicked =>
    rw [Point.asking_of_isFinal k p rfl]
    exact .dropped _
  | rests hp =>
    rw [Point.asking_of_isFinal k p hp]
    exact .kept _
  | _ => exact .dropped _

namespace Mate

variable {σ : Type} [JobStore σ] {x : Mate}

/-- How often the cycle of a mate has asked for a permit in vain. -/
def attempts? (x : Mate) : Option UInt32 := x.point?.bind (·.attempts?)

/-- What a doing means to these attempts. -/
def asking (x x' : Mate) : Mark :=
  match x.point?, x'.point? with
  | some p, some p' => p.asking x.config p'
  | _, _ => .nothing

/-- The waits in a row with which some doings leave a mate. -/
def suspensions (x : Mate) (ws : List Nat) : List (Shared σ × Doing) → List Nat
  | [] => ws
  | (s, d) :: es =>
    let x' := (x.does s d).2
    x'.suspensions ((x.asking x').note ws) es

theorem config_does (s : Shared σ) (x : Mate) (d : Doing) : (x.does s d).2.config = x.config := by
  cases d with
  | begin => simp only [does]; split <;> rfl
  | step m => simp only [does]; split <;> rfl
  | abort => simp only [does]; split <;> rfl
  | markStopped | requestStop | markIdle => rfl

theorem attempts?_of_not_busy (h : x.isBusy = false) : x.attempts? = none := by
  obtain ⟨a, k, c⟩ := x
  cases c with
  | none => rfl
  | some c => exact Point.attempts?_of_isFinal (by simpa [isBusy] using h)

/-- Where the cycle stays where it stands, its attempts do. -/
theorem counted_of_point? {x' : Mate} (h : x'.point? = x.point?) (base max : Duration) :
    Counted base max x.attempts? (x.asking x') x'.attempts? := by
  have hmark : x.asking x' = .nothing := by
    rw [asking, h]
    cases x.point? with
    | none => rfl
    | some p => exact p.asking_self x.config
  rw [hmark, attempts?, attempts?, h]
  exact .kept _

/-- Whatever a mate does, and whatever is done to it, its attempts are counted. -/
theorem counted_does (s : Shared σ) (x : Mate) (d : Doing) :
    Counted x.config.suspendBase x.config.suspendMax x.attempts? (x.asking (x.does s d).2)
      (x.does s d).2.attempts? := by
  obtain ⟨a, k, c⟩ := x
  cases d with
  | begin =>
    cases hb : isBusy ⟨a, k, c⟩ with
    | true => exact counted_of_point? (by simp only [does, hb, if_true]) _ _
    | false =>
      simp only [does, hb, Bool.false_eq_true, if_false]
      cases c with
      | none => exact .dropped _
      | some c =>
        have hmark : c.point.asking k .start = .nothing := by cases c.point <;> rfl
        show Counted _ _ _ (c.point.asking k .start) none
        rw [hmark]
        exact .dropped _
  | step m =>
    cases c with
    | none => exact .kept _
    | some c => exact (c.step_passage k m s a).counted k
  | abort =>
    cases c with
    | none => exact .kept _
    | some c => exact .dropped _
  | markStopped | requestStop | markIdle => exact counted_of_point? rfl _ _

/-- The waits in a row for a permit are those of the backoff. -/
theorem doubles_suspensions {ws : List Nat} (es : List (Shared σ × Doing))
    (hws : InStep x.config.suspendBase x.config.suspendMax x.attempts? ws) :
    Doubles x.config.suspendBase x.config.suspendMax (x.suspensions ws es) := by
  induction es generalizing x ws with
  | nil => exact hws.doubles
  | cons e es ih =>
    obtain ⟨s, d⟩ := e
    have hnext := (counted_does s x d).inStep hws
    rw [← config_does s x d] at hnext ⊢
    exact ih hnext

end Mate

end DueWork

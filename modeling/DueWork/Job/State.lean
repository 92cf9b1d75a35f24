/-
  The lifecycle of a job instance.

  An instance starts `new`, is claimed by one actor (`running`) and ends
  `done`, `failed` or `dropped`, or waits for another try (`deferred`).

  * `State.CanBecome` is the lifecycle as a relation, and `State.canBecome_iff`
    says that `canBecome` decides it;
  * the only way back to a claimable state is from `running` to `deferred`.
-/

namespace DueWork

/-- Where a job instance stands in its life. -/
inductive State where
  /-- waiting for its due time -/
  | new
  /-- claimed by exactly one actor -/
  | running
  /-- processed -/
  | done
  /-- failed for good -/
  | failed
  /-- discarded without processing -/
  | dropped
  /-- waiting for a later try -/
  | deferred
deriving DecidableEq, Repr

namespace State

/-- Every state. -/
def all : List State := [new, running, done, failed, dropped, deferred]

/-- The name of a state. -/
def name : State → String
  | new => "NEW"
  | running => "RUNNING"
  | done => "DONE"
  | failed => "FAILED"
  | dropped => "DROPPED"
  | deferred => "DEFERRED"

/-- The state of this name. -/
def ofName? (s : String) : Option State := all.find? (·.name == s)

/-- No way leads out of the state. -/
def isTerminal : State → Bool
  | done | failed | dropped => true
  | _ => false

/-- An instance in this state may be claimed. -/
def isClaimable : State → Bool
  | new | deferred => true
  | _ => false

/-- The lifecycle. -/
inductive CanBecome : State → State → Prop where
  | claim {s : State} (h : s.isClaimable) : CanBecome s running
  | drop {s : State} (h : ¬s.isTerminal) : CanBecome s dropped
  | finish : CanBecome running done
  | fail : CanBecome running failed
  | defer : CanBecome running deferred

/-- The states that may follow. -/
def next : State → List State
  | new | deferred => [running, dropped]
  | running => [done, failed, dropped, deferred]
  | done | failed | dropped => []

/-- Whether the lifecycle leads from one state to another. -/
def canBecome (s t : State) : Bool := s.next.contains t

theorem canBecome_iff {s t : State} : s.canBecome t = true ↔ CanBecome s t := by
  constructor
  · intro h
    cases s <;> cases t <;> revert h <;>
      first
      | (intro h; exact absurd h (by decide))
      | (intro _; first
          | exact .claim rfl
          | exact .drop (by decide)
          | exact .finish
          | exact .fail
          | exact .defer)
  · rintro (h | h | _ | _ | _)
    · cases s <;> first | rfl | cases h
    · cases s <;> first | rfl | exact absurd rfl h
    all_goals rfl

instance (s t : State) : Decidable (CanBecome s t) := decidable_of_iff _ canBecome_iff

theorem ofName?_name (s : State) : ofName? s.name = some s := by cases s <;> decide

end State

end DueWork

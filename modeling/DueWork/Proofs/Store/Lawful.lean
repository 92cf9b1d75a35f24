/-
  What a store promises about claims and commits.

  A claim compares the stored state with the one that the claimant saw and
  swaps it for running, in one step; a commit changes the instance that it
  names.  So an instance that runs stays so until it is committed, whatever
  is done to others.

  * `Lawful` states this over the states that a store holds, for the stores
    and the keys that it is about;
  * the store in memory is lawful, whatever it holds and for all keys; a
    database with entries is for the keys that name its columns, which is
    shown beside its life in `Lives`.
-/
import Mathlib.Data.List.Basic
import DueWork.Store.Memory

namespace DueWork

open Time

/-- A store whose claims and commits are atomic, as seen by the states of its
    instances. -/
class Lawful (σ : Type) [JobStore σ] where
  /-- the table that has the instances of a type -/
  table : String → String
  /-- the state of an instance in a table -/
  state? : σ → String → Int → Option State
  /-- the stores that the laws are about -/
  Holds : σ → Prop
  /-- the keys that they are about -/
  Serves : Key → Prop
  /-- a claim is won from the expected state, which is not running -/
  claim_won : ∀ {s s' : σ} {key : Key} {id : Int} {expected : State} {now : Instant},
    Holds s → Serves key → JobStore.claim s key id expected now = (.ok true, s') →
      Holds s' ∧ expected ≠ .running ∧ state? s (table key.instanceType) id = some expected ∧
      state? s' (table key.instanceType) id = some .running ∧
      ∀ t i, (t, i) ≠ (table key.instanceType, id) → state? s' t i = state? s t i
  /-- one that is not won changes no state -/
  claim_lost : ∀ {s s' : σ} {key : Key} {id : Int} {expected : State} {now : Instant}
    {r : Except Error Bool}, Holds s → Serves key →
    JobStore.claim s key id expected now = (r, s') → r ≠ .ok true →
      Holds s' ∧ ∀ t i, state? s' t i = state? s t i
  /-- the commit of a running instance leaves the others alone, however it is
      answered -/
  commit : ∀ {s s' : σ} {key : Key} {id : Int} {t : Transition} {now : Instant}
    {r : Except Error Unit}, Holds s → Serves key →
    state? s (table key.instanceType) id = some .running →
    JobStore.commit s key id t now = (r, s') →
      Holds s' ∧ ∀ t i, (t, i) ≠ (table key.instanceType, id) → state? s' t i = state? s t i
  /-- an insert leaves what is stored alone -/
  insert : ∀ {s s' : σ} {job : NewJob} {now : Instant} {r : Except Error Int},
    Holds s → JobStore.insert s job now = (r, s') →
      Holds s' ∧ ∀ t i state, state? s t i = some state → state? s' t i = some state

namespace MemoryStore

variable {s s' : MemoryStore} {key : Key} {id i : Int} {type : String} {now : Instant}

/-- The state of an instance of a type. -/
def state? (s : MemoryStore) (type : String) (id : Int) : Option State :=
  ((s.find? id).filter (·.instanceType == type)).map (·.state)

theorem find?_updateAt {f : Job → Job} {keepsId : ∀ j, (f j).id = j.id} :
    (s.updateAt id f keepsId).find? i = if i = id then (s.find? i).map f else s.find? i := by
  have hid : (fun j : Job => (if j.id = id then f j else j).id == i) = fun j => j.id == i := by
    funext j; split
    · rw [keepsId]
    · rfl
  simp only [find?, updateAt, update, List.find?_map, Function.comp_def, hid]
  cases hf : s.jobs.find? (·.id == i) with
  | none => simp
  | some j =>
    have hj : j.id = i := by simpa using List.find?_some hf
    by_cases h : i = id <;> simp [hj, h]

theorem state?_updateAt_of_ne {f : Job → Job} {keepsId : ∀ j, (f j).id = j.id} (h : i ≠ id) :
    (s.updateAt id f keepsId).state? type i = s.state? type i := by
  rw [state?, find?_updateAt, if_neg h]; rfl

theorem state?_updateAt_self {f : Job → Job} {keepsId : ∀ j, (f j).id = j.id} {j : Job}
    (hj : s.find? id = some j) (htype : (f j).instanceType = type) :
    (s.updateAt id f keepsId).state? type id = some (f j).state := by
  simp [state?, find?_updateAt, hj, Option.filter_some, htype]

/-- The update of an instance is not seen under another type. -/
theorem state?_updateAt_of_type {f : Job → Job} {keepsId : ∀ j, (f j).id = j.id} {j : Job}
    (hj : s.find? id = some j) (htype : (f j).instanceType = j.instanceType)
    (h : (type, i) ≠ (j.instanceType, id)) :
    (s.updateAt id f keepsId).state? type i = s.state? type i := by
  by_cases hi : i = id
  · subst hi
    have hne : j.instanceType ≠ type := fun he => h (by rw [he])
    simp [state?, find?_updateAt, hj, Option.filter_some, htype, hne]
  · exact state?_updateAt_of_ne hi

/-- What it takes to win a claim; one that is lost changes nothing. -/
theorem claim_ok {expected : State} {won : Bool} (h : s.claim key id expected now = (.ok won, s')) :
    won = false ∧ s' = s ∧
      (∀ j, s.find? id = some j → key.owns j = true → j.state ≠ expected) ∨
    won = true ∧ expected.isClaimable = true ∧ ∃ j, s.find? id = some j ∧ j.state = expected ∧
      key.owns j = true ∧ s' = s.updateAt id (markClaimed now) fun _ => rfl := by
  unfold claim Store.requireClaimable at h
  by_cases hc : expected.isClaimable = true
  · rw [if_pos hc] at h
    cases hf : s.find? id with
    | none =>
      simp only [hf] at h
      cases h
      exact .inl ⟨rfl, rfl, by simp⟩
    | some j =>
      simp only [hf] at h
      split at h
      case isTrue hj =>
        cases h
        exact .inr ⟨rfl, hc, j, rfl, hj.1, hj.2, rfl⟩
      case isFalse hj =>
        cases h
        refine .inl ⟨rfl, rfl, ?_⟩
        rintro _ ⟨⟩ howns hstate
        exact hj ⟨hstate, howns⟩
  · rw [if_neg hc] at h
    cases h

/-- A claim that is refused changes nothing. -/
theorem claim_error {expected : State} {e : Error}
    (h : s.claim key id expected now = (.error e, s')) : s' = s := by
  unfold claim at h
  split at h
  · cases h; rfl
  · cases h
  · split at h <;> cases h

theorem instanceType_of_owns {j : Job} (h : key.owns j = true) :
    j.instanceType = key.instanceType := by
  rw [Key.owns, Bool.and_eq_true, beq_iff_eq] at h
  exact h.1

/-- A commit changes the running instance with its id. -/
theorem commit_ok {t : Transition} (h : s.commit id t = (.ok (), s')) :
    Store.requireOutcome t = .ok () ∧ ∃ j, s.find? id = some j ∧ j.state = .running ∧
      s' = s.updateAt id t.apply fun _ => rfl := by
  unfold commit at h
  split at h
  case h_1 => cases h
  case h_2 => cases h
  case h_3 u j ht hj =>
    split at h
    case isTrue hrun =>
      cases h
      exact ⟨ht, j, hj, hrun, rfl⟩
    case isFalse => cases h

/-- A commit that is refused changes nothing. -/
theorem commit_error {t : Transition} {e : Error} (h : s.commit id t = (.error e, s')) : s' = s := by
  unfold commit at h
  split at h
  · cases h; rfl
  · cases h; rfl
  · split at h <;> cases h
    rfl

/-- An insert leaves what is found alone. -/
theorem find?_append_of_some {job : NewJob} {j : Job} (h : s.find? i = some j) :
    (s.append job now).find? i = some j := by
  rw [find?] at h
  rw [find?, append, List.find?_append, h]
  rfl

instance : Lawful MemoryStore where
  table type := type
  state? := state?
  Holds _ := True
  Serves _ := True
  claim_won {s s' key id expected now} _ _ h := by
    obtain ⟨hw, -⟩ | ⟨-, hready, j, hj, hstate, howns, rfl⟩ := claim_ok h
    · cases hw
    · have hne : expected ≠ .running := by
        rintro rfl
        cases hready
      have htype := instanceType_of_owns howns
      refine ⟨trivial, hne, ?_, state?_updateAt_self hj htype, fun type i hi => ?_⟩
      · simp [state?, hj, Option.filter_some, htype, hstate]
      · rw [← htype] at hi
        exact state?_updateAt_of_type hj rfl hi
  claim_lost {s s' key id expected now r} _ _ h hr := by
    refine ⟨trivial, fun type i => ?_⟩
    cases r with
    | error e => rw [claim_error h]
    | ok won =>
      obtain ⟨-, rfl, -⟩ | ⟨rfl, -⟩ := claim_ok h
      · rfl
      · exact absurd rfl hr
  commit {s s' key id t now r} _ _ hrun h := by
    refine ⟨trivial, fun type i hi => ?_⟩
    cases r with
    | error e => rw [commit_error h]
    | ok =>
      obtain ⟨-, j, hj, -, rfl⟩ := commit_ok h
      have htype : j.instanceType = key.instanceType := by
        by_contra hne
        simp [state?, hj, Option.filter_some, hne] at hrun
      rw [← htype] at hi
      exact state?_updateAt_of_type hj rfl hi
  insert {s s' job now r} _ h := by
    cases h
    refine ⟨trivial, fun type i state hi => ?_⟩
    cases hj : s.find? i with
    | none => simp [state?, hj] at hi
    | some j => simpa [state?, find?_append_of_some hj, hj] using hi

end MemoryStore

end DueWork

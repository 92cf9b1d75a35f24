/-
  What a store records of an instance, whatever partition it is in: its state,
  and how often it failed.

  `RecordingStore` says what a commit records and why a commit is refused, that
  a fetch brings ready instances, and that claims and lookups ahead are
  answered: the store in memory is such a store, and so is a database for keys
  that name its columns.
-/
import DueWork.Proofs.Store.Ready
import DueWork.Proofs.Store.Standing

namespace DueWork

open Time Store

/-- The state of an instance, and how often it failed. -/
structure Recorded where
  state : State
  failures : UInt32
deriving DecidableEq, Repr

/-- A store, as seen by what it records of its instances. -/
class RecordingStore (σ : Type) [JobStore σ] [StandingStore σ] where
  recorded? : σ → Int → Option Recorded
  /-- a commit records the outcome of a running instance -/
  committed : ∀ {key : Key} {s s' : σ} {id : Int} {t : Transition} {now : Instant},
    StandingStore.Serves key s → JobStore.commit s key id t now = (.ok (), s') →
      ∃ n, recorded? s id = some ⟨.running, n⟩ ∧
        recorded? s' id = some ⟨t.state, t.failureCount.getD n⟩
  /-- the commit of an outcome is refused only if the instance is not there or
      was moved -/
  refused : ∀ {key : Key} {s s' : σ} {id : Int} {t : Transition} {now : Instant} {e : Error},
    StandingStore.Serves key s → Store.requireOutcome t = .ok () → (recorded? s id).isSome →
      JobStore.commit s key id t now = (.error e, s') →
      ∃ source target, e = .invalidTransition source target
  fetched_ready : ∀ {key : Key} {s : σ} {now : Instant} {limit : Nat} {js : List Job},
    StandingStore.Serves key s → JobStore.fetchReady s key now limit = .ok js →
      ∀ j ∈ js, key.isReadyState j.state = true
  /-- a claim is won or lost -/
  claim_answers : ∀ {key : Key} {s : σ} {id : Int} {expected : State} {now : Instant},
    StandingStore.Serves key s → expected.isClaimable = true →
      ∃ won s', JobStore.claim s key id expected now = (.ok won, s')
  nextDue_answers : ∀ {key : Key} {s : σ}, StandingStore.Serves key s →
    ∃ due, JobStore.nextDue s key = .ok due

/-! ## In memory -/

namespace MemoryStore

/-- What is recorded of an instance in memory. -/
def recorded? (s : MemoryStore) (id : Int) : Option Recorded :=
  (s.find? id).map fun j => ⟨j.state, j.failureCount⟩

theorem recorded?_updateAt_self {s : MemoryStore} {id : Int} {f : Job → Job}
    {keepsId : ∀ j, (f j).id = j.id} {j : Job} (hj : s.find? id = some j) :
    (s.updateAt id f keepsId).recorded? id = some ⟨(f j).state, (f j).failureCount⟩ := by
  rw [recorded?, find?_updateAt_self hj]
  rfl

instance : RecordingStore MemoryStore where
  recorded? := recorded?
  committed {key s s' id t now} _ h := by
    obtain ⟨-, j, hj, hrun, rfl⟩ := commit_ok h
    refine ⟨j.failureCount, ?_, recorded?_updateAt_self hj⟩
    rw [recorded?, hj, ← hrun]
    rfl
  refused {key s s' id t now e} _ ht hs h := by
    obtain ⟨r, hr⟩ := Option.isSome_iff_exists.1 hs
    obtain ⟨j, hj, -⟩ := Option.map_eq_some_iff.1 hr
    by_cases hrun : j.state = .running
    · cases (commit_running ht hj hrun).symm.trans h
    · cases (commit_moved ht hj hrun).symm.trans h
      exact ⟨_, _, rfl⟩
  fetched_ready {key s now limit js} _ h j hj := by
    cases h
    have hready := (mem_ready.1 (List.mem_of_mem_take hj)).2
    simp only [Key.isReady, Bool.and_eq_true] at hready
    exact hready.1.2
  claim_answers {key s id expected now} _ h := by
    rw [show JobStore.claim s key id expected now = s.claim key id expected now from rfl, claim_eq,
      requireClaimable, if_pos h]
    dsimp only
    split <;> exact ⟨_, _, rfl⟩
  nextDue_answers _ := ⟨_, rfl⟩

end MemoryStore

/-! ## In a database -/

/-- What is recorded in a row. -/
def Store.Row.recorded? (r : Row) : Option Recorded :=
  match Database.view.state? r, r .failureCount with
  | some state, .int failures => some ⟨state, StoredJob.clampFailures failures⟩
  | _, _ => none

/-- What is recorded in an entry. -/
def Entry.recorded (e : Entry) : Recorded := ⟨e.state, e.failureCount⟩

theorem Entry.recorded?_row (e : Entry) : e.row.recorded? = some e.recorded := by
  have hstate : Database.view.state? e.row = some e.state := Database.view_state? e
  simp only [Store.Row.recorded?, hstate, Entry.row, clampFailures_toNat, recorded]

namespace Database

/-- What is recorded of an instance in a database. -/
def recorded? (d : Database) (id : Int) : Option Recorded := (view.find? d id).bind Row.recorded?

theorem recorded?_database (s : Entries) (id : Int) :
    s.database.recorded? id = (s.find? id).map Entry.recorded := by
  rw [recorded?, view_find?]
  cases s.find? id with
  | none => rfl
  | some e => exact e.recorded?_row

instance : RecordingStore Database where
  recorded? := recorded?
  committed := by
    rintro key _ d' id t now ⟨⟨s, rfl⟩, hk, -⟩ h
    obtain ⟨-, ⟨e, he, hrun⟩, rfl⟩ := commit_ok hk h
    have hpe := Entry.isRunning_iff.2 ⟨(Entries.find?_eq_some.1 he).2, hrun⟩
    refine ⟨e.failureCount, ?_, ?_⟩
    · rw [recorded?_database, he, ← hrun]
      rfl
    · rw [recorded?_database, Entries.find?_update, he, Option.map_some, if_pos hpe]
      rfl
  refused := by
    rintro key _ d' id t now e ⟨⟨s, rfl⟩, hk, htable⟩ ht hs h
    rw [commit_database hk htable, ht] at h
    rw [recorded?_database] at hs
    cases he : s.find? id with
    | none =>
      rw [he] at hs
      cases hs
    | some j =>
      simp only [he] at h
      split at h
      case isTrue => cases h
      case isFalse =>
        cases h
        exact ⟨_, _, rfl⟩
  fetched_ready := by
    rintro key _ now limit js ⟨⟨s, rfl⟩, hk, htable⟩ h j hj
    have hmem : j.sight ∈ js.map Job.sight := List.mem_map_of_mem hj
    rw [sights_of_fetch hk htable h] at hmem
    obtain ⟨e, he, hsight⟩ := List.mem_map.1 hmem
    have hready := (List.mem_filter.1 (List.mem_mergeSort.1 (List.mem_of_mem_take he))).2
    simp only [Entry.isReady, Entry.isWaiting, Bool.and_eq_true] at hready
    rw [← show e.state = j.state from (Prod.mk.inj (Prod.mk.inj hsight).2).1]
    exact hready.1.1
  claim_answers := by
    rintro key _ id expected now ⟨⟨s, rfl⟩, hk, htable⟩ h
    rw [claim_database hk htable, requireClaimable, if_pos h]
    exact ⟨_, _, rfl⟩
  nextDue_answers := by
    rintro key _ ⟨⟨s, rfl⟩, hk, htable⟩
    exact ⟨_, nextDue_database hk htable⟩

end Database

end DueWork

/-
  What is written of an instance: when it is due and how often it failed.

  Only a commit writes these again.  `WrittenStore` says so for the calls of a
  cycle, and that a fetch tells what is written: the store in memory is such a
  store, and so is a database for keys that name its columns.
-/
import DueWork.Proofs.Store.Ready
import DueWork.Proofs.Store.Standing
import DueWork.Proofs.Time.Millis

namespace DueWork

open Time Store

/-- When an instance is due, and how often it failed. -/
structure Written where
  dueAt : Instant
  failures : UInt32
deriving DecidableEq, Repr

/-- What a copy of an instance says of that. -/
def Job.written (j : Job) : Written := ⟨j.dueAt, j.failureCount⟩

/-- A store, as seen by what is written of its instances. -/
class WrittenStore (σ : Type) [JobStore σ] [StandingStore σ] where
  written? : σ → Int → Option Written
  /-- a fetch tells what is written of instances that are due -/
  fetched : ∀ {key : Key} {s : σ} {now : Instant} {limit : Nat} {js : List Job},
    StandingStore.Serves key s → JobStore.fetchReady s key now limit = .ok js →
      ∀ j ∈ js, written? s j.id = some j.written ∧ (¬now.IsLeap → j.dueAt ≤ now)
  /-- a claim leaves it alone, won or lost -/
  claimed : ∀ {key : Key} {s s' : σ} {id : Int} {expected : State} {now : Instant} {won : Bool},
    StandingStore.Serves key s → JobStore.claim s key id expected now = (.ok won, s') →
      ∀ i, written? s' i = written? s i
  /-- a commit writes it again for one instance -/
  committed : ∀ {key : Key} {s s' : σ} {id : Int} {t : Transition} {now : Instant},
    StandingStore.Serves key s → JobStore.commit s key id t now = (.ok (), s') →
      (∀ i, i ≠ id → written? s' i = written? s i) ∧
      ∀ w, written? s id = some w → ∃ w', written? s' id = some w' ∧
        w'.failures = t.failureCount.getD w.failures
  /-- an insert leaves what is there alone -/
  inserted : ∀ {key : Key} {s s' : σ} {job : NewJob} {now : Instant} {id : Int},
    StandingStore.Serves key s → JobStore.insert s job now = (.ok id, s') →
      ∀ i w, written? s i = some w → written? s' i = some w
  /-- giving up claims leaves it alone, however that is answered -/
  reset : ∀ {key : Key} {s s' : σ} {cutoff now : Instant} {r : Except Error Nat},
    StandingStore.Serves key s → JobStore.resetStale s key cutoff now = (r, s') →
      StandingStore.Serves key s' ∧ ∀ i, written? s' i = written? s i

/-! ## In memory -/

namespace MemoryStore

variable {s : MemoryStore} {id i : Int}

/-- What is written of an instance in memory. -/
def written? (s : MemoryStore) (id : Int) : Option Written := (s.find? id).map Job.written

theorem written?_updateAt_of_ne {f : Job → Job} {keepsId : ∀ j, (f j).id = j.id} (h : i ≠ id) :
    (s.updateAt id f keepsId).written? i = s.written? i := by
  rw [written?, find?_updateAt, if_neg h, written?]

/-- A change that does not write it again leaves it alone. -/
theorem written?_updateAt {f : Job → Job} {keepsId : ∀ j, (f j).id = j.id}
    (h : ∀ j, (f j).written = j.written) : (s.updateAt id f keepsId).written? i = s.written? i := by
  rw [written?, find?_updateAt, written?]
  split
  · rw [Option.map_map]
    exact congrArg (Option.map · (s.find? i)) (funext h)
  · rfl

theorem written?_updateAt_self {f : Job → Job} {keepsId : ∀ j, (f j).id = j.id} {j : Job}
    (hj : s.find? id = some j) : (s.updateAt id f keepsId).written? id = some (f j).written := by
  rw [written?, find?_updateAt, if_pos rfl, hj]
  rfl

theorem written?_resetStale {key : Key} {cutoff : Instant} :
    (s.resetStale key cutoff).2.written? i = s.written? i := by
  rw [written?, find?_resetStale, written?, Option.map_map]
  refine congrArg (Option.map · (s.find? i)) (funext fun j => ?_)
  rw [Function.comp_apply]
  split <;> rfl

instance : WrittenStore MemoryStore where
  written? := written?
  fetched {key s now limit js} _ h j hj := by
    cases h
    obtain ⟨hmem, hready⟩ := mem_ready.1 (List.mem_of_mem_take hj)
    simp only [Key.isReady, Bool.and_eq_true, decide_eq_true_eq] at hready
    refine ⟨?_, fun _ => hready.2⟩
    rw [written?, find?_eq_some.2 ⟨hmem, rfl⟩]
    rfl
  claimed _ h i := by
    obtain ⟨-, rfl, -⟩ | ⟨-, -, j, -, -, -, rfl⟩ := claim_ok h
    · rfl
    · exact written?_updateAt fun _ => rfl
  committed {key s s' id t now} _ h := by
    obtain ⟨-, j, hj, -, rfl⟩ := commit_ok h
    refine ⟨fun i hi => written?_updateAt_of_ne hi, fun w hw =>
      ⟨(t.apply j).written, written?_updateAt_self hj, ?_⟩⟩
    rw [written?, hj] at hw
    cases hw
    rfl
  inserted {key s s' job now id} _ h i w hw := by
    cases h
    obtain ⟨j, hj, rfl⟩ := Option.map_eq_some_iff.1 hw
    rw [written?, find?_append_of_some hj]
    rfl
  reset {key s s' cutoff now r} _ h := by
    cases h
    exact ⟨trivial, fun i => written?_resetStale⟩

end MemoryStore

/-! ## In a database -/

/-- What is written in a row. -/
def Store.Row.written? (r : Row) : Option Written :=
  match r .dueAt, r .failureCount with
  | .int dueAt, .int failures => some ⟨.ofMillis dueAt, StoredJob.clampFailures failures⟩
  | _, _ => none

/-- What is written in an entry. -/
def Entry.written (e : Entry) : Written := ⟨.ofMillis e.dueAt, e.failureCount⟩

theorem Entry.written?_row (e : Entry) : e.row.written? = some e.written := by
  simp only [Store.Row.written?, Entry.row, written, clampFailures_toNat]

/-- Outside a leap second the clock is not ahead of itself in milliseconds. -/
theorem Time.Instant.ofMillis_toMillis_le {t : Instant} (h : ¬t.IsLeap) :
    ofMillis t.toMillis ≤ t := by
  have hcalendar : InCalendar t.toMillis := by
    refine ⟨t.minMillis_le_toMillis, ?_⟩
    have := t.seconds_le
    simp only [IsLeap, nanosPerSecond] at h
    simp only [maxMillis, toMillis]
    omega
  obtain ⟨hseconds, hnanos⟩ := ofMillis_of_inCalendar hcalendar
  simp only [IsLeap, nanosPerSecond] at h
  rw [le_def, hseconds, hnanos, toMillis]
  omega

namespace Database

variable {s : Entries} {id i : Int}

/-- What is written of an instance in a database. -/
def written? (d : Database) (id : Int) : Option Written := (view.find? d id).bind Row.written?

theorem written?_database (s : Entries) (id : Int) :
    s.database.written? id = (s.find? id).map Entry.written := by
  rw [written?, view_find?]
  cases s.find? id with
  | none => rfl
  | some e => exact e.written?_row

variable {p : Entry → Bool} {g : Entry → Entry} {keepsId : ∀ e, (g e).id = e.id}

theorem written?_update_of_ne (hp : ∀ e, p e = true → e.id = id) (h : i ≠ id) :
    (s.update p g keepsId).database.written? i = s.database.written? i := by
  rw [written?_database, written?_database, Entries.find?_update]
  cases he : s.find? i with
  | none => rfl
  | some e =>
    have hpe : ¬p e = true := fun hpe => h ((Entries.find?_eq_some.1 he).2.symm.trans (hp e hpe))
    rw [Option.map_some, if_neg hpe]

/-- A change that does not write it again leaves it alone. -/
theorem written?_update (h : ∀ e, (g e).written = e.written) :
    (s.update p g keepsId).database.written? i = s.database.written? i := by
  rw [written?_database, written?_database, Entries.find?_update, Option.map_map]
  refine congrArg (Option.map · (s.find? i)) (funext fun e => ?_)
  rw [Function.comp_apply]
  split
  · exact h e
  · rfl

instance : WrittenStore Database where
  written? := written?
  fetched := by
    rintro key _ now limit js ⟨⟨s, rfl⟩, hk, ht⟩ h j hj
    rw [show JobStore.fetchReady s.database key now limit = s.database.fetchReady key now limit
      from rfl, fetchReady_stored hk ht] at h
    have hread : ∀ (e : Entry) (j : Job), e.stored.toJob key.instanceType = .ok j →
        (j.id, j.written) = (e.id, e.written) := by
      intro e j hej
      obtain ⟨hid, hdue, -, hfailures⟩ := Entry.of_toJob hej
      rw [Job.written, hid, hdue, hfailures]
      rfl
    have hmem : (j.id, j.written) ∈ js.map fun j => (j.id, j.written) := List.mem_map_of_mem hj
    rw [map_of_mapM hread h] at hmem
    obtain ⟨e, he, hej⟩ := List.mem_map.1 hmem
    obtain ⟨hid, hwritten⟩ := Prod.mk.inj hej
    obtain ⟨hlist, hready⟩ := List.mem_filter.1 (List.mem_mergeSort.1 (List.mem_of_mem_take he))
    simp only [Entry.isReady, Bool.and_eq_true, decide_eq_true_eq] at hready
    refine ⟨?_, fun hleap => ?_⟩
    · rw [written?_database, Entries.find?_eq_some.2 ⟨hlist, hid⟩, Option.map_some, hwritten]
    · have hdue : j.dueAt = .ofMillis e.dueAt := congrArg Written.dueAt hwritten.symm
      rw [hdue]
      exact Instant.le_trans (Instant.ofMillis_mono hready.2) (Instant.ofMillis_toMillis_le hleap)
  claimed := by
    rintro key _ d' id expected now won ⟨⟨s, rfl⟩, hk, -⟩ h i
    obtain ⟨-, rfl, -⟩ | ⟨-, -, e, -, -, rfl⟩ := claim_ok hk h
    · rfl
    · exact written?_update fun _ => rfl
  committed := by
    rintro key _ d' id t now ⟨⟨s, rfl⟩, hk, -⟩ h
    obtain ⟨-, ⟨e, he, hrun⟩, rfl⟩ := commit_ok hk h
    refine ⟨fun i hi => written?_update_of_ne (fun f hf => (Entry.isRunning_iff.1 hf).1) hi,
      fun w hw => ⟨(e.commit t now).written, ?_, ?_⟩⟩
    · have hpe := Entry.isRunning_iff.2 ⟨(Entries.find?_eq_some.1 he).2, hrun⟩
      rw [written?_database, Entries.find?_update, he, Option.map_some, if_pos hpe, Option.map_some]
    · rw [written?_database, he] at hw
      cases hw
      rfl
  inserted := by
    rintro key _ d' job now id ⟨⟨s, rfl⟩, -, -⟩ h i w hw
    obtain ⟨rfl, rfl⟩ := insert_ok h
    rw [written?_database] at hw ⊢
    obtain ⟨e, he, rfl⟩ := Option.map_eq_some_iff.1 hw
    rw [Entries.find?_append_of_some he]
    rfl
  reset := by
    rintro key _ d' cutoff now r ⟨⟨s, rfl⟩, hk, ht⟩ h
    cases r with
    | error e =>
      obtain ⟨-, rfl⟩ := execute_error h
      exact ⟨⟨⟨_, rfl⟩, hk, ht⟩, fun _ => rfl⟩
    | ok n =>
      obtain ⟨-, rfl⟩ := resetStale_ok hk h
      exact ⟨⟨⟨_, rfl⟩, hk, ht⟩, fun i => written?_update fun _ => rfl⟩

end Database

end DueWork

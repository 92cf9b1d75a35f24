/-
  Where the instances of a partition stand.

  The actor of a partition sees of an instance its state, how often it failed,
  and whether it is due (`Standing`).  `StandingStore` says what the calls of a
  cycle do to the standings in a store, and what a fetch tells of them; the
  store in memory is such a store, and so is a database for keys that name its
  columns.
-/
import DueWork.Proofs.Store.Lives
import DueWork.Proofs.Store.Queries

namespace DueWork

open Time Store

/-- Where an instance stands. -/
structure Standing where
  state : State
  failures : UInt32
  /-- it is due by this reading of the clock -/
  isDue : Instant → Prop

/-- A store, as seen by the standings of the instances of a partition. -/
class StandingStore (σ : Type) [JobStore σ] where
  standing? : Key → σ → Int → Option Standing
  /-- the store can be used with the key -/
  Serves : Key → σ → Prop
  /-- a fetch tells where each instance stands -/
  fetched : ∀ {key : Key} {s : σ} {now : Instant} {limit : Nat} {js : List Job}, Serves key s →
    JobStore.fetchReady s key now limit = .ok js →
      (js.map (·.id)).Nodup ∧ ∀ j ∈ js, ∃ r, standing? key s j.id = some r ∧
        r.state = j.state ∧ r.failures = j.failureCount
  /-- and passes over none, unless there are more than the limit -/
  fetched_short : ∀ {key : Key} {s : σ} {now : Instant} {limit : Nat} {js : List Job} {id : Int}
    {r : Standing}, Serves key s → JobStore.fetchReady s key now limit = .ok js →
      js.length < limit → standing? key s id = some r → key.isReadyState r.state = true →
      r.isDue now → ∃ j ∈ js, j.id = id
  /-- a claim that is won changes the state of one instance -/
  claim_won : ∀ {key : Key} {s s' : σ} {id : Int} {expected : State} {now : Instant},
    Serves key s → JobStore.claim s key id expected now = (.ok true, s') →
      Serves key s' ∧ (∀ i, i ≠ id → standing? key s' i = standing? key s i) ∧
      ∃ r, standing? key s id = some r ∧ r.state = expected ∧ expected.isClaimable = true ∧
        standing? key s' id = some { r with state := .running }
  /-- a claim is lost because the instance is in another state -/
  claim_lost : ∀ {key : Key} {s s' : σ} {id : Int} {expected : State} {now : Instant},
    Serves key s → JobStore.claim s key id expected now = (.ok false, s') →
      Serves key s' ∧ (∀ i, standing? key s' i = standing? key s i) ∧
      ∀ r, standing? key s id = some r → r.state ≠ expected
  /-- a claim that fails changes nothing -/
  claim_error : ∀ {key : Key} {s s' : σ} {id : Int} {expected : State} {now : Instant} {e : Error},
    Serves key s → JobStore.claim s key id expected now = (.error e, s') → s' = s
  /-- a commit changes a running instance -/
  commit_ok : ∀ {key : Key} {s s' : σ} {id : Int} {t : Transition} {now : Instant},
    Serves key s → JobStore.commit s key id t now = (.ok (), s') →
      Serves key s' ∧ (∀ i, i ≠ id → standing? key s' i = standing? key s i) ∧
      ∀ r, standing? key s id = some r → ∃ r', standing? key s' id = some r' ∧
        r'.state = t.state ∧ r'.failures = t.failureCount.getD r.failures
  /-- and is not refused -/
  commit_running : ∀ {key : Key} {s : σ} {id : Int} {t : Transition} {now : Instant} {r : Standing},
    Serves key s → standing? key s id = some r → r.state = .running →
      Store.requireOutcome t = .ok () → ∃ s', JobStore.commit s key id t now = (.ok (), s')
  /-- a commit that is refused changes nothing -/
  commit_error : ∀ {key : Key} {s s' : σ} {id : Int} {t : Transition} {now : Instant} {e : Error},
    Serves key s → JobStore.commit s key id t now = (.error e, s') → s' = s
  /-- an insert adds an instance that did not fail yet -/
  insert_ok : ∀ {key : Key} {s s' : σ} {job : NewJob} {now : Instant} {id : Int},
    Serves key s → JobStore.insert s job now = (.ok id, s') →
      Serves key s' ∧ standing? key s id = none ∧
      (∀ i, i ≠ id → standing? key s' i = standing? key s i) ∧
      ∀ r, standing? key s' id = some r → r.state = .new ∧ r.failures = 0
  /-- an insert that is refused changes nothing -/
  insert_error : ∀ {s s' : σ} {job : NewJob} {now : Instant} {e : Error},
    JobStore.insert s job now = (.error e, s') → s' = s

/-! ## In memory -/

namespace MemoryStore

variable {s s' : MemoryStore} {key : Key} {id i : Int} {now : Instant}

/-- Where an instance in memory stands. -/
def standing? (key : Key) (s : MemoryStore) (id : Int) : Option Standing :=
  ((s.find? id).filter key.owns).map fun j => ⟨j.state, j.failureCount, fun t => j.dueAt ≤ t⟩

theorem standing?_eq_some {r : Standing} (h : standing? key s id = some r) :
    ∃ j, s.find? id = some j ∧ key.owns j = true ∧
      r = ⟨j.state, j.failureCount, fun t => j.dueAt ≤ t⟩ := by
  obtain ⟨j, hj, rfl⟩ := Option.map_eq_some_iff.1 h
  obtain ⟨hj, howns⟩ := Option.filter_eq_some_iff.1 hj
  exact ⟨j, hj, howns, rfl⟩

theorem standing?_of_find? {j : Job} (hj : s.find? id = some j) (howns : key.owns j = true) :
    standing? key s id = some ⟨j.state, j.failureCount, fun t => j.dueAt ≤ t⟩ := by
  rw [standing?, hj, Option.filter_some, if_pos howns]
  rfl

theorem standing?_updateAt_of_ne {f : Job → Job} {keepsId : ∀ j, (f j).id = j.id} (h : i ≠ id) :
    standing? key (s.updateAt id f keepsId) i = standing? key s i := by
  rw [standing?, find?_updateAt, if_neg h]
  rfl

theorem standing?_updateAt_self {f : Job → Job} {keepsId : ∀ j, (f j).id = j.id} {j : Job}
    (hj : s.find? id = some j) (howns : key.owns (f j) = true) :
    standing? key (s.updateAt id f keepsId) id =
      some ⟨(f j).state, (f j).failureCount, fun t => (f j).dueAt ≤ t⟩ := by
  refine standing?_of_find? ?_ howns
  rw [find?_updateAt, if_pos rfl, hj]
  rfl

theorem nodup_ids_ready : ((s.ready key now).map (·.id)).Nodup := by
  rw [ready, ((List.mergeSort_perm ..).map _).nodup_iff, List.Nodup, List.pairwise_map]
  exact (s.sorted.filter _).imp fun h => Int.ne_of_lt h

instance : StandingStore MemoryStore where
  standing? := standing?
  Serves _ _ := True
  fetched {key s now limit js} _ h := by
    cases h
    refine ⟨?_, fun j hj => ?_⟩
    · rw [List.map_take]
      exact nodup_ids_ready.sublist (List.take_sublist ..)
    · have hj : j ∈ s.ready key now := List.mem_of_mem_take hj
      rw [ready, List.mem_mergeSort, List.mem_filter] at hj
      obtain ⟨hmem, hready⟩ := hj
      simp only [Key.isReady, Bool.and_eq_true] at hready
      exact ⟨_, standing?_of_find? (find?_eq_some.2 ⟨hmem, rfl⟩) hready.1.1, rfl, rfl⟩
  fetched_short {key s now limit js id r} _ h hshort hr hready hdue := by
    cases h
    obtain ⟨j, hj, howns, rfl⟩ := standing?_eq_some hr
    obtain ⟨hmem, hid⟩ := find?_eq_some.1 hj
    refine ⟨j, ?_, hid⟩
    have hlength : (s.ready key now).length ≤ limit := by
      rw [List.length_take] at hshort
      omega
    rw [List.take_of_length_le hlength, ready, List.mem_mergeSort, List.mem_filter]
    refine ⟨hmem, ?_⟩
    rw [Key.isReady, howns, hready]
    exact decide_eq_true hdue
  claim_won {key s s' id expected now} _ h := by
    obtain ⟨hw, -⟩ | ⟨-, hready, j, hj, hstate, howns, rfl⟩ := claim_ok h
    · cases hw
    · exact ⟨trivial, fun i hi => standing?_updateAt_of_ne hi, _, standing?_of_find? hj howns,
        hstate, hready, standing?_updateAt_self hj howns⟩
  claim_lost {key s s' id expected now} _ h := by
    obtain ⟨-, rfl, hnone⟩ | ⟨hw, -⟩ := claim_ok h
    · refine ⟨trivial, fun i => rfl, fun r hr => ?_⟩
      obtain ⟨j, hj, howns, rfl⟩ := standing?_eq_some hr
      exact hnone j hj howns
    · cases hw
  claim_error _ h := claim_error h
  commit_ok {key s s' id t now} _ h := by
    obtain ⟨-, j, hj, -, rfl⟩ := commit_ok h
    refine ⟨trivial, fun i hi => standing?_updateAt_of_ne hi, fun r hr => ?_⟩
    obtain ⟨j', hj', howns, rfl⟩ := standing?_eq_some hr
    cases hj.symm.trans hj'
    exact ⟨_, standing?_updateAt_self hj howns, rfl, rfl⟩
  commit_running {key s id t now r} _ hr hrun ht := by
    obtain ⟨j, hj, -, rfl⟩ := standing?_eq_some hr
    exact ⟨_, commit_running ht hj hrun⟩
  commit_error _ h := commit_error h
  insert_ok {key s s' job now id} _ h := by
    cases h
    refine ⟨trivial, ?_, fun i hi => ?_, fun r hr => ?_⟩
    · rw [standing?, find?_of_lastId_lt (Int.lt_succ _)]
      rfl
    · rw [standing?, find?_append, if_neg hi]
      rfl
    · obtain ⟨j, hj, -, rfl⟩ := standing?_eq_some hr
      rw [find?_append, if_pos rfl] at hj
      cases hj
      exact ⟨rfl, rfl⟩
  insert_error h := by cases h

end MemoryStore

/-! ## In a database -/

/-- Where the instance of a row stands. -/
def Store.Row.standing? (key : Key) (r : Row) : Option Standing :=
  match Database.view.state? r, r .attributes, r .failureCount, r .dueAt with
  | some state, .text attributes, .int failures, .int dueAt =>
    match StoredJob.readAttributes attributes with
    | .ok a =>
      if key.predicate.accepts a then
        some ⟨state, StoredJob.clampFailures failures, fun t => dueAt ≤ t.toMillis⟩
      else none
    | .error _ => none
  | _, _, _, _ => none

/-- Where an entry stands. -/
def Entry.standing? (key : Key) (e : Entry) : Option Standing :=
  if key.predicate.accepts e.attributes then
    some ⟨e.state, e.failureCount, fun t => e.dueAt ≤ t.toMillis⟩
  else none

theorem Entry.standing?_eq_some {key : Key} {e : Entry} {r : Standing}
    (h : e.standing? key = some r) : key.predicate.accepts e.attributes = true ∧
      r = ⟨e.state, e.failureCount, fun t => e.dueAt ≤ t.toMillis⟩ := by
  unfold standing? at h
  split at h
  case isTrue howns => exact ⟨howns, (Option.some.inj h).symm⟩
  case isFalse => cases h

theorem Entry.standing?_row (key : Key) (e : Entry) : e.row.standing? key = e.standing? key := by
  have hstate : Database.view.state? e.row = some e.state := Database.view_state? e
  simp only [Store.Row.standing?, hstate, Entry.row, readAttributes_text, clampFailures_toNat,
    standing?]

/-- What a fetch tells of an instance. -/
def Job.sight (j : Job) : Int × State × UInt32 := (j.id, j.state, j.failureCount)

/-- What an entry holds of that. -/
def Entry.sight (e : Entry) : Int × State × UInt32 := (e.id, e.state, e.failureCount)

/-- The instance that is read from an entry. -/
theorem Entry.of_toJob {e : Entry} {type : String} {j : Job} (h : e.stored.toJob type = .ok j) :
    j.id = e.id ∧ j.dueAt = .ofMillis e.dueAt ∧ j.state = e.state ∧
      j.failureCount = e.failureCount := by
  have hstate : State.ofName? e.stored.state = some e.state := State.ofName?_name e.state
  have hfailures : StoredJob.clampFailures e.stored.failureCount = e.failureCount :=
    clampFailures_toNat e.failureCount
  simp only [StoredJob.toJob, hstate, hfailures] at h
  obtain ⟨_, hok, h⟩ := Store.bind_eq_ok h
  cases hok
  obtain ⟨_, -, h⟩ := Store.bind_eq_ok h
  obtain ⟨_, -, h⟩ := Store.bind_eq_ok h
  obtain ⟨_, -, h⟩ := Store.bind_eq_ok h
  cases h
  exact ⟨rfl, rfl, rfl, rfl⟩

theorem Entry.sight_of_toJob {e : Entry} {type : String} {j : Job}
    (h : e.stored.toJob type = .ok j) : j.sight = e.sight := by
  obtain ⟨hid, -, hstate, hfailures⟩ := Entry.of_toJob h
  rw [Job.sight, Entry.sight, hid, hstate, hfailures]

/-- What is common to each element and its answer is common to the lists. -/
theorem Store.map_of_mapM {α β γ ε : Type} {f : α → Except ε β} {u : β → γ} {v : α → γ}
    {l : List α} {l' : List β} (hf : ∀ a b, f a = .ok b → u b = v a) (h : l.mapM f = .ok l') :
    l'.map u = l.map v := by
  induction l generalizing l' with
  | nil =>
    cases h
    rfl
  | cons a l ih =>
    rw [List.mapM_cons] at h
    obtain ⟨b, hb, h⟩ := bind_eq_ok h
    obtain ⟨bs, hbs, h⟩ := bind_eq_ok h
    cases h
    rw [List.map_cons, List.map_cons, hf a b hb, ih hbs]

namespace Database

variable {s : Entries} {d d' : Database} {key : Key} {id i : Int} {now : Instant}

/-- Where an instance in a database stands. -/
def standing? (key : Key) (d : Database) (id : Int) : Option Standing :=
  (view.find? d id).bind (Row.standing? key)

theorem standing?_database (key : Key) (s : Entries) (id : Int) :
    standing? key s.database id = (s.find? id).bind (Entry.standing? key) := by
  rw [standing?, view_find?]
  cases s.find? id with
  | none => rfl
  | some e => exact e.standing?_row key

theorem standing?_eq_some {r : Standing} (h : standing? key s.database id = some r) :
    ∃ e, s.find? id = some e ∧ key.predicate.accepts e.attributes = true ∧
      r = ⟨e.state, e.failureCount, fun t => e.dueAt ≤ t.toMillis⟩ := by
  rw [standing?_database] at h
  obtain ⟨e, he, h⟩ := Option.bind_eq_some_iff.1 h
  exact ⟨e, he, Entry.standing?_eq_some h⟩

theorem standing?_of_find? {e : Entry} (he : s.find? id = some e)
    (hp : key.predicate.accepts e.attributes = true) : standing? key s.database id =
      some ⟨e.state, e.failureCount, fun t => e.dueAt ≤ t.toMillis⟩ := by
  rw [standing?_database, he, Option.bind_some, Entry.standing?, if_pos hp]

variable {p : Entry → Bool} {g : Entry → Entry} {keepsId : ∀ e, (g e).id = e.id}

theorem standing?_update_of_ne (hp : ∀ e, p e = true → e.id = id) (h : i ≠ id) :
    standing? key (s.update p g keepsId).database i = standing? key s.database i := by
  rw [standing?_database, standing?_database, Entries.find?_update]
  cases he : s.find? i with
  | none => rfl
  | some e =>
    have hpe : ¬p e = true := fun hpe => h ((Entries.find?_eq_some.1 he).2.symm.trans (hp e hpe))
    rw [Option.map_some, if_neg hpe]

theorem standing?_update_self {e : Entry} (he : s.find? id = some e) (hpe : p e = true)
    (haccepts : key.predicate.accepts (g e).attributes = true) :
    standing? key (s.update p g keepsId).database id =
      some ⟨(g e).state, (g e).failureCount, fun t => (g e).dueAt ≤ t.toMillis⟩ := by
  refine standing?_of_find? ?_ haccepts
  rw [Entries.find?_update, he, Option.map_some, if_pos hpe]

/-- A fetch tells of the first ready entries. -/
theorem sights_of_fetch {limit : Nat} {js : List Job} (hk : key.UsualColumns)
    (ht : isDefaultTable key.instanceType = true)
    (h : JobStore.fetchReady s.database key now limit = .ok js) :
    js.map Job.sight = ((s.ready key now).take limit).map Entry.sight := by
  rw [show JobStore.fetchReady s.database key now limit = s.database.fetchReady key now limit
    from rfl, fetchReady_stored hk ht] at h
  exact map_of_mapM (fun e j hj => Entry.sight_of_toJob hj) h

/-- A fetch of fewer jobs than asked for cuts nothing off. -/
theorem length_le_of_short {js : List Job} {es : List Entry} {limit : Nat}
    (h : js.map Job.sight = (es.take limit).map Entry.sight) (hshort : js.length < limit) :
    es.length ≤ limit := by
  have := congrArg List.length h
  rw [List.length_map, List.length_map, List.length_take] at this
  omega

/-- A database with entries, and a key that names its columns. -/
structure Serves (key : Key) (d : Database) : Prop where
  entries : d.HasEntries
  columns : key.UsualColumns
  table : isDefaultTable key.instanceType = true

instance : StandingStore Database where
  standing? := standing?
  Serves := Serves
  fetched := by
    rintro key _ now limit js ⟨⟨s, rfl⟩, hk, ht⟩ h
    have hsights := sights_of_fetch hk ht h
    constructor
    · have hids : js.map (·.id) = (js.map Job.sight).map (·.1) := by rw [List.map_map]; rfl
      rw [hids, hsights, List.map_map]
      exact Entries.nodup_ids_ready.sublist ((List.take_sublist ..).map _)
    · intro j hj
      have hmem : j.sight ∈ js.map Job.sight := List.mem_map_of_mem hj
      rw [hsights] at hmem
      obtain ⟨e, he, hsight⟩ := List.mem_map.1 hmem
      obtain ⟨hid, hsight⟩ := Prod.mk.inj hsight
      obtain ⟨hstate, hfailures⟩ := Prod.mk.inj hsight
      obtain ⟨hlist, hready⟩ := Entries.mem_ready.1 (List.mem_of_mem_take he)
      simp only [Entry.isReady, Entry.isWaiting, Bool.and_eq_true] at hready
      exact ⟨_, standing?_of_find? (Entries.find?_eq_some.2 ⟨hlist, hid⟩) hready.1.2, hstate,
        hfailures⟩
  fetched_short := by
    rintro key _ now limit js id r ⟨⟨s, rfl⟩, hk, ht⟩ h hshort hr hstate hdue
    have hsights := sights_of_fetch hk ht h
    obtain ⟨e, he, haccepts, rfl⟩ := standing?_eq_some hr
    obtain ⟨hlist, hid⟩ := Entries.find?_eq_some.1 he
    have hmem : e.sight ∈ js.map Job.sight := by
      rw [hsights, List.take_of_length_le (length_le_of_short hsights hshort)]
      refine List.mem_map_of_mem (Entries.mem_ready.2 ⟨hlist, ?_⟩)
      rw [Entry.isReady, Entry.isWaiting, hstate, haccepts]
      exact decide_eq_true hdue
    obtain ⟨j, hj, hsight⟩ := List.mem_map.1 hmem
    exact ⟨j, hj, (Prod.mk.inj hsight).1.trans hid⟩
  claim_won := by
    rintro key _ d' id expected now ⟨⟨s, rfl⟩, hk, ht⟩ h
    obtain ⟨hw, -⟩ | ⟨-, hready, e, he, hpe, rfl⟩ := claim_ok hk h
    · cases hw
    · obtain ⟨-, hstate, haccepts⟩ := Entry.isClaimable_iff.1 hpe
      exact ⟨⟨⟨_, rfl⟩, hk, ht⟩,
        fun i hi => standing?_update_of_ne (fun f hf => (Entry.isClaimable_iff.1 hf).1) hi, _,
        standing?_of_find? he haccepts, hstate, hready, standing?_update_self he hpe haccepts⟩
  claim_lost := by
    rintro key _ d' id expected now ⟨⟨s, rfl⟩, hk, ht⟩ h
    obtain ⟨-, rfl, hnone⟩ | ⟨hw, -⟩ := claim_ok hk h
    · refine ⟨⟨⟨_, rfl⟩, hk, ht⟩, fun i => rfl, fun r hr => ?_⟩
      obtain ⟨e, he, haccepts, rfl⟩ := standing?_eq_some hr
      exact hnone e he haccepts
    · cases hw
  claim_error _ h := (execute_error h).2
  commit_ok := by
    rintro key _ d' id t now ⟨⟨s, rfl⟩, hk, ht⟩ h
    obtain ⟨-, ⟨e, he, hrun⟩, rfl⟩ := commit_ok hk h
    refine ⟨⟨⟨_, rfl⟩, hk, ht⟩,
      fun i hi => standing?_update_of_ne (fun f hf => (Entry.isRunning_iff.1 hf).1) hi,
      fun r hr => ?_⟩
    obtain ⟨f, hf, haccepts, rfl⟩ := standing?_eq_some hr
    cases he.symm.trans hf
    exact ⟨_, standing?_update_self he
      (Entry.isRunning_iff.2 ⟨(Entries.find?_eq_some.1 he).2, hrun⟩) haccepts, rfl, rfl⟩
  commit_running := by
    rintro key _ id t now r ⟨⟨s, rfl⟩, hk, ht⟩ hr hrun hnext
    obtain ⟨e, he, -, rfl⟩ := standing?_eq_some hr
    refine ⟨(s.update (Entry.isRunning id) (Entry.commit t now) (Entry.id_commit t now)).database,
      (commit_database hk ht).trans ?_⟩
    rw [hnext, he]
    exact if_pos hrun
  commit_error := by
    rintro key _ d' id t now e ⟨⟨s, rfl⟩, hk, -⟩ h
    exact commit_error hk h
  insert_ok := by
    rintro key _ d' job now id ⟨⟨s, rfl⟩, hk, ht⟩ h
    obtain ⟨rfl, rfl⟩ := insert_ok h
    refine ⟨⟨⟨_, rfl⟩, hk, ht⟩, ?_, fun i hi => ?_, fun r hr => ?_⟩
    · rw [standing?_database, Entries.find?_of_lastId_lt (Int.lt_succ _)]
      rfl
    · rw [standing?_database, standing?_database, Entries.find?_append, if_neg hi]
    · obtain ⟨e, he, -, rfl⟩ := standing?_eq_some hr
      rw [Entries.find?_append, if_pos rfl] at he
      cases he
      exact ⟨rfl, rfl⟩
  insert_error h := (execute_error h).2

end Database

end DueWork

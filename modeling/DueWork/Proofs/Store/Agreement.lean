/-
  Counting, fetching and the next due time agree.

  Three queries look at what waits in a partition, each for itself.

  * `QueriesAgree` says what they have in common: the count is that of the
    ready instances, a fetch answers with the first of them (`AreFirst`), and
    the next due time has come exactly if there are any;
  * a fetch fails only if one of these cannot be looked up either;
  * a database compares in milliseconds and answers with instants, which is the
    same (`ofMillis_le_iff`) unless the clock is in a leap second or at the end
    of the calendar.
-/
import DueWork.Proofs.Partition.Disjoint
import DueWork.Proofs.Store.ReadBack
import DueWork.Proofs.Store.Ready
import DueWork.Proofs.Store.Refinement

namespace DueWork

open Time Store

/-! ## Agreement -/

/-- The first of the ready instances by due time and id, up to a limit. -/
structure AreFirst (held : List Job) (key : Key) (now : Instant) (limit : Nat) (js : List Job) :
    Prop where
  sorted : js.Pairwise Job.Before
  ready : ∀ j ∈ js, j ∈ held ∧ key.isReady j now = true
  length : js.length = min limit (held.countP (key.isReady · now))
  /-- what is left out comes after them -/
  left : ∀ j ∈ held, key.isReady j now = true → j ∈ js ∨ ∀ i ∈ js, i.Before j

/-- The queries of a partition agree on the instances that the store holds. -/
structure QueriesAgree {σ : Type} [JobStore σ] (s : σ) (held : List Job) (key : Key)
    (now : Instant) : Prop where
  counts : JobStore.countReady s key now = .ok (held.countP (key.isReady · now))
  /-- a fetch finds the first ready instances, or fails like the lookup of one
      of them -/
  fetches : ∀ limit, ∃ js, AreFirst held key now limit js ∧
    ((∀ j ∈ js, JobStore.get s key.instanceType j.id = .ok (some j)) ∧
        JobStore.fetchReady s key now limit = .ok js ∨
      ∃ j ∈ js, ∃ e, JobStore.get s key.instanceType j.id = .error e ∧
        JobStore.fetchReady s key now limit = .error e)
  wakes : ∃ due, JobStore.nextDue s key = .ok due ∧
    ((∃ d, due = some d ∧ d ≤ now) ↔ 0 < held.countP (key.isReady · now))

/-- The queries agree for all keys and clocks that are asked with, and no two
    partitions that are disjoint fetch the same instance. -/
structure Consistent {σ : Type} [JobStore σ] (s : σ) (held : String → List Job)
    (Asks : Key → Instant → Prop) : Prop where
  agree : ∀ key now, Asks key now → QueriesAgree s (held key.instanceType) key now
  disjoint : ∀ a b now now' limit limit' js ks, Asks a now → Asks b now' →
    a.instanceType = b.instanceType → a.isDisjointFrom b = true →
    JobStore.fetchReady s a now limit = .ok js → JobStore.fetchReady s b now' limit' = .ok ks →
    ∀ i ∈ js, ∀ j ∈ ks, i.id ≠ j.id

section

variable {held all js : List Job} {key : Key} {now : Instant} {limit : Nat}

/-- The begin of all ready instances in their order. -/
theorem areFirst_take (hsorted : all.Pairwise Job.Before)
    (hmem : ∀ j, j ∈ all ↔ j ∈ held ∧ key.isReady j now = true)
    (hlength : all.length = held.countP (key.isReady · now)) :
    AreFirst held key now limit (all.take limit) where
  sorted := hsorted.sublist (List.take_sublist ..)
  ready j hj := (hmem j).1 (List.mem_of_mem_take hj)
  length := by rw [List.length_take, hlength]
  left j hj hready := by
    have hall : j ∈ all.take limit ++ all.drop limit := by
      rw [List.take_append_drop]
      exact (hmem j).2 ⟨hj, hready⟩
    rw [← List.take_append_drop limit all] at hsorted
    refine (List.mem_append.1 hall).imp_right fun hdrop i hi => ?_
    exact (List.pairwise_append.1 hsorted).2.2 i hi j hdrop

theorem countP_isReady_pos :
    0 < held.countP (key.isReady · now) ↔ ∃ j ∈ held, key.isReady j now = true := by
  rw [List.countP_pos_iff]

variable {σ : Type} [JobStore σ] {s : σ}

/-- What is fetched is ready, and is looked up as it was fetched. -/
theorem QueriesAgree.fetched (h : QueriesAgree s held key now)
    (hjs : JobStore.fetchReady s key now limit = .ok js) : ∀ j ∈ js, key.isReady j now = true ∧
      JobStore.get s key.instanceType j.id = .ok (some j) := by
  obtain ⟨ks, hfirst, ⟨hget, hfetch⟩ | ⟨_, _, e, _, hfetch⟩⟩ := h.fetches limit
  · cases hjs.symm.trans hfetch
    exact fun j hj => ⟨(hfirst.ready j hj).2, hget j hj⟩
  · cases hjs.symm.trans hfetch

theorem consistent_of_agree {held : String → List Job} {Asks : Key → Instant → Prop}
    (h : ∀ key now, Asks key now → QueriesAgree s (held key.instanceType) key now) :
    Consistent s held Asks where
  agree := h
  disjoint a b now now' limit limit' js ks ha hb htype hdisjoint hjs hks i hi j hj hid := by
    obtain ⟨hia, hgeti⟩ := (h a now ha).fetched hjs i hi
    obtain ⟨hjb, hgetj⟩ := (h b now' hb).fetched hks j hj
    rw [htype, hid, hgetj] at hgeti
    cases hgeti
    simp only [Key.isReady, Bool.and_eq_true] at hia hjb
    exact Key.not_both_own hdisjoint ⟨hia.1.1, hjb.1.1⟩

end

/-! ## In memory -/

namespace MemoryStore

variable {s : MemoryStore} {key : Key} {now : Instant}

/-- The next due time has come if something is ready. -/
theorem nextDue_le_iff : (∃ d, s.nextDue key = some d ∧ d ≤ now) ↔
    0 < s.jobs.countP (key.isReady · now) := by
  rw [countP_isReady_pos]
  constructor
  · rintro ⟨d, hd, hle⟩
    obtain ⟨⟨j, ⟨hj, howns, hstate⟩, rfl⟩, -⟩ := nextDue_eq_some hd
    refine ⟨j, hj, ?_⟩
    rw [Key.isReady, howns, hstate]
    exact decide_eq_true hle
  · rintro ⟨j, hj, hready⟩
    simp only [Key.isReady, Bool.and_eq_true, decide_eq_true_eq] at hready
    have hwaiting : s.IsWaiting key j := ⟨hj, hready.1.1, hready.1.2⟩
    cases hd : s.nextDue key with
    | none => exact absurd hwaiting (nextDue_eq_none hd j)
    | some d => exact ⟨d, rfl, Instant.le_trans ((nextDue_eq_some hd).2 j hwaiting) hready.2⟩

theorem queriesAgree (s : MemoryStore) (key : Key) (now : Instant) :
    QueriesAgree s s.jobs key now where
  counts := rfl
  fetches limit := by
    refine ⟨_, areFirst_take ready_pairwise (fun _ => mem_ready) length_ready, .inl ⟨?_, rfl⟩⟩
    intro j hj
    obtain ⟨hmem, hready⟩ := mem_ready.1 (List.mem_of_mem_take hj)
    simp only [Key.isReady, Key.owns, Bool.and_eq_true] at hready
    show Except.ok ((s.find? j.id).filter (·.instanceType == key.instanceType)) = _
    rw [find?_eq_some.2 ⟨hmem, rfl⟩, Option.filter_some, if_pos hready.1.1.1]
  wakes := ⟨s.nextDue key, rfl, nextDue_le_iff⟩

end MemoryStore

/-! ## In a database -/

/-- A reading of the clock before the last instant, and not in a leap second. -/
structure Time.Instant.IsOrdinary (t : Instant) : Prop where
  notLeap : ¬t.IsLeap
  lt_last : t < last

theorem Time.Instant.IsOrdinary.le_last {t : Instant} (h : t.IsOrdinary) : t ≤ last :=
  (Instant.le_total t last).resolve_right fun hle => Instant.not_le.2 h.lt_last hle

/-- At an ordinary clock milliseconds compare like their instants. -/
theorem Time.Instant.ofMillis_le_iff {t : Instant} (h : t.IsOrdinary) (ms : Int) :
    ofMillis ms ≤ t ↔ ms ≤ t.toMillis := by
  have hnanos : t.nanos < nanosPerSecond := Nat.lt_of_not_le h.notLeap
  by_cases hlo : ms < minMillis
  · rw [ofMillis_of_lt hlo]
    exact iff_of_true (first_le t) (Int.le_trans (Int.le_of_lt hlo) t.minMillis_le_toMillis)
  · by_cases hhi : maxMillis < ms
    · rw [ofMillis_of_gt hhi, ← Decidable.not_iff_not, Instant.not_le]
      have := toMillis_le_maxMillis h.le_last
      exact iff_of_true h.lt_last (by omega)
    · have hin : InCalendar ms := ⟨by omega, by omega⟩
      obtain ⟨hs, hn⟩ := ofMillis_of_inCalendar hin
      rw [le_def, hs, hn, toMillis]
      simp only [nanosPerSecond] at hnanos
      omega

namespace Entry

variable {e f : Entry} {key : Key} {now : Instant} {type : String}

/-- An entry is read value by value. -/
theorem toJob_stored (e : Entry) (type : String) : e.stored.toJob type =
    (StoredJob.readValue e.stored.payload).bind fun p =>
      (StoredJob.readValue e.stored.result).map fun r =>
        { e.job type with payload := p, result := r } := by
  have hstate : State.ofName? e.stored.state = some e.state := State.ofName?_name e.state
  have hattributes : StoredJob.readAttributes e.stored.attributes = .ok e.attributes :=
    readAttributes_text e.attributes
  have hfailures : StoredJob.clampFailures e.stored.failureCount = e.failureCount :=
    clampFailures_toNat e.failureCount
  simp only [StoredJob.toJob, hstate, hattributes, hfailures]
  rfl

/-- The instance of an entry as it is read, or if it cannot be read as it was
    written. -/
def read (type : String) (e : Entry) : Job := (e.stored.toJob type).toOption.getD (e.job type)

/-- Reading concerns the values alone. -/
theorem read_eq (e : Entry) (type : String) :
    ∃ p r, e.read type = { e.job type with payload := p, result := r } := by
  rw [read, toJob_stored]
  cases StoredJob.readValue e.stored.payload with
  | error => exact ⟨e.payload, e.result, rfl⟩
  | ok p =>
    cases StoredJob.readValue e.stored.result with
    | error => exact ⟨e.payload, e.result, rfl⟩
    | ok r => exact ⟨p, r, rfl⟩

@[simp] theorem id_read : (e.read type).id = e.id := by
  obtain ⟨p, r, h⟩ := e.read_eq type
  rw [h]
  rfl

@[simp] theorem dueAt_read : (e.read type).dueAt = .ofMillis e.dueAt := by
  obtain ⟨p, r, h⟩ := e.read_eq type
  rw [h]
  rfl

/-- An instance is ready if its entry is. -/
theorem isReady_read (hnow : now.IsOrdinary) :
    key.isReady (e.read key.instanceType) now = e.isReady key now := by
  obtain ⟨p, r, h⟩ := e.read_eq key.instanceType
  have hdue : decide (Instant.ofMillis e.dueAt ≤ now) = decide (e.dueAt ≤ now.toMillis) :=
    decide_eq_decide.2 (Instant.ofMillis_le_iff hnow _)
  rw [h, isReady, isWaiting, ← hdue, Bool.and_comm (key.isReadyState e.state)]
  show ((key.instanceType == key.instanceType && _) && _ && _) = _
  rw [beq_self_eq_true, Bool.true_and]
  rfl

/-- Entries with due times in the calendar are read in their order. -/
theorem before_read (he : minMillis ≤ e.dueAt) (hf : InCalendar f.dueAt) (hle : e.le f = true)
    (hid : e.id ≠ f.id) : (e.read type).Before (f.read type) := by
  rw [Job.Before, dueAt_read, dueAt_read, id_read, id_read,
    Instant.ofMillis_lt_ofMillis_iff he hf]
  rcases le_iff.1 hle with hdue | ⟨hdue, hle⟩
  · exact .inl hdue
  · exact .inr ⟨congrArg _ hdue, by omega⟩

end Entry

namespace Entries

variable {s s' : Entries} {key : Key} {now : Instant} {type : String}

/-- The instances of a type in the table. -/
def held (s : Entries) (type : String) : List Job := s.list.map (Entry.read type)

/-- No due time is before the calendar. -/
def IsDated (s : Entries) : Prop := ∀ e ∈ s.list, minMillis ≤ e.dueAt

theorem isDated_empty : empty.IsDated := fun _ he => absurd he List.not_mem_nil

theorem countP_held (hnow : now.IsOrdinary) :
    (s.held key.instanceType).countP (key.isReady · now) =
      s.list.countP (Entry.isReady key now) := by
  rw [held, List.countP_map]
  exact List.countP_congr fun e _ => by rw [Function.comp_apply, Entry.isReady_read hnow]

/-- Ready entries are due within the calendar. -/
theorem inCalendar_of_mem_ready (h : s.IsDated) (hnow : now.IsOrdinary) {e : Entry}
    (he : e ∈ s.ready key now) : InCalendar e.dueAt := by
  obtain ⟨hmem, hready⟩ := mem_ready.1 he
  exact Entry.inCalendar_of_isReady (h e hmem) hnow.le_last hready

/-- The ready entries are read in strict order. -/
theorem pairwise_ready (h : s.IsDated) (hnow : now.IsOrdinary) :
    ((s.ready key now).map (Entry.read type)).Pairwise Job.Before := by
  have hsorted : (s.ready key now).Pairwise fun e f => e.le f = true :=
    List.pairwise_mergeSort Entry.le_trans Entry.le_total _
  have hids : (s.ready key now).Pairwise fun e f => e.id ≠ f.id :=
    List.pairwise_map.1 nodup_ids_ready
  rw [List.pairwise_map]
  refine (hsorted.and hids).imp_of_mem fun {e f} he hf hef => ?_
  exact Entry.before_read (inCalendar_of_mem_ready h hnow he).1
    (inCalendar_of_mem_ready h hnow hf) hef.1 hef.2

/-- The begin of the ready entries is that of the ready instances. -/
theorem areFirst_ready (h : s.IsDated) (hnow : now.IsOrdinary) (limit : Nat) :
    AreFirst (s.held key.instanceType) key now limit
      (((s.ready key now).take limit).map (Entry.read key.instanceType)) := by
  rw [List.map_take]
  refine areFirst_take (pairwise_ready h hnow) (fun j => ?_) ?_
  · rw [held, List.mem_map, List.mem_map]
    constructor
    · rintro ⟨e, he, rfl⟩
      obtain ⟨hmem, hready⟩ := mem_ready.1 he
      exact ⟨⟨e, hmem, rfl⟩, (Entry.isReady_read hnow).trans hready⟩
    · rintro ⟨⟨e, hmem, rfl⟩, hready⟩
      exact ⟨e, mem_ready.2 ⟨hmem, (Entry.isReady_read hnow).symm.trans hready⟩, rfl⟩
  · rw [List.length_map, length_ready, countP_held hnow]

end Entries

namespace Database

variable {s s' : Entries} {key : Key} {now : Instant}

/-- No call leaves a due time before the calendar. -/
theorem isDated_change (h : s.IsDated) {c : Call} {a : Except Error Answer}
    (hchange : Change s now c a s') : s'.IsDated := by
  have hupdate {p : Entry → Bool} {g : Entry → Entry} {keepsId : ∀ e, (g e).id = e.id}
      (hg : ∀ e, minMillis ≤ e.dueAt → minMillis ≤ (g e).dueAt) :
      (s.update p g keepsId).IsDated := by
    intro f hf
    obtain ⟨e, he, rfl⟩ := List.mem_map.1 hf
    split
    · exact hg e (h e he)
    · exact h e he
  cases hchange with
  | refused | read | lost => exact h
  | won | reset => exact hupdate fun _ he => he
  | committed =>
    refine hupdate fun e he => ?_
    rw [Entry.commit]
    rename_i t _ _ _
    cases t.dueAt with
    | none => exact he
    | some due => exact due.minMillis_le_dueMillis
  | inserted =>
    intro e he
    rcases List.mem_append.1 he with he | he
    · exact h e he
    · rw [List.mem_singleton.1 he]
      exact Instant.minMillis_le_dueMillis _

/-- Calls leave entries with due times in the calendar or after it. -/
theorem after_dated {cs : List (Instant × Call)} (h : s.IsDated)
    (hcs : ∀ x ∈ cs, x.2.HasUsualColumns) :
    ∃ s' : Entries, after s.database cs = s'.database ∧ s'.IsDated := by
  induction cs generalizing s with
  | nil => exact ⟨s, rfl, h⟩
  | cons x cs ih =>
    obtain ⟨hc, hcs⟩ := List.forall_mem_cons.1 hcs
    obtain ⟨s₁, h₁, hchange⟩ := step_change s x.1 hc
    obtain ⟨s₂, h₂, hdated⟩ := ih (isDated_change h hchange) hcs
    exact ⟨s₂, by rw [after_cons, h₁, h₂], hdated⟩

/-- A key for the table of job instances that passed its checks, and an ordinary
    clock. -/
structure Asks (key : Key) (now : Instant) : Prop where
  built : key.build = .ok key
  columns : key.UsualColumns
  table : isDefaultTable key.instanceType = true
  clock : now.IsOrdinary

theorem requireTableName_of_build {key' : Key} (h : key.build = .ok key') :
    requireTableName key.instanceType = .ok () := by
  by_cases hname : Text.IsBlank key.name
  · simp only [Key.build, hname, if_true] at h
    cases h
  · simp only [Key.build, hname, if_false] at h
    obtain ⟨_, htype, -⟩ := bind_eq_ok h
    rw [requireIdentifier] at htype
    split at htype
    case isTrue hid => rw [requireTableName, if_pos hid]
    case isFalse => cases htype

/-- The least due time has come if something is ready. -/
theorem least_le_iff (hnow : now.IsOrdinary) :
    (∃ d, ((s.list.filter (Entry.isWaiting key)).map (·.dueAt)).min?.map .ofMillis = some d ∧
      d ≤ now) ↔ 0 < s.list.countP (Entry.isReady key now) := by
  rw [List.countP_pos_iff]
  constructor
  · rintro ⟨d, hd, hle⟩
    obtain ⟨ms, hms, rfl⟩ := Option.map_eq_some_iff.1 hd
    obtain ⟨e, he, rfl⟩ := List.mem_map.1 (List.min?_eq_some_iff.1 hms).1
    obtain ⟨hmem, hwaiting⟩ := List.mem_filter.1 he
    refine ⟨e, hmem, ?_⟩
    rw [Entry.isReady, hwaiting]
    exact decide_eq_true ((Instant.ofMillis_le_iff hnow _).1 hle)
  · rintro ⟨e, hmem, hready⟩
    rw [Entry.isReady, Bool.and_eq_true, decide_eq_true_eq] at hready
    have he : e.dueAt ∈ (s.list.filter (Entry.isWaiting key)).map (·.dueAt) :=
      List.mem_map_of_mem (List.mem_filter.2 ⟨hmem, hready.1⟩)
    cases hms : ((s.list.filter (Entry.isWaiting key)).map (·.dueAt)).min? with
    | none => rw [List.min?_eq_none_iff.1 hms] at he; cases he
    | some ms =>
      have hle := (List.min?_eq_some_iff.1 hms).2 _ he
      exact ⟨_, rfl, (Instant.ofMillis_le_iff hnow _).2 (Int.le_trans hle hready.2)⟩

theorem queriesAgree (h : s.IsDated) (hask : Asks key now) :
    QueriesAgree s.database (s.held key.instanceType) key now where
  counts := by
    rw [Entries.countP_held hask.clock]
    exact countReady_database hask.columns hask.table
  fetches limit := by
    refine ⟨_, Entries.areFirst_ready h hask.clock limit, ?_⟩
    have hfetch : JobStore.fetchReady s.database key now limit =
        ((s.ready key now).take limit).mapM fun e => e.stored.toJob key.instanceType :=
      fetchReady_stored hask.columns hask.table
    have hget : ∀ e ∈ (s.ready key now).take limit,
        JobStore.get s.database key.instanceType (e.read key.instanceType).id =
          (e.stored.toJob key.instanceType).map some := by
      intro e he
      have hmem := (Entries.mem_ready.1 (List.mem_of_mem_take he)).1
      rw [show JobStore.get s.database key.instanceType _ = _ from get_stored hask.table,
        requireTableName_of_build hask.built, Entry.id_read, Entries.find?_eq_some.2 ⟨hmem, rfl⟩]
      rfl
    obtain ⟨js, hjs⟩ | ⟨e, he, error, hread, herror⟩ := mapM_answers
      ((s.ready key now).take limit) fun e => e.stored.toJob key.instanceType
    · have hok : ∀ e ∈ (s.ready key now).take limit,
          e.stored.toJob key.instanceType = .ok (e.read key.instanceType) := by
        intro e he
        obtain ⟨j, hj⟩ := (mem_of_mapM hjs).2 e he
        rw [Entry.read, hj]
        rfl
      refine .inl ⟨fun j hj => ?_, hfetch.trans (mapM_eq_ok hok)⟩
      obtain ⟨e, he, rfl⟩ := List.mem_map.1 hj
      rw [hget e he, hok e he]
      rfl
    · refine .inr ⟨e.read key.instanceType, List.mem_map_of_mem he, error, ?_,
        hfetch.trans herror⟩
      rw [hget e he, hread]
      rfl
  wakes := by
    refine ⟨_, nextDue_database hask.columns hask.table, ?_⟩
    rw [Entries.countP_held hask.clock]
    exact least_le_iff hask.clock

/-- Without the table of a key none of the queries is answered. -/
theorem unanswered (h : ¬isDefaultTable key.instanceType = true) (limit : Nat) : ∃ e,
    JobStore.countReady s.database key now = .error e ∧
    JobStore.fetchReady s.database key now limit = .error e ∧
    JobStore.nextDue s.database key = .error e := by
  refine ⟨.query (.refused (some "1") ("no such table: " ++ key.instanceType)), ?_, ?_, ?_⟩
  · show countReady _ _ _ = _
    rw [countReady, table_database_of_not h]
    rfl
  · show fetchReady _ _ _ _ = _
    rw [fetchReady, table_database_of_not h]
    rfl
  · show nextDue _ _ = _
    rw [nextDue, table_database_of_not h]
    rfl

end Database

/-! ## Both stores -/

/-- Count, fetch and next due time agree: in memory, whatever it holds, and in a
    database after whatever calls with keys that name the columns.  Partitions
    that are disjoint share no instance. -/
theorem queries_agree (s : MemoryStore) (cs : List (Instant × Call))
    (hcs : ∀ x ∈ cs, x.2.HasUsualColumns) :
    Consistent s (fun _ => s.jobs) (fun _ _ => True) ∧
    ∃ t : Entries, after Database.migrated cs = t.database ∧
      Consistent t.database t.held Database.Asks ∧
      ∀ key now limit, ¬isDefaultTable key.instanceType = true → ∃ e,
        JobStore.countReady t.database key now = .error e ∧
        JobStore.fetchReady t.database key now limit = .error e ∧
        JobStore.nextDue t.database key = .error e := by
  refine ⟨consistent_of_agree fun key now _ => s.queriesAgree key now, ?_⟩
  obtain ⟨t, ht, hdated⟩ := Database.after_dated Entries.isDated_empty hcs
  exact ⟨t, ht, consistent_of_agree fun key now hask => Database.queriesAgree hdated hask,
    fun key now limit h => Database.unanswered h limit⟩

/-- A job that is due at once, and one that is due at the end of time. -/
def dueAndLater : List (Instant × Call) :=
  [(.epoch, .insert { jobRef := "due", dueAt := .epoch }),
    (.epoch, .insert { jobRef := "later", dueAt := .last })]

theorem asks_all : Database.Asks { name := "all" } .epoch where
  built := by decide +kernel
  columns := ⟨rfl, rfl, rfl⟩
  table := Database.isDefaultTable_default
  clock := ⟨by decide, by decide⟩

/-- One of them is counted, and fetched if it is asked for. -/
theorem queries_agree_on_a_due_job :
    (∀ x ∈ dueAndLater, x.2.HasUsualColumns) ∧ Database.Asks { name := "all" } .epoch ∧
    JobStore.countReady (after Database.migrated dueAndLater) { name := "all" } .epoch = .ok 1 ∧
    ∃ js, JobStore.fetchReady (after Database.migrated dueAndLater) { name := "all" } .epoch 10 =
      .ok js ∧ js.length = 1 := by
  have hcs : ∀ x ∈ dueAndLater, x.2.HasUsualColumns := by
    simp only [dueAndLater, List.forall_mem_cons]
    exact ⟨nofun, nofun, List.forall_mem_nil _⟩
  have hcount : JobStore.countReady (after Database.migrated dueAndLater) { name := "all" } .epoch =
      .ok 1 := by
    decide +kernel
  obtain ⟨-, s, hs, hconsistent, -⟩ := queries_agree .empty dueAndLater hcs
  have hfetched : (JobStore.fetchReady (after Database.migrated dueAndLater) { name := "all" }
      .epoch 10).isOk = true := by
    decide +kernel
  refine ⟨hcs, asks_all, hcount, ?_⟩
  have hagree := hconsistent.agree _ _ asks_all
  obtain ⟨js, hfirst, ⟨-, hjs⟩ | ⟨j, -, e, -, he⟩⟩ := hagree.fetches 10
  · have hone := hagree.counts
    rw [← hs, hcount] at hone
    rw [hs]
    exact ⟨js, hjs, by rw [hfirst.length, ← Except.ok.inj hone]; rfl⟩
  · rw [hs, he] at hfetched
    cases hfetched

/-- A job that nests deeper than the reader goes. -/
def deepAlone : List (Instant × Call) := [(.epoch, .insert Database.deepJob)]

/-- It is stored and counted, and cannot be fetched. -/
theorem deep_job_is_counted_and_not_fetched :
    (∀ x ∈ deepAlone, x.2.HasUsualColumns) ∧ Database.Asks { name := "all" } .epoch ∧
    (run Database.migrated deepAlone).1 = [.ok (.inserted 1)] ∧
    JobStore.countReady (after Database.migrated deepAlone) { name := "all" } .epoch = .ok 1 ∧
    ∃ text, JobStore.fetchReady (after Database.migrated deepAlone) { name := "all" } .epoch 10 =
      .error (.serialization text) := by
  have hcs : ∀ x ∈ deepAlone, x.2.HasUsualColumns := by
    simp only [deepAlone, List.forall_mem_cons]
    exact ⟨nofun, List.forall_mem_nil _⟩
  have hexact : ∀ j, Database.deepJob.payload = some j → j.IsExact := by
    rintro j ⟨⟩
    exact ⟨128, by decide +kernel⟩
  have hdeep : ¬(Contents.ofNew Database.deepJob).IsReadable := fun hread =>
    absurd (hread.payload _ rfl) (by decide +kernel)
  let stored := Entries.empty.append Database.deepJob .epoch
  have hafter : after Database.migrated deepAlone = stored.database := by
    rw [deepAlone, after_cons, ← Entries.database_empty, Database.step_insert rfl (by decide)]
    rfl
  have hcount : JobStore.countReady (after Database.migrated deepAlone) { name := "all" } .epoch =
      .ok 1 := by
    decide +kernel
  refine ⟨hcs, asks_all, by decide +kernel, hcount, ?_⟩
  rw [hafter] at hcount ⊢
  exact (Database.reads_back (Entries.Holds.empty.append hexact)).blocked _ _ 10 1 _ _ 1
    asks_all.columns asks_all.table rfl hdeep (Database.standing?_of_find? rfl rfl) rfl
    (show (0 : Int) ≤ 0 by decide) hcount (by decide)

end DueWork

/-
  What a database answers about its entries.

  An entry whose values nest no deeper than the reader goes is read back as
  it was written, times in milliseconds (`Entry.stored_toJob`).  Counting,
  fetching and the next due time look at the entries that wait; those that are
  ready, in the order of a fetch, are `Entries.ready`.
-/
import DueWork.Proofs.Store.Statements

namespace DueWork

open Time Store

/-- A value, if any, that is read back from its text. -/
def Json.IsReadable (o : Option Json) : Prop := ∀ j, o = some j → j.fits maxDepth = true

namespace Entry

/-- The fields of an entry as they stand in its row. -/
def stored (e : Entry) : StoredJob where
  id := e.id
  jobRef := e.jobRef
  dueAt := e.dueAt
  state := e.state.name
  attributes := e.attributes.toJson.text
  payload := e.payload.map Json.text
  result := e.result.map Json.text
  failureCount := e.failureCount.toNat
  lastError := e.lastError
  claimedAt := e.claimedAt
  createdAt := e.createdAt

/-- The entry as a job instance of a type. -/
def job (type : String) (e : Entry) : Job where
  id := e.id
  instanceType := type
  jobRef := e.jobRef
  dueAt := .ofMillis e.dueAt
  state := e.state
  attributes := e.attributes
  payload := e.payload
  result := e.result
  failureCount := e.failureCount
  lastError := e.lastError
  claimedAt := e.claimedAt.map .ofMillis
  createdAt := .ofMillis e.createdAt

/-- The values of the entry can be read back. -/
structure IsReadable (e : Entry) : Prop where
  payload : Json.IsReadable e.payload
  result : Json.IsReadable e.result

/-- Entries are fetched by due time, then by id. -/
def le (e f : Entry) : Bool := if e.dueAt = f.dueAt then e.id ≤ f.id else e.dueAt ≤ f.dueAt

theorem le_iff {e f : Entry} : e.le f = true ↔ e.dueAt < f.dueAt ∨ e.dueAt = f.dueAt ∧ e.id ≤ f.id := by
  rw [le]
  split
  case isTrue hdue => simp [hdue]
  case isFalse hdue =>
    rw [decide_eq_true_eq]
    omega

theorem le_trans (a b c : Entry) (hab : a.le b = true) (hbc : b.le c = true) : a.le c = true := by
  rw [le_iff] at *
  omega

theorem le_total (a b : Entry) : (a.le b || b.le a) = true := by
  rw [Bool.or_eq_true, le_iff, le_iff]
  omega

theorem row_text? {e : Entry} {c : Column} {o : Option String} (h : e.row c = .ofText o) :
    e.row.text? c = .ok o := by
  rw [Row.text?, Row.text, h]
  cases o <;> rfl

theorem row_int? {e : Entry} {c : Column} {o : Option Int} (h : e.row c = .ofInt o) :
    e.row.int? c = .ok o := by
  rw [Row.int?, Row.int, h]
  cases o <;> rfl

theorem stored_row (e : Entry) : e.row.stored .id .dueAt .state = .ok e.stored := by
  rw [Row.stored]
  simp only [row_text? (e := e) (c := .payload) rfl, row_text? (e := e) (c := .result) rfl,
    row_text? (e := e) (c := .lastError) rfl, row_int? (e := e) (c := .claimedAt) rfl]
  rfl

theorem readValue_text {o : Option Json} (h : Json.IsReadable o) :
    StoredJob.readValue (o.map Json.text) = .ok o := by
  cases o with
  | none => rfl
  | some j => rw [Option.map_some, StoredJob.readValue, Json.parse?_text (h j rfl)]

theorem clampFailures_toNat (n : UInt32) : StoredJob.clampFailures n.toNat = n := by
  have hle : n.toNat ≤ Nat.pow 2 32 - 1 := Nat.le_pred_of_lt n.toNat_lt
  rw [StoredJob.clampFailures, Int.toNat_natCast, Nat.min_eq_left hle, UInt32.ofNat_toNat]

/-- A row is read back as the job instance that was written. -/
theorem stored_toJob {e : Entry} (h : e.IsReadable) (type : String) :
    e.stored.toJob type = .ok (e.job type) := by
  have hstate : State.ofName? e.stored.state = some e.state := State.ofName?_name e.state
  have hattributes : StoredJob.readAttributes e.stored.attributes = .ok e.attributes :=
    readAttributes_text e.attributes
  have hpayload : StoredJob.readValue e.stored.payload = .ok e.payload := readValue_text h.payload
  have hresult : StoredJob.readValue e.stored.result = .ok e.result := readValue_text h.result
  have hfailures : StoredJob.clampFailures e.stored.failureCount = e.failureCount :=
    clampFailures_toNat e.failureCount
  simp only [StoredJob.toJob, hstate, hattributes, hpayload, hresult, hfailures]
  rfl

end Entry

namespace Entries

variable {s : Entries} {k : Key} {now : Instant}

/-- The ready entries in the order of a fetch. -/
def ready (s : Entries) (k : Key) (now : Instant) : List Entry :=
  (s.list.filter (Entry.isReady k now)).mergeSort Entry.le

theorem mem_ready {e : Entry} : e ∈ s.ready k now ↔ e ∈ s.list ∧ e.isReady k now = true := by
  rw [ready, List.mem_mergeSort, List.mem_filter]

theorem length_ready : (s.ready k now).length = s.list.countP (Entry.isReady k now) := by
  rw [ready, List.length_mergeSort, List.countP_eq_length_filter]

/-- The ready entries have different ids. -/
theorem nodup_ids_ready : ((s.ready k now).map (·.id)).Nodup := by
  rw [ready, ((List.mergeSort_perm ..).map _).nodup_iff, List.Nodup, List.pairwise_map]
  exact (s.sorted.filter _).imp fun h => Int.ne_of_lt h

end Entries

namespace Database

variable {s : Entries} {k : Key} {now : Instant}

/-! ## Queries -/

theorem readyRows_ofEntries (hk : k.UsualColumns) :
    readyRows (.ofEntries s.list s.lastId) k now =
      .ok ((s.list.filter (Entry.isReady k now)).map Entry.row) := by
  rw [readyRows, hk.state, hk.due, column_state, column_due]
  refine select_ofEntries fun e _ => ?_
  rw [holding_row, inStates_row, Entry.isReady, Entry.isWaiting, Bool.and_right_comm]
  rfl

theorem countReady_database (hk : k.UsualColumns) (h : isDefaultTable k.instanceType = true) :
    s.database.countReady k now = .ok (s.list.countP (Entry.isReady k now)) := by
  rw [countReady, table_database h]
  show (do return (← readyRows _ _ _).length) = _
  rw [readyRows_ofEntries hk, List.countP_eq_length_filter]
  simp [bind, Except.bind, pure, Except.pure]

theorem rowLe_row (e f : Entry) : rowLe .dueAt .id e.row f.row = e.le f := by
  simp only [rowLe, Entry.le, Entry.row, Cell.int.injEq]
  split <;> rfl

/-- A fetch reads the first ready entries by due time and id. -/
theorem fetchReady_stored {limit : Nat} (hk : k.UsualColumns)
    (h : isDefaultTable k.instanceType = true) :
    s.database.fetchReady k now limit =
      ((s.ready k now).take limit).mapM fun e => e.stored.toJob k.instanceType := by
  rw [fetchReady, table_database h, hk.id, hk.due, hk.state, Entries.ready]
  simp only [bind, Except.bind, column_id, column_due, column_state]
  split
  case isTrue hzero =>
    rw [hzero]
    rfl
  case isFalse =>
    rw [readyRows_ofEntries hk]
    generalize s.list.filter (Entry.isReady k now) = ready
    have hsort : (ready.map Entry.row).mergeSort (rowLe .dueAt .id) =
        (ready.mergeSort Entry.le).map Entry.row :=
      (List.map_mergeSort fun e _ f _ => (rowLe_row e f).symm).symm
    have hstored : (((ready.mergeSort Entry.le).map Entry.row).take limit).mapM
        (fun r => r.stored .id .dueAt .state) =
          .ok (((ready.mergeSort Entry.le).take limit).map Entry.stored) := by
      rw [← List.map_take, List.mapM_map]
      exact mapM_eq_ok fun e _ => e.stored_row
    simp only [hsort, hstored]
    exact List.mapM_map

/-- Entries that can be read are fetched as they are. -/
theorem fetchReady_database {limit : Nat} (hk : k.UsualColumns)
    (h : isDefaultTable k.instanceType = true) (hread : ∀ e ∈ s.list, e.IsReadable) :
    s.database.fetchReady k now limit =
      .ok (((s.ready k now).take limit).map (Entry.job k.instanceType)) := by
  rw [fetchReady_stored hk h]
  refine mapM_eq_ok fun e he => Entry.stored_toJob (hread e ?_) _
  exact (Entries.mem_ready.1 (List.mem_of_mem_take he)).1

theorem leastDue_rows (es : List Entry) :
    leastDue .dueAt (es.map Entry.row) = .ok ((es.map (·.dueAt)).min?.map .ofMillis) := by
  have htimes : es.filterMap (fun e => some e.dueAt) = es.map (·.dueAt) :=
    congrFun List.filterMap_eq_map es
  simp only [leastDue, List.filterMap_map, Function.comp_def, Entry.row, htimes]
  cases es with
  | nil => rfl
  | cons e es =>
    rw [List.map_cons, List.min?_cons']
    rfl

theorem nextDue_database (hk : k.UsualColumns) (h : isDefaultTable k.instanceType = true) :
    s.database.nextDue k =
      .ok (((s.list.filter (Entry.isWaiting k)).map (·.dueAt)).min?.map .ofMillis) := by
  have hsel : ∀ e ∈ s.list, holding k (inStates .state k.readyStates) e.row =
      .ok (Entry.isWaiting k e) := by
    intro e _
    rw [holding_row, inStates_row]
    rfl
  rw [nextDue, table_database h, hk.due, hk.state]
  simp only [bind, Except.bind, column_due, column_state]
  rw [select_ofEntries hsel]
  exact leastDue_rows _

theorem namedColumn_ofEntries (es : List Entry) (n : Int) {name : String} {c : Column}
    (h : Column.all.find? (fun c => decide (c.defaultName = name)) = some c) :
    namedColumn (.ofEntries es n) name = .ok c := by
  rw [namedColumn]
  simp only [Table.columnName_ofEntries, h]

theorem namedColumn_id (es : List Entry) (n : Int) :
    namedColumn (.ofEntries es n) "id" = .ok .id :=
  namedColumn_ofEntries es n (by decide +kernel)

theorem namedColumn_due (es : List Entry) (n : Int) :
    namedColumn (.ofEntries es n) "due_at" = .ok .dueAt :=
  namedColumn_ofEntries es n (by decide +kernel)

theorem namedColumn_state (es : List Entry) (n : Int) :
    namedColumn (.ofEntries es n) "state" = .ok .state :=
  namedColumn_ofEntries es n (by decide +kernel)

/-- One instance is looked up in its row. -/
theorem get_stored {type : String} {id : Int} (h : isDefaultTable type = true) :
    s.database.get type id = (requireTableName type).bind fun _ =>
      match s.find? id with
      | none => .ok none
      | some e => (e.stored.toJob type).map some := by
  rw [get]
  cases requireTableName type with
  | error e => rfl
  | ok u =>
    rw [table_database h]
    simp only [bind, Except.bind, column_id, find?_rows]
    cases s.find? id with
    | none => rfl
    | some e =>
      simp only [Option.map_some, namedColumn_id, namedColumn_due, namedColumn_state,
        Entry.stored_row]
      rfl

/-- And an entry that can be read is found as it is. -/
theorem get_database {type : String} {id : Int} (h : isDefaultTable type = true)
    (hread : ∀ e ∈ s.list, e.IsReadable) :
    s.database.get type id = (requireTableName type).map fun _ =>
      (s.find? id).map (Entry.job type) := by
  rw [get_stored h]
  cases requireTableName type with
  | error e => rfl
  | ok u =>
    cases hf : s.find? id with
    | none => rfl
    | some e =>
      have he := hread e (Entries.find?_eq_some.1 hf).1
      simp only [Except.bind, Entry.stored_toJob he]
      rfl

end Database

end DueWork

/-
  The statements of a database as operations on entries.

  `Entries` are entries in the order of their ids, and `Entries.database` is
  the database of the migration with them in its table.  For keys with the
  usual column names, one equation for each statement says what it answers
  there and which entries it leaves.

  * a claim, a commit and a reset change entries in place (`claim_database`,
    `commit_database`, `resetStale_database`);
  * an insert adds an entry at the end (`insert_database`).
-/
import DueWork.Proofs.Store.ById
import DueWork.Proofs.Store.Entry
import DueWork.Store.Call

namespace DueWork

open Time Store

/-- The columns of a key go by the names that a table has for them. -/
structure Key.UsualColumns (k : Key) : Prop where
  id : k.idAttribute = "id"
  due : k.scheduleAttribute = "due_at"
  state : k.stateAttribute = "state"

/-- The name of a table is that of the table of job instances. -/
def Store.isDefaultTable (name : String) : Bool := Table.sameName defaultInstanceType name

/-- Entries in the order of their ids, as the table of job instances keeps
    them. -/
structure Entries where
  list : List Entry
  /-- the largest id ever used -/
  lastId : Int
  sorted : list.Pairwise fun e f => e.id < f.id
  id_le : ∀ e ∈ list, e.id ≤ lastId

namespace Entries

/-- No entries. -/
def empty : Entries := ⟨[], 0, .nil, by simp⟩

/-- The database with these entries. -/
def database (s : Entries) : Database := ⟨[.ofEntries s.list s.lastId]⟩

/-- The entry with this id. -/
def find? (s : Entries) (id : Int) : Option Entry := s.list.find? (·.id == id)

/-- Change the entries that a condition selects; their ids stay. -/
def update (s : Entries) (p : Entry → Bool) (g : Entry → Entry) (keepsId : ∀ e, (g e).id = e.id) :
    Entries where
  list := s.list.map fun e => if p e then g e else e
  lastId := s.lastId
  sorted := by
    rw [List.pairwise_map]
    refine s.sorted.imp fun {e f} h => ?_
    split <;> split <;> simpa only [keepsId] using h
  id_le := by
    intro f hf
    obtain ⟨e, he, rfl⟩ := List.mem_map.1 hf
    split
    · rw [keepsId]; exact s.id_le e he
    · exact s.id_le e he

/-- Add an entry under the next id. -/
def append (s : Entries) (job : NewJob) (now : Instant) : Entries where
  list := s.list ++ [.ofNew job (s.lastId + 1) now]
  lastId := s.lastId + 1
  sorted := by
    rw [List.pairwise_append]
    refine ⟨s.sorted, by simp, fun e he f hf => ?_⟩
    rw [List.mem_singleton.1 hf]
    exact Int.lt_add_one_of_le (s.id_le e he)
  id_le := by
    intro e he
    rcases List.mem_append.1 he with he | he
    · exact Int.le_add_one (s.id_le e he)
    · rw [List.mem_singleton.1 he]
      exact Int.le_refl _

theorem database_empty : empty.database = Database.migrated := rfl

theorem find?_eq_some {s : Entries} {id : Int} {e : Entry} :
    s.find? id = some e ↔ e ∈ s.list ∧ e.id = id := find?_key_eq_some s.sorted

/-- An entry may be claimed if the one with the id is in the expected state and
    matches. -/
theorem any_isClaimable (s : Entries) (k : Key) (id : Int) (expected : State) :
    s.list.any (Entry.isClaimable k id expected) =
      (s.find? id).any fun e => e.state == expected && k.predicate.accepts e.attributes := by
  rw [find?, ← any_key s.sorted]
  exact List.any_congr rfl fun e => Bool.and_assoc ..

theorem find?_update {s : Entries} {p : Entry → Bool} {g : Entry → Entry}
    {keepsId : ∀ e, (g e).id = e.id} {id : Int} :
    (s.update p g keepsId).find? id = (s.find? id).map fun e => if p e then g e else e :=
  find?_map_key fun e => by
    split
    · exact keepsId e
    · rfl

/-- The next id is not in use. -/
theorem find?_of_lastId_lt {s : Entries} {id : Int} (h : s.lastId < id) : s.find? id = none :=
  find?_key_of_lt fun e he => Int.lt_of_le_of_lt (s.id_le e he) h

theorem find?_append {s : Entries} {job : NewJob} {now : Instant} {id : Int} :
    (s.append job now).find? id =
      if id = s.lastId + 1 then some (.ofNew job (s.lastId + 1) now) else s.find? id :=
  find?_concat_key fun e he => Int.lt_add_one_of_le (s.id_le e he)

/-- A new entry leaves what is found alone. -/
theorem find?_append_of_some {s : Entries} {job : NewJob} {now : Instant} {id : Int} {e : Entry}
    (h : s.find? id = some e) : (s.append job now).find? id = some e := by
  obtain ⟨hmem, rfl⟩ := find?_eq_some.1 h
  have := s.id_le e hmem
  rw [find?_append, if_neg (by omega), h]

/-- A change that no entry is selected for changes nothing. -/
theorem update_of_none {s : Entries} {p : Entry → Bool} {g : Entry → Entry}
    {keepsId : ∀ e, (g e).id = e.id} (h : s.list.any p = false) : s.update p g keepsId = s := by
  have hmap : (s.list.map fun e => if p e then g e else e) = s.list := by
    rw [List.any_eq_false] at h
    exact (List.map_congr_left fun e he => if_neg (h e he)).trans (List.map_id _)
  cases s
  simp only [update, mk.injEq, and_true]
  exact hmap

end Entries

namespace Database

variable {s s' : Entries} {k : Key} {now : Instant}

/-! ## Tables and columns -/

theorem table?_database (s : Entries) (name : String) : s.database.table? name =
    if isDefaultTable name then some (.ofEntries s.list s.lastId) else none := by
  show [Table.ofEntries s.list s.lastId].find? (fun _ => isDefaultTable name) = _
  cases isDefaultTable name <;> rfl

theorem table_database {name : String} (h : isDefaultTable name = true) :
    s.database.table name = .ok (.ofEntries s.list s.lastId) := by
  rw [table, table?_database, if_pos h]

theorem table_database_of_not {name : String} (h : ¬isDefaultTable name = true) :
    s.database.table name = refusal ("no such table: " ++ name) := by
  rw [table, table?_database, if_neg h]

theorem isDefaultTable_default : isDefaultTable defaultInstanceType = true := by
  decide +kernel

/-- A column is found by its default name, in capitals or not. -/
theorem column_ofEntries (es : List Entry) (n : Int) {name : String} {c : Column}
    (h : Column.all.find? (fun c => Table.sameName c.defaultName name) = some c) :
    (Table.ofEntries es n).column name = .ok c := by
  rw [Table.column, Table.column?]
  simp only [Table.columnName_ofEntries, h]

theorem column_id (es : List Entry) (n : Int) : (Table.ofEntries es n).column "id" = .ok .id :=
  column_ofEntries es n (by decide +kernel)

theorem column_due (es : List Entry) (n : Int) :
    (Table.ofEntries es n).column "due_at" = .ok .dueAt :=
  column_ofEntries es n (by decide +kernel)

theorem column_state (es : List Entry) (n : Int) :
    (Table.ofEntries es n).column "state" = .ok .state :=
  column_ofEntries es n (by decide +kernel)

theorem replace_database (s s' : Entries) :
    s.database.replace (.ofEntries s'.list s'.lastId) = s'.database := by
  have : (Table.ofEntries s.list s.lastId).name = (Table.ofEntries s'.list s'.lastId).name := rfl
  simp [replace, Entries.database, this]

/-! ## Conditions on the row of an entry -/

theorem row_id_beq (e : Entry) (id : Int) : (e.row .id == .int id) = (e.id == id) := by
  simp [Entry.row, beq_eq_decide]

theorem row_state_beq (e : Entry) (t : State) :
    (e.row .state == .text t.name) = (e.state == t) := by
  simp [Entry.row, beq_eq_decide, State.name_inj]

theorem holding_row (cond : Row → Bool) (e : Entry) :
    holding k cond e.row = .ok (cond e.row && k.predicate.accepts e.attributes) := by
  rw [holding, satisfies_attributes rfl]
  cases cond e.row <;> rfl

theorem inStates_row (e : Entry) :
    inStates .state k.readyStates e.row = k.isReadyState e.state := by
  simp only [inStates, row_state_beq, Key.readyStates, Key.isReadyState]
  split
  case isTrue h => simp [h]
  case isFalse => simp

theorem claimedBefore_row (cutoff : Instant) (e : Entry) :
    claimedBefore cutoff e.row = match e.claimedAt with
      | none => true
      | some claimed => decide (claimed < cutoff.toMillis) := by
  rw [claimedBefore, Entry.row]
  cases e.claimedAt <;> rfl

/-! ## Changes of the row of an entry -/

theorem alter_claim (e : Entry) :
    e.row.alter [(.updatedAt, fun _ => .int now.toMillis), (.claimedAt, fun _ => .int now.toMillis),
      (.state, fun _ => .text State.running.name)] = (e.claim now).row := by
  funext c
  cases c <;> rfl

theorem alter_unclaim (e : Entry) :
    e.row.alter [(.updatedAt, fun _ => .int now.toMillis), (.claimedAt, fun _ => .null),
      (.state, fun _ => .text State.deferred.name)] = (e.unclaim now).row := by
  funext c
  cases c <;> rfl

theorem alter_commit (t : Transition) (e : Entry) :
    e.row.alter [(.updatedAt, fun _ => .int now.toMillis), (.claimedAt, fun _ => .null),
      (.lastError, coalesce .lastError (t.lastError.map .text)),
      (.failureCount, coalesce .failureCount (t.failureCount.map fun n => .int n.toNat)),
      (.result, coalesce .result (t.result.map fun j => .text j.text)),
      (.dueAt, coalesce .dueAt (t.dueAt.map fun t => .int t.dueMillis)),
      (.state, fun _ => .text t.state.name)] = (e.commit t now).row := by
  funext c
  cases c
  case lastError =>
    show Column.coerce .lastError ((t.lastError.map Cell.text).getD (.ofText e.lastError)) =
      .ofText (t.lastError.or e.lastError)
    cases t.lastError <;> cases e.lastError <;> rfl
  case failureCount =>
    show Column.coerce .failureCount
        ((t.failureCount.map fun n => Cell.int n.toNat).getD (.int e.failureCount.toNat)) =
      .int (t.failureCount.getD e.failureCount).toNat
    cases t.failureCount <;> rfl
  case result =>
    show Column.coerce .result
        ((t.result.map fun j => Cell.text j.text).getD (.ofText (e.result.map Json.text))) =
      .ofText ((t.result.or e.result).map Json.text)
    cases t.result <;> cases e.result <;> rfl
  case dueAt =>
    show Column.coerce .dueAt
        ((t.dueAt.map fun t => Cell.int t.dueMillis).getD (.int e.dueAt)) =
      .int ((t.dueAt.map Instant.dueMillis).getD e.dueAt)
    cases t.dueAt <;> rfl
  all_goals rfl

/-! ## Statements -/

/-- A statement that is answered was not refused. -/
theorem execute_ok {α : Type} {d d' : Database} {a : α} {statement : Except Error (α × Database)}
    (h : d.execute statement = (.ok a, d')) : statement = .ok (a, d') := by
  cases statement with
  | error e => cases h
  | ok x =>
    cases h
    rfl

/-- A statement that is refused changes nothing. -/
theorem execute_error {α : Type} {d d' : Database} {e : Error}
    {statement : Except Error (α × Database)} (h : d.execute statement = (.error e, d')) :
    statement = .error e ∧ d' = d := by
  cases statement with
  | error e =>
    cases h
    exact ⟨rfl, rfl⟩
  | ok x => cases h

/-- A claim is won if an entry of this id is in the expected state and matches. -/
theorem claim_database {id : Int} {expected : State} (hk : k.UsualColumns)
    (h : isDefaultTable k.instanceType = true) : JobStore.claim s.database k id expected now =
      match requireClaimable id expected with
      | .error e => (.error e, s.database)
      | .ok _ => (.ok (s.list.any (Entry.isClaimable k id expected)),
          (s.update (Entry.isClaimable k id expected) (Entry.claim now)
            (Entry.id_claim now)).database) := by
  show s.database.execute (s.database.claim k id expected now) = _
  rw [claim]
  cases requireClaimable id expected with
  | error e => rfl
  | ok u =>
    have hsel : ∀ e ∈ s.list, holding k
        (fun r => r .id == .int id && r .state == .text expected.name) e.row =
          .ok (Entry.isClaimable k id expected e) := by
      intro e _
      rw [holding_row, row_id_beq, row_state_beq]
      rfl
    have hone : (s.list.countP (Entry.isClaimable k id expected) == 1) =
        s.list.any (Entry.isClaimable k id expected) := by
      exact countP_beq_one s.sorted fun e he => (Entry.isClaimable_iff.1 he).1
    rw [table_database h, hk.id, hk.state]
    simp only [bind, Except.bind, column_id, column_state]
    rw [update_ofEntries hsel alter_claim]
    simp only [hone]
    rw [← replace_database s]
    rfl

/-- A reset defers what is stale. -/
theorem resetStale_database {cutoff : Instant} (hk : k.UsualColumns)
    (h : isDefaultTable k.instanceType = true) :
    JobStore.resetStale s.database k cutoff now = (.ok (s.list.countP (Entry.isStale k cutoff)),
      (s.update (Entry.isStale k cutoff) (Entry.unclaim now) (Entry.id_unclaim now)).database) := by
  have hsel : ∀ e ∈ s.list, holding k
      (fun r => r .state == .text State.running.name && claimedBefore cutoff r) e.row =
        .ok (Entry.isStale k cutoff e) := by
    intro e _
    rw [holding_row, row_state_beq, claimedBefore_row]
    rfl
  show s.database.execute (s.database.resetStale k cutoff now) = _
  rw [resetStale, table_database h, hk.state]
  simp only [bind, Except.bind, column_state]
  rw [update_ofEntries hsel alter_unclaim, ← replace_database s]
  rfl

theorem find?_rows (id : Int) :
    (Table.ofEntries s.list s.lastId).rows.find? (fun r => r .id == .int id) =
      (s.find? id).map Entry.row := by
  show (s.list.map Entry.row).find? _ = _
  have hid : (fun r : Row => r .id == .int id) ∘ Entry.row = (·.id == id) :=
    funext fun e => row_id_beq e id
  rw [List.find?_map, hid]
  rfl

theorem currentState_database {id : Int} (hk : k.UsualColumns)
    (h : isDefaultTable k.instanceType = true) :
    s.database.currentState k id = .ok ((s.find? id).map (·.state)) := by
  rw [currentState, table_database h, hk.id, hk.state]
  simp only [bind, Except.bind, column_id, column_state, find?_rows]
  cases s.find? id with
  | none => rfl
  | some e =>
    have : e.row.text .state = .ok e.state.name := rfl
    simp only [Option.map_some, this, State.ofName?_name]
    rfl

/-- An outcome is written to the running entry with its id. -/
theorem writeOutcome_database {id : Int} {t : Transition} (hk : k.UsualColumns)
    (h : isDefaultTable k.instanceType = true) :
    s.database.writeOutcome k id t now = (requireOutcome t).map fun _ =>
      (s.list.countP (Entry.isRunning id),
        (s.update (Entry.isRunning id) (Entry.commit t now) (Entry.id_commit t now)).database) := by
  rw [writeOutcome]
  cases requireOutcome t with
  | error e => rfl
  | ok u =>
    have hsel : ∀ e ∈ s.list, (fun r : Row => (Except.ok
        (r .id == .int id && r .state == .text State.running.name) : Except Error Bool)) e.row =
          .ok (Entry.isRunning id e) := by
      intro e _
      show Except.ok (e.row .id == _ && e.row .state == _) = _
      rw [row_id_beq, row_state_beq]
      rfl
    rw [table_database h, hk.id, hk.state, hk.due]
    simp only [bind, Except.bind, column_id, column_state, column_due]
    rw [update_ofEntries hsel (alter_commit t), ← replace_database s]
    rfl

/-- A commit changes the running entry with its id, and nothing otherwise. -/
theorem commit_database {id : Int} {t : Transition} (hk : k.UsualColumns)
    (h : isDefaultTable k.instanceType = true) :
    JobStore.commit s.database k id t now = match requireOutcome t, s.find? id with
      | .error e, _ => (.error e, s.database)
      | .ok _, none => (.error (.notFound k.instanceType (toString id)), s.database)
      | .ok _, some e =>
        if e.state = .running then (.ok (),
          (s.update (Entry.isRunning id) (Entry.commit t now) (Entry.id_commit t now)).database)
        else (.error (refused e.state t.state), s.database) := by
  show s.database.commit k id t now = _
  rw [commit, writeOutcome_database hk h]
  cases requireOutcome t with
  | error e => rfl
  | ok u =>
    have hany : s.list.any (Entry.isRunning id) = (s.find? id).any fun e => e.state == .running :=
      any_key s.sorted
    have hone : (s.list.countP (Entry.isRunning id) == 1) = s.list.any (Entry.isRunning id) :=
      countP_beq_one s.sorted fun e he => (Entry.isRunning_iff.1 he).1
    simp only [Except.map, execute]
    cases hrun : s.list.any (Entry.isRunning id) with
    | true =>
      rw [hrun, beq_iff_eq] at hone
      rw [hrun] at hany
      cases hf : s.find? id with
      | none => rw [hf] at hany; cases hany
      | some e =>
        rw [hf, Option.any_some, eq_comm, beq_iff_eq] at hany
        simp only [hone, if_pos hany]
    | false =>
      -- the statement changes no row, and the next one looks why
      have hzero : s.list.countP (Entry.isRunning id) = 0 := by
        rw [List.countP_eq_zero]
        exact List.any_eq_false.1 hrun
      rw [Entries.update_of_none hrun]
      simp only [hzero, commitError, currentState_database hk h]
      cases hf : s.find? id with
      | none => rfl
      | some e =>
        rw [hrun, hf, Option.any_some, eq_comm, beq_eq_false_iff_ne] at hany
        simp only [if_neg hany, Option.map_some]

/-! ## New rows -/

theorem insertRow_of_lt {r : Row} {rows : List Row} (h : ∀ x ∈ rows, x.rowId < r.rowId) :
    Table.insertRow r rows = rows ++ [r] := by
  induction rows with
  | nil => rfl
  | cons x rows ih =>
    have hx := h x List.mem_cons_self
    rw [Table.insertRow, if_neg (by omega), ih fun y hy => h y (List.mem_cons_of_mem _ hy)]
    rfl

/-- Ids are used up. -/
def isFull (s : Entries) : Prop := s.lastId = (Nat.pow 2 63 - 1 : Nat)

instance (s : Entries) : Decidable (isFull s) := inferInstanceAs (Decidable (_ = _))

/-- The cells that the row of a new job is given. -/
def newCells (due stateColumn : Column) (job : NewJob) (now : Instant) : List (Column × Cell) :=
  [(.jobRef, .text job.jobRef), (due, .int job.dueAt.dueMillis),
    (stateColumn, .text State.new.name), (.attributes, .text job.attributes.toJson.text),
    (.payload, .ofText (job.payload.map Json.text)), (.failureCount, .int 0),
    (.createdAt, .int now.toMillis), (.updatedAt, .int now.toMillis)]

theorem insert_eq (d : Database) (job : NewJob) (now : Instant) :
    d.insert job now = (do
      requireTableName job.instanceType
      let t ← d.table job.instanceType
      let due ← t.column "due_at"
      let stateColumn ← t.column "state"
      let (id, t) ← t.insert (newCells due stateColumn job now)
      return (id, d.replace t)) := by
  rw [insert]
  simp only [newCells]
  cases job.payload <;> rfl

/-- The row of some cells and the defaults of a table. -/
def given (t : Table) (cells : List (Column × Cell)) : Row := fun c =>
  match cells.lookup c with
  | some v => c.coerce v
  | none => t.default c

/-- Put a row that has an id into a table. -/
def place (t : Table) (row : Row) : Except Error (Int × Table) := do
  t.check row
  if t.rows.any (·.rowId == row.rowId) then
    refusal ("UNIQUE constraint failed: " ++ t.name ++ "." ++ t.idName)
  return (row.rowId, { t with
    rows := Table.insertRow row t.rows
    lastId := max t.lastId row.rowId })

/-- A row that is not given an id takes the next. -/
theorem insert_eq_place {t : Table} {cells : List (Column × Cell)}
    (h : given t cells .id = .null) :
    t.insert cells = if t.lastId = (Nat.pow 2 63 - 1 : Nat) then refusal "database or disk is full"
      else place t ((given t cells).set .id (.int (t.lastId + 1))) := by
  show (do
    if given t cells .id = Cell.null ∧ t.lastId = (Nat.pow 2 63 - 1 : Nat) then
      refusal "database or disk is full"
    place t (if given t cells .id = Cell.null then
      (given t cells).set .id (.int (t.lastId + 1)) else given t cells)) = _
  simp only [h, true_and, if_pos]
  split <;> rfl

theorem given_newCells (job : NewJob) (now : Instant) (es : List Entry) (n : Int) :
    given (.ofEntries es n) (newCells .dueAt .state job now) =
      (Entry.ofNew job 0 now).row.set .id .null := by
  funext c
  cases c
  case payload =>
    show Column.coerce .payload (.ofText (job.payload.map Json.text)) =
      .ofText (job.payload.map Json.text)
    cases job.payload <;> rfl
  all_goals rfl

/-- A new entry goes to the end of the table. -/
theorem place_ofEntries (job : NewJob) (now : Instant) :
    place (.ofEntries s.list s.lastId) (Entry.ofNew job (s.lastId + 1) now).row =
      .ok (s.lastId + 1, .ofEntries (s.append job now).list (s.append job now).lastId) := by
  have hlt : ∀ r ∈ s.list.map Entry.row, r.rowId < s.lastId + 1 := by
    intro r hr
    obtain ⟨e, he, rfl⟩ := List.mem_map.1 hr
    exact Int.lt_add_one_of_le (s.id_le e he)
  have hunused : ¬(s.list.map Entry.row).any (fun r => r.rowId == s.lastId + 1) = true := by
    rw [Bool.not_eq_true, List.any_eq_false]
    intro r hr
    have := hlt r hr
    simp only [beq_iff_eq]
    omega
  have hmax : max s.lastId (s.lastId + 1) = s.lastId + 1 := by omega
  have hrows : Table.insertRow (Entry.ofNew job (s.lastId + 1) now).row (s.list.map Entry.row) =
      (s.append job now).list.map Entry.row := by
    rw [insertRow_of_lt hlt, Entries.append, List.map_append]
    rfl
  rw [place, check_row]
  simp only [bind, Except.bind]
  refine (if_neg hunused).trans ?_
  show Except.ok (s.lastId + 1, ({ Table.ofEntries s.list s.lastId with
    rows := Table.insertRow (Entry.ofNew job (s.lastId + 1) now).row (s.list.map Entry.row)
    lastId := max s.lastId (s.lastId + 1) } : Table)) = _
  rw [hrows, hmax]
  rfl

theorem insert_database {job : NewJob} (h : isDefaultTable job.instanceType = true) :
    s.database.insert job now = (requireTableName job.instanceType).bind fun _ =>
      if isFull s then refusal "database or disk is full"
      else .ok (s.lastId + 1, (s.append job now).database) := by
  have hrow : ((Entry.ofNew job 0 now).row.set .id .null).set .id (.int (s.lastId + 1)) =
      (Entry.ofNew job (s.lastId + 1) now).row := by
    funext c
    cases c <;> rfl
  have hinsert : (Table.ofEntries s.list s.lastId).insert (newCells .dueAt .state job now) =
      if isFull s then refusal "database or disk is full"
      else .ok (s.lastId + 1,
        .ofEntries (s.append job now).list (s.append job now).lastId) := by
    rw [insert_eq_place (by rw [given_newCells]; rfl), given_newCells]
    show (if isFull s then _ else place _ (Row.set _ _ (.int (s.lastId + 1)))) = _
    rw [hrow, place_ofEntries]
  rw [insert_eq, table_database h]
  cases requireTableName job.instanceType with
  | error e => rfl
  | ok u =>
    simp only [bind, Except.bind, column_due, column_state, hinsert]
    by_cases hfull : isFull s
    · simp only [if_pos hfull]
      rfl
    · simp only [if_neg hfull, pure, Except.pure, replace_database]

/-- While there is room, a new entry goes to the end. -/
theorem insert_room {job : NewJob} (h : isDefaultTable job.instanceType = true)
    (hname : requireTableName job.instanceType = .ok ()) (hroom : ¬isFull s) :
    JobStore.insert s.database job now = (.ok (s.lastId + 1), (s.append job now).database) := by
  show s.database.execute (s.database.insert job now) = _
  rw [insert_database h, hname]
  simp only [Except.bind, if_neg hroom]
  rfl

end Database

end DueWork

/-
  The table of job instances by the types of its columns.

  Every row that the statements of a database write into the table of the
  migration is the row of an `Entry`, and every statement is an operation on
  entries.  So nothing after this module looks at cells.

  * `Database.ofEntries` is the database with these entries;
  * one equation for each statement says what it answers there and which
    entries it leaves, for keys with the usual column names.
-/
import Mathlib.Data.List.Basic
import DueWork.Proofs.Job.Attributes
import DueWork.Store.Database

namespace DueWork

open Time Store

/-- A row of the table of job instances. -/
structure Entry where
  id : Int
  jobRef : String
  /-- in milliseconds, as the two other times -/
  dueAt : Int
  state : State
  attributes : Attributes
  payload : Option Json
  result : Option Json
  failureCount : UInt32
  lastError : Option String
  claimedAt : Option Int
  createdAt : Int
  updatedAt : Int

/-- A text or null. -/
def Store.Cell.ofText : Option String → Cell
  | some s => .text s
  | none => .null

/-- An integer or null. -/
def Store.Cell.ofInt : Option Int → Cell
  | some n => .int n
  | none => .null

namespace Entry

/-- The cells of an entry. -/
def row (e : Entry) : Row
  | .id => .int e.id
  | .jobRef => .text e.jobRef
  | .dueAt => .int e.dueAt
  | .state => .text e.state.name
  | .attributes => .text e.attributes.toJson.text
  | .payload => .ofText (e.payload.map Json.text)
  | .result => .ofText (e.result.map Json.text)
  | .failureCount => .int e.failureCount.toNat
  | .lastError => .ofText e.lastError
  | .claimedAt => .ofInt e.claimedAt
  | .createdAt => .int e.createdAt
  | .updatedAt => .int e.updatedAt

/-- The entry of a new job. -/
def ofNew (job : NewJob) (id : Int) (now : Instant) : Entry where
  id := id
  jobRef := job.jobRef
  dueAt := job.dueAt.dueMillis
  state := .new
  attributes := job.attributes
  payload := job.payload
  result := none
  failureCount := 0
  lastError := none
  claimedAt := none
  createdAt := now.toMillis
  updatedAt := now.toMillis

/-- The entry after a claim. -/
def claim (now : Instant) (e : Entry) : Entry :=
  { e with state := .running, claimedAt := some now.toMillis, updatedAt := now.toMillis }

/-- The entry after a transition. -/
def commit (t : Transition) (now : Instant) (e : Entry) : Entry :=
  { e with
    state := t.state
    dueAt := (t.dueAt.map Instant.dueMillis).getD e.dueAt
    result := t.result.or e.result
    failureCount := t.failureCount.getD e.failureCount
    lastError := t.lastError.or e.lastError
    claimedAt := none
    updatedAt := now.toMillis }

/-- The entry after its claim was given up. -/
def unclaim (now : Instant) (e : Entry) : Entry :=
  { e with state := .deferred, claimedAt := none, updatedAt := now.toMillis }

theorem id_claim (now : Instant) (e : Entry) : (e.claim now).id = e.id := rfl

theorem id_commit (t : Transition) (now : Instant) (e : Entry) : (e.commit t now).id = e.id := rfl

theorem id_unclaim (now : Instant) (e : Entry) : (e.unclaim now).id = e.id := rfl

/-- The entry may be claimed from a state. -/
def isClaimable (k : Key) (id : Int) (expected : State) (e : Entry) : Bool :=
  e.id == id && e.state == expected && k.predicate.accepts e.attributes

/-- The entry with this id is running. -/
def isRunning (id : Int) (e : Entry) : Bool := e.id == id && e.state == .running

theorem isClaimable_iff {k : Key} {id : Int} {expected : State} {e : Entry} :
    e.isClaimable k id expected = true ↔
      e.id = id ∧ e.state = expected ∧ k.predicate.accepts e.attributes = true := by
  rw [isClaimable, Bool.and_eq_true, Bool.and_eq_true, beq_iff_eq, beq_iff_eq, and_assoc]

theorem isRunning_iff {id : Int} {e : Entry} :
    e.isRunning id = true ↔ e.id = id ∧ e.state = .running := by
  rw [isRunning, Bool.and_eq_true, beq_iff_eq, beq_iff_eq]

/-- The entry is in a ready state of the partition. -/
def isWaiting (k : Key) (e : Entry) : Bool :=
  k.isReadyState e.state && k.predicate.accepts e.attributes

/-- The entry is ready at `now`. -/
def isReady (k : Key) (now : Instant) (e : Entry) : Bool :=
  e.isWaiting k && e.dueAt ≤ now.toMillis

/-- The entry runs on a claim that is older than `cutoff`, or has no date. -/
def isStale (k : Key) (cutoff : Instant) (e : Entry) : Bool :=
  e.state == .running && (match e.claimedAt with
    | none => true
    | some claimed => decide (claimed < cutoff.toMillis)) && k.predicate.accepts e.attributes

end Entry

/-- Names in order are names of their own. -/
theorem State.name_inj {s t : State} : s.name = t.name ↔ s = t := by
  constructor
  · intro h
    have := congrArg State.ofName? h
    rw [State.ofName?_name, State.ofName?_name] at this
    exact Option.some.inj this
  · exact congrArg State.name

/-! ## Tables of entries -/

namespace Store

/-- The table of the migration with these entries. -/
def Table.ofEntries (es : List Entry) (lastId : Int) : Table :=
  { Table.jobInstances with rows := es.map Entry.row, lastId := lastId }

/-- The columns of the table go by their default names. -/
theorem Table.columnName_ofEntries (es : List Entry) (lastId : Int) (c : Column) :
    (Table.ofEntries es lastId).columnName c = c.defaultName := by
  cases c <;> rfl

/-- A row with some cells changed. -/
def Row.alter (change : List (Column × (Row → Cell))) (r : Row) : Row := fun c =>
  match change.lookup c with
  | some f => c.coerce (f r)
  | none => r c

variable {es : List Entry} {lastId : Int} {p : Entry → Bool} {sel : Row → Except Error Bool}

theorem check_row (t : Table) (e : Entry) : t.check e.row = .ok () := by
  have hnull : (Column.all.find? fun c => !c.isNullable && e.row c == .null) = none := by
    rw [List.find?_eq_none]
    intro c _
    cases c <;> simp [Column.isNullable, Entry.row]
  have hstate : State.all.any (fun s => e.row .state == .text s.name) = true := by
    rw [List.any_eq_true]
    exact ⟨e.state, by cases e.state <;> decide, by simp [Entry.row]⟩
  rw [Table.check, hnull]
  simp only [hstate]
  cases t.checksState <;> rfl

/-- What answers for every element answers for the list. -/
theorem mapM_eq_ok {α β ε : Type} {f : α → Except ε β} {g : α → β} {l : List α}
    (h : ∀ a ∈ l, f a = .ok (g a)) : l.mapM f = .ok (l.map g) := by
  induction l with
  | nil => rfl
  | cons a l ih =>
    rw [List.mapM_cons, h a List.mem_cons_self, ih fun b hb => h b (List.mem_cons_of_mem _ hb)]
    rfl

/-- Selecting rows is filtering entries. -/
theorem select_ofEntries (h : ∀ e ∈ es, sel e.row = .ok (p e)) :
    (Table.ofEntries es lastId).select sel = .ok ((es.filter p).map Entry.row) := by
  have haux : ∀ acc, List.filterAuxM sel (es.map Entry.row) acc =
      .ok (((es.filter p).map Entry.row).reverse ++ acc) := by
    induction es with
    | nil => intro acc; rfl
    | cons e es ih =>
      intro acc
      rw [List.map_cons, List.filterAuxM, h e List.mem_cons_self]
      show List.filterAuxM sel (es.map Entry.row) (bif p e then e.row :: acc else acc) = _
      rw [ih fun e he => h e (List.mem_cons_of_mem _ he), List.filter_cons]
      cases p e <;> simp
  show (es.map Entry.row).filterM sel = _
  rw [List.filterM, haux]
  simp [bind, Except.bind, pure, Except.pure]

/-- Changing the marked rows is changing their entries. -/
theorem alter_marked {g : Entry → Entry} {change : List (Column × (Row → Cell))}
    (hg : ∀ e, e.row.alter change = (g e).row) :
    (es.map fun e => (p e, e.row)).map (fun (b, r) => if b then r.alter change else r) =
      (es.map fun e => if p e then g e else e).map Entry.row := by
  rw [List.map_map, List.map_map]
  refine List.map_congr_left fun e _ => ?_
  show (if p e then e.row.alter change else e.row) = (if p e then g e else e).row
  split
  · exact hg e
  · rfl

/-- An update marks the selected rows, checks them as they will be and
    changes them. -/
theorem update_eq (t : Table) (sel : Row → Except Error Bool)
    (change : List (Column × (Row → Cell))) :
    t.update sel change = (do
      let marked ← t.rows.mapM fun r => (sel r).map fun b => (b, r)
      (marked.filter (·.1)).forM fun x => t.check (x.2.alter change)
      return ((marked.filter (·.1)).length, { t with
        rows := marked.map fun (b, r) => if b then r.alter change else r })) := rfl

/-- Changing the selected rows is changing their entries. -/
theorem update_ofEntries {g : Entry → Entry} {change : List (Column × (Row → Cell))}
    (h : ∀ e ∈ es, sel e.row = .ok (p e)) (hg : ∀ e, e.row.alter change = (g e).row) :
    (Table.ofEntries es lastId).update sel change =
      .ok (es.countP p, Table.ofEntries (es.map fun e => if p e then g e else e) lastId) := by
  have hmarked : (es.map Entry.row).mapM (fun r => (sel r).map fun b => (b, r)) =
      .ok (es.map fun e => (p e, e.row)) := by
    rw [List.mapM_map]
    refine mapM_eq_ok fun e he => ?_
    rw [Function.comp_apply, h e he]
    rfl
  have hcheck (t : Table) : ∀ es : List Entry,
      ((es.map fun e => (p e, e.row)).filter (·.1)).forM
        (fun x => t.check (x.2.alter change)) = .ok () := by
    intro es
    induction es with
    | nil => rfl
    | cons e es ih =>
      rw [List.map_cons, List.filter_cons]
      split
      · show (do t.check (e.row.alter change); List.forM _ _) = _
        rw [hg, check_row]
        exact ih
      · exact ih
  have hcount : ((es.map fun e => (p e, e.row)).filter (·.1)).length = es.countP p := by
    rw [← List.countP_eq_length_filter, List.countP_map]
    rfl
  rw [update_eq, show (Table.ofEntries es lastId).rows = es.map Entry.row from rfl, hmarked]
  simp only [bind, Except.bind, hcheck, pure, Except.pure, hcount, alter_marked hg]
  rfl

end Store

end DueWork

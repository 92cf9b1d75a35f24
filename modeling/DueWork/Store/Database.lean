/-
  A store in database tables.

  The instance type of a key names a table, and its attributes name the
  columns that hold identity, due time and state.  An operation is one
  statement, which selects rows by state, due time and predicate clauses, and
  reads or changes them; a commit that does not change one row is followed by
  another statement that says why.  Due times are rounded up to the millisecond
  and the clock is rounded down, so nothing is due early.

  * `execute` runs a statement that changes rows: if it is refused, none is
    changed;
  * the instance of `JobStore` at the end lists the statements.
-/
import DueWork.Signal.Listener
import DueWork.Store.Contract
import DueWork.Store.Table

namespace DueWork

open Time Store

/-- Tables by name. -/
structure Database where
  tables : List Table

namespace Database

/-- The tables that the migration makes. -/
def migrated : Database := ⟨[.jobInstances]⟩

instance : Inhabited Database := ⟨migrated⟩

def table? (d : Database) (name : String) : Option Table :=
  d.tables.find? fun t => Table.sameName t.name name

def table (d : Database) (name : String) : Except Error Table :=
  match d.table? name with
  | some t => .ok t
  | none => refusal ("no such table: " ++ name)

/-- Put a changed table in the place of the old one. -/
def replace (d : Database) (t : Table) : Database :=
  ⟨d.tables.map fun u => if u.name = t.name then t else u⟩

/-- Run a statement that changes rows: one that is refused changes none. -/
def execute {α : Type} (d : Database) (statement : Except Error (α × Database)) :
    Except Error α × Database :=
  match statement with
  | .ok (a, d') => (.ok a, d')
  | .error e => (.error e, d)

/-! ## Conditions -/

/-- The state of a row is one of these. -/
def inStates (c : Column) (states : List State) (r : Row) : Bool :=
  states.any fun s => r c == .text s.name

/-- The due time of a row is not after `now`. -/
def isDue (c : Column) (now : Instant) (r : Row) : Bool :=
  match r c with
  | .int due => due ≤ now.toMillis
  | _ => false

/-- A condition on columns, and the clauses where it holds. -/
def holding (key : Key) (condition : Row → Bool) (r : Row) : Except Error Bool :=
  if condition r then r.satisfies key.predicate else .ok false

/-- Null before integers before texts. -/
def cellLe : Cell → Cell → Bool
  | .null, _ => true
  | .int _, .null => false
  | .int m, .int n => m ≤ n
  | .int _, .text _ => true
  | .text s, .text t => s ≤ t
  | .text _, _ => false

/-- By two columns, the first of which decides. -/
def rowLe (c d : Column) (r s : Row) : Bool :=
  if r c = s c then cellLe (r d) (s d) else cellLe (r c) (s c)

/-! ## Statements -/

/-- The rows that are ready at `now`. -/
def readyRows (t : Table) (key : Key) (now : Instant) : Except Error (List Row) := do
  let stateColumn ← t.column key.stateAttribute
  let due ← t.column key.scheduleAttribute
  t.select (holding key fun r => inStates stateColumn key.readyStates r && isDue due now r)

def countReady (d : Database) (key : Key) (now : Instant) : Except Error Nat := do
  let t ← d.table key.instanceType
  return (← readyRows t key now).length

def fetchReady (d : Database) (key : Key) (now : Instant) (limit : Nat) :
    Except Error (List Job) := do
  let t ← d.table key.instanceType
  let idColumn ← t.column key.idAttribute
  let due ← t.column key.scheduleAttribute
  let stateColumn ← t.column key.stateAttribute
  if limit = 0 then return []
  let rows ← readyRows t key now
  let first := (rows.mergeSort (rowLe due idColumn)).take limit
  let stored ← first.mapM fun r => r.stored idColumn due stateColumn
  stored.mapM fun s => s.toJob key.instanceType

def claim (d : Database) (key : Key) (id : Int) (expected : State) (now : Instant) :
    Except Error (Bool × Database) := do
  requireClaimable id expected
  let t ← d.table key.instanceType
  let idColumn ← t.column key.idAttribute
  let stateColumn ← t.column key.stateAttribute
  let claimable (r : Row) : Bool :=
    r idColumn == .int id && r stateColumn == .text expected.name
  let (n, t) ← t.update (holding key claimable)
    [(.updatedAt, fun _ => .int now.toMillis), (.claimedAt, fun _ => .int now.toMillis),
      (stateColumn, fun _ => .text State.running.name)]
  return (n == 1, d.replace t)

/-- The state of the row with this id, if there is one. -/
def currentState (d : Database) (key : Key) (id : Int) : Except Error (Option State) := do
  let t ← d.table key.instanceType
  let idColumn ← t.column key.idAttribute
  let stateColumn ← t.column key.stateAttribute
  match t.rows.find? fun r => r idColumn == .int id with
  | none => return none
  | some r =>
    let name ← r.text stateColumn
    match State.ofName? name with
    | some s => return some s
    | none => throw (.database ("unknown job instance state '" ++ name ++ "'"))

/-- The new value of a column if there is one, else the old one. -/
def coalesce (c : Column) (new : Option Cell) (r : Row) : Cell := new.getD (r c)

/-- Write the outcome of a running instance, and answer how many rows have it. -/
def writeOutcome (d : Database) (key : Key) (id : Int) (tr : Transition) (now : Instant) :
    Except Error (Nat × Database) := do
  requireOutcome tr
  let t ← d.table key.instanceType
  let idColumn ← t.column key.idAttribute
  let due ← t.column key.scheduleAttribute
  let stateColumn ← t.column key.stateAttribute
  let running (r : Row) : Bool := r idColumn == .int id && r stateColumn == .text State.running.name
  let (n, t) ← t.update (fun r => .ok (running r))
    [(.updatedAt, fun _ => .int now.toMillis), (.claimedAt, fun _ => .null),
      (.lastError, coalesce .lastError (tr.lastError.map .text)),
      (.failureCount, coalesce .failureCount (tr.failureCount.map fun n => .int n.toNat)),
      (.result, coalesce .result (tr.result.map fun j => .text j.text)),
      (due, coalesce due (tr.dueAt.map fun t => .int t.dueMillis)),
      (stateColumn, fun _ => .text tr.state.name)]
  return (n, d.replace t)

/-- Why an outcome is not that of one row. -/
def commitError (d : Database) (key : Key) (id : Int) (target : State) : Error :=
  match d.currentState key id with
  | .ok (some current) => refused current target
  | .ok none => .notFound key.instanceType (toString id)
  | .error e => e

/-- Write an outcome; where several rows have it, it is written and refused. -/
def commit (d : Database) (key : Key) (id : Int) (tr : Transition) (now : Instant) :
    Except Error Unit × Database :=
  match d.execute (d.writeOutcome key id tr now) with
  | (.ok 1, d) => (.ok (), d)
  | (.ok _, d) => (.error (d.commitError key id tr.state), d)
  | (.error e, d) => (.error e, d)

/-- The least due time of some rows. -/
def leastDue (due : Column) (rows : List Row) : Except Error (Option Instant) :=
  let times := rows.filterMap fun r => match r due with
    | .int n => some n
    | _ => none
  match times.min? with
  | some n => .ok (some (.ofMillis n))
  | none =>
    if rows.all fun r => r due == .null then .ok none
    else .error (.query (.garbled "not an integer"))

def nextDue (d : Database) (key : Key) : Except Error (Option Instant) := do
  let t ← d.table key.instanceType
  let due ← t.column key.scheduleAttribute
  let stateColumn ← t.column key.stateAttribute
  leastDue due (← t.select (holding key (inStates stateColumn key.readyStates)))

def insert (d : Database) (job : NewJob) (now : Instant) : Except Error (Int × Database) := do
  requireTableName job.instanceType
  let t ← d.table job.instanceType
  let due ← t.column "due_at"
  let stateColumn ← t.column "state"
  let payload : Cell := match job.payload with
    | some j => .text j.text
    | none => .null
  let (id, t) ← t.insert
    [(.jobRef, .text job.jobRef), (due, .int job.dueAt.dueMillis),
      (stateColumn, .text State.new.name),
      (.attributes, .text job.attributes.toJson.text), (.payload, payload), (.failureCount, .int 0),
      (.createdAt, .int now.toMillis), (.updatedAt, .int now.toMillis)]
  return (id, d.replace t)

/-- The column that has exactly this name. -/
def namedColumn (t : Table) (name : String) : Except Error Column :=
  match Column.all.find? fun c => t.columnName c = name with
  | some c => .ok c
  | none => .error (.query (.garbled ("no column found for name: " ++ name)))

def get (d : Database) (instanceType : String) (id : Int) : Except Error (Option Job) := do
  requireTableName instanceType
  let t ← d.table instanceType
  let idColumn ← t.column "id"
  match t.rows.find? fun r => r idColumn == .int id with
  | none => return none
  | some r =>
    let s ← r.stored (← namedColumn t "id") (← namedColumn t "due_at") (← namedColumn t "state")
    return some (← s.toJob instanceType)

/-- The claim of a row is older than `cutoff`, or has no date. -/
def claimedBefore (cutoff : Instant) (r : Row) : Bool :=
  match r .claimedAt with
  | .null => true
  | .int claimed => claimed < cutoff.toMillis
  | .text _ => false

def resetStale (d : Database) (key : Key) (cutoff now : Instant) :
    Except Error (Nat × Database) := do
  let t ← d.table key.instanceType
  let stateColumn ← t.column key.stateAttribute
  let (n, t) ← t.update
    (holding key fun r => r stateColumn == .text State.running.name && claimedBefore cutoff r)
    [(.updatedAt, fun _ => .int now.toMillis), (.claimedAt, fun _ => .null),
      (stateColumn, fun _ => .text State.deferred.name)]
  return (n, d.replace t)

instance : JobStore Database where
  countReady := countReady
  fetchReady := fetchReady
  claim d key id expected now := d.execute (d.claim key id expected now)
  commit := commit
  nextDue := nextDue
  insert d job now := d.execute (d.insert job now)
  get := get
  resetStale d key cutoff now := d.execute (d.resetStale key cutoff now)

/-! ## Beside the contract -/

/-- Words that the query language keeps for itself. -/
def reservedWords : List String :=
  ["add", "all", "alter", "and", "as", "autoincrement", "between", "case", "check", "collate",
    "commit", "constraint", "create", "default", "deferrable", "delete", "distinct", "drop", "else",
    "escape", "except", "exists", "foreign", "from", "group", "having", "in", "index", "insert",
    "intersect", "into", "is", "isnull", "join", "limit", "not", "nothing", "notnull", "null", "on",
    "or", "order", "primary", "references", "returning", "select", "set", "table", "then", "to",
    "transaction", "union", "unique", "update", "using", "values", "when", "where"]

/-- A name that a table or a column may be given. -/
def requireName (name : String) : Except Error Unit :=
  if Text.isIdentifier name && !reservedWords.contains (name.map Char.toLower) then .ok ()
  else refusal ("near \"" ++ name ++ "\": syntax error")

/-- Make a table like the first one, with other names for three columns and
    defaults for most. -/
def createTable (d : Database) (name idName dueName stateName : String) :
    Except Error Database := do
  [name, idName, dueName, stateName].forM requireName
  if "sqlite_".toList.isPrefixOf (name.toList.map Char.toLower) then
    refusal ("object name reserved for internal use: " ++ name)
  if (d.table? name).isSome then refusal ("table " ++ name ++ " already exists")
  let t : Table := { name := name, idName := idName, dueName := dueName, stateName := stateName,
                     checksState := false, hasDefaults := true }
  let names := Column.all.map fun c => (t.columnName c).map Char.toLower
  if names.eraseDups.length < names.length then refusal "duplicate column name"
  return ⟨d.tables ++ [t]⟩

/-- Insert cells under the names of their columns. -/
def insertRaw (d : Database) (name : String) (cells : List (String × Cell)) :
    Except Error (Int × Database) := do
  let t ← d.table name
  let named ← cells.mapM fun (n, v) => (t.column n).map fun c => (c, v)
  let (id, t) ← t.insert named
  return (id, d.replace t)

/-- Store an instance as it is, in place of one with its id. -/
def put (d : Database) (job : Job) : Except Error Database := do
  let t ← d.table defaultInstanceType
  let t := { t with rows := t.rows.filter fun r => r.rowId != job.id }
  let s := StoredJob.ofJob job
  let (_, t) ← t.insert ((.updatedAt, .int s.createdAt) :: Row.ofStored s)
  return d.replace t

/-- The description of a database that signals a registry, or none. -/
def description (registry : Option Signal.Registry) : String :=
  let listeners := match registry with
    | some r => "Some(" ++ r.description ++ ")"
    | none => "None"
  "SqlxJobInstanceStore \x7b listeners: " ++ listeners ++ " \x7d"

/-- Set the state of an instance in the first table. -/
def setState (d : Database) (id : Int) (state : State) : Except Error Database := do
  let t ← d.table defaultInstanceType
  let (_, t) ← t.update (fun r => .ok (r .id == .int id)) [(.state, fun _ => .text state.name)]
  return d.replace t

/-- Every instance in the first table, by id. -/
def jobs (d : Database) : Except Error (List Job) := do
  let t ← d.table defaultInstanceType
  t.rows.mapM fun r => do (← r.stored .id .dueAt .state).toJob defaultInstanceType

end Database

end DueWork

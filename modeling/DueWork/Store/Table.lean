/-
  Tables of job instances.

  A table has twelve columns with fixed roles; three of them, the identity,
  the due time and the state, may go by other names.  A cell is null, an
  integer or a text, and a column prefers one of the two kinds: what can be
  read as the preferred kind is stored so.

  * `Table.column?` resolves a name to a column;
  * `Table.insert` checks a row against the constraints of the table and
    answers its id, `Table.update` changes the rows that a condition selects;
  * `Row.satisfies` evaluates predicate clauses on the JSON text of the
    attributes column: an error if the text is not JSON, not even relaxed.
-/
import DueWork.Json.Reader
import DueWork.Json.Relaxed
import DueWork.Partition.Predicate
import DueWork.Store.StoredJob

namespace DueWork.Store

/-- What a cell of a row holds. -/
inductive Cell where
  | null
  | int (n : Int)
  | text (s : String)
deriving DecidableEq, Repr, Inhabited

/-- The columns of a table of job instances, by their roles. -/
inductive Column where
  | id | jobRef | dueAt | state | attributes | payload | result | failureCount | lastError
  | claimedAt | createdAt | updatedAt
deriving DecidableEq, Repr

/-- The cells of a row. -/
abbrev Row := Column → Cell

/-- The row with another cell in one column. -/
def Row.set (r : Row) (c : Column) (v : Cell) : Row := fun d => if d = c then v else r d

/-- The id of a row. -/
def Row.rowId (r : Row) : Int :=
  match r .id with
  | .int n => n
  | _ => 0

namespace Column

def all : List Column :=
  [id, jobRef, dueAt, state, attributes, payload, result, failureCount, lastError, claimedAt,
    createdAt, updatedAt]

/-- The name of a column where the table does not give it another. -/
def defaultName : Column → String
  | id => "id"
  | jobRef => "job_ref"
  | dueAt => "due_at"
  | state => "state"
  | attributes => "attributes"
  | payload => "payload"
  | result => "result"
  | failureCount => "failure_count"
  | lastError => "last_error"
  | claimedAt => "claimed_at"
  | createdAt => "created_at"
  | updatedAt => "updated_at"

/-- The column prefers integers. -/
def isNumeric : Column → Bool
  | id | dueAt | failureCount | claimedAt | createdAt | updatedAt => true
  | _ => false

/-- The column may be null. -/
def isNullable : Column → Bool
  | payload | result | lastError | claimedAt => true
  | _ => false

end Column

/-- The integer that a text spells, if 64 bits hold it. -/
def integer? (s : String) : Option Int :=
  let (negative, digits) := match Text.trimChars s.toList with
    | '-' :: ds => (true, ds)
    | '+' :: ds => (false, ds)
    | ds => (false, ds)
  if digits.isEmpty || !digits.all Char.isDigit then none
  else
    let n : Int := (digits.foldl (fun n c => 10 * n + (c.toNat - '0'.toNat)) 0 : Nat)
    let n := if negative then -n else n
    if -(Nat.pow 2 63 : Nat) ≤ n ∧ n < (Nat.pow 2 63 : Nat) then some n else none

/-- A cell in the kind that its column prefers. -/
def Column.coerce (c : Column) : Cell → Cell
  | .null => .null
  | .int n => if c.isNumeric then .int n else .text (toString n)
  | .text s =>
    if c.isNumeric then
      match integer? s with
      | some n => .int n
      | none => .text s
    else .text s

/-- A table: its name, the names of three columns, and its rows by id. -/
structure Table where
  name : String
  idName : String := "id"
  dueName : String := "due_at"
  stateName : String := "state"
  /-- states other than those of the lifecycle are refused -/
  checksState : Bool := true
  /-- every column but the id has a default -/
  hasDefaults : Bool := false
  rows : List Row := []
  /-- the largest id ever used -/
  lastId : Int := 0

/-- The database refuses a statement. -/
def refusal {α : Type} (message : String) : Except Error α :=
  .error (.query (.refused (some "1") message))

namespace Table

/-- Names are compared without regard to the case of ASCII letters. -/
def sameName (a b : String) : Bool := a.map Char.toLower == b.map Char.toLower

def columnName (t : Table) : Column → String
  | .id => t.idName
  | .dueAt => t.dueName
  | .state => t.stateName
  | c => c.defaultName

/-- Every table has its row ids under these names too. -/
def idAliases : List String := ["rowid", "oid", "_rowid_"]

/-- The column of this name. -/
def column? (t : Table) (name : String) : Option Column :=
  match Column.all.find? fun c => sameName (t.columnName c) name with
  | some c => some c
  | none => if idAliases.any (sameName · name) then some .id else none

def column (t : Table) (name : String) : Except Error Column :=
  match t.column? name with
  | some c => .ok c
  | none => refusal ("no such column: " ++ name)

/-- The cell of a column that an inserted row does not give. -/
def default (t : Table) : Column → Cell
  | .state => .text State.new.name
  | .attributes => .text "\x7b\x7d"
  | .failureCount => .int 0
  | .jobRef => if t.hasDefaults then .text "" else .null
  | .dueAt | .createdAt | .updatedAt => if t.hasDefaults then .int 0 else .null
  | _ => .null

/-- The constraints that a row has to meet. -/
def check (t : Table) (r : Row) : Except Error Unit := do
  match Column.all.find? fun c => !c.isNullable && r c == .null with
  | some c => refusal ("NOT NULL constraint failed: " ++ t.name ++ "." ++ t.columnName c)
  | none =>
    if t.checksState && !State.all.any (fun s => r .state == .text s.name) then
      refusal ("CHECK constraint failed: " ++ t.stateName)
    match r .id with
    | .int _ => .ok ()
    | _ => refusal "datatype mismatch"

/-- Put a row in its place by id. -/
def insertRow (r : Row) : List Row → List Row
  | [] => [r]
  | s :: rest => if r.rowId < s.rowId then r :: s :: rest else s :: insertRow r rest

/-- Add a row with these cells, and answer its id; one that is not given is the
    next. -/
def insert (t : Table) (cells : List (Column × Cell)) : Except Error (Int × Table) := do
  let given : Row := fun c => match cells.lookup c with
    | some v => c.coerce v
    | none => t.default c
  if given .id = .null ∧ t.lastId = (Nat.pow 2 63 - 1 : Nat) then refusal "database or disk is full"
  let row := if given .id = .null then given.set .id (.int (t.lastId + 1)) else given
  t.check row
  if t.rows.any (·.rowId == row.rowId) then
    refusal ("UNIQUE constraint failed: " ++ t.name ++ "." ++ t.idName)
  return (row.rowId, { t with
    rows := insertRow row t.rows
    lastId := max t.lastId row.rowId })

/-- The rows that a condition selects; an error of the condition on any row is
    an error of the whole. -/
def select (t : Table) (selected : Row → Except Error Bool) : Except Error (List Row) :=
  t.rows.filterM selected

/-- Change the rows that a condition selects, and answer how many there are;
    of two changes of one column the first counts. -/
def update (t : Table) (selected : Row → Except Error Bool)
    (change : List (Column × (Row → Cell))) :
    Except Error (Nat × Table) := do
  let marked ← t.rows.mapM fun r => (selected r).map fun b => (b, r)
  let changed (r : Row) : Row := fun c =>
    match change.lookup c with
    | some f => c.coerce (f r)
    | none => r c
  (marked.filter (·.1)).forM fun (_, r) => t.check (changed r)
  return ((marked.filter (·.1)).length,
    { t with rows := marked.map fun (b, r) => if b then changed r else r })

/-- A table as the migration makes it. -/
def jobInstances : Table := { name := defaultInstanceType }

end Table

/-! ## Conditions -/

namespace Row

/-- The first field of this name in an object. -/
def field? (name : String) : Json.Node → Option Json.Node
  | .object fs => (fs.find? fun (raw, _) => Json.decodeString? raw == some name).map (·.2)
  | _ => none

/-- A JSON value as it compares with a text: strings by their characters,
    arrays and objects by their shortest text, nothing else at all. -/
def comparable : Json.Node → Option String
  | .string raw => Json.decodeString? raw
  | n@(.array _) | n@(.object _) => some (String.ofList n.minified)
  | .null | .bool _ | .number _ => none

/-- The clause holds of a JSON text. -/
def clauseHolds (n : Json.Node) (c : Clause) : Bool :=
  (field? c.name n).bind comparable == some c.value

/-- The tree of a text in JSON or its relaxed form. -/
def tree? (s : String) : Option Json.Node := (Json.Node.parse? s).or (Json.Relaxed.parse? s)

/-- Evaluate clauses on the attributes of a row, as far as the first that
    does not hold. -/
def satisfies (p : Predicate) (r : Row) : Except Error Bool :=
  if p.clauses.isEmpty then .ok true
  else match r .attributes with
    | .text s =>
      match tree? s with
      | some n => .ok (p.clauses.all (clauseHolds n))
      | none => refusal "malformed JSON"
    | .int n => .ok (p.clauses.all (clauseHolds (.number (toString n))))
    | .null => .ok false

/-- A text of a row that has to be there. -/
def text (r : Row) (c : Column) : Except Error String :=
  match r c with
  | .text s => .ok s
  | _ => .error (.query (.garbled "not a text"))

/-- An integer of a row that has to be there. -/
def int (r : Row) (c : Column) : Except Error Int :=
  match r c with
  | .int n => .ok n
  | _ => .error (.query (.garbled "not an integer"))

def text? (r : Row) (c : Column) : Except Error (Option String) :=
  if r c = .null then .ok none else (r.text c).map some

def int? (r : Row) (c : Column) : Except Error (Option Int) :=
  if r c = .null then .ok none else (r.int c).map some

/-- The fields of a row, read with these columns for identity, due time and
    state. -/
def stored (r : Row) (idColumn dueColumn stateColumn : Column) : Except Error StoredJob := do
  return {
    id := ← r.int idColumn
    jobRef := ← r.text .jobRef
    dueAt := ← r.int dueColumn
    state := ← r.text stateColumn
    attributes := ← r.text .attributes
    payload := ← r.text? .payload
    result := ← r.text? .result
    failureCount := ← r.int .failureCount
    lastError := ← r.text? .lastError
    claimedAt := ← r.int? .claimedAt
    createdAt := ← r.int .createdAt }

/-- The cells of a row that holds these fields. -/
def ofStored (s : StoredJob) : List (Column × Cell) :=
  let text (o : Option String) : Cell := match o with
    | some s => .text s
    | none => .null
  let int (o : Option Int) : Cell := match o with
    | some n => .int n
    | none => .null
  [(.id, .int s.id), (.jobRef, .text s.jobRef), (.dueAt, .int s.dueAt), (.state, .text s.state),
    (.attributes, .text s.attributes), (.payload, text s.payload), (.result, text s.result),
    (.failureCount, .int s.failureCount), (.lastError, text s.lastError),
    (.claimedAt, int s.claimedAt), (.createdAt, .int s.createdAt)]

end Row

end DueWork.Store

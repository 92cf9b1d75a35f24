/-
  Reading records from JSON texts.

  A record is written as an object with a field per name or as an array with
  the values in the order of the names.  Fields of other names are passed
  over, whatever they hold; a name that is given twice is an error.

  A `Decoder` reads a value of a type from a tree that may be nested to a
  given depth; records, arrays and maps take one level each.
-/
import DueWork.Job.Attributes
import DueWork.Json.Reader
import DueWork.Time.Rfc3339

namespace DueWork.Json

open DueWork.Number (Double)

/-- Reads a value from a tree nested at most so deep. -/
abbrev Decoder (α : Type) := Nat → Node → Option α

namespace Decoder

variable {α β : Type}

/-- Read a whole text. -/
def run (d : Decoder α) (s : String) : Option α := (Node.parse? s).bind (d maxDepth)

def string : Decoder String := fun _ n =>
  match n with
  | .string raw => decodeString? raw
  | _ => none

/-- An integer from `low` to `high`. -/
def integer (low high : Int) : Decoder Int := fun _ n =>
  match n with
  | .number t =>
    match Number.ofText? t with
    | some (.integer i) => if low ≤ i ∧ i ≤ high then some i else none
    | _ => none
  | _ => none

/-- A number below `2 ^ width`. -/
def natural (width : Nat) : Decoder Nat := fun depth n =>
  (integer 0 (Nat.pow 2 width - 1 : Nat) depth n).map Int.toNat

def double : Decoder Double := fun _ n =>
  match n with
  | .number t =>
    (Number.ofText? t).map fun
      | .integer i => if i < 0 then (Double.ofNat i.natAbs).neg else Double.ofNat i.toNat
      | .real x => x
  | _ => none

def boolean : Decoder Bool := fun _ n =>
  match n with
  | .bool b => some b
  | _ => none

def value : Decoder Json := fun depth n => n.value? depth

/-- A value, or nothing if it is null. -/
def nullable (d : Decoder α) : Decoder (Option α) := fun depth n =>
  match n with
  | .null => some none
  | n => (d depth n).map some

def list (d : Decoder α) : Decoder (List α) := fun depth n =>
  match n with
  | .array es => if depth = 0 then none else es.mapM (d (depth - 1))
  | _ => none

def pair (d : Decoder α) (e : Decoder β) : Decoder (α × β) := fun depth n =>
  match n with
  | .array [a, b] =>
    if depth = 0 then none
    else do
      let x ← d (depth - 1) a
      let y ← e (depth - 1) b
      some (x, y)
  | _ => none

/-- An object of strings. -/
def attributes : Decoder Attributes := fun depth n =>
  match n with
  | .object fs =>
    if depth = 0 then none
    else
      (fs.mapM fun (name, n) => do
        let k ← decodeString? name
        let v ← string (depth - 1) n
        some (k, v)).map Attributes.ofList
  | _ => none

def instant : Decoder Time.Instant := fun depth n =>
  (string depth n).bind Time.Instant.parse?

/-- One of some names, as a string or as an object with that name and null. -/
def choice (ofName? : String → Option α) : Decoder α := fun depth n =>
  match n with
  | .string raw => (decodeString? raw).bind ofName?
  | .object [(name, .null)] => if depth = 0 then none else (decodeString? name).bind ofName?
  | _ => none

end Decoder

/-- The given fields of a record. -/
structure Record where
  fields : List (String × Node)
  /-- the record was written as an array -/
  inOrder : Bool
  /-- how deep the fields may be nested -/
  depth : Nat

namespace Record

variable {α : Type}

/-- A name occurs twice. -/
def hasRepeated : List String → Bool
  | [] => false
  | s :: ss => ss.contains s || hasRepeated ss

/-- The fields of a record with these names. -/
def ofNode? (names : List String) (depth : Nat) : Node → Option Record
  | .object fs => do
    if depth = 0 then none
    let named ← fs.mapM fun (raw, n) => (decodeString? raw).map (·, n)
    let known := named.filter fun (name, _) => names.contains name
    if hasRepeated (known.map (·.1)) then none else some ⟨known, false, depth - 1⟩
  | .array es =>
    if depth = 0 ∨ es.length > names.length then none else some ⟨names.zip es, true, depth - 1⟩
  | _ => none

/-- A field that has to be given. -/
def required (r : Record) (name : String) (d : Decoder α) : Option α :=
  (r.fields.lookup name).bind (d r.depth)

/-- A field with a value to take if it is not given. -/
def orElse (r : Record) (name : String) (d : Decoder α) (default : α) : Option α :=
  match r.fields.lookup name with
  | some n => d r.depth n
  | none => some default

/-- A field that may be null; in an array it has to be given. -/
def optional (r : Record) (name : String) (d : Decoder α) : Option (Option α) :=
  match r.fields.lookup name with
  | some n => d.nullable r.depth n
  | none => if r.inOrder then none else some none

end Record

end DueWork.Json

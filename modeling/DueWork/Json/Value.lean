/-
  JSON values.

  A number is an integer or, if it has a fraction or an exponent or does not
  fit 64 bits, a double.  The fields of an object are in the order of their
  names, each name once.

  * `Json.ofFields` builds an object from fields in any order, a later field
    replacing an earlier one of its name;
  * `Json.get?` looks a field up.
-/
import DueWork.Number.Double

namespace DueWork

open Number (Double)

/-- A number of a JSON text. -/
inductive Json.Number where
  | integer (n : Int)
  | real (x : Double)
deriving DecidableEq, Repr

/-- A JSON value. -/
inductive Json where
  | null
  | bool (b : Bool)
  | number (n : Json.Number)
  | string (s : String)
  | array (elements : List Json)
  | object (fields : List (String × Json))
deriving Repr, Inhabited

namespace Json

/-! ## Equality -/

mutual
/-- Equality of values is decidable. -/
def eqDec (a b : Json) : Decidable (a = b) :=
  match a, b with
  | .null, .null => .isTrue rfl
  | .bool a, .bool b =>
    if h : a = b then .isTrue (by rw [h]) else .isFalse fun e => h (by injection e)
  | .number a, .number b =>
    if h : a = b then .isTrue (by rw [h]) else .isFalse fun e => h (by injection e)
  | .string a, .string b =>
    if h : a = b then .isTrue (by rw [h]) else .isFalse fun e => h (by injection e)
  | .array a, .array b =>
    match elementsDec a b with
    | .isTrue h => .isTrue (by rw [h])
    | .isFalse h => .isFalse fun e => h (by injection e)
  | .object a, .object b =>
    match fieldsDec a b with
    | .isTrue h => .isTrue (by rw [h])
    | .isFalse h => .isFalse fun e => h (by injection e)
  | .null, .bool _ | .null, .number _ | .null, .string _ | .null, .array _ | .null, .object _
  | .bool _, .null | .bool _, .number _ | .bool _, .string _ | .bool _, .array _
  | .bool _, .object _ | .number _, .null | .number _, .bool _ | .number _, .string _
  | .number _, .array _ | .number _, .object _ | .string _, .null | .string _, .bool _
  | .string _, .number _ | .string _, .array _ | .string _, .object _ | .array _, .null
  | .array _, .bool _ | .array _, .number _ | .array _, .string _ | .array _, .object _
  | .object _, .null | .object _, .bool _ | .object _, .number _ | .object _, .string _
  | .object _, .array _ => .isFalse nofun
termination_by structural a

/-- Equality of lists of values is decidable. -/
def elementsDec (a b : List Json) : Decidable (a = b) :=
  match a, b with
  | [], [] => .isTrue rfl
  | [], _ :: _ | _ :: _, [] => .isFalse nofun
  | a :: as, b :: bs =>
    match eqDec a b, elementsDec as bs with
    | .isTrue h, .isTrue h' => .isTrue (by rw [h, h'])
    | .isFalse h, _ => .isFalse fun e => h (by injection e)
    | _, .isFalse h => .isFalse fun e => h (by injection e)
termination_by structural a

/-- Equality of lists of fields is decidable. -/
def fieldsDec (a b : List (String × Json)) : Decidable (a = b) :=
  match a, b with
  | [], [] => .isTrue rfl
  | [], _ :: _ | _ :: _, [] => .isFalse nofun
  | a :: as, b :: bs =>
    match fieldDec a b, fieldsDec as bs with
    | .isTrue h, .isTrue h' => .isTrue (by rw [h, h'])
    | .isFalse h, _ => .isFalse fun e => h (by injection e)
    | _, .isFalse h => .isFalse fun e => h (by injection e)
termination_by structural a

/-- Equality of fields is decidable. -/
def fieldDec (a b : String × Json) : Decidable (a = b) :=
  match a, b with
  | (s, a), (t, b) =>
    if h : s = t then
      match eqDec a b with
      | .isTrue h' => .isTrue (by rw [h, h'])
      | .isFalse h' => .isFalse fun e => h' (by injection e)
    else .isFalse fun e => h (by injection e)
termination_by structural a
end

instance : DecidableEq Json := eqDec

/-! ## Objects -/

/-- Put a field in its place, replacing one of the same name. -/
def insertField (name : String) (value : Json) : List (String × Json) → List (String × Json)
  | [] => [(name, value)]
  | (n, v) :: rest =>
    if name < n then (name, value) :: (n, v) :: rest
    else if name = n then (name, value) :: rest
    else (n, v) :: insertField name value rest

/-- The object of these fields; of two with one name the later counts. -/
def ofFields (fields : List (String × Json)) : Json :=
  .object (fields.foldl (fun fs (n, v) => insertField n v fs) [])

/-- The field of an object. -/
def get? (j : Json) (name : String) : Option Json :=
  match j with
  | .object fields => fields.lookup name
  | _ => none

def ofInt (n : Int) : Json := .number (.integer n)

def ofNat (n : Nat) : Json := .number (.integer n)

/-- The value, or null. -/
def ofOption {α : Type} (f : α → Json) : Option α → Json
  | some a => f a
  | none => .null

end Json

end DueWork

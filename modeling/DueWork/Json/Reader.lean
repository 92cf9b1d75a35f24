/-
  Reading JSON values from text.

  * `Number.ofText?` reads a number.  An integer of 64 bits is exact; for any
    other number the digits that fit 64 bits are rounded to a double and
    then scaled by a power of ten, each with one rounding, and the rest of
    the digits only counts for the magnitude;
  * `decodeString?` reads a string; half a surrogate pair makes it fail;
  * `Node.value?` reads a tree, nested to a bounded depth;
  * `Json.parse?` reads a whole text.
-/
import DueWork.Json.Node
import DueWork.Json.Value

namespace DueWork.Json

open DueWork.Number (Double)

/-! ## Numbers -/

namespace Number

/-- The digits of a number that fit 64 bits, and the power of ten for the
    rest. -/
structure Digits where
  significand : Nat
  exponent : Int
  /-- a digit was left out -/
  cut : Bool

/-- The largest exponent that is read digit by digit. -/
def maxExponent : Nat := Nat.pow 2 31 - 1

def digitValue (c : Char) : Nat := c.toNat - '0'.toNat

/-- A digit before the point: left out from the first that does not fit. -/
def Digits.integerDigit (d : Digits) (c : Char) : Digits :=
  if d.cut then { d with exponent := d.exponent + 1 }
  else
    let n := d.significand * 10 + digitValue c
    if n < Nat.pow 2 64 then { d with significand := n } else ⟨d.significand, d.exponent + 1, true⟩

/-- A digit after the point; `cut` now says whether one of these was left out. -/
def Digits.fractionDigit (d : Digits) (c : Char) : Digits :=
  if d.cut then d
  else
    let n := d.significand * 10 + digitValue c
    if n < Nat.pow 2 64 then ⟨n, d.exponent - 1, false⟩ else { d with cut := true }

/-- Powers of ten up to this one are doubles. -/
def maxPower : Nat := 308

/-- `10 ^ n` as a double. -/
def power (n : Nat) : Double := Double.ofDecimal false 1 n

/-- `f / 10 ^ n`, in steps of at most `maxPower`. -/
def scaleDown (f : Double) (n : Nat) : Double :=
  if n ≤ maxPower then f.div (power n)
  else if f = Double.zero false then f
  else scaleDown (f.div (power maxPower)) (n - maxPower)
termination_by n
decreasing_by simp only [maxPower] at *; omega

/-- The significand scaled by the power of ten, unless that is out of range. -/
def scaled? (significand : Nat) (exponent : Int) : Option Double :=
  let f := Double.ofNat significand
  if exponent < 0 then some (scaleDown f (-exponent).toNat)
  else if exponent ≤ maxPower then
    let r := f.mul (power exponent.toNat)
    if r = Double.infinity false then none else some r
  else if significand = 0 then some f
  else none

/-- The double of these digits and a written exponent. -/
def real? (negative : Bool) (d : Digits) (expNegative : Bool) (exp : List Char) : Option Number :=
  let n := exp.foldl (fun n c => 10 * n + digitValue c) 0
  let magnitude : Option Double :=
    if n > maxExponent then
      if d.significand ≠ 0 ∧ ¬expNegative then none else some (Double.zero false)
    else scaled? d.significand (if expNegative then d.exponent - n else d.exponent + n)
  magnitude.map fun x => .real (if negative then x.neg else x)

/-- A number after the digits before and after its point. -/
def ofParts? (negative : Bool) (d : Digits) (plain : Bool) : List Char → Option Number
  | [] =>
    if plain && !d.cut then
      if !negative then some (.integer d.significand)
      else if d.significand = 0 ∨ d.significand > Nat.pow 2 63 then
        some (.real (Double.ofNat d.significand).neg)
      else some (.integer (-d.significand))
    else (scaled? d.significand d.exponent).map fun x => .real (if negative then x.neg else x)
  | _ :: '-' :: exp => real? negative d true exp
  | _ :: '+' :: exp => real? negative d false exp
  | _ :: exp => real? negative d false exp

/-- A number of the JSON grammar without its sign. -/
def ofUnsigned? (negative : Bool) (cs : List Char) : Option Number :=
  let whole := (cs.takeWhile Char.isDigit).foldl Digits.integerDigit ⟨0, 0, false⟩
  match cs.dropWhile Char.isDigit with
  | '.' :: rest =>
    let d := (rest.takeWhile Char.isDigit).foldl Digits.fractionDigit { whole with cut := false }
    ofParts? negative d false (rest.dropWhile Char.isDigit)
  | rest => ofParts? negative whole true rest

/-- The number that a number of the JSON grammar spells, if it is in range. -/
def ofText? (s : String) : Option Number :=
  match s.toList with
  | '-' :: cs => ofUnsigned? true cs
  | cs => ofUnsigned? false cs

end Number

/-! ## Strings -/

def hexValue (c : Char) : Nat :=
  if c.isDigit then c.toNat - '0'.toNat
  else if 'a' ≤ c then c.toNat - 'a'.toNat + 10
  else c.toNat - 'A'.toNat + 10

def hexNumber (a b c d : Char) : Nat :=
  ((hexValue a * 16 + hexValue b) * 16 + hexValue c) * 16 + hexValue d

/-- The character of an escape of one letter. -/
def escaped : Char → Char
  | 'b' => '\x08'
  | 'f' => '\x0c'
  | 'n' => '\n'
  | 'r' => '\r'
  | 't' => '\t'
  | c => c

/-- The characters that the text between two quotes stands for. -/
def decodeChars? : List Char → Option (List Char)
  | [] => some []
  | '\\' :: 'u' :: a :: b :: c :: d :: rest =>
    let n := hexNumber a b c d
    if 0xDC00 ≤ n ∧ n < 0xE000 then none
    else if 0xD800 ≤ n ∧ n < 0xDC00 then
      match rest with
      | '\\' :: 'u' :: a' :: b' :: c' :: d' :: rest' =>
        let m := hexNumber a' b' c' d'
        if 0xDC00 ≤ m ∧ m < 0xE000 then
          (decodeChars? rest').map (Char.ofNat (0x10000 + (n - 0xD800) * 0x400 + (m - 0xDC00)) :: ·)
        else none
      | _ => none
    else (decodeChars? rest).map (Char.ofNat n :: ·)
  | '\\' :: c :: rest => (decodeChars? rest).map (escaped c :: ·)
  | c :: rest => (decodeChars? rest).map (c :: ·)

/-- `decodeChars?` as a string. -/
def decodeString? (raw : List Char) : Option String := (decodeChars? raw).map String.ofList

/-! ## Values -/

/-- Nesting beyond this depth is refused. -/
def maxDepth : Nat := 127

namespace Node

mutual
/-- The value of a tree that is nested at most `depth` deep. -/
def value? (depth : Nat) : Node → Option Json
  | .null => some .null
  | .bool b => some (.bool b)
  | .number t => (Number.ofText? t).map .number
  | .string r => (decodeString? r).map .string
  | .array es => if depth = 0 then none else (elements? (depth - 1) es).map .array
  | .object fs => if depth = 0 then none else (fields? (depth - 1) fs).map ofFields

def elements? (depth : Nat) : List Node → Option (List Json)
  | [] => some []
  | n :: ns => do
    let j ← n.value? depth
    let js ← elements? depth ns
    some (j :: js)

def fields? (depth : Nat) : List (List Char × Node) → Option (List (String × Json))
  | [] => some []
  | f :: fs => do
    let x ← field? depth f
    let xs ← fields? depth fs
    some (x :: xs)

def field? (depth : Nat) : List Char × Node → Option (String × Json)
  | (name, n) => do
    let s ← decodeString? name
    let j ← n.value? depth
    some (s, j)
end

end Node

/-- The value that a text writes. -/
def parse? (s : String) : Option Json := (Node.parse? s).bind (Node.value? maxDepth)

end DueWork.Json

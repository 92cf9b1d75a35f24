/-
  Numbers and truth values as they are written in a property.

  A reader returns the value or says what is wrong with the text.

  * `Numeral.integer` reads an integer of a given range: an optional sign and
    decimal digits; of a wrong character and a number out of range the one
    that is met first from the left is reported;
  * `Numeral.double` reads a decimal number with optional fraction and
    exponent, or the name of infinity or of what is not a number.
-/
import DueWork.Number.Double

namespace DueWork.Number.Numeral

def invalidDigit : String := "invalid digit found in string"
def tooLarge : String := "number too large to fit in target type"
def tooSmall : String := "number too small to fit in target type"
def emptyInteger : String := "cannot parse integer from empty string"
def emptyFloat : String := "cannot parse float from empty string"
def invalidFloat : String := "invalid float literal"
def invalidBoolean : String := "provided string was not `true` or `false`"

def digitValue (c : Char) : Nat := c.toNat - '0'.toNat

/-- The number that digits spell, at most `limit`. -/
def digits (limit : Nat) (overflow : String) : Nat → List Char → Except String Nat
  | n, [] => .ok n
  | n, c :: cs =>
    if !c.isDigit then .error invalidDigit
    else
      let n := 10 * n + digitValue c
      if limit < n then .error overflow else digits limit overflow n cs

/-- A non-empty run of digits. -/
def someDigits (limit : Nat) (overflow : String) (cs : List Char) : Except String Nat :=
  if cs.isEmpty then .error invalidDigit else digits limit overflow 0 cs

/-- An integer from `-low` to `high`; without room below zero a minus sign is
    no part of a number. -/
def integer (low high : Nat) (s : String) : Except String Int :=
  match s.toList with
  | [] => .error emptyInteger
  | '+' :: cs => (someDigits high tooLarge cs).map Int.ofNat
  | '-' :: cs =>
    if low = 0 then .error invalidDigit
    else (someDigits low tooSmall cs).map fun n => -(n : Int)
  | cs => (someDigits high tooLarge cs).map Int.ofNat

/-- A natural number below `Nat.pow 2 width`. -/
def natural (width : Nat) (s : String) : Except String Nat :=
  (integer 0 (Nat.pow 2 width - 1) s).map Int.toNat

/-- An integer of 64 bits. -/
def signed64 (s : String) : Except String Int := integer (Nat.pow 2 63) (Nat.pow 2 63 - 1) s

def boolean (s : String) : Except String Bool :=
  if s = "true" then .ok true else if s = "false" then .ok false else .error invalidBoolean

/-! ## Doubles -/

def value (cs : List Char) : Nat := cs.foldl (fun n c => 10 * n + digitValue c) 0

/-- The exponent after its mark, or zero if there is none. -/
def exponent? : List Char → Option Int
  | [] => some 0
  | e :: cs =>
    if e != 'e' && e != 'E' then none
    else
      let (negative, ds) := match cs with
        | '-' :: ds => (true, ds)
        | '+' :: ds => (false, ds)
        | ds => (false, ds)
      if ds.isEmpty || !ds.all Char.isDigit then none
      else some (if negative then -(value ds : Int) else value ds)

/-- A decimal number without its sign. -/
def decimal? (negative : Bool) (cs : List Char) : Option Double :=
  let whole := cs.takeWhile Char.isDigit
  let rest := cs.dropWhile Char.isDigit
  let (fraction, tail) := match rest with
    | '.' :: after => (after.takeWhile Char.isDigit, after.dropWhile Char.isDigit)
    | _ => ([], rest)
  if whole.isEmpty && fraction.isEmpty then none
  else (exponent? tail).map fun e =>
    Double.ofDecimal negative (value (whole ++ fraction)) (e - fraction.length)

def unsignedDouble? (negative : Bool) (cs : List Char) : Option Double :=
  let lower := String.ofList (cs.map Char.toLower)
  if lower = "inf" ∨ lower = "infinity" then some (Double.infinity negative)
  else if lower = "nan" then some Double.nan
  else decimal? negative cs

def double (s : String) : Except String Double :=
  let read : Option Double := match s.toList with
    | '-' :: cs => unsignedDouble? true cs
    | '+' :: cs => unsignedDouble? false cs
    | cs => unsignedDouble? false cs
  if s.isEmpty then .error emptyFloat
  else match read with
    | some x => .ok x
    | none => .error invalidFloat

end DueWork.Number.Numeral

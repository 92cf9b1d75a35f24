/-
  Binary floating point with 64 bits, in exact arithmetic on naturals.

  A finite double is `m · 2 ^ q` with a significand below `2 ^ 53` and an
  exponent of at least `-1074`; it is kept as its bits.  Every operation is
  the exact one followed by one rounding to the nearest double, a tie going
  to the even significand.

  * `ofRatio` is that rounding for a quotient of naturals;
  * `mul`, `div`, `pow` and `min` are the operations that a backoff needs,
    and `toUInt64` cuts off the fraction and stops at the ends of the range;
  * `ofDecimal` reads a decimal number.
-/

namespace DueWork.Number

/-- A double by its bits: sign, eleven bits of exponent, 52 of significand. -/
structure Double where
  bits : UInt64
deriving DecidableEq, BEq, Repr

namespace Double

/-- What the bits of a double say. -/
inductive Value where
  | nan
  | infinite (negative : Bool)
  /-- `m · 2 ^ q` -/
  | finite (negative : Bool) (m : Nat) (q : Int)
deriving DecidableEq, Repr

/-- The value of a double. -/
def value (x : Double) : Value :=
  let n := x.bits.toNat
  let negative := n / Nat.pow 2 63 == 1
  let exponent : Nat := n / Nat.pow 2 52 % Nat.pow 2 11
  let fraction : Nat := n % Nat.pow 2 52
  if exponent = 2047 then (if fraction = 0 then .infinite negative else .nan)
  else if exponent = 0 then .finite negative fraction (-1074)
  else .finite negative (Nat.pow 2 52 + fraction) ((exponent : Int) - 1075)

def signBit (negative : Bool) : Nat := if negative then Nat.pow 2 63 else 0

def nan : Double := ⟨0x7ff8000000000000⟩

/-- Infinity or its negative. -/
def infinity (negative : Bool) : Double := ⟨.ofNat (signBit negative + 2047 * Nat.pow 2 52)⟩

/-- Zero or negative zero. -/
def zero (negative : Bool) : Double := ⟨.ofNat (signBit negative)⟩

/-- `num / den` to the nearest natural, a tie to the even one. -/
def roundQuotient (num den : Nat) : Nat :=
  let q := num / den
  let twice := 2 * (num % den)
  if twice < den then q else if den < twice then q + 1 else if q % 2 = 0 then q else q + 1

/-- The double with significand `m ≤ 2 ^ 53` and exponent `q ≥ -1074`. -/
def pack (negative : Bool) (m : Nat) (q : Int) : Double :=
  let (m, q) := if m = Nat.pow 2 53 then (Nat.pow 2 52, q + 1) else (m, q)
  if m < Nat.pow 2 52 then ⟨.ofNat (signBit negative + m)⟩
  else if q + 1075 ≥ 2047 then infinity negative
  else ⟨.ofNat (signBit negative + (q + 1075).toNat * Nat.pow 2 52 + (m - Nat.pow 2 52))⟩

/-- Floor of the binary logarithm of `num / den`. -/
def logRatio (num den : Nat) : Int :=
  let guess : Int := (num.log2 : Int) - den.log2
  if num * Nat.pow 2 (-guess).toNat < den * Nat.pow 2 guess.toNat then guess - 1 else guess

/-- The double nearest to `num / den`, of the given sign. -/
def ofRatio (negative : Bool) (num den : Nat) : Double :=
  if num = 0 then zero negative
  else
    let q := max (logRatio num den - 52) (-1074)
    pack negative (roundQuotient (num * Nat.pow 2 (-q).toNat) (den * Nat.pow 2 q.toNat)) q

/-- The double nearest to a natural number. -/
def ofNat (n : Nat) : Double := ofRatio false n 1

/-- The double nearest to `digits · 10 ^ exponent`.  An exponent far beyond
    the range is not computed with. -/
def ofDecimal (negative : Bool) (digits : Nat) (exponent : Int) : Double :=
  let magnitude := exponent + (toString digits).length
  if digits = 0 ∨ magnitude < -400 then zero negative
  else if magnitude > 400 then infinity negative
  else ofRatio negative (digits * Nat.pow 10 exponent.toNat) (Nat.pow 10 (-exponent).toNat)

/-- The double of the other sign. -/
def neg (x : Double) : Double := ⟨x.bits ^^^ 0x8000000000000000⟩

def mul (x y : Double) : Double :=
  match x.value, y.value with
  | .nan, _ | _, .nan => nan
  | .infinite s, .infinite t => infinity (s != t)
  | .infinite s, .finite t m _ | .finite t m _, .infinite s =>
    if m = 0 then nan else infinity (s != t)
  | .finite s m q, .finite t n r =>
    ofRatio (s != t) (m * n * Nat.pow 2 (q + r).toNat) (Nat.pow 2 (-(q + r)).toNat)

def div (x y : Double) : Double :=
  match x.value, y.value with
  | .nan, _ | _, .nan | .infinite _, .infinite _ => nan
  | .infinite s, .finite t _ _ => infinity (s != t)
  | .finite s _ _, .infinite t => zero (s != t)
  | .finite s m q, .finite t n r =>
    if n = 0 then (if m = 0 then nan else infinity (s != t))
    else ofRatio (s != t) (m * Nat.pow 2 (q - r).toNat) (n * Nat.pow 2 (r - q).toNat)

/-- `x ≤ y`; false if either is not a number. -/
def le (x y : Double) : Bool :=
  match x.value, y.value with
  | .nan, _ | _, .nan => false
  | .infinite true, _ | _, .infinite false => true
  | .infinite false, _ | _, .infinite true => false
  | .finite s m q, .finite t n r =>
    let a : Int := m * Nat.pow 2 (q - r).toNat
    let b : Int := n * Nat.pow 2 (r - q).toNat
    (if s then -a else a) ≤ (if t then -b else b)

/-- The lesser of two doubles, or the one that is a number. -/
def min (x y : Double) : Double :=
  match x.value, y.value with
  | .nan, _ => y
  | _, .nan => x
  | _, _ => if x.le y then x else y

/-- Square and multiply from the lowest bit of `n`. -/
def powNat (r a : Double) (n : Nat) : Double :=
  let r := if n % 2 = 1 then r.mul a else r
  if n / 2 = 0 then r else powNat r (a.mul a) (n / 2)
termination_by n
decreasing_by omega

/-- `x ^ n`; for a negative `n` the reciprocal of the positive power. -/
def pow (x : Double) (n : Int) : Double :=
  let one := ofNat 1
  let r := powNat one x n.natAbs
  if n < 0 then one.div r else r

/-- The whole part, at least zero and at most `2 ^ 64 - 1`; zero for what is
    not a number. -/
def toUInt64 (x : Double) : UInt64 :=
  match x.value with
  | .nan | .infinite true | .finite true _ _ => 0
  | .infinite false => .ofNat (Nat.pow 2 64 - 1)
  | .finite false m q =>
    .ofNat (Nat.min (m * Nat.pow 2 q.toNat / Nat.pow 2 (-q).toNat) (Nat.pow 2 64 - 1))

end Double

end DueWork.Number

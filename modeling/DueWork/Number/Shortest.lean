/-
  The shortest decimal that reads back as a given double.

  The reals that round to a double form an interval, whose ends belong to it
  if the significand is even.  On the grid of decimals with `n` significant
  digits the value has two neighbours; the first grid with a neighbour inside
  the interval gives the digits, and of two such neighbours the nearer one,
  at a tie the even one.  Seventeen digits always suffice.

  * `Shortest.find` returns the digits `d` and the exponent `e` of `d · 10 ^ e`;
  * `Double.text` writes the number, positionally from `1e-5` to below `1e16`.
-/
import DueWork.Number.Double

namespace DueWork.Number

namespace Shortest

/-- A positive rational `num / den`. -/
structure Ratio where
  num : Nat
  den : Nat

/-- `n · 2 ^ q` -/
def Ratio.ofBinary (n : Nat) (q : Int) : Ratio := ⟨n * Nat.pow 2 q.toNat, Nat.pow 2 (-q).toNat⟩

/-- `n · 10 ^ e` -/
def Ratio.ofDecimal (n : Nat) (e : Int) : Ratio := ⟨n * Nat.pow 10 e.toNat, Nat.pow 10 (-e).toNat⟩

def Ratio.lt (a b : Ratio) : Bool := a.num * b.den < b.num * a.den
def Ratio.le (a b : Ratio) : Bool := a.num * b.den ≤ b.num * a.den

/-- The interval of reals that round to `m · 2 ^ q`. -/
structure Interval where
  low : Ratio
  high : Ratio
  closed : Bool

def Interval.ofDouble (m : Nat) (q : Int) : Interval where
  low :=
    if m = Nat.pow 2 52 ∧ q > -1074 then .ofBinary (4 * m - 1) (q - 2)
    else .ofBinary (2 * m - 1) (q - 1)
  high := .ofBinary (2 * m + 1) (q - 1)
  closed := m % 2 = 0

def Interval.contains (i : Interval) (x : Ratio) : Bool :=
  if i.closed then i.low.le x && x.le i.high else i.low.lt x && x.lt i.high

/-- The exponent `k` with `10 ^ k ≤ v < 10 ^ (k + 1)`, from a guess that is at
    most `fuel` too large. -/
def magnitude (v : Ratio) : Nat → Int → Int
  | 0, k => k
  | fuel + 1, k => if (Ratio.ofDecimal 1 k).le v then k else magnitude v fuel (k - 1)

/-- The neighbour of `v` on the grid `10 ^ e` that lies in the interval and is
    nearest to `v`. -/
def onGrid (v : Ratio) (i : Interval) (e : Int) : Option Nat :=
  let unit := Ratio.ofDecimal 1 e
  let num := v.num * unit.den
  let den := v.den * unit.num
  let d := num / den
  let below := i.contains (.ofDecimal d e) && d != 0
  let above := i.contains (.ofDecimal (d + 1) e)
  if below && above then some (Double.roundQuotient num den)
  else if below then some d
  else if above then some (d + 1)
  else none

/-- The first of `fuel` grids with a hit, each ten times finer than the last. -/
def search (v : Ratio) (i : Interval) : Nat → Int → Option (Nat × Int)
  | 0, _ => none
  | fuel + 1, e =>
    match onGrid v i e with
    | some d => some (d, e)
    | none => search v i fuel (e - 1)

/-- A number without the zeros at its end, which move to the exponent. -/
def stripZeros : Nat → Nat → Int → Nat × Int
  | 0, d, e => (d, e)
  | fuel + 1, d, e => if d % 10 = 0 then stripZeros fuel (d / 10) (e + 1) else (d, e)

/-- Digits and exponent of the shortest decimal for `m · 2 ^ q`, `m > 0`. -/
def find (m : Nat) (q : Int) : Nat × Int :=
  let v := Ratio.ofBinary m q
  let k := magnitude v 4 ((((m.log2 : Int) + q + 1) * 30103) / 100000 + 1)
  let (d, e) := (search v (.ofDouble m q) 18 k).getD (m, q)
  stripZeros 20 d e

end Shortest

/-- The text of `d · 10 ^ e`: positional with a fraction part if the point
    falls between five places before the digits and sixteen after their
    start, else with an exponent. -/
def decimalText (d : Nat) (e : Int) : String :=
  let digits := (toString d).toList
  let point : Int := digits.length + e
  if 0 ≤ e ∧ point ≤ 16 then String.ofList (digits ++ List.replicate e.toNat '0') ++ ".0"
  else if 0 < point ∧ point ≤ 16 then
    String.ofList (digits.take point.toNat) ++ "." ++ String.ofList (digits.drop point.toNat)
  else if -5 < point ∧ point ≤ 0 then
    "0." ++ String.ofList (List.replicate (-point).toNat '0' ++ digits)
  else
    let exponent := point - 1
    let mantissa := match digits with
      | [c] => String.ofList [c]
      | c :: cs => String.ofList [c] ++ "." ++ String.ofList cs
      | [] => ""
    mantissa ++ "e" ++ (if exponent < 0 then "-" else "+") ++ toString exponent.natAbs

/-- The shortest text that reads back as the double. -/
def Double.text (x : Double) : String :=
  match x.value with
  | .nan => "NaN"
  | .infinite s => if s then "-inf" else "inf"
  | .finite s m q =>
    (if s then "-" else "") ++
      (if m = 0 then "0.0" else
        let (d, e) := Shortest.find m q
        decimalText d e)

end DueWork.Number

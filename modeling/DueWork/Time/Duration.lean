/-
  Lengths of time.

  A duration is a number of nanoseconds whose whole seconds fit 64 bits;
  arithmetic stops at the largest one.

  * `cappedExponential base max n` is the backoff used where no retry budget
    applies (a full pool, a store outage, a suspended partition);
  * `text` writes a duration in the largest unit that is not zero.
-/

namespace DueWork.Time

/-- Nanoseconds in a second. -/
def nanosPerSecond : Nat := 1000000000

/-- The largest duration: as many whole seconds as 64 bits hold, and a
    nanosecond less than one more. -/
def maxDurationNanos : Nat := (Nat.pow 2 64 - 1) * nanosPerSecond + (nanosPerSecond - 1)

/-- A length of time in nanoseconds. -/
structure Duration where
  nanos : Nat
  nanos_le : nanos ≤ maxDurationNanos
deriving DecidableEq, Repr

namespace Duration

/-- `n` nanoseconds, or the largest duration if that is less. -/
def ofNanos (n : Nat) : Duration := ⟨min n maxDurationNanos, Nat.min_le_right ..⟩

def zero : Duration := ofNanos 0

def ofMillis (ms : Nat) : Duration := ofNanos (ms * 1000000)

def ofSeconds (s : Nat) : Duration := ofNanos (s * nanosPerSecond)

/-- The whole seconds of a duration. -/
def seconds (d : Duration) : Nat := d.nanos / nanosPerSecond

/-- The nanoseconds beyond the whole seconds. -/
def subsecNanos (d : Duration) : Nat := d.nanos % nanosPerSecond

instance : LE Duration := ⟨fun a b => a.nanos ≤ b.nanos⟩
instance : LT Duration := ⟨fun a b => a.nanos < b.nanos⟩
instance (a b : Duration) : Decidable (a ≤ b) := inferInstanceAs (Decidable (a.nanos ≤ b.nanos))
instance (a b : Duration) : Decidable (a < b) := inferInstanceAs (Decidable (a.nanos < b.nanos))
instance : Min Duration := ⟨fun a b => if a ≤ b then a else b⟩

/-- `k` times the duration, at most the largest one. -/
def scale (d : Duration) (k : Nat) : Duration := ofNanos (d.nanos * k)

/-- Doublings beyond this many no longer lengthen a backoff. -/
def maxDoublings : Nat := 16

/-- `base` doubled `attempt` times, at most `max`. -/
def cappedExponential (base max : Duration) (attempt : UInt32) : Duration :=
  min (base.scale (Nat.pow 2 (min attempt.toNat maxDoublings))) max

/-- One more in a row, as far as 32 bits count. -/
def nextCount (n : UInt32) : UInt32 := if n.toNat + 1 < Nat.pow 2 32 then n + 1 else n

/-! ## Text -/

/-- Decimal digits of a fraction of `width` places, without zeros at its end. -/
def fractionDigits (width n : Nat) : List Char :=
  let digits := (toString n).toList
  let padded := List.replicate (width - digits.length) '0' ++ digits
  (padded.reverse.dropWhile (· == '0')).reverse

/-- A whole number and its fraction of `width` places. -/
def decimal (width whole fraction : Nat) : String :=
  match fractionDigits width fraction with
  | [] => toString whole
  | digits => toString whole ++ "." ++ String.ofList digits

/-- The duration in the largest unit that is not zero, exactly: `1.5s`, `20ms`. -/
def text (d : Duration) : String :=
  if d.nanos ≥ 1000000000 then decimal 9 (d.nanos / 1000000000) (d.nanos % 1000000000) ++ "s"
  else if d.nanos ≥ 1000000 then decimal 6 (d.nanos / 1000000) (d.nanos % 1000000) ++ "ms"
  else if d.nanos ≥ 1000 then decimal 3 (d.nanos / 1000) (d.nanos % 1000) ++ "µs"
  else toString d.nanos ++ "ns"

end Duration

end DueWork.Time

/-
  Instants: points of UTC with nanosecond precision.

  An instant counts whole seconds from the epoch and nanoseconds within the
  second.  A leap second is the second before it with a nanosecond count of
  one second or more, so instants are ordered by second first and nanosecond
  second.  The calendar ends at the years -262143 and 262142.

  * `toMillis` rounds down to the millisecond, `dueMillis` rounds up: a due
    time stored in milliseconds is never early;
  * `ofMillis` reads milliseconds back, and takes the nearer end of the
    calendar for what lies outside it;
  * `plus` adds a delay and stops at the last instant.
-/
import DueWork.Time.Calendar
import DueWork.Time.Duration

namespace DueWork.Time

/-- 1 January of the year -262143. -/
def minSeconds : Int := -8334601228800

/-- The last second of the year 262142. -/
def maxSeconds : Int := 8210266876799

/-- A point of time: seconds since the epoch and nanoseconds within the
    second, which run over a second in a leap second. -/
structure Instant where
  seconds : Int
  nanos : Nat
  le_seconds : minSeconds ≤ seconds
  seconds_le : seconds ≤ maxSeconds
  nanos_lt : nanos < 2 * nanosPerSecond
deriving DecidableEq, Repr

namespace Instant

/-- The instant of these seconds and nanoseconds, if the calendar has it. -/
def of? (seconds : Int) (nanos : Nat) : Option Instant :=
  if h : minSeconds ≤ seconds ∧ seconds ≤ maxSeconds ∧ nanos < 2 * nanosPerSecond then
    some ⟨seconds, nanos, h.1, h.2.1, h.2.2⟩
  else none

/-- The first instant of the calendar. -/
def first : Instant := ⟨minSeconds, 0, by decide, by decide, by decide⟩

/-- The last instant of the calendar that is not in a leap second. -/
def last : Instant := ⟨maxSeconds, nanosPerSecond - 1, by decide, by decide, by decide⟩

/-- The epoch. -/
def epoch : Instant := ⟨0, 0, by decide, by decide, by decide⟩

/-- In a leap second. -/
def IsLeap (t : Instant) : Prop := nanosPerSecond ≤ t.nanos

instance (t : Instant) : Decidable t.IsLeap := inferInstanceAs (Decidable (_ ≤ _))

/-! ## Order -/

instance : LT Instant :=
  ⟨fun a b => a.seconds < b.seconds ∨ (a.seconds = b.seconds ∧ a.nanos < b.nanos)⟩

instance : LE Instant :=
  ⟨fun a b => a.seconds < b.seconds ∨ (a.seconds = b.seconds ∧ a.nanos ≤ b.nanos)⟩

instance (a b : Instant) : Decidable (a < b) := inferInstanceAs (Decidable (_ ∨ _))
instance (a b : Instant) : Decidable (a ≤ b) := inferInstanceAs (Decidable (_ ∨ _))
instance : Min Instant := ⟨fun a b => if a ≤ b then a else b⟩

theorem lt_def {a b : Instant} :
    a < b ↔ a.seconds < b.seconds ∨ (a.seconds = b.seconds ∧ a.nanos < b.nanos) := Iff.rfl

theorem le_def {a b : Instant} :
    a ≤ b ↔ a.seconds < b.seconds ∨ (a.seconds = b.seconds ∧ a.nanos ≤ b.nanos) := Iff.rfl

protected theorem le_refl (a : Instant) : a ≤ a := Or.inr ⟨rfl, Nat.le_refl _⟩

protected theorem le_trans {a b c : Instant} (h₁ : a ≤ b) (h₂ : b ≤ c) : a ≤ c := by
  rw [le_def] at *; omega

protected theorem le_antisymm {a b : Instant} (h₁ : a ≤ b) (h₂ : b ≤ a) : a = b := by
  rw [le_def] at *
  cases a; cases b
  simp only [mk.injEq] at *
  omega

protected theorem le_total (a b : Instant) : a ≤ b ∨ b ≤ a := by
  rw [le_def, le_def]; omega

protected theorem not_le {a b : Instant} : ¬a ≤ b ↔ b < a := by
  rw [le_def, lt_def]; omega

/-! ## Milliseconds -/

/-- Milliseconds since the epoch, rounded down. -/
def toMillis (t : Instant) : Int := t.seconds * 1000 + (t.nanos / 1000000 : Nat)

/-- Milliseconds since the epoch, rounded up: a due time in this form is
    never before the due time itself. -/
def dueMillis (t : Instant) : Int :=
  if t.nanos % 1000000 = 0 then t.toMillis else t.toMillis + 1

/-- The instant of a millisecond count, or the nearer end of the calendar. -/
def ofMillis (ms : Int) : Instant :=
  match of? (ms / 1000) ((ms % 1000).toNat * 1000000) with
  | some t => t
  | none => if ms < 0 then first else last

/-! ## Delays -/

/-- Add a delay.  A leap second is left for the second that it precedes when
    the delay reaches beyond it. -/
def plus? (t : Instant) (d : Duration) : Option Instant :=
  if nanosPerSecond ≤ t.nanos ∧ d.seconds = 0 ∧ t.nanos + d.subsecNanos < 2 * nanosPerSecond then
    of? t.seconds (t.nanos + d.subsecNanos)
  else
    let n := t.nanos % nanosPerSecond + d.subsecNanos
    of? (t.seconds + d.seconds + (n / nanosPerSecond : Nat)) (n % nanosPerSecond)

/-- Add a delay, stopping at the last instant. -/
def plus (t : Instant) (d : Duration) : Instant := (t.plus? d).getD last

/-- Nanoseconds since the epoch. -/
def toNanos (t : Instant) : Int := t.seconds * nanosPerSecond + t.nanos

/-- Go back by a duration, stopping at the first instant. -/
def minus (t : Instant) (d : Duration) : Instant :=
  let n := t.toNanos - d.nanos
  (of? (n / nanosPerSecond) (n % nanosPerSecond).toNat).getD first

/-- The second of the day. -/
def secondOfDay (t : Instant) : Int := t.seconds % 86400

/-- Nanoseconds from one instant to another.  By the time of day, a leap second
    that lies between the two counts. -/
def nanosSince (t since : Instant) : Int :=
  let leap : Int :=
    if since.secondOfDay < t.secondOfDay ∧ since.IsLeap then 1
    else if t.secondOfDay < since.secondOfDay ∧ t.IsLeap then -1
    else 0
  t.toNanos - since.toNanos + leap * nanosPerSecond

/-- How long after `now` the instant comes: nothing if it has passed. -/
def delayFrom (due now : Instant) : Duration := .ofNanos (due.nanosSince now).toNat

end Instant

end DueWork.Time

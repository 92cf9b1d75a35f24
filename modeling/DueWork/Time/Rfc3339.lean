/-
  Timestamps as text.

  Written: `2001-01-01T00:00:00.250Z`, with as few groups of three fraction
  digits as are exact.  A year outside 0 to 9999 carries its sign, and a leap
  second is written as second 60.

  Read: the same with some freedom.  The day and the time may be separated by
  `T`, `t` or a blank, fields may have a single digit and blanks before them,
  a fraction may have any number of digits (those after the ninth are
  dropped), and the offset may be `Z`, `UTC`, or hours and minutes with or
  without a colon.
-/
import DueWork.Text.Blank
import DueWork.Time.Instant

namespace DueWork.Time

open DueWork.Text

/-! ## Writing -/

/-- A number with at least `width` digits. -/
def padded (width n : Nat) : String :=
  let digits := toString n
  String.ofList (List.replicate (width - digits.length) '0') ++ digits

/-- Four digits, with a sign before and five or more in years that need them. -/
def yearText (year : Int) : String :=
  if 0 ≤ year ∧ year ≤ 9999 then padded 4 year.toNat
  else if year < 0 then "-" ++ padded 4 (-year).toNat
  else "+" ++ padded 4 year.toNat

/-- The fraction of a second in no, three, six or nine digits. -/
def fractionText (nanos : Nat) : String :=
  if nanos = 0 then ""
  else if nanos % 1000000 = 0 then "." ++ padded 3 (nanos / 1000000)
  else if nanos % 1000 = 0 then "." ++ padded 6 (nanos / 1000)
  else "." ++ padded 9 nanos

/-- The text of a date. -/
def Date.text (d : Date) : String :=
  yearText d.year ++ "-" ++ padded 2 d.month ++ "-" ++ padded 2 d.day

namespace Instant

/-- Seconds in a day. -/
def secondsPerDay : Int := 86400

/-- The day of an instant, in UTC. -/
def date (t : Instant) : Date := .ofDays (t.seconds / secondsPerDay)

/-- Day and time, without an offset. -/
def localText (t : Instant) : String :=
  let s := (t.seconds % secondsPerDay).toNat
  t.date.text ++ "T" ++ padded 2 (s / 3600) ++ ":" ++ padded 2 (s / 60 % 60) ++ ":" ++
    padded 2 (s % 60 + t.nanos / nanosPerSecond) ++ fractionText (t.nanos % nanosPerSecond)

/-- The instant with the offset written `Z`. -/
def text (t : Instant) : String := t.localText ++ "Z"

/-- The instant with the offset written `+00:00`. -/
def textWithOffset (t : Instant) : String := t.localText ++ "+00:00"

end Instant

/-! ## Reading -/

namespace Reader

/-- A reader of the start of a text: what it read and the rest. -/
abbrev Step (α : Type) := List Char → Option (α × List Char)

def digitValue (c : Char) : Nat := c.toNat - '0'.toNat

/-- The longest run of at most `max` digits. -/
def takeDigits : Nat → List Char → List Char × List Char
  | 0, cs => ([], cs)
  | _, [] => ([], [])
  | n + 1, c :: cs =>
    if c.isDigit then
      let (ds, rest) := takeDigits n cs
      (c :: ds, rest)
    else ([], c :: cs)

/-- The number that digits spell. -/
def ofDigits (ds : List Char) : Nat := ds.foldl (fun n c => 10 * n + digitValue c) 0

/-- A number of one to `max` digits. -/
def number (max : Nat) : Step Nat := fun cs =>
  match takeDigits max cs with
  | ([], _) => none
  | (ds, rest) => some (ofDigits ds, rest)

/-- A number of one to `max` digits after blanks. -/
def field (max : Nat) : Step Nat := fun cs => number max (trimStartChars cs)

/-- The character `c`, after blanks. -/
def mark (c : Char) : Step Unit := fun cs =>
  match trimStartChars cs with
  | x :: rest => if x = c then some ((), rest) else none
  | [] => none

/-- A year: four digits, or a sign and any number of them. -/
def year : Step Int := fun cs =>
  match trimStartChars cs with
  | '-' :: rest => (number rest.length rest).map fun (n, rest) => (-(n : Int), rest)
  | '+' :: rest => (number rest.length rest).map fun (n, rest) => ((n : Int), rest)
  | cs => (number 4 cs).map fun (n, rest) => ((n : Int), rest)

/-- The mark between day and time. -/
def dayTimeMark : Step Unit
  | 'T' :: rest | 't' :: rest | ' ' :: rest => some ((), rest)
  | _ => none

/-- A fraction of a second in nanoseconds; zero if there is none. -/
def fraction : Step Nat
  | '.' :: cs =>
    match takeDigits 9 cs with
    | ([], _) => none
    | (ds, rest) => some (ofDigits ds * Nat.pow 10 (9 - ds.length), rest.dropWhile Char.isDigit)
  | cs => some (0, cs)

/-- Hours and minutes of an offset, in seconds. -/
def offsetAmount : Step Int
  | h₁ :: h₂ :: cs =>
    if h₁.isDigit && h₂.isDigit then
      match cs.dropWhile fun c => c == ':' || isBlank c with
      | m₁ :: m₂ :: rest =>
        if m₁.isDigit && m₂.isDigit && digitValue m₁ < 6 then
          some (((10 * digitValue h₁ + digitValue h₂) * 3600 +
            (10 * digitValue m₁ + digitValue m₂) * 60 : Nat), rest)
        else none
      | _ => none
    else none
  | _ => none

/-- The offset from UTC in seconds. -/
def offset : Step Int
  | 'Z' :: rest | 'z' :: rest => some (0, rest)
  | '+' :: rest => offsetAmount rest
  | '-' :: rest | '−' :: rest => (offsetAmount rest).map fun (n, rest) => (-n, rest)
  | u :: t :: c :: rest =>
    if u.toUpper = 'U' ∧ t.toUpper = 'T' ∧ c.toUpper = 'C' then some (0, rest) else none
  | _ => none

end Reader

open Reader

/-- The instant of these fields at an offset from UTC, if they are a time of
    day on a day of the calendar. -/
def instantOf? (date : Date) (hour minute second nanos : Nat) (offset : Int) : Option Instant :=
  if date.IsValid ∧ -262143 ≤ date.year ∧ date.year ≤ 262142 ∧ hour ≤ 23 ∧ minute ≤ 59 ∧
      second ≤ 60 ∧ offset.natAbs < 86400 then
    let leap := second = 60
    let s : Int := date.toDays * Instant.secondsPerDay + hour * 3600 + minute * 60 +
      (if leap then 59 else second) - offset
    Instant.of? s (nanos + if leap then nanosPerSecond else 0)
  else none

/-- The instant that a text names. -/
def Instant.parse? (s : String) : Option Instant := do
  let (y, cs) ← year s.toList
  let ((), cs) ← mark '-' cs
  let (m, cs) ← field 2 cs
  let ((), cs) ← mark '-' cs
  let (d, cs) ← field 2 cs
  let ((), cs) ← dayTimeMark cs
  let (hour, cs) ← field 2 cs
  let ((), cs) ← mark ':' cs
  let (minute, cs) ← field 2 cs
  let ((), cs) ← mark ':' cs
  let (second, cs) ← field 2 cs
  let (nanos, cs) ← fraction cs
  let (off, cs) ← offset (trimStartChars cs)
  if trimStartChars cs = [] then instantOf? ⟨y, m, d⟩ hour minute second nanos off else none

end DueWork.Time

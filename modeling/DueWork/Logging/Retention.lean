/-
  Log files and how long they are kept.

  A file is named for its day, `notify-scheduler.log.2001-02-03`.  Files of
  days longer ago than the retention are deleted; a name that does not end in
  a day, and a directory, are left alone.
-/
import DueWork.Time.Rfc3339

namespace DueWork.Logging

open Time

/-- What the names of log files begin with. -/
def fileStem : String := "notify-scheduler.log"

/-- The days that log files are kept. -/
def retentionDays : Int := 7

/-- The name of the log file of a day. -/
def fileName (day : Date) : String := fileStem ++ "." ++ day.text

/-- The character `c`, without blanks before it. -/
def exactMark (c : Char) : Reader.Step Unit
  | x :: rest => if x = c then some ((), rest) else none
  | [] => none

/-- The day that a text names: year, month and day, each of which may have
    blanks before it. -/
def readDay? (cs : List Char) : Option Date := do
  let (year, cs) ← Reader.year cs
  let (_, cs) ← exactMark '-' cs
  let (month, cs) ← Reader.field 2 cs
  let (_, cs) ← exactMark '-' cs
  let (day, cs) ← Reader.field 2 cs
  let d : Date := ⟨year, month, day⟩
  if cs.isEmpty ∧ d.IsValid ∧ -262143 ≤ year ∧ year ≤ 262142 then some d else none

/-- The day in the name of a log file. -/
def fileDay? (name : String) : Option Date :=
  let stem := (fileStem ++ ".").toList
  if stem.isPrefixOf name.toList then readDay? (name.toList.drop stem.length) else none

/-- A file whose day is more than `retention` days before `today`. -/
def isExpired (today retention : Int) (name : String) : Bool :=
  (fileDay? name).any fun d => d.toDays < today - retention

/-- An entry of a directory. -/
structure Entry where
  name : String
  isDirectory : Bool := false
deriving DecidableEq, Repr

/-- The entries that a cleanup on day `today` deletes. -/
def expired (today retention : Int) (entries : List Entry) : List Entry :=
  entries.filter fun e => !e.isDirectory && isExpired today retention e.name

end DueWork.Logging

/-
  The subscriber that writes the events of a process.

  A process has at most one subscriber.  It writes to the console, and to a
  daily file as well if a directory is given; a directory that cannot be made
  is found before anything is installed.
-/
import DueWork.Error
import DueWork.Logging.Filter

namespace DueWork.Logging

/-- An event: its target and its level. -/
structure LogEvent where
  target : String
  level : Level
deriving DecidableEq, Repr

/-- The directory that log files are to go to. -/
inductive Directory where
  /-- none is configured -/
  | absent
  | usable
  /-- it cannot be made -/
  | blocked
deriving DecidableEq, Repr

structure Subscriber where
  filter : Filter
  /-- events are written to a file as well -/
  hasFile : Bool
deriving DecidableEq, Repr

namespace Subscriber

/-- Install a subscriber where `installed` is the one there is, with the
    filter that a variable holds. -/
def install (installed : Option Subscriber) (value : Option String) (d : Directory) :
    Except Error Subscriber :=
  if d = .blocked then .error (.io "the log directory cannot be made")
  else if installed.isSome then
    .error (.other ("Failed to set global default subscriber: " ++
      "a global default trace dispatcher has already been set"))
  else .ok ⟨.ofVariable value, d = .usable⟩

/-- The events that a subscriber writes. -/
def written (s : Subscriber) (events : List LogEvent) : List LogEvent :=
  events.filter fun e => s.filter.allows e.target e.level

end Subscriber

end DueWork.Logging

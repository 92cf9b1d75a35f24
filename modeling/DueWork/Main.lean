/-
  The command: starts the service and shuts it down when its input ends.

  The log goes to standard output, and the reason why the service does not
  start to standard error.
-/
import DueWork.Service

namespace DueWork

/-- The contents of a file that may be missing. -/
def readIfThere (path : String) : IO (Option String) := do
  try
    let text ← IO.FS.readFile path
    return some text
  catch _ => return none

/-- The variables in a list with a zero character after each. -/
def readVariables (text : String) : List (String × String) :=
  (Text.split '\x00' text.toList).filterMap fun cs =>
    (Text.cutAt '=' cs).map fun (name, value) => (String.ofList name, String.ofList value)

/-- Run the service until its input ends. -/
def runService : IO UInt32 := do
  let process := readVariables ((← readIfThere "/proc/self/environ").getD "")
  let file ← readIfThere ".env"
  let service := Service.start .epoch process file
  service.log.forM IO.println
  match service.run with
  | .error e =>
    IO.eprintln ("Error: " ++ e.message)
    return 1
  | .ok r =>
    let _ ← (← IO.getStdin).getLine
    (Service.stop (Service.environment process file) r).forM IO.println
    return 0

end DueWork

def main : IO UInt32 := DueWork.runService

/-
  Configuration sources: properties by key.

  A value that is blank counts as absent.  A value that cannot be read is an
  error that names the value, the key and what is wrong.

  * `Source.ofList` takes properties from a list, `Environment.source` from
    environment variables, whose names are the keys in capitals;
  * `getD` and `require` read one value, `list` a comma separated list.
-/
import DueWork.Error
import DueWork.Text.Blank

namespace DueWork

/-- Properties by key. -/
structure Source where
  property? : String → Option String

namespace Source

variable {α : Type}

/-- The properties of a list; of two with one key the later counts. -/
def ofList (properties : List (String × String)) : Source :=
  ⟨fun key => properties.reverse.lookup key⟩

/-- The trimmed value of a key, unless it is blank. -/
def nonBlank? (s : Source) (key : String) : Option String :=
  (s.property? key).bind fun raw =>
    let value := Text.trim raw
    if value.isEmpty then none else some value

/-- Read a value with a reader that says what is wrong. -/
def readValue (read : String → Except String α) (key raw : String) : Except Error α :=
  match read raw with
  | .ok a => .ok a
  | .error problem =>
    .error (.configuration ("invalid value '" ++ raw ++ "' for '" ++ key ++ "': " ++ problem))

/-- The value of a key, or a default if it is absent. -/
def getD (s : Source) (read : String → Except String α) (key : String) (default : α) :
    Except Error α :=
  match s.nonBlank? key with
  | some raw => readValue read key raw
  | none => .ok default

/-- The value of a key that has to be there. -/
def require (s : Source) (read : String → Except String α) (key : String) : Except Error α :=
  match s.nonBlank? key with
  | some raw => readValue read key raw
  | none => .error (.configuration ("missing required property '" ++ key ++ "'"))

/-- The elements of a comma separated list, none if the key is absent. -/
def list (s : Source) (key : String) : List String :=
  ((s.property? key).map (Text.splitList ',')).getD []

end Source

/-- The text itself is the value. -/
def readText (s : String) : Except String String := .ok s

/-! ## Environment variables -/

namespace Environment

/-- Variables of the service start with this. -/
def defaultStem : String := "NOTIFY_"

/-- The variable of a key: letters in capitals, all but letters and digits
    replaced by underscores. -/
def variableName (stem key : String) : String :=
  stem ++ key.map fun c => if c.isAlphanum then c.toUpper else '_'

/-- The properties that a list of variables holds. -/
def source (stem : String) (vars : List (String × String)) : Source :=
  ⟨fun key => vars.reverse.lookup (variableName stem key)⟩

end Environment

end DueWork

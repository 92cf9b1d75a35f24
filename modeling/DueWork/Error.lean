/-
  What can go wrong.

  An error names its cause and what the cause is about; its wording is in one
  place, `Error.message`.  Configuration errors are the ones that keep a
  service from starting.
-/

namespace DueWork

/-- Why a database refused or lost a statement. -/
inductive QueryFailure where
  /-- the database answered with an error -/
  | refused (code : Option String) (message : String)
  /-- the answer could not be understood -/
  | garbled (message : String)
  /-- a row that has to exist does not -/
  | noRow
deriving DecidableEq, Repr

/-- The wording of a query failure. -/
def QueryFailure.message : QueryFailure → String
  | .refused _ m => "error returned from database: " ++ m
  | .garbled m => "encountered unexpected or invalid data: " ++ m
  | .noRow => "no rows returned by a query that expected to return at least one row"

/-- A failure of the scheduler or of something that it depends on. -/
inductive Error where
  | query (failure : QueryFailure)
  | migration (text : String)
  | database (text : String)
  | serialization (text : String)
  | invalidTransition (source target : String)
  | notFound (entity id : String)
  | validation (text : String)
  | configuration (text : String)
  | io (text : String)
  | http (text : String)
  | scheduler (text : String)
  | other (text : String)
deriving DecidableEq, Repr

namespace Error

/-- The wording of an error. -/
def message : Error → String
  | query f => "Database error: " ++ f.message
  | migration t => "Migration error: " ++ t
  | database t => "Database error: " ++ t
  | serialization t => "Serialization error: " ++ t
  | invalidTransition source target =>
    "Invalid state transition: cannot transition from " ++ source ++ " to " ++ target
  | notFound entity id => "Entity not found: " ++ entity ++ " with id " ++ id
  | validation t => "Validation error: " ++ t
  | configuration t => "Configuration error: " ++ t
  | io t => "IO error: " ++ t
  | http t => "HTTP error: " ++ t
  | scheduler t => "Scheduler error: " ++ t
  | other t => t

/-- Errors that are fatal at startup. -/
def isConfiguration : Error → Bool
  | configuration _ => true
  | _ => false

end Error

end DueWork

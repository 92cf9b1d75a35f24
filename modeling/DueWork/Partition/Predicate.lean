/-
  Partition predicates: conjunctions of clauses `attribute = value`.

  * `Predicate.accepts` evaluates a predicate on attributes;
  * `Predicate.isSatisfiable` and `Predicate.isDisjointFrom` decide from the
    clauses alone whether some attributes match, and whether none match both;
  * `Predicate.parse` reads `attr=value;attr=value`.
-/
import DueWork.Error
import DueWork.Job.Attributes
import DueWork.Text.Blank
import DueWork.Text.Identifier

namespace DueWork

/-- One clause `name = value`: an attribute and the value it has to have. -/
structure Clause where
  name : String
  value : String
deriving DecidableEq, Repr

/-- The clause holds of these attributes. -/
def Clause.holds (c : Clause) (a : Attributes) : Bool := a.get? c.name == some c.value

/-- Two clauses that want different values of one attribute. -/
def Clause.contradicts (c d : Clause) : Bool := c.name == d.name && c.value != d.value

/-- A conjunction of clauses; without a clause it matches everything. -/
structure Predicate where
  clauses : List Clause
deriving DecidableEq, Repr

/-- The identifier that a name of this kind has to be. -/
def requireIdentifier (kind name : String) : Except Error Unit :=
  if Text.isIdentifier name then .ok ()
  else .error (.configuration (kind ++ " '" ++ name ++ "' is not a valid identifier"))

namespace Predicate

/-- The predicate that matches everything. -/
def all : Predicate := ⟨[]⟩

/-- One more clause, unless it is there already. -/
def and (p : Predicate) (name value : String) : Predicate :=
  let c : Clause := ⟨name, value⟩
  if p.clauses.contains c then p else ⟨p.clauses ++ [c]⟩

/-- Every clause holds of these attributes. -/
def accepts (p : Predicate) (a : Attributes) : Bool := p.clauses.all (·.holds a)

/-- No two clauses of a list contradict each other. -/
def consistent : List Clause → Bool
  | [] => true
  | c :: cs => !cs.any c.contradicts && consistent cs

/-- No two clauses contradict each other. -/
def isSatisfiable (p : Predicate) : Bool := consistent p.clauses

/-- One of the two contradicts itself, or a clause of one contradicts a clause
    of the other. -/
def isDisjointFrom (p q : Predicate) : Bool :=
  !p.isSatisfiable || !q.isSatisfiable ||
    p.clauses.any fun c => q.clauses.any c.contradicts

/-- The clauses joined by `AND`, or `<all>`. -/
def text (p : Predicate) : String :=
  if p.clauses.isEmpty then "<all>"
  else String.intercalate " AND " (p.clauses.map fun c => c.name ++ " = '" ++ c.value ++ "'")

/-- Read one clause `attr=value` and add it. -/
def addClause (p : Predicate) (part : String) : Except Error Predicate :=
  match Text.cutAt '=' part.toList with
  | none =>
    .error (.configuration ("predicate clause '" ++ part ++ "' is not of the form attr=value"))
  | some (before, after) => do
    let name := String.ofList (Text.trimChars before)
    requireIdentifier "predicate attribute" name
    .ok (p.and name (String.ofList (Text.trimChars after)))

/-- Read clauses separated by semicolons; blank parts count for nothing. -/
def parse (s : String) : Except Error Predicate :=
  (Text.splitList ';' s).foldlM addClause all

end Predicate

end DueWork

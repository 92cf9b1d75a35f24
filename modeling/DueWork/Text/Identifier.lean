/-
  Identifiers: the names that may stand in a store query.

  Instance types and attributes become table and column names, so they are
  held to ASCII letters, digits and underscores, not starting with a digit.
-/

namespace DueWork.Text

/-- The class `[A-Za-z_]`. -/
def isIdentifierStart (c : Char) : Bool := c.isAlpha || c == '_'

/-- The class `[A-Za-z0-9_]`. -/
def isIdentifierRest (c : Char) : Bool := c.isAlphanum || c == '_'

/-- `[A-Za-z_][A-Za-z0-9_]*`. -/
def isIdentifierChars : List Char → Bool
  | [] => false
  | c :: cs => isIdentifierStart c && cs.all isIdentifierRest

/-- Whether a name may stand in a store query. -/
def isIdentifier (name : String) : Bool := isIdentifierChars name.toList

end DueWork.Text

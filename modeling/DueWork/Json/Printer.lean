/-
  Writing JSON values, without blanks.

  Quotes, backslashes and control characters are escaped, all else is written
  as it is.
-/
import DueWork.Json.Value
import DueWork.Number.Shortest

namespace DueWork.Json

def hexDigit (n : Nat) : Char :=
  if n < 10 then Char.ofNat ('0'.toNat + n) else Char.ofNat ('a'.toNat + (n - 10))

/-- A character inside quotes. -/
def encodeChar (c : Char) : List Char :=
  if c = '"' then ['\\', '"']
  else if c = '\\' then ['\\', '\\']
  else if c = '\n' then ['\\', 'n']
  else if c = '\r' then ['\\', 'r']
  else if c = '\t' then ['\\', 't']
  else if c = '\x08' then ['\\', 'b']
  else if c = '\x0c' then ['\\', 'f']
  else if c.toNat < 0x20 then
    ['\\', 'u', '0', '0', hexDigit (c.toNat / 16), hexDigit (c.toNat % 16)]
  else [c]

/-- A string with its quotes. -/
def encodeString (s : String) : List Char :=
  '"' :: s.toList.flatMap encodeChar ++ ['"']

def Number.text : Number → String
  | .integer n => toString n
  | .real x => x.text

mutual
/-- The text of a value, as characters. -/
def chars : Json → List Char
  | .null => "null".toList
  | .bool b => (if b then "true" else "false").toList
  | .number n => n.text.toList
  | .string s => encodeString s
  | .array es => '[' :: elementChars es ++ [']']
  | .object fs => '\x7b' :: fieldsChars fs ++ ['\x7d']

def elementChars : List Json → List Char
  | [] => []
  | [j] => j.chars
  | j :: js => j.chars ++ ',' :: elementChars js

def fieldsChars : List (String × Json) → List Char
  | [] => []
  | [f] => fieldChars f
  | f :: fs => fieldChars f ++ ',' :: fieldsChars fs

def fieldChars : String × Json → List Char
  | (name, j) => encodeString name ++ ':' :: j.chars
end

/-- The text of a value. -/
def text (j : Json) : String := String.ofList j.chars

end DueWork.Json

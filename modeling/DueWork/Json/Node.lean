/-
  The structure of a JSON text, before its strings and numbers are read.

  A text is a sequence of tokens (`Token.scan`), and the tokens of a text form
  one tree (`Node.ofTokens?`), whose leaves keep the text of strings and
  numbers as written.  Reading is split this way because a field that nobody
  asks for only has to be well formed: its numbers may be out of range, its
  strings may hold half a surrogate pair, and it may be nested to any depth.

  * `Token.scan` and `Node.ofTokens?` go through their input once, from left
    to right, with an explicit stack of open brackets;
  * `Node.parse?` is the two of them together.
-/

namespace DueWork.Json

/-! ## Tokens -/

inductive Token where
  | openObject | closeObject | openArray | closeArray | colon | comma
  | null | bool (b : Bool)
  /-- a number as written -/
  | number (text : String)
  /-- the characters between two quotes, escapes as written -/
  | string (raw : List Char)
deriving DecidableEq, Repr

namespace Token

/-- What the scanner is in the middle of; collected characters are reversed. -/
inductive Mode where
  | between
  | word (chars : List Char)
  | number (chars : List Char)
  | string (chars : List Char)
  /-- after a backslash -/
  | escape (chars : List Char)
  /-- `left` hexadecimal digits of an escape are missing -/
  | hex (chars : List Char) (left : Nat)
deriving Repr

structure Scanner where
  mode : Mode
  /-- the tokens so far, last first -/
  tokens : List Token
deriving Repr

def isSpace (c : Char) : Bool := c == ' ' || c == '\t' || c == '\n' || c == '\r'

def isNumberChar (c : Char) : Bool :=
  c.isDigit || c == '-' || c == '+' || c == '.' || c == 'e' || c == 'E'

def isHexDigit (c : Char) : Bool :=
  c.isDigit || ('a' ≤ c && c ≤ 'f') || ('A' ≤ c && c ≤ 'F')

def punctuation? : Char → Option Token
  | '\x7b' => some .openObject
  | '\x7d' => some .closeObject
  | '[' => some .openArray
  | ']' => some .closeArray
  | ':' => some .colon
  | ',' => some .comma
  | _ => none

def word? : List Char → Option Token
  | ['n', 'u', 'l', 'l'] => some .null
  | ['t', 'r', 'u', 'e'] => some (.bool true)
  | ['f', 'a', 'l', 's', 'e'] => some (.bool false)
  | _ => none

/-- An exponent with its mark, or nothing. -/
def isExponent : List Char → Bool
  | [] => true
  | e :: cs =>
    (e == 'e' || e == 'E') &&
      match cs with
      | '+' :: ds | '-' :: ds => !ds.isEmpty && ds.all Char.isDigit
      | ds => !ds.isEmpty && ds.all Char.isDigit

/-- What may follow the integer digits of a number. -/
def isNumberTail : List Char → Bool
  | '.' :: cs =>
    let digits := cs.takeWhile Char.isDigit
    !digits.isEmpty && isExponent (cs.dropWhile Char.isDigit)
  | cs => isExponent cs

/-- A number without its sign: no digit follows a leading zero. -/
def isUnsigned : List Char → Bool
  | '0' :: cs => isNumberTail cs
  | c :: cs => c.isDigit && isNumberTail (cs.dropWhile Char.isDigit)
  | [] => false

/-- A number of the JSON grammar. -/
def isNumber : List Char → Bool
  | '-' :: cs => isUnsigned cs
  | cs => isUnsigned cs

/-- End what the scanner is in the middle of. -/
def Scanner.finish? (s : Scanner) : Option (List Token) :=
  match s.mode with
  | .between => some s.tokens
  | .word cs => (word? cs.reverse).map (· :: s.tokens)
  | .number cs =>
    if isNumber cs.reverse then some (.number (String.ofList cs.reverse) :: s.tokens) else none
  | .string _ | .escape _ | .hex _ _ => none

/-- A character between two tokens. -/
def startToken? (tokens : List Token) (c : Char) : Option Scanner :=
  if isSpace c then some ⟨.between, tokens⟩
  else if c = '"' then some ⟨.string [], tokens⟩
  else if c.isDigit || c == '-' then some ⟨.number [c], tokens⟩
  else if c.isAlpha then some ⟨.word [c], tokens⟩
  else (punctuation? c).map fun t => ⟨.between, t :: tokens⟩

/-- One more character. -/
def Scanner.step? (s : Scanner) (c : Char) : Option Scanner :=
  match s.mode with
  | .between => startToken? s.tokens c
  | .word cs =>
    if c.isAlpha then some { s with mode := .word (c :: cs) }
    else s.finish?.bind fun tokens => startToken? tokens c
  | .number cs =>
    if isNumberChar c then some { s with mode := .number (c :: cs) }
    else s.finish?.bind fun tokens => startToken? tokens c
  | .string cs =>
    if c = '"' then some ⟨.between, .string cs.reverse :: s.tokens⟩
    else if c = '\\' then some { s with mode := .escape (c :: cs) }
    else if c.toNat < 0x20 then none
    else some { s with mode := .string (c :: cs) }
  | .escape cs =>
    if c = 'u' then some { s with mode := .hex (c :: cs) 4 }
    else if "\"\\/bfnrt".toList.contains c then some { s with mode := .string (c :: cs) }
    else none
  | .hex cs left =>
    if isHexDigit c then
      some { s with mode := if left ≤ 1 then .string (c :: cs) else .hex (c :: cs) (left - 1) }
    else none

/-- The tokens of a text. -/
def scan (cs : List Char) : Option (List Token) :=
  ((cs.foldlM Scanner.step? ⟨.between, []⟩).bind Scanner.finish?).map List.reverse

end Token

/-! ## Trees -/

/-- A JSON text by its structure. -/
inductive Node where
  | null
  | bool (b : Bool)
  | number (text : String)
  | string (raw : List Char)
  | array (elements : List Node)
  /-- the fields in the order of the text, names as written -/
  | object (fields : List (List Char × Node))
deriving Repr, Inhabited

namespace Node

/-- An open bracket, with what stands between it and the current place, last
    first. -/
inductive Frame where
  | array (elements : List Node)
  /-- the name is that of the field whose value comes next -/
  | object (fields : List (List Char × Node)) (name : List Char)
deriving Repr

/-- What may come next. -/
inductive Expecting where
  | value
  | elementOrClose
  | fieldOrClose
  | field
  | colon
  | commaOrClose
  | nothing
deriving DecidableEq, Repr

structure Builder where
  frames : List Frame
  expecting : Expecting
  root : Option Node
deriving Repr

/-- Put a complete value where the builder stands. -/
def Builder.deliver (n : Node) : List Frame → Builder
  | [] => ⟨[], .nothing, some n⟩
  | .array es :: fs => ⟨.array (n :: es) :: fs, .commaOrClose, none⟩
  | .object fields name :: fs => ⟨.object ((name, n) :: fields) name :: fs, .commaOrClose, none⟩

/-- The start of a value. -/
def Builder.value? (frames : List Frame) : Token → Option Builder
  | .null => some (deliver .null frames)
  | .bool b => some (deliver (.bool b) frames)
  | .number t => some (deliver (.number t) frames)
  | .string r => some (deliver (.string r) frames)
  | .openArray => some ⟨.array [] :: frames, .elementOrClose, none⟩
  | .openObject => some ⟨.object [] [] :: frames, .fieldOrClose, none⟩
  | _ => none

/-- One more token. -/
def Builder.step? (b : Builder) (t : Token) : Option Builder :=
  match b.expecting, b.frames, t with
  | .value, frames, t => value? frames t
  | .elementOrClose, .array es :: fs, .closeArray => some (deliver (.array es.reverse) fs)
  | .elementOrClose, frames, t => value? frames t
  | .fieldOrClose, .object fields _ :: fs, .closeObject =>
    some (deliver (.object fields.reverse) fs)
  | .fieldOrClose, .object fields _ :: fs, .string name
  | .field, .object fields _ :: fs, .string name =>
    some ⟨.object fields name :: fs, .colon, none⟩
  | .colon, frames, .colon => some ⟨frames, .value, none⟩
  | .commaOrClose, .array es :: fs, .comma => some ⟨.array es :: fs, .value, none⟩
  | .commaOrClose, .array es :: fs, .closeArray => some (deliver (.array es.reverse) fs)
  | .commaOrClose, .object fields name :: fs, .comma =>
    some ⟨.object fields name :: fs, .field, none⟩
  | .commaOrClose, .object fields _ :: fs, .closeObject =>
    some (deliver (.object fields.reverse) fs)
  | _, _, _ => none

/-- The tree of a sequence of tokens. -/
def ofTokens? (ts : List Token) : Option Node :=
  (ts.foldlM Builder.step? ⟨[], .value, none⟩).bind Builder.root

/-- The tree of a text. -/
def parse? (s : String) : Option Node := (Token.scan s.toList).bind ofTokens?

/-! ## Text without blanks -/

mutual
/-- The text of a tree without blanks between tokens, leaves as written. -/
def minified : Node → List Char
  | .null => "null".toList
  | .bool b => (if b then "true" else "false").toList
  | .number t => t.toList
  | .string r => '"' :: r ++ ['"']
  | .array es => '[' :: minifiedElements es ++ [']']
  | .object fs => '\x7b' :: minifiedFields fs ++ ['\x7d']

def minifiedElements : List Node → List Char
  | [] => []
  | [n] => n.minified
  | n :: ns => n.minified ++ ',' :: minifiedElements ns

def minifiedFields : List (List Char × Node) → List Char
  | [] => []
  | [f] => minifiedField f
  | f :: fs => minifiedField f ++ ',' :: minifiedFields fs

def minifiedField : List Char × Node → List Char
  | (name, n) => '"' :: name ++ '"' :: ':' :: n.minified
end

end Node

end DueWork.Json

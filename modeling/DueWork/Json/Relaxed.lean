/-
  JSON texts as a lenient reader takes them.

  A database reads more than the grammar of JSON.  Comments and other blanks
  may stand between tokens and a comma after the last element; a string may
  be in single quotes, go on over a line end, and have a few escapes more; the
  name of a field may be bare; a number may be hexadecimal, start with a plus
  sign, lack the digits on one side of its point, or be a name for infinity.

  * `Relaxed.lexemes?` splits a text and writes every string and number as
    JSON does, so the trees are those of `Json.Node`;
  * `Relaxed.parse?` reads a whole text.
-/
import DueWork.Json.Printer
import DueWork.Json.Reader
import DueWork.Text.Blank

namespace DueWork.Json.Relaxed

/-! ## Blanks -/

/-- A character that may stand between tokens. -/
def isSpace (c : Char) : Bool := (Text.isBlank c && c != '\u0085') || c == '\ufeff'

/-- The text after the end of a block comment. -/
def afterBlock? : List Char → Option (List Char)
  | '*' :: '/' :: cs => some cs
  | _ :: cs => afterBlock? cs
  | [] => none

def isLineEnd (c : Char) : Bool := c == '\n' || c == '\r' || c == '\u2028' || c == '\u2029'

/-- The text after blanks and comments, of which there are at most `fuel`. -/
def skip : (fuel : Nat) → List Char → List Char
  | 0, cs => cs
  | fuel + 1, cs =>
    match cs.dropWhile isSpace with
    | '/' :: '/' :: rest => skip fuel ((rest.dropWhile (!isLineEnd ·)).drop 1)
    | '/' :: '*' :: rest =>
      match afterBlock? rest with
      | some after => skip fuel after
      | none => '/' :: '*' :: rest
    | rest => rest

/-! ## Strings -/

/-- A string up to its closing quote, as it is written in double quotes, and
    the text after that quote. -/
def stringBody? (quote : Char) : List Char → Option (List Char × List Char)
  | [] => none
  | '\\' :: '\r' :: '\n' :: cs => stringBody? quote cs
  | '\\' :: 'x' :: a :: b :: cs =>
    if Token.isHexDigit a && Token.isHexDigit b then
      (stringBody? quote cs).map fun (s, rest) => ('\\' :: 'u' :: '0' :: '0' :: a :: b :: s, rest)
    else none
  | '\\' :: 'u' :: a :: b :: c :: d :: cs =>
    if [a, b, c, d].all Token.isHexDigit then
      (stringBody? quote cs).map fun (s, rest) => ('\\' :: 'u' :: a :: b :: c :: d :: s, rest)
    else none
  | '\\' :: c :: cs =>
    let plain : Option (List Char) :=
      if "\"\\/bfnrt".toList.contains c then some ['\\', c]
      else if isLineEnd c then some []
      else if c = '\x27' then some [c]
      else if c = 'v' then some (encodeChar '\x0b')
      else if c = '0' then some (encodeChar '\x00')
      else none
    match plain with
    | some e => (stringBody? quote cs).map fun (s, rest) => (e ++ s, rest)
    | none => none
  | c :: cs =>
    if c = quote then some ([], cs)
    else if c = '\\' ∨ c.toNat = 0 then none
    else (stringBody? quote cs).map fun (s, rest) => (encodeChar c ++ s, rest)

/-! ## Numbers and words -/

/-- The text starts with a word, whatever the case of its letters. -/
def startsWith (word : String) (cs : List Char) : Bool :=
  (cs.take word.length).map Char.toLower == word.toList

/-- What is written for infinity. -/
def infinity : String := "9e999"

/-- A hexadecimal number of at most 64 bits in decimal digits. -/
def hexadecimal (ds : List Char) : List Char :=
  let n := ds.foldl (fun n c => 16 * n + hexValue c) 0
  (if n < Nat.pow 2 64 then toString n else "9.0e999").toList

/-- An exponent with its mark, or nothing. -/
def exponent? : List Char → Option (List Char × List Char)
  | e :: cs =>
    if e = 'e' ∨ e = 'E' then
      let (sign, digits) := match cs with
        | '+' :: ds => (['+'], ds)
        | '-' :: ds => (['-'], ds)
        | ds => ([], ds)
      match digits.takeWhile Char.isDigit with
      | [] => none
      | ds => some (e :: sign ++ ds, digits.dropWhile Char.isDigit)
    else some ([], e :: cs)
  | [] => some ([], [])

/-- A decimal number without its sign. -/
def decimal? (cs : List Char) : Option (List Char × List Char) :=
  let whole := cs.takeWhile Char.isDigit
  let (fraction, rest) := match cs.dropWhile Char.isDigit with
    | '.' :: after => (some (after.takeWhile Char.isDigit), after.dropWhile Char.isDigit)
    | rest => (none, rest)
  if whole.isEmpty && (fraction.getD []).isEmpty then none
  else if whole.length > 1 && whole.head? == some '0' then none
  else
    let orZero (ds : List Char) : List Char := if ds.isEmpty then ['0'] else ds
    (exponent? rest).map fun (e, rest) =>
      (orZero whole ++ (fraction.map fun f => '.' :: orZero f).getD [] ++ e, rest)

/-- A number without its sign. -/
def unsigned? : List Char → Option (List Char × List Char)
  | '0' :: x :: cs =>
    if x = 'x' ∨ x = 'X' then
      match cs.takeWhile Token.isHexDigit with
      | [] => none
      | ds => some (hexadecimal ds, cs.dropWhile Token.isHexDigit)
    else decimal? ('0' :: x :: cs)
  | cs => decimal? cs

/-- A number after its sign, which is followed by a digit, a point or a name
    for infinity. -/
def signed? (sign : List Char) (cs : List Char) : Option (List Char × List Char) :=
  if startsWith "infinity" cs then some (sign ++ infinity.toList, cs.drop 8)
  else if startsWith "inf" cs then some (sign ++ infinity.toList, cs.drop 3)
  else (unsigned? cs).map fun (n, rest) => (sign ++ n, rest)

/-- A character of a bare word. -/
def isWordChar (c : Char) : Bool :=
  c.isAlphanum || c == '_' || c == '$' || (c.toNat ≥ 0x80 && !isSpace c)

/-- A token, or a bare name of a field. -/
inductive Lexeme where
  | token (t : Token)
  | name (cs : List Char)

/-- The meaning of a bare word. -/
def wordLexeme (cs : List Char) : Lexeme :=
  match Token.word? cs with
  | some t => .token t
  | none =>
    let lower := String.ofList (cs.map Char.toLower)
    if ["inf", "infinity"].contains lower then .token (.number infinity)
    else if ["nan", "qnan", "snan"].contains lower then .token .null
    else .name cs

/-! ## Texts -/

/-- The first lexeme of a text that does not start with a blank, and the rest. -/
def lexeme? (c : Char) (cs : List Char) : Option (Lexeme × List Char) :=
  let number (n : List Char × List Char) : Lexeme × List Char :=
    (.token (.number (String.ofList n.1)), n.2)
  if c = '"' ∨ c = '\x27' then
    (stringBody? c cs).map fun (s, rest) => (.token (.string s), rest)
  else if c = '+' then (signed? [] cs).map number
  else if c = '-' then (signed? ['-'] cs).map number
  else if c.isDigit ∨ c = '.' then (unsigned? (c :: cs)).map number
  else if isWordChar c then
    some (wordLexeme (c :: cs.takeWhile isWordChar), cs.dropWhile isWordChar)
  else (Token.punctuation? c).map fun t => (.token t, cs)

/-- The lexemes of a text, of which there are fewer than `fuel`. -/
def lexemes? : (fuel : Nat) → List Char → Option (List Lexeme)
  | 0, _ => none
  | fuel + 1, cs =>
    match skip cs.length cs with
    | [] => some []
    | c :: rest => (lexeme? c rest).bind fun (l, rest) => (lexemes? fuel rest).map (l :: ·)

/-- The tokens of lexemes: a bare name is a string if a colon follows. -/
def tokens? : List Lexeme → Option (List Token)
  | [] => some []
  | .token t :: ls => (tokens? ls).map (t :: ·)
  | .name cs :: ls =>
    match tokens? ls with
    | some (.colon :: ts) => some (.string cs :: .colon :: ts)
    | _ => none

def opens (t : Token) : Bool := t == .openArray || t == .openObject || t == .comma
def closes (t : Token) : Bool := t == .closeArray || t == .closeObject

/-- The tokens without the comma after a last element. -/
def dropTrailing (previous : Token) : List Token → List Token
  | .comma :: t :: ts =>
    if closes t && !opens previous then t :: dropTrailing t ts
    else .comma :: dropTrailing .comma (t :: ts)
  | t :: ts => t :: dropTrailing t ts
  | [] => []

/-- The tree of a text. -/
def parse? (s : String) : Option Node := do
  let lexemes ← lexemes? (s.length + 1) s.toList
  Node.ofTokens? (dropTrailing .comma (← tokens? lexemes))

end DueWork.Json.Relaxed

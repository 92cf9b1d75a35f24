/-
  Files of environment variables.

  A line `NAME=value` sets a variable that is not set yet.  A value may stand
  in quotes, which keep blanks and may span lines; outside single quotes a
  backslash takes the next character literally and `$NAME` stands for a
  variable's value.  A `#` after a blank begins a comment.  At the first line
  that cannot be read the rest of the file is passed over.

  * `lines` puts together the lines that a quote spans;
  * `assignment` reads a line;
  * `load` sets the variables of a file.
-/
import DueWork.Text.Blank

namespace DueWork.EnvFile

open Text

/-! ## Lines -/

/-- What the end of a text stands in. -/
inductive Context where
  | plain
  | blank
  | escaped
  | weak
  | weakEscaped
  | strong
  | strongEscaped
  | comment
deriving DecidableEq, Repr

/-- The context after one more character. -/
def Context.next (x : Context) (c : Char) : Context :=
  let opened : Context :=
    if c = '\\' then escaped else if c = '"' then weak else if c = '\x27' then strong else plain
  match x with
  | comment => comment
  | plain => if isBlank c && c != '\n' && c != '\r' then blank else opened
  | blank => if c = '#' then comment else opened
  | escaped => plain
  | weak => if c = '\\' then weakEscaped else if c = '"' then plain else weak
  | weakEscaped => weak
  | strong => if c = '\\' then strongEscaped else if c = '\x27' then plain else strong
  | strongEscaped => strong

/-- The characters before a comment, and the context at the end. -/
def withoutComment (x : Context) : List Char → List Char × Context
  | [] => ([], x)
  | c :: cs =>
    if x.next c = .comment then ([], .comment)
    else
      let (kept, last) := withoutComment (x.next c) cs
      (c :: kept, last)

/-- Cut after every line feed. -/
def cutLines : List Char → List (List Char)
  | [] => []
  | c :: cs =>
    if c = '\n' then [c] :: cutLines cs
    else match cutLines cs with
      | [] => [[c]]
      | l :: ls => (c :: l) :: ls

/-- A line without its line feed and a carriage return before that. -/
def chomp (cs : List Char) : List Char :=
  match cs.reverse with
  | '\n' :: '\r' :: rest => rest.reverse
  | '\n' :: rest => rest.reverse
  | _ => cs

/-- The lines of a text with those joined that a quote spans, `pending` being
    the start of one; `none` is a line that does not end. -/
def joinLines (pending : List Char) (x : Context) : List (List Char) → List (Option (List Char))
  | [] => if x = .plain then [] else [none]
  | l :: ls =>
    if (trimStartChars (pending ++ l)).head? = some '#' then some [] :: joinLines [] .plain ls
    else
      let (kept, last) := withoutComment x l
      match last with
      | .plain => some (chomp (pending ++ kept)) :: joinLines [] .plain ls
      | .comment => some (pending ++ kept) :: joinLines [] .plain ls
      | last => joinLines (pending ++ kept) last ls

/-- The lines of a file, after a byte order mark if there is one. -/
def lines (s : String) : List (Option (List Char)) :=
  let cs := match s.toList with
    | '\uFEFF' :: cs => cs
    | cs => cs
  joinLines [] .plain (cutLines cs)

/-! ## Values -/

/-- What a reference to a variable looks like so far. -/
inductive Reference where
  | outside
  /-- after a dollar sign -/
  | bare
  /-- after a dollar sign and a brace -/
  | braced
deriving DecidableEq, Repr

/-- A value that is read. -/
structure Reading where
  strong : Bool := false
  weak : Bool := false
  escaped : Bool := false
  /-- only blanks and a comment may follow -/
  ended : Bool := false
  /-- the comment has begun -/
  inComment : Bool := false
  reference : Reference := .outside
  name : List Char := []
  output : List Char := []

/-- Letters and digits, of other alphabets too. -/
def isNameChar (c : Char) : Bool := c.isAlphanum || c.toNat ≥ 0x80

namespace Reading

def push (r : Reading) (c : Char) : Reading := { r with output := r.output ++ [c] }

/-- Put the value of the reference in its place. -/
def resolve (value : String → String) (r : Reading) : Reading :=
  { r with
    name := [], reference := .outside
    output := r.output ++ (value (String.ofList r.name)).toList }

/-- A character that is neither quoted by single quotes nor part of a
    reference. -/
def open? (r : Reading) (c : Char) : Option Reading :=
  if c = '$' then some { r with reference := .bare }
  else if c = '\\' then some { r with escaped := true }
  else if r.weak then some (if c = '"' then { r with weak := false } else r.push c)
  else if c = '\x27' then some { r with strong := true }
  else if c = '"' then some { r with weak := true }
  else if c = ' ' || c = '\t' then some { r with ended := true }
  else some (r.push c)

/-- A character of a reference. -/
def refer (value : String → String) (r : Reading) (c : Char) : Reading :=
  if isNameChar c then { r with name := r.name ++ [c] }
  else if r.reference = .braced then
    if c = '\x7d' then r.resolve value else { r with name := r.name ++ [c] }
  else if c = '\x7b' && r.name.isEmpty then { r with reference := .braced }
  else if c = '$' then { r.resolve value with reference := .bare }
  else (r.resolve value).push c

/-- The next character, unless it cannot stand here. -/
def step? (value : String → String) (r : Reading) (c : Char) : Option Reading :=
  if r.inComment then some r
  else if r.ended then
    if c = ' ' || c = '\t' then some r
    else if c = '#' then some { r with inComment := true }
    else none
  else if r.escaped then
    let r := { r with escaped := false }
    if "\\'\"$ ".toList.contains c then some (r.push c)
    else if c = 'n' then some (r.push '\n')
    else none
  else if r.strong then some (if c = '\x27' then { r with strong := false } else r.push c)
  else if r.reference = .outside then r.open? c
  else some (r.refer value c)

/-- The value, unless a quote or a brace is open. -/
def finish? (value : String → String) (r : Reading) : Option String :=
  if r.reference = .braced || r.strong || r.weak then none
  else some (String.ofList (r.resolve value).output)

end Reading

/-- Read a value; `value` gives the values of variables. -/
def readValue? (value : String → String) (cs : List Char) : Option String :=
  (cs.foldlM (Reading.step? value) {}).bind (Reading.finish? value)

/-! ## Assignments -/

/-- A name and what follows it. -/
def key? (cs : List Char) : Option (String × List Char) :=
  match cs with
  | c :: _ =>
    if c.isAlpha || c = '_' then
      let isPart (c : Char) : Bool := c.isAlphanum || c == '_' || c == '.'
      some (String.ofList (cs.takeWhile isPart), trimStartChars (cs.dropWhile isPart))
    else none
  | [] => none

/-- What follows an equals sign. -/
def afterEquals? : List Char → Option (List Char)
  | '=' :: cs => some (trimStartChars cs)
  | _ => none

/-- Name and value of a line, which may begin with the word `export`. -/
def target? (cs : List Char) : Option (String × List Char) := do
  let (name, rest) ← key? cs
  match afterEquals? rest with
  | some value => some (name, value)
  | none =>
    if name = "export" then
      let (name, rest) ← key? rest
      let value ← afterEquals? rest
      some (name, value)
    else none

/-- A line: nothing, or a name and its value. -/
def assignment (value : String → String) (line : List Char) : Option (Option (String × String)) :=
  let cs := trimChars line
  if cs.isEmpty || cs.head? == some '#' then some none
  else do
    let (name, raw) ← target? cs
    if raw.isEmpty || raw.head? == some '#' then some (some (name, ""))
    else
      let v ← readValue? value raw
      some (some (name, v))

/-- The variables with those that the lines add. -/
def loadLines (vars : List (String × String)) :
    List (Option (List Char)) → List (String × String)
  | [] | none :: _ => vars
  | some line :: rest =>
    match assignment (fun name => (vars.lookup name).getD "") line with
    | none => vars
    | some none => loadLines vars rest
    | some (some (name, value)) =>
      if vars.any (·.1 == name) then loadLines vars rest
      else loadLines (vars ++ [(name, value)]) rest

/-- The variables with those that a file adds. -/
def load (file : String) (vars : List (String × String)) : List (String × String) :=
  loadLines vars (lines file)

end DueWork.EnvFile

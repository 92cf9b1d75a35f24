/-
  URLs of webhooks.

  `Url.isHttp` says whether a text is a URL that a request can be sent to: an
  `http` or `https` scheme, a host, and a number of 16 bits after a colon, if
  there is one.
  `Url.target` is the path and query of a request line, with dot segments
  resolved and characters encoded that may not stand in one.
-/

namespace DueWork.Notification.Url

/-- Controls and blanks around a URL, and line breaks and tabs in it, count
    for nothing. -/
def clean (cs : List Char) : List Char :=
  let outer (c : Char) : Bool := c.toNat ≤ 0x20
  let trimmed := ((cs.dropWhile outer).reverse.dropWhile outer).reverse
  trimmed.filter fun c => c != '\t' && c != '\n' && c != '\r'

def isSchemeChar (c : Char) : Bool := c.isAlphanum || c == '+' || c == '-' || c == '.'

/-- The scheme in lower case, and what follows its colon. -/
def scheme? (cs : List Char) : Option (String × List Char) :=
  let name := cs.takeWhile isSchemeChar
  match name, cs.dropWhile isSchemeChar with
  | c :: _, ':' :: rest =>
    if c.isAlpha then some (String.ofList (name.map Char.toLower), rest) else none
  | _, _ => none

def isSlash (c : Char) : Bool := c == '/' || c == '\\'

/-- Characters that no host holds. -/
def isForbiddenInHost (c : Char) : Bool :=
  c.toNat ≤ 0x20 || c.toNat == 0x7F || "#%/:<>?@[\\]^|".toList.contains c

/-- A decimal number below 256. -/
def isOctet (cs : List Char) : Bool :=
  !cs.isEmpty && cs.all Char.isDigit && cs.foldl (fun n c => 10 * n + (c.toNat - 48)) 0 < 256

/-- The parts of a text between dots. -/
def labels : List Char → List (List Char)
  | [] => [[]]
  | '.' :: cs => [] :: labels cs
  | c :: cs =>
    match labels cs with
    | [] => [[c]]
    | l :: ls => (c :: l) :: ls

/-- A name, or four numbers if the last part is a number. -/
def isHost (cs : List Char) : Bool :=
  let ls := labels cs
  !cs.isEmpty && !cs.any isForbiddenInHost &&
    match ls.getLast? with
    | some l =>
      if !l.isEmpty && l.all Char.isDigit then ls.length ≤ 4 && ls.all isOctet else true
    | none => false

/-- Nothing, or a number of 16 bits. -/
def isNumber16 (cs : List Char) : Bool :=
  cs.all Char.isDigit && cs.foldl (fun n c => 10 * n + (c.toNat - 48)) 0 < 65536

/-- A name or an address in brackets, with a number after a colon or without. -/
def isAuthority : List Char → Bool
  | '[' :: cs =>
    let address := cs.takeWhile (· != ']')
    let isAddressChar (c : Char) : Bool :=
      c.isDigit || c == ':' || c == '.' || ('a' ≤ c.toLower && c.toLower ≤ 'f')
    address.contains ':' && address.all isAddressChar &&
      match cs.dropWhile (· != ']') with
      | [']'] => true
      | ']' :: ':' :: number => isNumber16 number
      | _ => false
  | cs =>
    isHost (cs.takeWhile (· != ':')) &&
      match cs.dropWhile (· != ':') with
      | ':' :: number => isNumber16 number
      | _ => true

/-- Where the host of a URL begins, after the name and password of a user. -/
def afterUser (cs : List Char) : List Char :=
  if cs.contains '@' then (cs.reverse.takeWhile (· != '@')).reverse else cs

/-- A request can be sent to this URL. -/
def isHttp (url : String) : Bool :=
  match scheme? (clean url.toList) with
  | some (scheme, rest) =>
    let authority := (rest.dropWhile isSlash).takeWhile fun c => !isSlash c && c != '?' && c != '#'
    (scheme == "http" || scheme == "https") && isAuthority (afterUser authority)
  | none => false

/-! ## Request targets -/

/-- A byte after a percent sign. -/
def percent (b : UInt8) : List Char :=
  let digit (n : Nat) : Char := "0123456789ABCDEF".toList.getD n '0'
  ['%', digit (b.toNat / 16), digit (b.toNat % 16)]

/-- Encode the characters that may not stand here. -/
def encode (reserved : List Char) (cs : List Char) : List Char :=
  cs.flatMap fun c =>
    if c.toNat ≤ 0x20 || c.toNat ≥ 0x7F || reserved.contains c then
      c.toString.toUTF8.toList.flatMap percent
    else [c]

def reservedInPath : List Char := "\"#<>?\x60\x7b\x7d^".toList
def reservedInQuery : List Char := "\"#<>'".toList

/-- The parts of a path between slashes. -/
def segments : List Char → List (List Char)
  | [] => [[]]
  | c :: cs =>
    if isSlash c then [] :: segments cs
    else match segments cs with
      | [] => [[c]]
      | s :: ss => (c :: s) :: ss

/-- A segment for the same place or for the place above, also if encoded. -/
def dots (s : List Char) : Option Nat :=
  let lower := String.ofList (s.map Char.toLower)
  if [".", "%2e"].contains lower then some 1
  else if ["..", ".%2e", "%2e.", "%2e%2e"].contains lower then some 2
  else none

/-- Resolve dots, from the first segment to the last; `done` is reversed. -/
def resolve (done : List (List Char)) : List (List Char) → List (List Char)
  | [] => done.reverse
  | s :: ss =>
    let done :=
      match dots s with
      | some 1 => done
      | some _ => done.drop 1
      | none => s :: done
    if ss.isEmpty && (dots s).isSome then ([] :: done).reverse else resolve done ss

/-- Path and query of a request line. -/
def target (path : String) : String :=
  let cs := (clean path.toList).takeWhile (· != '#')
  let before := cs.takeWhile (· != '?')
  let segs := segments (if before.head?.any isSlash then before.drop 1 else before)
  let resolved := (resolve [] segs).map (encode reservedInPath)
  let query := match cs.dropWhile (· != '?') with
    | '?' :: q => '?' :: encode reservedInQuery q
    | _ => []
  String.ofList (resolved.flatMap ('/' :: ·) ++ query)

end DueWork.Notification.Url

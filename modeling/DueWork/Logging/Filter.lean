/-
  Log filters: which events are worth writing.

  A filter is a list of directives with commas between them.  A directive is
  `target=level`; a target alone admits all of its events, and a level alone
  is for every target.  Of the directives whose target an event's target
  begins with, the one with the longest target decides, and of several with
  the same target the last.

  * `Filter.parse?` reads a filter, `Filter.ofVariable` takes the default one
    where there is none or none that can be read;
  * `Filter.allows` says whether an event is written.
-/
import DueWork.Number.Numeral
import DueWork.Text.Blank

namespace DueWork.Logging

/-- Levels of events. -/
inductive Level where
  | error
  | warn
  | info
  | debug
  | trace
deriving DecidableEq, Repr

namespace Level

/-- From the gravest to the most detailed. -/
def all : List Level := [error, warn, info, debug, trace]

def name : Level → String
  | error => "error"
  | warn => "warn"
  | info => "info"
  | debug => "debug"
  | trace => "trace"

/-- How detailed a level is, from one to five. -/
def detail : Level → Nat
  | error => 1
  | warn => 2
  | info => 3
  | debug => 4
  | trace => 5

end Level

/-- One rule of a filter: the events of its target up to a level of detail. -/
structure Directive where
  target : Option String := none
  detail : Nat := Level.trace.detail
  /-- only inside spans, that is, for none of the service's own events -/
  inSpan : Bool := false
deriving DecidableEq, Repr

namespace Directive

/-- A level of detail by name or number, in capitals or not. -/
def detail? (s : String) : Option Nat :=
  match Number.Numeral.natural 64 s with
  | .ok n => if n ≤ Level.trace.detail then some n else none
  | .error _ =>
    let lower := s.map Char.toLower
    if lower = "off" then some 0
    else (Level.all.find? fun l => l.name == lower).map Level.detail

/-- The level after an equals sign; without one every level is meant. -/
def detailOr? (cs : List Char) : Option Nat :=
  if cs.isEmpty then some Level.trace.detail else detail? (String.ofList cs)

/-- A directive begins with a letter, a digit or one of three marks. -/
def isStart (c : Char) : Bool :=
  c.isAlphanum || c == '-' || c == ':' || c == '_' || c.toNat ≥ 0x80

/-- What follows the brackets of a span: a level or nothing. -/
def afterSpan? (target : Option String) : List Char → Option Directive
  | [] => some { target := target, inSpan := true }
  | '=' :: cs => (detailOr? cs).map fun n => ⟨target, n, true⟩
  | _ => none

/-- The rest of a directive after an opening bracket: the name of a span and
    conditions on its fields, none of them empty. -/
def span? (target : Option String) (cs : List Char) : Option Directive :=
  match cs.find? fun c => c == ']' || c == '\x7b' with
  | some ']' => (Text.cutAt ']' cs).bind fun (_, rest) => afterSpan? target rest
  | some _ =>
    match (Text.cutAt '\x7b' cs).bind fun (_, rest) => Text.cutAt '\x7d' rest with
    | some (_ :: _, ']' :: rest) => afterSpan? target rest
    | _ => none
  | none => none

/-- Read a directive.  The marks are looked for in the trimmed text, and the
    text itself is cut at their places. -/
def parse? (s : String) : Option Directive :=
  let cs := s.toList
  match Text.trimChars cs with
  | [] => none
  | '[' :: rest => span? none rest
  | c :: rest =>
    if isStart c then
      let before := (c :: rest).takeWhile fun c => c != '=' && c != '['
      let target := String.ofList (cs.take before.length)
      match (c :: rest).drop before.length with
      | [] =>
        match detail? s with
        | some n => some { detail := n }
        | none => some { target := some s }
      | '=' :: _ =>
        (detailOr? (cs.drop (before.length + 1))).map fun n =>
          { target := some target, detail := n }
      | _ => span? (some target) (cs.drop (before.length + 1))
    else none

end Directive

/-- Directives in the order in which they were written. -/
structure Filter where
  directives : List Directive
deriving DecidableEq, Repr

namespace Filter

/-- Read a filter; nothing between two commas is no directive. -/
def parse? (s : String) : Option Filter :=
  let parts := (Text.split ',' s.toList).filter fun p => !p.isEmpty
  (parts.mapM fun p => Directive.parse? (String.ofList p)).map Filter.mk

/-- The service's own events from info on, the database's from warnings on. -/
def default : Filter :=
  ⟨[{ target := some "notify_scheduler", detail := Level.info.detail },
    { target := some "sqlx", detail := Level.warn.detail }]⟩

/-- The filter that a variable holds. -/
def ofVariable (value : Option String) : Filter := (value.bind parse?).getD default

/-- How much of a target's name a directive says; none is less than any. -/
def weight (d : Directive) : Nat :=
  match d.target with
  | some t => t.toList.length + 1
  | none => 0

/-- The directive concerns the events of a target. -/
def concerns (d : Directive) (target : String) : Bool :=
  !d.inSpan && d.target.all fun t => t.toList.isPrefixOf target.toList

/-- The directive that decides on the events of a target. -/
def deciding? (f : Filter) (target : String) : Option Directive :=
  (f.directives.filter (concerns · target)).foldl (fun best d =>
    match best with
    | some b => if weight b ≤ weight d then some d else some b
    | none => some d) none

/-- An event of this target and level is written. -/
def allows (f : Filter) (target : String) (level : Level) : Bool :=
  (f.deciding? target).any fun d => level.detail ≤ d.detail

end Filter

end DueWork.Logging

/-
  A busy database.

  A statement that the database refuses because it is busy or locked is tried
  again, at most eight times, after a delay that doubles from 10 milliseconds
  to one second; any other answer stands.
-/
import DueWork.Error
import DueWork.Time.Duration

namespace DueWork.Store.Busy

open Time

/-- Some part of a text is another text. -/
def isInfix (part : List Char) : List Char → Bool
  | [] => part.isEmpty
  | c :: cs => part.isPrefixOf (c :: cs) || isInfix part cs

/-- The message says that the database is busy. -/
def saysBusy (message : String) : Bool :=
  let lower := (message.map Char.toLower).toList
  isInfix "database is locked".toList lower || isInfix "database is busy".toList lower

/-- The error is one that passes when the database is no longer busy. -/
def isBusy : Error → Bool
  | .query (.refused code m) => code == some "5" || code == some "6" || saysBusy m
  | .query f => saysBusy f.message
  | _ => false

def maxRetries : Nat := 8
def baseDelay : Duration := .ofMillis 10
def maxDelay : Duration := .ofMillis 1000

/-- The delay before retry `attempt` (from zero), with `jitter` milliseconds
    of at most a quarter on top. -/
def delay (attempt : UInt32) (jitter : Nat) : Duration :=
  let backoff := Duration.cappedExponential baseDelay maxDelay attempt
  min (.ofNanos (backoff.nanos + min jitter (backoff.nanos / 4000000) * 1000000)) maxDelay

/-- The answer of a statement that may be busy, with at most `left` retries;
    `answer n` is what the database says the `n`th time. -/
def retry {α : Type} (answer : Nat → Except Error α) : (left : Nat) → (calls : Nat) →
    Nat × Except Error α
  | 0, n => (n + 1, answer n)
  | left + 1, n =>
    match answer n with
    | .ok a => (n + 1, .ok a)
    | .error e => if isBusy e then retry answer left (n + 1) else (n + 1, .error e)

/-- How often a statement is tried, and its answer in the end. -/
def run {α : Type} (answer : Nat → Except Error α) : Nat × Except Error α :=
  retry answer maxRetries 0

end DueWork.Store.Busy

/-
  Retry policies as JSON records; what is not given has its default.
-/
import DueWork.Json.Printer
import DueWork.Json.Record
import DueWork.Retry.Policy

namespace DueWork

open Json
open DueWork.Number (Double)

def RetryPolicy.fieldNames : List String :=
  ["max_retries", "initial_delay_ms", "max_delay_ms", "backoff_multiplier", "use_jitter"]

def RetryPolicy.decoder : Decoder RetryPolicy := fun depth n => do
  let r ← Record.ofNode? RetryPolicy.fieldNames depth n
  let d : RetryPolicy := {}
  some {
    maxRetries := .ofNat (← r.orElse "max_retries" (.natural 32) d.maxRetries.toNat)
    initialDelayMs := .ofNat (← r.orElse "initial_delay_ms" (.natural 64) d.initialDelayMs.toNat)
    maxDelayMs := .ofNat (← r.orElse "max_delay_ms" (.natural 64) d.maxDelayMs.toNat)
    backoffMultiplier := ← r.orElse "backoff_multiplier" .double d.backoffMultiplier
    useJitter := ← r.orElse "use_jitter" .boolean d.useJitter }

/-- A double as a JSON number, or its text if it is not finite. -/
def doubleJson (x : Double) : Json :=
  match x.value with
  | .finite _ _ _ => .number (.real x)
  | _ => .string x.text

def RetryPolicy.toJson (p : RetryPolicy) : Json :=
  .ofFields [("max_retries", .ofNat p.maxRetries.toNat),
    ("initial_delay_ms", .ofNat p.initialDelayMs.toNat),
    ("max_delay_ms", .ofNat p.maxDelayMs.toNat),
    ("backoff_multiplier", doubleJson p.backoffMultiplier), ("use_jitter", .bool p.useJitter)]

/-- What a policy says about a failure (from zero). -/
def RetryPolicy.delayFields (p : RetryPolicy) (attempt : UInt32) : List (String × Json) :=
  [("attempt", .ofNat attempt.toNat), ("should_retry", .bool (p.shouldRetry attempt)),
    ("base_ms", .ofNat (p.baseDelayMs attempt).toNat)]

end DueWork

/-
  Retry policies: how often, and how long after a failure, a job is tried
  again.

  The delay grows by a factor with every failure up to a largest delay; a
  random part of at most a quarter may come on top, so that jobs that failed
  together do not come back together.
-/
import DueWork.Number.Double
import DueWork.Time.Duration

namespace DueWork

open Number (Double)
open Time

/-- How a retryable failure is retried. -/
structure RetryPolicy where
  maxRetries : UInt32 := 3
  initialDelayMs : UInt64 := 1000
  maxDelayMs : UInt64 := 300000
  backoffMultiplier : Double := .ofNat 2
  useJitter : Bool := true
deriving DecidableEq, Repr

namespace RetryPolicy

/-- A policy without retries. -/
def noRetry : RetryPolicy := { maxRetries := 0 }

/-- The default policy with another number of retries. -/
def withMaxRetries (n : UInt32) : RetryPolicy := { maxRetries := n }

/-- After `attempt` failures another try is allowed. -/
def shouldRetry (p : RetryPolicy) (attempt : UInt32) : Bool := attempt < p.maxRetries

/-- The delay in milliseconds after failure `attempt` (from zero), without
    its random part: the initial delay times the multiplier for each failure,
    rounded down, at most the largest delay. -/
def baseDelayMs (p : RetryPolicy) (attempt : UInt32) : UInt64 :=
  if p.shouldRetry attempt then
    let factor := p.backoffMultiplier.pow attempt.toInt32.toInt
    let delay := (Double.ofNat p.initialDelayMs.toNat).mul factor
    (delay.min (.ofNat p.maxDelayMs.toNat)).toUInt64
  else p.maxDelayMs

/-- The largest random part of a delay. -/
def maxJitterMs (p : RetryPolicy) (attempt : UInt32) : UInt64 :=
  if p.useJitter && p.shouldRetry attempt then p.baseDelayMs attempt / 4 else 0

/-- The delay after failure `attempt` with `jitter` milliseconds on top. -/
def delayFor (p : RetryPolicy) (attempt : UInt32) (jitter : UInt64) : Duration :=
  .ofMillis (p.baseDelayMs attempt + min jitter (p.maxJitterMs attempt)).toNat

end RetryPolicy

end DueWork

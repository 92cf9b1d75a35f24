/-
  Scheduler configuration.

  `SchedulerConfig.ofSource` reads it from properties and `validate` refuses
  the values that the scheduler cannot work with; of several faults the first
  in the order of the properties below is reported.
-/
import DueWork.Config.Partition
import DueWork.Number.Numeral
import DueWork.Retry.Policy

namespace DueWork

open Time
open DueWork.Number (Double)

/-- What the scheduler can be tuned by. -/
structure SchedulerConfig where
  partitions : List PartitionConfig := []
  /-- instances fetched at once -/
  batchSize : Nat := 10
  /-- drain cycles that may run at once -/
  poolSize : Nat := 4
  /-- drain cycles that may wait for a worker -/
  queueCapacity : Nat := 64
  /-- instances that may be in processing at once -/
  maxInFlight : Nat := 4
  /-- an idle partition is looked at again after this long -/
  pollInterval : Option Duration := some (.ofSeconds 30)
  shutdownTimeout : Duration := .ofSeconds 10
  processorTimeout : Duration := .ofSeconds 60
  submitBackoffBase : Duration := .ofMillis 50
  submitBackoffMax : Duration := .ofSeconds 5
  suspendBackoffBase : Duration := .ofMillis 25
  suspendBackoffMax : Duration := .ofSeconds 1
  storeBackoffBase : Duration := .ofMillis 500
  storeBackoffMax : Duration := .ofSeconds 30
  /-- at startup, claims older than this are given up -/
  staleClaimTimeout : Option Duration := none
  retry : RetryPolicy := {}
deriving DecidableEq, Repr

namespace SchedulerConfig

/-- A value that must not be zero. -/
def requirePositive (name : String) (n : Nat) : Except Error Unit :=
  if n = 0 then .error (.configuration (name ++ " must be greater than zero")) else .ok ()

/-- Refuse sizes of zero, a processor without time, and a backoff that
    shrinks. -/
def validate (c : SchedulerConfig) : Except Error Unit := do
  requirePositive "scheduler.batch_size" c.batchSize
  requirePositive "scheduler.pool_size" c.poolSize
  requirePositive "scheduler.max_in_flight" c.maxInFlight
  requirePositive "scheduler.processor_timeout_ms" c.processorTimeout.nanos
  if !(Double.ofNat 1).le c.retry.backoffMultiplier then
    throw (.configuration "retry.backoff_multiplier must be at least 1.0")

/-- A duration given in milliseconds. -/
def millis (source : Source) (key : String) (default : Duration) : Except Error Duration :=
  (source.getD (Number.Numeral.natural 64) key (default.nanos / 1000000)).map .ofMillis

/-- A duration given in milliseconds, where zero means none. -/
def optionalMillis (source : Source) (key : String) (default : Option Duration) :
    Except Error (Option Duration) :=
  let defaultMs := (default.map fun d => d.nanos / 1000000).getD 0
  (source.getD (Number.Numeral.natural 64) key defaultMs).map fun ms =>
    if ms = 0 then none else some (.ofMillis ms)

/-- Read the retry policy. -/
def retryOfSource (source : Source) (d : RetryPolicy) : Except Error RetryPolicy := do
  let u64 (key : String) (default : UInt64) : Except Error UInt64 :=
    (source.getD (Number.Numeral.natural 64) key default.toNat).map .ofNat
  return {
    maxRetries := .ofNat
      (← source.getD (Number.Numeral.natural 32) "retry.max_retries" d.maxRetries.toNat)
    initialDelayMs := ← u64 "retry.initial_delay_ms" d.initialDelayMs
    maxDelayMs := ← u64 "retry.max_delay_ms" d.maxDelayMs
    backoffMultiplier :=
      ← source.getD Number.Numeral.double "retry.backoff_multiplier" d.backoffMultiplier
    useJitter := ← source.getD Number.Numeral.boolean "retry.jitter" d.useJitter }

/-- Read the configuration; `scheduler.partitions` has to name a partition. -/
def ofSource (source : Source) : Except Error SchedulerConfig := do
  let d : SchedulerConfig := {}
  let size (key : String) (default : Nat) : Except Error Nat :=
    source.getD (Number.Numeral.natural 64) key default
  let names ← source.require readText "scheduler.partitions"
  let partitions ← (Text.splitList ',' names).mapM (PartitionConfig.ofSource source)
  if partitions.isEmpty then
    throw (.configuration "scheduler.partitions does not name any partition")
  let poolSize ← size "scheduler.pool_size" d.poolSize
  let retry ← retryOfSource source d.retry
  let c : SchedulerConfig := {
    partitions := partitions
    batchSize := ← size "scheduler.batch_size" d.batchSize
    poolSize := poolSize
    queueCapacity := ← size "scheduler.queue_capacity" d.queueCapacity
    maxInFlight := ← size "scheduler.max_in_flight" poolSize
    pollInterval := ← optionalMillis source "scheduler.poll_interval_ms" d.pollInterval
    shutdownTimeout := ← millis source "scheduler.shutdown_timeout_ms" d.shutdownTimeout
    processorTimeout := ← millis source "scheduler.processor_timeout_ms" d.processorTimeout
    submitBackoffBase := ← millis source "scheduler.submit_backoff_base_ms" d.submitBackoffBase
    submitBackoffMax := ← millis source "scheduler.submit_backoff_max_ms" d.submitBackoffMax
    suspendBackoffBase := ← millis source "scheduler.suspend_backoff_ms" d.suspendBackoffBase
    suspendBackoffMax := d.suspendBackoffMax
    storeBackoffBase := ← millis source "scheduler.store_backoff_base_ms" d.storeBackoffBase
    storeBackoffMax := ← millis source "scheduler.store_backoff_max_ms" d.storeBackoffMax
    staleClaimTimeout :=
      ← optionalMillis source "scheduler.stale_claim_timeout_ms" d.staleClaimTimeout
    retry := retry }
  c.validate
  return c

end SchedulerConfig

end DueWork

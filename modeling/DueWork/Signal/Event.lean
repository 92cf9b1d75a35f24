/-
  Events: what is worth knowing about a running scheduler.

  Each event names its partition.  `Event.toJson` is its record, with the
  kind of event under `type`.
-/
import DueWork.Json.Value
import DueWork.Time.Duration

namespace DueWork

open Time

inductive Event where
  /-- an instance reached the failed state -/
  | instanceFailed (partition : String) (id : Int) (failureCount : UInt32) (error : String)
  /-- a drain cycle was cut short by the store -/
  | storeUnavailable (partition : String) (consecutiveFailures : UInt32) (error : String)
      (retryIn : Duration)
  /-- the worker pool had no room for a drain cycle -/
  | poolSaturated (partition : String) (attempt : UInt32) (retryIn : Duration)
  /-- a partition was added while the scheduler was running -/
  | partitionRegistered (partition : String)
deriving DecidableEq, Repr

/-- A duration as whole seconds and nanoseconds. -/
def Time.Duration.toJson (d : Duration) : Json :=
  .ofFields [("secs", .ofNat d.seconds), ("nanos", .ofNat d.subsecNanos)]

namespace Event

/-- The partition that an event is about. -/
def partition : Event → String
  | instanceFailed p _ _ _ | storeUnavailable p _ _ _ | poolSaturated p _ _
  | partitionRegistered p => p

def toJson : Event → Json
  | instanceFailed p id n e =>
    .ofFields [("type", .string "instance_failed"), ("partition", .string p),
      ("instance_id", .ofInt id), ("failure_count", .ofNat n.toNat), ("error", .string e)]
  | storeUnavailable p n e d =>
    .ofFields [("type", .string "store_unavailable"), ("partition", .string p),
      ("consecutive_failures", .ofNat n.toNat), ("error", .string e), ("retry_in", d.toJson)]
  | poolSaturated p n d =>
    .ofFields [("type", .string "pool_saturated"), ("partition", .string p),
      ("attempt", .ofNat n.toNat), ("retry_in", d.toJson)]
  | partitionRegistered p =>
    .ofFields [("type", .string "partition_registered"), ("partition", .string p)]

end Event

end DueWork

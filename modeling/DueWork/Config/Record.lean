/-
  Configurations as JSON records.
-/
import DueWork.Config.Scheduler
import DueWork.Partition.Record
import DueWork.Retry.Record
import DueWork.Signal.Event

namespace DueWork

open Json Time

/-- A declared partition, with the partitions that it stands for or what
    `onError` makes of the reason why it stands for none. -/
def PartitionConfig.toJson (onError : Error → Json) (p : PartitionConfig) : Json :=
  .ofFields [("key", p.key.summary),
    ("fan_out", .ofOption (fun vs => .array (vs.map .string)) p.fanOut),
    ("expanded", match p.expand with
      | .ok ks => .array (ks.map fun k => .string k.text)
      | .error e => onError e)]

/-- The two bounds of a backoff. -/
def backoffJson (base max : Duration) : Json := .array [base.toJson, max.toJson]

def SchedulerConfig.toJson (onError : Error → Json) (c : SchedulerConfig) : Json :=
  .ofFields [("partitions", .array (c.partitions.map (PartitionConfig.toJson onError))),
    ("batch_size", .ofNat c.batchSize), ("pool_size", .ofNat c.poolSize),
    ("queue_capacity", .ofNat c.queueCapacity), ("max_in_flight", .ofNat c.maxInFlight),
    ("poll_interval", .ofOption Duration.toJson c.pollInterval),
    ("shutdown_timeout", c.shutdownTimeout.toJson),
    ("processor_timeout", c.processorTimeout.toJson),
    ("submit_backoff", backoffJson c.submitBackoffBase c.submitBackoffMax),
    ("suspend_backoff", backoffJson c.suspendBackoffBase c.suspendBackoffMax),
    ("store_backoff", backoffJson c.storeBackoffBase c.storeBackoffMax),
    ("stale_claim_timeout", .ofOption Duration.toJson c.staleClaimTimeout),
    ("retry", c.retry.toJson)]

end DueWork

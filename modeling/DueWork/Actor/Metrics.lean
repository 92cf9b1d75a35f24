/-
  Metrics of a partition: what its actor did, and how long its last drain
  cycles took.

  The durations of the last cycles are in a ring: `record` overwrites the
  oldest one, `recentAverage` averages those that are filled.
-/
import DueWork.Json.Value
import DueWork.Time.Duration

namespace DueWork

open Number (Double)

/-- The durations of the last cycles in microseconds. -/
structure CycleSamples where
  samples : List UInt64
  /-- where the next duration goes -/
  position : Nat := 0
  /-- how many durations were ever recorded -/
  count : Nat := 0
  last : UInt64 := 0
  max : UInt64 := 0
deriving DecidableEq, Repr

namespace CycleSamples

/-- Room for `capacity` durations. -/
def ofCapacity (capacity : Nat) : CycleSamples := { samples := List.replicate capacity 0 }

/-- Write a duration over the oldest one. -/
def record (c : CycleSamples) (us : UInt64) : CycleSamples where
  samples := c.samples.set c.position us
  position := (c.position + 1) % c.samples.length
  count := c.count + 1
  last := us
  max := if c.max < us then us else c.max

/-- The number of durations in the ring. -/
def filled (c : CycleSamples) : Nat := min c.count c.samples.length

/-- The sum of the durations in the ring. -/
def recentSum (c : CycleSamples) : UInt64 := (c.samples.take c.filled).foldl (· + ·) 0

/-- The average of the durations in the ring; zero before the first. -/
def recentAverage (c : CycleSamples) : Double :=
  if c.filled = 0 then .ofNat 0
  else (Double.ofNat c.recentSum.toNat).div (.ofNat c.filled)

end CycleSamples

/-- Counters of one partition's actor. -/
structure Metrics where
  cycles : Nat := 0
  claimed : Nat := 0
  lostClaims : Nat := 0
  done : Nat := 0
  failed : Nat := 0
  deferred : Nat := 0
  storeErrors : Nat := 0
  earlyWakes : Nat := 0
  suspensions : Nat := 0
  samples : CycleSamples := .ofCapacity 64
deriving DecidableEq, Repr

namespace Metrics

/-- Count a cycle of this length. -/
def recordCycle (m : Metrics) (took : Time.Duration) : Metrics :=
  { m with cycles := m.cycles + 1, samples := m.samples.record (.ofNat (took.nanos / 1000)) }

/-- The counters alone. -/
def counters (m : Metrics) : List (String × Json) :=
  [("cycles", .ofNat m.cycles), ("claimed", .ofNat m.claimed),
    ("lost_claims", .ofNat m.lostClaims), ("done", .ofNat m.done), ("failed", .ofNat m.failed),
    ("deferred", .ofNat m.deferred), ("store_errors", .ofNat m.storeErrors),
    ("early_wakes", .ofNat m.earlyWakes), ("suspensions", .ofNat m.suspensions)]

/-- The counters and the times of the cycles. -/
def toJson (m : Metrics) (partition : String) : Json :=
  .ofFields (m.counters ++
    [("partition", .string partition), ("last_cycle_us", .ofNat m.samples.last.toNat),
      ("max_cycle_us", .ofNat m.samples.max.toNat),
      ("avg_cycle_us", .number (.real m.samples.recentAverage))])

end Metrics

end DueWork

/-
  How a drain cycle ended: with a report of what it did, or with the reason
  why it was cut short.
-/
import DueWork.Json.Value
import DueWork.Time.Instant

namespace DueWork

open Time

/-- What a drain cycle did. -/
structure Report where
  fetched : Nat := 0
  claimed : Nat := 0
  lostClaims : Nat := 0
  done : Nat := 0
  failed : Nat := 0
  deferred : Nat := 0
  /-- the earliest due time left in the partition -/
  nextDue : Option Instant := none
  /-- the cycle ended because its actor was stopped -/
  stopped : Bool := false
deriving DecidableEq, Repr

/-- Why a drain cycle was cut short. -/
inductive CycleError where
  | storeUnavailable (partition message : String)
  | panicked (partition message : String)
deriving DecidableEq, Repr

def CycleError.message : CycleError → String
  | storeUnavailable p m => "store unavailable for partition " ++ p ++ ": " ++ m
  | panicked p m => "drain cycle for partition " ++ p ++ " panicked: " ++ m

abbrev CycleResult := Except CycleError Report

/-- The fields of a report, with instants written by `time`. -/
def Report.fields (time : Instant → String) (r : Report) : List (String × Json) :=
  [("fetched", .ofNat r.fetched), ("claimed", .ofNat r.claimed),
    ("lost_claims", .ofNat r.lostClaims), ("done", .ofNat r.done), ("failed", .ofNat r.failed),
    ("deferred", .ofNat r.deferred), ("next_due", .ofOption (fun t => .string (time t)) r.nextDue),
    ("stopped", .bool r.stopped)]

end DueWork

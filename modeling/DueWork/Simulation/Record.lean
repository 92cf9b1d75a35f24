/-
  What a simulated run has to show, as JSON records.
-/
import DueWork.Simulation.PoolRun
import DueWork.Simulation.Run

namespace DueWork

def Simulation.CallLine.toJson (l : CallLine) : Json :=
  .ofFields [("ref", .string l.jobRef), ("id", .ofInt l.id), ("failures", .ofNat l.failures.toNat),
    ("state", .string l.state.name), ("at_ms", .ofNat l.time)]

def Simulation.CommitLine.toJson (l : CommitLine) : Json :=
  .array [.ofInt l.id, .string l.state.name, .ofOption (fun n => .ofNat n.toNat) l.failures]

def Simulation.Run.StopReport.toJson (r : Run.StopReport) : Json :=
  .ofFields [("total_partitions", .ofNat r.partitions),
    ("completed_cycles", .ofNat r.shutdown.completed),
    ("forced_terminations", .ofNat r.shutdown.aborted)]

def PoolConfig.toJson (c : PoolConfig) : Json :=
  .ofFields [("pool_size", .ofNat c.poolSize), ("queue_capacity", .ofNat c.queueCapacity),
    ("max_in_flight", .ofNat c.maxInFlight)]

def Simulation.PoolLogLine.toJson (l : PoolLogLine) : Json :=
  .array [.ofNat l.time, .string l.name, .string (if l.isEnd then "end" else "start")]

/-- What a subscriber found, a message being written by `f`. -/
def Signal.Received.toJson {α : Type} (f : α → Json) : Received α → Json
  | .message m => f m
  | .empty => .string "empty"
  | .lagged n => .ofFields [("lagged", .ofNat n)]

/-- A listener, and whether a wake of its partition is on its way. -/
def Signal.Listener.toJson (l : Listener) (pending : Bool) : Json :=
  .ofFields [("partition", .string l.key.name), ("key", .string l.key.text),
    ("pending", .bool pending), ("debug", .string (l.description pending))]

/-- The counters of an actor with the name of its partition. -/
def Actor.countersJson (a : Actor) : Json :=
  .ofFields (("partition", .string a.key.name) :: a.metrics.counters)

/-- An outcome, with instants written by `time`. -/
def Outcome.toJson (time : Time.Instant → String) : Outcome → Json
  | .done r => .ofFields [("outcome", .string "done"), ("result", r.getD .null)]
  | .failed r => .ofFields [("outcome", .string "failed"), ("reason", .string r)]
  | .retry r t => .ofFields [("outcome", .string "retry"), ("reason", .string r),
      ("not_before", .ofOption (fun t => .string (time t)) t)]

end DueWork

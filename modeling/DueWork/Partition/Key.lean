/-
  Partition keys: which instances form one partition, and where they live.

  A partition is the set of instances of one type that match a predicate.
  Partitions are scheduled independently, so two of them must not share an
  instance.

  * `Key.build` is the way to a key: it checks every name that ends up in a
    store query;
  * `Key.derive` narrows a key to one value of its partition attribute;
  * `Key.isDisjointFrom` and `validateDisjoint` keep partitions apart.
-/
import DueWork.Job.Instance
import DueWork.Partition.Predicate

namespace DueWork

open Time

/-- Which instances form a partition, the columns that hold their identity,
    due time and state, and the state that counts as ready. -/
structure Key where
  name : String
  instanceType : String := defaultInstanceType
  idAttribute : String := "id"
  scheduleAttribute : String := "due_at"
  stateAttribute : String := "state"
  partitionAttribute : String := "channel_type"
  readyState : State := .new
  predicate : Predicate := .all
  /-- paths that a store may load along with each instance -/
  joinFetches : List String := []
deriving DecidableEq, Repr

namespace Key

/-- The checks that make a description a key. -/
def build (k : Key) : Except Error Key := do
  if Text.IsBlank k.name then throw (.configuration "partition name must not be empty")
  requireIdentifier "instance type" k.instanceType
  requireIdentifier "id attribute" k.idAttribute
  requireIdentifier "schedule attribute" k.scheduleAttribute
  requireIdentifier "state attribute" k.stateAttribute
  requireIdentifier "partition attribute" k.partitionAttribute
  k.predicate.clauses.forM fun c => requireIdentifier "predicate attribute" c.name
  if !k.readyState.isClaimable then
    throw (.configuration ("ready state of partition '" ++ k.name ++
      "' must be NEW or DEFERRED, got " ++ k.readyState.name))
  return k

/-- The configured ready state and `deferred`. -/
def readyStates (k : Key) : List State :=
  if k.readyState = .deferred then [.deferred] else [k.readyState, .deferred]

/-- Whether a state counts as ready. -/
def isReadyState (k : Key) (s : State) : Bool := s == k.readyState || s == .deferred

/-- The value that the partition attribute is pinned to, if any. -/
def discriminator (k : Key) : Option String :=
  (k.predicate.clauses.reverse.find? (·.name == k.partitionAttribute)).map (·.value)

/-- The instance belongs to the partition, whatever its state. -/
def owns (k : Key) (j : Job) : Bool :=
  j.instanceType == k.instanceType && k.predicate.accepts j.attributes

/-- The instance may be claimed at `now`. -/
def isReady (k : Key) (j : Job) (now : Instant) : Bool :=
  k.owns j && k.isReadyState j.state && j.dueAt ≤ now

/-- The part of the partition with this value of the partition attribute. -/
def derive (k : Key) (value : String) : Except Error Key :=
  if Text.IsBlank value then
    .error (.configuration ("cannot derive partition '" ++ k.name ++
      "' from an empty discriminator"))
  else
    .ok { k with
      name := k.name ++ "/" ++ value
      predicate := k.predicate.and k.partitionAttribute value }

/-- No instance can belong to both partitions. -/
def isDisjointFrom (a b : Key) : Bool :=
  a.instanceType != b.instanceType || a.predicate.isDisjointFrom b.predicate

/-- Name, instance type and predicate. -/
def text (k : Key) : String := k.name ++ " (" ++ k.instanceType ++ ": " ++ k.predicate.text ++ ")"

end Key

/-- The first name that occurs before in a list of keys. -/
def repeatedName : List String → List Key → Option String
  | _, [] => none
  | seen, k :: ks => if seen.contains k.name then some k.name else repeatedName (k.name :: seen) ks

/-- The first pair of keys that may share an instance. -/
def overlappingPair : List Key → Option (Key × Key)
  | [] => none
  | k :: ks =>
    match ks.find? fun l => !k.isDisjointFrom l with
    | some l => some (k, l)
    | none => overlappingPair ks

/-- Names are distinct and no two partitions can share an instance. -/
def validateDisjoint (ks : List Key) : Except Error Unit :=
  match repeatedName [] ks with
  | some name => .error (.configuration ("partition '" ++ name ++ "' is registered more than once"))
  | none =>
    match overlappingPair ks with
    | some (a, b) =>
      .error (.configuration ("partitions '" ++ a.text ++ "' and '" ++ b.text ++
        "' are not provably disjoint"))
    | none => .ok ()

end DueWork

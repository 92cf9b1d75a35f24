/-
  Delivery channels and the routing of instances to them.

  The value of one attribute, `channel_type` unless told otherwise, names the
  channel of an instance.  A delivery that fails for now is retried, one that
  is rejected fails the instance.
-/
import DueWork.Actor.Outcome
import DueWork.Text.Quoted

namespace DueWork

/-- Why a delivery did not go through. -/
inductive ChannelError where
  /-- worth another try -/
  | transient (reason : String)
  /-- another try will not help -/
  | permanent (reason : String)
deriving DecidableEq, Repr

def ChannelError.message : ChannelError → String
  | transient r => "transient delivery failure: " ++ r
  | permanent r => "permanent delivery failure: " ++ r

/-- A channel: its type, and what becomes of a delivery. -/
structure Channel where
  kind : String
  send : Job → Except ChannelError Unit

/-- Channels by the values of an attribute. -/
structure Router where
  routeBy : String := "channel_type"
  channels : List Channel := []

namespace Router

/-- Add a channel in the place of one of its type. -/
def withChannel (r : Router) (c : Channel) : Router :=
  { r with channels := r.channels.filter (·.kind != c.kind) ++ [c] }

/-- The types of the channels, in order. -/
def kinds (r : Router) : List String := (r.channels.map (·.kind)).mergeSort fun a b => a ≤ b

/-- The channel of an instance, or the reason why there is none. -/
def channelFor (r : Router) (j : Job) : Except String Channel :=
  match j.attribute? r.routeBy with
  | none => .error ("instance has no " ++ r.routeBy ++ " attribute")
  | some kind =>
    match r.channels.find? (·.kind == kind) with
    | some c => .ok c
    | none => .error ("no channel registered for '" ++ kind ++ "'")

/-- Deliver an instance through its channel. -/
def process (r : Router) (j : Job) : Outcome :=
  match r.channelFor j with
  | .error reason => .failed reason
  | .ok c =>
    match c.send j with
    | .ok () => .done (some (.ofFields [("channel", .string c.kind)]))
    | .error (.transient reason) => .retry reason none
    | .error (.permanent reason) => .failed reason

/-- The number of these instances that go to the channel of a type. -/
def delivered (r : Router) (kind : String) (js : List Job) : Nat :=
  js.countP fun j => j.attribute? r.routeBy == some kind

/-- The description of a router. -/
def description (r : Router) : String :=
  "NotificationProcessor \x7b channels: " ++ Text.quotedList r.kinds ++ ", route_attribute: " ++
    Text.quoted r.routeBy ++ " \x7d"

end Router

end DueWork

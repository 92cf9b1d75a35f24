/-
  Webhooks: delivery by a request to a fixed URL.

  An instance is posted as a JSON object, with the configured headers and a
  bearer token if there is one.  A success status is a delivery; server
  errors, throttling and timeouts are worth another try, and so is a lost
  connection; a request that cannot even be written is not.

  * `WebhookConfig.ofSource` reads `channel.webhook.*`;
  * `Webhook.request?` is the request for an instance, if it can be written;
  * `Webhook.deliver` is the outcome of sending it.
-/
import DueWork.Config.Source
import DueWork.Job.Record
import DueWork.Notification.Channel
import DueWork.Notification.Status
import DueWork.Notification.Url
import DueWork.Number.Numeral

namespace DueWork

open Json Notification

structure WebhookConfig where
  url : String
  channelType : String := "webhook"
  headers : List (String × String) := []
  bearerToken : Option String := none
  timeoutSeconds : Nat := 30
deriving DecidableEq, Repr

namespace WebhookConfig

/-- Read `channel.webhook.*`; without a URL there is no webhook. -/
def ofSource (s : Source) : Except Error (Option WebhookConfig) :=
  match s.nonBlank? "channel.webhook.url" with
  | none => .ok none
  | some url => do
    let d : WebhookConfig := { url := url }
    let channelType ← s.getD readText "channel.webhook.channel_type" d.channelType
    let timeout ←
      s.getD (Number.Numeral.natural 64) "channel.webhook.timeout_secs" d.timeoutSeconds
    return some { d with
      channelType := channelType
      bearerToken := s.nonBlank? "channel.webhook.bearer_token"
      timeoutSeconds := timeout }

def decoder : Decoder WebhookConfig := fun depth n => do
  let names := ["url", "channel_type", "headers", "bearer_token", "timeout_secs"]
  let r ← Record.ofNode? names depth n
  let url ← r.required "url" .string
  let d : WebhookConfig := { url := url }
  some {
    url := url
    channelType := ← r.orElse "channel_type" .string d.channelType
    headers := ← r.orElse "headers" (.list (.pair .string .string)) d.headers
    bearerToken := ← r.optional "bearer_token" .string
    timeoutSeconds := ← r.orElse "timeout_secs" (.natural 64) d.timeoutSeconds }

def toJson (c : WebhookConfig) : Json :=
  .ofFields [("url", .string c.url), ("channel_type", .string c.channelType),
    ("headers", .array (c.headers.map fun (n, v) => .array [.string n, .string v])),
    ("bearer_token", .ofOption .string c.bearerToken), ("timeout_secs", .ofNat c.timeoutSeconds)]

end WebhookConfig

/-- A request as it is sent, with header names in lower case. -/
structure WebhookRequest where
  line : String
  headers : List (String × String)
  body : Json

def WebhookRequest.toJson (r : WebhookRequest) : Json :=
  .ofFields [("line", .string r.line),
    ("headers", .ofFields (r.headers.map fun (n, v) => (n, .string v))), ("body", r.body)]

/-- What comes of sending a request. -/
inductive WebhookReply where
  /-- there was no connection, or it was lost -/
  | unreachable
  | response (status : Nat) (body : String)

namespace Webhook

/-- The object that is posted for an instance. -/
def body (j : Job) : Json :=
  .ofFields [("instance_id", .ofInt j.id), ("job_ref", .string j.jobRef),
    ("due_at", .string j.dueAt.textWithOffset), ("attempt", .ofNat (j.failureCount.toNat + 1)),
    ("attributes", j.attributes.toJson), ("payload", j.payload.getD .null)]

def isTokenChar (c : Char) : Bool :=
  c.isAlphanum || "!#$%&'*+-.^_\x60|~".toList.contains c

/-- A name that a header may have. -/
def isHeaderName (s : String) : Bool := !s.isEmpty && s.toList.all isTokenChar

/-- A value that a header may have: no controls but the tab. -/
def isHeaderValue (s : String) : Bool :=
  s.toList.all fun c => (c.toNat ≥ 32 && c.toNat != 127) || c == '\t'

/-- Add a header; values under one name are joined by commas. -/
def addHeader (hs : List (String × String)) (h : String × String) : List (String × String) :=
  let name := h.1.map Char.toLower
  if hs.any (·.1 == name) then hs.map fun (n, v) => (n, if n = name then v ++ ", " ++ h.2 else v)
  else hs ++ [(name, h.2)]

/-- The headers of a request: the configured ones after the content type, and
    the token last. -/
def headers (c : WebhookConfig) : List (String × String) :=
  let token := c.bearerToken.toList.map fun t => ("authorization", "Bearer " ++ t)
  (c.headers ++ token).foldl addHeader [("content-type", "application/json")]

/-- The headers that the connection sets itself. -/
def ownHeaders : List String :=
  ["host", "content-length", "accept", "accept-encoding", "user-agent"]

/-- The request for an instance, to this path of the host, if it can be
    written. -/
def request? (c : WebhookConfig) (path : String) (j : Job) : Option WebhookRequest :=
  let valid := c.headers.all (fun (n, v) => isHeaderName n && isHeaderValue v) &&
    c.bearerToken.all isHeaderValue && Url.isHttp c.url
  if valid then
    some {
      line := "POST " ++ Url.target path ++ " HTTP/1.1"
      headers := (headers c).filter fun (n, _) => !ownHeaders.contains n
      body := body j }
  else none

/-- What a response says about the delivery. -/
def classify (status : Nat) (text : String) : Except ChannelError Unit :=
  if isSuccess status then .ok ()
  else
    let reason := "webhook responded " ++ statusText status ++ " - " ++
      (if isBodiless status then "" else text)
    .error (if isTransient status then .transient reason else .permanent reason)

/-- The outcome of a delivery. -/
def deliver (c : WebhookConfig) (path : String) (j : Job) (reply : WebhookReply) :
    Except ChannelError Unit :=
  match request? c path j, reply with
  | none, _ => .error (.permanent "invalid webhook request")
  | some _, .unreachable => .error (.transient "webhook request failed")
  | some _, .response status text => classify status text

end Webhook

end DueWork

import PacketMonitor.Dashboard.Fault
import PacketMonitor.Dashboard.Request
import PacketMonitor.Hub
import PacketMonitor.Session.Status
import PacketMonitor.Version

namespace PacketMonitor

/-- What dashboards are served from: the hub, where the session is, and the whole
    seconds since the start. -/
structure Dashboard where
  hub : Hub
  status : Session.Status := .disconnected
  uptime : Nat := 0

namespace Dashboard

/-- What can be asked for. -/
inductive Route where
  | stream
  | version
  | health
  | liveness
  deriving DecidableEq, Repr

/-- The route of a path. Paths are compared as they are. -/
def Route.ofPath? : String → Option Route
  | "/ws" => some stream
  | "/version" => some version
  | "/health" => some health
  | "/health/live" => some liveness
  | _ => none

/-- How the program does. An outage of the node is told and is no fault. -/
def health (d : Dashboard) : Json :=
  .object [
    ("status", .str (if d.status.isStreaming then "streaming" else "degraded")),
    ("session", d.status.toJson),
    ("subscribers", .natural d.hub.subscribers),
    ("history_len", .natural d.hub.history.size),
    ("uptime_seconds", .natural d.uptime),
    ("version", .str programVersion)]

/-- The first thing that keeps a request from opening a stream. -/
def streamRefusal? (r : Request) : Option Response :=
  if r.method ≠ "GET" then some (.plain 405 "Request method must be `GET`")
  else if !r.mentions "connection" "upgrade" then
    some (.plain 400 "Connection header did not include 'upgrade'")
  else if !r.equals "upgrade" "websocket" then
    some (.plain 400 "`Upgrade` header did not include 'websocket'")
  else if !r.equals "sec-websocket-version" "13" then
    some (.plain 400 "`Sec-WebSocket-Version` header did not include '13'")
  else if (r.header? "sec-websocket-key").isNone then
    some (.plain 400 "`Sec-WebSocket-Key` header missing")
  else if !r.upgradable then
    some (.plain 426 "WebSocket request couldn't be upgraded since no upgrade state was present")
  else none

/-- What a request leads to. A connection turns into a stream only after its
    subscriber was let in. -/
inductive Reply where
  | response (r : Response)
  | stream (hub : Hub)

/-- Lets a subscriber in for a stream. -/
def openStream (d : Dashboard) (r : Request) (name requestId : String) : Reply :=
  match streamRefusal? r with
  | some refusal => .response refusal
  | none =>
    match d.hub.attach name with
    | .ok (hub, _) => .stream hub
    | .error e => .response ((Fault.unavailable e.message).response requestId)

/-- What a route gives. -/
def follow (d : Dashboard) (r : Request) (name requestId : String) : Route → Reply
  | .stream => d.openStream r name requestId
  | .version => .response (.plain 200 programVersion)
  | .health => .response (.json 200 d.health)
  | .liveness => .response (.bare 200)

/-- Changes a response, but no stream. -/
def Reply.map (change : Response → Response) : Reply → Reply
  | response r => response (change r)
  | stream hub => stream hub

/-- Says by what methods a resource can be had, if there is one. -/
def withMethods (route : Option Route) (r : Response) : Response :=
  if route.isSome then r.withHeader "allow" "GET,HEAD" else r

/-- Answers a request. A subscriber let in by it gets the given name, and a fault
    is reported under the given number. -/
def reply (d : Dashboard) (r : Request) (name requestId : String) : Reply :=
  let route := Route.ofPath? r.path
  let answered : Reply :=
    if r.method = "OPTIONS" then .response (withMethods route .allowance)
    else match route with
      | none => .response (.bare 404)
      | some found =>
        if r.method = "GET" then d.follow r name requestId found
        else if r.method = "HEAD" then (d.follow r name requestId found).map .withoutBody
        else .response (withMethods route (.bare 405))
  answered.map .shared

end Dashboard

end PacketMonitor

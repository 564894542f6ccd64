import PacketMonitor.Hub

namespace PacketMonitor.Hub

/-- What can be done with a hub. -/
inductive Operation where
  | publish (message : String)
  | attach (name : String)
  | detach (name : String)
  | receive (name : String) (limit? : Option Nat)
  | close (name : String)
  | abandon (name : String)
  deriving DecidableEq, Repr

/-- What an operation gives back. -/
inductive Outcome where
  | delivered (count : Nat)
  | replayed (count : Nat)
  | refused (why : AttachError)
  | removed (found : Bool)
  | received (messages : List String) (ending : ReceiveEnd)
  | done
  deriving DecidableEq, Repr

/-- Carries an operation out. Nothing else happens to the hub meanwhile. -/
def perform (hub : Hub) : Operation → Hub × Outcome
  | .publish message =>
    let (hub, count) := hub.publish message
    (hub, .delivered count)
  | .attach name =>
    match hub.attach name with
    | .ok (hub, count) => (hub, .replayed count)
    | .error why => (hub, .refused why)
  | .detach name =>
    let (hub, found) := hub.detach name
    (hub, .removed found)
  | .receive name limit? =>
    let (hub, messages, ending) := hub.receive name limit?
    (hub, .received messages ending)
  | .close name => (hub.close name, .done)
  | .abandon name => (hub.abandon name, .done)

/-- Carries operations out in order. -/
def performAll (hub : Hub) (operations : List Operation) : Hub :=
  operations.foldl (fun hub operation => (hub.perform operation).1) hub

end PacketMonitor.Hub

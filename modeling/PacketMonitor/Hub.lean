import PacketMonitor.Event.Wire
import PacketMonitor.History

namespace PacketMonitor

/-- How many events a hub keeps for replay, how far a subscriber may lag behind,
    and how many subscribers there may be. -/
structure Hub.Settings where
  historyCapacity : Nat := 5000
  subscriberQueue : Nat := 1024
  maxSubscribers : Nat := 256
  deriving DecidableEq, Repr

/-- The number of unread messages a subscriber may have. A full replay always
    fits, and there is room for one message at least. -/
def Hub.Settings.queueLimit (s : Settings) : Nat :=
  max 1 (s.historyCapacity + s.subscriberQueue)

/-- What a subscriber does with its queue: it accepts messages, only reads what
    is there, or is gone. -/
inductive Hub.Reader where
  | listening
  | closed
  | gone
  deriving DecidableEq, Repr

/-- The queue between a hub and one subscriber. It outlives the registration, so
    that what was queued can still be read. -/
structure Hub.Mailbox where
  queued : List String := []
  reader : Reader := .listening
  registered : Bool := true
  deriving DecidableEq, Repr

/-- The events published so far, as far as they are kept, and the mailboxes of
    all subscribers by name, in the order of their coming. -/
structure Hub where
  settings : Hub.Settings
  history : History String
  mailboxes : List (String × Hub.Mailbox)

namespace Hub

/-- A hub without events and subscribers. -/
def empty (settings : Settings) : Hub where
  settings
  history := .empty settings.historyCapacity
  mailboxes := []

/-- The mailbox of a subscriber. -/
def mailbox? (hub : Hub) (name : String) : Option Mailbox :=
  (hub.mailboxes.find? (·.1 == name)).map (·.2)

/-- Changes the mailbox of one subscriber. -/
def update (hub : Hub) (name : String) (change : Mailbox → Mailbox) : Hub :=
  { hub with
    mailboxes := hub.mailboxes.map fun (other, box) =>
      (other, if other == name then change box else box) }

/-- Whether a subscriber is registered. -/
def isRegistered (hub : Hub) (name : String) : Bool :=
  ((hub.mailbox? name).map (·.registered)).getD false

/-- The number of registered subscribers. Those that went away without notice
    count until the next event finds them missing. -/
def subscribers (hub : Hub) : Nat :=
  (hub.mailboxes.filter (·.2.registered)).length

/-- Offers a message to a subscriber. One that does not listen or has no room is
    let go and gets nothing more. -/
def Mailbox.offer (limit : Nat) (message : String) (box : Mailbox) : Mailbox :=
  if !box.registered then box
  else if box.reader = .listening ∧ box.queued.length < limit then
    { box with queued := box.queued ++ [message] }
  else { box with registered := false }

/-- Records a message and offers it to every subscriber. The number returned
    counts those that took it. -/
def publish (hub : Hub) (message : String) : Hub × Nat :=
  let hub :=
    { hub with
      history := hub.history.push message
      mailboxes := hub.mailboxes.map fun (name, box) =>
        (name, box.offer hub.settings.queueLimit message) }
  (hub, hub.subscribers)

/-- Publishes an event in its wire form. -/
def publishEvent (hub : Hub) (event : Event) : Hub × Nat :=
  hub.publish event.wire

/-- Publishes events in order. -/
def publishAll (hub : Hub) (events : List Event) : Hub :=
  events.foldl (fun hub event => (hub.publishEvent event).1) hub

@[simp] theorem publishAll_nil (hub : Hub) : hub.publishAll [] = hub := rfl

theorem publishAll_append (hub : Hub) (early late : List Event) :
    hub.publishAll (early ++ late) = (hub.publishAll early).publishAll late := by
  simp [publishAll]

/-- The only reason why nobody new is let in. -/
inductive AttachError where
  | tooManySubscribers (limit : Nat)
  deriving DecidableEq, Repr

/-- The error as shown to people. -/
def AttachError.message : AttachError → String
  | .tooManySubscribers limit => s!"Too many subscribers (limit: {limit})"

/-- Registers a subscriber. From now on the name stands for it alone. The history
    is put into its mailbox first, and the number returned says how much that was. -/
def attach (hub : Hub) (name : String) : Except AttachError (Hub × Nat) :=
  if hub.settings.maxSubscribers ≤ hub.subscribers then
    .error (.tooManySubscribers hub.settings.maxSubscribers)
  else
    let replay := hub.history.toList
    let others := hub.mailboxes.filter (·.1 != name)
    .ok ({ hub with mailboxes := others ++ [(name, { queued := replay })] }, replay.length)

/-- Ends a registration and says whether there was one. -/
def detach (hub : Hub) (name : String) : Hub × Bool :=
  (hub.update name fun box => { box with registered := false }, hub.isRegistered name)

/-- Why a subscriber stopped taking messages. -/
inductive ReceiveEnd where
  | limit
  | waiting
  | closed
  | gone
  deriving DecidableEq, Repr

/-- Why a mailbox gave `taken` messages and no more. Whoever got as many as were
    asked for learns nothing about the rest. -/
def Mailbox.receiveEnd (box : Mailbox) (limit? : Option Nat) (taken : Nat) : ReceiveEnd :=
  if limit? = some taken then .limit
  else if box.registered ∧ box.reader = .listening then .waiting
  else .closed

/-- Takes queued messages, at most as many as given. -/
def receive (hub : Hub) (name : String) (limit? : Option Nat) : Hub × List String × ReceiveEnd :=
  match hub.mailbox? name with
  | none => (hub, [], .gone)
  | some box =>
    if box.reader = .gone then (hub, [], .gone)
    else
      let taken := box.queued.take (limit?.getD box.queued.length)
      (hub.update name fun box => { box with queued := box.queued.drop taken.length },
        taken, box.receiveEnd limit? taken.length)

/-- A subscriber wants no further messages but still reads the queued ones. -/
def close (hub : Hub) (name : String) : Hub :=
  hub.update name fun box =>
    { box with reader := if box.reader = .gone then .gone else .closed }

/-- A subscriber goes away, and with it all it has not read. -/
def abandon (hub : Hub) (name : String) : Hub :=
  hub.update name fun box => { box with reader := .gone, queued := [] }

end Hub

end PacketMonitor

import PacketMonitor.Hub.Operation

namespace PacketMonitor.Dashboard

/-- What comes from a dashboard, as far as anybody cares for it: some message, a close, an
    error, or the end of the line. -/
inductive ClientFrame where
  | message
  | close
  | failure
  | ended
  deriving DecidableEq, Repr

/-- Whether nothing is read after a frame. -/
def ClientFrame.isLast : ClientFrame → Bool
  | message => false
  | close | failure | ended => true

/-- What passing messages on is about: the next one is awaited, one is on its way to the
    dashboard, or the dashboard is told goodbye. -/
inductive Passing where
  | waiting
  | holding (message : String)
  | leaving
  | ended
  deriving DecidableEq, Repr

/-- How it goes on with what the queue gave. Without a message it is left only when none can
    come any more. -/
def Passing.afterReceiving : List String × Hub.ReceiveEnd → Passing
  | (message :: _, _) => holding message
  | ([], .waiting) => waiting
  | ([], _) => leaving

/-- A stream to one dashboard. Messages are passed on and frames are read side by side. When
    one of the two has ended, the other is stopped and the stream is over. `sent` are the
    messages that the dashboard got, and `saidGoodbye` tells whether a close followed them. -/
structure Relay where
  hub : Hub
  name : String
  sent : List String := []
  passing : Passing := .waiting
  isReading : Bool := true
  saidGoodbye : Bool := false
  isOver : Bool := false

namespace Relay

/-- Things that happen around a stream, in any order. The socket may refuse what is
    passed on. -/
inductive Step where
  | elsewhere (operation : Hub.Operation)
  | pass (isAccepted : Bool)
  | read (frame : ClientFrame)
  | stop
  | finish
  deriving DecidableEq, Repr

/-- Nothing more is passed on, and nobody is left to take what was queued. -/
def endPassing (r : Relay) : Relay :=
  { r with hub := r.hub.abandon r.name, passing := .ended }

/-- Does the next thing about passing messages on. A message that is refused is the last one
    and is followed by a goodbye like the end of the queue. -/
def pass (r : Relay) (isAccepted : Bool) : Relay :=
  match r.passing with
  | .waiting =>
    let (hub, received) := r.hub.receive r.name (some 1)
    { r with hub, passing := .afterReceiving received }
  | .holding message =>
    if isAccepted then { r with sent := r.sent ++ [message], passing := .waiting }
    else { r with passing := .leaving }
  | .leaving => { r with saidGoodbye := isAccepted }.endPassing
  | .ended => r

/-- Reads a frame. -/
def read (r : Relay) (frame : ClientFrame) : Relay :=
  if frame.isLast then { r with isReading := false } else r

/-- Stops the one that still goes on when the other has ended. What it has in hand is lost. -/
def stop (r : Relay) : Relay :=
  if r.passing = .ended then { r with isReading := false }
  else if r.isReading then r
  else r.endPassing

/-- Whether passing on or reading has ended. -/
def isEnding (r : Relay) : Bool :=
  r.passing == .ended || !r.isReading

/-- Takes the subscriber off the hub. The other of the two may not have been stopped yet. -/
def finish (r : Relay) : Relay :=
  if r.isEnding && !r.isOver then { r with hub := (r.hub.detach r.name).1, isOver := true } else r

/-- One step. -/
def step (r : Relay) : Step → Relay
  | .elsewhere operation => { r with hub := (r.hub.perform operation).1 }
  | .pass isAccepted => r.pass isAccepted
  | .read frame => r.read frame
  | .stop => r.stop
  | .finish => r.finish

/-- The stream after steps in order. -/
def run (r : Relay) (steps : List Step) : Relay :=
  steps.foldl step r

/-- A stream to a subscriber that was just let in. -/
def start (hub : Hub) (name : String) : Except Hub.AttachError Relay :=
  (hub.attach name).map fun (hub, _) => { hub, name }

end Relay

end PacketMonitor.Dashboard

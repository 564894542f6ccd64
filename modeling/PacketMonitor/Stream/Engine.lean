import PacketMonitor.Hub
import PacketMonitor.Stream.Report
import PacketMonitor.Stream.Run

namespace PacketMonitor.Stream

/-- Where whole frames go: to a hub, into an archive and onto a console. An engine may
    do without the last two. -/
structure Desk where
  hub : Hub
  archive : Option (List UInt8) := none
  console : Option String := none

namespace Desk

/-- Keeps every byte of a frame. -/
def append (desk : Desk) (raw : List UInt8) : Desk :=
  { desk with archive := desk.archive.map (· ++ raw) }

/-- Publishes the events of a text one after the other. -/
def publish (color : RouteColor) (desk : Desk) (text : String) : Desk :=
  { desk with hub := desk.hub.publishAll (Event.ofFrame color text) }

/-- Shows a text as a line. -/
def echo (desk : Desk) (text : String) : Desk :=
  { desk with console := desk.console.map (· ++ (text ++ "\n")) }

/-- Handles a whole frame. Its bytes are kept before anything is told. -/
def take (color : RouteColor) (desk : Desk) (raw : List UInt8) : Desk :=
  let text := Frame.clean raw
  ((desk.append raw).publish color text).echo text

/-- Follows one occurrence on the stream. -/
def follow (color : RouteColor) (desk : Desk) : Occurrence → Desk
  | .told (.frame raw) => desk.take color raw
  | _ => desk

end Desk

/-- A reader with the stream it reads, the time, and the desk for its frames. -/
structure Engine where
  reader : Reader := {}
  source : Source
  time : Nat := 0
  desk : Desk

namespace Engine

/-- What a run comes to. -/
def outcome (cancelAt : Nat) (engine : Engine) : Outcome :=
  engine.reader.run cancelAt engine.time engine.source

/-- Runs a session until a fault ends it. Bytes that were not looked at stay on the stream. -/
def run (color : RouteColor) (cancelAt : Nat) (engine : Engine) : Engine :=
  let outcome := engine.outcome cancelAt
  { reader := outcome.reader
    source := outcome.source
    time := outcome.time
    desk := (outcome.occurrences.map (·.2)).foldl (Desk.follow color) engine.desk }

/-- Runs one session after the other. -/
def runs (color : RouteColor) (cancelAt : Nat) (engine : Engine) : Nat → Engine
  | 0 => engine
  | count + 1 => (engine.runs color cancelAt count).run color cancelAt

end Engine

end PacketMonitor.Stream

import PacketMonitor.Session.Duration
import PacketMonitor.Session.Error
import PacketMonitor.Session.Writer
import PacketMonitor.Text.Utf8

namespace PacketMonitor.Session

open Text

/-- The most ports that a monitor command can select one by one. -/
def maxPorts : Nat := 63

/-- One bit for each monitored port, the first one lowest. From 64 ports on all
    bits are set. -/
def portMask (ports : UInt32) : UInt64 :=
  if 64 ≤ ports then 0xFFFFFFFFFFFFFFFF else ((1 : UInt64) <<< ports.toUInt64) - 1

/-- The command that turns monitoring on. -/
def monitorCommand (ports : UInt32) : String :=
  "\\\\\\\\" ++ String.ofList (hexadecimal (portMask ports).toNat) ++ " 1 1 1 0 0 0 1"

/-- A command with the carriage return that ends it. -/
def commandLine (command : String) : List UInt8 :=
  Utf8.encode (command.toList ++ ['\r'])

/-- What is done during a handshake, in milliseconds where it is waiting. -/
inductive Action where
  | pause (millis : Nat)
  | send (step : Step) (bytes : List UInt8)
  deriving DecidableEq, Repr

/-- The handshake: log in, switch to the host terminal, and select the ports. The
    node needs time before the first message, after the last one, and between
    those that it answers. -/
def handshake (callsign : String) (ports : UInt32) (settle step : Nat) : List Action :=
  [.pause settle,
    .send .callsign (commandLine callsign),
    .pause step,
    .send .modeSwitch (commandLine "p"),
    .send .terminal (commandLine "BPQTERMTCP"),
    .pause step,
    .send .monitorPorts (commandLine (monitorCommand ports)),
    .pause settle]

/-- Waits unless cancellation comes first. The result is the time after waiting
    and whether the wait was completed. -/
def pause (cancelAt now millis : Nat) : Nat × Bool :=
  let finish := now + min millis longestWait
  if cancelAt ≤ finish then (max now cancelAt, false) else (finish, true)

/-- The end of a handshake: the writer, the messages written, when it was over,
    and the error if there was one. -/
structure HandshakeOutcome where
  writer : Writer
  writes : List Write
  time : Nat
  error : Option Error

/-- The messages that reached the node. -/
def HandshakeOutcome.sent (outcome : HandshakeOutcome) : List Sent :=
  outcome.writes.filterMap Write.sent?

/-- Goes through the actions of a handshake. Only waiting can be cancelled, a
    message under way is finished first. One that is refused is the last. -/
def perform (cancelAt : Nat) (w : Writer) (now : Nat) : List Action → HandshakeOutcome
  | [] => ⟨w, [], now, none⟩
  | .pause millis :: rest =>
    match pause cancelAt now millis with
    | (time, true) => perform cancelAt w time rest
    | (time, false) => ⟨w, [], time, some .cancelled⟩
  | .send step bytes :: rest =>
    match w.send now bytes with
    | (w, time, .error refusal) =>
      ⟨w, [⟨now, time, bytes, false⟩], time, some (.handshake step refusal.message)⟩
    | (w, time, .ok sent) =>
      let outcome := perform cancelAt w time rest
      { outcome with writes := sent.write :: outcome.writes }

end PacketMonitor.Session

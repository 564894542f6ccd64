import PacketMonitor.Stream.Fault

namespace PacketMonitor.Session

/-- The four messages of a handshake. -/
inductive Step where
  | callsign
  | modeSwitch
  | terminal
  | monitorPorts
  deriving DecidableEq, Repr

/-- A message as error texts name it. -/
def Step.title : Step → String
  | .callsign => "callsign"
  | .modeSwitch => "mode switch"
  | .terminal => "terminal command"
  | .monitorPorts => "monitor port mask"

/-- Why a session did not come about or is over. -/
inductive Error where
  | connect (address message : String)
  | handshake (step : Step) (message : String)
  | monitor (fault : Stream.Fault)
  | cancelled
  deriving DecidableEq, Repr

/-- The coarse kinds of session errors. -/
inductive Kind where
  | connectFailure
  | handshakeFailure
  | protocolViolation
  | streamFailure
  | cancelled
  deriving DecidableEq, Repr

namespace Error

/-- An error as shown to people. -/
def message : Error → String
  | .connect address message => s!"Failed to connect to {address}: {message}"
  | .handshake step message => s!"Handshake failed at {step.title}: {message}"
  | .monitor fault => s!"Monitor stream ended: {fault.message}"
  | .cancelled => "Cancelled"

/-- The kind of an error. Cancellation counts as such wherever it was noticed. -/
def kind : Error → Kind
  | .connect .. => .connectFailure
  | .handshake .. => .handshakeFailure
  | .monitor (.violation _) => .protocolViolation
  | .monitor .cancelled | .cancelled => .cancelled
  | .monitor _ => .streamFailure

/-- Whether an error means that no new session is wanted. -/
def isCancelled (e : Error) : Bool :=
  e.kind == .cancelled

end Error

end PacketMonitor.Session

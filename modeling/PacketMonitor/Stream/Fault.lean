import PacketMonitor.Text.Numeral

namespace PacketMonitor.Stream

/-- How far a session has come: waiting for the node's banner, reading its list
    of ports, receiving frames, or over. -/
inductive Phase where
  | connecting
  | awaitingPortList
  | monitoring
  | failed
  deriving DecidableEq, Repr

/-- A phase as error texts name it. -/
def Phase.title : Phase → String
  | .connecting => "Connecting"
  | .awaitingPortList => "AwaitingPortList"
  | .monitoring => "Monitoring"
  | .failed => "Failed"

/-- A phase as status documents name it. -/
def Phase.key : Phase → String
  | .connecting => "connecting"
  | .awaitingPortList => "awaiting_port_list"
  | .monitoring => "monitoring"
  | .failed => "failed"

/-- Why a stream is over. -/
inductive Fault where
  | io (message : String)
  | closed (phase : Phase)
  | violation (reason : String)
  | archive (message : String)
  | cancelled
  deriving DecidableEq, Repr

/-- A fault as shown to people. -/
def Fault.message : Fault → String
  | .io message => s!"IO error: {message}"
  | .closed phase => s!"Stream closed while {phase.title}"
  | .violation reason => s!"Protocol violation: {reason}"
  | .archive message => s!"Archive error: {message}"
  | .cancelled => "Cancelled"

/-- A byte as error texts show it. -/
def byteText (b : UInt8) : String :=
  "0x" ++ String.ofList (Text.hexByte b)

/-- The most bytes that may be read up to a delimiter, which counts. -/
def maxChunk : Nat := 65536

/-- The node sent too much without a delimiter. -/
def overlong (delimiter : UInt8) (phase : Phase) : Fault :=
  .violation s!"no {byteText delimiter} delimiter within {maxChunk} bytes while {phase.title}"

/-- The port list starts with something else than two marks, a digit and a
    bar. -/
def badHeader (chunk : List UInt8) : Fault :=
  match chunk with
  | [0xFF, 0xFF, other, 0x7C] => .violation s!"port count is not a digit: {byteText other}"
  | _ => .violation s!"unexpected port list header ({chunk.length} bytes)"

end PacketMonitor.Stream

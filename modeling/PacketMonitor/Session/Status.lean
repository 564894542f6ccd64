import PacketMonitor.Json.Writer
import PacketMonitor.Stream.Fault

namespace PacketMonitor.Session

/-- Where the supervisor is in its cycle. An attempt to connect carries its
    number within the cycle. -/
inductive Status where
  | disconnected
  | connecting (attempt : UInt32)
  | handshaking
  | monitor (phase : Stream.Phase)
  | stopped
  deriving DecidableEq, Repr

namespace Status

/-- The status before anything was done. -/
def initial : Status := .disconnected

/-- Whether frames are flowing. -/
def isStreaming : Status → Bool
  | .monitor .monitoring => true
  | _ => false

/-- A status as a JSON object. -/
def toJson : Status → Json
  | .disconnected => .object [("phase", .str "disconnected")]
  | .connecting attempt =>
    .object [("phase", .str "connecting"), ("detail", .natural attempt.toNat)]
  | .handshaking => .object [("phase", .str "handshaking")]
  | .monitor phase => .object [("phase", .str "monitor"), ("detail", .str phase.key)]
  | .stopped => .object [("phase", .str "stopped")]

end Status

end PacketMonitor.Session

import PacketMonitor.LogLine
import PacketMonitor.RouteColor
import PacketMonitor.Telemetry.Beacon

namespace PacketMonitor

/-- What dashboards are told: a logged packet with the colour of its route, text
    outside the log grammar, or the readings of a beacon. -/
inductive Event where
  | log (line : LogLine) (color : String)
  | raw (text : String)
  | telemetry (port : UInt32) (record : Telemetry.Record)
  deriving DecidableEq, Repr

namespace Event

/-- What the text of a frame is besides a beacon. -/
def ofLine (color : RouteColor) (text : String) : Event :=
  match LogLine.parse? text with
  | some line => .log line (color line.route)
  | none => .raw text

/-- The beacon in the text of a frame, if there is a sound one. -/
def ofBeacon? (text : String) : Option Event :=
  match Telemetry.readBeacon text with
  | .ok (port, record) => some (.telemetry port record)
  | .error _ => none

/-- The events of a frame in the order of publishing. The two readings do not
    depend on each other. -/
def ofFrame (color : RouteColor) (text : String) : List Event :=
  (ofBeacon? text).toList ++ [ofLine color text]

end Event

end PacketMonitor

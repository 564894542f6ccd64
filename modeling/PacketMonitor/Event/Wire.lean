import PacketMonitor.Event
import PacketMonitor.Json.Reader
import PacketMonitor.Json.Writer

namespace PacketMonitor

open Json

/-- The names of a record's members, in order. -/
def Telemetry.Record.names : List String :=
  ["firmwareVersion", "kaup8r", "uptimeMillis", "uptime", "boardId", "switchPositions",
    "configMode", "ax25ReceivedPackets", "il2pCorrectablePackets", "il2pUncorrectablePackets",
    "transmitPackets", "preambleWordCount", "mainLoopCycleCount", "pttOnTimeMillis", "pttOnTime",
    "dcdOnTimeMillis", "dcdOnTime", "receivedDataBytes", "transmitDataBytes", "fecBytesCorrected"]

/-- The values of a record's members, in the order of their names. -/
def Telemetry.Record.values (r : Record) : List Json :=
  [str r.firmwareVersion, str r.kaup8r, natural r.uptimeMillis.toNat, str r.uptime,
    natural r.boardId.toNat, natural r.switchPositions.toNat, natural r.configMode.toNat,
    natural r.ax25ReceivedPackets.toNat, natural r.il2pCorrectablePackets.toNat,
    natural r.il2pUncorrectablePackets.toNat, natural r.transmitPackets.toNat,
    natural r.preambleWordCount.toNat, natural r.mainLoopCycleCount.toNat,
    natural r.pttOnTimeMillis.toNat, str r.pttOnTime, natural r.dcdOnTimeMillis.toNat,
    str r.dcdOnTime, natural r.receivedDataBytes.toNat, natural r.transmitDataBytes.toNat,
    natural r.fecBytesCorrected.toNat]

/-- A record as a JSON object. -/
def Telemetry.Record.toJson (r : Record) : Json :=
  object (names.zip r.values)

/-- A 64-bit counter. -/
def counter? (json : Json) : Option UInt64 :=
  (json.naturalBelow? UInt64.size).map UInt64.ofNat

/-- A 32-bit port number. -/
def port? (json : Json) : Option UInt32 :=
  (json.naturalBelow? UInt32.size).map UInt32.ofNat

/-- Reads a record. Every member is required. -/
def Telemetry.Record.ofJson? (json : Json) : Option Record :=
  match json.fields? names with
  | some [a, b, c, d, e, f, g, h, i, j, k, l, m, n, o, p, q, r, s, t] => do
    return {
      firmwareVersion := ← a.str?
      kaup8r := ← b.str?
      uptimeMillis := ← counter? c
      uptime := ← d.str?
      boardId := ← counter? e
      switchPositions := ← counter? f
      configMode := ← counter? g
      ax25ReceivedPackets := ← counter? h
      il2pCorrectablePackets := ← counter? i
      il2pUncorrectablePackets := ← counter? j
      transmitPackets := ← counter? k
      preambleWordCount := ← counter? l
      mainLoopCycleCount := ← counter? m
      pttOnTimeMillis := ← counter? n
      pttOnTime := ← o.str?
      dcdOnTimeMillis := ← counter? p
      dcdOnTime := ← q.str?
      receivedDataBytes := ← counter? r
      transmitDataBytes := ← counter? s
      fecBytesCorrected := ← counter? t }
  | _ => none

/-- Reads a direction: its letter, alone or as the one name of an object that
    holds nothing. -/
def Direction.ofJson? : Json → Option Direction
  | str "R" => some .received
  | str "T" => some .transmitted
  | object [("R", null)] | object [("R", object [])] => some .received
  | object [("T", null)] | object [("T", object [])] => some .transmitted
  | _ => none

namespace Event

/-- The names of a logged packet's members besides the tag. -/
def logNames : List String :=
  ["timestamp", "direction", "route", "port", "message", "routeColor"]

/-- An event as a JSON object. The tag comes first. -/
def toJson : Event → Json
  | .log line color =>
    object (("type", str "log") :: logNames.zip
      [str line.timestamp, str (String.singleton line.direction.letter), str line.route,
        natural line.port.toNat, str line.message, str color])
  | .raw s => object [("type", str "raw"), ("raw", str s)]
  | .telemetry port record =>
    object [("type", str "tnc_data"), ("portNum", natural port.toNat), ("data", record.toJson)]

/-- The text sent to dashboards. -/
def wire (event : Event) : String :=
  event.toJson.compact

/-- Reads an event. Every member is required once, unknown ones are ignored. -/
def ofJson? (json : Json) : Option Event :=
  match json.tagged? "type" with
  | some ("log", content) =>
    match content.fields? logNames with
    | some [timestamp, direction, route, port, message, color] => do
      return .log {
        timestamp := ← timestamp.str?
        direction := ← Direction.ofJson? direction
        route := ← route.str?
        port := ← port? port
        message := ← message.str? } (← color.str?)
    | _ => none
  | some ("raw", content) =>
    match content.fields? ["raw"] with
    | some [content] => content.str?.map .raw
    | _ => none
  | some ("tnc_data", content) =>
    match content.fields? ["portNum", "data"] with
    | some [port, data] => do
      return .telemetry (← port? port) (← Telemetry.Record.ofJson? data)
    | _ => none
  | _ => none

/-- Reads an event from its text. -/
def ofWire? (s : String) : Option Event :=
  (read? s).bind ofJson?

end Event

end PacketMonitor

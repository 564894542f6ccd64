import PacketMonitor.Telemetry.Elapsed
import PacketMonitor.Telemetry.Field

namespace PacketMonitor.Telemetry

/-- What a field holds. -/
inductive Value where
  | text (text : String)
  | counter (count : UInt64)
  deriving DecidableEq, Repr

/-- The readings of one beacon. A field the beacon leaves out stays empty or
    zero. The three durations are texts of their own, so that a record read
    back from a dashboard keeps whatever was written there. -/
structure Record where
  firmwareVersion : String := ""
  kaup8r : String := ""
  uptimeMillis : UInt64 := 0
  uptime : String := ""
  boardId : UInt64 := 0
  switchPositions : UInt64 := 0
  configMode : UInt64 := 0
  ax25ReceivedPackets : UInt64 := 0
  il2pCorrectablePackets : UInt64 := 0
  il2pUncorrectablePackets : UInt64 := 0
  transmitPackets : UInt64 := 0
  preambleWordCount : UInt64 := 0
  mainLoopCycleCount : UInt64 := 0
  pttOnTimeMillis : UInt64 := 0
  pttOnTime : String := ""
  dcdOnTimeMillis : UInt64 := 0
  dcdOnTime : String := ""
  receivedDataBytes : UInt64 := 0
  transmitDataBytes : UInt64 := 0
  fecBytesCorrected : UInt64 := 0
  deriving DecidableEq, Repr

namespace Record

/-- The value of a field. -/
def get (r : Record) : Field → Value
  | .firmwareVersion => .text r.firmwareVersion
  | .kaup8r => .text r.kaup8r
  | .uptimeMillis => .counter r.uptimeMillis
  | .boardId => .counter r.boardId
  | .switchPositions => .counter r.switchPositions
  | .configMode => .counter r.configMode
  | .ax25ReceivedPackets => .counter r.ax25ReceivedPackets
  | .il2pCorrectablePackets => .counter r.il2pCorrectablePackets
  | .il2pUncorrectablePackets => .counter r.il2pUncorrectablePackets
  | .transmitPackets => .counter r.transmitPackets
  | .preambleWordCount => .counter r.preambleWordCount
  | .mainLoopCycleCount => .counter r.mainLoopCycleCount
  | .pttOnTimeMillis => .counter r.pttOnTimeMillis
  | .dcdOnTimeMillis => .counter r.dcdOnTimeMillis
  | .receivedDataBytes => .counter r.receivedDataBytes
  | .transmitDataBytes => .counter r.transmitDataBytes
  | .fecBytesCorrected => .counter r.fecBytesCorrected

/-- Sets a field. A value of the wrong kind for the field changes nothing. -/
def set (r : Record) : Field → Value → Record
  | .firmwareVersion, .text t => { r with firmwareVersion := t }
  | .kaup8r, .text t => { r with kaup8r := t }
  | .uptimeMillis, .counter n => { r with uptimeMillis := n }
  | .boardId, .counter n => { r with boardId := n }
  | .switchPositions, .counter n => { r with switchPositions := n }
  | .configMode, .counter n => { r with configMode := n }
  | .ax25ReceivedPackets, .counter n => { r with ax25ReceivedPackets := n }
  | .il2pCorrectablePackets, .counter n => { r with il2pCorrectablePackets := n }
  | .il2pUncorrectablePackets, .counter n => { r with il2pUncorrectablePackets := n }
  | .transmitPackets, .counter n => { r with transmitPackets := n }
  | .preambleWordCount, .counter n => { r with preambleWordCount := n }
  | .mainLoopCycleCount, .counter n => { r with mainLoopCycleCount := n }
  | .pttOnTimeMillis, .counter n => { r with pttOnTimeMillis := n }
  | .dcdOnTimeMillis, .counter n => { r with dcdOnTimeMillis := n }
  | .receivedDataBytes, .counter n => { r with receivedDataBytes := n }
  | .transmitDataBytes, .counter n => { r with transmitDataBytes := n }
  | .fecBytesCorrected, .counter n => { r with fecBytesCorrected := n }
  | _, _ => r

/-- Writes the three durations that follow from the counters. -/
def withDurations (r : Record) : Record :=
  { r with
    uptime := elapsedText r.uptimeMillis
    pttOnTime := elapsedText r.pttOnTimeMillis
    dcdOnTime := elapsedText r.dcdOnTimeMillis }

end Record

end PacketMonitor.Telemetry

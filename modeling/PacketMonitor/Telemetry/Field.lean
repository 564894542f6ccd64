namespace PacketMonitor.Telemetry

/-- The quantities a beacon may report. -/
inductive Field where
  | firmwareVersion
  | kaup8r
  | uptimeMillis
  | boardId
  | switchPositions
  | configMode
  | ax25ReceivedPackets
  | il2pCorrectablePackets
  | il2pUncorrectablePackets
  | transmitPackets
  | preambleWordCount
  | mainLoopCycleCount
  | pttOnTimeMillis
  | dcdOnTimeMillis
  | receivedDataBytes
  | transmitDataBytes
  | fecBytesCorrected
  deriving DecidableEq, Repr

namespace Field

/-- The number that stands for a field in a beacon. Number five is unused. -/
def number : Field → Nat
  | firmwareVersion => 0x00
  | kaup8r => 0x01
  | uptimeMillis => 0x02
  | boardId => 0x03
  | switchPositions => 0x04
  | configMode => 0x06
  | ax25ReceivedPackets => 0x07
  | il2pCorrectablePackets => 0x08
  | il2pUncorrectablePackets => 0x09
  | transmitPackets => 0x0A
  | preambleWordCount => 0x0B
  | mainLoopCycleCount => 0x0C
  | pttOnTimeMillis => 0x0D
  | dcdOnTimeMillis => 0x0E
  | receivedDataBytes => 0x0F
  | transmitDataBytes => 0x10
  | fecBytesCorrected => 0x11

/-- All fields by increasing number. -/
def all : List Field :=
  [firmwareVersion, kaup8r, uptimeMillis, boardId, switchPositions, configMode,
    ax25ReceivedPackets, il2pCorrectablePackets, il2pUncorrectablePackets, transmitPackets,
    preambleWordCount, mainLoopCycleCount, pttOnTimeMillis, dcdOnTimeMillis, receivedDataBytes,
    transmitDataBytes, fecBytesCorrected]

/-- The field with a given number. -/
def ofNumber? (n : Nat) : Option Field :=
  all.find? (·.number == n)

/-- The field's name in a record's JSON object. -/
def key : Field → String
  | firmwareVersion => "firmwareVersion"
  | kaup8r => "kaup8r"
  | uptimeMillis => "uptimeMillis"
  | boardId => "boardId"
  | switchPositions => "switchPositions"
  | configMode => "configMode"
  | ax25ReceivedPackets => "ax25ReceivedPackets"
  | il2pCorrectablePackets => "il2pCorrectablePackets"
  | il2pUncorrectablePackets => "il2pUncorrectablePackets"
  | transmitPackets => "transmitPackets"
  | preambleWordCount => "preambleWordCount"
  | mainLoopCycleCount => "mainLoopCycleCount"
  | pttOnTimeMillis => "pttOnTimeMillis"
  | dcdOnTimeMillis => "dcdOnTimeMillis"
  | receivedDataBytes => "receivedDataBytes"
  | transmitDataBytes => "transmitDataBytes"
  | fecBytesCorrected => "fecBytesCorrected"

/-- Fields that carry text. All others carry a counter. -/
def isText : Field → Bool
  | firmwareVersion | kaup8r => true
  | _ => false

theorem ofNumber?_number (f : Field) : ofNumber? f.number = some f := by
  cases f <;> rfl

theorem mem_all (f : Field) : f ∈ all := by
  cases f <;> decide

end Field

end PacketMonitor.Telemetry

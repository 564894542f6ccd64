import PacketMonitor.Telemetry.Record
import PacketMonitor.Text.Blank
import PacketMonitor.Text.Numeral
import PacketMonitor.Text.Pieces
import PacketMonitor.Text.Quoted
import PacketMonitor.Text.Utf8

namespace PacketMonitor.Telemetry

open PacketMonitor.Text

/-- Stands between the port and the fields of a beacon. -/
def marker : String := " <UI C>:"

/-- The port of a beacon that names none that can be used. -/
def defaultPort : UInt32 := 1

/-- Why a text yields no record. -/
inductive BeaconError where
  | notTelemetry
  | malformedField (field : String)
  deriving DecidableEq, Repr

/-- The error as shown to people. -/
def BeaconError.message : BeaconError → String
  | .notTelemetry => "not a telemetry frame"
  | .malformedField field =>
    "malformed telemetry field: " ++ String.ofList (quoted field.toList)

/-- The radio port named last before the marker: the digits right after the
    last `Port=`, if they are a 32-bit number. -/
def portOf (before : List Char) : UInt32 :=
  let port? := do
    let rest ← afterLast? "Port=".toList before
    numeralBelow? 10 UInt32.size (rest.takeWhile (isDigitOf 10))
  (port?.map UInt32.ofNat).getD defaultPort

/-- Reads a counter. Blanks after it do not count, and what is not a 64-bit
    hexadecimal number reads as zero. -/
def counterOf (value : List Char) : UInt64 :=
  ((numeralBelow? 16 UInt64.size (trimEnd value)).map UInt64.ofNat).getD 0

/-- The text that starts at the fourth byte of a field. It is empty if that
    byte lies inside a character. -/
def valueOf (field : List Char) : List Char :=
  match field.drop 2 with
  | separator :: value => if separator.utf8Size = 1 then value else []
  | [] => []

/-- The field number in the first two characters. -/
def numberOf? (field : List Char) : Option Nat :=
  match field with
  | high :: low :: _ => numeral? 16 [high, low]
  | _ => none

/-- Takes one field of a beacon into the record. Fields of less than three
    bytes are cut off and skipped, and so are numbers without a known field. -/
def takeField (r : Record) (field : List Char) : Except BeaconError Record :=
  if Utf8.size field < 3 then .ok r
  else match numberOf? field with
    | none => .error (.malformedField (String.ofList field))
    | some number =>
      match Field.ofNumber? number with
      | none => .ok r
      | some f =>
        let value := valueOf field
        .ok (r.set f (if f.isText then .text (String.ofList value) else .counter (counterOf value)))

/-- Takes the fields of a beacon in order. -/
def takeFields (r : Record) : List (List Char) → Except BeaconError Record
  | [] => .ok r
  | field :: rest =>
    match takeField r field with
    | .error e => .error e
    | .ok r => takeFields r rest

/-- Reads a beacon from cleaned monitor text. The fields follow the marker,
    each behind an equals sign. What stands before the first one is ignored. -/
def readBeacon (text : String) : Except BeaconError (UInt32 × Record) :=
  match splitFirst? marker.toList text.toList with
  | none => .error .notTelemetry
  | some (before, payload) =>
    match (pieces (· == '=') payload).tail with
    | [] => .error .notTelemetry
    | fields =>
      match takeFields {} fields with
      | .error e => .error e
      | .ok r => .ok (portOf before, r.withDurations)

end PacketMonitor.Telemetry

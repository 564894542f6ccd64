import PacketMonitor.Text.Numeral

namespace PacketMonitor

open Text

/-- Whether the node received or sent a packet. -/
inductive Direction where
  | received
  | transmitted
  deriving DecidableEq, Repr

/-- The letter for a direction. -/
def Direction.letter : Direction → Char
  | .received => 'R'
  | .transmitted => 'T'

/-- The direction for a letter. -/
def Direction.ofLetter? : Char → Option Direction
  | 'R' => some .received
  | 'T' => some .transmitted
  | _ => none

/-- A monitored packet as the node logs it. -/
structure LogLine where
  timestamp : String
  direction : Direction
  route : String
  port : UInt32
  message : String
  deriving DecidableEq, Repr

namespace LogLine

/-- Two decimal digits. -/
def isTwoDigits : List Char → Bool
  | [a, b] => isDigitOf 10 a && isDigitOf 10 b
  | _ => false

/-- A time of day in the shape `dd:dd:dd`. The digits are not checked further. -/
def isTimestamp (text : List Char) : Bool :=
  match text with
  | [a, b, ':', c, d, ':', e, f] => isTwoDigits [a, b] && isTwoDigits [c, d] && isTwoDigits [e, f]
  | _ => false

/-- Characters of a station's name. -/
def isStationChar (c : Char) : Bool :=
  ('A' ≤ c && c ≤ 'Z') || ('0' ≤ c && c ≤ '9') || c == '-'

/-- Removes a fixed text from the front. -/
def afterPrefix? (start text : List Char) : Option (List Char) :=
  if start.isPrefixOf text then some (text.drop start.length) else none

/-- Splits off the longest run of a class of characters, which has to be
    non-empty. -/
def run? (isMember : Char → Bool) (text : List Char) : Option (List Char × List Char) :=
  match text.span isMember with
  | ([], _) => none
  | (run, rest) => some (run, rest)

/-- The port number written by some digits, limited to the largest one. -/
def portOf (digits : List Char) : UInt32 :=
  UInt32.ofNat (min (digitsValue 10 digits) (UInt32.size - 1))

/-- Reads `dd:dd:dd`, `R` or `T`, a route `FROM>TO`, ` Port=` with a number, and
    after one space the message, which may be anything. No part can end
    elsewhere, so the longest run is the only choice for each. -/
def parse? (text : String) : Option LogLine := do
  let (timestamp, rest) := text.toList.splitAt 8
  guard (isTimestamp timestamp)
  let flag :: rest := rest | none
  let direction ← Direction.ofLetter? flag
  let rest ← afterPrefix? [' '] rest
  let (sender, rest) ← run? isStationChar rest
  let rest ← afterPrefix? ['>'] rest
  let (receiver, rest) ← run? isStationChar rest
  let rest ← afterPrefix? " Port=".toList rest
  let (digits, rest) ← run? (isDigitOf 10) rest
  let message ← afterPrefix? [' '] rest
  return {
    timestamp := String.ofList timestamp
    direction
    route := String.ofList (sender ++ '>' :: receiver)
    port := portOf digits
    message := String.ofList message }

end LogLine

end PacketMonitor

import PacketMonitor.Text.Numeral

namespace PacketMonitor.Network

open Text

/-- An address of version four by its numbers, or of version six by its groups. -/
inductive Address where
  | four (octets : Vector UInt8 4)
  | six (groups : Vector UInt16 8)
  deriving DecidableEq, Repr

/-- Reads the longest run of digits at the start of a text, unless there are none
    or too many. -/
def readDigits? (base most : Nat) (text : List Char) : Option (List Char × List Char) :=
  let digits := text.takeWhile (isDigitOf base)
  if digits.isEmpty || most < digits.length then none
  else some (digits, text.drop digits.length)

/-- Reads a number of an address of version four. It has no leading zeros. -/
def readOctet? (text : List Char) : Option (UInt8 × List Char) := do
  let (digits, rest) ← readDigits? 10 3 text
  let value := digitsValue 10 digits
  if (1 < digits.length ∧ digits.head? = some '0') ∨ UInt8.size ≤ value then none
  else some (UInt8.ofNat value, rest)

/-- Reads a separator. -/
def readMark? (mark : Char) : List Char → Option (List Char)
  | [] => none
  | c :: rest => if c = mark then some rest else none

/-- Reads an address of version four. -/
def readFour? (text : List Char) : Option (Vector UInt8 4 × List Char) := do
  let (a, text) ← readOctet? text
  let (b, text) ← readMark? '.' text >>= readOctet?
  let (c, text) ← readMark? '.' text >>= readOctet?
  let (d, text) ← readMark? '.' text >>= readOctet?
  return (#v[a, b, c, d], text)

/-- Reads one group of an address of version six. -/
def readGroup? (text : List Char) : Option (UInt16 × List Char) :=
  (readDigits? 16 4 text).map fun (digits, rest) => (UInt16.ofNat (digitsValue 16 digits), rest)

/-- The two groups that an address of version four fills. -/
def groupsOfFour (octets : Vector UInt8 4) : List UInt16 :=
  [octets[0].toUInt16 <<< 8 ||| octets[1].toUInt16,
    octets[2].toUInt16 <<< 8 ||| octets[3].toUInt16]

/-- Reads groups with colons between them while there is room. An address of
    version four may take the last two places, and nothing is read after it. The
    flag says whether there was one. -/
def readGroups (isFirst : Bool) : (room : Nat) → List Char → List UInt16 × Bool × List Char
  | 0, text => ([], false, text)
  | room + 1, text =>
    match if isFirst then some text else readMark? ':' text with
    | none => ([], false, text)
    | some body =>
      match if room = 0 then none else readFour? body with
      | some (octets, rest) => (groupsOfFour octets, true, rest)
      | none =>
        match readGroup? body with
        | none => ([], false, text)
        | some (group, rest) =>
          let (groups, endsInFour, rest) := readGroups false room rest
          (group :: groups, endsInFour, rest)

/-- Reads an address of version six. Two colons stand for one group of zeros or
    more. -/
def readSix? (text : List Char) : Option (Vector UInt16 8 × List Char) := do
  let (front, endsInFour, text) := readGroups true 8 text
  if h : front.length = 8 then return (⟨⟨front⟩, h⟩, text)
  if endsInFour then none
  let text ← readMark? ':' text >>= readMark? ':'
  let (back, _, text) := readGroups true (7 - front.length) text
  let groups := front ++ List.replicate (8 - front.length - back.length) 0 ++ back
  if h : groups.length = 8 then return (⟨⟨groups⟩, h⟩, text) else none

namespace Address

/-- The four numbers with points between them. -/
def fourText (octets : Vector UInt8 4) : String :=
  ".".intercalate (octets.toList.map fun n => toString n.toNat)

/-- Groups with colons between them. -/
def groupsText (groups : List UInt16) : String :=
  ":".intercalate (groups.map fun g => String.ofList (hexadecimal g.toNat))

/-- The length of the run of zeros at the start. -/
def zeroRun (groups : List UInt16) : Nat :=
  (groups.takeWhile (· == 0)).length

/-- Where the longest run of zeros starts, and its length. Of several the first
    is taken. -/
def longestZeroRun (groups : List UInt16) : Nat × Nat :=
  (List.range groups.length).foldl
    (fun best start =>
      let length := zeroRun (groups.drop start)
      if best.2 < length then (start, length) else best)
    (0, 0)

/-- An address of version six. The longest run of zeros is left out if it has two
    groups at least. An address that stands for one of version four ends in it. -/
def sixText (groups : List UInt16) : String :=
  match groups with
  | [0, 0, 0, 0, 0, 0xffff, high, low] =>
    "::ffff:" ++ fourText
      #v[(high >>> 8).toUInt8, high.toUInt8, (low >>> 8).toUInt8, low.toUInt8]
  | _ =>
    let (start, length) := longestZeroRun groups
    if length < 2 then groupsText groups
    else groupsText (groups.take start) ++ "::" ++ groupsText (groups.drop (start + length))

/-- The address in its usual form. -/
def text : Address → String
  | four octets => fourText octets
  | six groups => sixText groups.toList

end Address

/-- An address with a port. -/
structure Endpoint where
  address : Address
  port : UInt16
  deriving DecidableEq, Repr

/-- Reads a port after its colon. Leading zeros are allowed. -/
def readPort? (text : List Char) : Option UInt16 :=
  match text with
  | ':' :: digits => (numeralBelow? 10 UInt16.size digits).map UInt16.ofNat
  | _ => none

/-- Passes over the number of a network interface after a percent sign. -/
def skipScope (text : List Char) : List Char :=
  match text with
  | '%' :: rest =>
    let digits := rest.takeWhile (isDigitOf 10)
    if (numeralBelow? 10 UInt32.size digits).isSome then rest.drop digits.length else text
  | _ => text

/-- Reads an address and a port and nothing else. An address of version six is in
    brackets. -/
def Endpoint.ofText? (text : String) : Option Endpoint :=
  match readFour? text.toList with
  | some (octets, rest) => (readPort? rest).map fun port => ⟨.four octets, port⟩
  | none => do
    let (groups, rest) ← readMark? '[' text.toList >>= readSix?
    let port ← readMark? ']' (skipScope rest) >>= readPort?
    return ⟨.six groups, port⟩

end PacketMonitor.Network

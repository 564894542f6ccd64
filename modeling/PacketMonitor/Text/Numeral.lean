namespace PacketMonitor.Text

/-- The value of a digit, counting both cases of the letters after nine. A
    character that is no digit has a value beyond every base in use. -/
def digitValue (c : Char) : Nat :=
  if '0' ≤ c ∧ c ≤ '9' then c.toNat - '0'.toNat
  else if 'a' ≤ c ∧ c ≤ 'z' then c.toNat - 'a'.toNat + 10
  else if 'A' ≤ c ∧ c ≤ 'Z' then c.toNat - 'A'.toNat + 10
  else 36

/-- Whether a character is a digit of the given base. -/
def isDigitOf (base : Nat) (c : Char) : Bool :=
  digitValue c < min base 36

/-- The value of a run of digits, most significant first. -/
def digitsValue (base : Nat) (digits : List Char) : Nat :=
  digits.foldl (fun value c => value * base + digitValue c) 0

/-- Reads a non-empty run of digits and nothing else. Leading zeros are
    allowed, signs and separators are not. -/
def numeral? (base : Nat) (text : List Char) : Option Nat :=
  if !text.isEmpty && text.all (isDigitOf base) then some (digitsValue base text) else none

/-- Reads a numeral whose value stays below a limit. -/
def numeralBelow? (base limit : Nat) (text : List Char) : Option Nat :=
  (numeral? base text).filter (· < limit)

/-- A decimal numeral below a limit that may carry one leading plus sign. -/
def unsigned? (limit : Nat) (text : List Char) : Option Nat :=
  match text with
  | '+' :: digits => numeralBelow? 10 limit digits
  | digits => numeralBelow? 10 limit digits

/-- The shortest lower-case hexadecimal numeral of a number. -/
def hexadecimal (n : Nat) : List Char :=
  Nat.toDigits 16 n

/-- Two lower-case hexadecimal digits. -/
def hexByte (b : UInt8) : List Char :=
  [Nat.digitChar (b.toNat / 16), Nat.digitChar (b.toNat % 16)]

end PacketMonitor.Text

import PacketMonitor.Text.Numeral

namespace PacketMonitor.Text

/-- The least number that double precision rounds to infinity. -/
def doubleLimit : Nat := Nat.pow 2 1024 - Nat.pow 2 970

/-- Whether a decimal lies within the range of double precision. It is given by
    the digits on both sides of its point and a power of ten. The number of
    digits before the point decides nearly every case. -/
def isInDoubleRange (whole fraction : List Char) (exponent : Int) : Bool :=
  let digits := (whole ++ fraction).dropWhile (· == '0')
  let last := exponent - fraction.length
  let width := digits.length + last
  if digits.isEmpty || width < 309 then true
  else if 309 < width then false
  else
    let value := digitsValue 10 digits
    if last < 0 then decide (value < doubleLimit * Nat.pow 10 last.natAbs)
    else decide (value * Nat.pow 10 last.toNat < doubleLimit)

/-- The number of double precision that is nearest to a natural number, of two the
    one that ends in an even digit. -/
def nearestDouble (n : Nat) : Nat :=
  let dropped := n.log2 + 1 - 53
  let unit := Nat.pow 2 dropped
  let (kept, rest) := (n / unit, n % unit)
  if unit < 2 * rest ∨ (2 * rest = unit ∧ kept % 2 = 1) then (kept + 1) * unit else kept * unit

/-- Appends digits to a number for as long as it fits into 64 bits. The result is
    the number and how many digits were left over. -/
def appendDigits (value : Nat) : List Char → Nat × Nat
  | [] => (value, 0)
  | c :: rest =>
    let longer := value * 10 + digitValue c
    if longer < UInt64.size then appendDigits longer rest else (value, rest.length + 1)

/-- Whether a decimal stays finite when its leading digits, as many as fit into 64
    bits, are scaled by a power of ten in double precision. Both factors and their
    product are rounded, so this differs from `isInDoubleRange` next to the limit. -/
def scalesWithinDouble (whole fraction : List Char) (exponent : Int) : Bool :=
  let (leading, dropped) := appendDigits 0 whole
  let (significand, ignored) := appendDigits leading fraction
  let scale := exponent + dropped - (fraction.length - ignored : Nat)
  if significand = 0 || scale < 0 then true
  else if 308 < scale then false
  else decide (nearestDouble significand * nearestDouble (Nat.pow 10 scale.toNat) < doubleLimit)

end PacketMonitor.Text

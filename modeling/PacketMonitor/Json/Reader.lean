import PacketMonitor.Json.Value
import PacketMonitor.Text.Decimal

namespace PacketMonitor.Json

open Text

/-- White space between tokens. -/
def isSpace (c : Char) : Bool :=
  c == ' ' || c == '\n' || c == '\t' || c == '\r'

/-- Skips white space. -/
def skipSpace (text : List Char) : List Char :=
  text.dropWhile isSpace

/-- Reads four hexadecimal digits. -/
def hexQuad? : List Char → Option (Nat × List Char)
  | a :: b :: c :: d :: rest => (numeral? 16 [a, b, c, d]).map (·, rest)
  | _ => none

/-- Reads what follows `\u`. A code unit from the upper surrogates has to be
    followed by one from the lower, and both make one character. -/
def unicodeEscape? (text : List Char) : Option (Char × List Char) := do
  let (unit, rest) ← hexQuad? text
  if 0xDC00 ≤ unit ∧ unit ≤ 0xDFFF then none
  else if 0xD800 ≤ unit ∧ unit ≤ 0xDBFF then
    match rest with
    | '\\' :: 'u' :: rest =>
      let (low, rest) ← hexQuad? rest
      if 0xDC00 ≤ low ∧ low ≤ 0xDFFF then
        some (Char.ofNat (0x10000 + (unit - 0xD800) * 0x400 + (low - 0xDC00)), rest)
      else none
    | _ => none
  else some (Char.ofNat unit, rest)

/-- Reads one character of a string that is not its closing quote. -/
def stringChar? : List Char → Option (Char × List Char)
  | '\\' :: 'u' :: rest => unicodeEscape? rest
  | '\\' :: c :: rest =>
    match c with
    | '"' => some ('"', rest)
    | '\\' => some ('\\', rest)
    | '/' => some ('/', rest)
    | 'b' => some ('\x08', rest)
    | 'f' => some ('\x0c', rest)
    | 'n' => some ('\n', rest)
    | 'r' => some ('\r', rest)
    | 't' => some ('\t', rest)
    | _ => none
  | c :: rest => if c.toNat < 0x20 ∨ c = '\\' then none else some (c, rest)
  | [] => none

/-- Reads a string after its opening quote. `done` holds, in reverse, what was
    read before. The fuel has to exceed the number of characters left. -/
def stringFrom? (done : List Char) : Nat → List Char → Option (List Char × List Char)
  | 0, _ => none
  | _ + 1, '"' :: rest => some (done.reverse, rest)
  | fuel + 1, text =>
    match stringChar? text with
    | some (c, rest) => stringFrom? (c :: done) fuel rest
    | none => none

/-- Reads a string after its opening quote. -/
def string? (text : List Char) : Option (String × List Char) :=
  (stringFrom? [] (text.length + 1) text).map fun (s, rest) => (String.ofList s, rest)

/-- Reads the whole part of a number: a zero alone, or digits without one in
    front. -/
def wholePart? (text : List Char) : Option (List Char × List Char) :=
  match text with
  | '0' :: rest => if (rest.head?.map (isDigitOf 10)).getD false then none else some (['0'], rest)
  | _ =>
    match text.span (isDigitOf 10) with
    | ([], _) => none
    | (digits, rest) => some (digits, rest)

/-- Reads the digits after a decimal point, if there is one. -/
def fractionPart? (text : List Char) : Option (List Char × List Char) :=
  match text with
  | '.' :: rest =>
    match rest.span (isDigitOf 10) with
    | ([], _) => none
    | (digits, rest) => some (digits, rest)
  | _ => some ([], text)

/-- Reads an exponent, if there is one: its sign and its digits. -/
def exponentPart? (text : List Char) : Option (Option (Bool × List Char) × List Char) :=
  match text with
  | c :: rest =>
    if c = 'e' ∨ c = 'E' then
      let (isNegative, rest) := match rest with
        | '-' :: rest => (true, rest)
        | '+' :: rest => (false, rest)
        | _ => (false, rest)
      match rest.span (isDigitOf 10) with
      | ([], _) => none
      | (digits, rest) => some (some (isNegative, digits), rest)
    else some (none, text)
  | [] => some (none, [])

/-- Reads a number. -/
def number? (text : List Char) : Option (Json × List Char) := do
  let (isNegative, afterSign) := match text with
    | '-' :: rest => (true, rest)
    | _ => (false, text)
  let (whole, rest) ← wholePart? afterSign
  let (fraction, rest) ← fractionPart? rest
  let (power, rest) ← exponentPart? rest
  let exponent : Int := match power with
    | some (true, digits) => -(digitsValue 10 digits : Int)
    | some (false, digits) => digitsValue 10 digits
    | none => 0
  if !scalesWithinDouble whole fraction exponent then none
  else if !isNegative && fraction.isEmpty && power.isNone then
    some (natural (digitsValue 10 whole), rest)
  else
    some (number (String.ofList (text.take (text.length - rest.length))), rest)

/-- Reads one of the three words. -/
def word? (text : List Char) : Option (Json × List Char) :=
  match text with
  | 'n' :: 'u' :: 'l' :: 'l' :: rest => some (null, rest)
  | 't' :: 'r' :: 'u' :: 'e' :: rest => some (bool true, rest)
  | 'f' :: 'a' :: 'l' :: 's' :: 'e' :: rest => some (bool false, rest)
  | _ => none

mutual

/-- Reads a value and returns the text after it. `depth` is how many arrays and
    objects may still be entered. -/
def value? : Nat → Nat → List Char → Option (Json × List Char)
  | 0, _, _ => none
  | fuel + 1, depth, text =>
    match skipSpace text with
    | '"' :: rest => (string? rest).map fun (s, rest) => (Json.str s, rest)
    | '[' :: rest =>
      match depth with
      | 0 => none
      | depth + 1 =>
        match skipSpace rest with
        | ']' :: rest => some (array [], rest)
        | rest => (items? fuel depth [] rest).map fun (items, rest) => (array items, rest)
    | '\x7b' :: rest =>
      match depth with
      | 0 => none
      | depth + 1 =>
        match skipSpace rest with
        | '\x7d' :: rest => some (object [], rest)
        | rest => (members? fuel depth [] rest).map fun (members, rest) => (object members, rest)
    | c :: rest => if c = '-' ∨ isDigitOf 10 c then number? (c :: rest) else word? (c :: rest)
    | [] => none

/-- Reads the items of an array up to its closing bracket. -/
def items? : Nat → Nat → List Json → List Char → Option (List Json × List Char)
  | 0, _, _, _ => none
  | fuel + 1, depth, done, text =>
    match value? fuel depth text with
    | none => none
    | some (item, rest) =>
      match skipSpace rest with
      | ',' :: rest => items? fuel depth (item :: done) rest
      | ']' :: rest => some ((item :: done).reverse, rest)
      | _ => none

/-- Reads the members of an object up to its closing brace. -/
def members? :
    Nat → Nat → List (String × Json) → List Char → Option (List (String × Json) × List Char)
  | 0, _, _, _ => none
  | fuel + 1, depth, done, text =>
    match skipSpace text with
    | '"' :: rest =>
      match string? rest with
      | none => none
      | some (name, rest) =>
        match skipSpace rest with
        | ':' :: rest =>
          match value? fuel depth rest with
          | none => none
          | some (value, rest) =>
            match skipSpace rest with
            | ',' :: rest => members? fuel depth ((name, value) :: done) rest
            | '\x7d' :: rest => some (((name, value) :: done).reverse, rest)
            | _ => none
        | _ => none
    | _ => none

end

/-- How deep arrays and objects may be nested. -/
def maxDepth : Nat := 127

/-- Reads a document with nothing but white space around it. Every step of the
    reader consumes a character, so the length is fuel enough. -/
def read? (text : String) : Option Json :=
  match value? (text.toList.length + 1) maxDepth text.toList with
  | some (json, rest) => if (skipSpace rest).isEmpty then some json else none
  | none => none

end PacketMonitor.Json

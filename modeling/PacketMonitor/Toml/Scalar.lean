import PacketMonitor.Text.Decimal
import PacketMonitor.Toml.Node

namespace PacketMonitor.Toml

open Text

/-- Reads from the front of a text, or fails. -/
abbrev Reader := StateT (List Char) Option

namespace Reader

/-- Succeeds on one given character. -/
def char (c : Char) : Reader Unit := fun text =>
  match text with
  | d :: rest => if d = c then some ((), rest) else none
  | [] => none

/-- Succeeds on a given word. -/
def word (w : List Char) : Reader Unit := fun text =>
  if w.isPrefixOf text then some ((), text.drop w.length) else none

/-- Succeeds on one character of a class. -/
def one (isMember : Char → Bool) : Reader Char := fun text =>
  match text with
  | c :: rest => if isMember c then some (c, rest) else none
  | [] => none

/-- Takes the longest run of a class, which may be empty. -/
def run (isMember : Char → Bool) : Reader (List Char) := fun text =>
  some (text.span isMember)

/-- The next character, which stays where it is. -/
def peek? : Reader (Option Char) := fun text =>
  some (text.head?, text)

end Reader

open Reader

/-- Blanks within a line. -/
def isBlank (c : Char) : Bool :=
  c == ' ' || c == '\t'

/-- Characters that may stand in comments and strings as they are. -/
def isPrintable (c : Char) : Bool :=
  c == '\t' || (0x20 ≤ c.toNat && c.toNat != 0x7F)

/-- Takes the end of a line. -/
def newline : Reader Unit := fun text =>
  match text with
  | '\n' :: rest => some ((), rest)
  | '\r' :: '\n' :: rest => some ((), rest)
  | _ => none

/-- Reads the rest of an escape after its backslash. -/
def escape : Reader Char := do
  let c ← one fun _ => true
  match c with
  | 'b' => pure '\x08'
  | 't' => pure '\t'
  | 'n' => pure '\n'
  | 'f' => pure '\x0c'
  | 'r' => pure '\r'
  | '"' => pure '"'
  | '\\' => pure '\\'
  | 'u' => scalar 4
  | 'U' => scalar 8
  | _ => failure
where
  /-- Reads a character by its number, which must not be a surrogate. -/
  scalar (count : Nat) : Reader Char := fun text => do
    let n ← numeral? 16 (text.take count)
    if (text.take count).length = count ∧ n.isValidChar then
      some (Char.ofNat n, text.drop count)
    else none

/-- Reads a string on one line after its opening quote. -/
def lineFrom (quote : Char) (escapes : Bool) (done : List Char) :
    Nat → List Char → Option (String × List Char)
  | 0, _ => none
  | _ + 1, [] => none
  | fuel + 1, c :: rest =>
    if c = quote then some (String.ofList done.reverse, rest)
    else if c = '\\' ∧ escapes then
      match escape rest with
      | some (d, rest) => lineFrom quote escapes (d :: done) fuel rest
      | none => none
    else if isPrintable c then lineFrom quote escapes (c :: done) fuel rest
    else none

/-- Skips blanks and ends of lines. -/
def skipLines : Nat → List Char → List Char
  | 0, text => text
  | fuel + 1, text =>
    match newline (text.dropWhile isBlank) with
    | some (_, rest) => skipLines fuel rest
    | none => text.dropWhile isBlank

/-- Reads a string over several lines after its opening quotes. Up to two quotes
    may stand right before the closing ones. A backslash at the end of a line
    joins it to the next text. -/
def linesFrom (quote : Char) (escapes : Bool) (done : List Char) :
    Nat → List Char → Option (String × List Char)
  | 0, _ => none
  | _ + 1, [] => none
  | fuel + 1, c :: rest =>
    if c = quote then
      let count := ((c :: rest).takeWhile (· == quote)).length
      if count < 3 then linesFrom quote escapes (c :: done) fuel rest
      else
        let kept := min (count - 3) 2
        some (String.ofList ((List.replicate kept quote ++ done).reverse),
          (c :: rest).drop (kept + 3))
    else if c = '\\' ∧ escapes then
      match newline (rest.dropWhile isBlank) with
      | some (_, rest) => linesFrom quote escapes done fuel (skipLines rest.length rest)
      | none =>
        match escape rest with
        | some (d, rest) => linesFrom quote escapes (d :: done) fuel rest
        | none => none
    else
      match newline (c :: rest) with
      | some (_, rest) => linesFrom quote escapes ('\n' :: done) fuel rest
      | none =>
        if isPrintable c then linesFrom quote escapes (c :: done) fuel rest else none

/-- Reads a quoted string on one line. Single quotes take everything literally. -/
def lineString : Reader String := fun text =>
  match text with
  | '"' :: rest => lineFrom '"' true [] (rest.length + 1) rest
  | '\'' :: rest => lineFrom '\'' false [] (rest.length + 1) rest
  | _ => none

/-- Reads a string of any form. An end of line right after three quotes does not
    belong to the string. -/
def string : Reader String := fun text =>
  let body (rest : List Char) := ((newline rest).map (·.2)).getD rest
  match text with
  | '"' :: '"' :: '"' :: rest => linesFrom '"' true [] (rest.length + 1) (body rest)
  | '\'' :: '\'' :: '\'' :: rest => linesFrom '\'' false [] (rest.length + 1) (body rest)
  | _ => lineString text

/-- Digits of a base with single underscores between them. -/
def digitsFrom (base : Nat) (done : List Char) : List Char → Option (List Char × List Char)
  | '_' :: c :: rest =>
    if isDigitOf base c then digitsFrom base (c :: done) rest else none
  | ['_'] => none
  | c :: rest =>
    if isDigitOf base c then digitsFrom base (c :: done) rest else some (done.reverse, c :: rest)
  | [] => some (done.reverse, [])

/-- A run of digits that starts with one. -/
def digits (base : Nat) : Reader (List Char) := do
  let first ← one (isDigitOf base)
  fun text => digitsFrom base [first] text

/-- Decimal digits without a zero in front of others. -/
def wholeDigits : Reader (List Char) := do
  if (← peek?) = some '0' then
    char '0'
    pure ['0']
  else digits 10

/-- A sign, if there is one. The result says whether it is a minus. -/
def sign : Reader Bool := do
  let c ← optional (one fun c => c == '+' || c == '-')
  pure (c == some '-')

/-- The exponent of a number. -/
def exponent : Reader Int := do
  let _ ← one fun c => c == 'e' || c == 'E'
  let isNegative ← sign
  let value := digitsValue 10 (← digits 10)
  pure (if isNegative then -value else value)

/-- A number with a fraction or an exponent, or one of the special ones. A positive
    number beyond double precision is refused. -/
def float : Reader Node := do
  let isNegative ← sign
  match ← peek? with
  | some 'i' => word "inf".toList
  | some 'n' => word "nan".toList
  | _ =>
    let whole ← wholeDigits
    let point ← optional (char '.')
    let fraction ← if point.isSome then digits 10 else pure []
    let power ← match ← peek? with
      | some 'e' | some 'E' => some <$> exponent
      | _ => pure none
    if point.isNone && power.isNone then failure
    if !isNegative && !isInDoubleRange whole fraction (power.getD 0) then failure
  pure .float

/-- A whole number of 64 bits. Other bases than ten take no sign. -/
def integer : Reader Node := fun text =>
  match text with
  | '0' :: 'x' :: rest => based 16 rest
  | '0' :: 'o' :: rest => based 8 rest
  | '0' :: 'b' :: rest => based 2 rest
  | _ => (do
    let isNegative ← sign
    let value : Int := digitsValue 10 (← wholeDigits)
    ranged (if isNegative then -value else value)) text
where
  /-- A number in another base. -/
  based (base : Nat) : Reader Node := do
    ranged (digitsValue base (← digits base))
  /-- Refuses what does not fit. -/
  ranged (value : Int) : Reader Node :=
    if -0x8000000000000000 ≤ value ∧ value < 0x8000000000000000 then pure (.integer value) else failure

/-- A decimal number of a fixed width within bounds. -/
def fixed (width low high : Nat) : Reader Nat := fun text => do
  let n ← numeral? 10 (text.take width)
  if (text.take width).length = width ∧ low ≤ n ∧ n ≤ high then some (n, text.drop width) else none

/-- The number of days in a month of the Gregorian calendar. -/
def daysIn (year month : Nat) : Nat :=
  if month = 2 then
    if year % 4 = 0 ∧ (year % 100 ≠ 0 ∨ year % 400 = 0) then 29 else 28
  else if month = 4 ∨ month = 6 ∨ month = 9 ∨ month = 11 then 30
  else 31

/-- A date. -/
def date : Reader Unit := do
  let year ← fixed 4 0 9999
  char '-'
  let month ← fixed 2 1 12
  char '-'
  let _ ← fixed 2 1 (daysIn year month)

/-- A time of day, with a leap second allowed. -/
def timeOfDay : Reader Unit := do
  let _ ← fixed 2 0 23
  char ':'
  let _ ← fixed 2 0 59
  char ':'
  let _ ← fixed 2 0 60
  if (← peek?) = some '.' then
    char '.'
    let _ ← one (isDigitOf 10)
    let _ ← run (isDigitOf 10)

/-- The distance from universal time. -/
def offset : Reader Unit := do
  let c ← one fun c => c == 'Z' || c == 'z' || c == '+' || c == '-'
  if c == '+' || c == '-' then
    let _ ← fixed 2 0 23
    char ':'
    let _ ← fixed 2 0 59

/-- A moment: a date, a time of day, or both, then with an offset or without. -/
def moment : Reader Node := do
  match ← optional date with
  | none => timeOfDay
  | some _ =>
    let _ ← optional do
      let _ ← one fun c => c == 'T' || c == 't' || c == ' '
      timeOfDay
      optional offset
  pure .moment

/-- A number or a moment. -/
def number : Reader Node := fun text =>
  moment text <|> float text <|> integer text

end PacketMonitor.Toml

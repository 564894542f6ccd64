import PacketMonitor.Toml.Scalar

namespace PacketMonitor.Toml

open Reader

/-- Skips blanks. -/
def blanks : Reader Unit := do
  let _ ← run isBlank

/-- Characters of a key without quotes. -/
def isBareKeyChar (c : Char) : Bool :=
  ('a' ≤ c && c ≤ 'z') || ('A' ≤ c && c ≤ 'Z') || ('0' ≤ c && c ≤ '9') || c == '_' || c == '-'

/-- One part of a key. -/
def keyPart : Reader String := do
  match ← peek? with
  | some '"' | some '\'' => lineString
  | _ =>
    let name ← run isBareKeyChar
    if name.isEmpty then failure
    pure (String.ofList name)

/-- How many parts a key may have, and how deep values may be nested, less one. -/
def maxDepth : Nat := 79

/-- Reads a key with dots between its parts. `left` is how many parts it may
    have. -/
def keyFrom : Nat → Reader (List String)
  | 0 => failure
  | left + 1 => do
    blanks
    let part ← keyPart
    blanks
    match ← optional (char '.') with
    | none => pure [part]
    | some _ => return part :: (← keyFrom left)

/-- Reads a key with blanks around it. -/
def key : Reader (List String) :=
  keyFrom maxDepth

/-- Reads a comment up to the end of its line. -/
def comment : Reader Unit := do
  char '#'
  let _ ← run isPrintable

/-- Whether nothing is left. -/
def isAtEnd : Reader Bool := fun text =>
  some (text.isEmpty, text)

/-- Reads what may follow on a line, and the end of the line or of the text. -/
def lineEnd : Reader Unit := do
  blanks
  let _ ← optional comment
  if !(← isAtEnd) then newline

/-- Skips blanks, comments and ends of lines within an array. -/
def skipLayout : Nat → Reader Unit
  | 0 => pure ()
  | fuel + 1 => do
    blanks
    match ← peek? with
    | some '#' =>
      comment
      newline
      skipLayout fuel
    | some '\n' | some '\r' =>
      newline
      skipLayout fuel
    | _ => pure ()

mutual

/-- Reads a value. `depth` is how many arrays and inline tables may still be
    entered. -/
def value : Nat → Nat → Reader Node
  | 0, _ => failure
  | fuel + 1, depth => do
    match ← peek? with
    | some '"' | some '\'' => return .text (← string)
    | some '[' =>
      char '['
      match depth with
      | 0 => failure
      | depth + 1 => return .array (← items fuel depth [])
    | some '\x7b' =>
      char '\x7b'
      match depth with
      | 0 => failure
      | depth + 1 =>
        blanks
        match ← optional (char '\x7d') with
        | some _ => return .table .inline []
        | none => return .table .inline (← members fuel depth [])
    | some 't' =>
      word "true".toList
      return .boolean true
    | some 'f' =>
      word "false".toList
      return .boolean false
    | _ => number

/-- Reads the items of an array up to its closing bracket. A comma may follow the
    last one. -/
def items : Nat → Nat → List Node → Reader (List Node)
  | 0, _, _ => failure
  | fuel + 1, depth, done => do
    skipLayout fuel
    match ← optional (char ']') with
    | some _ => return done.reverse
    | none =>
      let item ← value fuel depth
      skipLayout fuel
      match ← optional (char ',') with
      | some _ => items fuel depth (item :: done)
      | none =>
        char ']'
        return (item :: done).reverse

/-- Reads the members of an inline table up to its closing brace. -/
def members : Nat → Nat → Entries → Reader Entries
  | 0, _, _ => failure
  | fuel + 1, depth, done => do
    let path ← key
    char '='
    blanks
    let node ← value fuel depth
    blanks
    match done.put? node path with
    | none => failure
    | some done =>
      match ← optional (char ',') with
      | some _ => members fuel depth done
      | none =>
        char '\x7d'
        return done

end

/-- A document as far as it was read: its entries and the header in force. -/
structure Progress where
  entries : Entries
  header : List String

/-- Reads the header of a table. -/
def tableHeader (progress : Progress) : Reader Progress := do
  char '['
  let path ← key
  char ']'
  lineEnd
  match progress.entries.openTable? path with
  | some entries => return ⟨entries, path⟩
  | none => failure

/-- Reads the header of an element in a list of tables. -/
def elementHeader (progress : Progress) : Reader Progress := do
  word "[[".toList
  let path ← key
  word "]]".toList
  lineEnd
  match progress.entries.openElement? path with
  | some entries => return ⟨entries, path⟩
  | none => failure

/-- Reads a line that gives a key its value. -/
def keyLine (fuel : Nat) (progress : Progress) : Reader Progress := do
  let path ← key
  char '='
  blanks
  let node ← value fuel maxDepth
  lineEnd
  match progress.entries.putUnder? progress.header path node with
  | some entries => return { progress with entries }
  | none => failure

/-- Reads one expression and the rest of its lines. -/
def expression (fuel : Nat) (progress : Progress) : Reader Progress := fun text =>
  match text with
  | '#' :: _ => (do lineEnd; return progress) text
  | '\n' :: _ | '\r' :: _ => (do newline; return progress) text
  | '[' :: '[' :: _ => elementHeader progress text
  | '[' :: _ => tableHeader progress text
  | _ => keyLine fuel progress text

/-- Reads expressions to the end of the text. -/
def expressions (size : Nat) : Nat → Progress → List Char → Option Entries
  | 0, _, _ => none
  | fuel + 1, progress, text =>
    match text.dropWhile isBlank with
    | [] => some progress.entries
    | text =>
      match expression (size + 1) progress text with
      | some (progress, rest) => expressions size fuel progress rest
      | none => none

/-- Reads a whole document. A byte order mark may stand in front. Every expression
    takes a character at least, so the length is fuel enough. -/
def read? (text : List Char) : Option Entries :=
  let text := match text with
    | '\uFEFF' :: rest => rest
    | _ => text
  expressions text.length (text.length + 1) ⟨[], []⟩ text

end PacketMonitor.Toml

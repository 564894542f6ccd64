namespace PacketMonitor.Text.Utf8

/-- What the reader of a UTF-8 stream stands before: a new character, or a
    continuation byte within the given bounds, with the number of bytes still
    to come after it and the bits collected so far. -/
inductive State where
  | ready
  | inside (low high : UInt8) (more value : Nat)
  deriving DecidableEq, Repr

/-- A decoded character, or `none` for one maximal ill-formed stretch. -/
abbrev Decoded := Option Char

/-- Reads the first byte of a character. Overlong forms, surrogates and code
    points past the last one are excluded by the bounds of the second byte. -/
def lead (b : UInt8) : State × List Decoded :=
  if b < 0x80 then (.ready, [some (Char.ofNat b.toNat)])
  else if b < 0xC2 then (.ready, [none])
  else if b < 0xE0 then (.inside 0x80 0xBF 0 (b.toNat - 0xC0), [])
  else if b = 0xE0 then (.inside 0xA0 0xBF 1 0, [])
  else if b = 0xED then (.inside 0x80 0x9F 1 0x0D, [])
  else if b < 0xF0 then (.inside 0x80 0xBF 1 (b.toNat - 0xE0), [])
  else if b = 0xF0 then (.inside 0x90 0xBF 2 0, [])
  else if b < 0xF4 then (.inside 0x80 0xBF 2 (b.toNat - 0xF0), [])
  else if b = 0xF4 then (.inside 0x80 0x8F 2 4, [])
  else (.ready, [none])

/-- Reads one byte. A byte that cannot continue the character begun before it
    closes that ill-formed stretch and is read again as a first byte. -/
def step (state : State) (b : UInt8) : State × List Decoded :=
  match state with
  | .ready => lead b
  | .inside low high more value =>
    if low ≤ b ∧ b ≤ high then
      let value := value * 64 + (b.toNat - 0x80)
      match more with
      | 0 => (.ready, [some (Char.ofNat value)])
      | more + 1 => (.inside 0x80 0xBF more value, [])
    else
      let (next, decoded) := lead b
      (next, none :: decoded)

/-- What the end of the input still yields. -/
def State.finish : State → List Decoded
  | .ready => []
  | .inside .. => [none]

/-- Reads bytes from a state. `done` holds, in reverse, what was read before. -/
def scanFrom (state : State) (done : List Decoded) : List UInt8 → List Decoded
  | [] => (state.finish.reverse ++ done).reverse
  | b :: rest =>
    let (next, decoded) := step state b
    scanFrom next (decoded.reverse ++ done) rest

/-- The characters and the maximal ill-formed stretches of some bytes. -/
def scan (bytes : List UInt8) : List Decoded :=
  scanFrom .ready [] bytes

/-- Stands for an ill-formed stretch. -/
def replacement : Char := '\uFFFD'

/-- Decodes any bytes, one replacement character per ill-formed stretch. -/
def decodeLossy (bytes : List UInt8) : List Char :=
  (scan bytes).map (·.getD replacement)

/-- Decodes well-formed bytes only. -/
def decode? (bytes : List UInt8) : Option (List Char) :=
  let decoded := scan bytes
  if decoded.all Option.isSome then some (decoded.filterMap id) else none

/-- The UTF-8 form of a text. -/
def encode (text : List Char) : List UInt8 :=
  text.flatMap String.utf8EncodeChar

/-- The number of bytes in the UTF-8 form of a text. -/
def size (text : List Char) : Nat :=
  text.foldl (fun n c => n + c.utf8Size) 0

end PacketMonitor.Text.Utf8

import PacketMonitor.Frame
import PacketMonitor.Stream.Fault

namespace PacketMonitor.Stream

open Text

/-- What the node sends once a terminal session is open. -/
def banner : List UInt8 :=
  Utf8.encode "Connected to TelnetServer\r".toList

/-- The end of a chunk in each phase: carriage return, bar, or the terminator of
    a frame. -/
def Phase.delimiter : Phase → UInt8
  | .connecting => 0x0D
  | .awaitingPortList => 0x7C
  | .monitoring | .failed => Frame.terminator

/-- What a reader has to tell: a new phase, or a whole frame. -/
inductive Signal where
  | entered (phase : Phase)
  | frame (raw : List UInt8)
  deriving DecidableEq, Repr

/-- Reads the stream of a session byte by byte. `awaited` is the number of port
    descriptors to come, once the header of the list was read. `pending` holds
    the bytes of the chunk begun, last one first, and `length` their number. -/
structure Reader where
  phase : Phase := .connecting
  awaited : Option Nat := none
  pending : List UInt8 := []
  length : Nat := 0
  ports : List String := []
  deriving DecidableEq, Repr

namespace Reader

/-- The reader at the start of another run. Ports stay known, and a chunk that
    was not finished is lost. -/
def restart (r : Reader) : Reader :=
  { ports := r.ports }

/-- The number of ports that a list announces. -/
def portCount? (chunk : List UInt8) : Option Nat :=
  match chunk with
  | [0xFF, 0xFF, digit, 0x7C] =>
    if 0x30 ≤ digit ∧ digit ≤ 0x39 then some (digit.toNat - 0x30) else none
  | _ => none

/-- The description of a port in its chunk. -/
def descriptor (chunk : List UInt8) : String :=
  String.ofList (Utf8.decodeLossy (Frame.dropEnd [Phase.awaitingPortList.delimiter] chunk))

/-- Waits for the given number of descriptors, or for frames if there are no
    more. -/
def await (r : Reader) : Nat → Reader × List Signal
  | 0 => ({ r with phase := .monitoring, awaited := none }, [.entered .monitoring])
  | count + 1 => ({ r with awaited := some (count + 1) }, [])

/-- Takes a whole chunk, delimiter included. -/
def takeChunk (r : Reader) (chunk : List UInt8) : Except (Reader × Fault) (Reader × List Signal) :=
  match r.phase with
  | .connecting =>
    if banner.isSuffixOf chunk then
      .ok ({ r with phase := .awaitingPortList }, [.entered .awaitingPortList])
    else .ok (r, [])
  | .awaitingPortList =>
    match r.awaited with
    | none =>
      match portCount? chunk with
      | some count => .ok (({ r with ports := [] } : Reader).await count)
      | none => .error (r, badHeader chunk)
    | some count =>
      let ports := r.ports ++ [descriptor chunk]
      .ok (({ r with ports } : Reader).await (count - 1))
  | .monitoring => .ok (r, [.frame chunk])
  | .failed => .ok (r, [])

/-- Takes one byte. A chunk that reaches the limit without its delimiter ends
    the session. -/
def takeByte (r : Reader) (b : UInt8) : Except (Reader × Fault) (Reader × List Signal) :=
  if b = r.phase.delimiter then
    ({ r with pending := [], length := 0 } : Reader).takeChunk (b :: r.pending).reverse
  else if r.length + 1 < maxChunk then
    .ok ({ r with pending := b :: r.pending, length := r.length + 1 }, [])
  else .error ({ r with pending := [], length := 0 }, overlong r.phase.delimiter r.phase)

/-- What became of some bytes: the reader after them, the signals in order, and
    the fault that ended it with the bytes not looked at any more. -/
structure Intake where
  reader : Reader
  signals : List Signal
  fault : Option (Fault × List UInt8)

/-- Takes bytes as far as possible. `told` holds the signals so far, last one
    first. -/
def takeFrom (told : List Signal) (r : Reader) : List UInt8 → Intake
  | [] => ⟨r, told.reverse, none⟩
  | b :: rest =>
    match r.takeByte b with
    | .ok (r, signals) => takeFrom (signals.reverse ++ told) r rest
    | .error (r, fault) => ⟨r, told.reverse, some (fault, rest)⟩

/-- Takes bytes as far as possible. -/
def takeAll (r : Reader) (bytes : List UInt8) : Intake :=
  takeFrom [] r bytes

end Reader

end PacketMonitor.Stream

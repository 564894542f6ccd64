namespace PacketMonitor.Session

/-- How a line refuses a message: a write or a flush fails, or a write takes no
    byte at all. -/
inductive Refusal where
  | write (message : String)
  | flush (message : String)
  | zero
  deriving DecidableEq, Repr

/-- The text of the failure that follows from a refusal. -/
def Refusal.message : Refusal → String
  | .write message => message
  | .flush message => message
  | .zero => "write zero"

/-- The writing side of a connection. Each write takes at most `chunk` bytes, at
    least one. `stalls` are the waiting times of the messages to come, and
    `failure` says after how many more messages every message is refused. -/
structure Writer where
  chunk : Option Nat := none
  stalls : List Nat := []
  failure : Option (Nat × Refusal) := none
  deriving DecidableEq, Repr

/-- A message that reached the node whole: when its writing began, when it was
    flushed, and its bytes. -/
structure Sent where
  begun : Nat
  flushed : Nat
  bytes : List UInt8
  deriving DecidableEq, Repr

/-- A message that a line was given to write: when that began, when the message was
    flushed or refused, its bytes, and which of the two it was. -/
structure Write where
  begun : Nat
  ended : Nat
  bytes : List UInt8
  isFlushed : Bool
  deriving DecidableEq, Repr

/-- The message that reached the node. -/
def Write.sent? (write : Write) : Option Sent :=
  if write.isFlushed then some ⟨write.begun, write.ended, write.bytes⟩ else none

/-- The writing of a message that reached the node. -/
def Sent.write (sent : Sent) : Write :=
  ⟨sent.begun, sent.flushed, sent.bytes, true⟩

namespace Writer

/-- The portions in which a message is taken. -/
def portions (chunk : Option Nat) (bytes : List UInt8) : List (List UInt8) :=
  match chunk with
  | none => [bytes]
  | some n => go (max 1 n) bytes.length bytes
where
  go (n : Nat) : Nat → List UInt8 → List (List UInt8)
    | 0, _ => []
    | _, [] => []
    | fuel + 1, bytes => bytes.take n :: go n fuel (bytes.drop n)

/-- Writes and flushes one message. A stall comes first, and the time returned
    is when the message was flushed or refused. A write that is refused fails
    without a stall, while a flush has to wait for the bytes before it. -/
def send (w : Writer) (now : Nat) (bytes : List UInt8) : Writer × Nat × Except Refusal Sent :=
  let time := now + w.stalls.headD 0
  let rest := { w with stalls := w.stalls.tail }
  match w.failure with
  | some (0, .flush message) => (rest, time, .error (.flush message))
  | some (0, refusal) => (rest, now, .error refusal)
  | failure =>
    ({ rest with failure := failure.map fun (left, refusal) => (left - 1, refusal) }, time,
      .ok ⟨now, time, (portions w.chunk bytes).flatten⟩)

end Writer

end PacketMonitor.Session

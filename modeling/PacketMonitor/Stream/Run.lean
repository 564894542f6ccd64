import PacketMonitor.Stream.Reader

namespace PacketMonitor.Stream

/-- Bytes that arrive together, with the time from which they can be read. -/
structure Segment where
  index : Nat
  readyAt : Nat
  bytes : List UInt8
  deriving DecidableEq, Repr

/-- How a stream goes on after its last segment: it is closed, fails at every
    attempt to read, or stays silent. -/
inductive Ending where
  | close
  | failure (message : String)
  | silence
  deriving DecidableEq, Repr

/-- The fault that an ending amounts to in a phase. -/
def Ending.fault? (phase : Phase) : Ending → Option Fault
  | .close => some (.closed phase)
  | .failure message => some (.io message)
  | .silence => none

/-- A stream as far as it has not been read. -/
structure Source where
  segments : List Segment
  ending : Ending
  endsAt : Nat := 0
  deriving DecidableEq, Repr

/-- What happens while a stream is read. A segment counts as consumed when more
    is asked for after its last byte. -/
inductive Occurrence where
  | told (signal : Signal)
  | consumed (segment : Nat)
  | ended
  deriving DecidableEq, Repr

/-- The end of a run: the reader, what was left of the stream, all that happened
    in between with its time, and why and when it was over. -/
structure Outcome where
  reader : Reader
  source : Source
  occurrences : List (Nat × Occurrence)
  fault : Fault
  time : Nat

/-- Puts earlier occurrences in front. -/
def Outcome.after (outcome : Outcome) (earlier : List (Nat × Occurrence)) : Outcome :=
  { outcome with occurrences := earlier ++ outcome.occurrences }

namespace Reader

/-- Reads segments and then the ending, waiting for each. Whatever is still
    awaited when cancellation fires is not read any more. -/
def readFrom (cancelAt : Nat) (ending : Ending) (endsAt : Nat) (now : Nat) (r : Reader) :
    List Segment → Outcome
  | [] =>
    let stop (fault : Fault) (time : Nat) (occurrences : List (Nat × Occurrence)) : Outcome :=
      ⟨r, ⟨[], ending, endsAt⟩, occurrences, fault, time⟩
    match ending.fault? r.phase with
    | none => stop .cancelled (max now cancelAt) []
    | some fault =>
      let time := max now endsAt
      if cancelAt ≤ time then stop .cancelled (max now cancelAt) []
      else stop fault time [(time, .ended)]
  | segment :: rest =>
    let time := max now segment.readyAt
    if cancelAt ≤ time then
      ⟨r, ⟨segment :: rest, ending, endsAt⟩, [], .cancelled, max now cancelAt⟩
    else
      let intake := r.takeAll segment.bytes
      let told := intake.signals.map fun signal => (time, Occurrence.told signal)
      match intake.fault with
      | some (fault, left) =>
        ⟨intake.reader, ⟨{ segment with bytes := left } :: rest, ending, endsAt⟩, told, fault, time⟩
      | none =>
        (readFrom cancelAt ending endsAt time intake.reader rest).after
          (told ++ [(time, .consumed segment.index)])

/-- Runs a session on a stream from the banner on. It only ever ends by a fault
    and leaves the reader in the last phase. -/
def run (cancelAt now : Nat) (r : Reader) (source : Source) : Outcome :=
  let outcome := readFrom cancelAt source.ending source.endsAt now r.restart source.segments
  { outcome with
    reader := { outcome.reader with phase := .failed }
    occurrences :=
      (now, .told (.entered .connecting)) ::
        (outcome.occurrences ++ [(outcome.time, .told (.entered .failed))]) }

end Reader

/-- The whole frames among some occurrences. -/
def frames (occurrences : List Occurrence) : List (List UInt8) :=
  occurrences.filterMap fun
    | .told (.frame raw) => some raw
    | _ => none

end PacketMonitor.Stream

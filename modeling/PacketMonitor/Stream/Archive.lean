import PacketMonitor.Stream.Run

namespace PacketMonitor.Stream

/-- How the archive of a session behaves: why it cannot be opened, or after how many
    frames it refuses another one, and why. -/
structure Archive where
  unopened : Option String := none
  failure : Option (Nat × String) := none
  deriving DecidableEq, Repr

/-- All that happens before a frame, and the time of that frame. As many other ones
    come before it as given. -/
def beforeFrame? : Nat → List (Nat × Occurrence) → Option (List (Nat × Occurrence) × Nat)
  | _, [] => none
  | 0, (time, .told (.frame _)) :: _ => some ([], time)
  | count + 1, (time, .told (.frame raw)) :: rest =>
    (beforeFrame? count rest).map fun (kept, stop) => ((time, .told (.frame raw)) :: kept, stop)
  | count, first :: rest =>
    (beforeFrame? count rest).map fun (kept, stop) => (first :: kept, stop)

/-- What a session sees of a run: all that happened with its time, and why and when
    it was over. -/
structure Reading where
  occurrences : List (Nat × Occurrence)
  fault : Fault
  time : Nat

/-- What a session sees of some occurrences if the archive refuses one of their
    frames. The frame is not told, and it ends the session. -/
def Archive.refused? (archive : Archive) (occurrences : List (Nat × Occurrence)) : Option Reading :=
  archive.failure.bind fun (count, message) =>
    (beforeFrame? count occurrences).map fun (kept, stop) =>
      { occurrences := kept ++ [(stop, .told (.entered .failed))]
        fault := .archive message
        time := stop }

/-- A run whose frames are archived before anything is told of them. -/
def Outcome.archivedBy (outcome : Outcome) (archive : Archive) : Reading :=
  (archive.refused? outcome.occurrences).getD
    { occurrences := outcome.occurrences
      fault := outcome.fault
      time := outcome.time }

end PacketMonitor.Stream

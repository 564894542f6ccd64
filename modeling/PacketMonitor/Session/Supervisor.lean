import PacketMonitor.Session.Backoff
import PacketMonitor.Session.Chronicle
import PacketMonitor.Session.Handshake
import PacketMonitor.Session.Keepalive
import PacketMonitor.Stream.Archive

namespace PacketMonitor.Session

/-- How sessions are run. Frames are archived if there is a directory for it. -/
structure Settings where
  callsign : String
  ports : UInt32 := 12
  initialBackoff : Interval := .ofSeconds 1
  maxBackoff : Interval := .ofSeconds 300
  keepalive : Interval := .ofSeconds 120
  settle : Interval := .ofSeconds 3
  step : Interval := .ofSeconds 1
  retryPause : Interval := .ofSeconds 1
  archiveDir : Option String := none
  consoleEcho : Bool := false
  deriving DecidableEq, Repr

/-- A connection as the node provides it, and the archive for its frames. All times
    count from when it was made. -/
structure Connection where
  source : Stream.Source
  writer : Writer := {}
  archive : Stream.Archive := {}
  deriving DecidableEq, Repr

/-- The archive that is used. Without a directory for it there is none that could
    fail. -/
def Settings.archive (settings : Settings) (connection : Connection) : Stream.Archive :=
  if settings.archiveDir.isSome then connection.archive else {}

/-- The answer to an attempt to connect, which takes some time: a connection or
    an error message. -/
structure Attempt where
  delay : Nat := 0
  result : Except String Connection

/-- What the supervisor meets: the answers to its attempts, and the time at which
    cancellation fires. After the last answer every attempt is refused at once. -/
structure World where
  attempts : List Attempt
  cancelAt : Nat

/-- A stream whose times count from an earlier moment. -/
def shifted (start : Nat) (source : Stream.Source) : Stream.Source :=
  { source with
    segments := source.segments.map fun s => { s with readyAt := start + s.readyAt }
    endsAt := start + source.endsAt }

/-- The end of a session: what happened, when it was over, and why. -/
structure SessionOutcome where
  happenings : List (Nat × Happening)
  time : Nat
  error : Error

/-- The messages of a session as happenings. -/
def flushes (sent : List Sent) : List (Nat × Happening) :=
  sent.map fun s => (s.flushed, .sent s.bytes)

/-- Runs a session on a connection made just now. After the handshake the archive
    is opened, and the stream is read while the keepalive runs. The session is over
    when both have stopped, and only reading decides when the keepalive has to stop.
    As the clock can tell when that is, a first tick that it cannot tell would not
    come in time anyway. -/
def runSession (settings : Settings) (cancelAt : Nat) (connection : Connection) (now : Nat) :
    SessionOutcome :=
  let login := perform cancelAt connection.writer now
    (handshake settings.callsign settings.ports settings.settle.toMillis settings.step.toMillis)
  let opening := (now, Happening.status .handshaking) :: flushes login.sent
  match login.error, (settings.archive connection).unopened with
  | some error, _ => ⟨opening, login.time, error⟩
  | none, some message => ⟨opening, login.time, .monitor (.archive message)⟩
  | none, none =>
    let outcome := ({} : Stream.Reader).run cancelAt login.time (shifted now connection.source)
    let reading := outcome.archivedBy (settings.archive connection)
    let alive := keepalive settings.keepalive.toMillis reading.time login.writer login.time
    let told := reading.occurrences.map fun (time, o) => (time, Happening.ofOccurrence o)
    ⟨opening ++ told.merge (flushes alive.sent) (fun a b => a.1 ≤ b.1),
      max reading.time alive.time, .monitor reading.fault⟩

/-- Where the supervisor stands before an attempt: the answers to come, the time,
    the attempts made so far in all and in this cycle, and the delays to use. -/
structure Standing where
  attempts : List Attempt
  now : Nat
  made : Nat
  inCycle : UInt32
  backoff : Backoff

/-- What follows an attempt: another one, or the end at a time. -/
inductive Next where
  | again (standing : Standing)
  | over (time : Nat)

/-- One more than a number, unless it is the largest. -/
def oneMore (n : UInt32) : UInt32 :=
  if n = 0xFFFFFFFF then n else n + 1

/-- The delays of a new cycle. -/
def freshBackoff (settings : Settings) : Backoff :=
  .start settings.initialBackoff.toDuration settings.maxBackoff.toDuration

/-- Makes one attempt to connect and runs the session that comes of it. A refused
    attempt is followed by the next delay, a session by the retry pause and a new
    cycle. -/
def attemptOnce (settings : Settings) (world : World) (s : Standing) : Chronicle × Next :=
  let number := s.made + 1
  let inCycle := oneMore s.inCycle
  let opening := Chronicle.ofTimed number
    [(s.now, .status (.connecting inCycle)), (s.now, .attempt)]
  let answer := s.attempts.headD { result := .error "" }
  let time := s.now + answer.delay
  if world.cancelAt ≤ time then (opening, .over (max s.now world.cancelAt))
  else
    match answer.result with
    | .error _ =>
      let (delay, backoff) := s.backoff.next
      match pause world.cancelAt time delay.toMillis with
      | (time, false) => (opening, .over time)
      | (time, true) => (opening, .again ⟨s.attempts.tail, time, number, inCycle, backoff⟩)
    | .ok connection =>
      let session := runSession settings world.cancelAt connection time
      let entries := opening ++
        Chronicle.ofTimed number (session.happenings ++ [(session.time, .closed)])
      if session.error.isCancelled then (entries, .over session.time)
      else
        let entries := entries ++
          Chronicle.ofTimed number [(session.time, .status .disconnected)]
        match pause world.cancelAt session.time settings.retryPause.toMillis with
        | (time, false) => (entries, .over time)
        | (time, true) =>
          (entries, .again ⟨s.attempts.tail, time, number, 0, freshBackoff settings⟩)

/-- Makes attempts until the end, or as many as the fuel allows. -/
def attemptsFrom (settings : Settings) (world : World) : Nat → Standing → Chronicle
  | 0, _ => []
  | fuel + 1, s =>
    match attemptOnce settings world s with
    | (entries, .again s) => entries ++ attemptsFrom settings world fuel s
    | (entries, .over time) => entries ++ Chronicle.ofTimed s.made [(time, .status .stopped)]

/-- Keeps sessions going until cancellation fires. After the scripted answers
    every attempt takes at least a millisecond with its delay, if there are delays
    at all, so the fuel suffices. -/
def supervise (settings : Settings) (world : World) : Chronicle :=
  if world.cancelAt = 0 then [⟨0, 0, .status .stopped⟩]
  else
    attemptsFrom settings world (world.attempts.length + world.cancelAt + 1)
      ⟨world.attempts, 0, 0, 0, freshBackoff settings⟩

end PacketMonitor.Session

import PacketMonitor.Proofs.Session.Statuses
import PacketMonitor.Proofs.Session.Writing

namespace PacketMonitor.Session

open PacketMonitor.Stream

/-- The handshake on a connection made at some time. -/
def Connection.login (settings : Settings) (cancelAt : Nat) (connection : Connection)
    (start : Nat) : HandshakeOutcome :=
  perform cancelAt connection.writer start
    (handshake settings.callsign settings.ports settings.settle.toMillis settings.step.toMillis)

/-- What is read of the stream of a connection after its handshake. -/
def Connection.reading (settings : Settings) (cancelAt : Nat) (connection : Connection)
    (start : Nat) : Reading :=
  (({} : Stream.Reader).run cancelAt (connection.login settings cancelAt start).time
    (shifted start connection.source)).archivedBy (settings.archive connection)

/-- The keepalive that goes on as long as the stream is read. -/
def Connection.upkeep (settings : Settings) (cancelAt : Nat) (connection : Connection)
    (start : Nat) : KeepaliveOutcome :=
  let login := connection.login settings cancelAt start
  keepalive settings.keepalive.toMillis (connection.reading settings cancelAt start).time
    login.writer login.time

/-- How far a session comes: to a handshake that fails, to an archive that cannot be
    opened, or to the stream. -/
inductive Ran (settings : Settings) (cancelAt : Nat) (connection : Connection) (start : Nat) :
    SessionOutcome → Prop where
  | refused {error : Error}
    (hlogin : (connection.login settings cancelAt start).error = some error) :
    Ran settings cancelAt connection start
      ⟨(start, .status .handshaking) :: flushes (connection.login settings cancelAt start).sent,
        (connection.login settings cancelAt start).time, error⟩
  | unarchived {message : String}
    (hlogin : (connection.login settings cancelAt start).error = none)
    (harchive : (settings.archive connection).unopened = some message) :
    Ran settings cancelAt connection start
      ⟨(start, .status .handshaking) :: flushes (connection.login settings cancelAt start).sent,
        (connection.login settings cancelAt start).time, .monitor (.archive message)⟩
  | streamed
    (hlogin : (connection.login settings cancelAt start).error = none)
    (harchive : (settings.archive connection).unopened = none) :
    Ran settings cancelAt connection start
      ⟨(start, .status .handshaking) :: flushes (connection.login settings cancelAt start).sent ++
          ((connection.reading settings cancelAt start).occurrences.map fun (time, o) =>
            (time, Happening.ofOccurrence o)).merge
            (flushes (connection.upkeep settings cancelAt start).sent) (fun a b => a.1 ≤ b.1),
        max (connection.reading settings cancelAt start).time
          (connection.upkeep settings cancelAt start).time,
        .monitor (connection.reading settings cancelAt start).fault⟩

theorem ran (settings : Settings) (cancelAt : Nat) (connection : Connection) (start : Nat) :
    Ran settings cancelAt connection start (runSession settings cancelAt connection start) := by
  simp only [runSession]
  split
  · rename_i hlogin
    exact .refused hlogin
  · rename_i message hlogin harchive
    exact .unarchived hlogin harchive
  · rename_i hlogin harchive
    exact .streamed hlogin harchive

section Bounds

variable {settings : Settings} {cancelAt : Nat} {connection : Connection} {start : Nat}

theorem performs_login (settings : Settings) (cancelAt : Nat) (connection : Connection) (start : Nat) :
    Performs cancelAt start
      (handshake settings.callsign settings.ports settings.settle.toMillis settings.step.toMillis)
      (connection.login settings cancelAt start) :=
  performs ..

/-- The last that is done in a handshake is to wait, and then it is not cancelled yet. -/
theorem login_settles (hlogin : (connection.login settings cancelAt start).error = none) :
    ∃ first, Performs cancelAt start (handshake settings.callsign settings.ports
        settings.settle.toMillis settings.step.toMillis).dropLast first ∧
      (connection.login settings cancelAt start).writes = first.writes ∧
      (connection.login settings cancelAt start).time =
        first.time + min settings.settle.toMillis longestWait ∧
      (connection.login settings cancelAt start).time < cancelAt := by
  have hsplit : Performs cancelAt start ((handshake settings.callsign settings.ports
      settings.settle.toMillis settings.step.toMillis).dropLast ++ [.pause settings.settle.toMillis])
      (connection.login settings cancelAt start) := performs_login ..
  obtain ⟨first, second, hfirst, hsecond, herror, hwrites, htime⟩ := hsplit.split hlogin
  obtain ⟨hsilent, hsettled, hlate⟩ := hsecond.pause_done herror
  rw [hsilent, List.append_nil] at hwrites
  exact ⟨first, hfirst, hwrites, htime.trans hsettled, htime ▸ hlate⟩

theorem keeps_upkeep (settings : Settings) (cancelAt : Nat) (connection : Connection) (start : Nat) :
    Keeps (connection.reading settings cancelAt start).time
      (connection.login settings cancelAt start).time (connection.upkeep settings cancelAt start) :=
  keeps ..

theorem start_le_login_time (settings : Settings) (cancelAt : Nat) (connection : Connection)
    (start : Nat) : start ≤ (connection.login settings cancelAt start).time :=
  (performs_login ..).timing.1

theorem login_time_lt (hlogin : (connection.login settings cancelAt start).error = none) :
    (connection.login settings cancelAt start).time < cancelAt := by
  obtain ⟨-, -, -, -, hlate⟩ := login_settles hlogin
  exact hlate

theorem reads_reading (settings : Settings) (cancelAt : Nat) (connection : Connection) (start : Nat) :
    Reader.Reads cancelAt (connection.login settings cancelAt start).time {}
      (shifted start connection.source) (settings.archive connection)
      (connection.reading settings cancelAt start) :=
  Reader.reads ..

theorem login_time_le_reading_time (settings : Settings) (cancelAt : Nat) (connection : Connection)
    (start : Nat) : (connection.login settings cancelAt start).time ≤
      (connection.reading settings cancelAt start).time :=
  (reads_reading settings cancelAt connection start).timing.1

/-- Reading is over by cancellation, unless the handshake takes longer. -/
theorem reading_time_le (hlogin : (connection.login settings cancelAt start).time < cancelAt) :
    (connection.reading settings cancelAt start).time ≤ cancelAt :=
  ((reads_reading settings cancelAt connection start).before_cancellation hlogin).1

namespace Ran

variable {session : SessionOutcome}

theorem start_le_time (hran : Ran settings cancelAt connection start session) :
    start ≤ session.time := by
  have hlogin := start_le_login_time settings cancelAt connection start
  cases hran with
  | refused | unarchived => exact hlogin
  | streamed =>
    have hread := login_time_le_reading_time settings cancelAt connection start
    exact Nat.le_trans hlogin (Nat.le_trans hread (Nat.le_max_left ..))

/-- Only cancellation counts as such. -/
theorem cancelAt_le_time (hran : Ran settings cancelAt connection start session)
    (hcancelled : session.error.isCancelled = true) : cancelAt ≤ session.time := by
  cases hran with
  | refused hlogin => exact (performs_login ..).timing.2 _ hlogin hcancelled
  | unarchived => cases hcancelled
  | streamed =>
    obtain ⟨-, -, hfault⟩ := (reads_reading settings cancelAt connection start).timing
    exact Nat.le_trans (hfault (eq_cancelled_of_isCancelled hcancelled)) (Nat.le_max_left ..)

end Ran

end Bounds

end PacketMonitor.Session

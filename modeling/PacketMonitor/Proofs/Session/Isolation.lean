import PacketMonitor.Proofs.Session.Schedule
import PacketMonitor.Proofs.Session.View

namespace PacketMonitor.Session

open PacketMonitor.Stream

/-- What is published of a session. There are events only if the handshake is completed
    and frames can be archived as far as they are to be. Then they are those of a fresh
    run on the bytes that this connection delivers before its session is over. -/
def World.sessionEvents (color : RouteColor) (settings : Settings) (world : World)
    (connection : Connection) (start : Nat) : List Event :=
  if (connection.login settings world.cancelAt start).error = none ∧
      (settings.archive connection).unopened = none then
    eventsOn color (settings.archive connection) ((shifted start connection.source).deliveredBy
      world.cancelAt (world.session settings connection start).time)
  else []

/-- The frame that a happening brings. -/
def frame? : Nat × Happening → Option (List UInt8)
  | (_, .frame raw) => some raw
  | _ => none

theorem pick_frame? (chronicle : Chronicle) : chronicle.pick frame? = chronicle.frames := by
  refine List.filterMap_congr fun entry _ => ?_
  obtain ⟨time, connection, happening⟩ := entry
  cases happening <;> rfl

theorem sessional_frame? : Sessional frame? :=
  ⟨fun _ _ => rfl, fun _ => rfl, fun _ => rfl⟩

theorem filterMap_frame?_flushes (sent : List Sent) : (flushes sent).filterMap frame? = [] := by
  rw [flushes, List.filterMap_map]
  exact List.filterMap_eq_nil_iff.mpr fun _ _ => rfl

theorem filterMap_frame?_occurrences (occurrences : List (Nat × Occurrence)) :
    (occurrences.map fun (time, o) => (time, Happening.ofOccurrence o)).filterMap frame? =
      framesAmong (signals occurrences) := by
  rw [← frames_chronicleOfRun 0, ← pick_frame?, chronicleOfRun, pick_ofTimed]

theorem published_session (color : RouteColor) (settings : Settings) (world : World)
    (connection : Connection) (start : Nat) :
    published color ((world.session settings connection start).happenings.filterMap frame?) =
      world.sessionEvents color settings connection start := by
  have hopening : ∀ sent, ((start, Happening.status .handshaking) :: flushes sent).filterMap frame? =
      [] := fun sent => filterMap_frame?_flushes sent
  have hran : Ran settings world.cancelAt connection start
    (world.session settings connection start) := ran ..
  rw [World.sessionEvents]
  generalize world.session settings connection start = session at hran
  cases hran with
  | refused hlogin =>
    rw [if_neg (by simp [hlogin]), hopening]
    rfl
  | unarchived hlogin harchive =>
    rw [if_neg (by simp [harchive]), hopening]
    rfl
  | streamed hlogin harchive =>
    rw [if_pos ⟨hlogin, harchive⟩, List.filterMap_append, hopening, List.nil_append,
      filterMap_merge_of_none, filterMap_frame?_occurrences]
    · exact Reader.published_reading_eq_eventsOn color (login_time_lt hlogin) _ _
        (Nat.le_max_left ..)
    · intro other hother
      obtain ⟨message, -, rfl⟩ := List.mem_map.mp hother
      rfl

/-- The attempts that the script brings before cancellation, each with the time at which it
    begins: the first one at once, and another one after the pause behind the one before. -/
inductive World.Begins (settings : Settings) (world : World) : Nat → Nat → Prop where
  | first (hcancelAt : 0 < world.cancelAt) : world.Begins settings 1 0
  | next {number begun ended pause : Nat} (hbegins : world.Begins settings number begun)
    (hpauses : Pauses settings world number begun ended pause)
    (hnext : resumed ended pause < world.cancelAt) :
    world.Begins settings (number + 1) (resumed ended pause)

namespace Scheduled

variable {settings : Settings} {world : World} {number begun : Nat} {tries : List (Nat × Nat)}

theorem begins_of_mem (hscheduled : Scheduled settings world number begun tries)
    (hbegins : world.Begins settings number begun) :
    ∀ attempt ∈ tries, world.Begins settings attempt.1 attempt.2 := by
  induction hscheduled with
  | again hpauses hnext _ ih =>
    exact List.forall_mem_cons.mpr ⟨hbegins, ih (hbegins.next hpauses hnext)⟩
  | last => exact List.forall_mem_singleton.mpr hbegins
  | unfollowed => exact List.forall_mem_nil _

theorem head_mem (hscheduled : Scheduled settings world number begun tries)
    (hscripted : number ≤ world.attempts.length + 1) : (number, begun) ∈ tries := by
  cases hscheduled with
  | again | last => exact List.mem_cons_self ..
  | unfollowed hpast => exact absurd hscripted (Nat.not_le.mpr hpast)

/-- No attempt of the script is left out that is due before cancellation. -/
theorem next_mem (hscheduled : Scheduled settings world number begun tries)
    {number' begun' ended pause : Nat} (htry : (number', begun') ∈ tries)
    (hpauses : Pauses settings world number' begun' ended pause)
    (hnext : resumed ended pause < world.cancelAt) (hscripted : number' ≤ world.attempts.length) :
    (number' + 1, resumed ended pause) ∈ tries := by
  induction hscheduled with
  | again hpauses' _ hlater ih =>
    refine List.mem_cons_of_mem _ ?_
    obtain heq | htry := List.mem_cons.mp htry
    · obtain ⟨rfl, rfl⟩ := Prod.mk.inj heq
      obtain ⟨rfl, rfl⟩ := hpauses.unique hpauses'
      exact hlater.head_mem (Nat.succ_le_succ hscripted)
    · exact ih htry
  | last hlast =>
    obtain ⟨rfl, rfl⟩ := Prod.mk.inj (List.mem_singleton.mp htry)
    exact absurd hnext (Nat.not_lt.mpr (hlast _ _ hpauses))
  | unfollowed => cases htry

end Scheduled

/-- The attempts are those that the script brings before cancellation. -/
theorem mem_tries_iff_begins (settings : Settings) {world : World} {number : Nat} (begun : Nat)
    (hscripted : number ≤ world.attempts.length) :
    (number, begun) ∈ (supervise settings world).tries ↔ world.Begins settings number begun := by
  constructor
  · intro htry
    have hcancelAt : 0 < world.cancelAt := by
      refine Nat.pos_of_ne_zero fun hzero => ?_
      rw [supervise_eq, if_pos hzero] at htry
      cases htry
    exact (scheduled_supervise settings hcancelAt).begins_of_mem (.first hcancelAt) _ htry
  · intro hbegins
    induction hbegins with
    | first hcancelAt =>
      exact (scheduled_supervise settings hcancelAt).head_mem (Nat.le_add_left ..)
    | next _ hpauses hnext ih =>
      have hbefore := Nat.le_of_succ_le hscripted
      have hcancelAt := Nat.zero_lt_of_lt hnext
      exact (scheduled_supervise settings hcancelAt).next_mem (ih hbefore) hpauses hnext hbefore

/-- All that is published while sessions come and go is what each of them publishes for
    itself, one after the other in the order of the connections. Nothing of one is carried
    over to the next. The connections are those that the script brings before cancellation. -/
theorem supervise_events_eq_flatMap_sessions (color : RouteColor) (settings : Settings) (world : World)
    (view : View) :
    let chronicle := supervise settings world
    let events := (chronicle.connections world).flatMap fun (connection, start) =>
      world.sessionEvents color settings connection start
    published color chronicle.frames = events ∧
      (view.finally color chronicle).hub = view.hub.publishAll events ∧
      chronicle.tries.map (·.1) = List.range' 1 chronicle.tries.length ∧
      ∀ number begun, number ≤ world.attempts.length →
        ((number, begun) ∈ chronicle.tries ↔ world.Begins settings number begun) := by
  intro chronicle events
  have hevents : published color chronicle.frames = events := by
    rw [← pick_frame?, pick_supervise settings world sessional_frame?, published, List.flatMap_assoc]
    exact List.flatMap_congr fun made _ => published_session color settings world made.1 made.2
  refine ⟨hevents, by rw [hub_finally, hevents], numbers_tries settings world, ?_⟩
  exact fun number begun hscripted => mem_tries_iff_begins settings begun hscripted

end PacketMonitor.Session

import PacketMonitor.Proofs.Session.Placement
import PacketMonitor.Proofs.Session.Reconnection

namespace PacketMonitor.Session

open PacketMonitor.Stream

/-- The session on a connection is torn down at a time: the connection is let go, there is
    no session from then on, and after the retry pause the next attempt begins, unless
    cancellation comes first. -/
structure Chronicle.TornDown (settings : Settings) (world : World) (chronicle : Chronicle)
    (number finish : Nat) : Prop where
  closed : ∀ time, ⟨time, number, .closed⟩ ∈ chronicle ↔ time = finish
  disconnected : ∀ time, ⟨time, number, .status .disconnected⟩ ∈ chronicle ↔ time = finish
  next : ∀ time, (number + 1, time) ∈ chronicle.tries ↔
    time = finish + settings.retryPause.wait ∧ time < world.cancelAt

/-- A refused message ends a handshake when it is refused. -/
theorem Performed.of_refused {outcome : HandshakeOutcome} (hperformed : Performed outcome)
    {failing : Write} (hwrite : failing ∈ outcome.writes) (hfailing : failing.isFlushed = false) :
    (∃ step message, outcome.error = some (.handshake step message)) ∧
      outcome.time = failing.ended := by
  cases hperformed with
  | unrefused _ hflushed => cases hfailing.symm.trans (hflushed failing hwrite)
  | @refused before last step message herror hwrites hbefore _ htime =>
    rw [hwrites] at hwrite
    obtain hwrite | hwrite := List.mem_append.mp hwrite
    · cases hfailing.symm.trans (hbefore failing hwrite)
    · obtain rfl := List.mem_singleton.mp hwrite
      exact ⟨⟨step, message, herror⟩, htime⟩

/-- A refused message ends the keepalive when it is refused. -/
theorem Keeps.time_of_refused {stopAt now : Nat} {outcome : KeepaliveOutcome}
    (hkeeps : Keeps stopAt now outcome) {failing : Write} (hwrite : failing ∈ outcome.writes)
    (hfailing : failing.isFlushed = false) : outcome.time = failing.ended := by
  induction hkeeps with
  | stopped => cases hwrite
  | refused =>
    obtain rfl := List.mem_singleton.mp hwrite
    rfl
  | flushed _ _ _ _ ih =>
    obtain rfl | hwrite := List.mem_cons.mp hwrite
    · cases hfailing
    · exact ih hwrite

theorem mem_keepalives_iff {settings : Settings} {world : World} {connection : Connection}
    {start : Nat} {write : Write} :
    write ∈ world.keepalives settings connection start ↔
      (connection.login settings world.cancelAt start).error = none ∧
        (settings.archive connection).unopened = none ∧
          write ∈ connection.upkeepWrites settings world.cancelAt start := by
  rw [World.keepalives, ← and_assoc]
  split
  · rename_i hread
    exact (and_iff_right hread).symm
  · rename_i hunread
    exact iff_of_false List.not_mem_nil fun hall => hunread hall.1

namespace Ran

variable {settings : Settings} {world : World} {connection : Connection} {start : Nat}
  {session : SessionOutcome} {failing : Write}

/-- A handshake of which a message is refused is all there is of the session. -/
theorem of_refused_login
    (hran : Ran settings world.cancelAt connection start session)
    (hwrite : failing ∈ connection.loginWrites settings world.cancelAt start)
    (hfailing : failing.isFlushed = false) :
    session.time = failing.ended ∧ session.error.isCancelled = false := by
  have hperformed := (performs_login settings world.cancelAt connection start).performed
  obtain ⟨⟨step, message, herror⟩, htime⟩ := hperformed.of_refused hwrite hfailing
  cases hran with
  | refused hlogin =>
    cases herror.symm.trans hlogin
    exact ⟨htime, rfl⟩
  | unarchived hlogin | streamed hlogin => cases herror.symm.trans hlogin

/-- A session waits for the end of its stream even if the keepalive has failed. -/
theorem of_refused_keepalive
    (hran : Ran settings world.cancelAt connection start session)
    (hwrite : failing ∈ world.keepalives settings connection start)
    (hfailing : failing.isFlushed = false) :
    session.time = max (connection.reading settings world.cancelAt start).time failing.ended ∧
      session.error = .monitor (connection.reading settings world.cancelAt start).fault := by
  obtain ⟨hlogin, harchive, hupkeep⟩ := mem_keepalives_iff.mp hwrite
  cases hran with
  | refused herror => cases hlogin.symm.trans herror
  | unarchived _ hsome => cases harchive.symm.trans hsome
  | streamed =>
    rw [(keeps_upkeep ..).time_of_refused hupkeep hfailing]
    exact ⟨rfl, rfl⟩

/-- That a session is over is not told by the session. -/
theorem unsettled (hran : Ran settings world.cancelAt connection start session)
    {entry : Nat × Happening} (hentry : entry ∈ session.happenings) :
    entry.2 ≠ .closed ∧ entry.2 ≠ .status .disconnected := by
  obtain rfl | ⟨write, -, rfl⟩ | ⟨-, -, time, occurrence, -, rfl⟩ := hran.cases_of_mem hentry
  · exact ⟨Happening.noConfusion, by simp⟩
  · exact ⟨Happening.noConfusion, Happening.noConfusion⟩
  · cases occurrence with
    | told signal =>
      cases signal with
      | entered phase => exact ⟨Happening.noConfusion, by simp [Happening.ofOccurrence]⟩
      | frame raw => exact ⟨Happening.noConfusion, Happening.noConfusion⟩
    | consumed segment => exact ⟨Happening.noConfusion, Happening.noConfusion⟩
    | ended => exact ⟨Happening.noConfusion, Happening.noConfusion⟩

end Ran

theorem monitor_of_mem_occurrences {occurrences : List (Nat × Occurrence)} {entry : Nat × Status}
    (hentry : entry ∈ statusesAmong
      (occurrences.map fun (time, o) => (time, Happening.ofOccurrence o))) :
    ∃ phase, entry.2 = .monitor phase := by
  rw [statusesAmong_occurrences] at hentry
  obtain ⟨⟨time, phase⟩, -, rfl⟩ := List.mem_map.mp hentry
  exact ⟨phase, rfl⟩

/-- From the end of the handshake until a session is over, all statuses are those of the run
    on its stream. -/
theorem told_eq_append {settings : Settings} {world : World} {connection : Connection}
    {start : Nat} (hlogin : (connection.login settings world.cancelAt start).error = none)
    (harchive : (settings.archive connection).unopened = none) (number : Nat) :
    ∃ early middle late,
      (world.session settings connection start).told number = early ++ (middle ++ late) ∧
      ((connection.login settings world.cancelAt start).time, .monitor .connecting) ∈
        middle.statuses ∧
      (∀ entry ∈ middle.statuses, ∃ phase, entry.2 = .monitor phase) ∧
      ∀ entry ∈ late, entry.time = (world.session settings connection start).time := by
  have hran := ran_session settings world connection start
  generalize world.session settings connection start = session at hran ⊢
  cases hran with
  | refused herror => cases hlogin.symm.trans herror
  | unarchived _ hsome => cases harchive.symm.trans hsome
  | streamed =>
    have hreading := statusesAmong_merge_flushes
      ((connection.reading settings world.cancelAt start).occurrences.map fun (time, o) =>
        (time, Happening.ofOccurrence o))
      (connection.upkeep settings world.cancelAt start).sent (fun a b => a.1 ≤ b.1)
    rw [SessionOutcome.told, SessionOutcome.entries, List.append_assoc, ofTimed_append,
      ofTimed_append, List.append_assoc, List.append_assoc]
    refine ⟨_, _, _, rfl, ?_, ?_, ?_⟩
    · rw [statuses_ofTimed, hreading, statusesAmong_occurrences]
      obtain ⟨kept, hoccurrences, -⟩ := (reads_reading settings world.cancelAt connection start).exists_kept
      exact List.mem_map_of_mem (mem_entered_iff.mpr (hoccurrences ▸ List.mem_cons_self ..))
    · rw [statuses_ofTimed, hreading]
      exact fun entry => monitor_of_mem_occurrences
    · refine List.forall_mem_append.mpr ⟨List.forall_mem_singleton.mpr rfl, fun entry hentry => ?_⟩
      split at hentry
      · cases hentry
      · exact List.mem_singleton.mp hentry ▸ rfl

theorem exists_of_mem_statuses {chronicle : Chronicle} {time : Nat} {status : Status}
    (hstatus : (time, status) ∈ chronicle.statuses) : ∃ entry ∈ chronicle, entry.time = time := by
  obtain ⟨⟨time', number, happening⟩, hentry, heq⟩ := List.mem_filterMap.mp hstatus
  cases happening with
  | status other =>
    obtain ⟨rfl, -⟩ := Prod.mk.inj (Option.some.inj heq)
    exact ⟨_, hentry, rfl⟩
  | _ => cases heq

/-- The status at a time is the last one set until then. -/
theorem exists_statusAt_eq {early middle late : Chronicle} {time : Nat} {entry : Nat × Status}
    (hentry : entry ∈ middle.statuses) (htime : entry.1 ≤ time)
    (hlate : ∀ entry ∈ late, time < entry.time) :
    ∃ set, (set, Chronicle.statusAt (early ++ (middle ++ late)) time) ∈ middle.statuses := by
  have hnone : late.statuses.filter (·.1 ≤ time) = [] := by
    refine List.filter_eq_nil_iff.mpr fun other hother hle => ?_
    obtain ⟨told, htold, hsame⟩ := exists_of_mem_statuses hother
    have hless := hlate told htold
    rw [hsame] at hless
    exact absurd (of_decide_eq_true hle) (Nat.not_le.mpr hless)
  have hkept : entry ∈ middle.statuses.filter (·.1 ≤ time) :=
    List.mem_filter.mpr ⟨hentry, decide_eq_true htime⟩
  have hsome := List.ne_nil_of_mem hkept
  rw [Chronicle.statusAt, statuses_append, statuses_append, List.filter_append,
    List.filter_append, hnone, List.append_nil, List.getLast?_append,
    List.getLast?_eq_some_getLast hsome]
  exact ⟨_, (List.mem_filter.mp (List.getLast_mem hsome)).1⟩

section Made

variable {settings : Settings} {world : World} {number begun start : Nat} {connection : Connection}
  (htry : (number, begun) ∈ (supervise settings world).tries)
  (hmade : world.connection? number begun = some (connection, start))

include htry hmade

theorem mem_closed_iff (time : Nat) :
    ⟨time, number, .closed⟩ ∈ supervise settings world ↔
      time = (world.session settings connection start).time := by
  rw [mem_supervise_iff htry hmade Happening.noConfusion (fun _ => Happening.noConfusion)
    Happening.noConfusion, mem_told_iff]
  constructor
  · rintro (htold | hover | ⟨-, hover⟩)
    · exact absurd rfl ((ran_session ..).unsettled htold).1
    · exact congrArg Prod.fst hover
    · cases hover
  · rintro rfl
    exact .inr (.inl rfl)

/-- A session that nobody cancels is torn down when it is over. -/
theorem tornDown_session
    (hkept : (world.session settings connection start).error.isCancelled = false) :
    (supervise settings world).TornDown settings world number
      (world.session settings connection start).time := by
  refine ⟨mem_closed_iff htry hmade, fun time => ?_, fun time => ?_⟩
  · rw [mem_supervise_iff htry hmade Happening.noConfusion (by simp) (by simp), mem_told_iff]
    constructor
    · rintro (htold | hover | ⟨-, hover⟩)
      · exact absurd rfl ((ran_session ..).unsettled htold).2
      · cases hover
      · exact congrArg Prod.fst hover
    · rintro rfl
      exact .inr (.inr ⟨hkept, rfl⟩)
  · exact (mem_next_tries_iff htry hmade).trans (and_iff_right hkept)

/-- From the first message of the keepalive on, the status is that of the run on the stream as
    long as the session lasts. -/
theorem exists_phase_of_keepalive {write : Write}
    (hwrite : write ∈ world.keepalives settings connection start) {time : Nat}
    (hbegun : write.begun ≤ time)
    (htime : time < (world.session settings connection start).time) :
    ∃ phase, (supervise settings world).statusAt time = .monitor phase := by
  obtain ⟨hlogin, harchive, hupkeep⟩ := mem_keepalives_iff.mp hwrite
  obtain ⟨hstarted, -, -⟩ := (keeps_upkeep ..).inTurn.bounds write hupkeep
  obtain ⟨early, late, count, hplaced⟩ := exists_placed htry hmade
  obtain ⟨before, middle, behind, htold, hfirst, hphases, hover⟩ :=
    told_eq_append hlogin harchive number
  have hchronicle : supervise settings world =
      (early ++
        Chronicle.ofTimed number [(begun, .status (.connecting count)), (begun, .attempt)] ++
        before) ++ (middle ++ (behind ++ late)) := by
    rw [hplaced.split, htold]
    simp only [List.append_assoc]
  have hlate : ∀ entry ∈ behind ++ late, time < entry.time := by
    refine List.forall_mem_append.mpr ⟨fun entry hentry => ?_, fun entry hentry => ?_⟩
    · exact hover entry hentry ▸ htime
    · exact Nat.lt_of_lt_of_le htime (hplaced.later entry hentry)
  obtain ⟨set, hset⟩ := exists_statusAt_eq hfirst (Nat.le_trans hstarted hbegun) hlate
  rw [hchronicle]
  exact hphases _ hset

end Made

/-- A refused message of the handshake tears the session down as soon as it is refused. One of
    the keepalive does not: the session goes on in its phase until the stream is over, and is
    torn down only then. -/
theorem supervise_refused_writes {settings : Settings} {world : World} {number begun start : Nat}
    {connection : Connection} (htry : (number, begun) ∈ (supervise settings world).tries)
    (hmade : world.connection? number begun = some (connection, start)) :
    let chronicle := supervise settings world
    let reading := connection.reading settings world.cancelAt start
    (∀ failing ∈ connection.loginWrites settings world.cancelAt start, failing.isFlushed = false →
      chronicle.TornDown settings world number failing.ended) ∧
    ∀ failing ∈ world.keepalives settings connection start, failing.isFlushed = false →
      let finish := max reading.time failing.ended
      (∀ time, ⟨time, number, .closed⟩ ∈ chronicle ↔ time = finish) ∧
        (∀ time, failing.begun ≤ time → time < finish →
          ∃ phase, chronicle.statusAt time = .monitor phase) ∧
        (reading.fault ≠ .cancelled → chronicle.TornDown settings world number finish) := by
  intro chronicle reading
  have hran := ran_session settings world connection start
  refine ⟨fun failing hwrite hfailing => ?_, fun failing hwrite hfailing => ?_⟩
  · obtain ⟨htime, hkept⟩ := hran.of_refused_login hwrite hfailing
    exact htime ▸ tornDown_session htry hmade hkept
  · intro finish
    obtain ⟨htime, herror⟩ := hran.of_refused_keepalive hwrite hfailing
    have hover : (world.session settings connection start).time = finish := htime
    rw [← hover]
    refine ⟨mem_closed_iff htry hmade, fun time => exists_phase_of_keepalive htry hmade hwrite,
      fun hfault => tornDown_session htry hmade ?_⟩
    rw [herror, Bool.eq_false_iff]
    exact fun hcancelled => hfault (eq_cancelled_of_isCancelled hcancelled)

/-- A line that takes the four messages of the handshake and refuses all others, on a stream
    that brings the banner and a list of one port. -/
def lostLine (ending : Ending) : Connection :=
  { source := ⟨[⟨0, 0, banner⟩, ⟨1, 100, portList 0x31 [[0x32, 0x6D]]⟩], ending, 30000⟩
    writer := { failure := some (4, .write "gone") } }

/-- The keepalive is refused at 18000, and the session is torn down when the stream is closed. -/
theorem refused_keepalive_until_close :
    let settings : Settings := { callsign := "G4ABC", keepalive := .ofSeconds 10 }
    let world : World := ⟨[{ result := .ok (lostLine .close) }], 60000⟩
    ⟨18000, 18000, [0], false⟩ ∈ world.keepalives settings (lostLine .close) 0 ∧
      (∃ phase, (supervise settings world).statusAt 29999 = .monitor phase) ∧
      (supervise settings world).TornDown settings world 1 30000 := by
  intro settings world
  have hwrite : ⟨18000, 18000, [0], false⟩ ∈ world.keepalives settings (lostLine .close) 0 := by
    decide +kernel
  have htry : (1, 0) ∈ (supervise settings world).tries := by decide +kernel
  have hmade : world.connection? 1 0 = some (lostLine .close, 0) := rfl
  have htime : ((lostLine .close).reading settings world.cancelAt 0).time = 30000 := by
    decide +kernel
  obtain ⟨-, hkeepalive⟩ := supervise_refused_writes htry hmade
  obtain ⟨-, hphase, htorn⟩ := hkeepalive _ hwrite rfl
  rw [htime] at hphase htorn
  exact ⟨hwrite, hphase 29999 (by decide) (by decide), htorn (by decide +kernel)⟩

/-- The keepalive is refused at 18000 while the stream stays open and silent, and the session is
    not torn down. -/
theorem refused_keepalive_without_teardown :
    let settings : Settings := { callsign := "G4ABC", keepalive := .ofSeconds 10 }
    let world : World :=
      ⟨[{ result := .ok (lostLine .silence) }, { delay := 10000, result := .error "no" }],
        25000⟩
    (1, 0) ∈ (supervise settings world).tries ∧
      world.connection? 1 0 = some (lostLine .silence, 0) ∧
      ⟨18000, 18000, [0], false⟩ ∈ world.sessionWrites settings (lostLine .silence) 0 ∧
      ¬ (supervise settings world).TornDown settings world 1 18000 ∧
      ∃ phase, (supervise settings world).statusAt 24000 = .monitor phase := by
  intro settings world
  have hwrite : ⟨18000, 18000, [0], false⟩ ∈ world.keepalives settings (lostLine .silence) 0 := by
    decide +kernel
  have htry : (1, 0) ∈ (supervise settings world).tries := by decide +kernel
  have hmade : world.connection? 1 0 = some (lostLine .silence, 0) := rfl
  have htime : (world.session settings (lostLine .silence) 0).time = 25000 := by
    rw [((ran_session ..).of_refused_keepalive hwrite rfl).1]
    decide +kernel
  refine ⟨htry, hmade, List.mem_append_right _ hwrite, fun htorn => ?_, ?_⟩
  · have hclosed := (mem_closed_iff htry hmade 18000).mp ((htorn.closed 18000).mpr rfl)
    rw [htime] at hclosed
    exact absurd hclosed (by decide)
  · exact exists_phase_of_keepalive htry hmade hwrite (by decide) (htime ▸ by decide)

end PacketMonitor.Session

import PacketMonitor.Proofs.Session.Course

namespace PacketMonitor.Session

open PacketMonitor.Stream

theorem Ran.held {settings : Settings} {cancelAt start : Nat} {connection : Connection}
    {session : SessionOutcome} (hran : Ran settings cancelAt connection start session) :
    Held settings cancelAt connection start (statusesAmong session.happenings) := by
  cases hran with
  | refused hlogin =>
    rw [statusesAmong_cons_status, statusesAmong_flushes]
    exact .unmonitored (.inl (by simp [hlogin]))
  | unarchived _ harchive =>
    rw [statusesAmong_cons_status, statusesAmong_flushes]
    exact .unmonitored (.inr (by simp [harchive]))
  | streamed hlogin harchive =>
    rw [statusesAmong_append, statusesAmong_cons_status, statusesAmong_flushes,
      statusesAmong_merge_flushes, statusesAmong_occurrences]
    exact .monitored hlogin harchive
      ((reads_reading settings cancelAt connection start).phased (login_time_lt hlogin))

theorem statuses_entries (session : SessionOutcome) (number : Nat) :
    (session.entries number).statuses = statusesAmong session.happenings := by
  have hclosed : statusesAmong [(session.time, Happening.closed)] = [] := rfl
  rw [SessionOutcome.entries, statuses_ofTimed, statusesAmong_append, hclosed, List.append_nil]

theorem statuses_opening (s : Standing) :
    s.opening.statuses = [(s.now, .connecting (oneMore s.inCycle))] := rfl

namespace Taken

variable {settings : Settings} {world : World} {s next : Standing} {entries : Chronicle}
  {fuel count : Nat}

/-- After its last attempt the supervisor stops. -/
theorem course_over {stop : Nat} (htaken : Taken settings world s entries (.over stop))
    (hfollowed : s.Followed settings world fuel) (hcount : s.inCycle = attemptNumber count) :
    Course settings world (s.made + 1) s.now count [(s.made + 1, s.now)]
      (entries.statuses ++ [(stop, .stopped)]) := by
  have hnow := hfollowed.onScript.inTime
  have hnumber : oneMore s.inCycle = attemptNumber (count + 1) := by
    rw [hcount, oneMore_attemptNumber]
  have hlate : ∀ ended pause, Pauses settings world (s.made + 1) s.now ended pause →
      world.cancelAt ≤ resumed ended pause := fun _ _ => htaken.cancelAt_le_resumed hfollowed
  cases htaken with
  | unanswered hunanswered =>
    rw [statuses_opening, hnumber, Nat.max_eq_right (Nat.le_of_lt hnow)]
    exact .unconnected (connection?_eq_none_of_late hunanswered) hlate
  | refusedLast hanswer hanswered =>
    rw [statuses_opening, hnumber, Nat.max_eq_right (Nat.le_of_lt hanswered)]
    exact .unconnected (connection?_eq_none_of_refused hanswer) hlate
  | cancelled hmade hsession hcancelled =>
    subst hsession
    have hover := (ran_session ..).cancelAt_le_time hcancelled
    rw [statuses_append, statuses_opening, hnumber, statuses_entries]
    refine .cancelled hmade (ran_session ..).held (fun ended hfinish => ?_) hover
    rwa [← (ran_session ..).time_eq_of_sessionOver hfinish]
  | ended hmade hsession hkept hover =>
    subst hsession
    rw [statuses_append, statuses_append, statuses_opening, hnumber, statuses_entries,
      List.append_assoc, List.append_assoc]
    exact .disconnected hmade (ran_session ..).held ((ran_session ..).sessionOver hkept) hover

/-- After each other attempt the cycle goes on, or a new one begins. -/
theorem course_again {tries : List (Nat × Nat)} {later : List (Nat × Status)}
    (htaken : Taken settings world s entries (.again next))
    (hfollowed : s.Followed settings world fuel) (hcount : s.inCycle = attemptNumber count)
    (hlater : ∀ count, next.inCycle = attemptNumber count →
      Course settings world (next.made + 1) next.now count tries later) :
    Course settings world (s.made + 1) s.now count ((s.made + 1, s.now) :: tries)
      (entries.statuses ++ later) := by
  have hnumber : oneMore s.inCycle = attemptNumber (count + 1) := by
    rw [hcount, oneMore_attemptNumber]
  obtain ⟨ended, pause, hpauses, hnext, hinTime⟩ := htaken.pauses hfollowed
  cases htaken with
  | refused hanswer =>
    have hcourse := hlater (count + 1) hnumber
    simp only at hnext hcourse hinTime
    rw [hnext] at hcourse hinTime
    rw [statuses_opening, hnumber]
    exact .refused hanswer hpauses hinTime hcourse
  | reconnected hmade hsession hkept hagain =>
    subst hsession
    rw [statuses_append, statuses_append, statuses_opening, hnumber, statuses_entries,
      List.append_assoc, List.append_assoc]
    exact .reconnected hmade (ran_session ..).held ((ran_session ..).sessionOver hkept) hagain
      (hlater 0 rfl)

end Taken

theorem course_supervise (settings : Settings) {world : World} (hcancelAt : 0 < world.cancelAt) :
    Course settings world 1 0 0 (supervise settings world).tries
      (supervise settings world).statuses := by
  rw [supervise_eq, if_neg (Nat.ne_of_gt hcancelAt)]
  refine followed_induction (motive := fun _ s chronicle => ∀ count,
    s.inCycle = attemptNumber count →
      Course settings world (s.made + 1) s.now count chronicle.tries chronicle.statuses)
    ?_ ?_ ?_ _ (followed_outset settings hcancelAt) 0 rfl
  · intro s hfollowed count _
    obtain ⟨hpast, hdelay⟩ := hfollowed.unfollowed
    exact .unfollowed (Nat.succ_lt_succ hpast) hdelay
  · intro fuel s entries stop hfollowed htaken count hcount
    rw [tries_append, htaken.tries_eq, statuses_append]
    exact htaken.course_over hfollowed hcount
  · intro fuel s entries next later hfollowed htaken hlater count hcount
    rw [tries_append, htaken.tries_eq, statuses_append]
    exact htaken.course_again hfollowed hcount hlater

theorem eq_of_isStreaming {status : Status} (hstreaming : status.isStreaming = true) :
    status = .monitor .monitoring := by
  cases status with
  | monitor phase =>
    cases phase with
    | monitoring => rfl
    | _ => cases hstreaming
  | _ => cases hstreaming

/-- A status at a time other than the initial one was set by then, and no other one was set
    since. -/
theorem exists_set_of_statusAt {chronicle : Chronicle} {time : Nat} {status : Status}
    (hstatus : chronicle.statusAt time = status) (hother : status ≠ .initial) :
    ∃ early set late, chronicle.statuses = early ++ (set, status) :: late ∧ set ≤ time ∧
      ∀ entry ∈ late, time < entry.1 := by
  rw [Chronicle.statusAt] at hstatus
  obtain hnone | ⟨init, last, hlast⟩ :=
    (chronicle.statuses.filter (·.1 ≤ time)).eq_nil_or_concat
  · rw [hnone] at hstatus
    exact absurd hstatus.symm hother
  · rw [hlast, List.concat_eq_append, List.getLast?_concat] at hstatus
    rw [List.concat_eq_append, List.filter_eq_append_iff] at hlast
    obtain ⟨front, back, hsplit, -, hback⟩ := hlast
    obtain ⟨skipped, late, rfl, -, hset, hlate⟩ := List.filter_eq_cons_iff.mp hback
    refine ⟨front ++ skipped, last.1, late, ?_, of_decide_eq_true hset, fun entry hentry => ?_⟩
    · rw [hsplit, List.append_assoc, ← hstatus]
      rfl
    · have hless := List.filter_eq_nil_iff.mp hlate entry hentry
      simpa using hless

/-- The statuses of a supervisor run through cycles of numbered attempts, a handshake and at
    most one run on the stream, until it stops after cancellation and never before. Only
    without any delay between refused attempts it may never come as far as cancellation.
    Frames are said to flow only within a session, from when its list of ports is complete
    until its stream is not read any more. -/
theorem supervise_statuses (settings : Settings) (world : World) :
    let chronicle := supervise settings world
    chronicle.statusSequence = .disconnected :: chronicle.statuses.map (·.2) ∧
    (if world.cancelAt = 0 then chronicle.statuses = [(0, .stopped)]
      else Course settings world 1 0 0 chronicle.tries chronicle.statuses) ∧
    ((∃ course stop, chronicle.statuses = course ++ [(stop, .stopped)] ∧ world.cancelAt ≤ stop ∧
        ∀ entry ∈ course, entry.2 ≠ .stopped) ∨
      (settings.retryDelay 0 = 0 ∧ world.attempts.length < chronicle.tries.length ∧
        ∀ entry ∈ chronicle.statuses, entry.2 ≠ .stopped)) ∧
    ∀ time, (chronicle.statusAt time).isStreaming = true →
      ∃ number begun opened finish, (number, begun) ∈ chronicle.tries ∧
        Streams settings world number begun opened finish ∧ opened ≤ time ∧ time < finish := by
  intro chronicle
  obtain ⟨hcourse, hstops, hwithin⟩ :
      (if world.cancelAt = 0 then chronicle.statuses = [(0, .stopped)]
        else Course settings world 1 0 0 chronicle.tries chronicle.statuses) ∧
      Stops settings world 1 chronicle.tries chronicle.statuses ∧
      StreamsWithin settings world chronicle.tries chronicle.statuses := by
    by_cases hcancelAt : world.cancelAt = 0
    · have hidle : (supervise settings world).statuses = [] ++ [(0, .stopped)] := by
        rw [supervise_eq, if_pos hcancelAt]
        rfl
      rw [if_pos hcancelAt, hidle]
      exact ⟨rfl, .stopped (Nat.le_of_eq hcancelAt) (List.forall_mem_nil _),
        .cons .nil _ Status.noConfusion⟩
    · have hcourse := course_supervise settings (Nat.pos_of_ne_zero hcancelAt)
      rw [if_neg hcancelAt]
      exact ⟨hcourse, hcourse.stops, hcourse.streamsWithin⟩
  refine ⟨rfl, hcourse, ?_, fun time hstreaming => ?_⟩
  · generalize chronicle.tries = tries, chronicle.statuses = statuses at hstops ⊢
    cases hstops with
    | @stopped course stop hcancelled hbefore =>
      exact .inl ⟨course, stop, rfl, hcancelled, hbefore⟩
    | unfollowed hpast hdelay hstatuses => exact .inr ⟨hdelay, by omega, hstatuses⟩
  · obtain ⟨early, opened, late, hsplit, hopened, hlate⟩ :=
      exists_set_of_statusAt (eq_of_isStreaming hstreaming) Status.noConfusion
    obtain ⟨number, begun, finish, rest, htry, hstreams, rfl⟩ := hwithin early opened late hsplit
    exact ⟨number, begun, opened, finish, htry, hstreams, hopened, hlate _ (List.mem_cons_self ..)⟩

end PacketMonitor.Session

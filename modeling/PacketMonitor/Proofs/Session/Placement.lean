import PacketMonitor.Proofs.Session.Separation

namespace PacketMonitor.Session

theorem ofTimed_append (number : Nat) (early late : List (Nat × Happening)) :
    Chronicle.ofTimed number (early ++ late) =
      Chronicle.ofTimed number early ++ Chronicle.ofTimed number late := List.map_append

theorem mem_ofTimed_iff {number time : Nat} {happening : Happening}
    {happenings : List (Nat × Happening)} :
    ⟨time, number, happening⟩ ∈ Chronicle.ofTimed number happenings ↔
      (time, happening) ∈ happenings := by
  refine List.mem_map.trans ⟨?_, fun hmem => ⟨_, hmem, rfl⟩⟩
  rintro ⟨⟨time', happening'⟩, hmem, heq⟩
  cases heq
  exact hmem

theorem mem_tries_iff {chronicle : Chronicle} {number begun : Nat} :
    (number, begun) ∈ chronicle.tries ↔ ⟨begun, number, .attempt⟩ ∈ chronicle := by
  refine List.mem_filterMap.trans ⟨?_, fun hentry => ⟨_, hentry, rfl⟩⟩
  rintro ⟨⟨time, connection, happening⟩, hentry, heq⟩
  cases happening with
  | attempt =>
    cases heq
    exact hentry
  | _ => cases heq

/-- What is told of a session and of its end. -/
def SessionOutcome.told (session : SessionOutcome) (number : Nat) : Chronicle :=
  session.entries number ++
    if session.error.isCancelled then []
    else Chronicle.ofTimed number [(session.time, .status .disconnected)]

theorem mem_told_iff {session : SessionOutcome} {number time : Nat} {happening : Happening} :
    ⟨time, number, happening⟩ ∈ session.told number ↔
      (time, happening) ∈ session.happenings ∨ (time, happening) = (session.time, .closed) ∨
        session.error.isCancelled = false ∧
          (time, happening) = (session.time, .status .disconnected) := by
  rw [SessionOutcome.told, SessionOutcome.entries, List.mem_append, mem_ofTimed_iff,
    List.mem_append, List.mem_singleton, or_assoc]
  refine or_congr_right (or_congr_right ?_)
  split
  · rename_i hcancelled
    simp [hcancelled]
  · rename_i hkept
    rw [mem_ofTimed_iff, List.mem_singleton, Bool.eq_false_iff]
    exact (and_iff_right hkept).symm

theorem connection_of_mem_told {session : SessionOutcome} {number : Nat} {entry : Entry}
    (hentry : entry ∈ session.told number) : entry.connection = number := by
  obtain hentry | hentry := List.mem_append.mp hentry
  · exact connection_of_mem_ofTimed hentry
  · split at hentry
    · cases hentry
    · exact connection_of_mem_ofTimed hentry

theorem Ran.start_le {settings : Settings} {world : World} {connection : Connection} {start : Nat}
    {session : SessionOutcome}
    (hran : Ran settings world.cancelAt connection start session)
    {entry : Nat × Happening} (hentry : entry ∈ session.happenings) : start ≤ entry.1 := by
  obtain rfl | ⟨write, hwrite, rfl⟩ | ⟨-, -, time, occurrence, hoccurrence, rfl⟩ :=
    hran.cases_of_mem hentry
  · exact Nat.le_refl _
  · obtain ⟨hbegun, hended, -⟩ :=
      (inTurn_session settings world connection start).bounds write hwrite
    exact Nat.le_trans hbegun hended
  · obtain ⟨-, htimes, -⟩ := (reads_reading settings world.cancelAt connection start).timing
    exact Nat.le_trans (start_le_login_time ..) (htimes _ hoccurrence).1

theorem start_le_of_mem_told {settings : Settings} {world : World} {connection : Connection}
    {start number : Nat} {entry : Entry}
    (hentry : entry ∈ (world.session settings connection start).told number) :
    start ≤ entry.time := by
  have hover := (ran_session settings world connection start).start_le_time
  obtain hentry | hentry := List.mem_append.mp hentry
  · obtain ⟨timed, htimed, rfl⟩ := List.mem_map.mp hentry
    obtain htimed | htimed := List.mem_append.mp htimed
    · exact (ran_session ..).start_le htimed
    · obtain rfl := List.mem_singleton.mp htimed
      exact hover
  · split at hentry
    · cases hentry
    · obtain rfl := List.mem_singleton.mp hentry
      exact hover

/-- What follows a session: the stop if the session or the pause after it is cancelled, and
    otherwise a new cycle. -/
def Standing.afterSession (settings : Settings) (world : World) (s : Standing)
    (session : SessionOutcome) : Next :=
  if session.error.isCancelled then .over session.time
  else if world.cancelAt ≤ session.time + settings.retryPause.wait then
    .over (max session.time world.cancelAt)
  else
    .again ⟨s.attempts.tail, session.time + settings.retryPause.wait, s.made + 1, 0,
      freshBackoff settings⟩

/-- What is told after an attempt. -/
def Next.told (settings : Settings) (world : World) (fuel made : Nat) : Next → Chronicle
  | .again s => attemptsFrom settings world fuel s
  | .over stop => Chronicle.ofTimed made [(stop, .status .stopped)]

namespace Taken

variable {settings : Settings} {world : World} {s : Standing} {entries : Chronicle} {after : Next}
  {connection : Connection} {start : Nat}

/-- An attempt that leads to a connection is followed by the session on it. -/
theorem eq_of_made (htaken : Taken settings world s entries after)
    (hmade : world.connection? (s.made + 1) s.now = some (connection, start)) :
    entries = s.opening ++ (world.session settings connection start).told (s.made + 1) ∧
      after = s.afterSession settings world (world.session settings connection start) := by
  rw [SessionOutcome.told, Standing.afterSession, ← List.append_assoc]
  cases htaken with
  | unanswered hlate => cases (connection?_eq_none_of_late hlate).symm.trans hmade
  | refused hanswer | refusedLast hanswer =>
    cases (connection?_eq_none_of_refused hanswer).symm.trans hmade
  | cancelled hmade' hsession hcancelled =>
    cases hmade.symm.trans hmade'
    rw [hsession, if_pos hcancelled, if_pos hcancelled, List.append_nil]
    exact ⟨rfl, rfl⟩
  | ended hmade' hsession hkept hlate =>
    cases hmade.symm.trans hmade'
    rw [hsession, hkept, if_pos hlate]
    exact ⟨rfl, rfl⟩
  | reconnected hmade' hsession hkept hnext =>
    cases hmade.symm.trans hmade'
    rw [hsession, hkept, if_neg (Nat.not_le.mpr hnext)]
    exact ⟨rfl, rfl⟩

/-- Whatever is told of an attempt comes after it has begun. -/
theorem now_le (htaken : Taken settings world s entries after) :
    ∀ entry ∈ entries, s.now ≤ entry.time := by
  have hopening : ∀ entry ∈ s.opening, s.now ≤ entry.time := by
    simp [Standing.opening, Chronicle.ofTimed]
  intro entry hentry
  cases hmade : world.connection? (s.made + 1) s.now with
  | none =>
    cases htaken with
    | unanswered | refused | refusedLast => exact hopening entry hentry
    | cancelled hmade' | ended hmade' | reconnected hmade' => cases hmade.symm.trans hmade'
  | some made =>
    obtain ⟨-, hstart, -⟩ := connection?_eq_some_iff.mp hmade
    have hmade_le : s.now ≤ made.2 := hstart ▸ Nat.le_add_right ..
    rw [(htaken.eq_of_made hmade).1] at hentry
    obtain hentry | hentry := List.mem_append.mp hentry
    · exact hopening entry hentry
    · exact Nat.le_trans hmade_le (start_le_of_mem_told hentry)

end Taken

/-- From an attempt on only that one, later ones and the stop are told. -/
theorem mem_attemptsFrom {settings : Settings} {world : World} {fuel : Nat} {s : Standing}
    (hscript : s.OnScript world) {entry : Entry}
    (hentry : entry ∈ attemptsFrom settings world fuel s) :
    s.now ≤ entry.time ∧ (entry.happening = .status .stopped ∨ s.made < entry.connection) := by
  refine attemptsFrom_induction (motive := fun _ s chronicle => ∀ entry ∈ chronicle,
    s.now ≤ entry.time ∧ (entry.happening = .status .stopped ∨ s.made < entry.connection))
    ?_ ?_ ?_ fuel hscript entry hentry
  · intro s _
    exact List.forall_mem_nil _
  · intro fuel s entries stop hscript htaken
    refine List.forall_mem_append.mpr ⟨fun entry hentry => ?_, List.forall_mem_singleton.mpr ?_⟩
    · exact ⟨htaken.now_le entry hentry, .inr (htaken.made_lt entry hentry)⟩
    · exact ⟨Nat.le_of_lt (Nat.lt_of_lt_of_le hscript.inTime htaken.cancelAt_le), .inl rfl⟩
  · intro fuel s entries next later _ htaken hlater
    refine List.forall_mem_append.mpr ⟨fun entry hentry => ?_, fun entry hentry => ?_⟩
    · exact ⟨htaken.now_le entry hentry, .inr (htaken.made_lt entry hentry)⟩
    · obtain ⟨htime, hconnection⟩ := hlater entry hentry
      rw [htaken.made_eq] at hconnection
      refine ⟨Nat.le_trans htaken.now_le_now htime, hconnection.imp_right fun hless => ?_⟩
      exact Nat.lt_of_succ_lt hless

theorem exists_taken (settings : Settings) {world : World} (fuel : Nat) {s : Standing}
    (hscript : s.OnScript world) :
    ∃ entries after, Taken settings world s entries after ∧
      attemptsFrom settings world (fuel + 1) s =
        entries ++ after.told settings world fuel s.made := by
  have htaken := taken settings hscript
  rw [attemptsFrom]
  generalize attemptOnce settings world s = outcome at htaken ⊢
  obtain ⟨entries, next | stop⟩ := outcome
  · exact ⟨entries, .again next, htaken, rfl⟩
  · exact ⟨entries, .over stop, htaken, rfl⟩

namespace Taken

variable {settings : Settings} {world : World} {s : Standing} {entries : Chronicle} {after : Next}
  {fuel : Nat} {entry : Entry}

/-- After an attempt only later ones and the stop are told. -/
theorem made_lt_of_mem_told (htaken : Taken settings world s entries after)
    (hscript : s.OnScript world) (hentry : entry ∈ after.told settings world fuel s.made) :
    entry.happening = .status .stopped ∨ s.made + 1 < entry.connection := by
  obtain next | stop := after
  · obtain ⟨-, hconnection⟩ := mem_attemptsFrom (htaken.onScript hscript) hentry
    rwa [htaken.made_eq] at hconnection
  · obtain rfl := List.mem_singleton.mp hentry
    exact .inl rfl

theorem session_time_le_of_mem_told (htaken : Taken settings world s entries after)
    (hscript : s.OnScript world) {connection : Connection} {start : Nat}
    (hmade : world.connection? (s.made + 1) s.now = some (connection, start))
    (hentry : entry ∈ after.told settings world fuel s.made) :
    (world.session settings connection start).time ≤ entry.time := by
  obtain next | stop := after
  · obtain ⟨htime, -⟩ := mem_attemptsFrom (htaken.onScript hscript) hentry
    exact Nat.le_trans (htaken.session_time_le hmade) htime
  · obtain rfl := List.mem_singleton.mp hentry
    obtain ⟨-, hafter⟩ := htaken.eq_of_made hmade
    rw [Standing.afterSession] at hafter
    split at hafter
    · cases hafter
      exact Nat.le_refl _
    · split at hafter
      · cases hafter
        exact Nat.le_max_left ..
      · cases hafter

end Taken

/-- Only one attempt has the number that comes first. -/
theorem mem_tries_attemptsFrom_iff {settings : Settings} {world : World} {fuel time : Nat}
    {s : Standing} (hscript : s.OnScript world) :
    (s.made + 1, time) ∈ (attemptsFrom settings world (fuel + 1) s).tries ↔ time = s.now := by
  obtain ⟨entries, after, htaken, hchronicle⟩ := exists_taken settings fuel hscript
  rw [hchronicle, tries_append, htaken.tries_eq, List.singleton_append, List.mem_cons,
    Prod.mk.injEq]
  refine ⟨fun htry => ?_, fun htime => .inl ⟨rfl, htime⟩⟩
  obtain ⟨-, htime⟩ | hlater := htry
  · exact htime
  · obtain hstop | hless := htaken.made_lt_of_mem_told hscript (mem_tries_iff.mp hlater)
    · cases hstop
    · exact absurd hless (Nat.lt_irrefl _)

/-- The attempt after a session begins when the retry pause is over, if that is before
    cancellation. -/
theorem Taken.mem_tries_told_iff {settings : Settings} {world : World} {s : Standing}
    {entries : Chronicle} {after : Next} (htaken : Taken settings world s entries after)
    (hscript : s.OnScript world) {connection : Connection} {start : Nat}
    (hmade : world.connection? (s.made + 1) s.now = some (connection, start)) {fuel time : Nat} :
    let session := world.session settings connection start
    (s.made + 2, time) ∈ (after.told settings world (fuel + 1) s.made).tries ↔
      session.error.isCancelled = false ∧ time = session.time + settings.retryPause.wait ∧
        time < world.cancelAt := by
  intro session
  have hafter : after = s.afterSession settings world session := (htaken.eq_of_made hmade).2
  rw [Standing.afterSession] at hafter
  have hnone : ∀ stop, (s.made + 2, time) ∉ Chronicle.tries
      (Next.told settings world (fuel + 1) s.made (.over stop)) := nofun
  split at hafter
  · rename_i hcancelled
    rw [hafter, hcancelled]
    exact iff_of_false (hnone _) nofun
  rename_i hkept
  split at hafter
  · rename_i hlate
    rw [hafter]
    refine iff_of_false (hnone _) ?_
    rintro ⟨-, rfl, htime⟩
    exact absurd hlate (Nat.not_le.mpr htime)
  · rename_i hnext
    subst hafter
    rw [Next.told, mem_tries_attemptsFrom_iff (htaken.onScript hscript)]
    refine ⟨fun htime => ⟨Bool.eq_false_iff.mpr hkept, htime, ?_⟩, fun hdue => hdue.2.1⟩
    exact htime ▸ Nat.lt_of_not_le hnext

/-- From each of its attempts on, a supervisor goes on from where it stands then. -/
theorem attemptsFrom_eq_append {settings : Settings} {world : World} {fuel number begun : Nat}
    {s : Standing} (hscript : s.OnScript world)
    (htry : (number, begun) ∈ (attemptsFrom settings world fuel s).tries) :
    ∃ early left s',
      attemptsFrom settings world fuel s = early ++ attemptsFrom settings world (left + 1) s' ∧
      s'.OnScript world ∧ s'.made + 1 = number ∧ s'.now = begun ∧ s.made ≤ s'.made ∧
      left + number = fuel + s.made ∧ ∀ entry ∈ early, entry.connection < number := by
  induction fuel generalizing s with
  | zero => cases htry
  | succ fuel ih =>
    obtain ⟨entries, after, htaken, hchronicle⟩ := exists_taken settings fuel hscript
    rw [hchronicle, tries_append, htaken.tries_eq, List.singleton_append] at htry
    obtain heq | htry := List.mem_cons.mp htry
    · cases heq
      exact ⟨[], fuel, s, rfl, hscript, rfl, rfl, Nat.le_refl _, by omega, List.forall_mem_nil _⟩
    · obtain next | stop := after
      · obtain ⟨early, left, s', hsplit, hscript', rfl, hbegun, hmade, hleft, hearly⟩ :=
          ih (htaken.onScript hscript) htry
        rw [htaken.made_eq] at hmade hleft
        refine ⟨entries ++ early, left, s', ?_, hscript', rfl, hbegun, by omega, by omega, ?_⟩
        · rw [hchronicle, Next.told, hsplit, List.append_assoc]
        · refine List.forall_mem_append.mpr ⟨fun entry hentry => ?_, hearly⟩
          rw [htaken.connection_eq entry hentry]
          exact Nat.succ_lt_succ hmade
      · cases htry

/-- The session on a connection among all that is told: earlier attempts come before it, and
    later ones and the stop after it. -/
structure Placed (settings : Settings) (world : World) (number begun : Nat)
    (session : SessionOutcome) (chronicle early late : Chronicle) (count : UInt32) : Prop where
  split : chronicle = early ++ (Chronicle.ofTimed number
    [(begun, .status (.connecting count)), (begun, .attempt)] ++ session.told number ++ late)
  before : ∀ entry ∈ early, entry.connection < number
  behind : ∀ entry ∈ late, entry.happening = .status .stopped ∨ number < entry.connection
  later : ∀ entry ∈ late, session.time ≤ entry.time
  next : ∀ time, (number + 1, time) ∈ late.tries ↔ session.error.isCancelled = false ∧
    time = session.time + settings.retryPause.wait ∧ time < world.cancelAt

section Made

variable {settings : Settings} {world : World} {number begun start : Nat} {connection : Connection}
  (htry : (number, begun) ∈ (supervise settings world).tries)
  (hmade : world.connection? number begun = some (connection, start))

include htry hmade

theorem exists_placed : ∃ early late count, Placed settings world number begun
    (world.session settings connection start) (supervise settings world) early late count := by
  rw [supervise_eq] at htry ⊢
  split at htry
  · cases htry
  rename_i hcancelAt
  obtain ⟨early, left, s, hsplit, hscript, rfl, rfl, -, hleft, hearly⟩ :=
    attemptsFrom_eq_append (onScript_outset settings (Nat.pos_of_ne_zero hcancelAt)) htry
  obtain ⟨entries, after, htaken, hchronicle⟩ := exists_taken settings left hscript
  -- Connections are on the script, and there is fuel for one more attempt than that is long.
  obtain ⟨hanswer, -, -⟩ := connection?_eq_some_iff.mp hmade
  have hscripted : s.made < world.attempts.length := by
    by_contra hpast
    rw [World.answer, Nat.add_sub_cancel,
      List.getElem?_eq_none (Nat.le_of_not_lt hpast)] at hanswer
    cases hanswer
  obtain ⟨left, rfl⟩ : ∃ left', left = left' + 1 := by
    refine ⟨left - 1, ?_⟩
    change left + (s.made + 1) = world.attempts.length + world.cancelAt + 1 + 0 at hleft
    omega
  refine ⟨early, after.told settings world (left + 1) s.made, oneMore s.inCycle, ?_, hearly,
    fun entry => htaken.made_lt_of_mem_told hscript,
    fun entry => htaken.session_time_le_of_mem_told hscript hmade,
    fun time => htaken.mem_tries_told_iff hscript hmade⟩
  rw [if_neg hcancelAt, hsplit, hchronicle, (htaken.eq_of_made hmade).1, Standing.opening]

/-- What is told of a connection behind the attempt is what the session on it tells. -/
theorem mem_supervise_iff {time : Nat} {happening : Happening} (hattempt : happening ≠ .attempt)
    (hconnecting : ∀ count, happening ≠ .status (.connecting count))
    (hstopped : happening ≠ .status .stopped) :
    ⟨time, number, happening⟩ ∈ supervise settings world ↔
      ⟨time, number, happening⟩ ∈ (world.session settings connection start).told number := by
  obtain ⟨early, late, count, hplaced⟩ := exists_placed htry hmade
  rw [hplaced.split]
  simp only [List.mem_append]
  constructor
  · rintro (hentry | (hentry | hentry) | hentry)
    · exact absurd (hplaced.before _ hentry) (Nat.lt_irrefl _)
    · rw [mem_ofTimed_iff] at hentry
      simp only [List.mem_cons, Prod.mk.injEq, List.not_mem_nil, or_false] at hentry
      obtain ⟨-, hstatus⟩ | ⟨-, hstatus⟩ := hentry
      · exact absurd hstatus (hconnecting _)
      · exact absurd hstatus hattempt
    · exact hentry
    · obtain hstop | hless := hplaced.behind _ hentry
      · exact absurd hstop hstopped
      · exact absurd hless (Nat.lt_irrefl _)
  · exact fun hentry => .inr (.inl (.inr hentry))

theorem mem_next_tries_iff {time : Nat} :
    (number + 1, time) ∈ (supervise settings world).tries ↔
      (world.session settings connection start).error.isCancelled = false ∧
        time = (world.session settings connection start).time + settings.retryPause.wait ∧
          time < world.cancelAt := by
  obtain ⟨early, late, count, hplaced⟩ := exists_placed htry hmade
  have hother : number + 1 ≠ number := Nat.succ_ne_self number
  rw [← hplaced.next, mem_tries_iff, mem_tries_iff, hplaced.split]
  simp only [List.mem_append]
  refine ⟨?_, fun hentry => .inr (.inr hentry)⟩
  rintro (hentry | (hentry | hentry) | hentry)
  · exact absurd (hplaced.before _ hentry) (Nat.not_lt_of_gt (Nat.lt_succ_self number))
  · exact absurd (connection_of_mem_ofTimed hentry) hother
  · exact absurd (connection_of_mem_told hentry) hother
  · exact hentry

end Made

end PacketMonitor.Session

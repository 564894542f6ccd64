import PacketMonitor.Proofs.Session.Schedule
import PacketMonitor.Proofs.Session.Underway

namespace PacketMonitor.Session

open PacketMonitor.Stream

/-- The messages that are written over all sessions. -/
def Chronicle.writes (settings : Settings) (world : World) (chronicle : Chronicle) : List Write :=
  (chronicle.connections world).flatMap fun (connection, start) =>
    world.sessionWrites settings connection start

theorem writes_append (settings : Settings) (world : World) (early late : Chronicle) :
    Chronicle.writes settings world (early ++ late) =
      early.writes settings world ++ late.writes settings world := by
  rw [Chronicle.writes, connections_append, List.flatMap_append]
  rfl

/-- All of a session that is over before cancellation comes before it. -/
theorem Ran.time_lt {settings : Settings} {world : World} {connection : Connection} {start : Nat}
    {session : SessionOutcome}
    (hran : Ran settings world.cancelAt connection start session)
    (hstart : start < world.cancelAt)
    (hwrites : ∀ write ∈ world.sessionWrites settings connection start,
      write.ended < world.cancelAt)
    (hover : session.time < world.cancelAt) :
    ∀ entry ∈ session.happenings, entry.1 < world.cancelAt := by
  intro entry hentry
  obtain rfl | ⟨write, hwrite, rfl⟩ | ⟨-, hread, time, occurrence, hoccurrence, rfl⟩ :=
    hran.cases_of_mem hentry
  · exact hstart
  · exact hwrites write hwrite
  · obtain ⟨-, htimes, -⟩ := (reads_reading settings world.cancelAt connection start).timing
    have htime : time ≤ (connection.reading settings world.cancelAt start).time :=
      (htimes _ hoccurrence).2
    exact Nat.lt_of_le_of_lt (Nat.le_trans htime hread) hover

/-- No frame comes when cancellation has fired, even if the session takes longer. -/
theorem Ran.frame_time_lt {settings : Settings} {world : World} {connection : Connection}
    {start time : Nat} {raw : List UInt8} {session : SessionOutcome}
    (hran : Ran settings world.cancelAt connection start session)
    (hframe : (time, .frame raw) ∈ session.happenings) : time < world.cancelAt := by
  obtain heq | ⟨write, -, heq⟩ | ⟨hlogin, -, time', occurrence, hoccurrence, heq⟩ :=
    hran.cases_of_mem hframe
  · cases heq
  · cases heq
  · obtain ⟨-, hframes⟩ :=
      (reads_reading settings world.cancelAt connection start).before_cancellation
        (login_time_lt hlogin)
    obtain ⟨rfl, htold⟩ := Prod.mk.inj heq
    have hsignal : occurrence = .told (.frame raw) := by
      cases occurrence with
      | told signal => cases signal <;> cases htold; rfl
      | consumed segment => cases htold
      | ended => cases htold
    exact hframes time raw (hsignal ▸ hoccurrence)

theorem time_lt_of_mem_ofTimed {cancelAt number : Nat} {happenings : List (Nat × Happening)}
    (htimes : ∀ entry ∈ happenings, entry.1 < cancelAt) :
    ∀ entry ∈ Chronicle.ofTimed number happenings, entry.time < cancelAt := by
  intro entry hentry
  obtain ⟨timed, htimed, rfl⟩ := List.mem_map.mp hentry
  exact htimes timed htimed

namespace Taken

variable {settings : Settings} {world : World} {s next : Standing} {entries : Chronicle}

theorem writes_eq {after : Next} (htaken : Taken settings world s entries after) :
    entries.writes settings world =
      ((world.connection? (s.made + 1) s.now).map fun (connection, start) =>
        world.sessionWrites settings connection start).getD [] := by
  rw [Chronicle.writes, htaken.connections_eq]
  cases world.connection? (s.made + 1) s.now with
  | none => rfl
  | some made => exact List.append_nil _

/-- An attempt after which there is another one leaves nothing behind for the time after
    cancellation. -/
theorem before_cancellation (htaken : Taken settings world s entries (.again next))
    (hscript : s.OnScript world) :
    (∀ entry ∈ entries, entry.time < world.cancelAt) ∧
      ∀ write ∈ entries.writes settings world, write.ended < world.cancelAt := by
  have hopening : ∀ entry ∈ s.opening, entry.time < world.cancelAt :=
    time_lt_of_mem_ofTimed (by simpa using hscript.inTime)
  have hwrites := htaken.writes_eq
  cases htaken with
  | refused hanswer hnext =>
    rw [connection?_eq_none_of_refused hanswer] at hwrites
    exact ⟨hopening, by simp [hwrites]⟩
  | @reconnected connection start session hmade hsession hkept hnext =>
    obtain ⟨-, -, hstart⟩ := connection?_eq_some_iff.mp hmade
    have hover : session.time < world.cancelAt := Nat.lt_of_le_of_lt (Nat.le_add_right ..) hnext
    have hended := (cutShort_session settings hstart).ended_lt (hsession ▸ hover)
    have hran : Ran settings world.cancelAt connection start session :=
      hsession ▸ ran ..
    have hentries : ∀ entry ∈ session.entries (s.made + 1), entry.time < world.cancelAt := by
      refine time_lt_of_mem_ofTimed fun entry hentry => ?_
      obtain hentry | hentry := List.mem_append.mp hentry
      · exact hran.time_lt hstart hended hover entry hentry
      · obtain rfl := List.mem_singleton.mp hentry
        exact hover
    rw [hwrites, hmade]
    refine ⟨?_, hended⟩
    intro entry hentry
    simp only [List.mem_append] at hentry
    obtain (hentry | hentry) | hentry := hentry
    · exact hopening entry hentry
    · exact hentries entry hentry
    · exact time_lt_of_mem_ofTimed (by simpa using hover) entry hentry

/-- After its last attempt the supervisor stops as soon as cancellation fires, but for
    messages that have to be finished. -/
theorem cutShort {stop : Nat} (htaken : Taken settings world s entries (.over stop))
    (hscript : s.OnScript world) : CutShort world.cancelAt stop (entries.writes settings world) := by
  have hwrites := htaken.writes_eq
  cases htaken with
  | unanswered hlate =>
    rw [hwrites, connection?_eq_none_of_late hlate]
    exact .of_done (by simp) (Nat.max_le.mpr ⟨Nat.le_of_lt hscript.inTime, Nat.le_refl _⟩)
  | refusedLast hanswer hanswered hlate =>
    rw [hwrites, connection?_eq_none_of_refused hanswer]
    exact .of_done (by simp) (Nat.max_le.mpr ⟨Nat.le_of_lt hanswered, Nat.le_refl _⟩)
  | cancelled hmade hsession hcancelled =>
    obtain ⟨-, -, hstart⟩ := connection?_eq_some_iff.mp hmade
    rw [hwrites, hmade, ← hsession]
    exact cutShort_session settings hstart
  | ended hmade hsession hkept hlate =>
    obtain ⟨-, -, hstart⟩ := connection?_eq_some_iff.mp hmade
    rw [hwrites, hmade, ← hsession, Nat.max_comm]
    exact (cutShort_session settings hstart).later (Nat.le_refl _)

end Taken

/-- How a supervisor ends that has made some attempts before: it stops after cancellation
    and only finishes what is under way, or it makes more attempts than the script has
    answers, without any delay between them. -/
inductive Halts (settings : Settings) (world : World) (made : Nat) : Chronicle → Prop where
  | stopped {course : Chronicle} {number stop : Nat} (hcancelled : world.cancelAt ≤ stop)
    (hcut : CutShort world.cancelAt stop (course.writes settings world)) :
    Halts settings world made (course ++ [⟨stop, number, .status .stopped⟩])
  | unfinished {chronicle : Chronicle} (hdelay : settings.retryDelay 0 = 0)
    (hpast : world.attempts.length < made + chronicle.tries.length)
    (htimes : ∀ entry ∈ chronicle, entry.time < world.cancelAt) : Halts settings world made chronicle

theorem Halts.after {settings : Settings} {world : World} {s next : Standing}
    {entries later : Chronicle} (hlater : Halts settings world next.made later)
    (htaken : Taken settings world s entries (.again next)) (hscript : s.OnScript world) :
    Halts settings world s.made (entries ++ later) := by
  obtain ⟨hbefore, hended⟩ := htaken.before_cancellation hscript
  cases hlater with
  | stopped hcancelled hcut =>
    rw [← List.append_assoc]
    refine .stopped hcancelled ?_
    rw [writes_append]
    exact hcut.append hended
  | unfinished hdelay hpast htimes =>
    refine .unfinished hdelay ?_ (List.forall_mem_append.mpr ⟨hbefore, htimes⟩)
    rw [htaken.made_eq] at hpast
    rw [tries_append, htaken.tries_eq, List.length_append, List.length_singleton]
    omega

theorem halts_supervise (settings : Settings) (world : World) :
    Halts settings world 0 (supervise settings world) := by
  rw [supervise_eq]
  split
  · rename_i hcancelAt
    have hidle : Halts settings world 0 ([] ++ [⟨0, 0, .status .stopped⟩]) :=
      .stopped (Nat.le_of_eq hcancelAt) (.of_done (List.forall_mem_nil _) (Nat.zero_le _))
    exact hidle
  · rename_i hcancelAt
    refine followed_induction (motive := fun _ s => Halts settings world s.made) ?_ ?_ ?_ _
      (followed_outset settings (Nat.pos_of_ne_zero hcancelAt))
    · intro s hfollowed
      obtain ⟨hpast, hdelay⟩ := hfollowed.unfollowed
      exact .unfinished hdelay hpast (List.forall_mem_nil _)
    · intro fuel s entries stop hfollowed htaken
      exact .stopped htaken.cancelAt_le (htaken.cutShort hfollowed.onScript)
    · intro fuel s entries next later hfollowed htaken hlater
      exact hlater.after htaken hfollowed.onScript

/-- When a frame comes. -/
def frameTime? : Nat × Happening → Option Nat
  | (time, .frame _) => some time
  | _ => none

theorem sessional_frameTime? : Sessional frameTime? :=
  ⟨fun _ _ => rfl, fun _ => rfl, fun _ => rfl⟩

theorem frame_time_lt_of_mem_supervise {settings : Settings} {world : World} {entry : Entry}
    (hentry : entry ∈ supervise settings world) {raw : List UInt8}
    (hframe : entry.happening = .frame raw) : entry.time < world.cancelAt := by
  have htime : entry.time ∈ (supervise settings world).pick frameTime? :=
    List.mem_filterMap.mpr ⟨entry, hentry, by rw [hframe]; rfl⟩
  rw [pick_supervise settings world sessional_frameTime?] at htime
  obtain ⟨⟨connection, start⟩, -, hsession⟩ := List.mem_flatMap.mp htime
  obtain ⟨⟨time, happening⟩, hmem, heq⟩ := List.mem_filterMap.mp hsession
  cases happening with
  | frame raw =>
    obtain rfl : time = entry.time := Option.some.inj heq
    exact Ran.frame_time_lt (ran ..) hmem
  | _ => cases heq

theorem begun_lt_of_mem_tries {settings : Settings} {world : World} {number begun : Nat}
    (htry : (number, begun) ∈ (supervise settings world).tries) : begun < world.cancelAt := by
  rw [supervise_eq] at htry
  split at htry
  · cases htry
  · rename_i hcancelAt
    refine attemptsFrom_induction (motive := fun _ _ chronicle =>
      ∀ attempt ∈ chronicle.tries, attempt.2 < world.cancelAt) ?_ ?_ ?_ _
      (onScript_outset settings (Nat.pos_of_ne_zero hcancelAt)) (number, begun) htry
    · intro s _ attempt hattempt
      cases hattempt
    · intro fuel s entries stop hscript htaken attempt hattempt
      rw [tries_append, htaken.tries_eq] at hattempt
      obtain rfl := List.mem_singleton.mp hattempt
      exact hscript.inTime
    · intro fuel s entries next later hscript htaken hlater attempt hattempt
      rw [tries_append, htaken.tries_eq, List.singleton_append] at hattempt
      obtain rfl | hattempt := List.mem_cons.mp hattempt
      · exact hscript.inTime
      · exact hlater attempt hattempt

/-- The supervisor stops as soon as cancellation fires, but for messages that have to be
    finished. Only without any delay between refused attempts it may never come as far. -/
theorem stopped_or_unfinished (settings : Settings) (world : World) :
    (∃ course number stop done late,
      supervise settings world = course ++ [⟨stop, number, .status .stopped⟩] ∧
        (supervise settings world).writes settings world = done ++ late ∧
        (∀ write ∈ done, write.ended < world.cancelAt) ∧ Underway world.cancelAt late stop) ∨
      ((freshBackoff settings).current.toMillis = 0 ∧
        world.attempts.length < (supervise settings world).tries.length ∧
        ∀ entry ∈ supervise settings world, entry.time < world.cancelAt) := by
  have hhalts := halts_supervise settings world
  generalize supervise settings world = chronicle at hhalts ⊢
  cases hhalts with
  | @stopped course number stop hcancelled hcut =>
    obtain ⟨done, late, hwrites, hdone, hunderway, -⟩ := hcut
    rw [Nat.max_eq_left hcancelled] at hunderway
    have hstop : Chronicle.writes settings world [⟨stop, number, .status .stopped⟩] = [] := rfl
    refine .inl ⟨course, number, stop, done, late, rfl, ?_, hdone, hunderway⟩
    rw [writes_append, hstop, List.append_nil, hwrites]
  | unfinished hdelay hpast htimes =>
    rw [Nat.zero_add] at hpast
    exact .inr ⟨(toMillis_freshBackoff settings 0).trans hdelay, hpast, htimes⟩

/-- What reaches the node over all sessions are the messages that are written and flushed. -/
theorem pick_sent?_supervise (settings : Settings) (world : World) :
    (supervise settings world).pick sent? =
      (((supervise settings world).writes settings world).filterMap Write.sent?).map
        fun message => (message.flushed, message.bytes) := by
  have hkind : Sessional sent? := ⟨fun _ _ => rfl, fun _ => rfl, fun _ => rfl⟩
  rw [pick_supervise settings world hkind, Chronicle.writes, List.filterMap_flatMap, List.map_flatMap]
  exact List.flatMap_congr fun made _ => Ran.filterMap_sent? (ran ..)

/-- Whatever cancellation interrupts, the supervisor stops at once, or when a message
    under way is finished. All other messages are done before, and so are all attempts
    and all frames. -/
theorem supervise_stops_promptly (settings : Settings) (world : World) :
    let chronicle := supervise settings world
    let writes := chronicle.writes settings world
    ((∃ course number stop done late, chronicle = course ++ [⟨stop, number, .status .stopped⟩] ∧
        writes = done ++ late ∧ (∀ write ∈ done, write.ended < world.cancelAt) ∧
        Underway world.cancelAt late stop) ∨
      ((freshBackoff settings).current.toMillis = 0 ∧
        world.attempts.length < chronicle.tries.length ∧
        ∀ entry ∈ chronicle, entry.time < world.cancelAt)) ∧
    (∀ number begun, (number, begun) ∈ chronicle.tries → begun < world.cancelAt) ∧
    (∀ entry ∈ chronicle, ∀ raw, entry.happening = .frame raw → entry.time < world.cancelAt) ∧
    chronicle.pick sent? =
      (writes.filterMap Write.sent?).map fun message => (message.flushed, message.bytes) :=
  ⟨stopped_or_unfinished settings world, fun _ _ => begun_lt_of_mem_tries,
    fun _ hentry _ => frame_time_lt_of_mem_supervise hentry, pick_sent?_supervise settings world⟩

end PacketMonitor.Session

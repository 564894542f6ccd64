import Mathlib.Data.List.Basic
import PacketMonitor.Proofs.Session.Writes

namespace PacketMonitor.Session

/-- The attempts to connect, each by its number and the time at which it begins. -/
def Chronicle.tries (chronicle : Chronicle) : List (Nat × Nat) :=
  chronicle.filterMap fun entry =>
    match entry.happening with
    | .attempt => some (entry.connection, entry.time)
    | _ => none

/-- The answer to an attempt by its number, which is one for the first. Beyond the
    script every attempt is refused at once. -/
def World.answer (world : World) (number : Nat) : Attempt :=
  world.attempts[number - 1]?.getD { result := .error "" }

/-- The connection that an attempt leads to and when it is made, unless cancellation
    comes first. -/
def World.connection? (world : World) (number begun : Nat) : Option (Connection × Nat) :=
  let answered := begun + (world.answer number).delay
  match (world.answer number).result with
  | .error _ => none
  | .ok connection => if answered < world.cancelAt then some (connection, answered) else none

/-- The connections that are made, in order, each with its time. -/
def Chronicle.connections (chronicle : Chronicle) (world : World) : List (Connection × Nat) :=
  chronicle.tries.filterMap fun (number, begun) => world.connection? number begun

@[simp] theorem tries_append (early late : Chronicle) :
    Chronicle.tries (early ++ late) = early.tries ++ late.tries := by
  simp [Chronicle.tries]

theorem connections_append (early late : Chronicle) (world : World) :
    Chronicle.connections (early ++ late) world =
      early.connections world ++ late.connections world := by
  simp [Chronicle.connections]

theorem tries_ofTimed {number : Nat} {happenings : List (Nat × Happening)}
    (hnone : ∀ time, (time, .attempt) ∉ happenings) :
    (Chronicle.ofTimed number happenings).tries = [] := by
  rw [Chronicle.tries, Chronicle.ofTimed, List.filterMap_map, List.filterMap_eq_nil_iff]
  rintro ⟨time, happening⟩ hmem
  cases happening with
  | attempt => exact absurd hmem (hnone time)
  | _ => rfl

/-- How long a wait of some duration takes, in milliseconds. -/
def Duration.wait (d : Duration) : Nat := min d.toMillis longestWait

theorem pause_eq (cancelAt now : Nat) (d : Duration) :
    pause cancelAt now d.toMillis =
      if cancelAt ≤ now + d.wait then (max now cancelAt, false) else (now + d.wait, true) := rfl

namespace Standing

/-- Where the script stands before an attempt that begins before cancellation. -/
structure OnScript (world : World) (s : Standing) : Prop where
  attempts_eq : s.attempts = world.attempts.drop s.made
  inTime : s.now < world.cancelAt

/-- The entries with which an attempt begins. -/
def opening (s : Standing) : Chronicle :=
  Chronicle.ofTimed (s.made + 1)
    [(s.now, .status (.connecting (oneMore s.inCycle))), (s.now, .attempt)]

/-- When the answer to an attempt comes. -/
def answered (world : World) (s : Standing) : Nat :=
  s.now + (world.answer (s.made + 1)).delay

theorem tries_opening (s : Standing) : s.opening.tries = [(s.made + 1, s.now)] := rfl

end Standing

/-- All that is told of a session on a connection. -/
def SessionOutcome.entries (session : SessionOutcome) (number : Nat) : Chronicle :=
  Chronicle.ofTimed number (session.happenings ++ [(session.time, .closed)])

/-- The session on a connection in a world. -/
def World.session (settings : Settings) (world : World) (connection : Connection) (start : Nat) :
    SessionOutcome :=
  runSession settings world.cancelAt connection start

theorem ran_session (settings : Settings) (world : World) (connection : Connection) (start : Nat) :
    Ran settings world.cancelAt connection start (world.session settings connection start) := ran ..

/-- No attempt to connect is made during a session. -/
theorem attempt_not_mem_session (settings : Settings) (world : World) (connection : Connection)
    (start time : Nat) :
    (time, .attempt) ∉ (world.session settings connection start).happenings := by
  intro hmem
  obtain heq | ⟨write, -, heq⟩ | ⟨-, -, _, occurrence, -, heq⟩ :=
    Ran.cases_of_mem (ran ..) hmem
  · cases heq
  · cases heq
  · have hother := congrArg Prod.snd heq
    cases occurrence with
    | told signal => cases signal <;> cases hother
    | consumed segment => cases hother
    | ended => cases hother

/-- All that an attempt can come to: its entries, and what is next. -/
inductive Taken (settings : Settings) (world : World) (s : Standing) : Chronicle → Next → Prop where
  | unanswered (hlate : world.cancelAt ≤ s.answered world) :
    Taken settings world s s.opening (.over (max s.now world.cancelAt))
  | refused {message : String} (hanswer : (world.answer (s.made + 1)).result = .error message)
    (hnext : s.answered world + s.backoff.current.wait < world.cancelAt) :
    Taken settings world s s.opening
      (.again ⟨s.attempts.tail, s.answered world + s.backoff.current.wait, s.made + 1,
        oneMore s.inCycle, s.backoff.next.2⟩)
  | refusedLast {message : String} (hanswer : (world.answer (s.made + 1)).result = .error message)
    (hanswered : s.answered world < world.cancelAt)
    (hlate : world.cancelAt ≤ s.answered world + s.backoff.current.wait) :
    Taken settings world s s.opening (.over (max (s.answered world) world.cancelAt))
  | cancelled {connection : Connection} {start : Nat} {session : SessionOutcome}
    (hmade : world.connection? (s.made + 1) s.now = some (connection, start))
    (hsession : world.session settings connection start = session)
    (hcancelled : session.error.isCancelled = true) :
    Taken settings world s (s.opening ++ session.entries (s.made + 1)) (.over session.time)
  | ended {connection : Connection} {start : Nat} {session : SessionOutcome}
    (hmade : world.connection? (s.made + 1) s.now = some (connection, start))
    (hsession : world.session settings connection start = session)
    (hkept : session.error.isCancelled = false)
    (hlate : world.cancelAt ≤ session.time + settings.retryPause.wait) :
    Taken settings world s
      (s.opening ++ session.entries (s.made + 1) ++
        Chronicle.ofTimed (s.made + 1) [(session.time, .status .disconnected)])
      (.over (max session.time world.cancelAt))
  | reconnected {connection : Connection} {start : Nat} {session : SessionOutcome}
    (hmade : world.connection? (s.made + 1) s.now = some (connection, start))
    (hsession : world.session settings connection start = session)
    (hkept : session.error.isCancelled = false)
    (hnext : session.time + settings.retryPause.wait < world.cancelAt) :
    Taken settings world s
      (s.opening ++ session.entries (s.made + 1) ++
        Chronicle.ofTimed (s.made + 1) [(session.time, .status .disconnected)])
      (.again ⟨s.attempts.tail, session.time + settings.retryPause.wait, s.made + 1, 0,
        freshBackoff settings⟩)

theorem connection?_eq_some_iff {world : World} {number begun start : Nat} {connection : Connection} :
    world.connection? number begun = some (connection, start) ↔
      (world.answer number).result = .ok connection ∧ start = begun + (world.answer number).delay ∧
        start < world.cancelAt := by
  unfold World.connection?
  cases (world.answer number).result with
  | error message => simp
  | ok made =>
    by_cases hanswered : begun + (world.answer number).delay < world.cancelAt
    · simp only [hanswered, if_true, Option.some.injEq, Prod.mk.injEq, Except.ok.injEq]
      constructor
      · rintro ⟨rfl, rfl⟩
        exact ⟨rfl, rfl, hanswered⟩
      · rintro ⟨rfl, rfl, -⟩
        exact ⟨rfl, rfl⟩
    · simp only [hanswered, if_false, reduceCtorEq, false_iff]
      rintro ⟨-, rfl, hstart⟩
      exact hanswered hstart

theorem connection?_eq_none_of_refused {world : World} {number begun : Nat} {message : String}
    (hanswer : (world.answer number).result = .error message) :
    world.connection? number begun = none := by
  rw [World.connection?, hanswer]

theorem connection?_eq_none_of_late {world : World} {s : Standing}
    (hlate : world.cancelAt ≤ s.answered world) : world.connection? (s.made + 1) s.now = none := by
  rw [Option.eq_none_iff_forall_not_mem]
  rintro ⟨connection, start⟩ hmade
  obtain ⟨-, rfl, hstart⟩ := connection?_eq_some_iff.mp hmade
  exact absurd hlate (Nat.not_le.mpr hstart)

theorem taken (settings : Settings) {world : World} {s : Standing} (hscript : s.OnScript world) :
    Taken settings world s (attemptOnce settings world s).1 (attemptOnce settings world s).2 := by
  have hanswer : s.attempts.headD { result := .error "" } = world.answer (s.made + 1) := by
    rw [hscript.attempts_eq, List.headD_eq_head?_getD, List.head?_drop, World.answer,
      Nat.add_sub_cancel]
  have hanswered : s.now + (world.answer (s.made + 1)).delay = s.answered world := rfl
  rw [attemptOnce, hanswer]
  simp only [hanswered, pause_eq, Backoff.next]
  by_cases hlate : world.cancelAt ≤ s.answered world
  · simp only [if_pos hlate]
    exact .unanswered hlate
  simp only [if_neg hlate]
  have hstart : s.answered world < world.cancelAt := Nat.lt_of_not_le hlate
  cases hresult : (world.answer (s.made + 1)).result with
  | error message =>
    by_cases hnext : world.cancelAt ≤ s.answered world + s.backoff.current.wait
    · simp only [if_pos hnext]
      exact .refusedLast hresult hstart hnext
    · simp only [if_neg hnext]
      exact .refused hresult (Nat.lt_of_not_le hnext)
  | ok connection =>
    have hmade : world.connection? (s.made + 1) s.now = some (connection, s.answered world) :=
      connection?_eq_some_iff.mpr ⟨hresult, rfl, hstart⟩
    dsimp only
    generalize hsession : runSession settings world.cancelAt connection
      (s.answered world) = session
    by_cases hcancelled : session.error.isCancelled = true
    · simp only [if_pos hcancelled]
      exact .cancelled hmade hsession hcancelled
    · simp only [if_neg hcancelled]
      have hkept : session.error.isCancelled = false := Bool.eq_false_iff.mpr hcancelled
      by_cases hnext : world.cancelAt ≤ session.time + settings.retryPause.wait
      · simp only [if_pos hnext]
        exact .ended hmade hsession hkept hnext
      · simp only [if_neg hnext]
        exact .reconnected hmade hsession hkept (Nat.lt_of_not_le hnext)

namespace Taken

variable {settings : Settings} {world : World} {s next : Standing} {entries : Chronicle} {after : Next}

theorem onScript (htaken : Taken settings world s entries (.again next))
    (hscript : s.OnScript world) : next.OnScript world := by
  have htail : s.attempts.tail = world.attempts.drop (s.made + 1) := by
    rw [hscript.attempts_eq, List.tail_drop]
  cases htaken with
  | refused hanswer hnext => exact ⟨htail, hnext⟩
  | reconnected hmade hsession hkept hnext => exact ⟨htail, hnext⟩

theorem made_eq (htaken : Taken settings world s entries (.again next)) :
    next.made = s.made + 1 := by
  cases htaken with
  | refused => rfl
  | reconnected => rfl

theorem tries_eq (htaken : Taken settings world s entries after) :
    entries.tries = [(s.made + 1, s.now)] := by
  have hentries : ∀ connection start,
      ((world.session settings connection start).entries (s.made + 1)).tries = [] := by
    intro connection start
    refine tries_ofTimed fun time => ?_
    rw [List.mem_append, not_or]
    exact ⟨attempt_not_mem_session settings world connection start time, by simp⟩
  have hstatus : ∀ time, (Chronicle.ofTimed (s.made + 1)
      [(time, .status .disconnected)]).tries = [] := fun _ => rfl
  cases htaken with
  | unanswered | refused | refusedLast => exact s.tries_opening
  | cancelled _ hsession _ =>
    rw [tries_append, s.tries_opening, ← hsession, hentries, List.append_nil]
  | ended _ hsession _ _ | reconnected _ hsession _ _ =>
    rw [tries_append, tries_append, s.tries_opening, ← hsession, hentries, hstatus,
      List.append_nil, List.append_nil]

theorem connections_eq (htaken : Taken settings world s entries after) :
    entries.connections world = (world.connection? (s.made + 1) s.now).toList := by
  rw [Chronicle.connections, htaken.tries_eq]
  cases hmade : world.connection? (s.made + 1) s.now with
  | none => exact List.filterMap_cons_none hmade
  | some made => exact List.filterMap_cons_some hmade

end Taken

/-- What holds of a supervisor that is not followed any more, of one that stops, and of
    one that goes on if it holds of what comes then, holds of all attempts. -/
theorem attemptsFrom_induction {settings : Settings} {world : World}
    {motive : Nat → Standing → Chronicle → Prop}
    (unfinished : ∀ s, s.OnScript world → motive 0 s [])
    (last : ∀ fuel s entries stop, s.OnScript world → Taken settings world s entries (.over stop) →
      motive (fuel + 1) s (entries ++ Chronicle.ofTimed s.made [(stop, .status .stopped)]))
    (again : ∀ fuel s entries next later, s.OnScript world →
      Taken settings world s entries (.again next) → motive fuel next later →
        motive (fuel + 1) s (entries ++ later))
    (fuel : Nat) {s : Standing} (hscript : s.OnScript world) :
    motive fuel s (attemptsFrom settings world fuel s) := by
  induction fuel generalizing s with
  | zero => exact unfinished s hscript
  | succ fuel ih =>
    have htaken := taken settings hscript
    rw [attemptsFrom]
    generalize attemptOnce settings world s = outcome at htaken ⊢
    obtain ⟨entries, next | stop⟩ := outcome
    · exact again fuel s entries next _ hscript htaken (ih (htaken.onScript hscript))
    · exact last fuel s entries stop hscript htaken

/-- Where the supervisor stands at the start. -/
def World.outset (settings : Settings) (world : World) : Standing :=
  ⟨world.attempts, 0, 0, 0, freshBackoff settings⟩

theorem onScript_outset (settings : Settings) {world : World} (hcancelAt : 0 < world.cancelAt) :
    (world.outset settings).OnScript world :=
  ⟨List.drop_zero.symm, hcancelAt⟩

theorem supervise_eq (settings : Settings) (world : World) :
    supervise settings world =
      if world.cancelAt = 0 then [⟨0, 0, .status .stopped⟩]
      else attemptsFrom settings world (world.attempts.length + world.cancelAt + 1)
        (world.outset settings) := rfl

/-- Attempts are numbered one by one. -/
theorem numbers_tries (settings : Settings) (world : World) :
    (supervise settings world).tries.map (·.1) =
      List.range' 1 (supervise settings world).tries.length := by
  rw [supervise_eq]
  split
  · rfl
  · rename_i hcancelAt
    refine attemptsFrom_induction (motive := fun _ s chronicle =>
      chronicle.tries.map (·.1) = List.range' (s.made + 1) chronicle.tries.length) ?_ ?_ ?_ _
      (onScript_outset settings (Nat.pos_of_ne_zero hcancelAt))
    · intro s _
      rfl
    · intro fuel s entries stop _ htaken
      rw [tries_append, htaken.tries_eq]
      rfl
    · intro fuel s entries next later _ htaken hlater
      rw [tries_append, htaken.tries_eq, List.singleton_append, List.map_cons, hlater,
        htaken.made_eq]
      rfl

/-- What the happenings of some kind contribute. -/
def Chronicle.pick {α : Type} (kind : Nat × Happening → Option α) (chronicle : Chronicle) : List α :=
  chronicle.filterMap fun entry => kind (entry.time, entry.happening)

section Pick

variable {α : Type} {kind : Nat × Happening → Option α}

theorem pick_append (early late : Chronicle) :
    Chronicle.pick kind (early ++ late) = early.pick kind ++ late.pick kind := by
  simp [Chronicle.pick]

theorem pick_ofTimed (number : Nat) (happenings : List (Nat × Happening)) :
    (Chronicle.ofTimed number happenings).pick kind = happenings.filterMap kind := by
  rw [Chronicle.pick, Chronicle.ofTimed, List.filterMap_map]
  rfl

/-- A kind of happenings that only sessions have. -/
structure Sessional (kind : Nat × Happening → Option α) : Prop where
  status : ∀ time status, kind (time, .status status) = none
  attempt : ∀ time, kind (time, .attempt) = none
  closed : ∀ time, kind (time, .closed) = none

namespace Sessional

theorem pick_status (hkind : Sessional kind) (number time : Nat) (status : Status) :
    (Chronicle.ofTimed number [(time, .status status)]).pick kind = [] := by
  rw [pick_ofTimed, List.filterMap_cons_none (hkind.status time status), List.filterMap_nil]

theorem pick_opening (hkind : Sessional kind) (s : Standing) : s.opening.pick kind = [] := by
  rw [Standing.opening, pick_ofTimed, List.filterMap_cons_none (hkind.status ..),
    List.filterMap_cons_none (hkind.attempt _), List.filterMap_nil]

theorem pick_entries (hkind : Sessional kind) (session : SessionOutcome) (number : Nat) :
    (session.entries number).pick kind = session.happenings.filterMap kind := by
  rw [SessionOutcome.entries, pick_ofTimed, List.filterMap_append,
    List.filterMap_cons_none (hkind.closed _), List.filterMap_nil, List.append_nil]

end Sessional

/-- What the happenings of some kind contribute during a session. -/
def World.pickSession (settings : Settings) (world : World) (kind : Nat × Happening → Option α)
    (made : Connection × Nat) : List α :=
  (world.session settings made.1 made.2).happenings.filterMap kind

theorem Taken.pick_eq {settings : Settings} {world : World} {s : Standing} {entries : Chronicle}
    {after : Next} (hkind : Sessional kind) (htaken : Taken settings world s entries after) :
    entries.pick kind = (entries.connections world).flatMap (world.pickSession settings kind) := by
  rw [htaken.connections_eq]
  cases htaken with
  | unanswered hlate =>
    rw [connection?_eq_none_of_late hlate, hkind.pick_opening]
    rfl
  | refused hanswer _ | refusedLast hanswer _ _ =>
    rw [connection?_eq_none_of_refused hanswer, hkind.pick_opening]
    rfl
  | cancelled hmade hsession _ =>
    rw [hmade, pick_append, hkind.pick_opening, ← hsession, hkind.pick_entries, Option.toList_some,
      List.flatMap_singleton]
    rfl
  | ended hmade hsession _ _ | reconnected hmade hsession _ _ =>
    rw [hmade, pick_append, pick_append, hkind.pick_opening, ← hsession, hkind.pick_entries,
      hkind.pick_status, List.append_nil, Option.toList_some, List.flatMap_singleton]
    rfl

/-- What only sessions have comes session by session, in the order of the connections. -/
theorem pick_supervise (settings : Settings) (world : World) (hkind : Sessional kind) :
    (supervise settings world).pick kind =
      ((supervise settings world).connections world).flatMap (world.pickSession settings kind) := by
  rw [supervise_eq]
  split
  · exact hkind.pick_status 0 0 .stopped
  · rename_i hcancelAt
    refine attemptsFrom_induction (motive := fun _ _ chronicle => chronicle.pick kind =
      (chronicle.connections world).flatMap (world.pickSession settings kind)) ?_ ?_ ?_ _
      (onScript_outset settings (Nat.pos_of_ne_zero hcancelAt))
    · intro s _
      rfl
    · intro fuel s entries stop _ htaken
      rw [pick_append, hkind.pick_status, List.append_nil, connections_append, htaken.pick_eq hkind]
      exact congrArg _ (List.append_nil _).symm
    · intro fuel s entries next later _ htaken hlater
      rw [pick_append, connections_append, List.flatMap_append, htaken.pick_eq hkind, hlater]

end Pick

end PacketMonitor.Session

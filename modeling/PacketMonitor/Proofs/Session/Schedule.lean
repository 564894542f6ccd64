import PacketMonitor.Proofs.Session.Attempts
import PacketMonitor.Proofs.Session.Backoff

namespace PacketMonitor.Session

theorem Interval.toNanos_eq (interval : Interval) :
    interval.toNanos = interval.toMillis * 1000000 := by
  have hwhole := interval.whole
  simp only [Duration.toNanos, Duration.toMillis]
  omega

/-- The delay after some more refused attempts in a row than one, in milliseconds: the
    first delay is doubled for each of them, up to the limit. -/
def Settings.retryDelay (settings : Settings) (count : Nat) : Nat :=
  min settings.maxBackoff.toMillis (settings.initialBackoff.toMillis * 2 ^ count)

/-- How many attempts in a row are refused, up to one of them. -/
def World.refusals (world : World) : Nat → Nat
  | 0 => 0
  | number + 1 =>
    match (world.answer (number + 1)).result with
    | .error _ => world.refusals number + 1
    | .ok _ => 0

/-- When a session is over that nobody cancels: when a message of the handshake is
    refused, when the archive cannot be opened after the handshake, or when both the
    stream and the last message of the keepalive have come to an end. -/
inductive SessionOver (settings : Settings) (world : World) (connection : Connection)
    (start : Nat) : Nat → Prop where
  | refused {before : List Write} {failing : Write}
    (hwrites : connection.loginWrites settings world.cancelAt start = before ++ [failing])
    (hfailing : failing.isFlushed = false) :
    SessionOver settings world connection start failing.ended
  | unarchived {message : String}
    (hlogin : (connection.login settings world.cancelAt start).error = none)
    (harchive : (settings.archive connection).unopened = some message) :
    SessionOver settings world connection start
      (connection.login settings world.cancelAt start).time
  | streamed (hlogin : (connection.login settings world.cancelAt start).error = none)
    (harchive : (settings.archive connection).unopened = none) :
    SessionOver settings world connection start
      (((connection.upkeepWrites settings world.cancelAt start).map (·.ended)).foldl max
        (connection.reading settings world.cancelAt start).time)

/-- From when on and for how long there is a pause before the attempt after one with some
    number. -/
inductive Pauses (settings : Settings) (world : World) (number begun : Nat) : Nat → Nat → Prop where
  | refused {message : String} {count : Nat}
    (hanswer : (world.answer number).result = .error message)
    (hcount : world.refusals number = count + 1) :
    Pauses settings world number begun (begun + (world.answer number).delay)
      (settings.retryDelay count)
  | reconnected {connection : Connection} {start finish : Nat}
    (hmade : world.connection? number begun = some (connection, start))
    (hfinish : SessionOver settings world connection start finish) :
    Pauses settings world number begun finish settings.retryPause.toMillis

/-- When a pause is over that begins at some time. -/
def resumed (ended pause : Nat) : Nat :=
  ended + min pause longestWait

section Delays

variable {settings : Settings}

theorem toMillis_freshBackoff (settings : Settings) (count : Nat) :
    ((freshBackoff settings).advanced count).current.toMillis = settings.retryDelay count := by
  rw [Duration.toMillis_eq, freshBackoff, Backoff.toNanos_advanced_start, Interval.toNanos_eq,
    Interval.toNanos_eq, Nat.mul_right_comm, Nat.mul_min_mul_right,
    Nat.mul_div_cancel _ (by decide), Settings.retryDelay]

theorem add_wait_advanced (settings : Settings) (count ended : Nat) :
    ended + ((freshBackoff settings).advanced count).current.wait =
      resumed ended (settings.retryDelay count) := by
  rw [Duration.wait, toMillis_freshBackoff, resumed]

/-- If the first delay takes some time, all delays do. -/
theorem retryDelay_pos (hdelay : 0 < settings.retryDelay 0) (count : Nat) :
    0 < settings.retryDelay count := by
  have hdoubled := Nat.le_mul_of_pos_right settings.initialBackoff.toMillis
    (Nat.one_le_two_pow (n := count))
  rw [Settings.retryDelay] at hdelay ⊢
  omega

theorem le_resumed (ended pause : Nat) : ended ≤ resumed ended pause :=
  Nat.le_add_right ..

theorem lt_resumed {pause : Nat} (hpause : 0 < pause) (ended : Nat) : ended < resumed ended pause := by
  have hlongest : 0 < longestWait := by decide
  rw [resumed]
  omega

/-- A pause is as long as it should be, unless both the pause and all of the run are
    longer than the longest wait. -/
theorem resumed_eq {ended pause cancelAt : Nat} (hnext : resumed ended pause < cancelAt)
    (hshort : cancelAt ≤ longestWait ∨ pause ≤ longestWait) : resumed ended pause = ended + pause := by
  rw [resumed] at hnext ⊢
  omega

end Delays

theorem answer_of_lt {world : World} {number : Nat} (hpast : world.attempts.length < number) :
    world.answer number = { result := .error "" } := by
  rw [World.answer, List.getElem?_eq_none (by omega)]
  rfl

theorem refusals_of_error {world : World} {made : Nat} {message : String}
    (hanswer : (world.answer (made + 1)).result = .error message) :
    world.refusals (made + 1) = world.refusals made + 1 := by
  rw [World.refusals, hanswer]

theorem refusals_of_ok {world : World} {made : Nat} {connection : Connection}
    (hanswer : (world.answer (made + 1)).result = .ok connection) :
    world.refusals (made + 1) = 0 := by
  rw [World.refusals, hanswer]

section Over

/-- How going through some actions comes to its end, and what is written meanwhile. -/
inductive Performed : HandshakeOutcome → Prop where
  | unrefused {outcome : HandshakeOutcome}
    (herror : outcome.error = none ∨ outcome.error = some .cancelled)
    (hwrites : ∀ write ∈ outcome.writes, write.isFlushed = true) : Performed outcome
  | refused {outcome : HandshakeOutcome} {before : List Write} {failing : Write} {step : Step}
    {message : String} (herror : outcome.error = some (.handshake step message))
    (hwrites : outcome.writes = before ++ [failing])
    (hbefore : ∀ write ∈ before, write.isFlushed = true) (hfailing : failing.isFlushed = false)
    (htime : outcome.time = failing.ended) : Performed outcome

theorem Performed.cons {outcome : HandshakeOutcome} (hperformed : Performed outcome) {write : Write}
    (hflushed : write.isFlushed = true) :
    Performed { outcome with writes := write :: outcome.writes } := by
  cases hperformed with
  | unrefused herror hwrites => exact .unrefused herror (List.forall_mem_cons.mpr ⟨hflushed, hwrites⟩)
  | refused herror hwrites hbefore hfailing htime =>
    exact .refused herror (congrArg (write :: ·) hwrites)
      (List.forall_mem_cons.mpr ⟨hflushed, hbefore⟩) hfailing htime

theorem Performs.performed {cancelAt now : Nat} {actions : List Action} {outcome : HandshakeOutcome}
    (hperforms : Performs cancelAt now actions outcome) : Performed outcome := by
  induction hperforms with
  | done => exact .unrefused (.inl rfl) (List.forall_mem_nil _)
  | cancelled => exact .unrefused (.inr rfl) (List.forall_mem_nil _)
  | paused _ _ ih => exact ih
  | refused =>
    have hfailed : ∀ failing : Write, [failing] = [] ++ [failing] := fun _ => rfl
    exact .refused rfl (hfailed _) (List.forall_mem_nil _) rfl rfl
  | flushed _ _ ih => exact ih.cons rfl

/-- The keepalive does not outlast both the time at which it is told to stop and its
    last message. -/
theorem Keeps.max_time {stopAt now : Nat} {outcome : KeepaliveOutcome}
    (hkeeps : Keeps stopAt now outcome) (hnow : now ≤ stopAt) :
    max stopAt outcome.time = (outcome.writes.map (·.ended)).foldl max stopAt := by
  induction hkeeps with
  | stopped => exact Nat.max_eq_left (Nat.max_le.mpr ⟨hnow, Nat.le_refl _⟩)
  | refused => rfl
  | @flushed now begun ended outcome _ _ _ hlater ih =>
    rw [List.map_cons, List.foldl_cons]
    by_cases hover : ended ≤ stopAt
    · rw [Nat.max_eq_left hover]
      exact ih hover
    · -- The message is flushed past the stop, so that no other one follows.
      rw [hlater.eq_of_le (Nat.le_of_lt (Nat.lt_of_not_le hover))]
      rfl

theorem max_upkeep {settings : Settings} {cancelAt : Nat} {connection : Connection} {start : Nat} :
    max (connection.reading settings cancelAt start).time
        (connection.upkeep settings cancelAt start).time =
      ((connection.upkeepWrites settings cancelAt start).map (·.ended)).foldl max
        (connection.reading settings cancelAt start).time :=
  (keeps_upkeep ..).max_time (login_time_le_reading_time ..)

namespace Ran

variable {settings : Settings} {world : World} {connection : Connection} {start : Nat}
  {session : SessionOutcome}

/-- A session that nobody cancels is over when it has to be. -/
theorem sessionOver (hran : Ran settings world.cancelAt connection start session)
    (hkept : session.error.isCancelled = false) :
    SessionOver settings world connection start session.time := by
  cases hran with
  | @refused error hlogin =>
    have hperformed := (performs_login settings world.cancelAt connection start).performed
    cases hperformed with
    | unrefused herror =>
      obtain herror | herror := herror
      · cases hlogin.symm.trans herror
      · cases hlogin.symm.trans herror
        cases hkept
    | refused _ hwrites _ hfailing htime =>
      simp only [htime]
      exact .refused hwrites hfailing
  | unarchived hlogin harchive => exact .unarchived hlogin harchive
  | streamed hlogin harchive =>
    simp only [max_upkeep]
    exact .streamed hlogin harchive

theorem time_eq_of_sessionOver
    (hran : Ran settings world.cancelAt connection start session) {finish : Nat}
    (hfinish : SessionOver settings world connection start finish) : session.time = finish := by
  cases hfinish with
  | @refused before failing hwrites hfailing =>
    have hperformed := (performs_login settings world.cancelAt connection start).performed
    cases hperformed with
    | unrefused _ hflushed =>
      have hfailed : failing ∈ connection.loginWrites settings world.cancelAt start :=
        hwrites ▸ List.mem_append_right _ (List.mem_singleton_self _)
      cases hfailing.symm.trans (hflushed failing hfailed)
    | refused herror hwritten _ _ htime =>
      obtain ⟨-, rfl⟩ := List.append_singleton_inj.mp (hwritten.symm.trans hwrites)
      cases hran with
      | refused => exact htime
      | unarchived hlogin | streamed hlogin => cases herror.symm.trans hlogin
  | unarchived hlogin harchive =>
    cases hran with
    | refused herror => cases herror.symm.trans hlogin
    | unarchived => rfl
    | streamed _ hnone => cases harchive.symm.trans hnone
  | streamed hlogin harchive =>
    cases hran with
    | refused herror => cases herror.symm.trans hlogin
    | unarchived _ hsome => cases harchive.symm.trans hsome
    | streamed => exact max_upkeep

end Ran

/-- There is one pause at most after an attempt. -/
theorem Pauses.unique {settings : Settings} {world : World}
    {number begun ended pause ended' pause' : Nat}
    (hpauses : Pauses settings world number begun ended pause)
    (hpauses' : Pauses settings world number begun ended' pause') :
    ended = ended' ∧ pause = pause' := by
  cases hpauses with
  | refused hanswer hcount =>
    cases hpauses' with
    | refused _ hcount' =>
      cases hcount.symm.trans hcount'
      exact ⟨rfl, rfl⟩
    | reconnected hmade => cases (connection?_eq_none_of_refused hanswer).symm.trans hmade
  | reconnected hmade hfinish =>
    cases hpauses' with
    | refused hanswer => cases (connection?_eq_none_of_refused hanswer).symm.trans hmade
    | reconnected hmade' hfinish' =>
      cases hmade.symm.trans hmade'
      exact ⟨((ran ..).time_eq_of_sessionOver hfinish).symm.trans
        ((ran ..).time_eq_of_sessionOver hfinish'), rfl⟩

end Over

/-- Where the supervisor stands that is followed for some more attempts. The delays to use
    are those of a new cycle, except those after the refused attempts since then. -/
structure Standing.Followed (settings : Settings) (world : World) (fuel : Nat) (s : Standing) :
    Prop where
  onScript : s.OnScript world
  spaced : s.backoff = (freshBackoff settings).advanced (world.refusals s.made)
  made_add : s.made + fuel = world.attempts.length + world.cancelAt + 1
  enough : 0 < settings.retryDelay 0 →
    (world.attempts.length - s.made) + (world.cancelAt - s.now) < fuel

theorem followed_outset (settings : Settings) {world : World} (hcancelAt : 0 < world.cancelAt) :
    (world.outset settings).Followed settings world
      (world.attempts.length + world.cancelAt + 1) where
  onScript := onScript_outset settings hcancelAt
  spaced := rfl
  made_add := Nat.zero_add _
  enough _ := Nat.lt_succ_self _

namespace Taken

variable {settings : Settings} {world : World} {s next : Standing} {entries : Chronicle} {fuel : Nat}

theorem cancelAt_le {stop : Nat} (htaken : Taken settings world s entries (.over stop)) :
    world.cancelAt ≤ stop := by
  cases htaken with
  | unanswered | refusedLast | ended => exact Nat.le_max_right ..
  | cancelled _ hsession hcancelled =>
    subst hsession
    exact (ran ..).cancelAt_le_time hcancelled

/-- The next attempt begins when the pause after the one before is over. -/
theorem pauses (htaken : Taken settings world s entries (.again next))
    (hfollowed : s.Followed settings world fuel) :
    ∃ ended pause, Pauses settings world (s.made + 1) s.now ended pause ∧
      next.now = resumed ended pause ∧ next.now < world.cancelAt := by
  cases htaken with
  | refused hanswer hnext =>
    refine ⟨_, _, .refused hanswer (refusals_of_error hanswer), ?_, hnext⟩
    rw [← add_wait_advanced, hfollowed.spaced]
    rfl
  | reconnected hmade hsession hkept hnext =>
    subst hsession
    exact ⟨_, _, .reconnected hmade ((ran ..).sessionOver hkept), rfl, hnext⟩

/-- Where there is no other attempt, no pause is over before cancellation. -/
theorem cancelAt_le_resumed {stop ended pause : Nat}
    (htaken : Taken settings world s entries (.over stop))
    (hfollowed : s.Followed settings world fuel)
    (hpauses : Pauses settings world (s.made + 1) s.now ended pause) :
    world.cancelAt ≤ resumed ended pause := by
  cases hpauses with
  | @refused _ count hanswer hcount =>
    cases htaken with
    | unanswered hlate => exact Nat.le_trans hlate (le_resumed ..)
    | refusedLast _ _ hlate =>
      obtain rfl : world.refusals s.made = count :=
        Nat.succ.inj ((refusals_of_error hanswer).symm.trans hcount)
      rwa [hfollowed.spaced, add_wait_advanced] at hlate
    | cancelled hmade _ _ | ended hmade _ _ _ =>
      cases (connection?_eq_none_of_refused hanswer).symm.trans hmade
  | reconnected hmade hfinish =>
    cases htaken with
    | unanswered hlate => cases (connection?_eq_none_of_late hlate).symm.trans hmade
    | refusedLast hanswer _ _ => cases (connection?_eq_none_of_refused hanswer).symm.trans hmade
    | cancelled hmade' hsession hcancelled =>
      cases hmade.symm.trans hmade'
      subst hsession
      rw [← (ran ..).time_eq_of_sessionOver hfinish]
      exact Nat.le_trans ((ran ..).cancelAt_le_time hcancelled) (le_resumed ..)
    | ended hmade' hsession _ hlate =>
      cases hmade.symm.trans hmade'
      subst hsession
      rwa [← (ran ..).time_eq_of_sessionOver hfinish]

theorem now_le_now (htaken : Taken settings world s entries (.again next)) : s.now ≤ next.now := by
  cases htaken with
  | refused => exact Nat.le_trans (Nat.le_add_right ..) (Nat.le_add_right ..)
  | @reconnected connection start _ hmade hsession =>
    subst hsession
    obtain ⟨-, hstart, -⟩ := connection?_eq_some_iff.mp hmade
    have hover := (ran_session settings world connection start).start_le_time
    simp only
    omega

/-- Each attempt uses up an answer of the script or takes some time, if there are delays
    at all. -/
theorem decreases (htaken : Taken settings world s entries (.again next))
    (hfollowed : s.Followed settings world fuel) (hdelay : 0 < settings.retryDelay 0) :
    (world.attempts.length - next.made) + (world.cancelAt - next.now) <
      (world.attempts.length - s.made) + (world.cancelAt - s.now) := by
  have hlater := htaken.now_le_now
  rw [htaken.made_eq]
  by_cases hscripted : s.made < world.attempts.length
  · omega
  · -- Without answers in the script only the delay makes the clock move on.
    have hanswer : world.answer (s.made + 1) = { result := .error "" } := answer_of_lt (by omega)
    obtain ⟨ended, pause, hpauses, hnext, hinTime⟩ := htaken.pauses hfollowed
    cases hpauses with
    | refused =>
      have hmoved : _ < next.now := hnext ▸ lt_resumed (retryDelay_pos hdelay _) _
      omega
    | reconnected hmade =>
      rw [connection?_eq_none_of_refused (congrArg Attempt.result hanswer)] at hmade
      cases hmade

theorem followed (htaken : Taken settings world s entries (.again next))
    (hfollowed : s.Followed settings world (fuel + 1)) : next.Followed settings world fuel where
  onScript := htaken.onScript hfollowed.onScript
  spaced := by
    have hspaced := hfollowed.spaced
    cases htaken with
    | refused hanswer => rw [refusals_of_error hanswer, hspaced]; rfl
    | reconnected hmade =>
      obtain ⟨hanswer, -, -⟩ := connection?_eq_some_iff.mp hmade
      rw [refusals_of_ok hanswer]
      rfl
  made_add := by
    have hadd := hfollowed.made_add
    rw [htaken.made_eq]
    omega
  enough hdelay := by
    have hless := htaken.decreases hfollowed hdelay
    have henough := hfollowed.enough hdelay
    omega

end Taken

/-- A supervisor that is not followed any more has made more attempts than the script has
    answers, without any delay between them. -/
theorem Standing.Followed.unfollowed {settings : Settings} {world : World} {s : Standing}
    (hfollowed : s.Followed settings world 0) :
    world.attempts.length < s.made ∧ settings.retryDelay 0 = 0 := by
  have hadd := hfollowed.made_add
  refine ⟨by omega, ?_⟩
  by_contra hdelay
  exact Nat.not_lt_zero _ (hfollowed.enough (Nat.pos_of_ne_zero hdelay))

/-- Induction along the attempts that are followed. -/
theorem followed_induction {settings : Settings} {world : World}
    {motive : Nat → Standing → Chronicle → Prop}
    (unfinished : ∀ s, s.Followed settings world 0 → motive 0 s [])
    (last : ∀ fuel s entries stop, s.Followed settings world (fuel + 1) →
      Taken settings world s entries (.over stop) →
        motive (fuel + 1) s (entries ++ Chronicle.ofTimed s.made [(stop, .status .stopped)]))
    (again : ∀ fuel s entries next later, s.Followed settings world (fuel + 1) →
      Taken settings world s entries (.again next) → motive fuel next later →
        motive (fuel + 1) s (entries ++ later))
    (fuel : Nat) {s : Standing} (hfollowed : s.Followed settings world fuel) :
    motive fuel s (attemptsFrom settings world fuel s) := by
  refine attemptsFrom_induction (motive := fun fuel s chronicle =>
    s.Followed settings world fuel → motive fuel s chronicle) ?_ ?_ ?_ fuel hfollowed.onScript
    hfollowed
  · exact fun s _ => unfinished s
  · exact fun fuel s entries stop _ htaken hfollowed => last fuel s entries stop hfollowed htaken
  · intro fuel s entries next later _ htaken hlater hfollowed
    exact again fuel s entries next later hfollowed htaken (hlater (htaken.followed hfollowed))

/-- The attempts from one on: each begins when the pause after the one before is over, as
    long as that is before cancellation. -/
inductive Scheduled (settings : Settings) (world : World) : Nat → Nat → List (Nat × Nat) → Prop where
  | again {number begun ended pause : Nat} {later : List (Nat × Nat)}
    (hpauses : Pauses settings world number begun ended pause)
    (hnext : resumed ended pause < world.cancelAt)
    (hlater : Scheduled settings world (number + 1) (resumed ended pause) later) :
    Scheduled settings world number begun ((number, begun) :: later)
  | last {number begun : Nat}
    (hlast : ∀ ended pause, Pauses settings world number begun ended pause →
      world.cancelAt ≤ resumed ended pause) :
    Scheduled settings world number begun [(number, begun)]
  | unfollowed {number begun : Nat} (hpast : world.attempts.length + 1 < number)
    (hdelay : settings.retryDelay 0 = 0) : Scheduled settings world number begun []

theorem scheduled_supervise (settings : Settings) {world : World} (hcancelAt : 0 < world.cancelAt) :
    Scheduled settings world 1 0 (supervise settings world).tries := by
  rw [supervise_eq, if_neg (Nat.ne_of_gt hcancelAt)]
  refine followed_induction (motive := fun _ s chronicle =>
    Scheduled settings world (s.made + 1) s.now chronicle.tries) ?_ ?_ ?_ _
    (followed_outset settings hcancelAt)
  · intro s hfollowed
    obtain ⟨hpast, hdelay⟩ := hfollowed.unfollowed
    exact .unfollowed (Nat.succ_lt_succ hpast) hdelay
  · intro fuel s entries stop hfollowed htaken
    rw [tries_append, htaken.tries_eq]
    exact .last fun ended pause => htaken.cancelAt_le_resumed hfollowed
  · intro fuel s entries next later hfollowed htaken hlater
    obtain ⟨ended, pause, hpauses, hnext, hinTime⟩ := htaken.pauses hfollowed
    rw [htaken.made_eq, hnext] at hlater
    rw [tries_append, htaken.tries_eq]
    exact .again hpauses (hnext ▸ hinTime) hlater

end PacketMonitor.Session

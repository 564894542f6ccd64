import Mathlib.Data.List.Basic
import PacketMonitor.Proofs.Session.Schedule

namespace PacketMonitor.Session

open PacketMonitor.Stream

/-- The number that an attempt in a cycle is given. Beyond the largest one they all
    share it. -/
def attemptNumber (count : Nat) : UInt32 := UInt32.ofNat (min count 0xFFFFFFFF)

theorem oneMore_attemptNumber (count : Nat) :
    oneMore (attemptNumber count) = attemptNumber (count + 1) := by
  unfold oneMore attemptNumber
  by_cases hlast : 0xFFFFFFFF ≤ count
  · rw [Nat.min_eq_right hlast, Nat.min_eq_right (Nat.le_succ_of_le hlast)]
    rfl
  · have hcount : count < 0xFFFFFFFF := Nat.lt_of_not_le hlast
    rw [Nat.min_eq_left (Nat.le_of_lt hcount), Nat.min_eq_left hcount]
    have hother : UInt32.ofNat count ≠ 0xFFFFFFFF := by
      intro h
      have hvalue := congrArg UInt32.toNat h
      rw [UInt32.toNat_ofNat_of_lt' (by simp only [UInt32.size]; omega)] at hvalue
      exact absurd hvalue (Nat.ne_of_lt hcount)
    rw [if_neg hother]
    exact (UInt32.ofNat_add count 1).symm

/-- The statuses of a session. The stream is read if the handshake is completed and frames
    can be archived as far as they are to be, and then the phases come as it is read. -/
inductive Held (settings : Settings) (cancelAt : Nat) (connection : Connection) (start : Nat) :
    List (Nat × Status) → Prop where
  | unmonitored
    (hunread : (connection.login settings cancelAt start).error ≠ none ∨
      (settings.archive connection).unopened ≠ none) :
    Held settings cancelAt connection start [(start, .handshaking)]
  | monitored {phases : List (Nat × Phase)}
    (hlogin : (connection.login settings cancelAt start).error = none)
    (harchive : (settings.archive connection).unopened = none)
    (hphases : Phased (shifted start connection.source) cancelAt
      (connection.login settings cancelAt start).time
      (connection.reading settings cancelAt start).time phases) :
    Held settings cancelAt connection start
      ((start, .handshaking) :: phases.map fun (time, phase) => (time, .monitor phase))

/-- The attempts and the statuses from an attempt on, each with its time, if some attempts
    of its cycle were refused before. After a refused attempt the cycle goes on, and after a
    session a new one begins, as long as the pause is over before cancellation. Otherwise
    this is the last cycle, which cancellation cuts while an attempt is made or a session
    goes on, or during the pause after either, and it ends with the stop. -/
inductive Course (settings : Settings) (world : World) :
    Nat → Nat → Nat → List (Nat × Nat) → List (Nat × Status) → Prop where
  | refused {number begun count ended pause : Nat} {message : String} {tries : List (Nat × Nat)}
    {later : List (Nat × Status)} (hanswer : (world.answer number).result = .error message)
    (hpauses : Pauses settings world number begun ended pause)
    (hnext : resumed ended pause < world.cancelAt)
    (hlater : Course settings world (number + 1) (resumed ended pause) (count + 1) tries later) :
    Course settings world number begun count ((number, begun) :: tries)
      ((begun, .connecting (attemptNumber (count + 1))) :: later)
  | reconnected {number begun count start finish : Nat} {connection : Connection}
    {tries : List (Nat × Nat)} {held later : List (Nat × Status)}
    (hmade : world.connection? number begun = some (connection, start))
    (hheld : Held settings world.cancelAt connection start held)
    (hfinish : SessionOver settings world connection start finish)
    (hnext : resumed finish settings.retryPause.toMillis < world.cancelAt)
    (hlater : Course settings world (number + 1) (resumed finish settings.retryPause.toMillis) 0
      tries later) :
    Course settings world number begun count ((number, begun) :: tries)
      ((begun, .connecting (attemptNumber (count + 1))) :: (held ++ (finish, .disconnected) :: later))
  | unconnected {number begun count : Nat} (hnone : world.connection? number begun = none)
    (hlate : ∀ ended pause, Pauses settings world number begun ended pause →
      world.cancelAt ≤ resumed ended pause) :
    Course settings world number begun count [(number, begun)]
      [(begun, .connecting (attemptNumber (count + 1))), (world.cancelAt, .stopped)]
  | cancelled {number begun count start finish : Nat} {connection : Connection}
    {held : List (Nat × Status)}
    (hmade : world.connection? number begun = some (connection, start))
    (hheld : Held settings world.cancelAt connection start held)
    (hfinish : ∀ ended, SessionOver settings world connection start ended → world.cancelAt ≤ ended)
    (hlate : world.cancelAt ≤ finish) :
    Course settings world number begun count [(number, begun)]
      ((begun, .connecting (attemptNumber (count + 1))) :: (held ++ [(finish, .stopped)]))
  | disconnected {number begun count start finish : Nat} {connection : Connection}
    {held : List (Nat × Status)}
    (hmade : world.connection? number begun = some (connection, start))
    (hheld : Held settings world.cancelAt connection start held)
    (hfinish : SessionOver settings world connection start finish)
    (hlate : world.cancelAt ≤ resumed finish settings.retryPause.toMillis) :
    Course settings world number begun count [(number, begun)]
      ((begun, .connecting (attemptNumber (count + 1))) ::
        (held ++ [(finish, .disconnected), (max finish world.cancelAt, .stopped)]))
  | unfollowed {number begun count : Nat} (hpast : world.attempts.length + 1 < number)
    (hdelay : settings.retryDelay 0 = 0) : Course settings world number begun count [] []

section Stop

variable {settings : Settings} {world : World}

theorem Held.ne_stopped {cancelAt start : Nat} {connection : Connection}
    {held : List (Nat × Status)} (hheld : Held settings cancelAt connection start held) :
    ∀ entry ∈ held, entry.2 ≠ .stopped := by
  cases hheld with
  | unmonitored => exact List.forall_mem_singleton.mpr Status.noConfusion
  | monitored =>
    refine List.forall_mem_cons.mpr ⟨Status.noConfusion, fun entry hentry => ?_⟩
    obtain ⟨entered, -, rfl⟩ := List.mem_map.mp hentry
    exact Status.noConfusion

/-- How the statuses from an attempt on end: with the stop, which comes after cancellation
    and only once, or when more attempts are made than are followed. -/
inductive Stops (settings : Settings) (world : World) (number : Nat) :
    List (Nat × Nat) → List (Nat × Status) → Prop where
  | stopped {tries : List (Nat × Nat)} {course : List (Nat × Status)} {stop : Nat}
    (hcancelled : world.cancelAt ≤ stop) (hcourse : ∀ entry ∈ course, entry.2 ≠ .stopped) :
    Stops settings world number tries (course ++ [(stop, .stopped)])
  | unfollowed {tries : List (Nat × Nat)} {statuses : List (Nat × Status)}
    (hpast : world.attempts.length + 1 < number + tries.length)
    (hdelay : settings.retryDelay 0 = 0) (hstatuses : ∀ entry ∈ statuses, entry.2 ≠ .stopped) :
    Stops settings world number tries statuses

theorem Stops.after {number : Nat} {tries : List (Nat × Nat)} {early later : List (Nat × Status)}
    (hlater : Stops settings world (number + 1) tries later)
    (hearly : ∀ entry ∈ early, entry.2 ≠ .stopped) (attempt : Nat × Nat) :
    Stops settings world number (attempt :: tries) (early ++ later) := by
  cases hlater with
  | stopped hcancelled hcourse =>
    rw [← List.append_assoc]
    exact .stopped hcancelled (List.forall_mem_append.mpr ⟨hearly, hcourse⟩)
  | unfollowed hpast hdelay hstatuses =>
    refine .unfollowed ?_ hdelay (List.forall_mem_append.mpr ⟨hearly, hstatuses⟩)
    rw [List.length_cons]
    omega

theorem Course.stops {number begun count : Nat} {tries : List (Nat × Nat)}
    {statuses : List (Nat × Status)}
    (hcourse : Course settings world number begun count tries statuses) :
    Stops settings world number tries statuses := by
  have hconnecting : ∀ (begun count : Nat) (held : List (Nat × Status)),
      (∀ entry ∈ held, entry.2 ≠ .stopped) →
        ∀ entry ∈ (begun, Status.connecting (attemptNumber count)) :: held, entry.2 ≠ .stopped :=
    fun _ _ _ hheld => List.forall_mem_cons.mpr ⟨Status.noConfusion, hheld⟩
  have hdisconnected : ∀ (finish : Nat) (held : List (Nat × Status)),
      (∀ entry ∈ held, entry.2 ≠ .stopped) →
        ∀ entry ∈ held ++ [(finish, Status.disconnected)], entry.2 ≠ .stopped :=
    fun _ _ hheld => List.forall_mem_append.mpr
      ⟨hheld, List.forall_mem_singleton.mpr Status.noConfusion⟩
  induction hcourse with
  | @refused number begun count _ _ _ _ later _ _ _ _ ih =>
    exact ih.after (hconnecting begun (count + 1) [] (List.forall_mem_nil _)) (number, begun)
  | @reconnected number begun count _ finish _ _ held later _ hheld _ _ _ ih =>
    have hearly := hconnecting begun (count + 1) _ (hdisconnected finish held hheld.ne_stopped)
    simpa using ih.after hearly (number, begun)
  | @unconnected _ begun count =>
    exact (Stops.stopped (Nat.le_refl _) (hconnecting begun (count + 1) [] (List.forall_mem_nil _)) :)
  | cancelled _ hheld _ hlate =>
    rw [← List.cons_append]
    exact .stopped hlate (hconnecting _ _ _ hheld.ne_stopped)
  | @disconnected _ begun count _ finish _ held _ hheld =>
    have hearly := hconnecting begun (count + 1) _ (hdisconnected finish held hheld.ne_stopped)
    simpa using Stops.stopped (Nat.le_max_right finish world.cancelAt) hearly
  | unfollowed hpast hdelay => exact .unfollowed hpast hdelay (List.forall_mem_nil _)

end Stop

/-- An attempt leads to a session that streams from a time on until another one: by then its
    list of ports is complete, and until then its stream is read. -/
inductive Streams (settings : Settings) (world : World) (number begun opened : Nat) :
    Nat → Prop where
  | session {connection : Connection} {start : Nat} {before : List UInt8} {digit : UInt8}
    {names : List (List UInt8)}
    (hmade : world.connection? number begun = some (connection, start))
    (hlogin : (connection.login settings world.cancelAt start).error = none)
    (harchive : (settings.archive connection).unopened = none)
    (hopens : Opens before digit names)
    (hdelivered : before ++ portList digit names <+:
      (shifted start connection.source).deliveredBy world.cancelAt opened) :
    Streams settings world number begun opened
      (connection.reading settings world.cancelAt start).time

/-- Whenever frames are said to flow, they do in the session of an attempt, and the next status
    is that its stream is not read any more. -/
def StreamsWithin (settings : Settings) (world : World) (tries : List (Nat × Nat))
    (statuses : List (Nat × Status)) : Prop :=
  ∀ early opened late, statuses = early ++ (opened, .monitor .monitoring) :: late →
    ∃ number begun finish rest, (number, begun) ∈ tries ∧
      Streams settings world number begun opened finish ∧ late = (finish, .monitor .failed) :: rest

namespace StreamsWithin

variable {settings : Settings} {world : World} {tries : List (Nat × Nat)}
  {rest : List (Nat × Status)}

theorem nil : StreamsWithin settings world tries [] :=
  fun _ _ _ hsplit => absurd hsplit.symm (List.append_ne_nil_of_right_ne_nil _ nofun)

theorem cons (hrest : StreamsWithin settings world tries rest) (time : Nat) {status : Status}
    (hstatus : status ≠ .monitor .monitoring) :
    StreamsWithin settings world tries ((time, status) :: rest) := by
  intro early opened late hsplit
  cases early with
  | nil =>
    obtain ⟨heq, -⟩ := List.cons.inj hsplit
    exact absurd (congrArg Prod.snd heq) hstatus
  | cons first early => exact hrest early opened late (List.cons.inj hsplit).2

theorem cons_cons {number begun opened finish : Nat} (htry : (number, begun) ∈ tries)
    (hstreams : Streams settings world number begun opened finish)
    (hrest : StreamsWithin settings world tries rest) :
    StreamsWithin settings world tries
      ((opened, .monitor .monitoring) :: (finish, .monitor .failed) :: rest) := by
  intro early opened' late hsplit
  cases early with
  | nil =>
    obtain ⟨heq, rfl⟩ := List.cons.inj hsplit
    obtain rfl : opened = opened' := congrArg Prod.fst heq
    exact ⟨number, begun, finish, rest, htry, hstreams, rfl⟩
  | cons first early =>
    exact (hrest.cons finish (by simp)) early opened' late (List.cons.inj hsplit).2

theorem mono (hrest : StreamsWithin settings world tries rest) (attempt : Nat × Nat) :
    StreamsWithin settings world (attempt :: tries) rest := by
  intro early opened late hsplit
  obtain ⟨number, begun, finish, rest, htry, hstreams⟩ := hrest early opened late hsplit
  exact ⟨number, begun, finish, rest, List.mem_cons_of_mem _ htry, hstreams⟩

theorem held_append {number begun start : Nat} {connection : Connection}
    {held : List (Nat × Status)}
    (hheld : Held settings world.cancelAt connection start held)
    (hmade : world.connection? number begun = some (connection, start))
    (htry : (number, begun) ∈ tries) (hrest : StreamsWithin settings world tries rest) :
    StreamsWithin settings world tries (held ++ rest) := by
  cases hheld with
  | unmonitored => exact hrest.cons _ Status.noConfusion
  | monitored hlogin harchive hphases =>
    refine cons ?_ _ Status.noConfusion
    cases hphases with
    | unheard => exact (hrest.cons _ (by simp)).cons _ (by simp)
    | greeted => exact ((hrest.cons _ (by simp)).cons _ (by simp)).cons _ (by simp)
    | opened _ _ _ hopens hdelivered =>
      have hstreams := Streams.session hmade hlogin harchive hopens hdelivered
      exact ((hrest.cons_cons htry hstreams).cons _ (by simp)).cons _ (by simp)

end StreamsWithin

theorem Course.streamsWithin {settings : Settings} {world : World} {number begun count : Nat}
    {tries : List (Nat × Nat)} {statuses : List (Nat × Status)}
    (hcourse : Course settings world number begun count tries statuses) :
    StreamsWithin settings world tries statuses := by
  induction hcourse with
  | refused _ _ _ _ ih => exact .cons (ih.mono _) _ Status.noConfusion
  | reconnected hmade hheld _ _ _ ih =>
    refine .cons (.held_append hheld hmade (List.mem_cons_self ..) ?_) _ Status.noConfusion
    exact .cons (ih.mono _) _ Status.noConfusion
  | unconnected => exact .cons (.cons .nil _ Status.noConfusion) _ Status.noConfusion
  | cancelled hmade hheld =>
    refine .cons (.held_append hheld hmade (List.mem_singleton_self _) ?_) _ Status.noConfusion
    exact .cons .nil _ Status.noConfusion
  | disconnected hmade hheld =>
    refine .cons (.held_append hheld hmade (List.mem_singleton_self _) ?_) _ Status.noConfusion
    exact .cons (.cons .nil _ Status.noConfusion) _ Status.noConfusion
  | unfollowed => exact .nil

end PacketMonitor.Session

import PacketMonitor.Proofs.Session.Attempts

namespace PacketMonitor.Session

open PacketMonitor.Stream

/-- The messages that are still to be finished when cancellation fires, and when that is
    done: none, one that is being written, or the switch of modes with the command that
    follows it without a pause. -/
inductive Underway (cancelAt : Nat) : List Write → Nat → Prop where
  | idle : Underway cancelAt [] cancelAt
  | writing {write : Write} (hbegun : write.begun < cancelAt) (hended : cancelAt ≤ write.ended) :
    Underway cancelAt [write] write.ended
  | switching {first second : Write} (hfirst : first.bytes = commandLine "p")
    (hsecond : second.bytes = commandLine "BPQTERMTCP") (hflushed : first.isFlushed = true)
    (hbegun : first.begun < cancelAt) (hended : cancelAt ≤ first.ended)
    (hnext : second.begun = first.ended) (hlast : second.begun ≤ second.ended) :
    Underway cancelAt [first, second] second.ended

/-- Of some messages nearly all are done before cancellation, and what is over at a time
    does not wait for anything but the rest. -/
def CutShort (cancelAt finish : Nat) (writes : List Write) : Prop :=
  ∃ done late, writes = done ++ late ∧ (∀ write ∈ done, write.ended < cancelAt) ∧
    Underway cancelAt late (max finish cancelAt) ∧ (finish < cancelAt → late = [])

namespace CutShort

variable {cancelAt finish : Nat} {writes : List Write}

theorem of_done (hdone : ∀ write ∈ writes, write.ended < cancelAt) (hfinish : finish ≤ cancelAt) :
    CutShort cancelAt finish writes := by
  refine ⟨writes, [], (List.append_nil _).symm, hdone, ?_, fun _ => rfl⟩
  rw [Nat.max_eq_right hfinish]
  exact .idle

theorem single {write : Write} (hbegun : write.begun < cancelAt) :
    CutShort cancelAt write.ended [write] := by
  by_cases hended : write.ended < cancelAt
  · exact of_done (by simpa using hended) (Nat.le_of_lt hended)
  · refine ⟨[], [write], rfl, by simp, ?_, fun h => absurd h hended⟩
    rw [Nat.max_eq_left (Nat.le_of_not_lt hended)]
    exact .writing hbegun (Nat.le_of_not_lt hended)

theorem switching {first second : Write} (hfirst : first.bytes = commandLine "p")
    (hsecond : second.bytes = commandLine "BPQTERMTCP") (hflushed : first.isFlushed = true)
    (hbegun : first.begun < cancelAt) (hended : cancelAt ≤ first.ended)
    (hnext : second.begun = first.ended) (hlast : second.begun ≤ second.ended) :
    CutShort cancelAt second.ended [first, second] := by
  refine ⟨[], [first, second], rfl, by simp, ?_, fun h => by omega⟩
  rw [Nat.max_eq_left (by omega)]
  exact .switching hfirst hsecond hflushed hbegun hended hnext hlast

theorem append {early : List Write} (hearly : ∀ write ∈ early, write.ended < cancelAt)
    (hcut : CutShort cancelAt finish writes) : CutShort cancelAt finish (early ++ writes) := by
  obtain ⟨done, late, rfl, hdone, hunderway, hlate⟩ := hcut
  refine ⟨early ++ done, late, (List.append_assoc ..).symm, ?_, hunderway, hlate⟩
  intro write hwrite
  obtain hwrite | hwrite := List.mem_append.mp hwrite
  · exact hearly write hwrite
  · exact hdone write hwrite

theorem cons {write : Write} (hended : write.ended < cancelAt)
    (hcut : CutShort cancelAt finish writes) : CutShort cancelAt finish (write :: writes) := by
  have hearly : ∀ early ∈ [write], early.ended < cancelAt := by simpa using hended
  exact append hearly hcut

/-- What is over by cancellation does not make anything else take longer. -/
theorem later {other : Nat} (hcut : CutShort cancelAt finish writes) (hother : other ≤ cancelAt) :
    CutShort cancelAt (max other finish) writes := by
  obtain ⟨done, late, hwrites, hdone, hunderway, hlate⟩ := hcut
  refine ⟨done, late, hwrites, hdone, ?_, fun h => hlate (by omega)⟩
  rwa [Nat.max_assoc, Nat.max_eq_right (by omega)]

theorem ended_lt (hcut : CutShort cancelAt finish writes) (hfinish : finish < cancelAt) :
    ∀ write ∈ writes, write.ended < cancelAt := by
  obtain ⟨done, late, rfl, hdone, -, hlate⟩ := hcut
  rw [hlate hfinish, List.append_nil]
  exact hdone

end CutShort

theorem pause_of_le {cancelAt now : Nat} (hlate : cancelAt ≤ now) (millis : Nat) :
    pause cancelAt now millis = (now, false) := by
  unfold pause
  rw [if_pos (by omega), Nat.max_eq_left hlate]

theorem pause_of_lt {cancelAt now : Nat} (hnow : now < cancelAt) (millis : Nat) :
    pause cancelAt now millis = (cancelAt, false) ∨
      ∃ later, later < cancelAt ∧ pause cancelAt now millis = (later, true) := by
  unfold pause
  by_cases hlate : cancelAt ≤ now + min millis longestWait
  · rw [if_pos hlate, Nat.max_eq_right (Nat.le_of_lt hnow)]
    exact .inl rfl
  · rw [if_neg hlate]
    exact .inr ⟨_, Nat.lt_of_not_le hlate, rfl⟩

/-- Some actions that are begun before cancellation are given up as soon as it fires, but
    for messages that have to be finished. -/
def Prompt (cancelAt : Nat) (actions : List Action) : Prop :=
  ∀ w now, now < cancelAt →
    CutShort cancelAt (perform cancelAt w now actions).time (perform cancelAt w now actions).writes

namespace Prompt

variable {cancelAt : Nat} {rest : List Action}

theorem nil : Prompt cancelAt [] :=
  fun _ _ hnow => .of_done (List.forall_mem_nil _) (Nat.le_of_lt hnow)

theorem pause (millis : Nat) (hrest : Prompt cancelAt rest) :
    Prompt cancelAt (.pause millis :: rest) := by
  intro w now hnow
  rw [perform]
  obtain hpause | ⟨later, hlater, hpause⟩ := pause_of_lt hnow millis
  · rw [hpause]
    exact .of_done (by simp) (Nat.le_refl _)
  · rw [hpause]
    exact hrest w later hlater

/-- A message under way is finished, and then the pause after it is given up. -/
theorem send (step : Step) (bytes : List UInt8) {millis : Nat}
    (hrest : Prompt cancelAt (.pause millis :: rest)) :
    Prompt cancelAt (.send step bytes :: .pause millis :: rest) := by
  intro w now hnow
  rw [perform]
  have hsends := w.sends now bytes
  generalize w.send now bytes = result at hsends
  cases hsends with
  | refused => exact .single hnow
  | @flushed next time =>
    by_cases hended : time < cancelAt
    · exact .cons hended (hrest next time hended)
    · simp only [perform, pause_of_le (Nat.le_of_not_lt hended)]
      exact .single hnow

/-- The command that follows the switch of modes without a pause is finished as well. -/
theorem switch {millis : Nat}
    (hrest : Prompt cancelAt (.send .terminal (commandLine "BPQTERMTCP") :: .pause millis :: rest)) :
    Prompt cancelAt (.send .modeSwitch (commandLine "p") ::
      .send .terminal (commandLine "BPQTERMTCP") :: .pause millis :: rest) := by
  intro w now hnow
  rw [perform]
  have hsends := w.sends now (commandLine "p")
  generalize w.send now (commandLine "p") = result at hsends
  cases hsends with
  | refused => exact .single hnow
  | @flushed next time =>
    by_cases hended : time < cancelAt
    · exact .cons hended (hrest next time hended)
    · have hlate := Nat.le_of_not_lt hended
      simp only [perform]
      have hsends := next.sends time (commandLine "BPQTERMTCP")
      generalize next.send time (commandLine "BPQTERMTCP") = result at hsends
      cases hsends with
      | refused hlast => exact .switching rfl rfl rfl hnow hlate rfl hlast
      | flushed hlast =>
        simp only [pause_of_le (Nat.le_trans hlate hlast)]
        exact .switching rfl rfl rfl hnow hlate rfl hlast

end Prompt

/-- A handshake is given up as soon as cancellation fires, but for messages that have to
    be finished. -/
theorem prompt_handshake (cancelAt : Nat) (callsign : String) (ports : UInt32) (settle step : Nat) :
    Prompt cancelAt (handshake callsign ports settle step) := by
  have hports : Prompt cancelAt
      [.send .monitorPorts (commandLine (monitorCommand ports)), .pause settle] :=
    .send _ _ (.pause _ .nil)
  have hterminal : Prompt cancelAt
      [.send .terminal (commandLine "BPQTERMTCP"), .pause step,
        .send .monitorPorts (commandLine (monitorCommand ports)), .pause settle] :=
    .send _ _ (.pause _ hports)
  exact .pause _ (.send _ _ (.pause _ (.switch hterminal)))

/-- The keepalive writes nothing more when it is told to stop, but for a message that has
    to be finished. -/
theorem Keeps.cutShort {cancelAt stopAt now : Nat} {outcome : KeepaliveOutcome}
    (hkeeps : Keeps stopAt now outcome) (hstop : stopAt ≤ cancelAt) (hnow : now < cancelAt) :
    CutShort cancelAt outcome.time outcome.writes := by
  induction hkeeps with
  | stopped =>
    exact .of_done (List.forall_mem_nil _) (Nat.max_le.mpr ⟨Nat.le_of_lt hnow, hstop⟩)
  | refused _ hbegun => exact .single (Nat.lt_of_lt_of_le hbegun hstop)
  | @flushed now begun ended outcome _ hbegun _ hlater ih =>
    by_cases hover : ended < cancelAt
    · exact .cons hover (ih hover)
    · -- The message is flushed past the stop, so that no other one follows.
      rw [hlater.eq_of_le (Nat.le_trans hstop (Nat.le_of_not_lt hover))]
      exact .single (Nat.lt_of_lt_of_le hbegun hstop)

/-- A session is over as soon as cancellation fires, but for messages that have to be
    finished. -/
theorem cutShort_session (settings : Settings) {world : World} {connection : Connection} {start : Nat}
    (hstart : start < world.cancelAt) :
    CutShort world.cancelAt (world.session settings connection start).time
      (world.sessionWrites settings connection start) := by
  have hlogin : CutShort world.cancelAt (connection.login settings world.cancelAt start).time
      (connection.loginWrites settings world.cancelAt start) :=
    prompt_handshake _ _ _ _ _ connection.writer start hstart
  have hran : Ran settings world.cancelAt connection start
    (world.session settings connection start) := ran ..
  rw [World.sessionWrites]
  generalize world.session settings connection start = session at hran
  cases hran with
  | refused herror => rwa [if_neg (by simp [herror]), List.append_nil]
  | unarchived _ harchive => rwa [if_neg (by simp [harchive]), List.append_nil]
  | streamed hdone harchive =>
    have htime := login_time_lt hdone
    have hread := reading_time_le htime
    have hupkeep : CutShort world.cancelAt (connection.upkeep settings world.cancelAt start).time
        (connection.upkeepWrites settings world.cancelAt start) :=
      (keeps_upkeep ..).cutShort hread htime
    rw [if_pos ⟨hdone, harchive⟩]
    exact .append (hlogin.ended_lt htime) (hupkeep.later hread)

end PacketMonitor.Session

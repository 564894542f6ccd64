import PacketMonitor.Session.Handshake
import PacketMonitor.Session.Keepalive

namespace PacketMonitor.Session

/-- How long a message is under way before it is refused. Only a flush waits for the bytes
    before it. -/
def Refusal.delay (stall : Nat) : Refusal → Nat
  | .flush _ => stall
  | .write _ | .zero => 0

namespace Writer

theorem flatten_portions_go {n : Nat} (hn : 0 < n) {fuel : Nat} {bytes : List UInt8}
    (hfuel : bytes.length ≤ fuel) : (portions.go n fuel bytes).flatten = bytes := by
  induction fuel generalizing bytes with
  | zero => simp_all [portions.go]
  | succ fuel ih =>
    cases bytes with
    | nil => simp [portions.go]
    | cons b rest =>
      have hrest : ((b :: rest).drop n).length ≤ fuel := by
        rw [List.length_drop]
        omega
      rw [portions.go, List.flatten_cons, ih hrest, List.take_append_drop]
      simp

/-- A message that is taken in portions is still the same message. -/
theorem flatten_portions (chunk : Option Nat) (bytes : List UInt8) :
    (portions chunk bytes).flatten = bytes := by
  cases chunk with
  | none => simp [portions]
  | some n => exact flatten_portions_go (Nat.le_max_left 1 n) (Nat.le_refl _)

theorem send_of_refused {w : Writer} {refusal : Refusal} (hrefused : w.failure = some (0, refusal))
    (now : Nat) (bytes : List UInt8) :
    ∃ next, w.send now bytes = (next, now + refusal.delay (w.stalls.headD 0), .error refusal) := by
  rw [send, hrefused]
  cases refusal with
  | flush message => exact ⟨_, rfl⟩
  | write message | zero => exact ⟨_, rfl⟩

theorem send_of_not_refused {w : Writer} (haccepted : ∀ refusal, w.failure ≠ some (0, refusal))
    (now : Nat) (bytes : List UInt8) :
    w.send now bytes =
      ({ w with
          stalls := w.stalls.tail
          failure := w.failure.map fun (left, refusal) => (left - 1, refusal) },
        now + w.stalls.headD 0, .ok ⟨now, now + w.stalls.headD 0, bytes⟩) := by
  unfold send
  split
  · rename_i message hfailure
    exact absurd hfailure (haccepted _)
  · rename_i refusal _ hfailure
    exact absurd hfailure (haccepted _)
  · rw [flatten_portions]

/-- What is left of a writer when some messages were sent. -/
def after (w : Writer) (count : Nat) : Writer where
  chunk := w.chunk
  stalls := w.stalls.drop count
  failure := w.failure.map fun (left, refusal) => (left - count, refusal)

theorem after_zero (w : Writer) : w.after 0 = w := by
  obtain ⟨chunk, stalls, failure⟩ := w
  cases failure <;> rfl

/-- When all messages before one were sent, it is refused if and only if it should be. -/
theorem failure_after {w : Writer} {index : Nat}
    (hpassed : ∀ earlier < index, ∀ refusal, w.failure ≠ some (earlier, refusal)) {refusal : Refusal} :
    (w.after index).failure = some (0, refusal) ↔ w.failure = some (index, refusal) := by
  rw [after]
  cases hfailure : w.failure with
  | none => simp
  | some entry =>
    obtain ⟨left, why⟩ := entry
    have hleft : index ≤ left := by
      apply Nat.le_of_not_lt
      intro hlt
      exact hpassed left hlt why hfailure
    have hzero : left - index = 0 ↔ left = index := by omega
    simp [hzero]

theorem headD_stalls_after (w : Writer) (index : Nat) :
    (w.after index).stalls.headD 0 = w.stalls.getD index 0 := by
  rw [after, List.headD_eq_head?_getD, List.head?_drop, List.getD_eq_getElem?_getD]

theorem after_succ (w : Writer) (index : Nat) :
    { w.after index with
      stalls := (w.after index).stalls.tail
      failure := (w.after index).failure.map fun (left, refusal) => (left - 1, refusal) } =
      w.after (index + 1) := by
  simp only [after, List.tail_drop, Option.map_map]
  rfl

/-- When all messages before one were sent, it is refused or flushed as the script says. -/
theorem send_after {w : Writer} {index : Nat}
    (hpassed : ∀ earlier < index, ∀ refusal, w.failure ≠ some (earlier, refusal)) (now : Nat)
    (bytes : List UInt8) :
    let stall := w.stalls.getD index 0
    (∃ refusal next, w.failure = some (index, refusal) ∧
        (w.after index).send now bytes = (next, now + refusal.delay stall, .error refusal)) ∨
      ((∀ refusal, w.failure ≠ some (index, refusal)) ∧
        (w.after index).send now bytes =
          (w.after (index + 1), now + stall, .ok ⟨now, now + stall, bytes⟩)) := by
  intro stall
  have hstall : (w.after index).stalls.headD 0 = stall := headD_stalls_after w index
  by_cases hrefused : ∃ refusal, w.failure = some (index, refusal)
  · obtain ⟨refusal, hrefused⟩ := hrefused
    obtain ⟨next, hsend⟩ := send_of_refused ((failure_after hpassed).mpr hrefused) now bytes
    exact .inl ⟨refusal, next, hrefused, hstall ▸ hsend⟩
  · have haccepted : ∀ refusal, w.failure ≠ some (index, refusal) :=
      fun refusal h => hrefused ⟨refusal, h⟩
    refine .inr ⟨haccepted, ?_⟩
    rw [send_of_not_refused fun refusal h => haccepted refusal ((failure_after hpassed).mp h),
      after_succ, hstall]

/-- The portions in which a message is taken make no difference to it. -/
theorem send_with_chunk (chunk : Option Nat) (w : Writer) (now : Nat) (bytes : List UInt8) :
    { w with chunk }.send now bytes =
      ({ (w.send now bytes).1 with chunk }, (w.send now bytes).2) := by
  by_cases hrefused : ∃ refusal, w.failure = some (0, refusal)
  · obtain ⟨refusal, hrefused⟩ := hrefused
    rw [send, send, hrefused]
    cases refusal <;> rfl
  · have haccepted : ∀ refusal, w.failure ≠ some (0, refusal) := fun refusal h => hrefused ⟨refusal, h⟩
    have haccepted' : ∀ refusal, { w with chunk }.failure ≠ some (0, refusal) := haccepted
    rw [send_of_not_refused haccepted, send_of_not_refused haccepted']

/-- The two ways in which writing a message comes to an end. -/
inductive Sends (now : Nat) (bytes : List UInt8) : Writer × Nat × Except Refusal Sent → Prop where
  | refused {next : Writer} {time : Nat} {refusal : Refusal} (hnow : now ≤ time) :
    Sends now bytes (next, time, .error refusal)
  | flushed {next : Writer} {time : Nat} (hnow : now ≤ time) :
    Sends now bytes (next, time, .ok ⟨now, time, bytes⟩)

theorem sends (w : Writer) (now : Nat) (bytes : List UInt8) :
    Sends now bytes (w.send now bytes) := by
  by_cases hrefused : ∃ refusal, w.failure = some (0, refusal)
  · obtain ⟨refusal, hrefused⟩ := hrefused
    obtain ⟨next, hsend⟩ := send_of_refused hrefused now bytes
    rw [hsend]
    exact .refused (Nat.le_add_right ..)
  · rw [send_of_not_refused fun refusal h => hrefused ⟨refusal, h⟩]
    exact .flushed (Nat.le_add_right ..)

end Writer

/-- All that can come of some actions from a time on: all of them are done, a pause is given up
    when cancellation fires, or a message is refused. The writer that is left does not matter. -/
inductive Performs (cancelAt : Nat) : Nat → List Action → HandshakeOutcome → Prop where
  | done {now : Nat} {w : Writer} : Performs cancelAt now [] ⟨w, [], now, none⟩
  | cancelled {now millis : Nat} {rest : List Action} {w : Writer}
    (hlate : cancelAt ≤ now + min millis longestWait) :
    Performs cancelAt now (.pause millis :: rest) ⟨w, [], max now cancelAt, some .cancelled⟩
  | paused {now millis : Nat} {rest : List Action} {outcome : HandshakeOutcome}
    (hready : now + min millis longestWait < cancelAt)
    (hlater : Performs cancelAt (now + min millis longestWait) rest outcome) :
    Performs cancelAt now (.pause millis :: rest) outcome
  | refused {now time : Nat} {step : Step} {bytes : List UInt8} {rest : List Action} {w : Writer}
    {message : String} (hnow : now ≤ time) :
    Performs cancelAt now (.send step bytes :: rest)
      ⟨w, [⟨now, time, bytes, false⟩], time, some (.handshake step message)⟩
  | flushed {now time : Nat} {step : Step} {bytes : List UInt8} {rest : List Action}
    {outcome : HandshakeOutcome} (hnow : now ≤ time)
    (hlater : Performs cancelAt time rest outcome) :
    Performs cancelAt now (.send step bytes :: rest)
      { outcome with writes := ⟨now, time, bytes, true⟩ :: outcome.writes }

theorem performs (cancelAt : Nat) (w : Writer) (now : Nat) (actions : List Action) :
    Performs cancelAt now actions (perform cancelAt w now actions) := by
  induction actions generalizing w now with
  | nil => exact .done
  | cons action rest ih =>
    cases action with
    | pause millis =>
      rw [perform, pause]
      by_cases hlate : cancelAt ≤ now + min millis longestWait
      · rw [if_pos hlate]
        exact .cancelled hlate
      · rw [if_neg hlate]
        exact .paused (Nat.lt_of_not_le hlate) (ih ..)
    | send step bytes =>
      rw [perform]
      have hsends := w.sends now bytes
      generalize w.send now bytes = result at hsends
      cases hsends with
      | refused hnow => exact .refused hnow
      | flushed hnow => exact .flushed hnow (ih ..)

namespace Performs

variable {cancelAt now : Nat} {actions : List Action} {outcome : HandshakeOutcome}

/-- A handshake takes no time back, and only cancellation counts as such. -/
theorem timing (hperforms : Performs cancelAt now actions outcome) :
    now ≤ outcome.time ∧
      ∀ error, outcome.error = some error → error.isCancelled = true → cancelAt ≤ outcome.time := by
  induction hperforms with
  | done => exact ⟨Nat.le_refl _, fun error herror => nomatch herror⟩
  | cancelled => exact ⟨Nat.le_max_left .., fun _ _ _ => Nat.le_max_right ..⟩
  | paused _ _ ih => exact ⟨Nat.le_trans (Nat.le_add_right ..) ih.1, ih.2⟩
  | refused hnow =>
    refine ⟨hnow, ?_⟩
    rintro error ⟨⟩ hcancelled
    cases hcancelled
  | flushed hnow _ ih => exact ⟨Nat.le_trans hnow ih.1, ih.2⟩

/-- Actions that are all done are done one part after the other. -/
theorem split {early late : List Action} (hperforms : Performs cancelAt now (early ++ late) outcome)
    (hdone : outcome.error = none) :
    ∃ first second, Performs cancelAt now early first ∧ Performs cancelAt first.time late second ∧
      second.error = none ∧ outcome.writes = first.writes ++ second.writes ∧
      outcome.time = second.time := by
  induction early generalizing now outcome with
  | nil => exact ⟨⟨{}, [], now, none⟩, outcome, .done, hperforms, hdone, rfl, rfl⟩
  | cons action rest ih =>
    cases hperforms with
    | cancelled | refused => cases hdone
    | paused hready hlater =>
      obtain ⟨first, second, hfirst, hsecond⟩ := ih hlater hdone
      exact ⟨first, second, .paused hready hfirst, hsecond⟩
    | flushed hnow hlater =>
      obtain ⟨first, second, hfirst, hsecond, herror, hwrites, htime⟩ := ih hlater hdone
      exact ⟨_, second, .flushed hnow hfirst, hsecond, herror, congrArg (_ :: ·) hwrites, htime⟩

/-- A pause that is done is over before cancellation. -/
theorem pause_done {millis : Nat} (hperforms : Performs cancelAt now [.pause millis] outcome)
    (hdone : outcome.error = none) :
    outcome.writes = [] ∧ outcome.time = now + min millis longestWait ∧ outcome.time < cancelAt := by
  cases hperforms with
  | cancelled => cases hdone
  | paused hready hlater =>
    cases hlater
    exact ⟨rfl, rfl, hready⟩

end Performs

/-- All that can come of keeping a session alive from a time on: it is told to stop, or a
    message is refused. -/
inductive Keeps (stopAt : Nat) : Nat → KeepaliveOutcome → Prop where
  | stopped {now : Nat} : Keeps stopAt now ⟨[], max now stopAt⟩
  | refused {now begun ended : Nat} (hnow : now ≤ begun) (hbegun : begun < stopAt)
    (hended : begun ≤ ended) : Keeps stopAt now ⟨[⟨begun, ended, [0], false⟩], ended⟩
  | flushed {now begun ended : Nat} {outcome : KeepaliveOutcome} (hnow : now ≤ begun)
    (hbegun : begun < stopAt) (hended : begun ≤ ended) (hlater : Keeps stopAt ended outcome) :
    Keeps stopAt now { outcome with writes := ⟨begun, ended, [0], true⟩ :: outcome.writes }

theorem keeps (period stopAt : Nat) (w : Writer) (now : Nat) :
    Keeps stopAt now (keepalive period stopAt w now) := by
  rw [keepalive]
  split
  · rename_i hperiod
    generalize now + period = due
    fun_induction keepaliveFrom period hperiod stopAt w due now with
    | case1 => exact .stopped
    | case2 w due now handled hstop next time refusal hsend =>
      have hsends := w.sends handled [0]
      rw [hsend] at hsends
      cases hsends with
      | refused hended => exact .refused (Nat.le_max_right ..) (Nat.lt_of_not_le hstop) hended
    | case3 w due now handled hstop next time sent hsend outcome ih =>
      have hsends := w.sends handled [0]
      rw [hsend] at hsends
      cases hsends with
      | flushed hended => exact .flushed (Nat.le_max_right ..) (Nat.lt_of_not_le hstop) hended ih
  · exact .stopped

namespace Keeps

variable {stopAt now : Nat} {outcome : KeepaliveOutcome}

/-- Once it is time to stop, no other message is written. -/
theorem eq_of_le (hkeeps : Keeps stopAt now outcome) (hlate : stopAt ≤ now) : outcome = ⟨[], now⟩ := by
  cases hkeeps with
  | stopped => rw [Nat.max_eq_left hlate]
  | refused hnow hbegun | flushed hnow hbegun => omega

end Keeps

end PacketMonitor.Session

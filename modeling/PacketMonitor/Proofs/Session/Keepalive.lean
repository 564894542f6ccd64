import PacketMonitor.Proofs.Session.Writing

namespace PacketMonitor.Session

/-- What keeping a session alive depends on, the writing side of its line and its beginning
    included. `origin` is what the clock showed when times began to count. -/
structure Keepalive where
  period : Nat
  writer : Writer
  start : Nat
  positive : 0 < period
  origin : Nat

namespace Keepalive

/-- How far ticks that are on time lie apart. -/
def spacing (k : Keepalive) : Nat :=
  min k.period longestWait

/-- How long the line keeps a message waiting. -/
def stall (k : Keepalive) (index : Nat) : Nat :=
  k.writer.stalls.getD index 0

/-- When a tick is due, and since when the line is free for its message. -/
def turn (k : Keepalive) : Nat → Nat × Nat
  | 0 => (k.start + k.period, k.start)
  | index + 1 =>
    let (due, free) := k.turn index
    (nextDue k.period due (max due free), max due free + k.stall index)

def due (k : Keepalive) (index : Nat) : Nat := (k.turn index).1

def free (k : Keepalive) (index : Nat) : Nat := (k.turn index).2

/-- When the writing of a message begins. -/
def begun (k : Keepalive) (index : Nat) : Nat :=
  max (k.due index) (k.free index)

/-- When a message is flushed. -/
def ended (k : Keepalive) (index : Nat) : Nat :=
  k.begun index + k.stall index

/-- Each message is one zero byte. -/
def message (k : Keepalive) (index : Nat) : Sent :=
  ⟨k.begun index, k.ended index, [0]⟩

/-- A message is sent if its turn comes. -/
def Passes (k : Keepalive) (stopAt index : Nat) : Prop :=
  k.begun index < stopAt ∧ ∀ refusal, k.writer.failure ≠ some (index, refusal)

/-- How a keepalive comes to its end: the number of messages sent, and the time. -/
inductive Ends (k : Keepalive) (stopAt : Nat) : Nat → Nat → Prop where
  | stopped {count : Nat} (hpassed : ∀ index < count, k.Passes stopAt index)
    (hlate : stopAt ≤ k.begun count) : Ends k stopAt count (max (k.free count) stopAt)
  | refused {count : Nat} {refusal : Refusal} (hpassed : ∀ index < count, k.Passes stopAt index)
    (hbegun : k.begun count < stopAt) (hrefused : k.writer.failure = some (count, refusal)) :
    Ends k stopAt count (k.begun count + refusal.delay (k.stall count))

/-- The keepalive on a clock that tells every time. -/
def run (k : Keepalive) (stopAt : Nat) : KeepaliveOutcome :=
  keepalive k.period stopAt k.writer k.start

/-- The keepalive itself. -/
def run? (k : Keepalive) (stopAt : Nat) : Option KeepaliveOutcome :=
  keepalive? k.origin k.period stopAt k.writer k.start

/-- What is left of a keepalive from a tick on. -/
def runFrom (k : Keepalive) (stopAt index : Nat) : KeepaliveOutcome :=
  keepaliveFrom k.period k.positive stopAt (k.writer.after index) (k.due index) (k.free index)

variable {k : Keepalive} {stopAt index : Nat}

theorem run?_eq (k : Keepalive) (stopAt : Nat) : k.run? stopAt =
    if clockLimit ≤ k.origin + k.start + k.period then none else some (k.run stopAt) := by
  simp only [run?, keepalive?, k.positive, true_and, run]

/-- As long as the clock tells when a keepalive has to stop, it makes no difference that the
    clock cannot tell when the first tick is due. -/
theorem run_of_untold (hlimit : clockLimit ≤ k.origin + k.start + k.period)
    (hstop : k.origin + stopAt < clockLimit) : k.run stopAt = ⟨[], max k.start stopAt⟩ := by
  have hlate : stopAt ≤ max (k.start + k.period) k.start := by omega
  rw [run, keepalive, dif_pos k.positive, keepaliveFrom, dif_pos hlate]

theorem begun_zero (k : Keepalive) : k.begun 0 = k.start + k.period :=
  Nat.max_eq_left (Nat.le_add_right ..)

theorem free_succ (index : Nat) : k.free (index + 1) = k.ended index := rfl

theorem due_succ (index : Nat) :
    k.due (index + 1) = nextDue k.period (k.due index) (k.begun index) := rfl

theorem ended_le_begun_succ (index : Nat) : k.ended index ≤ k.begun (index + 1) :=
  Nat.le_max_right ..

/-- A tick that is late by no more than the tolerance brings the next one so much closer. -/
theorem begun_add_spacing_le (index : Nat) :
    k.begun index + k.spacing ≤ k.begun (index + 1) + tolerance := by
  have hdue : k.begun index + k.spacing ≤ k.due (index + 1) + tolerance := by
    rw [due_succ, nextDue, spacing]
    split <;> omega
  have hbegun : k.due (index + 1) ≤ k.begun (index + 1) := Nat.le_max_left ..
  omega

theorem begun_succ_le (index : Nat) :
    k.begun (index + 1) ≤ max (k.begun index + k.spacing) (k.ended index) := by
  have hbegun : k.due index ≤ k.begun index := Nat.le_max_left ..
  have hdue : k.due (index + 1) ≤ k.begun index + k.spacing := by
    rw [due_succ, nextDue, spacing]
    split <;> omega
  exact Nat.max_le.mpr ⟨Nat.le_trans hdue (Nat.le_max_left ..), Nat.le_max_right ..⟩

/-- On a line that keeps no message waiting every tick is on time. -/
theorem begun_of_no_stall (hquiet : ∀ index, k.stall index = 0) (index : Nat) :
    k.begun index = k.start + k.period + index * k.spacing := by
  have hdue : k.due index = k.start + k.period + index * k.spacing ∧ k.free index ≤ k.due index := by
    induction index with
    | zero => exact ⟨(Nat.zero_mul _).symm ▸ rfl, Nat.le_add_right ..⟩
    | succ index ih =>
      obtain ⟨hdue, hfree⟩ := ih
      have hbegun : k.begun index = k.due index := Nat.max_eq_left hfree
      have hnext : k.due (index + 1) = k.due index + k.spacing := by
        rw [due_succ, hbegun, nextDue, spacing, if_neg (by omega)]
      rw [hnext, free_succ, ended, hquiet, hbegun, hdue, Nat.add_mul]
      omega
  rw [begun, Nat.max_eq_left hdue.2, hdue.1]

theorem passes_of_lt_succ (hpassed : ∀ earlier < index, k.Passes stopAt earlier)
    (hpasses : k.Passes stopAt index) : ∀ earlier < index + 1, k.Passes stopAt earlier := by
  intro earlier hearlier
  obtain hlt | rfl := Nat.lt_succ_iff_lt_or_eq.mp hearlier
  · exact hpassed earlier hlt
  · exact hpasses

/-- At a tick it is time to stop, or its message is refused, or it is sent and the next tick
    follows. -/
inductive Turns (k : Keepalive) (stopAt index : Nat) : Prop where
  | stopped (hlate : stopAt ≤ k.begun index)
    (hrun : k.runFrom stopAt index = ⟨[], max (k.free index) stopAt⟩)
  | refused {refusal : Refusal} (hbegun : k.begun index < stopAt)
    (hrefused : k.writer.failure = some (index, refusal))
    (hrun : k.runFrom stopAt index =
      ⟨[⟨k.begun index, k.begun index + refusal.delay (k.stall index), [0], false⟩],
        k.begun index + refusal.delay (k.stall index)⟩)
  | sent (hpasses : k.Passes stopAt index)
    (hrun : k.runFrom stopAt index =
      { k.runFrom stopAt (index + 1) with
        writes := (k.message index).write :: (k.runFrom stopAt (index + 1)).writes })

theorem turns (hpassed : ∀ earlier < index, k.Passes stopAt earlier) : k.Turns stopAt index := by
  have hrun : k.runFrom stopAt index = keepaliveFrom .. := rfl
  rw [keepaliveFrom] at hrun
  by_cases hlate : stopAt ≤ k.begun index
  · exact .stopped hlate (hrun.trans (dif_pos hlate))
  · have hbegun : k.begun index < stopAt := Nat.lt_of_not_le hlate
    have hsend := hrun.trans (dif_neg hlate)
    obtain ⟨refusal, next, hrefused, hwriter⟩ | ⟨haccepted, hwriter⟩ :=
      Writer.send_after (fun earlier hearlier => (hpassed earlier hearlier).2) (k.begun index) [0]
    · rw [begun] at hwriter
      rw [hwriter] at hsend
      exact .refused hbegun hrefused hsend
    · rw [begun] at hwriter
      rw [hwriter] at hsend
      exact .sent ⟨hbegun, haccepted⟩ hsend

/-- From each tick on, a keepalive ends in one of the ways in which it should, having sent
    what it should have by then. -/
theorem ends_runFrom (hpassed : ∀ earlier < index, k.Passes stopAt earlier) :
    ∃ count, k.Ends stopAt (index + count) (k.runFrom stopAt index).time ∧
      (k.runFrom stopAt index).sent = (List.range' index count).map k.message := by
  -- A tick may be as late as the one behind it, but it is never due as late.
  induction hleft : stopAt - k.due index using Nat.strongRecOn generalizing index with
  | _ left ih =>
    cases turns hpassed with
    | stopped hlate hrun =>
      rw [hrun]
      exact ⟨0, .stopped hpassed hlate, rfl⟩
    | refused hbegun hrefused hrun =>
      rw [hrun]
      exact ⟨0, .refused hpassed hbegun hrefused, rfl⟩
    | sent hpasses hrun =>
      have hbegun : k.due index ≤ k.begun index := Nat.le_max_left ..
      have hdue : k.due index < k.due (index + 1) := lt_nextDue _ _ _ k.positive hbegun
      have hnext : stopAt - k.due (index + 1) < left := by
        have hturn := hpasses.1
        omega
      obtain ⟨count, hends, hsent⟩ := ih _ hnext (passes_of_lt_succ hpassed hpasses) rfl
      rw [hrun]
      refine ⟨count + 1, ?_, ?_⟩
      · rwa [Nat.add_right_comm] at hends
      · rw [List.range'_succ, List.map_cons, ← hsent]
        rfl

/-- A keepalive ends in one of the ways in which it should. -/
theorem ends_run (k : Keepalive) (stopAt : Nat) :
    ∃ count, k.Ends stopAt count (k.run stopAt).time ∧
      (k.run stopAt).sent = (List.range count).map k.message := by
  have hrun : k.run stopAt = k.runFrom stopAt 0 := by
    rw [run, keepalive, dif_pos k.positive, runFrom, Writer.after_zero]
    rfl
  have hpassed : ∀ earlier < 0, k.Passes stopAt earlier := fun _ hearlier =>
    absurd hearlier (Nat.not_lt_zero _)
  obtain ⟨count, hends, hsent⟩ := ends_runFrom hpassed
  rw [Nat.zero_add] at hends
  rw [← List.range_eq_range'] at hsent
  exact ⟨count, hrun ▸ hends, hrun ▸ hsent⟩

/-- The first message is sent a period after the beginning, unless it is refused or comes too
    late. -/
theorem message_zero_mem_run (k : Keepalive) {stopAt : Nat} (hbegun : k.start + k.period < stopAt)
    (haccepted : ∀ refusal, k.writer.failure ≠ some (0, refusal)) :
    k.message 0 ∈ (k.run stopAt).sent ∧ k.begun 0 = k.start + k.period := by
  have hfirst := begun_zero k
  obtain ⟨count, hends, hsent⟩ := k.ends_run stopAt
  generalize (k.run stopAt).time = time at hends
  cases count with
  | zero =>
    cases hends with
    | stopped _ hlate => exact absurd (hfirst ▸ hlate) (Nat.not_le_of_lt hbegun)
    | refused _ _ hrefused => exact absurd hrefused (haccepted _)
  | succ count =>
    rw [hsent]
    exact ⟨List.mem_map_of_mem (List.mem_range.mpr (Nat.zero_lt_succ count)), hfirst⟩

namespace Ends

variable {count count' time time' : Nat}

theorem passes (hends : k.Ends stopAt count time) : ∀ index < count, k.Passes stopAt index := by
  cases hends with
  | stopped hpassed | refused hpassed => exact hpassed

theorem not_passes (hends : k.Ends stopAt count time) : ¬ k.Passes stopAt count := by
  rintro ⟨hbegun, haccepted⟩
  cases hends with
  | stopped _ hlate => exact Nat.not_lt_of_le hlate hbegun
  | refused _ _ hrefused => exact haccepted _ hrefused

theorem count_le_count (hends : k.Ends stopAt count time) (hends' : k.Ends stopAt count' time') :
    count ≤ count' := by
  apply Nat.le_of_not_lt
  intro hlt
  exact hends'.not_passes (hends.passes count' hlt)

/-- There is one way only in which a keepalive ends. -/
theorem unique (hends : k.Ends stopAt count time) (hends' : k.Ends stopAt count' time') :
    count = count' ∧ time = time' := by
  obtain rfl : count = count' :=
    Nat.le_antisymm (hends.count_le_count hends') (hends'.count_le_count hends)
  refine ⟨rfl, ?_⟩
  cases hends with
  | stopped _ hlate =>
    cases hends' with
    | stopped => rfl
    | refused _ hbegun => exact absurd hlate (Nat.not_le_of_lt hbegun)
  | refused _ hbegun hrefused =>
    cases hends' with
    | stopped _ hlate => exact absurd hlate (Nat.not_le_of_lt hbegun)
    | refused _ _ hrefused' =>
      cases hrefused.symm.trans hrefused'
      rfl

end Ends

/-- On a line that keeps no message waiting and refuses none, a message is sent if its tick comes
    before the stop, and then it is time to stop. -/
theorem Ends.of_smooth {count time : Nat} (hends : k.Ends stopAt count time)
    (hquiet : ∀ index, k.stall index = 0) (haccepted : k.writer.failure = none) :
    time = max k.start stopAt ∧ ∀ index, index < count ↔ k.begun index < stopAt := by
  cases hends with
  | refused _ _ hrefused => cases haccepted.symm.trans hrefused
  | stopped hpassed hlate =>
    constructor
    · cases count with
      | zero => rfl
      | succ last =>
        have hended : k.free (last + 1) = k.begun last := by rw [free_succ, ended, hquiet]; rfl
        have hlast : k.begun last < stopAt := (hpassed last (Nat.lt_succ_self last)).1
        have hbegun := begun_of_no_stall hquiet last
        omega
    · refine fun index => ⟨fun hindex => (hpassed index hindex).1, fun hbegun => ?_⟩
      rw [begun_of_no_stall hquiet] at hlate hbegun
      exact Nat.lt_of_mul_lt_mul_right (Nat.lt_of_add_lt_add_left (Nat.lt_of_lt_of_le hbegun hlate))

/-- There is no keepalive if the clock cannot tell when the first tick is due. Otherwise it writes
    zero bytes, the first one after a period. Each write begins when the period after the one
    before is over, or as soon as that one is flushed, and earlier at most by the tolerance for a
    tick that was late. The end comes with the stop, with the flush of a message that is under way
    then, or when a message is refused. On a line that keeps no message waiting, messages are
    flushed exactly at the ticks. A period longer than the longest wait counts as that long once
    the first message is due. -/
theorem keepalive_ends (k : Keepalive) (stopAt : Nat) :
    let tick index := k.start + k.period + index * k.spacing
    (k.run? stopAt = none ↔ clockLimit ≤ k.origin + k.start + k.period) ∧
    ∀ outcome, k.run? stopAt = some outcome →
      (∀ count time, k.Ends stopAt count time ↔
        outcome.sent.length = count ∧ outcome.time = time) ∧
      outcome.sent = (List.range outcome.sent.length).map k.message ∧
      k.begun 0 = k.start + k.period ∧
      (∀ index, k.begun index + k.spacing ≤ k.begun (index + 1) + tolerance ∧
        k.ended index ≤ k.begun (index + 1) ∧
        k.begun (index + 1) ≤ max (k.begun index + k.spacing) (k.ended index)) ∧
      ((∀ index, k.stall index = 0) →
        (∀ index, k.message index = ⟨tick index, tick index, [0]⟩) ∧
        (k.writer.failure = none → outcome.time = max k.start stopAt ∧
          ∀ index, index < outcome.sent.length ↔ tick index < stopAt)) := by
  intro tick
  rw [run?_eq]
  refine ⟨by simp, fun outcome hrun => ?_⟩
  obtain ⟨-, hrun⟩ := Option.ite_none_left_eq_some.mp hrun
  obtain rfl := Option.some.inj hrun
  obtain ⟨count, hends, hsent⟩ := k.ends_run stopAt
  have hlength : (k.run stopAt).sent.length = count := by
    rw [hsent, List.length_map, List.length_range]
  refine ⟨fun other time => ⟨fun hother => ?_, ?_⟩, hlength ▸ hsent, begun_zero k,
    fun index => ⟨begun_add_spacing_le index, ended_le_begun_succ index, begun_succ_le index⟩,
    fun hquiet => ⟨fun index => ?_, fun haccepted => ?_⟩⟩
  · obtain ⟨rfl, rfl⟩ := hends.unique hother
    exact ⟨hlength, rfl⟩
  · rintro ⟨rfl, rfl⟩
    rwa [hlength]
  · have htick : k.begun index = tick index := begun_of_no_stall hquiet index
    rw [message, ended, hquiet, htick, Nat.add_zero]
  · obtain ⟨htime, hcount⟩ := hends.of_smooth hquiet haccepted
    refine ⟨htime, fun index => ?_⟩
    have htick : k.begun index = tick index := begun_of_no_stall hquiet index
    rw [hlength, hcount, htick]

/-- With a period of 100 and the stop at 350 there are three ticks. -/
theorem three_ticks_before_stop :
    let k : Keepalive := ⟨100, {}, 0, by decide, 0⟩
    (∀ index, k.stall index = 0) ∧ k.writer.failure = none ∧
      ∃ outcome, k.run? 350 = some outcome ∧
        outcome.sent = [⟨100, 100, [0]⟩, ⟨200, 200, [0]⟩, ⟨300, 300, [0]⟩] ∧
        outcome.time = 350 := by
  intro k
  have hquiet : ∀ index, k.stall index = 0 := fun _ => rfl
  obtain ⟨hnone, hsome⟩ := keepalive_ends k 350
  have htold : k.run? 350 ≠ none := fun huntold => absurd (hnone.mp huntold) (by decide)
  obtain ⟨outcome, hrun⟩ := Option.ne_none_iff_exists'.mp htold
  obtain ⟨-, hsent, -, -, hsmooth⟩ := hsome outcome hrun
  obtain ⟨hmessage, hends⟩ := hsmooth hquiet
  obtain ⟨htime, hticks⟩ := hends rfl
  have hthree : outcome.sent.length = 3 := by
    have htwo := (hticks 2).mpr (by decide)
    have hfour := mt (hticks 3).mp (by decide)
    omega
  have hrange : List.range 3 = [0, 1, 2] := rfl
  refine ⟨hquiet, rfl, outcome, hrun, ?_, htime⟩
  rw [hsent, hthree, hrange]
  simp only [List.map_cons, List.map_nil, hmessage]
  rfl

/-- A period longer than the longest wait is not waited for in full a second time: the second
    message comes too early, even with the tolerance. -/
theorem second_message_before_period :
    let k : Keepalive := ⟨1000000000000, { failure := some (2, .write "m") }, 0, by decide, 0⟩
    (k.run? 5000000000000).map (fun outcome => (outcome.sent.map (·.begun), outcome.time)) =
        some ([1000000000000, 1946080000000], 2892160000000) ∧
      1946080000000 + tolerance < 1000000000000 + k.period := by
  decide +kernel

end Keepalive

end PacketMonitor.Session

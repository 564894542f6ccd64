import Mathlib.Algebra.Group.Nat.Defs
import Mathlib.Data.List.TakeDrop
import PacketMonitor.Proofs.Session.Writing
import PacketMonitor.Proofs.Text.Hexadecimal

namespace PacketMonitor.Session

open Text

/-- What a handshake depends on, the writing side of its line and its beginning included. -/
structure Login where
  callsign : String
  ports : UInt32
  settle : Nat
  step : Nat
  writer : Writer
  start : Nat

namespace Login

/-- The messages of a handshake, each with its step. -/
def texts (login : Login) : List (Step × List UInt8) :=
  [(.callsign, commandLine login.callsign),
    (.modeSwitch, commandLine "p"),
    (.terminal, commandLine "BPQTERMTCP"),
    (.monitorPorts, commandLine (monitorCommand login.ports))]

/-- The pause before a message, and after the last one. The third message follows the second
    at once. -/
def pause? (login : Login) : Nat → Option Nat
  | 0 | 4 => some login.settle
  | 1 | 3 => some login.step
  | _ => none

/-- How long is waited before a message. -/
def wait (login : Login) (index : Nat) : Nat :=
  ((login.pause? index).map (min · longestWait)).getD 0

/-- How long the line keeps a message waiting. -/
def stall (login : Login) (index : Nat) : Nat :=
  login.writer.stalls.getD index 0

/-- When the handshake is done with all messages before one and with their stalls. -/
def idle (login : Login) : Nat → Nat
  | 0 => login.start
  | index + 1 => login.idle index + login.wait index + login.stall index

/-- When the pause before a message is over. -/
def begun (login : Login) (index : Nat) : Nat :=
  login.idle index + login.wait index

/-- When a message is flushed. -/
def flushed (login : Login) (index : Nat) : Nat :=
  login.begun index + login.stall index

/-- All messages at their times. -/
def planned (login : Login) : List Sent :=
  login.texts.mapIdx fun index text => ⟨login.begun index, login.flushed index, text.2⟩

/-- Cancellation comes before a pause is over. -/
def Interrupted (login : Login) (cancelAt index : Nat) : Prop :=
  (login.pause? index).isSome ∧ cancelAt ≤ login.begun index

/-- A message is sent if its turn comes. -/
def Passes (login : Login) (cancelAt index : Nat) : Prop :=
  ¬ login.Interrupted cancelAt index ∧ ∀ refusal, login.writer.failure ≠ some (index, refusal)

/-- How a handshake comes to its end: the number of messages sent, the time, and the error
    if there is one. -/
inductive Ends (login : Login) (cancelAt : Nat) : Nat → Nat → Option Error → Prop where
  | complete (hpassed : ∀ index < 4, login.Passes cancelAt index)
    (hquiet : ¬ login.Interrupted cancelAt 4) :
    Ends login cancelAt 4 (login.begun 4) none
  | cancelled {count : Nat} (hcount : count ≤ 4)
    (hpassed : ∀ index < count, login.Passes cancelAt index)
    (hinterrupted : login.Interrupted cancelAt count) :
    Ends login cancelAt count (max (login.idle count) cancelAt) (some .cancelled)
  | refused {count : Nat} {text : Step × List UInt8} {refusal : Refusal}
    (htext : login.texts[count]? = some text)
    (hpassed : ∀ index < count, login.Passes cancelAt index)
    (hquiet : ¬ login.Interrupted cancelAt count)
    (hrefused : login.writer.failure = some (count, refusal)) :
    Ends login cancelAt count (login.begun count + refusal.delay (login.stall count))
      (some (.handshake text.1 refusal.message))

/-- The handshake itself. -/
def run (login : Login) (cancelAt : Nat) : HandshakeOutcome :=
  perform cancelAt login.writer login.start
    (handshake login.callsign login.ports login.settle login.step)

/-- The actions from the pause before a message on. -/
def actionsFrom (login : Login) (index : Nat) : List (Step × List UInt8) → List Action
  | [] => (login.pause? index).toList.map .pause
  | (step, bytes) :: later =>
    (login.pause? index).toList.map .pause ++ .send step bytes :: login.actionsFrom (index + 1) later

/-- What is left of the writer when some messages were sent. -/
def writerAt (login : Login) (index : Nat) : Writer where
  chunk := login.writer.chunk
  stalls := login.writer.stalls.drop index
  failure := login.writer.failure.map fun (left, refusal) => (left - index, refusal)

end Login

namespace Login

variable {login : Login} {cancelAt index : Nat}

theorem writerAt_eq : login.writerAt index = login.writer.after index := rfl

/-- The pause before a message either ends with cancellation, or it lasts as long as it
    should. -/
theorem perform_pause? (login : Login) (cancelAt index : Nat) (w : Writer) (rest : List Action) :
    (login.Interrupted cancelAt index ∧
        perform cancelAt w (login.idle index) ((login.pause? index).toList.map .pause ++ rest) =
          ⟨w, [], max (login.idle index) cancelAt, some .cancelled⟩) ∨
      (¬ login.Interrupted cancelAt index ∧
        perform cancelAt w (login.idle index) ((login.pause? index).toList.map .pause ++ rest) =
          perform cancelAt w (login.begun index) rest) := by
  have hbegun : login.begun index = login.idle index + login.wait index := rfl
  rw [wait] at hbegun
  rw [Interrupted]
  cases hpause : login.pause? index with
  | none =>
    rw [hpause] at hbegun
    rw [hbegun]
    exact .inr ⟨by simp, rfl⟩
  | some millis =>
    rw [hpause, Option.map_some, Option.getD_some] at hbegun
    simp only [Option.isSome_some, true_and, Option.toList_some, List.map_cons, List.map_nil,
      List.cons_append, List.nil_append, perform, pause, ← hbegun]
    by_cases hlate : cancelAt ≤ login.begun index
    · exact .inl ⟨hlate, by rw [if_pos hlate]⟩
    · exact .inr ⟨hlate, by rw [if_neg hlate]⟩

theorem passes_of_lt_succ (hpassed : ∀ earlier < index, login.Passes cancelAt earlier)
    (hpasses : login.Passes cancelAt index) : ∀ earlier < index + 1, login.Passes cancelAt earlier := by
  intro earlier hearlier
  obtain hlt | rfl := Nat.lt_succ_iff_lt_or_eq.mp hearlier
  · exact hpassed earlier hlt
  · exact hpasses

theorem drop_take_planned (index : Nat) : (login.planned.take index).drop index = [] :=
  List.drop_eq_nil_of_le (List.length_take_le ..)

theorem drop_take_planned_of_lt {text : Step × List UInt8} (htext : login.texts[index]? = some text)
    {count : Nat} (hcount : index < count) :
    (login.planned.take count).drop index =
      ⟨login.begun index, login.flushed index, text.2⟩ :: (login.planned.take count).drop (index + 1) := by
  have hplanned : (login.planned.take count)[index]? =
      some ⟨login.begun index, login.flushed index, text.2⟩ := by
    rw [List.getElem?_take_of_lt hcount, planned, List.getElem?_mapIdx, htext, Option.map_some]
  obtain ⟨hlt, hget⟩ := List.getElem?_eq_some_iff.mp hplanned
  rw [List.drop_eq_getElem_cons hlt, hget]

/-- From each message on, a handshake ends in one of the ways in which it should, having
    sent what it should have by then. -/
theorem ends_actionsFrom (hpassed : ∀ earlier < index, login.Passes cancelAt earlier)
    {later : List (Step × List UInt8)} (hlater : login.texts.drop index = later)
    (hindex : index + later.length = 4) :
    let outcome := perform cancelAt (login.writerAt index) (login.idle index)
      (login.actionsFrom index later)
    ∃ count, index ≤ count ∧ login.Ends cancelAt count outcome.time outcome.error ∧
      outcome.sent = (login.planned.take count).drop index := by
  intro outcome
  induction later generalizing index with
  | nil =>
    obtain rfl : index = 4 := hindex
    obtain ⟨hinterrupted, hperform⟩ | ⟨hquiet, hperform⟩ :=
      perform_pause? login cancelAt 4 (login.writerAt 4) []
    · rw [List.append_nil] at hperform
      have houtcome : outcome = _ := hperform
      rw [houtcome]
      exact ⟨4, Nat.le_refl 4, .cancelled (Nat.le_refl 4) hpassed hinterrupted,
        (drop_take_planned 4).symm⟩
    · rw [List.append_nil] at hperform
      have houtcome : outcome = _ := hperform
      rw [houtcome]
      exact ⟨4, Nat.le_refl 4, .complete hpassed hquiet, (drop_take_planned 4).symm⟩
  | cons text later ih =>
    have htext : login.texts[index]? = some text := by
      rw [← List.head?_drop, hlater, List.head?_cons]
    obtain ⟨hinterrupted, hperform⟩ | ⟨hquiet, hperform⟩ :=
      perform_pause? login cancelAt index (login.writerAt index)
        (.send text.1 text.2 :: login.actionsFrom (index + 1) later)
    · have houtcome : outcome = _ := hperform
      rw [houtcome]
      exact ⟨index, Nat.le_refl index, .cancelled (by omega) hpassed hinterrupted,
        (drop_take_planned index).symm⟩
    · have houtcome : outcome = _ := hperform
      rw [houtcome, perform]
      obtain ⟨refusal, next, hrefused, hsend⟩ | ⟨haccepted, hsend⟩ :=
        Writer.send_after (fun earlier hearlier => (hpassed earlier hearlier).2) (login.begun index)
          text.2
      · rw [writerAt_eq, hsend]
        exact ⟨index, Nat.le_refl index, .refused htext hpassed hquiet hrefused,
          (drop_take_planned index).symm⟩
      · have hrest : login.texts.drop (index + 1) = later := by
          rw [List.drop_add_one_eq_tail_drop, hlater, List.tail_cons]
        have hlength : index + 1 + later.length = 4 := by
          rw [List.length_cons] at hindex
          omega
        obtain ⟨count, hcount, hends, hsent⟩ :=
          ih (passes_of_lt_succ hpassed ⟨hquiet, haccepted⟩) hrest hlength
        rw [writerAt_eq, hsend]
        refine ⟨count, Nat.le_of_succ_le hcount, hends, ?_⟩
        rw [drop_take_planned_of_lt htext hcount]
        exact congrArg (_ :: ·) hsent

/-- A handshake ends in one of the ways in which it should. -/
theorem ends_run (login : Login) (cancelAt : Nat) :
    ∃ count, login.Ends cancelAt count (login.run cancelAt).time (login.run cancelAt).error ∧
      (login.run cancelAt).sent = login.planned.take count := by
  have hpassed : ∀ earlier < 0, login.Passes cancelAt earlier :=
    fun _ hearlier => absurd hearlier (Nat.not_lt_zero _)
  have hwriter : login.writerAt 0 = login.writer := login.writer.after_zero
  obtain ⟨count, -, hends, hsent⟩ := ends_actionsFrom hpassed (login.texts.drop_zero) rfl
  rw [hwriter] at hends hsent
  exact ⟨count, hends, hsent⟩

namespace Ends

variable {count count' time time' : Nat} {error error' : Option Error}

theorem count_le (hends : login.Ends cancelAt count time error) : count ≤ 4 := by
  cases hends with
  | complete => exact Nat.le_refl 4
  | cancelled hcount => exact hcount
  | refused htext =>
    obtain ⟨hlt, -⟩ := List.getElem?_eq_some_iff.mp htext
    exact Nat.le_of_lt hlt

theorem passes (hends : login.Ends cancelAt count time error) :
    ∀ index < count, login.Passes cancelAt index := by
  cases hends with
  | complete hpassed | cancelled _ hpassed | refused _ hpassed => exact hpassed

theorem not_passes (hends : login.Ends cancelAt count time error) (hcount : count < 4) :
    ¬ login.Passes cancelAt count := by
  rintro ⟨hquiet, haccepted⟩
  cases hends with
  | complete => exact Nat.lt_irrefl 4 hcount
  | cancelled _ _ hinterrupted => exact hquiet hinterrupted
  | refused _ _ _ hrefused => exact haccepted _ hrefused

theorem error_eq_none_iff (hends : login.Ends cancelAt count time error) :
    error = none ↔ count = 4 ∧ login.begun 4 < cancelAt := by
  have hlast : login.Interrupted cancelAt 4 ↔ cancelAt ≤ login.begun 4 := and_iff_right rfl
  rw [← Nat.not_le, ← hlast]
  cases hends with
  | complete _ hquiet => exact iff_of_true rfl ⟨rfl, hquiet⟩
  | cancelled _ _ hinterrupted =>
    apply iff_of_false (by simp)
    rintro ⟨rfl, hquiet⟩
    exact hquiet hinterrupted
  | refused htext =>
    apply iff_of_false (by simp)
    rintro ⟨rfl, -⟩
    cases htext

theorem count_le_count (hends : login.Ends cancelAt count time error)
    (hends' : login.Ends cancelAt count' time' error') : count ≤ count' := by
  apply Nat.le_of_not_lt
  intro hlt
  exact hends'.not_passes (Nat.lt_of_lt_of_le hlt hends.count_le) (hends.passes count' hlt)

/-- There is one way only in which a handshake ends. -/
theorem unique (hends : login.Ends cancelAt count time error)
    (hends' : login.Ends cancelAt count' time' error') :
    count = count' ∧ time = time' ∧ error = error' := by
  obtain rfl : count = count' :=
    Nat.le_antisymm (hends.count_le_count hends') (hends'.count_le_count hends)
  refine ⟨rfl, ?_⟩
  cases hends with
  | complete hpassed hquiet =>
    cases hends' with
    | complete => exact ⟨rfl, rfl⟩
    | cancelled _ _ hinterrupted => exact absurd hinterrupted hquiet
    | refused htext => cases htext
  | cancelled _ _ hinterrupted =>
    cases hends' with
    | complete _ hquiet | refused _ _ hquiet => exact absurd hinterrupted hquiet
    | cancelled => exact ⟨rfl, rfl⟩
  | refused htext _ hquiet hrefused =>
    cases hends' with
    | complete => cases htext
    | cancelled _ _ hinterrupted => exact absurd hinterrupted hquiet
    | refused htext' _ _ hrefused' =>
      cases htext.symm.trans htext'
      cases hrefused.symm.trans hrefused'
      exact ⟨rfl, rfl⟩

end Ends

end Login

theorem perform_with_chunk (chunk : Option Nat) (cancelAt : Nat) (w : Writer) (now : Nat)
    (actions : List Action) :
    perform cancelAt { w with chunk } now actions =
      { perform cancelAt w now actions with
        writer := { (perform cancelAt w now actions).writer with chunk } } := by
  induction actions generalizing w now with
  | nil => rfl
  | cons action rest ih =>
    cases action with
    | pause millis =>
      rw [perform, perform]
      rcases pause cancelAt now millis with ⟨time, _ | _⟩
      · rfl
      · exact ih w time
    | send step bytes =>
      rw [perform, perform, Writer.send_with_chunk]
      rcases w.send now bytes with ⟨next, time, refusal | sent⟩
      · rfl
      · simp only [ih next time]

/-- The port mask is made of as many ones as there are ports, at most 64. -/
theorem toNat_portMask (ports : UInt32) : (portMask ports).toNat = 2 ^ min ports.toNat 64 - 1 := by
  rw [portMask]
  split
  · rename_i hmany
    have hle : 64 ≤ ports.toNat := hmany
    rw [Nat.min_eq_right hle]
    rfl
  · rename_i hfew
    have hlt : ports.toNat < 64 := Nat.lt_of_not_le hfew
    have hpower : ((1 : UInt64) <<< ports.toUInt64).toNat = 2 ^ ports.toNat := by
      rw [UInt64.toNat_shiftLeft, UInt32.toNat_toUInt64, Nat.mod_eq_of_lt hlt, UInt64.toNat_one,
        Nat.one_shiftLeft]
      exact Nat.mod_eq_of_lt (Nat.pow_lt_pow_right (by decide) hlt)
    have hpositive : 1 ≤ (1 : UInt64) <<< ports.toUInt64 := by
      rw [UInt64.le_iff_toNat_le, hpower]
      exact Nat.one_le_two_pow
    rw [Nat.min_eq_left (Nat.le_of_lt hlt), UInt64.toNat_sub_of_le _ _ hpositive, hpower,
      UInt64.toNat_one]

/-- A handshake sends its messages in order and whole, each when all pauses and stalls before
    it are over, until a pause is cut short or a message is refused. That ends it, and only
    one that comes to the end of its last pause succeeds. It does not matter in which portions
    the messages are taken. The command for the ports has one bit for each of them. -/
theorem handshake_ends (login : Login) (cancelAt : Nat) :
    let outcome := login.run cancelAt
    (∀ count time error, login.Ends cancelAt count time error ↔
      outcome.sent.length = count ∧ outcome.time = time ∧ outcome.error = error) ∧
    outcome.sent = login.planned.take outcome.sent.length ∧
    (outcome.error = none ↔ outcome.sent = login.planned ∧ login.begun 4 < cancelAt) ∧
    (∀ chunk, { login with writer := { login.writer with chunk } }.run cancelAt =
      { outcome with writer := { outcome.writer with chunk } }) ∧
    ∃ digits n, monitorCommand login.ports = "\\\\\\\\" ++ String.ofList digits ++ " 1 1 1 0 0 0 1" ∧
      SpellsHex digits n ∧ ∀ bit, n.testBit bit = decide (bit < min login.ports.toNat 64) := by
  intro outcome
  obtain ⟨count, hends, hsent⟩ := login.ends_run cancelAt
  have hlength : outcome.sent.length = count := by
    rw [hsent, List.length_take]
    exact Nat.min_eq_left hends.count_le
  have hall : outcome.sent = login.planned ↔ count = 4 := by
    rw [hsent, List.take_eq_self_iff]
    exact ⟨Nat.le_antisymm hends.count_le, fun h => Nat.le_of_eq h.symm⟩
  refine ⟨fun other time error => ⟨fun hother => ?_, ?_⟩, hlength ▸ hsent,
    hends.error_eq_none_iff.trans (and_congr_left fun _ => hall.symm),
    fun chunk => perform_with_chunk chunk .., ?_⟩
  · obtain ⟨rfl, rfl, rfl⟩ := hends.unique hother
    exact ⟨hlength, rfl, rfl⟩
  · rintro ⟨rfl, rfl, rfl⟩
    rwa [hlength]
  · refine ⟨hexadecimal (portMask login.ports).toNat, (portMask login.ports).toNat, rfl,
      SpellsHex.hexadecimal _, fun bit => ?_⟩
    rw [toNat_portMask, Nat.testBit_two_pow_sub_one]

/-- A pause of more than thirty years is cut short, and the messages behind it are early. -/
theorem handshake_early_after_longest_wait :
    let login : Login :=
      { callsign := "G4ABC", ports := 4, settle := 946080000001, step := 1, writer := {}, start := 0 }
    (login.run 2000000000000).error = none ∧
      (login.run 2000000000000).sent.map (·.flushed) =
        [946080000000, 946080000001, 946080000001, 946080000002] ∧
      (login.run 2000000000000).time = 1892160000002 ∧
      946080000000 < login.start + login.settle := by
  decide +kernel

end PacketMonitor.Session

import Mathlib.Data.Nat.Find
import PacketMonitor.Proofs.Stream.Chunk

namespace PacketMonitor.Stream

/-- The signals of one step, from a phase to the next: the banner and the port list
    each open the next phase, and frames arrive in the last one only. -/
inductive Advance : Phase → List Signal → Phase → Prop where
  | silent (phase : Phase) : Advance phase [] phase
  | banner : Advance .connecting [.entered .awaitingPortList] .awaitingPortList
  | portList : Advance .awaitingPortList [.entered .monitoring] .monitoring
  | frame (raw : List UInt8) : Advance .monitoring [.frame raw] .monitoring

/-- The signals of any number of steps. -/
inductive Path : Phase → List Signal → Phase → Prop where
  | nil (phase : Phase) : Path phase [] phase
  | cons {first next last : Phase} {told later : List Signal}
      (hstep : Advance first told next) (hrest : Path next later last) :
    Path first (told ++ later) last

theorem Path.of_monitoring {told : List Signal} {last : Phase} (hpath : Path .monitoring told last) :
    last = .monitoring ∧ ∃ frames : List (List UInt8), told = frames.map Signal.frame := by
  generalize hfirst : Phase.monitoring = first at hpath
  induction hpath with
  | nil phase => exact ⟨rfl, [], rfl⟩
  | cons hstep hrest ih =>
    subst hfirst
    cases hstep with
    | silent => simpa using ih rfl
    | frame raw =>
      obtain ⟨hlast, frames, rfl⟩ := ih rfl
      exact ⟨hlast, raw :: frames, rfl⟩

theorem Path.of_awaitingPortList {told : List Signal} {last : Phase}
    (hpath : Path .awaitingPortList told last) :
    (last = .awaitingPortList ∧ told = []) ∨
      (last = .monitoring ∧ ∃ frames : List (List UInt8),
        told = .entered .monitoring :: frames.map Signal.frame) := by
  generalize hfirst : Phase.awaitingPortList = first at hpath
  induction hpath with
  | nil phase => exact .inl ⟨rfl, rfl⟩
  | cons hstep hrest ih =>
    subst hfirst
    cases hstep with
    | silent => simpa using ih rfl
    | portList =>
      obtain ⟨hlast, frames, rfl⟩ := hrest.of_monitoring
      exact .inr ⟨hlast, frames, rfl⟩

/-- From the start there are three ways to go: the banner never comes, only the
    banner comes, or the port list follows it and then nothing but frames. -/
theorem Path.of_connecting {told : List Signal} {last : Phase} (hpath : Path .connecting told last) :
    (last = .connecting ∧ told = []) ∨
      (last = .awaitingPortList ∧ told = [.entered .awaitingPortList]) ∨
      (last = .monitoring ∧ ∃ frames : List (List UInt8), told =
        .entered .awaitingPortList :: .entered .monitoring :: frames.map Signal.frame) := by
  generalize hfirst : Phase.connecting = first at hpath
  induction hpath with
  | nil phase => exact .inl ⟨rfl, rfl⟩
  | cons hstep hrest ih =>
    subst hfirst
    cases hstep with
    | silent => simpa using ih rfl
    | banner =>
      obtain ⟨hlast, rfl⟩ | ⟨hlast, frames, rfl⟩ := hrest.of_awaitingPortList
      · exact .inr (.inl ⟨hlast, rfl⟩)
      · exact .inr (.inr ⟨hlast, frames, rfl⟩)

namespace Reader

theorem advance_await {r : Reader} (hphase : r.phase = .awaitingPortList) (count : Nat) :
    Advance .awaitingPortList (r.await count).2 (r.await count).1.phase := by
  cases count with
  | zero => exact .portList
  | succ count => exact hphase ▸ .silent _

@[simp] theorem pending_await (r : Reader) (count : Nat) :
    (r.await count).1.pending = r.pending := by
  cases count <;> rfl

@[simp] theorem length_await (r : Reader) (count : Nat) : (r.await count).1.length = r.length := by
  cases count <;> rfl

/-- What a whole chunk leads to: one step, after which the next chunk begins, or a
    port list that does not start as it should. -/
theorem takeChunk_spec {r : Reader} (hfresh : r.Fresh) (chunk : List UInt8) :
    (∃ next told, r.takeChunk chunk = .ok (next, told) ∧ Advance r.phase told next.phase ∧
        next.Fresh) ∨
      (r.phase = .awaitingPortList ∧ portCount? chunk = none ∧
        r.takeChunk chunk = .error (r, badHeader chunk)) := by
  cases hphase : r.phase with
  | connecting =>
    by_cases hbanner : banner.isSuffixOf chunk = true
    · refine .inl ⟨{ r with phase := .awaitingPortList }, [.entered .awaitingPortList], ?_, .banner,
        hfresh⟩
      simp only [takeChunk, hphase, hbanner, if_true]
    · refine .inl ⟨r, [], ?_, hphase ▸ .silent _, hfresh⟩
      simp only [takeChunk, hphase, hbanner, if_false, Bool.false_eq_true]
  | awaitingPortList =>
    cases hawaited : r.awaited with
    | none =>
      cases hcount : portCount? chunk with
      | none =>
        refine .inr ⟨rfl, rfl, ?_⟩
        simp only [takeChunk, hphase, hawaited, hcount]
      | some count =>
        refine .inl ⟨(({ r with ports := [] } : Reader).await count).1, _, ?_,
          advance_await (r := { r with ports := [] }) hphase count, by simpa [Fresh] using hfresh⟩
        simp only [takeChunk, hphase, hawaited, hcount]
    | some count =>
      let described : Reader := { r with ports := r.ports ++ [descriptor chunk] }
      refine .inl ⟨(described.await (count - 1)).1, _, ?_,
        advance_await (r := described) hphase (count - 1), by simpa [Fresh] using hfresh⟩
      simp only [takeChunk, hphase, hawaited, described]
  | monitoring =>
    refine .inl ⟨r, [.frame chunk], ?_, hphase ▸ .frame chunk, hfresh⟩
    simp only [takeChunk, hphase]
  | failed =>
    refine .inl ⟨r, [], ?_, hphase ▸ .silent _, hfresh⟩
    simp only [takeChunk, hphase]

theorem fresh_reset (r : Reader) : ({ r with pending := [], length := 0 } : Reader).Fresh := ⟨rfl, rfl⟩

theorem advance_takeByte {r next : Reader} {b : UInt8} {told : List Signal}
    (htake : r.takeByte b = .ok (next, told)) : Advance r.phase told next.phase := by
  unfold takeByte at htake
  split at htake
  · obtain ⟨next', told', hchunk, hadvance, -⟩ | ⟨-, -, hchunk⟩ :=
      takeChunk_spec r.fresh_reset (b :: r.pending).reverse
    · rw [hchunk] at htake
      cases htake
      exact hadvance
    · rw [hchunk] at htake
      cases htake
  · split at htake
    · cases htake
      exact .silent _
    · cases htake

theorem fresh_of_takeByte {r next : Reader} {b : UInt8} {told : List Signal}
    (htake : r.takeByte b = .ok (next, told)) (htold : told ≠ []) : next.Fresh := by
  unfold takeByte at htake
  split at htake
  · obtain ⟨next', told', hchunk, -, hnext⟩ | ⟨-, -, hchunk⟩ :=
      takeChunk_spec r.fresh_reset (b :: r.pending).reverse
    · rw [hchunk] at htake
      cases htake
      exact hnext
    · rw [hchunk] at htake
      cases htake
  · split at htake
    · cases htake
      exact absurd rfl htold
    · cases htake

theorem phase_of_takeByte_error {r last : Reader} {b : UInt8} {fault : Fault}
    (htake : r.takeByte b = .error (last, fault)) : last.phase = r.phase := by
  unfold takeByte at htake
  split at htake
  · obtain ⟨next', told', hchunk, -⟩ | ⟨-, -, hchunk⟩ :=
      takeChunk_spec r.fresh_reset (b :: r.pending).reverse
    · rw [hchunk] at htake
      cases htake
    · rw [hchunk] at htake
      cases htake
      rfl
  · split at htake
    · cases htake
    · cases htake
      rfl

theorem path_takeAll (r : Reader) (bytes : List UInt8) :
    Path r.phase (r.takeAll bytes).signals (r.takeAll bytes).reader.phase := by
  induction bytes generalizing r with
  | nil => exact .nil _
  | cons b rest ih =>
    cases htake : r.takeByte b with
    | ok taken =>
      rw [takeAll_cons_ok htake]
      exact .cons (advance_takeByte htake) (ih taken.1)
    | error refused =>
      rw [takeAll_cons_error htake]
      exact phase_of_takeByte_error htake ▸ .nil _

/-- The last of some bytes makes the reader enter a phase, and no earlier one does. -/
def EntersAfter (r : Reader) (phase : Phase) (before : List UInt8) : Prop :=
  ∀ front, front <+: before → (.entered phase ∈ (r.takeAll front).signals ↔ front = before)

theorem exists_entersAfter {r : Reader} {phase : Phase} {bytes : List UInt8}
    (hentered : .entered phase ∈ (r.takeAll bytes).signals) :
    ∃ before rest, bytes = before ++ rest ∧ r.EntersAfter phase before := by
  classical
  have hexists : ∃ count, .entered phase ∈ (r.takeAll (bytes.take count)).signals :=
    ⟨bytes.length, by rwa [List.take_length]⟩
  refine ⟨bytes.take (Nat.find hexists), bytes.drop (Nat.find hexists),
    (List.take_append_drop _ _).symm, ?_⟩
  intro front hfront
  constructor
  · intro htold
    have htake := List.prefix_iff_eq_take.mp (hfront.trans (List.take_prefix _ _))
    have hcount : Nat.find hexists ≤ front.length := Nat.find_min' hexists (htake ▸ htold)
    refine hfront.eq_of_length_le ?_
    rw [List.length_take]
    omega
  · rintro rfl
    exact Nat.find_spec hexists

/-- Where a phase is entered the next chunk begins. -/
theorem EntersAfter.takeAll_eq {r : Reader} {phase : Phase} {before : List UInt8}
    (henters : r.EntersAfter phase before) :
    ∃ last earlier, r.takeAll before = ⟨last, earlier ++ [.entered phase], none⟩ ∧
      last.phase = phase ∧ last.Fresh := by
  have hentered := (henters before List.prefix_rfl).mpr rfl
  obtain rfl | ⟨front, b, rfl⟩ := List.eq_nil_or_concat before
  · simp at hentered
  · rw [List.concat_eq_append] at *
    have hfront : .entered phase ∉ (r.takeAll front).signals := by
      rw [henters front (List.prefix_append _ _)]
      intro h
      simpa using congrArg List.length h
    rw [takeAll_append] at hentered ⊢
    cases hfault : (r.takeAll front).fault with
    | some fault =>
      rw [hfault] at hentered
      exact absurd hentered hfront
    | none =>
      simp only [hfault] at hentered ⊢
      cases htake : (r.takeAll front).reader.takeByte b with
      | error refused =>
        rw [takeAll_cons_error htake] at hentered
        exact absurd (by simpa [Intake.after] using hentered) hfront
      | ok taken =>
        obtain ⟨next, told⟩ := taken
        rw [takeAll_cons_ok htake] at hentered ⊢
        have htold : .entered phase ∈ told := by simpa [Intake.after, hfront] using hentered
        have hadvance := advance_takeByte htake
        have hfresh := fresh_of_takeByte htake (List.ne_nil_of_mem htold)
        generalize (r.takeAll front).reader.phase = first at hadvance
        generalize hlast : next.phase = last at hadvance
        cases hadvance with
        | silent => simp at htold
        | banner =>
          obtain rfl : phase = .awaitingPortList := by simpa using htold
          exact ⟨next, _, rfl, hlast, hfresh⟩
        | portList =>
          obtain rfl : phase = .monitoring := by simpa using htold
          exact ⟨next, _, rfl, hlast, hfresh⟩
        | frame raw => simp at htold

end Reader

end PacketMonitor.Stream

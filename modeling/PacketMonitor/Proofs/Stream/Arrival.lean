import PacketMonitor.Proofs.Stream.Preamble
import PacketMonitor.Proofs.Stream.Timing

namespace PacketMonitor.Stream

/-- The bytes that can be read from a stream before cancellation and no later than at
    some time. -/
def Source.deliveredBy (source : Source) (cancelAt last : Nat) : List UInt8 :=
  (source.segments.takeWhile fun segment =>
    segment.readyAt < cancelAt && segment.readyAt ≤ last).flatMap (·.bytes)

/-- What happens no later than at some time. -/
def upTo (last : Nat) (occurrences : List (Nat × Occurrence)) : List (Nat × Occurrence) :=
  occurrences.filter (·.1 ≤ last)

theorem upTo_eq_self {last : Nat} {occurrences : List (Nat × Occurrence)}
    (htimes : ∀ entry ∈ occurrences, entry.1 ≤ last) : upTo last occurrences = occurrences :=
  List.filter_eq_self.mpr fun entry hentry => decide_eq_true (htimes entry hentry)

theorem upTo_eq_nil {last : Nat} {occurrences : List (Nat × Occurrence)}
    (htimes : ∀ entry ∈ occurrences, last < entry.1) : upTo last occurrences = [] :=
  List.filter_eq_nil_iff.mpr fun entry hentry hle =>
    absurd (of_decide_eq_true hle) (Nat.not_le.mpr (htimes entry hentry))

theorem upTo_singleton (last : Nat) (entry : Nat × Occurrence) :
    upTo last [entry] = [entry] ∨ upTo last [entry] = [] := by
  by_cases hle : entry.1 ≤ last
  · exact .inl (upTo_eq_self (by simpa using hle))
  · exact .inr (upTo_eq_nil (by simpa using hle))

theorem upTo_append (last : Nat) (early late : List (Nat × Occurrence)) :
    upTo last (early ++ late) = upTo last early ++ upTo last late :=
  List.filter_append ..

theorem upTo_toldAt {last time : Nat} (htime : time ≤ last) (told : List Signal) :
    upTo last (toldAt time told) = toldAt time told :=
  upTo_eq_self fun _ hentry => fst_of_mem_toldAt hentry ▸ htime

theorem frames_map_snd (occurrences : List (Nat × Occurrence)) :
    frames (occurrences.map (·.2)) = framesAmong (signals occurrences) := by
  induction occurrences with
  | nil => rfl
  | cons entry rest ih =>
    obtain ⟨time, occurrence⟩ := entry
    cases occurrence with
    | told signal =>
      cases signal with
      | entered phase => exact ih
      | frame raw => exact congrArg (raw :: ·) ih
    | consumed segment => exact ih
    | ended => exact ih

theorem framesAmong_run (cancelAt now : Nat) (r : Reader) (source : Source) :
    framesAmong (signals (r.run cancelAt now source).occurrences) =
      framesAmong (r.restart.takeAll (source.heard cancelAt now)).signals := by
  obtain ⟨hsignals, -, -⟩ := Reader.run_eq_takeAll cancelAt now r source
  rw [hsignals]
  simp [framesAmong]

theorem deliveredBy_cons_of_ready {cancelAt last : Nat} {segment : Segment}
    (hready : segment.readyAt < cancelAt) (hlast : segment.readyAt ≤ last) (rest : List Segment)
    (ending : Ending) (endsAt : Nat) :
    Source.deliveredBy ⟨segment :: rest, ending, endsAt⟩ cancelAt last =
      segment.bytes ++ Source.deliveredBy ⟨rest, ending, endsAt⟩ cancelAt last := by
  simp [Source.deliveredBy, hready, hlast]

theorem deliveredBy_cons_of_late {cancelAt last : Nat} {segment : Segment}
    (hlate : cancelAt ≤ segment.readyAt ∨ last < segment.readyAt) (rest : List Segment)
    (ending : Ending) (endsAt : Nat) :
    Source.deliveredBy ⟨segment :: rest, ending, endsAt⟩ cancelAt last = [] := by
  have hnone : (segment.readyAt < cancelAt && segment.readyAt ≤ last) = false := by
    simp only [Bool.and_eq_false_iff, decide_eq_false_iff_not]
    omega
  rw [Source.deliveredBy, List.takeWhile_cons_of_neg (by simp [hnone]), List.flatMap_nil]

namespace Reader

namespace Listens

variable {cancelAt endsAt now last : Nat} {ending : Ending} {r : Reader} {segments : List Segment}
  {outcome : Outcome}

/-- While the first segment is to come nothing is told. -/
theorem upTo_of_late {segment : Segment} {rest : List Segment}
    (hlistens : Listens cancelAt ending endsAt now r (segment :: rest) outcome)
    (hlate : last < segment.readyAt) : upTo last outcome.occurrences = [] := by
  have hready : last < max now segment.readyAt := Nat.lt_of_lt_of_le hlate (Nat.le_max_right ..)
  refine upTo_eq_nil ?_
  cases hlistens with
  | late => exact List.forall_mem_nil _
  | broken => exact fun entry hentry => fst_of_mem_toldAt hentry ▸ hready
  | consumed _ _ hlater =>
    refine List.forall_mem_append.mpr ⟨List.forall_mem_append.mpr ⟨?_, ?_⟩, ?_⟩
    · exact fun entry hentry => fst_of_mem_toldAt hentry ▸ hready
    · exact List.forall_mem_singleton.mpr hready
    · exact fun entry hentry => Nat.lt_of_lt_of_le hready (hlater.now_le_of_mem entry hentry)

/-- What is told of a stream up to some time is what the bytes delivered by then tell,
    whatever comes later. -/
theorem signals_upTo (hlistens : Listens cancelAt ending endsAt now r segments outcome)
    (hnow : now < cancelAt) (hlast : now ≤ last) :
    signals (upTo last outcome.occurrences) =
      (r.takeAll (Source.deliveredBy ⟨segments, ending, endsAt⟩ cancelAt last)).signals := by
  induction hlistens with
  | endless => rfl
  | @ended now =>
    obtain hended | hended := upTo_singleton last (max now endsAt, .ended)
    · rw [hended]
      rfl
    · rw [hended]
      rfl
  | late hlate =>
    rw [deliveredBy_cons_of_late (.inl (by omega))]
    rfl
  | @broken now r segment rest fault left hready hfault =>
    by_cases hdelivered : segment.readyAt ≤ last
    · rw [deliveredBy_cons_of_ready (by omega) hdelivered, takeAll_append,
        upTo_toldAt (Nat.max_le.mpr ⟨hlast, hdelivered⟩), signals_toldAt]
      simp [Intake.leaving, hfault]
    · have hlate := Nat.lt_of_not_le hdelivered
      rw [deliveredBy_cons_of_late (.inr hlate), (Listens.broken hready hfault).upTo_of_late hlate]
      rfl
  | @consumed now r segment rest later hready hfault hlater ih =>
    by_cases hdelivered : segment.readyAt ≤ last
    · have htime : max now segment.readyAt ≤ last := Nat.max_le.mpr ⟨hlast, hdelivered⟩
      have hconsumed : upTo last [(max now segment.readyAt, Occurrence.consumed segment.index)] =
        [(max now segment.readyAt, .consumed segment.index)] :=
          upTo_eq_self (List.forall_mem_singleton.mpr htime)
      rw [deliveredBy_cons_of_ready (by omega) hdelivered, takeAll_append, Outcome.after, upTo_append,
        upTo_append, upTo_toldAt htime, hconsumed]
      simp [Intake.after, hfault, ih hready htime]
    · have hlate := Nat.lt_of_not_le hdelivered
      rw [deliveredBy_cons_of_late (.inr hlate),
        (Listens.consumed hready hfault hlater).upTo_of_late hlate]
      rfl

end Listens

/-- The bytes delivered by some time tell the frames that a run told until then. -/
theorem framesAmong_upTo_run {cancelAt now last : Nat} (hnow : now < cancelAt) (hlast : now ≤ last)
    (r : Reader) (source : Source) :
    framesAmong (signals (upTo last (r.run cancelAt now source).occurrences)) =
      framesAmong (r.restart.takeAll (source.deliveredBy cancelAt last)).signals := by
  have hlistens := listens_source cancelAt now r source
  have hphase : ∀ (time : Nat) (phase : Phase),
      framesAmong (signals (upTo last [(time, .told (.entered phase))])) = [] := by
    intro time phase
    obtain hentered | hentered := upTo_singleton last (time, .told (.entered phase))
    · rw [hentered]
      rfl
    · rw [hentered]
      rfl
  rw [run, ← List.singleton_append, upTo_append, upTo_append, signals_append, signals_append,
    framesAmong_append, framesAmong_append, hphase, hphase, hlistens.signals_upTo hnow hlast,
    List.nil_append, List.append_nil]

/-- When a run enters monitoring, a complete list of ports has been delivered. -/
theorem exists_opens_of_mem_run {cancelAt now time : Nat} (hnow : now < cancelAt) {r : Reader}
    {source : Source}
    (hentered : (time, .told (.entered .monitoring)) ∈ (r.run cancelAt now source).occurrences) :
    ∃ before digit names, Opens before digit names ∧
      before ++ portList digit names <+: source.deliveredBy cancelAt time := by
  have htime : now ≤ time := now_le_of_mem_run hentered
  have hlistens := listens_source cancelAt now r source
  rw [← entered_monitoring_iff r.fresh_restart rfl rfl, ← hlistens.signals_upTo hnow htime]
  simp only [run, List.mem_cons, List.mem_append, Prod.mk.injEq, Occurrence.told.injEq,
    Signal.entered.injEq, reduceCtorEq, and_false, false_or, List.not_mem_nil, or_false] at hentered
  refine List.mem_filterMap.mpr ⟨_, List.mem_filter.mpr ⟨hentered, ?_⟩, rfl⟩
  exact decide_eq_true (Nat.le_refl time)

end Reader

end PacketMonitor.Stream

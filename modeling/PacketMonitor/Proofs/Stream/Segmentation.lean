import PacketMonitor.Proofs.Stream.Intake
import PacketMonitor.Stream.Run

namespace PacketMonitor.Stream

/-- Whether a run that begins now still waits for what happens at a later time when
    cancellation fires. -/
def inTime (cancelAt now time : Nat) : Bool := max now time < cancelAt

/-- The bytes that a run begun now can read before cancellation, as one stream. -/
def Source.heard (source : Source) (cancelAt now : Nat) : List UInt8 :=
  (source.segments.takeWhile fun segment => inTime cancelAt now segment.readyAt).flatMap (·.bytes)

/-- How the stream ends for a run begun now. If cancellation comes before the end,
    there is only silence after the last byte heard. -/
def Source.closing (source : Source) (cancelAt now : Nat) : Ending :=
  if source.segments.all (fun segment => inTime cancelAt now segment.readyAt) ∧
      inTime cancelAt now source.endsAt then source.ending
  else .silence

/-- Silence lasts until cancellation. -/
def Ending.fault (phase : Phase) (ending : Ending) : Fault :=
  (ending.fault? phase).getD .cancelled

/-- The signals among some occurrences. -/
def signals (occurrences : List (Nat × Occurrence)) : List Signal :=
  occurrences.filterMap fun
    | (_, .told signal) => some signal
    | _ => none

@[simp] theorem signals_nil : signals [] = [] := rfl

@[simp] theorem signals_cons_told (time : Nat) (signal : Signal) (rest : List (Nat × Occurrence)) :
    signals ((time, .told signal) :: rest) = signal :: signals rest := rfl

@[simp] theorem signals_cons_consumed (time segment : Nat) (rest : List (Nat × Occurrence)) :
    signals ((time, .consumed segment) :: rest) = signals rest := rfl

@[simp] theorem signals_cons_ended (time : Nat) (rest : List (Nat × Occurrence)) :
    signals ((time, .ended) :: rest) = signals rest := rfl

@[simp] theorem signals_append (early late : List (Nat × Occurrence)) :
    signals (early ++ late) = signals early ++ signals late := by
  simp [signals]

/-- Waiting for one thing in time does not make another one late. -/
theorem inTime_max {cancelAt now time : Nat} (hready : inTime cancelAt now time = true) (later : Nat) :
    inTime cancelAt (max now time) later = inTime cancelAt now later := by
  simp only [inTime, decide_eq_true_eq, decide_eq_decide] at hready ⊢
  omega

theorem heard_cons_of_inTime {cancelAt now : Nat} {segment : Segment}
    (hready : inTime cancelAt now segment.readyAt = true) (rest : List Segment) (ending : Ending)
    (endsAt : Nat) :
    Source.heard ⟨segment :: rest, ending, endsAt⟩ cancelAt now =
      segment.bytes ++ Source.heard ⟨rest, ending, endsAt⟩ cancelAt (max now segment.readyAt) := by
  simp [Source.heard, hready, inTime_max hready]

theorem closing_cons_of_inTime {cancelAt now : Nat} {segment : Segment}
    (hready : inTime cancelAt now segment.readyAt = true) (rest : List Segment) (ending : Ending)
    (endsAt : Nat) :
    Source.closing ⟨segment :: rest, ending, endsAt⟩ cancelAt now =
      Source.closing ⟨rest, ending, endsAt⟩ cancelAt (max now segment.readyAt) := by
  simp [Source.closing, hready, inTime_max hready]

/-- Some signals that are told at one time. -/
def toldAt (time : Nat) (told : List Signal) : List (Nat × Occurrence) :=
  told.map fun signal => (time, .told signal)

@[simp] theorem signals_toldAt (time : Nat) (told : List Signal) : signals (toldAt time told) = told := by
  rw [signals, toldAt, List.filterMap_map]
  exact List.filterMap_some

theorem fst_of_mem_toldAt {time : Nat} {told : List Signal} {entry : Nat × Occurrence}
    (hentry : entry ∈ toldAt time told) : entry.1 = time := by
  obtain ⟨signal, -, rfl⟩ := List.mem_map.mp hentry
  rfl

namespace Reader

/-- All that can come of reading from a time on: the end of the stream is heard, or a segment
    is taken, which either breaks off reading or is followed by what comes of the others. If
    cancellation fires first, neither is read any more. -/
inductive Listens (cancelAt : Nat) (ending : Ending) (endsAt : Nat) :
    Nat → Reader → List Segment → Outcome → Prop where
  | endless {now : Nat} {r : Reader}
    (hlate : ∀ fault, ending.fault? r.phase = some fault → cancelAt ≤ max now endsAt) :
    Listens cancelAt ending endsAt now r []
      ⟨r, ⟨[], ending, endsAt⟩, [], .cancelled, max now cancelAt⟩
  | ended {now : Nat} {r : Reader} {fault : Fault} (hready : max now endsAt < cancelAt)
    (hfault : ending.fault? r.phase = some fault) :
    Listens cancelAt ending endsAt now r []
      ⟨r, ⟨[], ending, endsAt⟩, [(max now endsAt, .ended)], fault, max now endsAt⟩
  | late {now : Nat} {r : Reader} {segment : Segment} {rest : List Segment}
    (hlate : cancelAt ≤ max now segment.readyAt) :
    Listens cancelAt ending endsAt now r (segment :: rest)
      ⟨r, ⟨segment :: rest, ending, endsAt⟩, [], .cancelled, max now cancelAt⟩
  | broken {now : Nat} {r : Reader} {segment : Segment} {rest : List Segment} {fault : Fault}
    {left : List UInt8} (hready : max now segment.readyAt < cancelAt)
    (hfault : (r.takeAll segment.bytes).fault = some (fault, left)) :
    Listens cancelAt ending endsAt now r (segment :: rest)
      ⟨(r.takeAll segment.bytes).reader, ⟨{ segment with bytes := left } :: rest, ending, endsAt⟩,
        toldAt (max now segment.readyAt) (r.takeAll segment.bytes).signals, fault,
        max now segment.readyAt⟩
  | consumed {now : Nat} {r : Reader} {segment : Segment} {rest : List Segment} {later : Outcome}
    (hready : max now segment.readyAt < cancelAt) (hfault : (r.takeAll segment.bytes).fault = none)
    (hlater : Listens cancelAt ending endsAt (max now segment.readyAt)
      (r.takeAll segment.bytes).reader rest later) :
    Listens cancelAt ending endsAt now r (segment :: rest)
      (later.after (toldAt (max now segment.readyAt) (r.takeAll segment.bytes).signals ++
        [(max now segment.readyAt, .consumed segment.index)]))

theorem listens (cancelAt : Nat) (ending : Ending) (endsAt now : Nat) (r : Reader)
    (segments : List Segment) : Listens cancelAt ending endsAt now r segments
      (readFrom cancelAt ending endsAt now r segments) := by
  induction segments generalizing now r with
  | nil =>
    rw [readFrom]
    cases hfault : ending.fault? r.phase with
    | none => exact .endless fun fault hsome => nomatch hfault.symm.trans hsome
    | some fault =>
      simp only
      split
      · rename_i hlate
        exact .endless fun _ _ => hlate
      · rename_i hready
        exact .ended (Nat.lt_of_not_le hready) hfault
  | cons segment rest ih =>
    rw [readFrom]
    split
    · rename_i hlate
      exact .late hlate
    · rename_i hready
      cases hfault : (r.takeAll segment.bytes).fault with
      | some entry =>
        simp only [hfault]
        exact .broken (Nat.lt_of_not_le hready) hfault
      | none =>
        simp only [hfault]
        exact .consumed (Nat.lt_of_not_le hready) hfault (ih ..)

theorem listens_source (cancelAt now : Nat) (r : Reader) (source : Source) :
    Listens cancelAt source.ending source.endsAt now r.restart source.segments
      (readFrom cancelAt source.ending source.endsAt now r.restart source.segments) :=
  listens ..

section Listens

variable {cancelAt endsAt now : Nat} {ending : Ending} {r : Reader} {segments : List Segment}
  {outcome : Outcome}

/-- Reading segment by segment is the same as taking the bytes heard at once. Where
    one segment ends and the next begins makes no difference. -/
theorem Listens.eq_takeAll (hlistens : Listens cancelAt ending endsAt now r segments outcome) :
    let source : Source := ⟨segments, ending, endsAt⟩
    let intake := r.takeAll (source.heard cancelAt now)
    signals outcome.occurrences = intake.signals ∧ outcome.reader = intake.reader ∧
      outcome.fault = (intake.fault.map (·.1)).getD
        ((source.closing cancelAt now).fault intake.reader.phase) := by
  induction hlistens with
  | @endless now r hlate =>
    have hsilent : (Source.closing ⟨[], ending, endsAt⟩ cancelAt now).fault r.phase = .cancelled := by
      rw [Source.closing]
      split
      · rename_i hclosed
        have hready : max now endsAt < cancelAt := of_decide_eq_true hclosed.2
        cases hfault : ending.fault? r.phase with
        | none => simp [Ending.fault, hfault]
        | some fault => exact absurd hready (Nat.not_lt.mpr (hlate fault hfault))
      · rfl
    exact ⟨rfl, rfl, hsilent.symm⟩
  | @ended now r fault hready hfault =>
    have hclosing : Source.closing ⟨[], ending, endsAt⟩ cancelAt now = ending :=
      if_pos ⟨rfl, decide_eq_true hready⟩
    exact ⟨rfl, rfl, by simp [Source.heard, hclosing, Ending.fault, hfault]⟩
  | @late now r segment rest hlate =>
    have hready : inTime cancelAt now segment.readyAt = false :=
      decide_eq_false (Nat.not_lt.mpr hlate)
    simp [Source.heard, Source.closing, hready, Ending.fault, Ending.fault?]
  | broken hready hfault =>
    simp only [heard_cons_of_inTime (decide_eq_true hready), takeAll_append, signals_toldAt]
    simp [Intake.leaving, hfault]
  | consumed hready hfault _ ih =>
    obtain ⟨hsignals, hreader, hover⟩ := ih
    simp only [heard_cons_of_inTime (decide_eq_true hready),
      closing_cons_of_inTime (decide_eq_true hready), takeAll_append]
    simp [Outcome.after, Intake.after, hfault, hsignals, hreader, hover]

end Listens

/-- What a run tells, where it leaves the reader and why it ends depends on the
    bytes heard and on how the stream ends, and on nothing else. -/
theorem run_eq_takeAll (cancelAt now : Nat) (r : Reader) (source : Source) :
    let intake := r.restart.takeAll (source.heard cancelAt now)
    let outcome := r.run cancelAt now source
    signals outcome.occurrences = .entered .connecting :: (intake.signals ++ [.entered .failed]) ∧
      outcome.reader = { intake.reader with phase := .failed } ∧
      outcome.fault = (intake.fault.map (·.1)).getD
        ((source.closing cancelAt now).fault intake.reader.phase) := by
  obtain ⟨hsignals, hreader, hfault⟩ :=
    (listens_source cancelAt now r source).eq_takeAll
  simp [run, hsignals, hreader, hfault]

end Reader

end PacketMonitor.Stream

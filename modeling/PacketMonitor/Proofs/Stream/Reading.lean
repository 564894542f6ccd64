import PacketMonitor.Proofs.Stream.Arrival
import PacketMonitor.Stream.Archive
import PacketMonitor.Stream.Report

namespace PacketMonitor.Stream

/-- The number of frames among some occurrences. -/
def frameCount (occurrences : List (Nat × Occurrence)) : Nat :=
  (framesAmong (signals occurrences)).length

@[simp] theorem frameCount_nil : frameCount [] = 0 := rfl

@[simp] theorem frameCount_cons_frame (time : Nat) (raw : List UInt8) (rest : List (Nat × Occurrence)) :
    frameCount ((time, .told (.frame raw)) :: rest) = frameCount rest + 1 := rfl

theorem frameCount_cons_of_ne {first : Nat × Occurrence}
    (hother : ∀ raw, first.2 ≠ .told (.frame raw)) (rest : List (Nat × Occurrence)) :
    frameCount (first :: rest) = frameCount rest := by
  obtain ⟨time, occurrence⟩ := first
  cases occurrence with
  | told signal =>
    cases signal with
    | entered phase => rfl
    | frame raw => exact absurd rfl (hother raw)
  | consumed segment => rfl
  | ended => rfl

/-- The phases at the beginning and at the end bring no frames. -/
theorem framesAmong_enclosed (first last : Nat) (early late : Phase) (kept : List (Nat × Occurrence)) :
    framesAmong (signals ((first, .told (.entered early)) ::
      (kept ++ [(last, .told (.entered late))]))) = framesAmong (signals kept) := by
  rw [signals_cons_told, signals_append]
  simp [framesAmong]

/-- What is found of some occurrences before one of their frames. -/
inductive Found (count : Nat) (occurrences : List (Nat × Occurrence)) :
    Option (List (Nat × Occurrence) × Nat) → Prop where
  | all (hcount : frameCount occurrences ≤ count) : Found count occurrences none
  | cut {kept rest : List (Nat × Occurrence)} {stop : Nat} {raw : List UInt8}
    (hcount : frameCount kept = count)
    (hsplit : occurrences = kept ++ (stop, .told (.frame raw)) :: rest) :
    Found count occurrences (some (kept, stop))

theorem found (count : Nat) (occurrences : List (Nat × Occurrence)) :
    Found count occurrences (beforeFrame? count occurrences) := by
  fun_induction beforeFrame? count occurrences with
  | case1 count => exact .all (Nat.zero_le count)
  | case2 time raw rest => exact .cut rfl (List.nil_append _).symm
  | case3 count time raw rest ih =>
    generalize beforeFrame? count rest = result at ih
    cases ih with
    | all hcount => exact .all (Nat.succ_le_succ hcount)
    | cut hcount hsplit => exact .cut (congrArg (· + 1) hcount) (congrArg (_ :: ·) hsplit)
  | case4 count first rest hzero hsucc ih =>
    have hother : ∀ raw, first.2 ≠ .told (.frame raw) := by
      intro raw hframe
      cases count with
      | zero => exact hzero first.1 raw rfl (Prod.ext rfl hframe)
      | succ count => exact hsucc count first.1 raw rfl (Prod.ext rfl hframe)
    generalize beforeFrame? count rest = result at ih
    cases ih with
    | all hcount => exact .all ((frameCount_cons_of_ne hother rest).symm ▸ hcount)
    | cut hcount hsplit =>
      exact .cut ((frameCount_cons_of_ne hother _).trans hcount) (congrArg (_ :: ·) hsplit)

/-- The frames that an archive takes. -/
def Archive.taken (archive : Archive) (frames : List (List UInt8)) : List (List UInt8) :=
  match archive.failure with
  | none => frames
  | some (count, _) => frames.take count

/-- What a fresh run publishes on some bytes that come at once and are all there is, as far
    as its archive takes the frames. -/
def eventsOn (color : RouteColor) (archive : Archive) (bytes : List UInt8) : List Event :=
  let reading := (({} : Reader).run 1 0 ⟨[⟨0, 0, bytes⟩], .close, 0⟩).archivedBy archive
  published color (frames (reading.occurrences.map (·.2)))

namespace Reader

section Told

variable (cancelAt now : Nat) (r : Reader) (source : Source)

/-- What a run tells between its first phase and its last. -/
def told : List (Nat × Occurrence) :=
  (readFrom cancelAt source.ending source.endsAt now r.restart source.segments).occurrences

theorem occurrences_run : (r.run cancelAt now source).occurrences =
    (now, .told (.entered .connecting)) ::
      (told cancelAt now r source ++
        [((r.run cancelAt now source).time, .told (.entered .failed))]) := rfl

theorem now_le_of_mem_told {entry : Nat × Occurrence} (hentry : entry ∈ told cancelAt now r source) :
    now ≤ entry.1 :=
  (listens_source cancelAt now r source).now_le_of_mem entry hentry

theorem pairwise_told : (told cancelAt now r source).Pairwise (·.1 ≤ ·.1) :=
  (listens_source cancelAt now r source).pairwise

/-- What a session sees of a run: all of it, or what comes before a frame that its archive
    refuses. -/
inductive Reads (archive : Archive) : Reading → Prop where
  | whole
    (hroom : ∀ count message, archive.failure = some (count, message) →
      frameCount (told cancelAt now r source) ≤ count) :
    Reads archive ⟨(r.run cancelAt now source).occurrences, (r.run cancelAt now source).fault,
      (r.run cancelAt now source).time⟩
  | refused {count stop : Nat} {message : String} {raw : List UInt8}
    {kept rest : List (Nat × Occurrence)} (hfailure : archive.failure = some (count, message))
    (hcount : frameCount kept = count)
    (hsplit : told cancelAt now r source = kept ++ (stop, .told (.frame raw)) :: rest) :
    Reads archive
      ⟨(now, .told (.entered .connecting)) :: (kept ++ [(stop, .told (.entered .failed))]),
        .archive message, stop⟩

theorem frameCount_run :
    frameCount (r.run cancelAt now source).occurrences = frameCount (told cancelAt now r source) := by
  rw [occurrences_run, frameCount, framesAmong_enclosed, frameCount]

/-- A frame is neither the first occurrence of a run nor the last one. -/
theorem exists_told_eq_append {stop : Nat} {raw : List UInt8} {kept rest : List (Nat × Occurrence)}
    (hsplit : (r.run cancelAt now source).occurrences = kept ++ (stop, .told (.frame raw)) :: rest) :
    ∃ early late, kept = (now, .told (.entered .connecting)) :: early ∧
      told cancelAt now r source = early ++ (stop, .told (.frame raw)) :: late := by
  rw [occurrences_run] at hsplit
  cases kept with
  | nil => cases hsplit
  | cons first early =>
    rw [List.cons_append, List.cons.injEq] at hsplit
    obtain ⟨rfl, hbehind⟩ := hsplit
    obtain rfl | ⟨late, last, rfl⟩ := rest.eq_nil_or_concat
    · obtain ⟨-, hlast⟩ := List.append_singleton_inj.mp hbehind
      cases hlast
    · rw [List.concat_eq_append, ← List.cons_append, ← List.append_assoc,
        List.append_singleton_inj] at hbehind
      exact ⟨early, late, rfl, hbehind.1⟩

theorem reads (archive : Archive) :
    Reads cancelAt now r source archive ((r.run cancelAt now source).archivedBy archive) := by
  rw [Outcome.archivedBy, Archive.refused?]
  cases hfailure : archive.failure with
  | none =>
    refine .whole fun count message hsome => ?_
    cases hfailure.symm.trans hsome
  | some refusal =>
    obtain ⟨count, message⟩ := refusal
    simp only [Option.bind_some]
    have hfound := found count (r.run cancelAt now source).occurrences
    generalize beforeFrame? count (r.run cancelAt now source).occurrences = result at hfound ⊢
    cases hfound with
    | all hcount =>
      refine .whole fun count' message' hsome => ?_
      cases hfailure.symm.trans hsome
      exact frameCount_run cancelAt now r source ▸ hcount
    | cut hcount hsplit =>
      obtain ⟨early, late, rfl, htold⟩ := exists_told_eq_append cancelAt now r source hsplit
      exact .refused hfailure hcount htold

end Told

section Reads

variable {cancelAt now : Nat} {r : Reader} {source : Source} {archive : Archive} {reading : Reading}

/-- What comes between the first phase and the last one is told by the stream, and it is over
    when reading is. -/
theorem Reads.exists_kept (hreads : Reads cancelAt now r source archive reading) :
    ∃ kept, reading.occurrences = (now, .told (.entered .connecting)) ::
        (kept ++ [(reading.time, .told (.entered .failed))]) ∧
      kept <+: told cancelAt now r source ∧ now ≤ reading.time ∧
      ∀ entry ∈ kept, entry.1 ≤ reading.time := by
  obtain ⟨hnow, htimes, -⟩ := (listens_source cancelAt now r source).timing
  cases hreads with
  | whole => exact ⟨_, rfl, List.prefix_rfl, hnow, htimes⟩
  | @refused _ stop _ raw kept rest _ _ hsplit =>
    have hstop : (stop, .told (.frame raw)) ∈ told cancelAt now r source := hsplit ▸ by simp
    have hsorted := pairwise_told cancelAt now r source
    rw [hsplit] at hsorted
    obtain ⟨-, -, hbefore⟩ := List.pairwise_append.mp hsorted
    exact ⟨kept, rfl, ⟨_, hsplit.symm⟩, now_le_of_mem_told cancelAt now r source hstop,
      fun entry hentry => hbefore entry hentry _ (List.mem_cons_self ..)⟩

/-- Reading takes no time back, and only cancellation counts as such. -/
theorem Reads.timing (hreads : Reads cancelAt now r source archive reading) :
    now ≤ reading.time ∧ (∀ entry ∈ reading.occurrences, now ≤ entry.1 ∧ entry.1 ≤ reading.time) ∧
      (reading.fault = .cancelled → cancelAt ≤ reading.time) := by
  obtain ⟨kept, hoccurrences, hfront, hnow, htimes⟩ := hreads.exists_kept
  refine ⟨hnow, ?_, ?_⟩
  · rw [hoccurrences]
    refine List.forall_mem_cons.mpr ⟨⟨Nat.le_refl _, hnow⟩, List.forall_mem_append.mpr
      ⟨fun entry hentry => ⟨?_, htimes entry hentry⟩, ?_⟩⟩
    · exact now_le_of_mem_told cancelAt now r source (hfront.subset hentry)
    · exact List.forall_mem_singleton.mpr ⟨hnow, Nat.le_refl _⟩
  · cases hreads with
    | whole => exact (listens_source cancelAt now r source).timing.2.2
    | refused => exact fun hcancelled => nomatch hcancelled

/-- Cancellation ends reading at once, and no frame is told from then on. -/
theorem Reads.before_cancellation (hreads : Reads cancelAt now r source archive reading)
    (hnow : now < cancelAt) :
    reading.time ≤ cancelAt ∧
      ∀ time raw, (time, .told (.frame raw)) ∈ reading.occurrences → time < cancelAt := by
  obtain ⟨hover, htimes⟩ := (listens_source cancelAt now r source).before_cancellation hnow
  constructor
  · cases hreads with
    | whole => exact hover
    | @refused _ stop _ raw kept rest _ _ hsplit =>
      have hstop : (stop, .told (.frame raw)) ∈ told cancelAt now r source := hsplit ▸ by simp
      exact Nat.le_of_lt (htimes _ hstop)
  · obtain ⟨kept, hoccurrences, hfront, -⟩ := hreads.exists_kept
    intro time raw hframe
    rw [hoccurrences] at hframe
    have hkept : (time, .told (.frame raw)) ∈ kept := by simpa using hframe
    exact htimes _ (hfront.subset hkept)

/-- The bytes delivered by the time at which reading is over tell the frames that the archive
    takes, whatever else is delivered by then. -/
theorem Reads.framesAmong_eq (hreads : Reads cancelAt now r source archive reading)
    (hnow : now < cancelAt) {last : Nat} (hlast : reading.time ≤ last) :
    framesAmong (signals reading.occurrences) =
      archive.taken (framesAmong (r.restart.takeAll (source.deliveredBy cancelAt last)).signals) := by
  obtain ⟨hbegun, htimes, -⟩ := hreads.timing
  rw [← framesAmong_upTo_run hnow (Nat.le_trans hbegun hlast), Archive.taken]
  cases hreads with
  | whole hroom =>
    rw [upTo_eq_self fun entry hentry => Nat.le_trans (htimes entry hentry).2 hlast]
    split
    · rfl
    · rename_i count message hfailure
      refine (List.take_of_length_le ?_).symm
      exact (frameCount_run cancelAt now r source).trans_le (hroom count message hfailure)
  | @refused count stop message raw kept rest hfailure hcount hsplit =>
    let early : List (Nat × Occurrence) := (now, .told (.entered .connecting)) :: kept
    have hearly : upTo last early = early := by
      refine upTo_eq_self fun entry hentry => Nat.le_trans (htimes entry ?_).2 hlast
      exact List.mem_append_left [(stop, .told (.entered .failed))] hentry
    have hframe : ∀ late, upTo last ((stop, .told (.frame raw)) :: late) =
        (stop, .told (.frame raw)) :: upTo last late := fun late =>
      List.filter_cons_of_pos (decide_eq_true hlast)
    have hrun : (r.run cancelAt now source).occurrences = early ++ (stop, .told (.frame raw)) ::
        (rest ++ [((r.run cancelAt now source).time, .told (.entered .failed))]) := by
      rw [occurrences_run, hsplit, List.append_assoc]
      rfl
    have hkept : framesAmong (signals early) = framesAmong (signals kept) := rfl
    rw [framesAmong_enclosed, hrun, upTo_append, hearly, hframe, hfailure, signals_append,
      framesAmong_append, hkept, ← hcount]
    exact List.take_left.symm

end Reads

theorem eventsOn_eq (color : RouteColor) (archive : Archive) (bytes : List UInt8) :
    eventsOn color archive bytes =
      published color (archive.taken (framesAmong (({} : Reader).takeAll bytes).signals)) := by
  have hreads := reads 1 0 {} ⟨[⟨0, 0, bytes⟩], .close, 0⟩ archive
  obtain ⟨hover, -⟩ := hreads.before_cancellation Nat.one_pos
  have hall : Source.deliveredBy ⟨[⟨0, 0, bytes⟩], .close, 0⟩ 1 1 = bytes := by
    simp [Source.deliveredBy]
  rw [eventsOn, frames_map_snd, hreads.framesAmong_eq Nat.one_pos hover, hall]
  rfl

/-- A fresh session publishes what a fresh run with its archive publishes on the bytes that
    came before it was over, whenever they came and whatever came later. -/
theorem published_reading_eq_eventsOn (color : RouteColor) {cancelAt now last : Nat}
    (hnow : now < cancelAt) (source : Source) (archive : Archive)
    (hlast : ((({} : Reader).run cancelAt now source).archivedBy archive).time ≤ last) :
    published color (framesAmong (signals
        ((({} : Reader).run cancelAt now source).archivedBy archive).occurrences)) =
      eventsOn color archive (source.deliveredBy cancelAt last) := by
  rw [eventsOn_eq, (reads cancelAt now {} source archive).framesAmong_eq hnow hlast]
  rfl

end Reader

end PacketMonitor.Stream

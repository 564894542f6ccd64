import PacketMonitor.Proofs.Stream.Phases
import PacketMonitor.Proofs.Stream.Segmentation

namespace PacketMonitor.Stream

/-- Cuts bytes behind each terminator. The second part is what is left when they end
    or when a terminator does not come within the limit. -/
def splitFrames (bytes : List UInt8) : List (List UInt8) × List UInt8 :=
  let body := bytes.takeWhile (· ≠ Frame.terminator)
  if body.length < min maxChunk bytes.length then
    let rest := splitFrames (bytes.drop (body.length + 1))
    ((body ++ [Frame.terminator]) :: rest.1, rest.2)
  else ([], bytes)
termination_by bytes.length
decreasing_by
  simp only [List.length_drop]
  omega

theorem splitFrames_whole {body : List UInt8} (hbody : Frame.terminator ∉ body)
    (hroom : body.length < maxChunk) (rest : List UInt8) :
    splitFrames (body ++ Frame.terminator :: rest) =
      ((body ++ [Frame.terminator]) :: (splitFrames rest).1, (splitFrames rest).2) := by
  have hwhile : (body ++ Frame.terminator :: rest).takeWhile (· ≠ Frame.terminator) = body := by
    rw [takeWhile_append_of_not_mem hbody]
    simp
  rw [splitFrames, hwhile, if_pos (by simp only [List.length_append, List.length_cons]; omega)]
  simp

theorem splitFrames_lacking {bytes : List UInt8} (hlacks : Lacks Frame.terminator bytes) :
    splitFrames bytes = ([], bytes) := by
  have hwhile := takeWhile_append_of_not_mem hlacks (bytes.drop maxChunk)
  rw [List.take_append_drop] at hwhile
  rw [splitFrames, hwhile, if_neg]
  simp only [List.length_append, List.length_take]
  omega

/-- The frames of a stream and its tail are the only way to cut it into pieces that
    end with their first terminator, each within the limit, and a tail whose first
    bytes up to the limit hold none. -/
theorem splitFrames_eq_iff {bytes tail : List UInt8} {frames : List (List UInt8)} :
    splitFrames bytes = (frames, tail) ↔
      bytes = frames.flatten ++ tail ∧
        (∀ frame ∈ frames, ∃ body, frame = body ++ [Frame.terminator] ∧ Frame.terminator ∉ body ∧
          body.length < maxChunk) ∧
        Lacks Frame.terminator tail := by
  constructor
  · intro hsplit
    induction hlength : bytes.length using Nat.strongRecOn generalizing bytes frames with
    | ind length ih =>
      cases cut Frame.terminator bytes with
      | whole body rest hbody hroom =>
        rw [splitFrames_whole hbody hroom] at hsplit
        cases hsplit
        obtain ⟨hrest, hframes, htail⟩ := ih rest.length
          (by simp only [← hlength, List.length_append, List.length_cons]; omega) rfl rfl
        refine ⟨?_, ?_, htail⟩
        · rw [List.flatten_cons, List.append_assoc, List.append_assoc, ← hrest]
          rfl
        · rintro frame (_ | ⟨_, hframe⟩)
          · exact ⟨body, rfl, hbody, hroom⟩
          · exact hframes frame hframe
      | lacking _ hlacks =>
        rw [splitFrames_lacking hlacks] at hsplit
        cases hsplit
        exact ⟨rfl, by simp, hlacks⟩
  · rintro ⟨rfl, hframes, htail⟩
    induction frames with
    | nil => exact splitFrames_lacking htail
    | cons frame frames ih =>
      obtain ⟨body, rfl, hbody, hroom⟩ := hframes frame (List.mem_cons_self ..)
      have hrest := ih fun frame hframe => hframes frame (List.mem_cons_of_mem _ hframe)
      have hjoin : ((body ++ [Frame.terminator]) :: frames).flatten ++ tail =
          body ++ Frame.terminator :: (frames.flatten ++ tail) := by simp
      rw [hjoin, splitFrames_whole hbody hroom, hrest]

namespace Reader

/-- While frames are received the reader tells the frames of the stream, one for one,
    and faults exactly where the limit is reached without a terminator. -/
theorem takeAll_monitoring {r : Reader} (hfresh : r.Fresh) (hphase : r.phase = .monitoring)
    (bytes : List UInt8) :
    (r.takeAll bytes).signals = (splitFrames bytes).1.map .frame ∧
      (r.takeAll bytes).reader.phase = .monitoring ∧
      (r.takeAll bytes).reader.ports = r.ports ∧
      (r.takeAll bytes).fault.map (·.1) =
        if maxChunk ≤ (splitFrames bytes).2.length then some (overlong Frame.terminator .monitoring)
        else none := by
  have hdelimiter : r.phase.delimiter = Frame.terminator := congrArg Phase.delimiter hphase
  induction hlength : bytes.length using Nat.strongRecOn generalizing bytes with
  | ind length ih =>
    cases cut Frame.terminator bytes with
    | whole body rest hbody hroom =>
      have hchunk : r.takeChunk (body ++ [Frame.terminator]) =
          .ok (r, [.frame (body ++ [Frame.terminator])]) := by
        simp only [takeChunk, hphase]
      obtain ⟨hsignals, hlast, hports, hfault⟩ := ih rest.length
        (by simp only [← hlength, List.length_append, List.length_cons]; omega) rest rfl
      rw [takeAll_whole_ok hfresh hdelimiter hbody hroom hchunk, splitFrames_whole hbody hroom]
      exact ⟨by simp [Intake.after, hsignals], hlast, hports, hfault⟩
    | lacking _ hlacks =>
      obtain ⟨hsignals, hlast, hports, hfault⟩ := takeAll_lacking hfresh (hdelimiter ▸ hlacks)
      rw [hdelimiter, hphase] at hfault
      rw [splitFrames_lacking hlacks]
      exact ⟨hsignals, hlast.trans hphase, hports, hfault⟩

end Reader

/-- The whole frames among some signals. -/
def framesAmong (told : List Signal) : List (List UInt8) :=
  told.filterMap fun
    | .frame raw => some raw
    | _ => none

@[simp] theorem framesAmong_append (early late : List Signal) :
    framesAmong (early ++ late) = framesAmong early ++ framesAmong late := by
  simp [framesAmong]

@[simp] theorem framesAmong_map_frame (frames : List (List UInt8)) :
    framesAmong (frames.map .frame) = frames := by
  rw [framesAmong, List.filterMap_map]
  exact List.filterMap_some

/-- Until monitoring is entered a run tells of no frame. -/
theorem framesAmong_takeWhile_run {told : List Signal} {last : Phase}
    (hpath : Path .connecting told last) :
    framesAmong ((.entered .connecting :: (told ++ [.entered .failed])).takeWhile
      (· ≠ .entered .monitoring)) = [] := by
  obtain ⟨-, rfl⟩ | ⟨-, rfl⟩ | ⟨-, frames, rfl⟩ := hpath.of_connecting
  · rfl
  · rfl
  · rfl

theorem framesAmong_eq_nil {told : List Signal} {last : Phase} (hpath : Path .connecting told last)
    (hentered : .entered .monitoring ∉ told) : framesAmong told = [] := by
  obtain ⟨-, rfl⟩ | ⟨-, rfl⟩ | ⟨-, frames, rfl⟩ := hpath.of_connecting
  · rfl
  · rfl
  · simp at hentered

theorem entered_run_iff {phase : Phase} (hinner : phase = .awaitingPortList ∨ phase = .monitoring)
    (cancelAt now : Nat) (r : Reader) (source : Source) :
    .entered phase ∈ signals (r.run cancelAt now source).occurrences ↔
      .entered phase ∈ (r.restart.takeAll (source.heard cancelAt now)).signals := by
  obtain ⟨hsignals, -, -⟩ := Reader.run_eq_takeAll cancelAt now r source
  rw [hsignals]
  obtain rfl | rfl := hinner
  · simp
  · simp

/-- Where monitoring is entered the frames of the rest begin. -/
theorem signals_takeAll_of_entersAfter {r : Reader} (hphase : r.phase = .connecting)
    {before : List UInt8} (henters : r.EntersAfter .monitoring before) (rest : List UInt8) :
    (r.takeAll (before ++ rest)).signals =
        .entered .awaitingPortList :: .entered .monitoring :: (splitFrames rest).1.map .frame ∧
      (r.takeAll (before ++ rest)).reader.phase = .monitoring ∧
      (r.takeAll (before ++ rest)).fault.map (·.1) =
        if maxChunk ≤ (splitFrames rest).2.length then some (overlong Frame.terminator .monitoring)
        else none := by
  obtain ⟨last, earlier, htaken, hlast, hfresh⟩ := henters.takeAll_eq
  obtain ⟨hsignals, hrest, -, hfault⟩ := Reader.takeAll_monitoring hfresh hlast rest
  have hpath := r.path_takeAll before
  rw [htaken, hphase] at hpath
  change Path .connecting (earlier ++ [.entered .monitoring]) last.phase at hpath
  have hearlier : earlier ++ [Signal.entered .monitoring] =
      [.entered .awaitingPortList, .entered .monitoring] := by
    obtain ⟨-, h⟩ | ⟨-, h⟩ | ⟨-, frames, h⟩ := hpath.of_connecting
    · simp at h
    · have hcount := congrArg (List.count (Signal.entered .monitoring)) h
      simp at hcount
    · obtain rfl | ⟨front, frame, rfl⟩ := List.eq_nil_or_concat frames
      · exact h
      · rw [List.concat_eq_append, List.map_append, ← List.cons_append, ← List.cons_append] at h
        have hframe := (List.append_inj' h rfl).2
        cases hframe
  rw [Reader.takeAll_append_of_fault_eq_none (by rw [htaken]), htaken]
  exact ⟨by simp [Reader.Intake.after, hsignals, hearlier], hrest, hfault⟩

end PacketMonitor.Stream

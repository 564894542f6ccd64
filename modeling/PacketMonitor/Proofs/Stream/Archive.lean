import Mathlib.Data.List.SplitBy
import PacketMonitor.Proofs.Stream.Arrival
import PacketMonitor.Proofs.Stream.Preamble
import PacketMonitor.Stream.Engine

namespace PacketMonitor.Stream

/-- A frame is a terminator that comes in time, with the bytes in front of it. -/
def IsFrame (frame : List UInt8) : Prop :=
  ∃ body, frame = body ++ [Frame.terminator] ∧ Frame.terminator ∉ body ∧ body.length < maxChunk

/-- The frames that a session receives when it hears some bytes. Without a complete list
    of ports there are none. Behind the list frame follows frame, up to a tail in which no
    terminator comes in time. -/
inductive Receives : List UInt8 → List (List UInt8) → Prop where
  | nothing {bytes : List UInt8}
    (hunopened : ∀ before digit names, Opens before digit names →
      ¬ before ++ portList digit names <+: bytes) : Receives bytes []
  | frames {before : List UInt8} {digit : UInt8} {names frames : List (List UInt8)}
    {tail : List UInt8} (hopens : Opens before digit names) (hframes : ∀ frame ∈ frames, IsFrame frame)
    (htail : Lacks Frame.terminator tail) :
    Receives (before ++ portList digit names ++ frames.flatten ++ tail) frames

/-- All bytes of a stream as far as it has not been read. -/
def Source.bytes (source : Source) : List UInt8 :=
  source.segments.flatMap (·.bytes)

/-- The pieces of an archive when it is split behind each terminator. -/
def recovered (archive : List UInt8) : List (List UInt8) :=
  archive.splitBy fun b _ => b != Frame.terminator

theorem Receives.isFrame {bytes : List UInt8} {frames : List (List UInt8)}
    (hreceives : Receives bytes frames) : ∀ frame ∈ frames, IsFrame frame := by
  cases hreceives with
  | nothing => simp
  | frames _ hframes _ => exact hframes

theorem isChain_concat_terminator {body : List UInt8} (hbody : Frame.terminator ∉ body) :
    (body ++ [Frame.terminator]).IsChain fun b _ => (b != Frame.terminator) = true := by
  induction body with
  | nil => exact List.isChain_singleton _
  | cons b body ih =>
    rw [List.mem_cons, not_or] at hbody
    obtain ⟨hb, hrest⟩ := hbody
    refine List.isChain_cons.mpr ⟨fun _ _ => ?_, ih hrest⟩
    rw [bne_iff_ne]
    exact fun heq => hb heq.symm

/-- Splitting gives back the frames that were put together, because a terminator stands at
    the end of each and nowhere else. -/
theorem recovered_flatten {frames : List (List UInt8)} (hframes : ∀ frame ∈ frames, IsFrame frame) :
    recovered frames.flatten = frames := by
  refine List.splitBy_flatten ?_ ?_ ?_
  · intro hmem
    obtain ⟨body, hempty, -⟩ := hframes [] hmem
    exact absurd hempty.symm (by simp)
  · intro frame hframe
    obtain ⟨body, rfl, hbody, -⟩ := hframes frame hframe
    exact isChain_concat_terminator hbody
  · refine (List.pairwise_of_forall_mem_list fun first hfirst next hnext => ?_).isChain
    obtain ⟨body, rfl, -⟩ := hframes first hfirst
    obtain ⟨body', rfl, -⟩ := hframes next hnext
    exact ⟨by simp, by simp, by simp⟩

namespace Reader

/-- The frames told are those that the bytes make a session receive, and there is no
    other way to see them. -/
theorem receives_iff {r : Reader} (hfresh : r.Fresh) (hphase : r.phase = .connecting)
    (hawaited : r.awaited = none) {bytes : List UInt8} {frames : List (List UInt8)} :
    Receives bytes frames ↔ framesAmong (r.takeAll bytes).signals = frames := by
  have hopened : ∀ {before digit names}, Opens before digit names → ∀ rest,
      framesAmong (r.takeAll (before ++ portList digit names ++ rest)).signals =
        (splitFrames rest).1 := by
    intro before digit names hopens rest
    have henters := entersAfter_monitoring hfresh hphase hawaited hopens
    obtain ⟨hsignals, -⟩ := signals_takeAll_of_entersAfter hphase henters rest
    rw [hsignals]
    exact framesAmong_map_frame _
  constructor
  · intro hreceives
    cases hreceives with
    | nothing hunopened =>
      refine framesAmong_eq_nil (hphase ▸ r.path_takeAll bytes) fun hentered => ?_
      obtain ⟨before, digit, names, hopens, hstarts⟩ :=
        (entered_monitoring_iff hfresh hphase hawaited bytes).mp hentered
      exact hunopened before digit names hopens hstarts
    | @frames before digit names _ tail hopens hframes htail =>
      rw [List.append_assoc, hopened hopens, splitFrames_eq_iff.mpr ⟨rfl, hframes, htail⟩]
  · rintro rfl
    by_cases hentered : .entered .monitoring ∈ (r.takeAll bytes).signals
    · obtain ⟨before, digit, names, hopens, rest, rfl⟩ :=
        (entered_monitoring_iff hfresh hphase hawaited bytes).mp hentered
      obtain ⟨hrest, hframes, htail⟩ :=
        splitFrames_eq_iff.mp (Prod.eta (splitFrames rest)).symm
      rw [hopened hopens]
      conv => arg 1; rw [hrest, ← List.append_assoc]
      exact .frames hopens hframes htail
    · rw [framesAmong_eq_nil (hphase ▸ r.path_takeAll bytes) hentered]
      refine .nothing fun before digit names hopens hstarts => hentered ?_
      exact (entered_monitoring_iff hfresh hphase hawaited bytes).mpr
        ⟨before, digit, names, hopens, hstarts⟩

/-- What a fault leaves is the rest behind the bytes that were told of. -/
theorem exists_taken_of_fault {r : Reader} {bytes left : List UInt8} {fault : Fault}
    (hfault : (r.takeAll bytes).fault = some (fault, left)) :
    ∃ taken, bytes = taken ++ left ∧ (r.takeAll taken).signals = (r.takeAll bytes).signals := by
  induction bytes generalizing r with
  | nil => cases hfault
  | cons b rest ih =>
    cases htake : r.takeByte b with
    | error refused =>
      rw [takeAll_cons_error htake] at hfault
      cases hfault
      exact ⟨[b], rfl, by rw [takeAll_cons_error htake, takeAll_cons_error htake]⟩
    | ok taken =>
      rw [takeAll_cons_ok htake] at hfault
      obtain ⟨front, rfl, hfront⟩ := ih hfault
      refine ⟨b :: front, rfl, ?_⟩
      rw [takeAll_cons_ok htake, takeAll_cons_ok htake]
      simp only [Intake.after, hfront]

/-- Reading moves on only: what is left of the stream is behind the bytes that are told of. -/
theorem Listens.exists_read {cancelAt endsAt now : Nat} {ending : Ending} {r : Reader}
    {segments : List Segment} {outcome : Outcome}
    (hlistens : Listens cancelAt ending endsAt now r segments outcome) :
    ∃ read, Source.bytes ⟨segments, ending, endsAt⟩ = read ++ outcome.source.bytes ∧
      signals outcome.occurrences = (r.takeAll read).signals := by
  induction hlistens with
  | endless | ended | late => exact ⟨[], rfl, rfl⟩
  | broken _ hfault =>
    obtain ⟨taken, htaken, hsignals⟩ := exists_taken_of_fault hfault
    refine ⟨taken, ?_, ?_⟩
    · simp [Source.bytes, htaken]
    · rw [signals_toldAt, hsignals]
  | @consumed _ _ segment _ _ _ hfault _ ih =>
    obtain ⟨read, hread, hsignals⟩ := ih
    refine ⟨segment.bytes ++ read, ?_, ?_⟩
    · rw [List.append_assoc]
      exact congrArg (segment.bytes ++ ·) hread
    · rw [takeAll_append_of_fault_eq_none hfault]
      simp [Outcome.after, Intake.after, hsignals]

end Reader

namespace Desk

variable (color : RouteColor) (desk : Desk)

@[simp] theorem hub_take (raw : List UInt8) : (desk.take color raw).hub =
    desk.hub.publishAll (Event.ofFrame color (Frame.clean raw)) := by
  simp only [take, echo, publish, append]

@[simp] theorem archive_take (raw : List UInt8) :
    (desk.take color raw).archive = desk.archive.map (· ++ raw) := by
  simp only [take, echo, publish, append]

@[simp] theorem console_take (raw : List UInt8) :
    (desk.take color raw).console = desk.console.map (· ++ (Frame.clean raw ++ "\n")) := by
  simp only [take, echo, publish, append]

theorem foldl_follow (occurrences : List Occurrence) :
    occurrences.foldl (Desk.follow color) desk = (frames occurrences).foldl (Desk.take color) desk := by
  induction occurrences generalizing desk with
  | nil => rfl
  | cons occurrence rest ih =>
    rw [List.foldl_cons, ih]
    cases occurrence with
    | told signal => cases signal <;> simp [follow, Stream.frames]
    | consumed segment => simp [follow, Stream.frames]
    | ended => simp [follow, Stream.frames]

/-- Whatever frames come, all three places hold the same ones. -/
theorem foldl_take (frames : List (List UInt8)) :
    frames.foldl (Desk.take color) desk =
      ⟨desk.hub.publishAll (published color frames), desk.archive.map (· ++ archived frames),
        desk.console.map (· ++ echoed frames)⟩ := by
  induction frames generalizing desk with
  | nil => cases desk; simp [published, archived, echoed]
  | cons frame frames ih =>
    rw [List.foldl_cons, ih]
    have hhub : (desk.take color frame).hub.publishAll (published color frames) =
        desk.hub.publishAll (published color (frame :: frames)) := by
      rw [hub_take, ← Hub.publishAll_append, published, published, List.flatMap_cons]
    have harchive : (desk.take color frame).archive.map (· ++ archived frames) =
        desk.archive.map (· ++ archived (frame :: frames)) := by
      simp [archived, Function.comp_def]
    have hconsole : (desk.take color frame).console.map (· ++ echoed frames) =
        desk.console.map (· ++ echoed (frame :: frames)) := by
      simp [echoed, Function.comp_def, String.append_assoc]
    rw [hhub, harchive, hconsole]

end Desk

namespace Engine

variable (color : RouteColor) (cancelAt : Nat) (engine : Engine)

/-- The frames of a run. -/
def received : List (List UInt8) :=
  frames ((engine.outcome cancelAt).occurrences.map (·.2))

theorem desk_run : (engine.run color cancelAt).desk =
    (engine.received cancelAt).foldl (Desk.take color) engine.desk :=
  Desk.foldl_follow ..

theorem desk_runs (count : Nat) : (engine.runs color cancelAt count).desk =
    ((List.range count).flatMap fun k => (engine.runs color cancelAt k).received cancelAt).foldl
      (Desk.take color) engine.desk := by
  induction count with
  | zero => rfl
  | succ count ih =>
    rw [runs, desk_run, ih, List.range_succ, List.flatMap_append, List.foldl_append]
    simp

theorem receives_heard :
    Receives (engine.source.heard cancelAt engine.time) (engine.received cancelAt) := by
  refine (Reader.receives_iff engine.reader.fresh_restart rfl rfl).mpr ?_
  rw [received, frames_map_snd]
  exact (framesAmong_run ..).symm

theorem exists_read : ∃ read, engine.source.bytes = read ++ (engine.run color cancelAt).source.bytes ∧
    Receives read (engine.received cancelAt) := by
  obtain ⟨read, hread, hsignals⟩ :=
    (Reader.listens_source cancelAt engine.time engine.reader engine.source).exists_read
  refine ⟨read, hread, (Reader.receives_iff engine.reader.fresh_restart rfl rfl).mpr ?_⟩
  rw [received, frames_map_snd, ← hsignals]
  simp [outcome, Reader.run, framesAmong]

end Engine

/-- However a stream is cut into segments, however it ends and however often an engine runs
    on it, archive, hub and console hold the same frames, whole and in order: those of what
    each run hears, in turn, and none of the bytes in front of, behind or between them. The
    bytes that a run does not look at are left to the next one. Splitting the archive gives
    back the frames, and so all that was published and shown. -/
theorem archive_hub_console_agree (color : RouteColor) (cancelAt now : Nat) (reader : Reader) (source : Source)
    (hub : Hub) :
    let engine := Engine.runs color cancelAt ⟨reader, source, now, ⟨hub, some [], some ""⟩⟩
    ∃ received : Nat → List (List UInt8),
      (∀ k, Receives ((engine k).source.heard cancelAt (engine k).time) (received k) ∧
        ∃ read, (engine k).source.bytes = read ++ (engine (k + 1)).source.bytes ∧
          Receives read (received k)) ∧
      ∀ count, ∃ archive,
        (engine count).desk.archive = some archive ∧
        archive = ((List.range count).flatMap received).flatten ∧
        recovered archive = (List.range count).flatMap received ∧
        (engine count).desk.hub = hub.publishAll
          ((recovered archive).flatMap fun frame => Event.ofFrame color (Frame.clean frame)) ∧
        (engine count).desk.console =
          some (String.join ((recovered archive).map fun frame => Frame.clean frame ++ "\n")) := by
  intro engine
  refine ⟨fun k => (engine k).received cancelAt, fun k => ⟨(engine k).receives_heard cancelAt,
    (engine k).exists_read color cancelAt⟩, fun count => ?_⟩
  have hframes : ∀ frame ∈ (List.range count).flatMap fun k => (engine k).received cancelAt,
      IsFrame frame := by
    intro frame hframe
    obtain ⟨k, -, hframe⟩ := List.mem_flatMap.mp hframe
    exact ((engine k).receives_heard cancelAt).isFrame frame hframe
  have hdesk := Engine.desk_runs color cancelAt ⟨reader, source, now, ⟨hub, some [], some ""⟩⟩ count
  rw [Desk.foldl_take, Option.map_some, Option.map_some, List.nil_append, String.empty_append] at hdesk
  refine ⟨_, congrArg Desk.archive hdesk, rfl, ?_, ?_, ?_⟩
  · exact recovered_flatten hframes
  · rw [archived, recovered_flatten hframes]
    exact congrArg Desk.hub hdesk
  · rw [archived, recovered_flatten hframes]
    exact congrArg Desk.console hdesk

end PacketMonitor.Stream

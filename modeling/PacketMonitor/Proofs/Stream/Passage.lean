import PacketMonitor.Proofs.Stream.PortList
import PacketMonitor.Proofs.Stream.Segmentation

namespace PacketMonitor.Stream

/-- Where a run stands between two chunks: before the banner, before the header of the list
    of ports, before one name of it with so many behind, or among the frames. -/
inductive Stage where
  | greeting
  | header
  | names (more : Nat)
  | frames
  deriving DecidableEq

namespace Stage

def phase : Stage → Phase
  | greeting => .connecting
  | header | names _ => .awaitingPortList
  | frames => .monitoring

/-- The byte that ends the next chunk. -/
def delimiter (stage : Stage) : UInt8 := stage.phase.delimiter

/-- The stage with so many names to come. -/
def listing : Nat → Stage
  | 0 => frames
  | more + 1 => names more

/-- The number of names to come, as long as there are any. -/
def awaited : Stage → Option Nat
  | names more => some (more + 1)
  | greeting | header | frames => none

/-- Where a whole chunk leads to. -/
inductive Next (chunk : List UInt8) : Stage → Stage → Prop where
  | noise (hnoise : ¬ banner <:+ chunk) : Next chunk greeting greeting
  | greeted (hbanner : banner <:+ chunk) : Next chunk greeting header
  | listed {digit : UInt8} (hdigit : IsDigit digit) (hchunk : chunk = Stream.header digit) :
    Next chunk header (listing (digit.toNat - 0x30))
  | named (more : Nat) : Next chunk (names more) (listing more)
  | framed : Next chunk frames frames

end Stage

/-- A whole chunk ends with its first delimiter and is within the limit. -/
def IsChunk (delimiter : UInt8) (chunk : List UInt8) : Prop :=
  ∃ body, chunk = body ++ [delimiter] ∧ delimiter ∉ body ∧ body.length < maxChunk

/-- A chunk that was accepted, and the stages between which it stood. -/
structure Accepted where
  stage : Stage
  chunk : List UInt8
  next : Stage

/-- How a run goes through some bytes: the chunks that it accepts, the bytes that it takes
    in the end without accepting them, those that it leaves, and why it ends. -/
structure Passage where
  chunks : List Accepted
  last : List UInt8
  left : List UInt8
  fault : Fault

/-- The bytes that are used up. -/
def Passage.spent (passage : Passage) : List UInt8 :=
  passage.chunks.flatMap (·.chunk) ++ passage.last

/-- Chunk by chunk a run goes through the bytes, up to the first chunk that is not the
    header of a list where there should be one, to a piece of the greatest length without
    the delimiter, or to the end, where it takes the rest. -/
inductive Passes (ending : Ending) : Stage → List UInt8 → Passage → Prop where
  | chunk {stage next : Stage} {chunk rest : List UInt8} {passage : Passage}
    (hchunk : IsChunk stage.delimiter chunk) (hnext : stage.Next chunk next)
    (hrest : Passes ending next rest passage) :
    Passes ending stage (chunk ++ rest)
      { passage with chunks := ⟨stage, chunk, next⟩ :: passage.chunks }
  | misheaded {chunk : List UInt8} (hchunk : IsChunk 0x7C chunk)
    (hother : ∀ digit, IsDigit digit → chunk ≠ header digit) (rest : List UInt8) :
    Passes ending .header (chunk ++ rest) ⟨[], chunk, rest, badHeader chunk⟩
  | overlong {stage : Stage} {piece : List UInt8} (hlacks : stage.delimiter ∉ piece)
    (hfull : piece.length = maxChunk) (rest : List UInt8) :
    Passes ending stage (piece ++ rest) ⟨[], piece, rest, overlong stage.delimiter stage.phase⟩
  | tail {stage : Stage} {tail : List UInt8} (hlacks : stage.delimiter ∉ tail)
    (hroom : tail.length < maxChunk) :
    Passes ending stage tail ⟨[], tail, [], ending.fault stage.phase⟩

/-- What is told of an accepted chunk: the phase that it opens, or the frame that it is. -/
def Accepted.told (accepted : Accepted) : List Signal :=
  if accepted.stage = .frames then [.frame accepted.chunk]
  else if accepted.next.phase = accepted.stage.phase then []
  else [.entered accepted.next.phase]

/-- The name of a port that an accepted chunk holds. -/
def Accepted.name? (accepted : Accepted) : Option String :=
  match accepted.stage with
  | .names _ => some (portName accepted.chunk.dropLast)
  | _ => none

/-- The ports known after an accepted chunk. A header begins a new list. -/
def Accepted.ports (known : List String) (accepted : Accepted) : List String :=
  if accepted.stage = .header then [] else known ++ accepted.name?.toList

/-- Each byte is used up or left, and none twice. -/
theorem Passes.bytes_eq {ending : Ending} {stage : Stage} {bytes : List UInt8} {passage : Passage}
    (hpasses : Passes ending stage bytes passage) : bytes = passage.spent ++ passage.left := by
  induction hpasses with
  | chunk hchunk hnext hrest ih => simp [Passage.spent, ih, List.append_assoc]
  | misheaded hchunk hother rest => rfl
  | overlong hlacks hfull rest => rfl
  | tail hlacks hroom => exact (List.append_nil _).symm

theorem Stage.exists_next (stage : Stage) (chunk : List UInt8) :
    (∃ next, stage.Next chunk next) ∨
      stage = .header ∧ ∀ digit, IsDigit digit → chunk ≠ Stream.header digit := by
  cases stage with
  | greeting =>
    by_cases hbanner : banner <:+ chunk
    · exact .inl ⟨_, .greeted hbanner⟩
    · exact .inl ⟨_, .noise hbanner⟩
  | header =>
    by_cases hheader : ∃ digit, IsDigit digit ∧ chunk = Stream.header digit
    · obtain ⟨digit, hdigit, hchunk⟩ := hheader
      exact .inl ⟨_, .listed hdigit hchunk⟩
    · exact .inr ⟨rfl, fun digit hdigit hchunk => hheader ⟨digit, hdigit, hchunk⟩⟩
  | names more => exact .inl ⟨_, .named more⟩
  | frames => exact .inl ⟨_, .framed⟩

/-- There is a way through all bytes. -/
theorem exists_passes (ending : Ending) (stage : Stage) (bytes : List UInt8) :
    ∃ passage, Passes ending stage bytes passage := by
  induction hlength : bytes.length using Nat.strongRecOn generalizing stage bytes with
  | ind length ih =>
    cases cut stage.delimiter bytes with
    | whole body rest hbody hroom =>
      have hchunk : IsChunk stage.delimiter (body ++ [stage.delimiter]) := ⟨body, rfl, hbody, hroom⟩
      rw [List.append_cons]
      obtain ⟨next, hnext⟩ | ⟨rfl, hother⟩ := stage.exists_next (body ++ [stage.delimiter])
      · obtain ⟨passage, hrest⟩ := ih rest.length
          (by simp only [← hlength, List.length_append, List.length_cons]; omega) next rest rfl
        exact ⟨_, .chunk hchunk hnext hrest⟩
      · exact ⟨_, .misheaded hchunk hother rest⟩
    | lacking _ hlacks =>
      by_cases hfull : maxChunk ≤ bytes.length
      · have hpiece : (bytes.take maxChunk).length = maxChunk := by
          rw [List.length_take]
          exact Nat.min_eq_left hfull
        rw [← List.take_append_drop maxChunk bytes]
        exact ⟨_, .overlong hlacks hpiece _⟩
      · have hroom := Nat.lt_of_not_le hfull
        exact ⟨_, .tail (hlacks.not_mem hroom) hroom⟩

namespace Reader

/-- The reader stands at a stage, and the next chunk begins. -/
structure At (r : Reader) (stage : Stage) : Prop where
  fresh : r.Fresh
  phase_eq : r.phase = stage.phase
  awaited_eq : r.awaited = stage.awaited

theorem at_greeting (r : Reader) : r.restart.At .greeting := ⟨⟨rfl, rfl⟩, rfl, rfl⟩

theorem ports_await (r : Reader) (count : Nat) : (r.await count).1.ports = r.ports := by
  cases count <;> rfl

/-- With so many names to come the reader stands before the first one, or among the frames. -/
theorem await_spec {r : Reader} (hfresh : r.Fresh) (hphase : r.phase = .awaitingPortList)
    (count : Nat) (stage : Stage) (hstage : stage.phase = .awaitingPortList) (chunk : List UInt8) :
    (r.await count).1.At (.listing count) ∧
      (r.await count).2 = (Accepted.mk stage chunk (.listing count)).told := by
  have hnames : stage ≠ .frames := by
    rintro rfl
    cases hstage
  rw [Accepted.told, if_neg hnames, hstage]
  cases count with
  | zero => exact ⟨⟨hfresh, rfl, rfl⟩, rfl⟩
  | succ count => exact ⟨⟨hfresh, hphase, rfl⟩, rfl⟩

/-- An accepted chunk brings the reader to the next stage, tells what it should, and changes
    the ports only by what the list of ports says. -/
theorem At.takeChunk {r : Reader} {stage next : Stage} (hat : r.At stage) {chunk : List UInt8}
    (hchunk : IsChunk stage.delimiter chunk) (hnext : stage.Next chunk next) :
    ∃ after, r.takeChunk chunk = .ok (after, (Accepted.mk stage chunk next).told) ∧ after.At next ∧
      after.ports = (Accepted.mk stage chunk next).ports r.ports := by
  obtain ⟨hfresh, hphase, hawaited⟩ := hat
  cases hnext with
  | noise hnoise =>
    refine ⟨r, ?_, ⟨hfresh, hphase, hawaited⟩, (List.append_nil _).symm⟩
    simp only [Reader.takeChunk, hphase, Stage.phase, List.isSuffixOf_iff_suffix, hnoise, if_false]
    rfl
  | greeted hbanner =>
    refine ⟨{ r with phase := .awaitingPortList }, ?_, ⟨hfresh, rfl, hawaited⟩,
      (List.append_nil _).symm⟩
    simp only [Reader.takeChunk, hphase, Stage.phase, List.isSuffixOf_iff_suffix, hbanner, if_true]
    rfl
  | @listed digit hdigit hheader =>
    have hcount : portCount? chunk = some (digit.toNat - 0x30) :=
      portCount?_eq_some_iff.mpr ⟨digit, hdigit, hheader, rfl⟩
    obtain ⟨hat, htold⟩ := await_spec (r := { r with ports := [] }) hfresh hphase (digit.toNat - 0x30)
      .header rfl chunk
    refine ⟨(({ r with ports := [] } : Reader).await (digit.toNat - 0x30)).1, ?_, hat, ?_⟩
    · simp only [Reader.takeChunk, hphase, Stage.phase, hawaited, Stage.awaited, hcount, ← htold]
    · exact ports_await ..
  | named more =>
    obtain ⟨name, rfl, -⟩ := hchunk
    let described : Reader := { r with ports := r.ports ++ [portName name] }
    obtain ⟨hat, htold⟩ := await_spec (r := described) hfresh hphase more (.names more) rfl
      (name ++ [(Stage.names more).delimiter])
    refine ⟨(described.await more).1, ?_, hat, ?_⟩
    · have hname : descriptor (name ++ [(Stage.names more).delimiter]) = portName name :=
        descriptor_concat name
      rw [← htold]
      simp only [Reader.takeChunk, described, hphase, Stage.phase, hawaited, Stage.awaited, hname]
      rfl
    · rw [ports_await]
      simp [described, Accepted.ports, Accepted.name?]
  | framed =>
    refine ⟨r, ?_, ⟨hfresh, hphase, hawaited⟩, (List.append_nil _).symm⟩
    simp only [Reader.takeChunk, hphase, Stage.phase]
    rfl

/-- A run takes the bytes as a passage says, tells what its chunks tell, and knows the ports
    of its list. -/
theorem takeAll_of_passes {ending : Ending} {stage : Stage} {bytes : List UInt8} {passage : Passage}
    (hpasses : Passes ending stage bytes passage) {r : Reader} (hat : r.At stage) :
    let intake := r.takeAll bytes
    intake.signals = passage.chunks.flatMap Accepted.told ∧
      intake.reader.ports = passage.chunks.foldl Accepted.ports r.ports ∧
      (intake.fault.map (·.1)).getD (ending.fault intake.reader.phase) = passage.fault ∧
      (intake.fault.map (·.2)).getD [] = passage.left := by
  have hdelimiter : ∀ {r : Reader} {stage : Stage}, r.At stage → r.phase.delimiter = stage.delimiter :=
    fun hat => congrArg Phase.delimiter hat.phase_eq
  induction hpasses generalizing r with
  | @chunk stage next chunk rest passage hchunk hnext hrest ih =>
    obtain ⟨after, htaken, hafter, hports⟩ := hat.takeChunk hchunk hnext
    obtain ⟨hsignals, hlast, hfault, hleft⟩ := ih hafter
    obtain ⟨body, rfl, hbody, hroom⟩ := hchunk
    rw [List.append_assoc, List.singleton_append,
      takeAll_whole_ok hat.fresh (hdelimiter hat) hbody hroom htaken]
    refine ⟨?_, ?_, hfault, hleft⟩
    · rw [List.flatMap_cons, ← hsignals]
      rfl
    · rw [List.foldl_cons, ← hports, ← hlast]
      rfl
  | @misheaded chunk hchunk hother rest =>
    have hcount : portCount? chunk = none := by
      rw [Option.eq_none_iff_forall_ne_some]
      intro count hcount
      obtain ⟨digit, hdigit, hheader, -⟩ := portCount?_eq_some_iff.mp hcount
      exact hother digit hdigit hheader
    have htaken : r.takeChunk chunk = .error (r, badHeader chunk) := by
      simp only [Reader.takeChunk, hat.phase_eq, Stage.phase, hat.awaited_eq, Stage.awaited, hcount]
    obtain ⟨body, rfl, hbody, hroom⟩ := hchunk
    have hbar : r.phase.delimiter = 0x7C := hdelimiter hat
    rw [List.append_assoc, List.singleton_append,
      takeAll_whole_error hat.fresh hbar hbody hroom htaken]
    exact ⟨rfl, rfl, rfl, rfl⟩
  | @overlong stage piece hlacks hfull rest =>
    have htake : (piece ++ rest).take maxChunk = piece := List.take_left' hfull
    have hlacks' : Lacks r.phase.delimiter (piece ++ rest) := by
      rwa [Lacks, htake, hdelimiter hat]
    have hlong : maxChunk ≤ (piece ++ rest).length := by
      rw [List.length_append, hfull]
      exact Nat.le_add_right ..
    rw [takeAll_overlong hat.fresh hlacks' hlong, hdelimiter hat, hat.phase_eq, List.drop_left' hfull]
    exact ⟨rfl, rfl, rfl, rfl⟩
  | @tail stage tail hlacks hroom =>
    have hbody : r.phase.delimiter ∉ tail := hdelimiter hat ▸ hlacks
    have hfits : r.length + tail.length < maxChunk := by rwa [hat.fresh.2, Nat.zero_add]
    have htaken := takeAll_body r hbody hfits []
    rw [List.append_nil, takeAll_nil] at htaken
    rw [htaken]
    exact ⟨rfl, rfl, congrArg ending.fault hat.phase_eq, rfl⟩

end Reader

end PacketMonitor.Stream

import PacketMonitor.Proofs.Stream.Intake

namespace PacketMonitor.Stream

/-- The delimiter does not come within the limit. -/
def Lacks (delimiter : UInt8) (bytes : List UInt8) : Prop :=
  delimiter ∉ bytes.take maxChunk

instance (delimiter : UInt8) (bytes : List UInt8) : Decidable (Lacks delimiter bytes) :=
  inferInstanceAs (Decidable (_ ∉ _))

theorem Lacks.not_mem {delimiter : UInt8} {bytes : List UInt8} (hlacks : Lacks delimiter bytes)
    (hroom : bytes.length < maxChunk) : delimiter ∉ bytes := by
  rwa [Lacks, List.take_of_length_le (Nat.le_of_lt hroom)] at hlacks

theorem takeWhile_append_of_not_mem {delimiter : UInt8} {body : List UInt8}
    (hbody : delimiter ∉ body) (rest : List UInt8) :
    (body ++ rest).takeWhile (· ≠ delimiter) = body ++ rest.takeWhile (· ≠ delimiter) := by
  refine List.takeWhile_append_of_pos fun b hb => ?_
  have hother : b ≠ delimiter := by
    rintro rfl
    exact hbody hb
  simpa using hother

/-- How the next chunk of some bytes goes: it is whole with its delimiter and within
    the limit, or the delimiter does not come in time. -/
inductive Cut (delimiter : UInt8) : List UInt8 → Prop where
  | whole (body rest : List UInt8) (hbody : delimiter ∉ body) (hroom : body.length < maxChunk) :
    Cut delimiter (body ++ delimiter :: rest)
  | lacking (bytes : List UInt8) (hlacks : Lacks delimiter bytes) : Cut delimiter bytes

theorem cut (delimiter : UInt8) (bytes : List UInt8) : Cut delimiter bytes := by
  by_cases hmem : delimiter ∈ bytes.take maxChunk
  · obtain ⟨body, rest, hsplit, hbody⟩ := List.eq_append_cons_of_mem hmem
    have hlength := congrArg List.length hsplit
    simp only [List.length_take, List.length_append, List.length_cons] at hlength
    have hwhole := Cut.whole body (rest ++ bytes.drop maxChunk) hbody (by omega)
    rwa [← List.cons_append, ← List.append_assoc, ← hsplit, List.take_append_drop] at hwhole
  · exact .lacking bytes hmem

/-- No stretch of bytes without the delimiter reaches the limit, so that every chunk is
    within it, also the last one if it has no delimiter yet. -/
def Within (delimiter : UInt8) (bytes : List UInt8) : Prop :=
  ∀ stretch, stretch <:+: bytes → delimiter ∉ stretch → stretch.length < maxChunk

theorem prefix_cons_of_not_mem {delimiter : UInt8} {stretch rest : List UInt8}
    (hlacks : delimiter ∉ stretch) (hstarts : stretch <+: delimiter :: rest) : stretch = [] := by
  cases stretch with
  | nil => rfl
  | cons b stretch =>
    obtain ⟨rfl, -⟩ := List.cons_prefix_cons.mp hstarts
    exact absurd (List.mem_cons_self ..) hlacks

theorem infix_append_cons {delimiter : UInt8} {stretch body rest : List UInt8}
    (hlacks : delimiter ∉ stretch) (hoccurs : stretch <:+: body ++ delimiter :: rest) :
    stretch <:+: body ∨ stretch <:+: rest := by
  obtain hbody | hrest | ⟨early, late, rfl, hearly, hlate⟩ := List.infix_append_iff.mp hoccurs
  · exact .inl hbody
  · obtain hstarts | hrest := List.infix_cons_iff.mp hrest
    · rw [prefix_cons_of_not_mem hlacks hstarts]
      exact .inl List.nil_infix
    · exact .inr hrest
  · rw [List.mem_append, not_or] at hlacks
    rw [prefix_cons_of_not_mem hlacks.2 hlate, List.append_nil]
    exact .inl hearly.isInfix

namespace Within

variable {delimiter : UInt8} {bytes : List UInt8}

theorem mono {part : List UInt8} (hwithin : Within delimiter bytes) (hpart : part <:+: bytes) :
    Within delimiter part :=
  fun stretch hstretch => hwithin stretch (hstretch.trans hpart)

theorem of_length_lt (hroom : bytes.length < maxChunk) : Within delimiter bytes := by
  intro stretch hstretch _
  have hle := hstretch.length_le
  omega

theorem append_cons_iff {body rest : List UInt8} (hroom : body.length < maxChunk) :
    Within delimiter (body ++ delimiter :: rest) ↔ Within delimiter rest := by
  constructor
  · intro hwithin
    exact hwithin.mono ((List.suffix_cons ..).trans (List.suffix_append ..)).isInfix
  · intro hwithin stretch hstretch hlacks
    obtain hbody | hrest := infix_append_cons hlacks hstretch
    · exact of_length_lt hroom stretch hbody hlacks
    · exact hwithin stretch hrest hlacks

theorem iff_of_lacks (hlacks : Lacks delimiter bytes) :
    Within delimiter bytes ↔ bytes.length < maxChunk := by
  refine ⟨fun hwithin => ?_, of_length_lt⟩
  have hshort := hwithin _ (List.take_prefix maxChunk bytes).isInfix hlacks
  rw [List.length_take] at hshort
  omega

end Within

namespace Reader

/-- No byte of the current chunk was read yet. -/
def Fresh (r : Reader) : Prop := r.pending = [] ∧ r.length = 0

theorem Fresh.reset_eq {r : Reader} (hfresh : r.Fresh) :
    ({ r with pending := [], length := 0 } : Reader) = r := by
  obtain ⟨hpending, hlength⟩ := hfresh
  simp only [← hpending, ← hlength]

/-- Bytes of a chunk that do not end it are kept as long as they are fewer than
    the limit. -/
theorem takeAll_body (r : Reader) {body : List UInt8} (hbody : r.phase.delimiter ∉ body)
    (hroom : r.length + body.length < maxChunk) (rest : List UInt8) :
    r.takeAll (body ++ rest) =
      ({ r with pending := body.reverse ++ r.pending, length := r.length + body.length } :
        Reader).takeAll rest := by
  induction body generalizing r with
  | nil => rfl
  | cons b body ih =>
    rw [List.length_cons] at hroom
    rw [List.mem_cons, not_or] at hbody
    have hother : b ≠ r.phase.delimiter := Ne.symm hbody.1
    have htake : r.takeByte b =
        .ok ({ r with pending := b :: r.pending, length := r.length + 1 }, []) := by
      rw [takeByte, if_neg hother, if_pos (by omega)]
    have hrest := ih { r with pending := b :: r.pending, length := r.length + 1 }
      hbody.2 (by simp only; omega)
    rw [List.cons_append, takeAll_cons_ok htake, Intake.after_nil, hrest]
    simp [Nat.add_assoc, Nat.add_comm 1]

/-- A chunk that reaches the limit ends the session, and what comes after the limit
    is not looked at. -/
theorem takeAll_overlong {r : Reader} (hfresh : r.Fresh) {bytes : List UInt8}
    (hlacks : Lacks r.phase.delimiter bytes) (hfull : maxChunk ≤ bytes.length) :
    r.takeAll bytes =
      ⟨r, [], some (overlong r.phase.delimiter r.phase, bytes.drop maxChunk)⟩ := by
  have hlength := hfresh.2
  have hlast : maxChunk - 1 < bytes.length := by simp only [maxChunk] at hfull ⊢; omega
  have hsplit : bytes.take maxChunk = bytes.take (maxChunk - 1) ++ [bytes[maxChunk - 1]] :=
    (List.take_append_getElem hlast).symm
  rw [Lacks, hsplit] at hlacks
  rw [List.mem_append, List.mem_singleton, not_or] at hlacks
  obtain ⟨hfront, hlastByte⟩ := hlacks
  have hother : bytes[maxChunk - 1] ≠ r.phase.delimiter := Ne.symm hlastByte
  have hroom : (bytes.take (maxChunk - 1)).length = maxChunk - 1 := by
    rw [List.length_take]
    omega
  have hpositive : 0 < maxChunk := by decide
  calc r.takeAll bytes
      = r.takeAll (bytes.take (maxChunk - 1) ++ bytes[maxChunk - 1] :: bytes.drop maxChunk) := by
        rw [← List.singleton_append, ← List.append_assoc, ← hsplit, List.take_append_drop]
    _ = _ := by
        rw [takeAll_body r hfront (by omega)]
        refine takeAll_cons_error ?_ _
        rw [takeByte, if_neg hother, if_neg (by simp only [hroom]; omega)]
        simp only [hfresh.reset_eq]

/-- Without a delimiter in time nothing is told, and the phase and the ports stay. It
    is a fault if there were bytes enough. -/
theorem takeAll_lacking {r : Reader} (hfresh : r.Fresh) {bytes : List UInt8}
    (hlacks : Lacks r.phase.delimiter bytes) :
    (r.takeAll bytes).signals = [] ∧ (r.takeAll bytes).reader.phase = r.phase ∧
      (r.takeAll bytes).reader.ports = r.ports ∧
      (r.takeAll bytes).fault.map (·.1) =
        if maxChunk ≤ bytes.length then some (overlong r.phase.delimiter r.phase) else none := by
  by_cases hfull : maxChunk ≤ bytes.length
  · rw [takeAll_overlong hfresh hlacks hfull, if_pos hfull]
    exact ⟨rfl, rfl, rfl, rfl⟩
  · have hroom : r.length + bytes.length < maxChunk := by rw [hfresh.2]; omega
    have hbody := takeAll_body r (hlacks.not_mem (Nat.lt_of_not_le hfull)) hroom []
    rw [List.append_nil, takeAll_nil] at hbody
    rw [hbody, if_neg hfull]
    exact ⟨rfl, rfl, rfl, rfl⟩

theorem fault_of_lacks {r : Reader} {delimiter : UInt8} (hfresh : r.Fresh)
    (hdelimiter : r.phase.delimiter = delimiter) {bytes : List UInt8} (hlacks : Lacks delimiter bytes) :
    (Within delimiter bytes → (r.takeAll bytes).fault = none) ∧
      (¬ Within delimiter bytes →
        (r.takeAll bytes).fault.map (·.1) = some (overlong delimiter r.phase)) := by
  subst hdelimiter
  obtain ⟨-, -, -, hfault⟩ := takeAll_lacking hfresh hlacks
  rw [Within.iff_of_lacks hlacks, hfault]
  constructor
  · intro hroom
    rw [if_neg (Nat.not_le.mpr hroom)] at hfault
    exact Option.map_eq_none_iff.mp hfault
  · intro hover
    rw [if_pos (Nat.not_lt.mp hover)]

section Whole

variable {r : Reader} {delimiter : UInt8} {body : List UInt8}

theorem takeAll_whole (hfresh : r.Fresh) (hdelimiter : r.phase.delimiter = delimiter)
    (hbody : delimiter ∉ body) (hroom : body.length < maxChunk) (rest : List UInt8) :
    r.takeAll (body ++ delimiter :: rest) =
      match r.takeChunk (body ++ [delimiter]) with
      | .ok (next, signals) => (next.takeAll rest).after signals
      | .error (last, fault) => ⟨last, [], some (fault, rest)⟩ := by
  subst hdelimiter
  have hlength := hfresh.2
  rw [takeAll_body r hbody (by omega)]
  have htake : ({ r with pending := body.reverse ++ r.pending, length := r.length + body.length } :
      Reader).takeByte r.phase.delimiter = r.takeChunk (body ++ [r.phase.delimiter]) := by
    rw [takeByte, if_pos rfl]
    simp only [hfresh.reset_eq, hfresh.1, List.append_nil, List.reverse_cons, List.reverse_reverse]
  cases hchunk : r.takeChunk (body ++ [r.phase.delimiter]) with
  | ok taken => exact takeAll_cons_ok (htake.trans hchunk) rest
  | error refused => exact takeAll_cons_error (htake.trans hchunk) rest

theorem takeAll_whole_ok (hfresh : r.Fresh) (hdelimiter : r.phase.delimiter = delimiter)
    (hbody : delimiter ∉ body) (hroom : body.length < maxChunk) {next : Reader} {told : List Signal}
    (hchunk : r.takeChunk (body ++ [delimiter]) = .ok (next, told)) (rest : List UInt8) :
    r.takeAll (body ++ delimiter :: rest) = (next.takeAll rest).after told := by
  rw [takeAll_whole hfresh hdelimiter hbody hroom, hchunk]

theorem takeAll_whole_error (hfresh : r.Fresh) (hdelimiter : r.phase.delimiter = delimiter)
    (hbody : delimiter ∉ body) (hroom : body.length < maxChunk) {last : Reader} {fault : Fault}
    (hchunk : r.takeChunk (body ++ [delimiter]) = .error (last, fault)) (rest : List UInt8) :
    r.takeAll (body ++ delimiter :: rest) = ⟨last, [], some (fault, rest)⟩ := by
  rw [takeAll_whole hfresh hdelimiter hbody hroom, hchunk]

end Whole

end Reader

end PacketMonitor.Stream

import Mathlib.Data.List.Induction
import Mathlib.Data.List.Infix
import PacketMonitor.Proofs.Stream.Phases

namespace PacketMonitor.Stream

theorem suffix_concat_of_not_mem {delimiter : UInt8} {stretch body : List UInt8}
    (hlacks : delimiter ∉ stretch) (hsuffix : stretch <:+ body ++ [delimiter]) : stretch = [] := by
  rw [← List.reverse_prefix, List.reverse_append] at hsuffix
  exact List.reverse_eq_nil_iff.mp (prefix_cons_of_not_mem (by rwa [List.mem_reverse]) hsuffix)

theorem banner_eq : banner.dropLast ++ [0x0D] = banner := by decide

theorem not_mem_dropLast_banner : 0x0D ∉ banner.dropLast := by decide

theorem mem_banner : 0x0D ∈ banner := by decide

theorem banner_ne_nil : banner ≠ [] := by decide

/-- A chunk boundary cannot fall inside the banner, because the only carriage return of
    the banner is its last byte. -/
theorem banner_infix_chunk {body rest : List UInt8} (hbody : 0x0D ∉ body)
    (hoccurs : banner <:+: body ++ 0x0D :: rest) :
    banner <:+ body ++ [0x0D] ∨ banner <:+: rest := by
  rw [← List.singleton_append, ← List.append_assoc] at hoccurs
  obtain hchunk | hrest | ⟨early, late, hbanner, hearly, hlate⟩ := List.infix_append_iff.mp hoccurs
  · obtain hsuffix | hnone := List.infix_concat_iff.mp hchunk
    · exact .inl hsuffix
    · exact absurd (hnone.subset mem_banner) hbody
  · exact .inr hrest
  · obtain rfl | ⟨front, b, rfl⟩ := List.eq_nil_or_concat late
    · rw [hbanner, List.append_nil]
      exact .inl hearly
    · have hsplit : banner.dropLast ++ [0x0D] = (early ++ front) ++ [b] := by
        rw [banner_eq, hbanner, List.concat_eq_append, List.append_assoc]
      have hname := (List.append_inj' hsplit rfl).1
      have hlacks : 0x0D ∉ early := by
        intro hmem
        apply not_mem_dropLast_banner
        rw [hname]
        exact List.mem_append_left _ hmem
      rw [suffix_concat_of_not_mem hlacks hearly, List.nil_append] at hbanner
      rw [hbanner]
      exact .inr hlate.isInfix

/-- The bytes end with the banner, and it does not occur before their end. -/
def EndsFirst (before : List UInt8) : Prop :=
  banner <:+ before ∧ ¬ banner <:+: before.dropLast

namespace EndsFirst

theorem ne_nil {before : List UInt8} (hfirst : EndsFirst before) : before ≠ [] := by
  rintro rfl
  exact banner_ne_nil (List.suffix_nil.mp hfirst.1)

theorem eq_of_starts {front before : List UInt8} (hfront : EndsFirst front)
    (hbefore : EndsFirst before) (hstarts : front <+: before) : front = before := by
  obtain ⟨rest, rfl⟩ := hstarts
  obtain rfl | ⟨rest, b, rfl⟩ := List.eq_nil_or_concat rest
  · exact (List.append_nil _).symm
  · have hearlier : banner <:+: front ++ rest := List.infix_append_of_infix_left hfront.1.isInfix
    refine absurd hearlier ?_
    simpa [← List.append_assoc] using hbefore.2

theorem chunk {body : List UInt8} (hbody : 0x0D ∉ body) (hbanner : banner <:+ body ++ [0x0D]) :
    EndsFirst (body ++ [0x0D]) := by
  refine ⟨hbanner, ?_⟩
  rw [List.dropLast_concat]
  exact fun hoccurs => hbody (hoccurs.subset mem_banner)

theorem chunk_append {body before : List UInt8} (hbody : 0x0D ∉ body)
    (hother : ¬ banner <:+ body ++ [0x0D]) (hbefore : EndsFirst before) :
    EndsFirst (body ++ 0x0D :: before) := by
  refine ⟨hbefore.1.trans ((List.suffix_cons ..).trans (List.suffix_append ..)), ?_⟩
  rw [List.dropLast_append_of_ne_nil (by simp), List.dropLast_cons_of_ne_nil hbefore.ne_nil]
  intro hoccurs
  obtain hchunk | hrest := banner_infix_chunk hbody hoccurs
  · exact hother hchunk
  · exact hbefore.2 hrest

end EndsFirst

/-- Wherever the banner occurs, it occurs first somewhere. -/
theorem banner_infix_iff {bytes : List UInt8} :
    banner <:+: bytes ↔ ∃ before, before <+: bytes ∧ EndsFirst before := by
  constructor
  · intro hoccurs
    induction bytes using List.reverseRecOn with
    | nil => exact absurd (List.infix_nil.mp hoccurs) banner_ne_nil
    | append_singleton bytes b ih =>
      by_cases hearlier : banner <:+: bytes
      · obtain ⟨before, hbefore, hfirst⟩ := ih hearlier
        exact ⟨before, hbefore.trans (List.prefix_append ..), hfirst⟩
      · obtain hsuffix | hagain := List.infix_concat_iff.mp hoccurs
        · exact ⟨bytes ++ [b], List.prefix_rfl, hsuffix, by rwa [List.dropLast_concat]⟩
        · exact absurd hagain hearlier
  · rintro ⟨before, hbefore, hsuffix, -⟩
    exact hsuffix.isInfix.trans hbefore.isInfix

/-- Some bytes end with the banner for the first time, and no chunk up to there is
    beyond the limit. -/
def Greets (before : List UInt8) : Prop :=
  EndsFirst before ∧ Within 0x0D before

namespace Greets

theorem chunk {body : List UInt8} (hbody : 0x0D ∉ body) (hroom : body.length < maxChunk)
    (hbanner : banner <:+ body ++ [0x0D]) : Greets (body ++ [0x0D]) := by
  refine ⟨.chunk hbody hbanner, (Within.append_cons_iff hroom).mpr ?_⟩
  exact Within.of_length_lt (by decide)

theorem chunk_append {body before : List UInt8} (hbody : 0x0D ∉ body)
    (hroom : body.length < maxChunk) (hother : ¬ banner <:+ body ++ [0x0D]) (hbefore : Greets before) :
    Greets (body ++ 0x0D :: before) :=
  ⟨.chunk_append hbody hother hbefore.1, (Within.append_cons_iff hroom).mpr hbefore.2⟩

theorem not_of_lacks {before bytes : List UInt8} (hlacks : Lacks 0x0D bytes)
    (hstarts : before <+: bytes) : ¬ Greets before := by
  rintro ⟨⟨hsuffix, -⟩, hwithin⟩
  have hbefore : Lacks 0x0D before := by
    intro hmem
    apply hlacks
    exact (List.IsPrefix.take hstarts maxChunk).subset hmem
  have hroom := (Within.iff_of_lacks hbefore).mp hwithin
  exact hbefore.not_mem hroom (hsuffix.subset mem_banner)

theorem eq_of_starts {front before : List UInt8} (hfront : Greets front) (hbefore : Greets before)
    (hstarts : front <+: before) : front = before :=
  hfront.1.eq_of_starts hbefore.1 hstarts

theorem of_chunk_append {body rest before : List UInt8} (hbody : 0x0D ∉ body)
    (hother : ¬ banner <:+ body ++ [0x0D]) (hgreets : Greets before)
    (hstarts : before <+: body ++ 0x0D :: rest) : ∃ later, later <+: rest ∧ Greets later := by
  have hmem : 0x0D ∈ before := hgreets.1.1.subset mem_banner
  obtain ⟨late, hlate⟩ := hstarts
  obtain ⟨front, hfront, -⟩ | ⟨front, rfl, hrest⟩ := List.append_eq_append_iff.mp hlate
  · exact absurd (hfront ▸ List.mem_append_left _ hmem) hbody
  · cases front with
    | nil =>
      rw [List.append_nil] at hmem
      exact absurd hmem hbody
    | cons b front =>
      obtain ⟨rfl, rfl⟩ := List.cons.inj hrest
      obtain hchunk | hfront := banner_infix_chunk hbody hgreets.1.1.isInfix
      · exact absurd hchunk hother
      · obtain ⟨later, hlater, hfirst⟩ := banner_infix_iff.mp hfront
        have hpart : later <:+: body ++ 0x0D :: front :=
          hlater.isInfix.trans ((List.suffix_cons ..).trans (List.suffix_append ..)).isInfix
        exact ⟨later, hlater.trans (List.prefix_append ..), hfirst, hgreets.2.mono hpart⟩

end Greets

namespace Reader

/-- Before the banner the reader looks for its first occurrence, wherever the chunks of
    the noise end. If it finds none the noise is taken without a word, unless a chunk of
    it is beyond the limit. -/
theorem takeAll_connecting {r : Reader} (hfresh : r.Fresh) (hphase : r.phase = .connecting)
    (bytes : List UInt8) :
    (∃ before rest, bytes = before ++ rest ∧ Greets before ∧
        r.takeAll bytes = (({ r with phase := .awaitingPortList } : Reader).takeAll rest).after
          [.entered .awaitingPortList]) ∨
      ((∀ before, before <+: bytes → ¬ Greets before) ∧ (r.takeAll bytes).signals = [] ∧
        (r.takeAll bytes).reader.phase = .connecting ∧
        (Within 0x0D bytes → (r.takeAll bytes).fault = none) ∧
        (¬ Within 0x0D bytes →
          (r.takeAll bytes).fault.map (·.1) = some (overlong 0x0D .connecting))) := by
  have hdelimiter : r.phase.delimiter = 0x0D := congrArg Phase.delimiter hphase
  induction hlength : bytes.length using Nat.strongRecOn generalizing bytes with
  | ind length ih =>
    cases cut 0x0D bytes with
    | whole body rest hbody hroom =>
      by_cases hbanner : banner <:+ body ++ [0x0D]
      · have hchunk : r.takeChunk (body ++ [0x0D]) =
            .ok ({ r with phase := .awaitingPortList }, [.entered .awaitingPortList]) := by
          simp only [takeChunk, hphase, List.isSuffixOf_iff_suffix, hbanner, if_true]
        exact .inl ⟨body ++ [0x0D], rest, by simp, .chunk hbody hroom hbanner,
          takeAll_whole_ok hfresh hdelimiter hbody hroom hchunk rest⟩
      · have hchunk : r.takeChunk (body ++ [0x0D]) = .ok (r, []) := by
          simp only [takeChunk, hphase, List.isSuffixOf_iff_suffix, hbanner, if_false]
        rw [takeAll_whole_ok hfresh hdelimiter hbody hroom hchunk, Intake.after_nil,
          Within.append_cons_iff hroom]
        obtain ⟨before, late, rfl, hgreets, htaken⟩ | ⟨hnone, htaken⟩ := ih rest.length
          (by simp only [← hlength, List.length_append, List.length_cons]; omega) rest rfl
        · exact .inl ⟨body ++ 0x0D :: before, late, by simp,
            .chunk_append hbody hroom hbanner hgreets, htaken⟩
        · refine .inr ⟨fun before hstarts hgreets => ?_, htaken⟩
          -- A greeting behind this chunk would be one of the rest alone.
          obtain ⟨later, hlater, hagain⟩ := hgreets.of_chunk_append hbody hbanner hstarts
          exact hnone later hlater hagain
    | lacking _ hlacks =>
      obtain ⟨hsignals, hlast, -, -⟩ := takeAll_lacking hfresh (hdelimiter ▸ hlacks)
      have hfault := fault_of_lacks hfresh hdelimiter hlacks
      rw [hphase] at hfault
      exact .inr ⟨fun before => Greets.not_of_lacks hlacks, hsignals, hlast.trans hphase, hfault⟩

theorem entered_awaitingPortList_iff {r : Reader} (hfresh : r.Fresh) (hphase : r.phase = .connecting)
    (bytes : List UInt8) :
    .entered .awaitingPortList ∈ (r.takeAll bytes).signals ↔
      ∃ before, before <+: bytes ∧ Greets before := by
  obtain ⟨before, rest, rfl, hgreets, htaken⟩ | ⟨hnone, hsignals, -⟩ :=
    takeAll_connecting hfresh hphase bytes
  · rw [htaken]
    exact iff_of_true (by simp [Intake.after]) ⟨before, List.prefix_append .., hgreets⟩
  · rw [hsignals]
    refine iff_of_false List.not_mem_nil ?_
    rintro ⟨before, hstarts, hgreets⟩
    exact hnone before hstarts hgreets

theorem entersAfter_awaitingPortList_iff {r : Reader} (hfresh : r.Fresh)
    (hphase : r.phase = .connecting) {before : List UInt8} :
    r.EntersAfter .awaitingPortList before ↔ Greets before := by
  simp only [EntersAfter, entered_awaitingPortList_iff hfresh hphase]
  constructor
  · intro henters
    obtain ⟨first, hfirst, hgreets⟩ := (henters before List.prefix_rfl).mpr rfl
    have heq := (henters first hfirst).mp ⟨first, List.prefix_rfl, hgreets⟩
    rwa [← heq]
  · intro hgreets front hfront
    constructor
    · rintro ⟨first, hfirst, hagain⟩
      obtain rfl := hagain.eq_of_starts hgreets (hfirst.trans hfront)
      exact hfront.eq_of_length_le hfirst.length_le
    · rintro rfl
      exact ⟨front, List.prefix_rfl, hgreets⟩

theorem takeAll_greeting {r : Reader} (hfresh : r.Fresh) (hphase : r.phase = .connecting)
    {before : List UInt8} (hgreets : Greets before) (rest : List UInt8) :
    r.takeAll (before ++ rest) =
      (({ r with phase := .awaitingPortList } : Reader).takeAll rest).after
        [.entered .awaitingPortList] := by
  have hstarts : before <+: before ++ rest := List.prefix_append ..
  obtain ⟨first, late, hsplit, hagain, htaken⟩ | ⟨hnone, -⟩ :=
    takeAll_connecting hfresh hphase (before ++ rest)
  · have hfirst : first <+: before ++ rest := ⟨late, hsplit.symm⟩
    have heq : first = before := by
      obtain hle | hle := List.prefix_or_prefix_of_prefix hfirst hstarts
      · exact hagain.eq_of_starts hgreets hle
      · exact (hgreets.eq_of_starts hagain hle).symm
    subst heq
    rw [htaken, List.append_cancel_left hsplit]
  · exact absurd hgreets (hnone before hstarts)

end Reader

end PacketMonitor.Stream

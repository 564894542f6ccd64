import Mathlib.Data.List.Infix
import PacketMonitor.Proofs.Text.Utf8

namespace PacketMonitor.Text.Utf8

open String (utf8EncodeChar)

/-- The first part of some ill-formed bytes: no character stands at their front, and the part
    is the longest front that still begins a character, or a single byte if none does. -/
structure MaximalSubpart (part rest : List UInt8) : Prop where
  ne_nil : part ≠ []
  illFormed : ∀ c, ¬ utf8EncodeChar c <+: part ++ rest
  begins : part.length = 1 ∨ ∃ c, part <+: utf8EncodeChar c
  longest : ∀ front c, front <+: part ++ rest → front <+: utf8EncodeChar c →
    front.length ≤ part.length

/-- A text for some bytes, with a replacement character for every maximal subpart that is
    ill-formed. -/
inductive Repaired : List UInt8 → List Char → Prop where
  | nil : Repaired [] []
  | char {bytes rest : List UInt8} {c : Char} {text : List Char}
    (hbytes : bytes = utf8EncodeChar c ++ rest) (hrest : Repaired rest text) :
    Repaired bytes (c :: text)
  | subpart {bytes part rest : List UInt8} {text : List Char} (hbytes : bytes = part ++ rest)
    (hpart : MaximalSubpart part rest) (hrest : Repaired rest text) :
    Repaired bytes (replacement :: text)

theorem utf8EncodeChar_ne_nil (c : Char) : utf8EncodeChar c ≠ [] := by
  rw [← List.length_pos_iff, String.length_utf8EncodeChar]
  exact c.utf8Size_pos

/-- The character at the front of some bytes is determined by them. -/
theorem utf8EncodeChar_append_inj {c c' : Char} {rest rest' : List UInt8}
    (hsame : utf8EncodeChar c ++ rest = utf8EncodeChar c' ++ rest') : c = c' ∧ rest = rest' := by
  have hread : ∀ (c : Char) (rest : List UInt8),
      ByteArray.utf8DecodeChar? (utf8EncodeChar c ++ rest).toByteArray 0 = some c := by
    intro c rest
    rw [List.toByteArray_append]
    exact ByteArray.utf8DecodeChar?_utf8EncodeChar_append
  have hfirst := hread c rest
  rw [hsame, hread c' rest', Option.some_inj] at hfirst
  subst hfirst
  exact ⟨rfl, List.append_cancel_left hsame⟩

theorem eq_of_starts {c c' : Char} (hstarts : utf8EncodeChar c <+: utf8EncodeChar c') : c = c' := by
  obtain ⟨more, hmore⟩ := hstarts
  rw [← List.append_nil (utf8EncodeChar c')] at hmore
  exact (utf8EncodeChar_append_inj hmore).1

theorem MaximalSubpart.length_le {part part' rest rest' : List UInt8}
    (hpart : MaximalSubpart part rest) (hpart' : MaximalSubpart part' rest')
    (hsame : part ++ rest = part' ++ rest') : part'.length ≤ part.length := by
  obtain hsingle | ⟨c, hc⟩ := hpart'.begins
  · rw [hsingle]
    exact List.length_pos_iff.mpr hpart.ne_nil
  · exact hpart.longest part' c (hsame ▸ List.prefix_append ..) hc

/-- Bytes can be repaired in one way only. -/
theorem Repaired.unique {bytes : List UInt8} {text text' : List Char} (hrepaired : Repaired bytes text)
    (hrepaired' : Repaired bytes text') : text = text' := by
  induction hrepaired generalizing text' with
  | nil =>
    cases hrepaired' with
    | nil => rfl
    | @char _ _ c _ hbytes' =>
      exact absurd (List.append_eq_nil_iff.mp hbytes'.symm).1 (utf8EncodeChar_ne_nil c)
    | subpart hbytes' hpart' => exact absurd (List.append_eq_nil_iff.mp hbytes'.symm).1 hpart'.ne_nil
  | @char bytes rest c text hbytes hrest ih =>
    cases hrepaired' with
    | nil => exact absurd (List.append_eq_nil_iff.mp hbytes.symm).1 (utf8EncodeChar_ne_nil c)
    | char hbytes' hrest' =>
      obtain ⟨rfl, rfl⟩ := utf8EncodeChar_append_inj (hbytes.symm.trans hbytes')
      rw [ih hrest']
    | subpart hbytes' hpart' =>
      exact absurd (hbytes'.symm.trans hbytes ▸ List.prefix_append ..) (hpart'.illFormed c)
  | subpart hbytes hpart hrest ih =>
    cases hrepaired' with
    | nil => exact absurd (List.append_eq_nil_iff.mp hbytes.symm).1 hpart.ne_nil
    | @char _ _ c _ hbytes' =>
      exact absurd (hbytes.symm.trans hbytes' ▸ List.prefix_append ..) (hpart.illFormed c)
    | subpart hbytes' hpart' hrest' =>
      have hsame := hbytes.symm.trans hbytes'
      have hlength := Nat.le_antisymm (hpart'.length_le hpart hsame.symm) (hpart.length_le hpart' hsame)
      obtain ⟨rfl, rfl⟩ := List.append_inj hsame hlength
      rw [ih hrest']

/-- An ASCII byte belongs to no character that has begun before it. -/
theorem prefix_of_ascii {front bytes rest : List UInt8} {b : UInt8} {c : Char} (hascii : b.toNat < 0x80)
    (hsome : bytes ≠ []) (hfront : front <+: bytes ++ b :: rest) (hchar : front <+: utf8EncodeChar c) :
    front <+: bytes := by
  obtain hinside | ⟨more, hmore⟩ := List.prefix_or_prefix_of_prefix hfront (List.prefix_append ..)
  · exact hinside
  rw [← hmore, List.prefix_append_right_inj] at hfront
  cases more with
  | nil => exact hmore ▸ (List.append_nil bytes).symm ▸ List.prefix_rfl
  | cons b' more =>
    obtain ⟨rfl, -⟩ := List.cons_prefix_cons.mp hfront
    have hmem : b' ∈ utf8EncodeChar c :=
      hchar.subset (hmore ▸ List.mem_append_right bytes (List.mem_cons_self ..))
    obtain hvalue | hlarge := toNat_of_mem_utf8EncodeChar hmem
    · have hcode : c.toNat < 0x80 := hvalue.symm.trans_lt hascii
      have hlength := hchar.length_le
      have hpositive := List.length_pos_iff.mpr hsome
      rw [← hmore, utf8EncodeChar_of_ascii hcode, List.length_append, List.length_cons,
        List.length_singleton] at hlength
      omega
    · omega

/-- What is ill-formed in front of an ASCII byte does not extend to it. -/
theorem MaximalSubpart.append_cons {part early late : List UInt8} {b : UInt8}
    (hpart : MaximalSubpart part early) (hascii : b.toNat < 0x80) :
    MaximalSubpart part (early ++ b :: late) := by
  have hsome : part ++ early ≠ [] := fun hnone => hpart.ne_nil (List.append_eq_nil_iff.mp hnone).1
  refine ⟨hpart.ne_nil, fun c hc => ?_, hpart.begins, fun front c hfront hc => ?_⟩
  · rw [← List.append_assoc] at hc
    exact hpart.illFormed c (prefix_of_ascii hascii hsome hc List.prefix_rfl)
  · rw [← List.append_assoc] at hfront
    exact hpart.longest front c (prefix_of_ascii hascii hsome hfront hc) hc

/-- What stands in front of an ASCII byte and what stands behind it are repaired apart. -/
theorem Repaired.append_cons {early late : List UInt8} {text text' : List Char} {c : Char}
    (hearly : Repaired early text) (hascii : c.toNat < 0x80) (hlate : Repaired late text') :
    Repaired (early ++ UInt8.ofNat c.toNat :: late) (text ++ c :: text') := by
  induction hearly with
  | nil => exact .char (by rw [utf8EncodeChar_of_ascii hascii]; rfl) hlate
  | char hbytes _ ih => exact .char (by rw [hbytes, List.append_assoc]) ih
  | subpart hbytes hpart _ ih =>
    have hbyte : (UInt8.ofNat c.toNat).toNat < 0x80 := by
      rw [UInt8.toNat_ofNat']
      omega
    exact .subpart (by rw [hbytes, List.append_assoc]) (hpart.append_cons hbyte) ih

theorem Repaired.encode (text : List Char) : Repaired (encode text) text := by
  induction text with
  | nil => exact .nil
  | cons c rest ih => exact .char (encode_cons c rest) ih

/-- A text has no ASCII character but those among the bytes. -/
theorem Repaired.mem {bytes : List UInt8} {text : List Char} {c : Char} (hrepaired : Repaired bytes text)
    (hascii : c.toNat < 0x80) (hmem : c ∈ text) : UInt8.ofNat c.toNat ∈ bytes := by
  induction hrepaired with
  | nil => cases hmem
  | char hbytes _ ih =>
    rw [hbytes, List.mem_append]
    obtain rfl | hmem := List.mem_cons.mp hmem
    · exact .inl (utf8EncodeChar_of_ascii hascii ▸ List.mem_cons_self ..)
    · exact .inr (ih hmem)
  | subpart hbytes _ _ ih =>
    obtain rfl | hmem := List.mem_cons.mp hmem
    · exact absurd hascii (by decide)
    · exact hbytes ▸ List.mem_append_right _ (ih hmem)

end PacketMonitor.Text.Utf8

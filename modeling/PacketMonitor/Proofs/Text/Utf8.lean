import PacketMonitor.Proofs.Text.Pieces
import PacketMonitor.Text.Utf8

namespace PacketMonitor.Text.Utf8

theorem size_cons (c : Char) (rest : List Char) : size (c :: rest) = c.utf8Size + size rest := by
  have hfrom : ∀ (text : List Char) (n : Nat),
      text.foldl (fun n c => n + c.utf8Size) n = n + size text := by
    intro text
    induction text with
    | nil => exact fun n => rfl
    | cons c text ih =>
      intro n
      rw [size, List.foldl_cons, List.foldl_cons, ih, ih, Nat.zero_add, Nat.add_assoc]
  rw [size, List.foldl_cons, hfrom, Nat.zero_add]

/-- Every character takes a byte at least. -/
theorem length_le_size (text : List Char) : text.length ≤ size text := by
  induction text with
  | nil => exact Nat.le_refl 0
  | cons c rest ih =>
    have hc := c.utf8Size_pos
    rw [List.length_cons, size_cons]
    omega

/-- A byte in the UTF-8 form of a character is either the whole character or beyond ASCII. -/
theorem toNat_of_mem_utf8EncodeChar {c : Char} {b : UInt8} (hb : b ∈ String.utf8EncodeChar c) :
    b.toNat = c.val.toNat ∨ 0x80 ≤ b.toNat := by
  unfold String.utf8EncodeChar at hb
  simp only at hb
  split at hb
  · obtain rfl := List.mem_singleton.mp hb
    rw [UInt8.toNat_ofNat']
    omega
  · split at hb
    all_goals try split at hb
    all_goals
      simp only [List.mem_cons, List.not_mem_nil, or_false, ← UInt8.toNat_inj, UInt8.toNat_ofNat'] at hb
      omega

@[simp] theorem encode_nil : encode [] = [] := rfl

theorem encode_cons (c : Char) (rest : List Char) :
    encode (c :: rest) = String.utf8EncodeChar c ++ encode rest := List.flatMap_cons

theorem encode_append (front rest : List Char) :
    encode (front ++ rest) = encode front ++ encode rest := List.flatMap_append

theorem length_encode (text : List Char) : (encode text).length = size text := by
  induction text with
  | nil => rfl
  | cons c rest ih =>
    rw [encode_cons, List.length_append, String.length_utf8EncodeChar, ih, size_cons]

theorem utf8EncodeChar_of_ascii {c : Char} (hascii : c.toNat < 0x80) :
    String.utf8EncodeChar c = [UInt8.ofNat c.toNat] := by
  have hone : c.val.toNat ≤ 0x7F := Nat.le_of_lt_succ hascii
  rw [String.utf8EncodeChar]
  simp only [if_pos hone]
  rfl

theorem encode_cons_of_ascii {c : Char} (hascii : c.toNat < 0x80) (rest : List Char) :
    encode (c :: rest) = UInt8.ofNat c.toNat :: encode rest := by
  rw [encode_cons, utf8EncodeChar_of_ascii hascii, List.singleton_append]

/-- An ASCII byte at the start of a text is its first character. -/
theorem exists_cons_of_encode {text : List Char} {b : UInt8} {bytes : List UInt8}
    (hbytes : encode text = b :: bytes) (hascii : b.toNat < 0x80) :
    ∃ c rest, text = c :: rest ∧ c.toNat = b.toNat ∧ encode rest = bytes := by
  cases text with
  | nil => cases hbytes
  | cons c rest =>
    have hfirst : b ∈ String.utf8EncodeChar c := by
      have hsome : String.utf8EncodeChar c ≠ [] := by
        rw [← List.length_pos_iff, String.length_utf8EncodeChar]
        exact c.utf8Size_pos
      obtain ⟨first, others, hchar⟩ := List.exists_cons_of_ne_nil hsome
      rw [encode_cons, hchar, List.cons_append] at hbytes
      rw [hchar, ← (List.cons.inj hbytes).1]
      exact List.mem_cons_self ..
    obtain hvalue | hlarge := toNat_of_mem_utf8EncodeChar hfirst
    · rw [hvalue] at hascii
      rw [encode_cons_of_ascii hascii] at hbytes
      exact ⟨c, rest, rfl, hvalue.symm, (List.cons.inj hbytes).2⟩
    · omega

/-- No character but itself has an ASCII character among its bytes. -/
theorem mem_utf8EncodeChar_iff {c : Char} (hascii : c.toNat < 0x80) (other : Char) :
    UInt8.ofNat c.toNat ∈ String.utf8EncodeChar other ↔ other = c := by
  constructor
  · intro hbyte
    have hvalue : (UInt8.ofNat c.toNat).toNat = c.toNat := by
      rw [UInt8.toNat_ofNat']
      omega
    obtain hsame | hlarge := toNat_of_mem_utf8EncodeChar hbyte
    · exact Char.ext (UInt32.toNat_inj.mp (hsame.symm.trans hvalue))
    · omega
  · rintro rfl
    rw [utf8EncodeChar_of_ascii hascii]
    exact List.mem_singleton_self _

theorem mem_encode_iff {c : Char} (hascii : c.toNat < 0x80) {text : List Char} :
    UInt8.ofNat c.toNat ∈ encode text ↔ c ∈ text := by
  simp only [encode, List.mem_flatMap, mem_utf8EncodeChar_iff hascii, exists_eq_right]

theorem count_encode {c : Char} (hascii : c.toNat < 0x80) (text : List Char) :
    (encode text).count (UInt8.ofNat c.toNat) = text.count c := by
  induction text with
  | nil => rfl
  | cons other rest ih =>
    rw [encode_cons, List.count_append, ih, List.count_cons, Nat.add_comm, Nat.add_left_cancel_iff]
    by_cases hsame : other = c
    · rw [hsame, utf8EncodeChar_of_ascii hascii, List.count_singleton_self, if_pos (beq_self_eq_true c)]
    · rw [if_neg (by simpa using hsame), List.count_eq_zero]
      exact fun hbyte => hsame ((mem_utf8EncodeChar_iff hascii other).mp hbyte)

/-- Cutting a text at an ASCII character is cutting its bytes at that character's byte. -/
theorem pieces_encode {c : Char} (hascii : c.toNat < 0x80) (text : List Char) :
    pieces (· == UInt8.ofNat c.toNat) (encode text) = (pieces (· == c) text).map encode := by
  have hlacks : ∀ piece : List Char, (∀ other ∈ piece, (other == c) = false) →
      pieces (· == UInt8.ofNat c.toNat) (encode piece) = [encode piece] := by
    intro piece hpiece
    apply pieces_of_not_mem
    rw [mem_encode_iff hascii]
    intro hc
    have hother := hpiece c hc
    rw [beq_self_eq_true] at hother
    cases hother
  induction text using pieces_induction (· == c) with
  | single piece hpiece => rw [hlacks piece hpiece, pieces_of_lacks hpiece, List.map_singleton]
  | separated piece other late hpiece hother ih =>
    obtain rfl := beq_iff_eq.mp hother
    rw [encode_append, encode_cons_of_ascii hascii, pieces_at, pieces_at, hlacks piece hpiece,
      pieces_of_lacks hpiece, ih, List.map_append, List.map_singleton]

end PacketMonitor.Text.Utf8

import Mathlib.Algebra.Group.Nat.Defs
import PacketMonitor.Proofs.Text.Repair

namespace PacketMonitor.Text.Utf8

open String (utf8EncodeChar)

/-- The last bytes of a code point's UTF-8 form, each with six of its bits. -/
def tail (n : Nat) : Nat → List UInt8
  | 0 => []
  | count + 1 => UInt8.ofNat (0x80 + n / 64 ^ count % 64) :: tail n count

/-- The first byte of a code point's UTF-8 form. -/
def first (n : Nat) : Nat :=
  if n < 0x80 then n else if n < 0x800 then 0xC0 + n / 64 ^ 1
  else if n < 0x10000 then 0xE0 + n / 64 ^ 2 else 0xF0 + n / 64 ^ 3

/-- The number of bytes behind the first one in a code point's UTF-8 form. -/
def more (n : Nat) : Nat :=
  if n < 0x80 then 0 else if n < 0x800 then 1 else if n < 0x10000 then 2 else 3

theorem first_cases (n : Nat) :
    n < 0x80 ∧ first n = n ∧ more n = 0 ∨
      (0x80 ≤ n ∧ n < 0x800) ∧ first n = 0xC0 + n / 64 ∧ more n = 1 ∨
      (0x800 ≤ n ∧ n < 0x10000) ∧ first n = 0xE0 + n / 4096 ∧ more n = 2 ∨
      0x10000 ≤ n ∧ first n = 0xF0 + n / 262144 ∧ more n = 3 := by
  unfold first more
  split_ifs <;> simp <;> omega

theorem toNat_lt_limit (c : Char) : c.toNat < 0x110000 := by
  obtain hlow | ⟨-, hhigh⟩ := c.valid
  · exact Nat.lt_trans hlow (by decide)
  · exact hhigh

theorem utf8EncodeChar_eq (c : Char) :
    utf8EncodeChar c = UInt8.ofNat (first c.toNat) :: tail c.toNat (more c.toNat) := by
  have hlimit : c.val.toNat < 0x110000 := toNat_lt_limit c
  have hcode : c.toNat = c.val.toNat := rfl
  rw [utf8EncodeChar, hcode, first, more]
  generalize c.val.toNat = n at hlimit ⊢
  by_cases hone : n < 0x80
  · have hle : n ≤ 0x7F := Nat.le_of_lt_succ hone
    simp only [if_pos hone, if_pos hle, tail]
  by_cases htwo : n < 0x800
  · have hnot : ¬ n ≤ 0x7F := by omega
    have hle : n ≤ 0x7FF := Nat.le_of_lt_succ htwo
    simp only [if_neg hone, if_neg hnot, if_pos htwo, if_pos hle, tail, List.cons.injEq, and_true,
      ← UInt8.toNat_inj, UInt8.toNat_ofNat']
    omega
  have hnot : ¬ n ≤ 0x7F := by omega
  have hnot' : ¬ n ≤ 0x7FF := by omega
  by_cases hthree : n < 0x10000
  · have hle : n ≤ 0xFFFF := Nat.le_of_lt_succ hthree
    simp only [if_neg hone, if_neg hnot, if_neg htwo, if_neg hnot', if_pos hthree, if_pos hle, tail,
      List.cons.injEq, and_true, ← UInt8.toNat_inj, UInt8.toNat_ofNat']
    omega
  · have hnot'' : ¬ n ≤ 0xFFFF := by omega
    simp only [if_neg hone, if_neg hnot, if_neg htwo, if_neg hnot', if_neg hthree, if_neg hnot'', tail,
      List.cons.injEq, and_true, ← UInt8.toNat_inj, UInt8.toNat_ofNat']
    omega

theorem toNat_lt_of_mem_tail {n count : Nat} {b : UInt8} (hb : b ∈ tail n count) : b.toNat < 0xC0 := by
  induction count with
  | zero => cases hb
  | succ count ih =>
    obtain rfl | hb := List.mem_cons.mp hb
    · rw [UInt8.toNat_ofNat']
      omega
    · exact ih hb

/-- The three largest bytes do not occur in UTF-8. -/
theorem toNat_lt_of_mem_utf8EncodeChar {c : Char} {b : UInt8} (hb : b ∈ utf8EncodeChar c) :
    b.toNat < 0xF8 := by
  have hlimit := toNat_lt_limit c
  rw [utf8EncodeChar_eq] at hb
  obtain rfl | hb := List.mem_cons.mp hb
  · have hform := first_cases c.toNat
    rw [UInt8.toNat_ofNat']
    omega
  · exact Nat.lt_trans (toNat_lt_of_mem_tail hb) (by decide)

/-- A code point goes with what has been read of its UTF-8 form: its leading bits were collected,
    and its next byte lies within the bounds. -/
def Spans (low high : UInt8) (count value n : Nat) : Prop :=
  n / 64 ^ (count + 1) = value ∧ low.toNat ≤ 0x80 + n / 64 ^ count % 64 ∧
    0x80 + n / 64 ^ count % 64 ≤ high.toNat

/-- What a state between the bytes of a character says of the bytes read since it began: they
    begin exactly the characters that go with it, of which there are some. -/
structure Begun (low high : UInt8) (count value : Nat) (read : List UInt8) : Prop where
  ne_nil : read ≠ []
  low_ge : 0x80 ≤ low.toNat
  low_le : low.toNat ≤ high.toNat
  high_le : high.toNat ≤ 0xBF
  spans : ∀ c, read <+: utf8EncodeChar c → Spans low high count value c.toNat
  encode : ∀ c : Char, Spans low high count value c.toNat →
    utf8EncodeChar c = read ++ tail c.toNat (count + 1)
  valid : ∀ n, Spans low high count value n → n.isValidChar

theorem toNat_ofNat_of_valid {n : Nat} (hvalid : n.isValidChar) : (Char.ofNat n).toNat = n := by
  rw [Char.ofNat, dif_pos hvalid]
  rfl

theorem toNat_tail_byte (n count : Nat) :
    (UInt8.ofNat (0x80 + n / 64 ^ count % 64)).toNat = 0x80 + n / 64 ^ count % 64 := by
  rw [UInt8.toNat_ofNat']
  omega

/-- One more byte within the bounds adds its bits to those collected. -/
theorem spans_next {low high b : UInt8} {count value n : Nat} (hlow : 0x80 ≤ low.toNat)
    (hhigh : high.toNat ≤ 0xBF) (hfits : low ≤ b ∧ b ≤ high) :
    Spans 0x80 0xBF count (value * 64 + (b.toNat - 0x80)) n ↔
      Spans low high (count + 1) value n ∧ 0x80 + n / 64 ^ (count + 1) % 64 = b.toNat := by
  have hleading : n / 64 ^ (count + 1 + 1) = n / 64 ^ (count + 1) / 64 := by
    rw [Nat.pow_succ, Nat.div_div_eq_div_mul]
  have hmin : (0x80 : UInt8).toNat = 0x80 := rfl
  have hmax : (0xBF : UInt8).toNat = 0xBF := rfl
  have hfrom := UInt8.le_iff_toNat_le.mp hfits.1
  have hto := UInt8.le_iff_toNat_le.mp hfits.2
  simp only [Spans, hleading, hmin, hmax]
  omega

namespace Begun

variable {low high b : UInt8} {count value : Nat} {read : List UInt8}

theorem exists_next (hbegun : Begun low high count value read) {c : Char}
    (hread : read <+: utf8EncodeChar c) :
    ∃ b, (low ≤ b ∧ b ≤ high) ∧ read ++ [b] <+: utf8EncodeChar c := by
  have hspans := hbegun.spans c hread
  refine ⟨UInt8.ofNat (0x80 + c.toNat / 64 ^ count % 64), ?_, ?_⟩
  · rw [UInt8.le_iff_toNat_le, UInt8.le_iff_toNat_le, toNat_tail_byte]
    exact hspans.2
  · rw [hbegun.encode c hspans, tail, List.prefix_append_right_inj]
    exact List.cons_prefix_cons.mpr ⟨rfl, List.nil_prefix⟩

theorem exists_char (hbegun : Begun low high count value read) :
    ∃ c, read <+: utf8EncodeChar c := by
  have hspans : Spans low high count value ((value * 64 + (low.toNat - 0x80)) * 64 ^ count) := by
    have hpositive : 0 < 64 ^ count := Nat.pow_pos (by decide)
    have hlow := hbegun.low_ge
    have hle := hbegun.low_le
    have hhigh := hbegun.high_le
    rw [Spans, Nat.pow_succ, ← Nat.div_div_eq_div_mul, Nat.mul_div_cancel _ hpositive]
    omega
  rw [← toNat_ofNat_of_valid (hbegun.valid _ hspans)] at hspans
  exact ⟨_, hbegun.encode _ hspans ▸ List.prefix_append ..⟩

theorem next (hbegun : Begun low high (count + 1) value read) (hfits : low ≤ b ∧ b ≤ high) :
    Begun 0x80 0xBF count (value * 64 + (b.toNat - 0x80)) (read ++ [b]) := by
  have hiff : ∀ n, Spans 0x80 0xBF count (value * 64 + (b.toNat - 0x80)) n ↔
      Spans low high (count + 1) value n ∧ 0x80 + n / 64 ^ (count + 1) % 64 = b.toNat :=
    fun n => spans_next hbegun.low_ge hbegun.high_le hfits
  refine ⟨List.append_ne_nil_of_left_ne_nil hbegun.ne_nil _, by decide, by decide, by decide,
    fun c hread => ?_, fun c hspans => ?_, fun n hspans => hbegun.valid n ((hiff n).mp hspans).1⟩
  · have hspans := hbegun.spans c ((List.prefix_append ..).trans hread)
    rw [hbegun.encode c hspans, tail, List.prefix_append_right_inj, List.cons_prefix_cons] at hread
    exact (hiff _).mpr ⟨hspans, by rw [hread.1, toNat_tail_byte]⟩
  · obtain ⟨hspans, hbyte⟩ := (hiff _).mp hspans
    rw [hbegun.encode c hspans, tail, hbyte, UInt8.ofNat_toNat, List.append_assoc,
      List.singleton_append]

/-- The last byte of a character completes it. -/
theorem last (hbegun : Begun low high 0 value read) (hfits : low ≤ b ∧ b ≤ high) :
    utf8EncodeChar (Char.ofNat (value * 64 + (b.toNat - 0x80))) = read ++ [b] := by
  have hlow := hbegun.low_ge
  have hhigh := hbegun.high_le
  have hfrom := UInt8.le_iff_toNat_le.mp hfits.1
  have hto := UInt8.le_iff_toNat_le.mp hfits.2
  have hbyte : 0x80 + (value * 64 + (b.toNat - 0x80)) / 64 ^ 0 % 64 = b.toNat := by
    rw [Nat.pow_zero, Nat.div_one]
    omega
  have hspans : Spans low high 0 value (value * 64 + (b.toNat - 0x80)) := by
    rw [Spans, hbyte, Nat.zero_add, Nat.pow_one]
    omega
  have hcode := toNat_ofNat_of_valid (hbegun.valid _ hspans)
  rw [hbegun.encode _ (hcode.symm ▸ hspans), hcode, tail, hbyte, UInt8.ofNat_toNat, tail]

/-- Begun bytes are a maximal subpart where no byte within the bounds follows. -/
theorem maximalSubpart (hbegun : Begun low high count value read) {rest : List UInt8}
    (hstop : ∀ b ∈ rest.head?, ¬ (low ≤ b ∧ b ≤ high)) : MaximalSubpart read rest := by
  have hstuck : ∀ b, low ≤ b ∧ b ≤ high → ¬ read ++ [b] <+: read ++ rest := by
    intro b hfits hnext
    rw [List.prefix_append_right_inj] at hnext
    obtain ⟨more, rfl⟩ := hnext
    exact hstop b rfl hfits
  obtain ⟨c₀, hc₀⟩ := hbegun.exists_char
  refine ⟨hbegun.ne_nil, fun c hc => ?_, .inr ⟨c₀, hc₀⟩, fun front c hfront hc => ?_⟩
  · -- A character within the bytes read would be the one that they begin.
    have hread : read <+: utf8EncodeChar c := by
      obtain hinside | hread := List.prefix_or_prefix_of_prefix hc (List.prefix_append ..)
      · rwa [eq_of_starts (hinside.trans hc₀)]
      · exact hread
    obtain ⟨b, hfits, hnext⟩ := hbegun.exists_next hread
    exact hstuck b hfits (hnext.trans hc)
  · by_contra hlonger
    have hread : read <+: front :=
      List.prefix_of_prefix_length_le (List.prefix_append ..) hfront (by omega)
    obtain ⟨b, hfits, hnext⟩ := hbegun.exists_next (hread.trans hc)
    have hlength : (read ++ [b]).length ≤ front.length := by
      rw [List.length_append, List.length_singleton]
      omega
    exact hstuck b hfits ((List.prefix_of_prefix_length_le hnext hc hlength).trans hfront)

end Begun

theorem singleton_prefix_iff {b : UInt8} {c : Char} :
    [b] <+: utf8EncodeChar c ↔ first c.toNat = b.toNat := by
  have hlimit := toNat_lt_limit c
  have hfirst : first c.toNat < 0x100 := by
    unfold first
    split_ifs <;> omega
  rw [utf8EncodeChar_eq, List.cons_prefix_cons, ← UInt8.toNat_inj, UInt8.toNat_ofNat',
    Nat.mod_eq_of_lt hfirst, eq_comm]
  simp

/-- A first byte tells how many bytes follow, and begins the characters with certain bits. -/
theorem begun_singleton {b low high : UInt8} {count value : Nat}
    (hbounds : 0x80 ≤ low.toNat ∧ low.toNat ≤ high.toNat ∧ high.toNat ≤ 0xBF)
    (hcount : count = 0 ∧ 0xC0 ≤ b.toNat ∧ b.toNat < 0xE0 ∨
      count = 1 ∧ 0xE0 ≤ b.toNat ∧ b.toNat < 0xF0 ∨ count = 2 ∧ 0xF0 ≤ b.toNat)
    (hspans : ∀ n : Nat, Spans low high count value n ↔ n.isValidChar ∧ first n = b.toNat) :
    Begun low high count value [b] := by
  obtain ⟨hlow, hle, hhigh⟩ := hbounds
  refine ⟨List.cons_ne_nil _ _, hlow, hle, hhigh, fun c hread => ?_, fun c hc => ?_,
    fun n hn => ((hspans n).mp hn).1⟩
  · exact (hspans _).mpr ⟨c.valid, singleton_prefix_iff.mp hread⟩
  · obtain ⟨-, hfirst⟩ := (hspans _).mp hc
    have hmore : more c.toNat = count + 1 := by
      have hform := first_cases c.toNat
      have hlimit := toNat_lt_limit c
      omega
    rw [utf8EncodeChar_eq, hfirst, hmore, UInt8.ofNat_toNat, List.singleton_append]

theorem lead_eq (b : UInt8) :
    lead b =
      if b.toNat < 0x80 then (.ready, [some (Char.ofNat b.toNat)])
      else if b.toNat < 0xC2 then (.ready, [none])
      else if b.toNat < 0xE0 then (.inside 0x80 0xBF 0 (b.toNat - 0xC0), [])
      else if b.toNat = 0xE0 then (.inside 0xA0 0xBF 1 0, [])
      else if b.toNat = 0xED then (.inside 0x80 0x9F 1 0x0D, [])
      else if b.toNat < 0xF0 then (.inside 0x80 0xBF 1 (b.toNat - 0xE0), [])
      else if b.toNat = 0xF0 then (.inside 0x90 0xBF 2 0, [])
      else if b.toNat < 0xF4 then (.inside 0x80 0xBF 2 (b.toNat - 0xF0), [])
      else if b.toNat = 0xF4 then (.inside 0x80 0x8F 2 4, [])
      else (.ready, [none]) := by
  simp only [lead, UInt8.lt_iff_toNat_lt, ← UInt8.toNat_inj]
  rfl

/-- What the first byte of a character leads to: it is a whole character, or begins none, or
    begins some. -/
inductive Led (b : UInt8) : State × List Decoded → Prop where
  | whole {c : Char} (hc : utf8EncodeChar c = [b]) : Led b (.ready, [some c])
  | stray (hnone : ∀ c, ¬ [b] <+: utf8EncodeChar c) : Led b (.ready, [none])
  | begun {low high : UInt8} {count value : Nat} (hbegun : Begun low high count value [b]) :
    Led b (.inside low high count value, [])

theorem led_lead (b : UInt8) : Led b (lead b) := by
  have hstray : (∀ n : Nat, n.isValidChar → first n ≠ b.toNat) → ∀ c, ¬ [b] <+: utf8EncodeChar c :=
    fun hother c hread => hother c.toNat c.valid (singleton_prefix_iff.mp hread)
  rw [lead_eq]
  split
  · rename_i hone
    have hcode : (Char.ofNat b.toNat).toNat = b.toNat :=
      toNat_ofNat_of_valid (.inl (Nat.lt_trans hone (by decide)))
    refine .whole ?_
    rw [utf8EncodeChar_of_ascii (hcode.symm ▸ hone), hcode, UInt8.ofNat_toNat]
  split
  · refine .stray (hstray fun n hvalid => ?_)
    have hform := first_cases n
    omega
  -- Seven rows of the definition, each with the bits and the bounds that go with its bytes.
  iterate 7
    split
    · refine .begun (begun_singleton (by decide) (by omega) fun n => ?_)
      have hform := first_cases n
      simp only [Spans, Nat.isValidChar, UInt8.reduceToNat, Nat.reduceAdd, Nat.reducePow]
      omega
  refine .stray (hstray fun n hvalid => ?_)
  have hform := first_cases n
  have hlimit : n < 0xD800 ∨ 0xDFFF < n ∧ n < 0x110000 := hvalid
  omega

theorem scanFrom_eq (state : State) (done : List Decoded) (bytes : List UInt8) :
    scanFrom state done bytes = done.reverse ++ scanFrom state [] bytes := by
  induction bytes generalizing state done with
  | nil => simp [scanFrom]
  | cons b rest ih =>
    simp only [scanFrom]
    rw [ih, ih _ (_ ++ []), List.append_nil, List.reverse_append, List.append_assoc]

/-- The text that is read from a state on. -/
def textFrom (state : State) (bytes : List UInt8) : List Char :=
  (scanFrom state [] bytes).map (·.getD replacement)

theorem textFrom_cons (state : State) (b : UInt8) (rest : List UInt8) :
    textFrom state (b :: rest) =
      (step state b).2.map (·.getD replacement) ++ textFrom (step state b).1 rest := by
  simp only [textFrom, scanFrom]
  rw [scanFrom_eq, List.append_nil, List.reverse_reverse, List.map_append]

/-- A byte that does not fit closes the character begun and is read again as a first byte. -/
theorem textFrom_inside_cons {low high b : UInt8} {count value : Nat} (hother : ¬ (low ≤ b ∧ b ≤ high))
    (rest : List UInt8) :
    textFrom (.inside low high count value) (b :: rest) = replacement :: textFrom .ready (b :: rest) := by
  simp only [textFrom_cons, step, if_neg hother]
  rfl

theorem MaximalSubpart.of_stray {b : UInt8} (hnone : ∀ c, ¬ [b] <+: utf8EncodeChar c)
    (rest : List UInt8) : MaximalSubpart [b] rest := by
  have hfirst : ∀ {front c}, front ≠ [] → front <+: [b] ++ rest → ¬ front <+: utf8EncodeChar c := by
    intro front c hsome hfront hc
    have hb : [b] <+: front :=
      List.prefix_of_prefix_length_le (List.prefix_append ..) hfront (List.length_pos_iff.mpr hsome)
    exact hnone c (hb.trans hc)
  refine ⟨List.cons_ne_nil _ _, fun c hc => ?_, .inl rfl, fun front c hfront hc => ?_⟩
  · exact hfirst (utf8EncodeChar_ne_nil c) hc List.prefix_rfl
  · cases front with
    | nil => exact Nat.zero_le _
    | cons b' more => exact absurd hc (hfirst (List.cons_ne_nil _ _) hfront)

/-- Between characters the bytes to come are repaired, and within a character those read of it
    together with them. -/
theorem repaired_textFrom (bytes : List UInt8) :
    Repaired bytes (textFrom .ready bytes) ∧ ∀ {low high count value read},
      Begun low high count value read →
        Repaired (read ++ bytes) (textFrom (.inside low high count value) bytes) := by
  induction bytes with
  | nil =>
    refine ⟨.nil, fun hbegun => ?_⟩
    exact .subpart rfl (hbegun.maximalSubpart fun _ hb => nomatch hb) .nil
  | cons b rest ih =>
    obtain ⟨hrest, hinside⟩ := ih
    have hready : Repaired (b :: rest) (textFrom .ready (b :: rest)) := by
      rw [textFrom_cons, step]
      generalize hlead : lead b = led
      cases hlead ▸ led_lead b with
      | @whole c hc =>
        have hbytes : b :: rest = utf8EncodeChar c ++ rest := by rw [hc, List.singleton_append]
        exact .char hbytes hrest
      | stray hnone => exact .subpart rfl (.of_stray hnone rest) hrest
      | begun hbegun => exact hinside hbegun
    refine ⟨hready, fun {low high count value read} hbegun => ?_⟩
    by_cases hfits : low ≤ b ∧ b ≤ high
    · rw [textFrom_cons, step, if_pos hfits]
      cases count with
      | zero =>
        have hbytes : read ++ b :: rest =
            utf8EncodeChar (Char.ofNat (value * 64 + (b.toNat - 0x80))) ++ rest := by
          rw [hbegun.last hfits, List.append_assoc, List.singleton_append]
        simp only [List.map_singleton, Option.getD_some, List.singleton_append]
        exact .char hbytes hrest
      | succ count =>
        have hnext := hinside (hbegun.next hfits)
        rwa [List.append_assoc, List.singleton_append] at hnext
    · rw [textFrom_inside_cons hfits]
      have hstop : ∀ b' ∈ (b :: rest).head?, ¬ (low ≤ b' ∧ b' ≤ high) := by
        rintro b' ⟨⟩
        exact hfits
      exact .subpart rfl (hbegun.maximalSubpart hstop) hready

/-- Decoding replaces the maximal subparts that are ill-formed, and nothing else. -/
theorem repaired_decodeLossy (bytes : List UInt8) : Repaired bytes (decodeLossy bytes) :=
  (repaired_textFrom bytes).1

theorem decodeLossy_eq_iff {bytes : List UInt8} {text : List Char} :
    decodeLossy bytes = text ↔ Repaired bytes text := by
  constructor
  · rintro rfl
    exact repaired_decodeLossy bytes
  · exact (repaired_decodeLossy bytes).unique

/-- What is written in UTF-8 is read as it was. -/
theorem decodeLossy_encode (text : List Char) : decodeLossy (encode text) = text :=
  decodeLossy_eq_iff.mpr (.encode text)

/-- Decoding makes up no ASCII character. -/
theorem mem_of_mem_decodeLossy {bytes : List UInt8} {c : Char} (hmem : c ∈ decodeLossy bytes)
    (hascii : c.toNat < 0x80) : UInt8.ofNat c.toNat ∈ bytes :=
  (repaired_decodeLossy bytes).mem hascii hmem

end PacketMonitor.Text.Utf8

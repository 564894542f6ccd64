import Mathlib.Data.List.Induction
import PacketMonitor.Proofs.Text.Blank
import PacketMonitor.Proofs.Text.Numeral

namespace PacketMonitor.Text

/-- A character is the hexadecimal digit of a value, in one case or the other. -/
def HexDigit (c : Char) (value : Nat) : Prop :=
  value < 16 ∧ (c = Nat.digitChar value ∨ c = (Nat.digitChar value).toUpper)

instance (c : Char) (value : Nat) : Decidable (HexDigit c value) :=
  inferInstanceAs (Decidable (_ ∧ _))

/-- Some hexadecimal digits spell a number, most significant first. There may be any number
    of zeros in front. -/
inductive SpellsHex : List Char → Nat → Prop where
  | digit {c : Char} {value : Nat} (hdigit : HexDigit c value) : SpellsHex [c] value
  | append {digits : List Char} {n : Nat} {c : Char} {value : Nat} (hdigits : SpellsHex digits n)
    (hdigit : HexDigit c value) : SpellsHex (digits ++ [c]) (n * 16 + value)

namespace HexDigit

variable {c : Char} {value : Nat}

theorem digitValue_eq (hdigit : HexDigit c value) : digitValue c = value := by
  have hall : ∀ value < 16, digitValue (Nat.digitChar value) = value ∧
      digitValue (Nat.digitChar value).toUpper = value := by decide
  obtain ⟨hlt, rfl | rfl⟩ := hdigit
  · exact (hall value hlt).1
  · exact (hall value hlt).2

theorem isDigitOf (hdigit : HexDigit c value) : isDigitOf 16 c = true := by
  rw [Text.isDigitOf, hdigit.digitValue_eq]
  exact decide_eq_true hdigit.1

theorem isBlank_eq (hdigit : HexDigit c value) : isBlank c = false := by
  have hall : ∀ value < 16, isBlank (Nat.digitChar value) = false ∧
      isBlank (Nat.digitChar value).toUpper = false := by decide
  obtain ⟨hlt, rfl | rfl⟩ := hdigit
  · exact (hall value hlt).1
  · exact (hall value hlt).2

theorem toNat_lt (hdigit : HexDigit c value) : c.toNat < 0x80 := by
  have hall : ∀ value < 16, (Nat.digitChar value).toNat < 0x80 ∧
      (Nat.digitChar value).toUpper.toNat < 0x80 := by decide
  obtain ⟨hlt, rfl | rfl⟩ := hdigit
  · exact (hall value hlt).1
  · exact (hall value hlt).2

theorem ne_equals (hdigit : HexDigit c value) : c ≠ '=' := by
  rintro rfl
  have hvalue := hdigit.digitValue_eq
  have hlt := hdigit.1
  have hequals : digitValue '=' = 36 := by decide
  omega

theorem of_isDigitOf (hdigit : Text.isDigitOf 16 c = true) : HexDigit c (digitValue c) := by
  have hall : ∀ n < 128, Text.isDigitOf 16 (Char.ofNat n) = true →
      HexDigit (Char.ofNat n) (digitValue (Char.ofNat n)) := by decide
  have hascii : c.toNat < 128 := by
    by_contra hbeyond
    have hother : digitValue c = 36 := by
      simp only [digitValue, Char.le_def, UInt32.le_iff_toNat_le]
      simp only [Char.toNat] at hbeyond
      rw [if_neg, if_neg, if_neg]
      all_goals
        rintro ⟨-, hle⟩
        have hlimit := Nat.le_trans (Nat.le_of_not_lt hbeyond) hle
        revert hlimit
        decide
    rw [Text.isDigitOf, hother] at hdigit
    exact absurd hdigit (by decide)
  have hdigit' := hall c.toNat hascii
  rw [Char.ofNat_toNat] at hdigit'
  exact hdigit' hdigit

end HexDigit

namespace SpellsHex

variable {digits : List Char} {n : Nat}

theorem forall_digit (hspells : SpellsHex digits n) : ∀ c ∈ digits, ∃ value, HexDigit c value := by
  induction hspells with
  | digit hdigit =>
    intro c hc
    obtain rfl := List.mem_singleton.mp hc
    exact ⟨_, hdigit⟩
  | append hdigits hdigit ih =>
    intro c hc
    obtain hc | hc := List.mem_append.mp hc
    · exact ih c hc
    · obtain rfl := List.mem_singleton.mp hc
      exact ⟨_, hdigit⟩

theorem equals_not_mem (hspells : SpellsHex digits n) : '=' ∉ digits := by
  intro hmem
  obtain ⟨value, hdigit⟩ := hspells.forall_digit '=' hmem
  exact hdigit.ne_equals rfl

theorem digitsValue_eq (hspells : SpellsHex digits n) : digitsValue 16 digits = n := by
  induction hspells with
  | digit hdigit =>
    exact (Nat.zero_add _).trans hdigit.digitValue_eq
  | append hdigits hdigit ih =>
    rw [digitsValue_append_singleton, ih, hdigit.digitValue_eq]

theorem numeral?_eq (hspells : SpellsHex digits n) : numeral? 16 digits = some n := by
  have hsome : digits ≠ [] := by
    cases hspells with
    | digit => exact List.cons_ne_nil _ _
    | append => exact List.append_ne_nil_of_right_ne_nil _ (List.cons_ne_nil _ _)
  have hall : digits.all (isDigitOf 16) = true := by
    refine List.all_eq_true.mpr fun c hc => ?_
    obtain ⟨value, hdigit⟩ := hspells.forall_digit c hc
    exact hdigit.isDigitOf
  rw [numeral?, if_pos (by simp [hsome, hall]), hspells.digitsValue_eq]

/-- The digits of a number are not trimmed, and all blanks behind them are. -/
theorem trimEnd_append (hspells : SpellsHex digits n) {blanks : List Char}
    (hblanks : ∀ c ∈ blanks, isBlank c = true) : trimEnd (digits ++ blanks) = digits := by
  rw [trimEnd_append_blanks digits hblanks]
  cases hspells with
  | digit hdigit => exact trimEnd_concat [] hdigit.isBlank_eq
  | append _ hdigit => exact trimEnd_concat _ hdigit.isBlank_eq

theorem digitsValue (hsome : digits ≠ []) (hall : ∀ c ∈ digits, isDigitOf 16 c = true) :
    SpellsHex digits (digitsValue 16 digits) := by
  induction digits using List.reverseRecOn with
  | nil => exact absurd rfl hsome
  | append_singleton digits c ih =>
    have hdigit := HexDigit.of_isDigitOf (hall c (by simp))
    by_cases hone : digits = []
    · subst hone
      rw [List.nil_append, (SpellsHex.digit hdigit).digitsValue_eq]
      exact .digit hdigit
    · rw [digitsValue_append_singleton]
      exact .append (ih hone fun b hb => hall b (List.mem_append_left _ hb)) hdigit

/-- What can be read as a hexadecimal numeral spells the number that is read. -/
theorem of_numeral?_eq (hnumeral : numeral? 16 digits = some n) : SpellsHex digits n := by
  rw [numeral?] at hnumeral
  split at hnumeral
  · rename_i hdigits
    rw [Bool.and_eq_true, Bool.not_eq_true', List.isEmpty_eq_false_iff, List.all_eq_true] at hdigits
    obtain rfl := Option.some.inj hnumeral
    exact digitsValue hdigits.1 hdigits.2
  · cases hnumeral

theorem numeralBelow?_eq_some_iff {limit : Nat} :
    numeralBelow? 16 limit digits = some n ↔ SpellsHex digits n ∧ n < limit := by
  rw [numeralBelow?, Option.filter_eq_some_iff, decide_eq_true_iff]
  exact and_congr_left' ⟨of_numeral?_eq, numeral?_eq⟩

/-- The numeral of a number spells it. -/
theorem hexadecimal (n : Nat) : SpellsHex (hexadecimal n) n := by
  refine toDigits_induction (by decide) (motive := fun n digits => SpellsHex digits n) ?_ ?_ n
  · exact fun digit hdigit => .digit ⟨hdigit, .inl rfl⟩
  · exact fun n digit _ hdigit hspells => hspells.append ⟨hdigit, .inl rfl⟩

/-- Two characters are a numeral if both are digits. -/
theorem numeral?_pair_eq_some_iff {high low : Char} :
    numeral? 16 [high, low] = some n ↔
      ∃ first second, HexDigit high first ∧ HexDigit low second ∧ n = first * 16 + second := by
  have hpair : ∀ {first second : Nat}, HexDigit high first → HexDigit low second →
      numeral? 16 [high, low] = some (first * 16 + second) :=
    fun hhigh hlow => (SpellsHex.append (.digit hhigh) hlow).numeral?_eq
  constructor
  · intro hnumeral
    have hdigits := (of_numeral?_eq hnumeral).forall_digit
    obtain ⟨first, hhigh⟩ := hdigits high (by simp)
    obtain ⟨second, hlow⟩ := hdigits low (by simp)
    rw [hpair hhigh hlow] at hnumeral
    exact ⟨first, second, hhigh, hlow, (Option.some.inj hnumeral).symm⟩
  · rintro ⟨first, second, hhigh, hlow, rfl⟩
    exact hpair hhigh hlow

end SpellsHex

end PacketMonitor.Text

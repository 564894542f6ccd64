import Mathlib.Data.List.Basic
import PacketMonitor.Text.Decimal

namespace PacketMonitor.Text

theorem digitValue_digitChar {digit : Nat} (hdigit : digit < 10) :
    digitValue (Nat.digitChar digit) = digit := by
  have hall : ∀ digit < 10, digitValue (Nat.digitChar digit) = digit := by decide
  exact hall digit hdigit

theorem isDigitOf_ten (c : Char) : isDigitOf 10 c = c.isDigit := by
  rw [Bool.eq_iff_iff]
  simp only [isDigitOf, digitValue, Char.isDigit, Char.le_def, decide_eq_true_eq, Bool.and_eq_true,
    UInt32.le_iff_toNat_le, ge_iff_le]
  change (if 48 ≤ c.toNat ∧ c.toNat ≤ 57 then c.toNat - 48 else if 97 ≤ c.toNat ∧ c.toNat ≤ 122 then
    c.toNat - 97 + 10 else if 65 ≤ c.toNat ∧ c.toNat ≤ 90 then c.toNat - 65 + 10 else 36) < 10 ↔
      48 ≤ c.toNat ∧ c.toNat ≤ 57
  split_ifs <;> omega

theorem digitsValue_append_singleton (base : Nat) (digits : List Char) (c : Char) :
    digitsValue base (digits ++ [c]) = digitsValue base digits * base + digitValue c := by
  rw [digitsValue, List.foldl_append]
  rfl

theorem digitsValue_eq_ofDigitChars {digits : List Char}
    (hdigits : ∀ c ∈ digits, c.isDigit = true) :
    digitsValue 10 digits = Nat.ofDigitChars 10 digits 0 := by
  have hdigit : ∀ value, ∀ c ∈ digits,
      value * 10 + digitValue c = 10 * value + (c.toNat - '0'.toNat) := by
    intro value c hc
    have hrange : '0' ≤ c ∧ c ≤ '9' := by
      simpa [Char.isDigit, Char.le_def] using hdigits c hc
    rw [digitValue, if_pos hrange, Nat.mul_comm]
  exact List.foldl_ext _ _ 0 hdigit

/-- What holds of the numerals of single digits, and of a numeral with one more digit
    if it holds without it, holds of all numerals. -/
theorem toDigits_induction {base : Nat} (hbase : 1 < base) {motive : Nat → List Char → Prop}
    (single : ∀ digit < base, motive digit [Nat.digitChar digit])
    (append : ∀ n digit, 0 < n → digit < base → motive n (Nat.toDigits base n) →
      motive (n * base + digit) (Nat.toDigits base n ++ [Nat.digitChar digit]))
    (n : Nat) : motive n (Nat.toDigits base n) := by
  induction n using Nat.strongRecOn with
  | ind n ih =>
    rw [Nat.toDigits_eq_if hbase]
    split
    · exact single n ‹_›
    · rename_i hlong
      have hle := Nat.le_of_not_lt hlong
      have hpositive : 0 < n / base := Nat.div_pos hle (by omega)
      have hless : n / base < n := Nat.div_lt_self (by omega) hbase
      have hstep := append (n / base) (n % base) hpositive (Nat.mod_lt _ (by omega)) (ih _ hless)
      rwa [Nat.div_add_mod'] at hstep

theorem le_foldl_digitValue {base : Nat} (hbase : 0 < base) (value : Nat) (digits : List Char) :
    value ≤ digits.foldl (fun value c => value * base + digitValue c) value := by
  induction digits generalizing value with
  | nil => exact Nat.le_refl value
  | cons c rest ih =>
    have hkept : value ≤ value * base := Nat.le_mul_of_pos_right value hbase
    exact Nat.le_trans (by omega) (ih (value * base + digitValue c))

theorem digitsValue_toDigits (n : Nat) : digitsValue 10 (Nat.toDigits 10 n) = n := by
  refine toDigits_induction (by decide) (motive := fun n digits => digitsValue 10 digits = n) ?_ ?_ n
  · intro digit hdigit
    exact (Nat.zero_add _).trans (digitValue_digitChar hdigit)
  · intro n digit _ hdigit hn
    rw [digitsValue_append_singleton, hn, digitValue_digitChar hdigit]

theorem isDigitOf_of_mem_toDigits {base n : Nat} {c : Char} (hbase : 1 < base)
    (hdigit : ∀ digit < base, isDigitOf base (Nat.digitChar digit) = true)
    (hc : c ∈ Nat.toDigits base n) : isDigitOf base c = true := by
  refine toDigits_induction hbase (motive := fun _ digits => ∀ c ∈ digits, isDigitOf base c = true)
    ?_ ?_ n c hc
  · intro digit hlt c hc
    obtain rfl := List.mem_singleton.mp hc
    exact hdigit digit hlt
  · intro n digit _ hlt hn c hc
    obtain hc | hc := List.mem_append.mp hc
    · exact hn c hc
    · obtain rfl := List.mem_singleton.mp hc
      exact hdigit digit hlt

theorem isDigitOf_ten_of_mem_toDigits {n : Nat} {c : Char} (hc : c ∈ Nat.toDigits 10 n) :
    isDigitOf 10 c = true :=
  isDigitOf_of_mem_toDigits (by decide) (by decide) hc

/-- Only the numeral of zero begins with a zero. -/
theorem toDigits_eq_zero_or_head_ne (n : Nat) :
    Nat.toDigits 10 n = ['0'] ∨ ∃ c rest, Nat.toDigits 10 n = c :: rest ∧ c ≠ '0' := by
  have hhead : ∀ digit < 10, digit = 0 ∨ Nat.digitChar digit ≠ '0' := by decide
  have hcases : n = 0 ∧ Nat.toDigits 10 n = ['0'] ∨
      0 < n ∧ ∃ c rest, Nat.toDigits 10 n = c :: rest ∧ c ≠ '0' := by
    refine toDigits_induction (by decide) (motive := fun n digits => n = 0 ∧ digits = ['0'] ∨
      0 < n ∧ ∃ c rest, digits = c :: rest ∧ c ≠ '0') ?_ ?_ n
    · intro digit hlt
      obtain rfl | hne := hhead digit hlt
      · exact .inl ⟨rfl, rfl⟩
      · have hpositive : digit ≠ 0 := fun hzero => hne (hzero ▸ rfl)
        exact .inr ⟨Nat.pos_of_ne_zero hpositive, _, [], rfl, hne⟩
    · rintro n digit hpositive - (⟨rfl, -⟩ | ⟨-, c, rest, hdigits, hne⟩)
      · exact absurd hpositive (Nat.lt_irrefl 0)
      · exact .inr ⟨by omega, c, rest ++ [Nat.digitChar digit], by rw [hdigits, List.cons_append], hne⟩
  exact hcases.imp And.right And.right

theorem exists_toDigits_eq_cons (n : Nat) :
    ∃ c rest, Nat.toDigits 10 n = c :: rest ∧ isDigitOf 10 c = true := by
  have hdigit : ∀ c ∈ Nat.toDigits 10 n, isDigitOf 10 c = true :=
    fun _ => isDigitOf_ten_of_mem_toDigits
  obtain hzero | ⟨c, rest, hdigits, -⟩ := toDigits_eq_zero_or_head_ne n
  · exact ⟨'0', [], hzero, rfl⟩
  · exact ⟨c, rest, hdigits, hdigit c (hdigits ▸ List.mem_cons_self ..)⟩

theorem numeral?_eq_some_iff {base n : Nat} {digits : List Char} :
    numeral? base digits = some n ↔
      (digits ≠ [] ∧ ∀ c ∈ digits, isDigitOf base c = true) ∧ digitsValue base digits = n := by
  have hdigits : (!digits.isEmpty && digits.all (isDigitOf base)) = true ↔
      digits ≠ [] ∧ ∀ c ∈ digits, isDigitOf base c = true := by
    simp [List.isEmpty_eq_false_iff, List.all_eq_true]
  rw [numeral?]
  split
  · rename_i hall
    rw [Option.some.injEq, and_iff_right (hdigits.mp hall)]
  · rename_i hnot
    exact ⟨nofun, fun h => absurd (hdigits.mpr h.1) hnot⟩

theorem numeral?_of_digits {base : Nat} {digits : List Char} (hsome : digits ≠ [])
    (hdigits : ∀ c ∈ digits, isDigitOf base c = true) :
    numeral? base digits = some (digitsValue base digits) :=
  numeral?_eq_some_iff.mpr ⟨⟨hsome, hdigits⟩, rfl⟩

theorem numeralBelow?_eq_some_iff {base limit n : Nat} {digits : List Char} :
    numeralBelow? base limit digits = some n ↔
      (digits ≠ [] ∧ ∀ c ∈ digits, isDigitOf base c = true) ∧ digitsValue base digits = n ∧
        n < limit := by
  rw [numeralBelow?, Option.filter_eq_some_iff, numeral?_eq_some_iff, decide_eq_true_iff, and_assoc]

theorem numeralBelow?_ten_eq_some_iff {limit n : Nat} {digits : List Char} :
    numeralBelow? 10 limit digits = some n ↔
      (digits ≠ [] ∧ ∀ c ∈ digits, c.isDigit = true) ∧ Nat.ofDigitChars 10 digits 0 = n ∧
        n < limit := by
  simp only [numeralBelow?_eq_some_iff, isDigitOf_ten]
  refine and_congr_right fun ⟨_, hdigits⟩ => ?_
  rw [digitsValue_eq_ofDigitChars hdigits]

/-- Takes one digit more into a number, as long as that stays below a limit. -/
def appendDigit? (base limit value : Nat) (c : Char) : Option Nat :=
  if isDigitOf base c ∧ value * base + digitValue c < limit then some (value * base + digitValue c)
  else none

theorem foldlM_appendDigit?_eq_some_iff {base limit value n : Nat} (hbase : 0 < base)
    (hvalue : value < limit) {digits : List Char} :
    digits.foldlM (appendDigit? base limit) value = some n ↔
      (∀ c ∈ digits, isDigitOf base c = true) ∧
        digits.foldl (fun value c => value * base + digitValue c) value = n ∧ n < limit := by
  induction digits generalizing value with
  | nil =>
    rw [List.foldlM_nil, List.foldl_nil, Option.pure_def, Option.some_inj]
    constructor
    · rintro rfl
      exact ⟨List.forall_mem_nil _, rfl, hvalue⟩
    · exact fun ⟨_, hn, _⟩ => hn
  | cons c rest ih =>
    have hgrows := le_foldl_digitValue hbase (value * base + digitValue c) rest
    rw [List.foldlM_cons, List.foldl_cons, List.forall_mem_cons, appendDigit?]
    split
    · rename_i hstep
      rw [Option.bind_eq_bind, Option.bind_some, ih hstep.2, and_iff_right hstep.1]
    · rename_i hstop
      -- What has reached the limit stays there, whatever digits follow.
      refine ⟨nofun, fun ⟨⟨hdigit, _⟩, hn, hlimit⟩ => absurd ⟨hdigit, ?_⟩ hstop⟩
      omega

/-- It makes no difference whether the limit is watched at each digit or at the end: zeros in
    front do not come near it, and from beyond it no digit leads back. -/
theorem numeralBelow?_eq_foldlM {base limit : Nat} (hbase : 0 < base) (hlimit : 0 < limit)
    {digits : List Char} (hsome : digits ≠ []) :
    numeralBelow? base limit digits = digits.foldlM (appendDigit? base limit) 0 := by
  refine Option.ext fun n => ?_
  rw [numeralBelow?_eq_some_iff, foldlM_appendDigit?_eq_some_iff hbase hlimit, and_iff_right hsome]
  rfl

/-- A number may have a plus sign in front of its digits, and nothing else. -/
theorem unsigned?_eq_some_iff {limit n : Nat} {text : List Char} :
    unsigned? limit text = some n ↔
      ∃ digits, (text = digits ∨ text = '+' :: digits) ∧
        (digits ≠ [] ∧ ∀ c ∈ digits, isDigitOf 10 c = true) ∧ digitsValue 10 digits = n ∧
          n < limit := by
  have hplus : isDigitOf 10 '+' = false := by decide
  constructor
  · intro hread
    unfold unsigned? at hread
    split at hread
    · exact ⟨_, .inr rfl, numeralBelow?_eq_some_iff.mp hread⟩
    · exact ⟨_, .inl rfl, numeralBelow?_eq_some_iff.mp hread⟩
  · rintro ⟨digits, rfl | rfl, hdigits⟩
    · unfold unsigned?
      split
      · have hdigit := hdigits.1.2 '+' (List.mem_cons_self ..)
        rw [hplus] at hdigit
        cases hdigit
      · exact numeralBelow?_eq_some_iff.mpr hdigits
    · exact numeralBelow?_eq_some_iff.mpr hdigits

theorem numeralBelow?_of_digits {base limit : Nat} {digits : List Char} (hsome : digits ≠ [])
    (hdigits : ∀ c ∈ digits, isDigitOf base c = true) :
    numeralBelow? base limit digits =
      if digitsValue base digits < limit then some (digitsValue base digits) else none := by
  rw [numeralBelow?, numeral?_of_digits hsome hdigits, Option.filter_some]
  simp only [decide_eq_true_eq]

theorem numeral?_toDigits (n : Nat) : numeral? 10 (Nat.toDigits 10 n) = some n := by
  obtain ⟨c, rest, hdigits, -⟩ := exists_toDigits_eq_cons n
  have hsome : Nat.toDigits 10 n ≠ [] := hdigits ▸ List.cons_ne_nil c rest
  rw [numeral?_of_digits hsome fun _ => isDigitOf_ten_of_mem_toDigits, digitsValue_toDigits]

/-- Digits are appended to the last one if the number that they make fits into 64 bits. -/
theorem appendDigits_of_lt {value : Nat} {digits : List Char}
    (hfits : digits.foldl (fun value c => value * 10 + digitValue c) value < UInt64.size) :
    appendDigits value digits =
      (digits.foldl (fun value c => value * 10 + digitValue c) value, 0) := by
  induction digits generalizing value with
  | nil => rfl
  | cons c rest ih =>
    have hlonger : value * 10 + digitValue c < UInt64.size :=
      Nat.lt_of_le_of_lt (le_foldl_digitValue (by decide) (value * 10 + digitValue c) rest) hfits
    rw [appendDigits]
    simp only [if_pos hlonger]
    exact ih hfits

/-- Rounding a number of 64 bits adds one unit of its last place at most. -/
theorem nearestDouble_lt {n : Nat} (hn : n < UInt64.size) : nearestDouble n < 2 * UInt64.size := by
  have hlog : n.log2 < 64 := by
    by_cases hzero : n = 0
    · rw [hzero]
      decide
    · exact (Nat.log2_lt hzero).mpr hn
  have hunit : Nat.pow 2 (n.log2 + 1 - 53) ≤ 2048 :=
    Nat.pow_le_pow_right (by decide) (show n.log2 + 1 - 53 ≤ 11 by omega)
  have hkept : n / Nat.pow 2 (n.log2 + 1 - 53) * Nat.pow 2 (n.log2 + 1 - 53) ≤ n :=
    Nat.div_mul_le_self ..
  have hsize : UInt64.size = 0x10000000000000000 := rfl
  rw [nearestDouble]
  split
  · rw [Nat.succ_mul]
    omega
  · omega

/-- A numeral of at most 64 bits lies within the range of double precision. -/
theorem scalesWithinDouble_toDigits {n : Nat} (hn : n < UInt64.size) :
    scalesWithinDouble (Nat.toDigits 10 n) [] 0 = true := by
  have hvalue := digitsValue_toDigits n
  have hdigits : appendDigits 0 (Nat.toDigits 10 n) = (n, 0) := by
    rw [appendDigits_of_lt (by rwa [← digitsValue, hvalue]), ← digitsValue, hvalue]
  have hone : nearestDouble 1 = 1 := by decide
  have hdouble : nearestDouble n < doubleLimit :=
    Nat.lt_of_lt_of_le (nearestDouble_lt hn) (by decide +kernel)
  rw [scalesWithinDouble, hdigits]
  simp [appendDigits, hone, hdouble]

end PacketMonitor.Text

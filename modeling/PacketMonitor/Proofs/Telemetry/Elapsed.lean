import Mathlib.Tactic.SplitIfs
import PacketMonitor.Proofs.Text.Numeral
import PacketMonitor.Telemetry.Elapsed

namespace PacketMonitor.Telemetry

open PacketMonitor.Text

/-- The units of a duration. -/
inductive TimeUnit where
  | hour
  | minute
  | second
  deriving DecidableEq, Repr

namespace TimeUnit

/-- All units, the longest first. -/
def all : List TimeUnit := [hour, minute, second]

/-- The letter behind an amount. -/
def letter : TimeUnit → Char
  | hour => 'h'
  | minute => 'm'
  | second => 's'

/-- How long a unit is, in milliseconds. -/
def millis : TimeUnit → Nat
  | hour => 3600000
  | minute => 60000
  | second => 1000

theorem millis_hour : hour.millis = 3600000 := rfl

theorem millis_minute : minute.millis = 60000 := rfl

theorem millis_second : second.millis = 1000 := rfl

/-- The unit with the given letter. -/
def ofLetter? (c : Char) : Option TimeUnit :=
  all.find? (·.letter == c)

theorem ofLetter?_letter (unit : TimeUnit) : ofLetter? unit.letter = some unit := by
  cases unit <;> rfl

theorem ofLetter?_of_isDigitOf {c : Char} (hdigit : isDigitOf 10 c = true) : ofLetter? c = none := by
  rw [ofLetter?, List.find?_eq_none]
  intro unit _ hletter
  obtain rfl : unit.letter = c := by simpa using hletter
  cases unit <;> exact absurd hdigit (by decide)

end TimeUnit

/-- Reads numerals, each with the letter of its unit behind it. `digits` was read before and
    has no letter yet. -/
def amountsFrom? (digits : List Char) : List Char → Option (List (TimeUnit × Nat))
  | [] => if digits.isEmpty then some [] else none
  | c :: rest =>
    match TimeUnit.ofLetter? c with
    | none => amountsFrom? (digits ++ [c]) rest
    | some unit => do return (unit, ← numeral? 10 digits) :: (← amountsFrom? [] rest)

/-- The amounts in the text of a duration. -/
def amounts? (text : String) : Option (List (TimeUnit × Nat)) :=
  amountsFrom? [] text.toList

/-- What some amounts make together, in milliseconds. -/
def total (amounts : List (TimeUnit × Nat)) : Nat :=
  amounts.foldr (fun (unit, n) rest => n * unit.millis + rest) 0

theorem total_nil : total [] = 0 := rfl

theorem total_cons (unit : TimeUnit) (n : Nat) (rest : List (TimeUnit × Nat)) :
    total ((unit, n) :: rest) = n * unit.millis + total rest := rfl

/-- The unit down to which a duration is told: minutes from a quarter of an hour on. -/
def precision (millis : Nat) : TimeUnit :=
  if millis < 15 * TimeUnit.minute.millis then .second else .minute

/-- A duration without what its precision does not tell. -/
def truncated (millis : Nat) : Nat :=
  millis / (precision millis).millis * (precision millis).millis

/-- The amounts that a duration is told in. -/
def amountsOf (millis : Nat) : List (TimeUnit × Nat) :=
  if 3600000 ≤ millis then [(.hour, millis / 3600000), (.minute, millis / 60000 % 60)]
  else if 900000 ≤ millis then [(.minute, millis / 60000)]
  else if 60000 ≤ millis then [(.minute, millis / 60000), (.second, millis / 1000 % 60)]
  else [(.second, millis / 1000)]

/-- Amounts as they are written. -/
def written (amounts : List (TimeUnit × Nat)) : List Char :=
  amounts.flatMap fun (unit, n) => Nat.toDigits 10 n ++ [unit.letter]

theorem toList_elapsedText (millis : UInt64) :
    (elapsedText millis).toList = written (amountsOf millis.toNat) := by
  have hlimit (seconds : Nat) : seconds ≤ millis.toNat / 1000 ↔ seconds * 1000 ≤ millis.toNat := by
    omega
  have hhours : millis.toNat / 1000 / 3600 = millis.toNat / 3600000 := Nat.div_div_eq_div_mul ..
  have hminutes : millis.toNat / 1000 / 60 = millis.toNat / 60000 := Nat.div_div_eq_div_mul ..
  have hrest : millis.toNat / 1000 % 3600 / 60 = millis.toNat / 60000 % 60 := by omega
  simp only [elapsedText, amountsOf, hlimit, hhours, hminutes, hrest]
  split_ifs <;> simp [written, TimeUnit.letter, Nat.repr, toString]

theorem amountsFrom?_append {digits : List Char} (hdigits : ∀ c ∈ digits, isDigitOf 10 c = true)
    (before rest : List Char) :
    amountsFrom? before (digits ++ rest) = amountsFrom? (before ++ digits) rest := by
  induction digits generalizing before with
  | nil => rw [List.nil_append, List.append_nil]
  | cons c digits ih =>
    obtain ⟨hc, hothers⟩ := List.forall_mem_cons.mp hdigits
    rw [List.cons_append, amountsFrom?, TimeUnit.ofLetter?_of_isDigitOf hc]
    simp only [ih hothers, List.append_assoc, List.singleton_append]

/-- Amounts that were written are read as they were. -/
theorem amountsFrom?_written (amounts : List (TimeUnit × Nat)) :
    amountsFrom? [] (written amounts) = some amounts := by
  induction amounts with
  | nil => rfl
  | cons amount amounts ih =>
    obtain ⟨unit, n⟩ := amount
    change amountsFrom? [] ((Nat.toDigits 10 n ++ [unit.letter]) ++ written amounts) = _
    rw [List.append_assoc, amountsFrom?_append fun _ => isDigitOf_ten_of_mem_toDigits,
      List.nil_append, List.singleton_append, amountsFrom?, TimeUnit.ofLetter?_letter]
    simp only [numeral?_toDigits, ih]
    rfl

theorem amounts?_elapsedText (millis : UInt64) :
    amounts? (elapsedText millis) = some (amountsOf millis.toNat) := by
  rw [amounts?, toList_elapsedText, amountsFrom?_written]

theorem elapsedText_eq_iff_amountsOf_eq (a b : UInt64) :
    elapsedText a = elapsedText b ↔ amountsOf a.toNat = amountsOf b.toNat := by
  constructor
  · intro hsame
    have hread := amounts?_elapsedText b
    rw [← hsame, amounts?_elapsedText] at hread
    exact Option.some.inj hread
  · intro hsame
    rw [← String.toList_inj, toList_elapsedText, toList_elapsedText, hsame]

section Truncation

variable (millis : Nat)

theorem millis_precision :
    (precision millis).millis = if millis < 900000 then 1000 else 60000 := by
  rw [precision, apply_ite TimeUnit.millis]
  rfl

theorem truncated_le : truncated millis ≤ millis :=
  Nat.div_mul_le_self ..

theorem lt_truncated_add : millis < truncated millis + (precision millis).millis := by
  have hpositive : 0 < (precision millis).millis := by
    rw [millis_precision]
    split_ifs <;> decide
  exact Nat.lt_div_mul_add hpositive

theorem total_amountsOf : total (amountsOf millis) = truncated millis := by
  rw [truncated, millis_precision, amountsOf]
  by_cases hhour : 3600000 ≤ millis
  · have hlong : ¬ millis < 900000 := by omega
    rw [if_pos hhour, if_neg hlong, total_cons, total_cons, total_nil, TimeUnit.millis_hour,
      TimeUnit.millis_minute]
    omega
  · rw [if_neg hhour]
    by_cases hquarter : 900000 ≤ millis
    · rw [if_pos hquarter, if_neg (Nat.not_lt.mpr hquarter), total_cons, total_nil,
        TimeUnit.millis_minute, Nat.add_zero]
    · rw [if_neg hquarter, if_pos (Nat.lt_of_not_le hquarter)]
      split_ifs
      · rw [total_cons, total_cons, total_nil, TimeUnit.millis_minute, TimeUnit.millis_second]
        omega
      · rw [total_cons, total_nil, TimeUnit.millis_second, Nat.add_zero]

theorem units_amountsOf : ((amountsOf millis).map (·.1)).Sublist TimeUnit.all := by
  rw [amountsOf]
  split_ifs <;> simp only [List.map_cons, List.map_nil] <;> decide

theorem minutes_lt_of_mem_amountsOf {hours minutes : Nat} (hhours : (.hour, hours) ∈ amountsOf millis)
    (hminutes : (.minute, minutes) ∈ amountsOf millis) : minutes < 60 := by
  rw [amountsOf] at hhours hminutes
  split_ifs at hhours hminutes <;> simp at hhours hminutes
  rw [hminutes]
  exact Nat.mod_lt _ (by decide)

theorem seconds_lt_of_mem_amountsOf {seconds : Nat}
    (hseconds : (.second, seconds) ∈ amountsOf millis) : seconds < 60 := by
  rw [amountsOf] at hseconds
  split_ifs at hseconds <;> simp at hseconds <;> omega

theorem le_truncated_iff (minutes : Nat) :
    minutes * 60000 ≤ truncated millis ↔ minutes * 60000 ≤ millis := by
  rw [truncated, millis_precision]
  split_ifs <;> omega

theorem truncated_div_minute : truncated millis / 60000 = millis / 60000 := by
  rw [truncated, millis_precision]
  split_ifs <;> omega

theorem truncated_div_second (hprecise : millis < 900000) :
    truncated millis / 1000 = millis / 1000 := by
  rw [truncated, millis_precision, if_pos hprecise]
  omega

/-- A duration that is cut off is told in the same amounts as before. -/
theorem amountsOf_truncated : amountsOf (truncated millis) = amountsOf millis := by
  have hhours : truncated millis / 3600000 = millis / 3600000 := by
    have hminutes := truncated_div_minute millis
    omega
  have hhour : 3600000 ≤ truncated millis ↔ 3600000 ≤ millis := le_truncated_iff millis 60
  have hquarter : 900000 ≤ truncated millis ↔ 900000 ≤ millis := le_truncated_iff millis 15
  have hminute : 60000 ≤ truncated millis ↔ 60000 ≤ millis := le_truncated_iff millis 1
  simp only [amountsOf, hhour, hquarter, hminute, hhours, truncated_div_minute]
  split_ifs with _ hfar
  · rfl
  · rfl
  · rw [truncated_div_second millis (Nat.lt_of_not_le hfar)]
  · rw [truncated_div_second millis (Nat.lt_of_not_le hfar)]

theorem truncated_mono {a b : Nat} (hle : a ≤ b) : truncated a ≤ truncated b := by
  rw [truncated, truncated, millis_precision, millis_precision]
  split_ifs <;> omega

end Truncation

/-- The text of a duration is read back as the duration cut off to its precision, a second
    below a quarter of an hour and a minute from there on. Its amounts go from longer to
    shorter units, with less than an hour of minutes behind hours and less than a minute of
    seconds. Longer durations are not read as shorter ones, and two of them have the same text
    just if they are cut off to the same. -/
theorem elapsedText_truncates :
    (∀ millis : UInt64, ∃ amounts, amounts? (elapsedText millis) = some amounts ∧
      total amounts = truncated millis.toNat ∧
      total amounts ≤ millis.toNat ∧
      millis.toNat < total amounts + (precision millis.toNat).millis ∧
      (amounts.map (·.1)).Sublist TimeUnit.all ∧
      (∀ hours minutes, (.hour, hours) ∈ amounts → (.minute, minutes) ∈ amounts → minutes < 60) ∧
      ∀ seconds, (.second, seconds) ∈ amounts → seconds < 60) ∧
    (∀ a b : UInt64, a ≤ b → truncated a.toNat ≤ truncated b.toNat) ∧
    ∀ a b : UInt64, elapsedText a = elapsedText b ↔ truncated a.toNat = truncated b.toNat := by
  refine ⟨fun millis => ?_, fun a b hle => truncated_mono (UInt64.le_iff_toNat_le.mp hle),
    fun a b => (elapsedText_eq_iff_amountsOf_eq a b).trans ⟨fun hsame => ?_, fun hsame => ?_⟩⟩
  · refine ⟨_, amounts?_elapsedText millis, total_amountsOf _, ?_, ?_, ?_, ?_, ?_⟩
    · rw [total_amountsOf]
      exact truncated_le _
    · rw [total_amountsOf]
      exact lt_truncated_add _
    · exact units_amountsOf _
    · exact fun hours minutes => minutes_lt_of_mem_amountsOf _
    · exact fun seconds => seconds_lt_of_mem_amountsOf _
  · rw [← total_amountsOf, hsame, total_amountsOf]
  · rw [← amountsOf_truncated, hsame, amountsOf_truncated]

/-- Next to a quarter of an hour the precision changes, and from there on durations within the
    same minute have the same text. -/
theorem elapsedText_truncates_next_to_limits :
    (899999 : UInt64) ≤ 900000 ∧ truncated (899999 : UInt64).toNat ≤ truncated (900000 : UInt64).toNat ∧
      elapsedText 3600000 = elapsedText 3659999 ∧ elapsedText 899999 ≠ elapsedText 900000 ∧
      ∃ amounts, amounts? (elapsedText 3659999) = some amounts ∧ total amounts = 3600000 := by
  obtain ⟨hread, hmono, htext⟩ := elapsedText_truncates
  refine ⟨by decide, hmono _ _ (by decide), (htext _ _).mpr (by decide), fun hsame => ?_, ?_⟩
  · exact absurd ((htext _ _).mp hsame) (by decide)
  · obtain ⟨amounts, hamounts, htotal, -⟩ := hread 3659999
    exact ⟨amounts, hamounts, htotal.trans (by decide)⟩

end PacketMonitor.Telemetry

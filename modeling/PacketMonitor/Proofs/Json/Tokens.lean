import PacketMonitor.Json.Reader
import PacketMonitor.Json.Writer
import PacketMonitor.Proofs.Text.Numeral
import PacketMonitor.Proofs.Text.Pieces

namespace PacketMonitor.Json

open Text

/-- The characters that are escaped by a letter or by themselves. -/
def marked : List Char := ['"', '\\', '\x08', '\x0c', '\n', '\r', '\t']

theorem escape_of_mem {c : Char} (hmarked : c ∈ marked) :
    ∃ letter, escape c = ['\\', letter] ∧
      ∀ rest, stringChar? ('\\' :: letter :: rest) = some (c, rest) := by
  have hall : ∀ c ∈ marked, ∃ letter, escape c = ['\\', letter] ∧
      ∀ rest, stringChar? ('\\' :: letter :: rest) = some (c, rest) := by
    simp only [marked, List.mem_cons, List.not_mem_nil, or_false, forall_eq_or_imp, forall_eq]
    exact ⟨⟨_, rfl, fun _ => rfl⟩, ⟨_, rfl, fun _ => rfl⟩, ⟨_, rfl, fun _ => rfl⟩,
      ⟨_, rfl, fun _ => rfl⟩, ⟨_, rfl, fun _ => rfl⟩, ⟨_, rfl, fun _ => rfl⟩, ⟨_, rfl, fun _ => rfl⟩⟩
  exact hall c hmarked

theorem escape_of_not_mem {c : Char} (hmarked : c ∉ marked) :
    escape c = if c.toNat < 0x20 then '\\' :: 'u' :: '0' :: '0' :: hexByte c.toNat.toUInt8 else [c] := by
  simp only [marked, List.mem_cons, List.not_mem_nil, or_false, not_or] at hmarked
  obtain ⟨hquote, hbackslash, hback, hform, hnewline, hreturn, htab⟩ := hmarked
  rw [escape, if_neg hquote, if_neg hbackslash, if_neg hback, if_neg hform, if_neg hnewline,
    if_neg hreturn, if_neg htab]
  rfl

/-- A control character is read from its number. -/
theorem unicodeEscape?_hexByte {n : Nat} (hn : n < 0x20) (rest : List Char) :
    unicodeEscape? ('0' :: '0' :: (hexByte n.toUInt8 ++ rest)) = some (Char.ofNat n, rest) := by
  have hvalue : ∀ n < 0x20, numeral? 16 ('0' :: '0' :: hexByte n.toUInt8) = some n := by decide
  have hquad : hexQuad? ('0' :: '0' :: (hexByte n.toUInt8 ++ rest)) = some (n, rest) :=
    congrArg (Option.map (·, rest)) (hvalue n hn)
  rw [unicodeEscape?, hquad]
  simp only [Option.bind_eq_bind, Option.bind_some]
  rw [if_neg (by omega), if_neg (by omega)]

theorem stringChar?_of_ne {c : Char} (hbackslash : c ≠ '\\') (rest : List Char) :
    stringChar? (c :: rest) = if c.toNat < 0x20 ∨ c = '\\' then none else some (c, rest) := by
  unfold stringChar?
  split <;> simp_all

/-- Each character of a string is read back from what is written for it. -/
theorem stringChar?_escape (c : Char) (rest : List Char) :
    stringChar? (escape c ++ rest) = some (c, rest) := by
  by_cases hmarked : c ∈ marked
  · obtain ⟨letter, hescape, hread⟩ := escape_of_mem hmarked
    rw [hescape]
    exact hread rest
  rw [escape_of_not_mem hmarked]
  split
  · rename_i hcontrol
    have hescape := unicodeEscape?_hexByte hcontrol rest
    rw [Char.ofNat_toNat] at hescape
    exact hescape
  · rename_i hcontrol
    have hbackslash : c ≠ '\\' := fun heq => hmarked (heq ▸ by decide)
    rw [List.singleton_append, stringChar?_of_ne hbackslash, if_neg]
    exact not_or.mpr ⟨hcontrol, hbackslash⟩

/-- What is written for a character does not close a string. -/
theorem escape_eq_cons (c : Char) : ∃ head tail, escape c = head :: tail ∧ head ≠ '"' := by
  by_cases hmarked : c ∈ marked
  · obtain ⟨letter, hescape, -⟩ := escape_of_mem hmarked
    exact ⟨'\\', [letter], hescape, by decide⟩
  rw [escape_of_not_mem hmarked]
  split
  · exact ⟨'\\', _, rfl, by decide⟩
  · exact ⟨c, [], rfl, fun heq => hmarked (heq ▸ by decide)⟩

theorem stringFrom?_escape (done : List Char) (fuel : Nat) (c : Char) (rest : List Char) :
    stringFrom? done (fuel + 1) (escape c ++ rest) = stringFrom? (c :: done) fuel rest := by
  have hchar := stringChar?_escape c rest
  obtain ⟨head, tail, hescape, hquote⟩ := escape_eq_cons c
  rw [hescape, List.cons_append] at hchar ⊢
  rw [stringFrom?, hchar]
  intro rest' heq
  exact hquote (List.cons.inj heq).1

theorem stringFrom?_flatMap_escape {fuel : Nat} {chars : List Char} (hfuel : chars.length < fuel)
    (done rest : List Char) :
    stringFrom? done fuel (chars.flatMap escape ++ '"' :: rest) = some (done.reverse ++ chars, rest) := by
  induction chars generalizing done fuel with
  | nil =>
    obtain _ | fuel := fuel
    · exact absurd hfuel (Nat.lt_irrefl 0)
    · rw [List.flatMap_nil, List.nil_append, stringFrom?, List.append_nil]
  | cons c chars ih =>
    obtain _ | fuel := fuel
    · exact absurd hfuel (Nat.not_lt_zero _)
    · rw [List.flatMap_cons, List.append_assoc, stringFrom?_escape, ih (Nat.lt_of_succ_lt_succ hfuel),
        List.reverse_cons, List.append_assoc, List.singleton_append]

theorem length_le_flatMap_escape (chars : List Char) :
    chars.length ≤ (chars.flatMap escape).length := by
  induction chars with
  | nil => exact Nat.le_refl 0
  | cons c chars ih =>
    obtain ⟨head, tail, hescape, -⟩ := escape_eq_cons c
    rw [List.flatMap_cons, hescape]
    simp only [List.length_append, List.length_cons]
    omega

/-- A string is read back after its opening quote. -/
theorem string?_flatMap_escape (s : String) (rest : List Char) :
    string? (s.toList.flatMap escape ++ '"' :: rest) = some (s, rest) := by
  have hlength := length_le_flatMap_escape s.toList
  have hfuel : s.toList.length < (s.toList.flatMap escape ++ '"' :: rest).length + 1 := by
    simp only [List.length_append, List.length_cons]
    omega
  rw [string?, stringFrom?_flatMap_escape hfuel, List.reverse_nil, List.nil_append, Option.map_some]
  simp only [String.ofList_toList]

/-- What may come after a value: nothing, white space, a comma or a closing bracket. No
    number goes on there. -/
def Delimited (rest : List Char) : Prop :=
  ∀ c ∈ rest.head?, isSpace c = true ∨ c ∈ [',', ']', '\x7d']

theorem Delimited.cases {rest : List Char} (hrest : Delimited rest) :
    rest = [] ∨ ∃ c tail, rest = c :: tail ∧ isDigitOf 10 c = false ∧ c ∉ ['.', 'e', 'E'] := by
  cases rest with
  | nil => exact .inl rfl
  | cons c tail =>
    refine .inr ⟨c, tail, rfl, ?_⟩
    have hc := hrest c rfl
    simp only [isSpace, Bool.or_eq_true, beq_iff_eq, List.mem_cons, List.not_mem_nil, or_false,
      or_assoc] at hc
    obtain rfl | rfl | rfl | rfl | rfl | rfl | rfl := hc <;> exact ⟨rfl, by simp⟩

/-- A text in which no digit comes first, so that digits in front of it end there. -/
def Undigited (rest : List Char) : Prop :=
  ∀ c ∈ rest.head?, isDigitOf 10 c = false

theorem Delimited.undigited {rest : List Char} (hrest : Delimited rest) : Undigited rest := by
  obtain rfl | ⟨c, tail, rfl, hdigit, -⟩ := hrest.cases
  · exact fun _ hc => nomatch hc
  · rintro _ ⟨⟩
    exact hdigit

/-- The numeral of a natural number is a whole part, up to its end. -/
theorem wholePart?_toDigits (n : Nat) {rest : List Char} (hrest : Undigited rest) :
    wholePart? (Nat.toDigits 10 n ++ rest) = some (Nat.toDigits 10 n, rest) := by
  obtain hzero | ⟨c, tail, hdigits, hne⟩ := toDigits_eq_zero_or_head_ne n
  · rw [hzero, List.singleton_append, wholePart?]
    cases rest with
    | nil => rfl
    | cons c tail =>
      have hdigit : isDigitOf 10 c = false := hrest c rfl
      rw [if_neg]
      simp [hdigit]
  · have hspan : (Nat.toDigits 10 n ++ rest).span (isDigitOf 10) = (Nat.toDigits 10 n, rest) :=
      span_append (fun _ => isDigitOf_ten_of_mem_toDigits) hrest
    rw [hdigits, List.cons_append] at hspan ⊢
    unfold wholePart?
    split
    · rename_i heq
      exact absurd (List.cons.inj heq).1 hne
    · rw [hspan]

theorem Delimited.fractionPart? {rest : List Char} (hrest : Delimited rest) :
    fractionPart? rest = some ([], rest) := by
  obtain rfl | ⟨c, tail, rfl, -, hc⟩ := hrest.cases
  · rfl
  · unfold Json.fractionPart?
    split
    · rename_i heq
      obtain ⟨rfl, -⟩ := List.cons.inj heq
      exact absurd (List.mem_cons_self ..) hc
    · rfl

theorem Delimited.exponentPart? {rest : List Char} (hrest : Delimited rest) :
    exponentPart? rest = some (none, rest) := by
  obtain rfl | ⟨c, tail, rfl, -, hc⟩ := hrest.cases
  · rfl
  · unfold Json.exponentPart?
    refine if_neg ?_
    rintro (rfl | rfl)
    · exact hc (by decide)
    · exact hc (by decide)

/-- The power of ten that a number is written with. -/
structure Exponent where
  letter : Char
  sign : List Char
  digits : List Char
  letter_mem : letter ∈ ['e', 'E']
  sign_mem : sign ∈ [[], ['+'], ['-']]
  digits_ne_nil : digits ≠ []
  isDigit : ∀ c ∈ digits, isDigitOf 10 c = true

namespace Exponent

def text (exponent : Exponent) : List Char :=
  exponent.letter :: (exponent.sign ++ exponent.digits)

def isNegative (exponent : Exponent) : Bool :=
  exponent.sign == ['-']

def value (exponent : Exponent) : Int :=
  if exponent.isNegative then -(digitsValue 10 exponent.digits : Int)
  else digitsValue 10 exponent.digits

theorem mark (exponent : Exponent) : exponent.letter = 'e' ∨ exponent.letter = 'E' := by
  simpa using exponent.letter_mem

theorem exponentPart?_text (exponent : Exponent) {rest : List Char} (hrest : Undigited rest) :
    exponentPart? (exponent.text ++ rest) =
      some (some (exponent.isNegative, exponent.digits), rest) := by
  have hspan : (exponent.digits ++ rest).span (isDigitOf 10) = (exponent.digits, rest) :=
    span_append exponent.isDigit hrest
  obtain ⟨c, tail, hdigits⟩ := List.exists_cons_of_ne_nil exponent.digits_ne_nil
  have hc : isDigitOf 10 c = true := exponent.isDigit c (hdigits ▸ List.mem_cons_self ..)
  unfold exponentPart?
  rw [text, List.cons_append, List.append_assoc]
  split
  · rename_i heq
    obtain ⟨rfl, rfl⟩ := List.cons.inj heq
    rw [if_pos exponent.mark]
    split
    rename_i isNegative unsigned hafter
    have hunsigned : (isNegative, unsigned) = (exponent.isNegative, exponent.digits ++ rest) := by
      have hsign := exponent.sign_mem
      simp only [List.mem_cons, List.not_mem_nil, or_false] at hsign
      rw [← hafter, Exponent.isNegative]
      obtain hsign | hsign | hsign := hsign
      · rw [hsign, hdigits, List.nil_append, List.cons_append]
        split
        · rename_i heq
          exact absurd (List.cons.inj heq).1 (by rintro rfl; cases hc)
        · rename_i heq
          exact absurd (List.cons.inj heq).1 (by rintro rfl; cases hc)
        · rfl
      · rw [hsign]
        rfl
      · rw [hsign]
        rfl
    cases hunsigned
    rw [hspan, hdigits]
  · rename_i heq
    cases heq

end Exponent

/-- A number as it is written: its sign, its whole part, the digits behind the point and
    its exponent. -/
structure Numeral where
  isNegative : Bool
  whole : Nat
  fraction : List Char
  exponent : Option Exponent
  isDigit : ∀ c ∈ fraction, isDigitOf 10 c = true

namespace Numeral

variable (numeral : Numeral)

/-- The exponent of a number, if there is one. -/
def power : List Char :=
  numeral.exponent.elim [] Exponent.text

/-- What stands behind the whole part. -/
def decimals : List Char :=
  if numeral.fraction.isEmpty then numeral.power else '.' :: (numeral.fraction ++ numeral.power)

def text : List Char :=
  if numeral.isNegative then '-' :: (Nat.toDigits 10 numeral.whole ++ numeral.decimals)
  else Nat.toDigits 10 numeral.whole ++ numeral.decimals

/-- A number without a sign, a point and an exponent stands for its value, any other one
    for its text. -/
def json : Json :=
  if !numeral.isNegative && numeral.fraction.isEmpty && numeral.exponent.isNone then
    natural numeral.whole
  else number (String.ofList numeral.text)

def isInRange : Bool :=
  scalesWithinDouble (Nat.toDigits 10 numeral.whole) numeral.fraction
    (numeral.exponent.elim 0 Exponent.value)

/-- Neither a digit nor a point comes first in what stands behind the fraction. -/
theorem power_append {rest : List Char} (hrest : Delimited rest) :
    Undigited (numeral.power ++ rest) ∧
      fractionPart? (numeral.power ++ rest) = some ([], numeral.power ++ rest) := by
  rw [power]
  cases numeral.exponent with
  | none => exact ⟨hrest.undigited, hrest.fractionPart?⟩
  | some exponent =>
    rw [Option.elim_some, Exponent.text, List.cons_append]
    obtain hletter | hletter := exponent.mark
    · rw [hletter]
      exact ⟨by rintro _ ⟨⟩; rfl, rfl⟩
    · rw [hletter]
      exact ⟨by rintro _ ⟨⟩; rfl, rfl⟩

theorem exponentPart?_power {rest : List Char} (hrest : Delimited rest) :
    exponentPart? (numeral.power ++ rest) =
      some (numeral.exponent.map fun exponent => (exponent.isNegative, exponent.digits), rest) := by
  rw [power]
  cases numeral.exponent with
  | none => exact hrest.exponentPart?
  | some exponent => exact exponent.exponentPart?_text hrest.undigited

theorem undigited_decimals {rest : List Char} (hrest : Delimited rest) :
    Undigited (numeral.decimals ++ rest) := by
  rw [decimals]
  split
  · exact (numeral.power_append hrest).1
  · rintro _ ⟨⟩
    rfl

theorem fractionPart?_decimals {rest : List Char} (hrest : Delimited rest) :
    fractionPart? (numeral.decimals ++ rest) = some (numeral.fraction, numeral.power ++ rest) := by
  obtain ⟨hpower, hpoint⟩ := numeral.power_append hrest
  have hspan := span_append numeral.isDigit hpower
  rw [decimals]
  cases hfraction : numeral.fraction with
  | nil => exact hpoint
  | cons c fraction =>
    rw [hfraction] at hspan
    simp only [List.isEmpty_cons, Bool.false_eq_true, if_false, List.cons_append, List.append_assoc,
      fractionPart?] at hspan ⊢
    rw [hspan]

theorem exists_text_eq_cons :
    ∃ c tail, numeral.text = c :: tail ∧ (c = '-' ∨ isDigitOf 10 c = true) := by
  obtain ⟨c, tail, hdigits, hdigit⟩ := exists_toDigits_eq_cons numeral.whole
  rw [text, hdigits]
  split
  · exact ⟨'-', _, rfl, .inl rfl⟩
  · exact ⟨c, _, rfl, .inr hdigit⟩

/-- Any number is read up to its end if it lies within the range of double precision. -/
theorem number?_text {rest : List Char} (hrest : Delimited rest) :
    number? (numeral.text ++ rest) =
      if numeral.isInRange then some (numeral.json, rest) else none := by
  have hwhole := wholePart?_toDigits numeral.whole (numeral.undigited_decimals hrest)
  obtain ⟨c, tail, hdigits, hdigit⟩ := exists_toDigits_eq_cons numeral.whole
  unfold number?
  split
  rename_i isNegative afterSign hafter
  have hunsigned : (isNegative, afterSign) =
      (numeral.isNegative, Nat.toDigits 10 numeral.whole ++ (numeral.decimals ++ rest)) := by
    rw [← hafter, text]
    cases numeral.isNegative with
    | true => simp
    | false =>
      simp only [Bool.false_eq_true, if_false, hdigits, List.cons_append, List.append_assoc]
      split
      · rename_i heq
        exact absurd (List.cons.inj heq).1 (by rintro rfl; cases hdigit)
      · rfl
  cases hunsigned
  have hvalue : ∀ inRange plain : Bool, (if !inRange then none
      else if plain then some (natural numeral.whole, rest)
      else some (number (String.ofList numeral.text), rest)) =
      if inRange then
        some (if plain then natural numeral.whole else number (String.ofList numeral.text), rest)
      else none := by
    rintro (_ | _) (_ | _) <;> rfl
  simp only [hwhole, numeral.fractionPart?_decimals hrest, numeral.exponentPart?_power hrest,
    Option.bind_eq_bind, Option.bind_some, List.length_append, Nat.add_sub_cancel, List.take_left',
    Option.isNone_map, digitsValue_toDigits, hvalue, isInRange, json]
  refine if_congr ?_ rfl rfl
  cases numeral.exponent with
  | none => exact Iff.rfl
  | some exponent =>
    rw [Option.map_some, Option.elim_some, Exponent.value]
    cases exponent.isNegative <;> exact Iff.rfl

/-- The number that a natural number is written as. -/
def ofNat (n : Nat) : Numeral where
  isNegative := false
  whole := n
  fraction := []
  exponent := none
  isDigit := List.forall_mem_nil _

theorem text_ofNat (n : Nat) : (ofNat n).text = Nat.toDigits 10 n :=
  List.append_nil _

theorem json_ofNat (n : Nat) : (ofNat n).json = natural n :=
  rfl

end Numeral

end PacketMonitor.Json

import PacketMonitor.LogLine
import PacketMonitor.Proofs.Text.Numeral
import PacketMonitor.Proofs.Text.Pieces

namespace PacketMonitor

open PacketMonitor.Text

theorem Direction.ofLetter?_eq_some_iff {letter : Char} {direction : Direction} :
    Direction.ofLetter? letter = some direction ↔ letter = direction.letter := by
  constructor
  · intro hread
    unfold Direction.ofLetter? at hread
    split at hread
    · cases hread
      rfl
    · cases hread
      rfl
    · cases hread
  · rintro rfl
    cases direction <;> rfl

namespace LogLine

/-- A time of day: three pairs of digits with colons between them. -/
inductive IsClock : List Char → Prop where
  | pairs {a b c d e f : Char} (hdigits : ∀ digit ∈ [a, b, c, d, e, f], digit.isDigit = true) :
    IsClock [a, b, ':', c, d, ':', e, f]

/-- A station's name: capital letters, digits and hyphens, at least one. -/
structure IsStation (name : List Char) : Prop where
  ne_nil : name ≠ []
  chars : ∀ c ∈ name, c.isUpper = true ∨ c.isDigit = true ∨ c = '-'

/-- A number of any length in decimal digits. -/
structure IsNumber (digits : List Char) : Prop where
  ne_nil : digits ≠ []
  chars : ∀ c ∈ digits, c.isDigit = true

/-- The parts of a logged packet as they are spelled. -/
@[ext] structure Spelling where
  timestamp : List Char
  direction : Direction
  sender : List Char
  receiver : List Char
  digits : List Char
  message : List Char
  timestamp_isClock : IsClock timestamp
  sender_isStation : IsStation sender
  receiver_isStation : IsStation receiver
  digits_isNumber : IsNumber digits

namespace Spelling

/-- The route between both stations. -/
def route (parts : Spelling) : List Char :=
  parts.sender ++ '>' :: parts.receiver

/-- The parts with the fixed texts between them. -/
def text (parts : Spelling) : String :=
  String.ofList (parts.timestamp ++ parts.direction.letter :: ' ' ::
    (parts.route ++ (" Port=".toList ++ (parts.digits ++ ' ' :: parts.message))))

/-- The packet that is spelled. Its port is the number written, or the largest port if
    that is less. -/
def line (parts : Spelling) : LogLine where
  timestamp := String.ofList parts.timestamp
  direction := parts.direction
  route := String.ofList parts.route
  port := UInt32.ofNat (min (Nat.ofDigitChars 10 parts.digits 0) (UInt32.size - 1))
  message := String.ofList parts.message

end Spelling

theorem isStationChar_iff {c : Char} :
    isStationChar c = true ↔ c.isUpper = true ∨ c.isDigit = true ∨ c = '-' := by
  have hupper : c.isUpper = true ↔ 'A' ≤ c ∧ c ≤ 'Z' := decide_eq_true_iff
  have hdigit : c.isDigit = true ↔ '0' ≤ c ∧ c ≤ '9' := by
    rw [Char.isDigit, Bool.and_eq_true, decide_eq_true_iff, decide_eq_true_iff]
    rfl
  rw [hupper, hdigit, isStationChar]
  simp only [Bool.or_eq_true, Bool.and_eq_true, decide_eq_true_eq, beq_iff_eq, or_assoc]

theorem isTimestamp_iff {text : List Char} : isTimestamp text = true ↔ IsClock text := by
  constructor
  · intro hclock
    unfold isTimestamp at hclock
    split at hclock
    · refine .pairs ?_
      simpa [isTwoDigits, isDigitOf_ten, and_assoc] using hclock
    · cases hclock
  · rintro ⟨hdigits⟩
    simpa [isTimestamp, isTwoDigits, isDigitOf_ten, and_assoc] using hdigits

section Readers

variable {text rest : List Char}

theorem afterPrefix?_eq_some_iff {start : List Char} :
    afterPrefix? start text = some rest ↔ text = start ++ rest := by
  unfold afterPrefix?
  split
  · rename_i hstarts
    obtain ⟨later, rfl⟩ := List.isPrefixOf_iff_prefix.mp hstarts
    rw [List.drop_left, Option.some_inj, List.append_cancel_left_eq]
  · rename_i hstarts
    constructor
    · intro hread
      cases hread
    · rintro rfl
      exact absurd (List.isPrefixOf_iff_prefix.mpr (List.prefix_append ..)) hstarts

/-- A run is split off where no other member follows it. -/
theorem run?_eq_some_iff {isMember : Char → Bool} {run : List Char} :
    run? isMember text = some (run, rest) ↔
      text = run ++ rest ∧ run ≠ [] ∧ (∀ c ∈ run, isMember c = true) ∧
        ∀ c ∈ rest.head?, isMember c = false := by
  constructor
  · intro hread
    rw [run?] at hread
    split at hread
    · cases hread
    · rename_i run' rest' hsome hspan
      cases hread
      obtain ⟨htext, hrun, hrest⟩ := span_eq_iff.mp hspan
      exact ⟨htext, hsome, hrun, hrest⟩
  · rintro ⟨rfl, hsome, hrun, hrest⟩
    rw [run?, span_append hrun hrest]
    cases run with
    | nil => exact absurd rfl hsome
    | cons c run => rfl

end Readers

theorem IsClock.length_eq {text : List Char} (hclock : IsClock text) : text.length = 8 := by
  cases hclock
  rfl

namespace IsStation

variable {name : List Char}

theorem not_mem (hname : IsStation name) {c : Char} (hother : isStationChar c = false) :
    c ∉ name := by
  intro hmem
  rw [isStationChar_iff.mpr (hname.chars c hmem)] at hother
  cases hother

theorem run?_append (hname : IsStation name) (rest : List Char)
    (hrest : ∀ c ∈ rest.head?, isStationChar c = false) :
    run? isStationChar (name ++ rest) = some (name, rest) :=
  run?_eq_some_iff.mpr
    ⟨rfl, hname.ne_nil, fun c hc => isStationChar_iff.mpr (hname.chars c hc), hrest⟩

theorem of_run? {text rest : List Char} (hread : run? isStationChar text = some (name, rest)) :
    IsStation name := by
  obtain ⟨-, hsome, hmembers, -⟩ := run?_eq_some_iff.mp hread
  exact ⟨hsome, fun c hc => isStationChar_iff.mp (hmembers c hc)⟩

end IsStation

namespace IsNumber

variable {digits : List Char}

theorem not_mem (hnumber : IsNumber digits) {c : Char} (hother : c.isDigit = false) :
    c ∉ digits := by
  intro hmem
  rw [hnumber.chars c hmem] at hother
  cases hother

theorem run?_append (hnumber : IsNumber digits) (rest : List Char)
    (hrest : ∀ c ∈ rest.head?, isDigitOf 10 c = false) :
    run? (isDigitOf 10) (digits ++ rest) = some (digits, rest) :=
  run?_eq_some_iff.mpr
    ⟨rfl, hnumber.ne_nil, fun c hc => (isDigitOf_ten c).trans (hnumber.chars c hc), hrest⟩

theorem of_run? {text rest : List Char} (hread : run? (isDigitOf 10) text = some (digits, rest)) :
    IsNumber digits := by
  obtain ⟨-, hsome, hmembers, -⟩ := run?_eq_some_iff.mp hread
  exact ⟨hsome, fun c hc => (isDigitOf_ten c).symm.trans (hmembers c hc)⟩

theorem portOf_eq (hnumber : IsNumber digits) :
    portOf digits = UInt32.ofNat (min (Nat.ofDigitChars 10 digits 0) (UInt32.size - 1)) := by
  rw [portOf, digitsValue_eq_ofDigitChars hnumber.chars]

end IsNumber

namespace Spelling

theorem toList_text (parts : Spelling) :
    parts.text.toList = parts.timestamp ++ parts.direction.letter :: ' ' :: (parts.sender ++
      '>' :: (parts.receiver ++ (" Port=".toList ++ (parts.digits ++ ' ' :: parts.message)))) := by
  simp only [text, route, String.toList_ofList, List.append_assoc, List.cons_append]

/-- Whatever is spelled can be read. -/
theorem parse?_text (parts : Spelling) : parse? parts.text = some parts.line := by
  have hfixed : ∀ start rest : List Char, afterPrefix? start (start ++ rest) = some rest :=
    fun _ _ => afterPrefix?_eq_some_iff.mpr rfl
  have hchar : ∀ (c : Char) (rest : List Char), afterPrefix? [c] (c :: rest) = some rest :=
    fun c rest => hfixed [c] rest
  have hflag : Direction.ofLetter? parts.direction.letter = some parts.direction :=
    Direction.ofLetter?_eq_some_iff.mpr rfl
  have hsender := parts.sender_isStation.run?_append ('>' :: (parts.receiver ++
    (" Port=".toList ++ (parts.digits ++ ' ' :: parts.message)))) (by rintro c ⟨⟩; rfl)
  have hreceiver := parts.receiver_isStation.run?_append
    (" Port=".toList ++ (parts.digits ++ ' ' :: parts.message)) (by rintro c ⟨⟩; rfl)
  have hdigits := parts.digits_isNumber.run?_append (' ' :: parts.message) (by rintro c ⟨⟩; rfl)
  rw [parse?, toList_text, List.splitAt_eq, ← parts.timestamp_isClock.length_eq, List.take_left,
    List.drop_left]
  dsimp only
  rw [guard, if_pos (isTimestamp_iff.mpr parts.timestamp_isClock)]
  simp only [hflag, hfixed, hchar, hsender, hreceiver, hdigits, parts.digits_isNumber.portOf_eq,
    Option.pure_def, Option.bind_eq_bind, Option.bind_some]
  rfl

/-- Whatever is read was spelled. -/
theorem exists_of_parse? {text : String} {line : LogLine} (hread : parse? text = some line) :
    ∃ parts : Spelling, parts.text = text ∧ parts.line = line := by
  rw [parse?, List.splitAt_eq] at hread
  dsimp only at hread
  have hclock : isTimestamp (text.toList.take 8) = true := by
    by_contra hother
    rw [guard, if_neg hother] at hread
    cases hread
  rw [guard, if_pos hclock] at hread
  simp only [Option.pure_def, Option.bind_eq_bind, Option.bind_some] at hread
  cases hrest : text.toList.drop 8 with
  | nil =>
    rw [hrest] at hread
    cases hread
  | cons flag afterFlag =>
    simp only [hrest, Option.bind_eq_some_iff, Prod.exists, Option.some.injEq] at hread
    obtain ⟨direction, hflag, afterSpace, hspace, sender, afterSender, hsender, afterArrow, harrow,
      receiver, afterReceiver, hreceiver, afterPort, hport, digits, afterDigits, hdigits, message,
      hmessage, rfl⟩ := hread
    have hnumber := IsNumber.of_run? hdigits
    refine ⟨⟨text.toList.take 8, direction, sender, receiver, digits, message,
      isTimestamp_iff.mp hclock, .of_run? hsender, .of_run? hreceiver, hnumber⟩, ?_, ?_⟩
    · have htext := List.take_append_drop 8 text.toList
      rw [hrest, Direction.ofLetter?_eq_some_iff.mp hflag, afterPrefix?_eq_some_iff.mp hspace,
        (run?_eq_some_iff.mp hsender).1, afterPrefix?_eq_some_iff.mp harrow,
        (run?_eq_some_iff.mp hreceiver).1, afterPrefix?_eq_some_iff.mp hport,
        (run?_eq_some_iff.mp hdigits).1, afterPrefix?_eq_some_iff.mp hmessage] at htext
      rw [← String.toList_inj, toList_text]
      exact htext
    · rw [line, hnumber.portOf_eq]
      rfl

/-- A text can be spelled in one way only. -/
theorem text_injective : Function.Injective text := by
  intro parts other hsame
  rw [← String.toList_inj, toList_text, toList_text] at hsame
  obtain ⟨htimestamp, hrest⟩ := List.append_inj hsame
    (parts.timestamp_isClock.length_eq.trans other.timestamp_isClock.length_eq.symm)
  obtain ⟨hflag, hrest⟩ := List.cons.inj hrest
  have hdirection : parts.direction = other.direction := by
    have hread := Direction.ofLetter?_eq_some_iff.mpr hflag
    rw [Direction.ofLetter?_eq_some_iff.mpr rfl] at hread
    exact Option.some.inj hread
  obtain ⟨hsender, hrest⟩ := append_cons_inj (parts.sender_isStation.not_mem rfl)
    (other.sender_isStation.not_mem rfl) (List.cons.inj hrest).2
  obtain ⟨hreceiver, hrest⟩ := append_cons_inj (parts.receiver_isStation.not_mem rfl)
    (other.receiver_isStation.not_mem rfl) hrest
  obtain ⟨hdigits, hmessage⟩ := append_cons_inj (parts.digits_isNumber.not_mem rfl)
    (other.digits_isNumber.not_mem rfl) (List.append_cancel_left hrest)
  exact Spelling.ext htimestamp hdirection hsender hreceiver hdigits hmessage

end Spelling

/-- A text is read as a logged packet exactly if it spells that packet, which it can do in
    one way only. -/
theorem parse?_eq_some_iff {text : String} {line : LogLine} :
    parse? text = some line ↔ ∃ parts : Spelling, parts.text = text ∧ parts.line = line ∧
      ∀ other : Spelling, other.text = text → other = parts := by
  constructor
  · intro hread
    obtain ⟨parts, rfl, rfl⟩ := Spelling.exists_of_parse? hread
    exact ⟨parts, rfl, rfl, fun _ hother => Spelling.text_injective hother⟩
  · rintro ⟨parts, rfl, rfl, -⟩
    exact parts.parse?_text

/-- What looks like another port belongs to the message, and a port beyond the largest one
    is cut off. -/
example : parse? "16:34:33R TNC>USB-1 Port=4294967297 Port=2 \nhi" =
    some ⟨"16:34:33", .received, "TNC>USB-1", 4294967295, "Port=2 \nhi"⟩ := rfl

end LogLine

end PacketMonitor

import PacketMonitor.Proofs.Text.Hexadecimal
import PacketMonitor.Proofs.Text.Pieces
import PacketMonitor.Telemetry.Beacon

namespace PacketMonitor.Telemetry

open PacketMonitor.Text

/-- A text as a counter: digits that spell a number, and behind them at most blanks. -/
inductive CountsAs : List Char → Nat → Prop where
  | spelled {digits blanks : List Char} {n : Nat} (hdigits : SpellsHex digits n)
    (hblanks : ∀ c ∈ blanks, isBlank c = true) : CountsAs (digits ++ blanks) n

/-- A text around the last occurrence of `Port=`. -/
structure Labelled (text before after : List Char) : Prop where
  split : text = before ++ "Port=".toList ++ after
  last : ∀ rest, "Port=".toList ++ rest <:+ text → after.length ≤ rest.length

/-- The number that a text names as its port: that of all the digits right behind the last
    `Port=`, if there are any. -/
inductive NamesPort (text : List Char) : Nat → Prop where
  | spelled {before digits rest : List Char} (hlabelled : Labelled text before (digits ++ rest))
    (hsome : digits ≠ []) (hdigits : ∀ c ∈ digits, c.isDigit = true)
    (hrest : ∀ c ∈ rest.head?, c.isDigit = false) : NamesPort text (Nat.ofDigitChars 10 digits 0)

/-- What is taken where there is room for numbers below a limit: the number that is written,
    and something to fall back on if none is written for which there is room. -/
def TakenBelow (limit fallback : Nat) (IsWritten : Nat → Prop) (n : Nat) : Prop :=
  IsWritten n ∧ n < limit ∨ n = fallback ∧ ∀ written < limit, ¬ IsWritten written

/-- A reader that gives the number written, if it gives one at all, takes it into every type
    of numbers with that much room. -/
theorem toNat_getD_eq_iff {α : Type} {toNat : α → Nat} {ofNat : Nat → α} {limit fallback : Nat}
    (hround : ∀ n < limit, toNat (ofNat n) = n) (hfallback : fallback < limit)
    {IsWritten : Nat → Prop} {read? : Option Nat}
    (hread : ∀ n, read? = some n ↔ IsWritten n ∧ n < limit) {n : Nat} :
    toNat ((read?.map ofNat).getD (ofNat fallback)) = n ↔
      TakenBelow limit fallback IsWritten n := by
  cases read? with
  | none =>
    have hnone : ∀ written < limit, ¬ IsWritten written := by
      intro written hlimit hwritten
      cases (hread written).mpr ⟨hwritten, hlimit⟩
    rw [Option.map_none, Option.getD_none, hround fallback hfallback]
    constructor
    · rintro rfl
      exact .inr ⟨rfl, hnone⟩
    · rintro (⟨hwritten, hlimit⟩ | ⟨rfl, -⟩)
      · exact absurd hwritten (hnone n hlimit)
      · rfl
  | some written =>
    have hwritten := (hread written).mp rfl
    rw [Option.map_some, Option.getD_some, hround written hwritten.2]
    constructor
    · rintro rfl
      exact .inl hwritten
    · rintro (hn | ⟨-, hnone⟩)
      · exact Option.some.inj ((hread n).mpr hn)
      · exact absurd hwritten.1 (hnone written hwritten.2)

theorem numeralBelow?_trimEnd_eq_some_iff {text : List Char} {limit n : Nat} :
    numeralBelow? 16 limit (trimEnd text) = some n ↔ CountsAs text n ∧ n < limit := by
  rw [SpellsHex.numeralBelow?_eq_some_iff]
  refine and_congr_left' ⟨fun hdigits => ?_, fun hcounts => ?_⟩
  · obtain ⟨blanks, htext, hblanks⟩ := exists_eq_trimEnd_append text
    rw [htext]
    exact .spelled hdigits hblanks
  · obtain ⟨hdigits, hblanks⟩ := hcounts
    rwa [hdigits.trimEnd_append hblanks]

theorem toNat_counterOf_eq_iff {text : List Char} {n : Nat} :
    (counterOf text).toNat = n ↔ TakenBelow UInt64.size 0 (CountsAs text) n :=
  toNat_getD_eq_iff (fun _ => UInt64.toNat_ofNat_of_lt') (by decide)
    fun _ => numeralBelow?_trimEnd_eq_some_iff

/-- The digits of a port begin behind the last `Port=` and end in front of the first other
    character. -/
theorem portNumber?_eq_some_iff {text : List Char} {limit n : Nat} :
    ((afterLast? "Port=".toList text).bind fun after =>
        numeralBelow? 10 limit (after.takeWhile (isDigitOf 10))) = some n ↔
      NamesPort text n ∧ n < limit := by
  have hdigit : isDigitOf 10 = Char.isDigit := funext isDigitOf_ten
  simp only [hdigit, Option.bind_eq_some_iff, afterLast?_eq_some_iff, numeralBelow?_ten_eq_some_iff]
  constructor
  · rintro ⟨after, ⟨before, hsplit, hlast⟩, ⟨hsome, hdigits⟩, rfl, hlimit⟩
    obtain ⟨rest, hafter, -, hrest⟩ := takeWhile_eq_iff.mp (Eq.refl (after.takeWhile Char.isDigit))
    have hlabelled : Labelled text before (after.takeWhile Char.isDigit ++ rest) := by
      rw [← hafter]
      exact ⟨hsplit, hlast⟩
    exact ⟨.spelled hlabelled hsome hdigits hrest, hlimit⟩
  · rintro ⟨@⟨before, digits, rest, hlabelled, hsome, hdigits, hrest⟩, hlimit⟩
    have hrun : (digits ++ rest).takeWhile Char.isDigit = digits :=
      takeWhile_eq_iff.mpr ⟨rest, rfl, hdigits, hrest⟩
    refine ⟨digits ++ rest, ⟨before, hlabelled.split, hlabelled.last⟩, ?_⟩
    rw [hrun]
    exact ⟨⟨hsome, hdigits⟩, rfl, hlimit⟩

theorem toNat_portOf_eq_iff {text : List Char} {n : Nat} :
    (portOf text).toNat = n ↔ TakenBelow UInt32.size 1 (NamesPort text) n :=
  toNat_getD_eq_iff (fun _ => UInt32.toNat_ofNat_of_lt') (by decide)
    fun _ => portNumber?_eq_some_iff

/-- No number ever wraps: a counter of 64 bits and a port of 32 bits are the numbers that are
    written, however many zeros stand in front of them. A text without such a number, or with
    one that is too large, gives the counter zero and the port one. -/
theorem readers_never_wrap (text : List Char) (n : Nat) :
    ((counterOf text).toNat = n ↔ TakenBelow UInt64.size 0 (CountsAs text) n) ∧
      ((portOf text).toNat = n ↔ TakenBelow UInt32.size 1 (NamesPort text) n) :=
  ⟨toNat_counterOf_eq_iff, toNat_portOf_eq_iff⟩

example : counterOf "00000000000000000000fF \n".toList = 255 ∧
    counterOf "10000000000000000".toList = 0 ∧ counterOf "+1".toList = 0 := by decide

example : portOf "Port=7 Port=0000000000012x".toList = 12 ∧ portOf "Port=4294967296".toList = 1 ∧
    portOf "Port=7 Port=x".toList = 1 := by decide

end PacketMonitor.Telemetry

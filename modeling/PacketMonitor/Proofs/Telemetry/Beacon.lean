import Mathlib.Data.List.TakeWhile
import PacketMonitor.Proofs.Telemetry.Record
import PacketMonitor.Proofs.Text.Hexadecimal
import PacketMonitor.Proofs.Text.Pieces
import PacketMonitor.Proofs.Text.Utf8
import PacketMonitor.Telemetry.Beacon

namespace PacketMonitor.Telemetry

open PacketMonitor.Text

/-- How the value of a field is written: text as it is, and a counter in hexadecimal with
    blanks behind it. -/
inductive Shows : Value → List Char → Prop where
  | text {t : String} (hequals : '=' ∉ t.toList) : Shows (.text t) t.toList
  | counter {n : UInt64} {digits blanks : List Char} (hdigits : SpellsHex digits n.toNat)
    (hblanks : ∀ c ∈ blanks, isBlank c = true) : Shows (.counter n) (digits ++ blanks)

/-- How a segment of a beacon comes about: it carries a field with its value, or nothing,
    because it is cut off or its number belongs to no field. -/
inductive Written (assignment : Field → Value) : Option Field → List Char → Prop where
  | field {f : Field} {high low : Char} {value : List Char} (hnumber : SpellsHex [high, low] f.number)
    (hfits : (assignment f).Fits f) (hvalue : Shows (assignment f) value) :
    Written assignment (some f) (high :: low :: ':' :: value)
  | short {segment : List Char} (hequals : '=' ∉ segment) (hshort : Utf8.size segment < 3) :
    Written assignment none segment
  | unknown {high low : Char} {number : Nat} {rest : List Char}
    (hnumber : SpellsHex [high, low] number) (hunknown : ∀ f : Field, f.number ≠ number)
    (hequals : '=' ∉ rest) : Written assignment none (high :: low :: rest)

theorem Shows.equals_not_mem {v : Value} {value : List Char} (hshows : Shows v value) :
    '=' ∉ value := by
  cases hshows with
  | text hequals => exact hequals
  | counter hdigits hblanks =>
    rw [List.mem_append, not_or]
    refine ⟨hdigits.equals_not_mem, fun hmem => ?_⟩
    exact absurd (hblanks '=' hmem) (by decide)

theorem Written.equals_not_mem {assignment : Field → Value} {carried : Option Field}
    {segment : List Char} (hwritten : Written assignment carried segment) : '=' ∉ segment := by
  have hnumber : ∀ {high low : Char} {number : Nat} {rest : List Char},
      SpellsHex [high, low] number → '=' ∉ rest → '=' ∉ high :: low :: rest := by
    intro high low number rest hnumber hrest hmem
    obtain hmem | hmem := List.mem_append.mp (show '=' ∈ [high, low] ++ rest from hmem)
    · exact hnumber.equals_not_mem hmem
    · exact hrest hmem
  cases hwritten with
  | field hid _ hvalue =>
    refine hnumber hid fun hmem => ?_
    obtain heq | hmem := List.mem_cons.mp hmem
    · exact absurd heq (by decide)
    · exact hvalue.equals_not_mem hmem
  | short hequals _ => exact hequals
  | unknown hid _ hequals => exact hnumber hid hequals

theorem counterOf_append {n : UInt64} {digits blanks : List Char} (hdigits : SpellsHex digits n.toNat)
    (hblanks : ∀ c ∈ blanks, isBlank c = true) : counterOf (digits ++ blanks) = n := by
  rw [counterOf, hdigits.trimEnd_append hblanks, numeralBelow?, hdigits.numeral?_eq, Option.filter_some,
    if_pos (decide_eq_true n.toNat_lt_size), Option.map_some, Option.getD_some, UInt64.ofNat_toNat]

/-- What is read from a written value is that value. -/
theorem Shows.read {f : Field} {v : Value} {value : List Char} (hshows : Shows v value)
    (hfits : v.Fits f) :
    (if f.isText then Value.text (String.ofList value) else .counter (counterOf value)) = v := by
  cases hshows with
  | @text t hequals =>
    have htext : f.isText = true := hfits
    rw [if_pos htext, String.ofList_toList]
  | counter hdigits hblanks =>
    have hcounter : f.isText = false := hfits
    rw [hcounter, if_neg Bool.false_ne_true, counterOf_append hdigits hblanks]

theorem ofNumber?_eq_none {number : Nat} (hunknown : ∀ f : Field, f.number ≠ number) :
    Field.ofNumber? number = none := by
  refine List.find?_eq_none.mpr fun f _ => ?_
  rw [beq_iff_eq]
  exact hunknown f

theorem takeField_of_written {assignment : Field → Value} {carried : Option Field}
    {segment : List Char} (hwritten : Written assignment carried segment) (r : Record) :
    takeField r segment = .ok (carried.elim r fun f => r.set f (assignment f)) := by
  cases hwritten with
  | @field f high low value hnumber hfits hvalue =>
    have hsize : ¬ Utf8.size (high :: low :: ':' :: value) < 3 := by
      have hlength := Utf8.length_le_size (high :: low :: ':' :: value)
      simp only [List.length_cons] at hlength
      omega
    have hread : valueOf (high :: low :: ':' :: value) = value := rfl
    rw [takeField, if_neg hsize, numberOf?, hnumber.numeral?_eq]
    simp only [Field.ofNumber?_number, hread, hvalue.read hfits, Option.elim_some]
  | short _ hshort => rw [takeField, if_pos hshort, Option.elim_none]
  | @unknown high low number rest hnumber hunknown _ =>
    rw [takeField, numberOf?, hnumber.numeral?_eq]
    simp only [ofNumber?_eq_none hunknown, ite_self, Option.elim_none]

/-- The record after some segments, each of which carries a field or nothing. -/
def Record.after (assignment : Field → Value) (r : Record) (carried : List (Option Field)) : Record :=
  carried.foldl (fun r f? => f?.elim r fun f => r.set f (assignment f)) r

theorem takeFields_of_written {assignment : Field → Value}
    {segments : List (Option Field × List Char)}
    (hwritten : ∀ segment ∈ segments, Written assignment segment.1 segment.2) (r : Record) :
    takeFields r (segments.map (·.2)) = .ok (r.after assignment (segments.map (·.1))) := by
  induction segments generalizing r with
  | nil => rfl
  | cons segment segments ih =>
    obtain ⟨hfirst, hothers⟩ := List.forall_mem_cons.mp hwritten
    rw [List.map_cons, takeFields, takeField_of_written hfirst]
    exact ih hothers _

/-- A field that is carried has the value that it carries, in whatever order the fields come. -/
theorem get_after {assignment : Field → Value} {carried : List (Option Field)}
    (hfits : ∀ f, some f ∈ carried → (assignment f).Fits f) (r : Record) (f : Field) :
    (r.after assignment carried).get f = if some f ∈ carried then assignment f else r.get f := by
  induction carried generalizing r with
  | nil => rfl
  | cons first carried ih =>
    obtain hrest := ih fun g hg => hfits g (List.mem_cons_of_mem _ hg)
    rw [Record.after, List.foldl_cons, ← Record.after, hrest]
    by_cases hlater : some f ∈ carried
    · rw [if_pos hlater, if_pos (List.mem_cons_of_mem _ hlater)]
    rw [if_neg hlater]
    cases first with
    | none =>
      rw [if_neg (by simpa using hlater)]
      rfl
    | some g =>
      by_cases hsame : g = f
      · subst hsame
        rw [if_pos (List.mem_cons_self ..)]
        exact Record.get_set_self (hfits g (List.mem_cons_self ..)) r
      · have hother : some f ≠ some g := fun heq => hsame (Option.some.inj heq).symm
        rw [if_neg (by simp [hother, hlater])]
        exact Record.get_set_of_ne (fun heq => hsame heq.symm) r (assignment g)

theorem numeralBelow?_toDigits {n limit : Nat} (hn : n < limit) :
    numeralBelow? 10 limit (Nat.toDigits 10 n) = some n := by
  rw [numeralBelow?, numeral?_toDigits, Option.filter_some, if_pos (decide_eq_true hn)]

/-- The port is read from the digits behind the last `Port=`, because there is no equals sign
    among digits. -/
theorem portOf_append_digits (before : List Char) {digits : List Char}
    (hdigits : ∀ c ∈ digits, isDigitOf 10 c = true) :
    portOf (before ++ "Port=".toList ++ digits) =
      ((numeralBelow? 10 UInt32.size digits).map UInt32.ofNat).getD defaultPort := by
  have hlacks : ¬ "Port=".toList <:+: digits := by
    intro hoccurs
    have hequals := hdigits '=' (hoccurs.subset (by decide))
    exact absurd hequals (by decide)
  rw [portOf, afterLast?_append (by decide) hlacks, Option.bind_eq_bind, Option.bind_some,
    List.takeWhile_eq_self_iff.mpr hdigits]

theorem portOf_append_toDigits (before : List Char) (port : UInt32) :
    portOf (before ++ "Port=".toList ++ Nat.toDigits 10 port.toNat) = port := by
  rw [portOf_append_digits before fun _ => isDigitOf_ten_of_mem_toDigits,
    numeralBelow?_toDigits port.toNat_lt_size, Option.map_some, Option.getD_some, UInt32.ofNat_toNat]

/-- A beacon whose port is written in front of the marker, and whose segments each carry a
    field or are to be skipped, is read back: each field that is carried has its value, all
    others are empty or zero, and the durations are those of the counters. -/
theorem readBeacon_written {before sentinel : List Char} {port : UInt32} {assignment : Field → Value}
    {segments : List (Option Field × List Char)}
    (hbefore : ¬ marker.toList <:+: before ++ "Port=".toList ++ Nat.toDigits 10 port.toNat)
    (hsentinel : '=' ∉ sentinel) (hsegments : segments ≠ [])
    (hwritten : ∀ segment ∈ segments, Written assignment segment.1 segment.2) :
    ∃ record, readBeacon (String.ofList (before ++ "Port=".toList ++ Nat.toDigits 10 port.toNat ++
        marker.toList ++ sentinel ++ segments.flatMap fun segment => '=' :: segment.2)) =
          .ok (port, record) ∧
      (∀ f segment, (some f, segment) ∈ segments → record.get f = assignment f) ∧
      (∀ f, (∀ segment, (some f, segment) ∉ segments) → record.get f = ({} : Record).get f) ∧
      record.uptime = elapsedText record.uptimeMillis ∧
      record.pttOnTime = elapsedText record.pttOnTimeMillis ∧
      record.dcdOnTime = elapsedText record.dcdOnTimeMillis := by
  have hpieces : pieces (· == '=') (sentinel ++ segments.flatMap fun segment => '=' :: segment.2) =
      sentinel :: segments.map (·.2) := by
    have hequals : ∀ {text : List Char}, '=' ∉ text → ∀ c ∈ text, (c == '=') = false := by
      rintro text htext c hc
      rw [beq_eq_false_iff_ne]
      rintro rfl
      exact htext hc
    rw [← List.flatMap_map (fun segment : Option Field × List Char => segment.2) ('=' :: ·)]
    refine pieces_append_flatMap rfl (hequals hsentinel) fun segment hsegment => ?_
    obtain ⟨entry, hentry, rfl⟩ := List.mem_map.mp hsegment
    exact hequals (hwritten entry hentry).equals_not_mem
  have hfits : ∀ f, some f ∈ segments.map (·.1) → (assignment f).Fits f := by
    intro f hf
    obtain ⟨⟨carried, segment⟩, hsegment, rfl⟩ := List.mem_map.mp hf
    have hfield := hwritten _ hsegment
    cases hfield with
    | field _ hfits _ => exact hfits
  have hcarried : ∀ {f segment}, (some f, segment) ∈ segments → some f ∈ segments.map (·.1) :=
    fun hmem => List.mem_map_of_mem hmem
  refine ⟨(Record.after assignment {} (segments.map (·.1))).withDurations, ?_, ?_, ?_, rfl, rfl, rfl⟩
  · rw [readBeacon, String.toList_ofList, List.append_assoc (_ ++ marker.toList),
      splitFirst?_append (by decide) hbefore]
    have hfields := takeFields_of_written hwritten {}
    obtain ⟨first, others, rfl⟩ := List.exists_cons_of_ne_nil hsegments
    simp only [hpieces, List.tail_cons, portOf_append_toDigits, List.map_cons] at hfields ⊢
    rw [hfields]
  · intro f segment hmem
    rw [Record.get_withDurations, get_after hfits, if_pos (hcarried hmem)]
  · intro f hnone
    rw [Record.get_withDurations, get_after hfits, if_neg]
    intro hmem
    obtain ⟨⟨carried, segment⟩, hsegment, rfl⟩ := List.mem_map.mp hmem
    exact hnone segment hsegment

/-- Three fields out of order, between them a number that belongs to no field, and at the end
    a segment that is cut off. -/
theorem readBeacon_three_fields :
    ∃ record, readBeacon (String.ofList ("Port=9 ".toList ++ "Port=".toList ++
        Nat.toDigits 10 (4 : UInt32).toNat ++ marker.toList ++ "IL2P".toList ++
        List.flatMap (fun segment : Option Field × List Char => '=' :: segment.2)
          [(some .fecBytesCorrected, ['1', '1', ':'] ++ ['0', '0', 'F', 'f'] ++ [' ', '\t']),
            (none, ['7', 'F', ':', '?']), (some .firmwareVersion, ['0', '0', ':'] ++ "A:1 ".toList),
            (some .uptimeMillis, ['0', '2', ':'] ++ ['f', 'F']), (none, ['0'])])) =
        .ok (4, record) ∧
      record.get .fecBytesCorrected = .counter 255 ∧ record.get .firmwareVersion = .text "A:1 " ∧
      record.get .uptimeMillis = .counter 255 := by
  obtain ⟨record, hread, hcarried, -⟩ := @readBeacon_written "Port=9 ".toList "IL2P".toList 4
    (fun f => if f.isText then .text "A:1 " else .counter 255)
    [(some .fecBytesCorrected, ['1', '1', ':'] ++ ['0', '0', 'F', 'f'] ++ [' ', '\t']),
      (none, ['7', 'F', ':', '?']), (some .firmwareVersion, ['0', '0', ':'] ++ "A:1 ".toList),
      (some .uptimeMillis, ['0', '2', ':'] ++ ['f', 'F']), (none, ['0'])]
    (by decide) (by decide) (List.cons_ne_nil _ _) (by
      have hblanks : Shows (.counter 255) (['0', '0', 'F', 'f'] ++ [' ', '\t']) :=
        .counter (.of_numeral?_eq (by decide)) (List.all_eq_true.mp rfl)
      have hbare : Shows (.counter 255) (['f', 'F'] ++ []) :=
        .counter (.of_numeral?_eq (by decide)) (List.forall_mem_nil _)
      have htext : Shows (.text "A:1 ") "A:1 ".toList := .text (by decide)
      refine List.forall_mem_cons.mpr ⟨?_, List.forall_mem_cons.mpr ⟨?_, List.forall_mem_cons.mpr
        ⟨?_, List.forall_mem_cons.mpr ⟨?_, List.forall_mem_singleton.mpr ?_⟩⟩⟩⟩
      · exact .field (.of_numeral?_eq (by decide)) rfl hblanks
      · exact .unknown (.of_numeral?_eq (n := 127) (by decide)) (fun f => by cases f <;> decide)
          (by decide)
      · exact .field (.of_numeral?_eq (by decide)) rfl htext
      · exact .field (.of_numeral?_eq (by decide)) rfl hbare
      · exact .short (by decide) (by decide))
  exact ⟨record, hread, hcarried _ _ (.head _), hcarried _ _ (.tail _ (.tail _ (.head _))),
    hcarried _ _ (.tail _ (.tail _ (.tail _ (.head _))))⟩

end PacketMonitor.Telemetry

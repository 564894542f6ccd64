import PacketMonitor.Proofs.Telemetry.Record
import PacketMonitor.Proofs.Text.Hexadecimal
import PacketMonitor.Proofs.Text.Pieces
import PacketMonitor.Proofs.Text.Utf8
import PacketMonitor.Telemetry.Beacon

namespace PacketMonitor.Telemetry

open PacketMonitor.Text

/-- A byte that is the ASCII code of a hexadecimal digit. -/
def HexByte (b : UInt8) (value : Nat) : Prop :=
  ∃ c, HexDigit c value ∧ c.toNat = b.toNat

/-- Bytes that begin with two hexadecimal digits, and the number of these. -/
inductive Numbered : List UInt8 → Nat → Prop where
  | pair {high low : UInt8} {first second : Nat} (hhigh : HexByte high first)
    (hlow : HexByte low second) (rest : List UInt8) :
    Numbered (high :: low :: rest) (first * 16 + second)

/-- A piece of three bytes or more that does not begin with a number. -/
def Malformed (piece : List Char) : Prop :=
  3 ≤ (Utf8.encode piece).length ∧ ∀ number, ¬ Numbered (Utf8.encode piece) number

/-- A piece of three bytes or more that begins with the number of a field. -/
def Carries (f : Field) (piece : List Char) : Prop :=
  3 ≤ (Utf8.encode piece).length ∧ Numbered (Utf8.encode piece) f.number

/-- What is left of a text from some byte on, which is nothing if a character goes across
    the start of that byte. -/
inductive TextFrom (start : Nat) : List Char → List Char → Prop where
  | boundary {front rest : List Char} (hfront : (Utf8.encode front).length = start) :
    TextFrom start (front ++ rest) rest
  | inside {text : List Char}
    (hinside : ∀ front, front <+: text → (Utf8.encode front).length ≠ start) :
    TextFrom start text []

/-- A text as the value of a field. -/
def Field.reading (f : Field) (value : List Char) : Value :=
  if f.isText then .text (String.ofList value) else .counter (counterOf value)

/-- The value of a field that a beacon leaves out. -/
def Field.blank (f : Field) : Value :=
  if f.isText then .text "" else .counter 0

/-- What some pieces make of a value of a field: the last one that carries the field
    decides, and without any the value stays. -/
inductive Leaves (f : Field) (before : Value) (pieces : List (List Char)) : Value → Prop where
  | kept (hnone : ∀ piece ∈ pieces, ¬ Carries f piece) : Leaves f before pieces before
  | last {early late : List (List Char)} {piece value : List Char}
    (hpieces : pieces = early ++ piece :: late) (hcarries : Carries f piece)
    (hlast : ∀ other ∈ late, ¬ Carries f other) (hvalue : TextFrom 3 piece value) :
    Leaves f before pieces (f.reading value)

/-- The pieces of a payload that may be fields: all but the first one. -/
def fieldsOf (payload : List Char) : List (List Char) :=
  (payload.splitOn '=').tail

/-- A text around the first occurrence of the marker. -/
structure Marked (text before payload : List Char) : Prop where
  split : text = before ++ marker.toList ++ payload
  first : ∀ front, front ++ marker.toList <+: text → before.length ≤ front.length

/-- What a text means as a beacon. -/
inductive Means (text : List Char) : Except BeaconError (UInt32 × Record) → Prop where
  | unmarked (hnone : ¬ marker.toList <:+: text) : Means text (.error .notTelemetry)
  | fieldless {before payload : List Char} (hmarked : Marked text before payload)
    (hequals : '=' ∉ payload) : Means text (.error .notTelemetry)
  | malformed {before payload piece : List Char} {early late : List (List Char)}
    (hmarked : Marked text before payload) (hequals : '=' ∈ payload)
    (hfields : fieldsOf payload = early ++ piece :: late)
    (hearly : ∀ other ∈ early, ¬ Malformed other) (hpiece : Malformed piece) :
    Means text (.error (.malformedField (String.ofList piece)))
  | decoded {before payload : List Char} {record : Record}
    (hmarked : Marked text before payload) (hequals : '=' ∈ payload)
    (hfields : ∀ piece ∈ fieldsOf payload, ¬ Malformed piece)
    (hvalues : ∀ f, Leaves f f.blank (fieldsOf payload) (record.get f))
    (huptime : record.uptime = elapsedText record.uptimeMillis)
    (hpttOnTime : record.pttOnTime = elapsedText record.pttOnTimeMillis)
    (hdcdOnTime : record.dcdOnTime = elapsedText record.dcdOnTimeMillis) :
    Means text (.ok (portOf before, record))

/-- Where a number can be read, there are two digits. -/
theorem exists_digits_of_numberOf? {piece : List Char} {number : Nat}
    (hnumber : numberOf? piece = some number) :
    ∃ high low rest first second, piece = high :: low :: rest ∧ HexDigit high first ∧
      HexDigit low second ∧ number = first * 16 + second := by
  unfold numberOf? at hnumber
  split at hnumber
  · rename_i high low rest
    obtain ⟨first, second, hhigh, hlow, rfl⟩ := SpellsHex.numeral?_pair_eq_some_iff.mp hnumber
    exact ⟨high, low, rest, first, second, rfl, hhigh, hlow, rfl⟩
  · cases hnumber

theorem numberOf?_eq_some_iff {piece : List Char} {number : Nat} :
    numberOf? piece = some number ↔ Numbered (Utf8.encode piece) number := by
  constructor
  · intro hnumber
    obtain ⟨high, low, rest, first, second, rfl, hhigh, hlow, rfl⟩ :=
      exists_digits_of_numberOf? hnumber
    have hbyte : ∀ {c : Char} {value : Nat}, HexDigit c value →
        HexByte (UInt8.ofNat c.toNat) value := by
      intro c value hdigit
      have hfits : c.toNat < UInt8.size := Nat.lt_trans hdigit.toNat_lt (by decide)
      exact ⟨c, hdigit, (UInt8.toNat_ofNat_of_lt' hfits).symm⟩
    rw [Utf8.encode_cons_of_ascii hhigh.toNat_lt, Utf8.encode_cons_of_ascii hlow.toNat_lt]
    exact .pair (hbyte hhigh) (hbyte hlow) _
  · intro hnumbered
    generalize hbytes : Utf8.encode piece = bytes at hnumbered
    obtain @⟨high, low, first, second, ⟨a, ha, hhigh⟩, ⟨b, hb, hlow⟩, rest⟩ := hnumbered
    obtain ⟨c, behind, rfl, hc, hbehind⟩ := Utf8.exists_cons_of_encode hbytes (hhigh ▸ ha.toNat_lt)
    obtain ⟨d, value, rfl, hd, -⟩ := Utf8.exists_cons_of_encode hbehind (hlow ▸ hb.toNat_lt)
    obtain rfl : c = a := Char.toNat_inj.mp (hc.trans hhigh.symm)
    obtain rfl : d = b := Char.toNat_inj.mp (hd.trans hlow.symm)
    exact SpellsHex.numeral?_pair_eq_some_iff.mpr ⟨first, second, ha, hb, rfl⟩

/-- Behind a number the value is the text from the fourth byte on. -/
theorem textFrom_valueOf {piece : List Char} {number : Nat}
    (hnumber : numberOf? piece = some number) (hlong : 3 ≤ (Utf8.encode piece).length) :
    TextFrom 3 piece (valueOf piece) := by
  obtain ⟨high, low, rest, first, second, rfl, hhigh, hlow, rfl⟩ :=
    exists_digits_of_numberOf? hnumber
  have hone : ∀ {c : Char} {value : Nat}, HexDigit c value → c.utf8Size = 1 := by
    intro c value hdigit
    exact Char.utf8Size_eq_one_iff.mpr (Nat.le_of_lt_succ hdigit.toNat_lt)
  have hsize : ∀ text,
      (Utf8.encode (high :: low :: text)).length = (Utf8.encode text).length + 2 := by
    intro text
    simp only [Utf8.length_encode, Utf8.size_cons, hone hhigh, hone hlow]
    omega
  cases rest with
  | nil =>
    rw [hsize] at hlong
    exact absurd hlong (by decide)
  | cons separator value =>
    have hvalue : valueOf (high :: low :: separator :: value) =
        if separator.utf8Size = 1 then value else [] := rfl
    rw [hvalue]
    split
    · rename_i hseparator
      have hfront : (Utf8.encode [high, low, separator]).length = 3 := by
        rw [hsize, Utf8.length_encode, Utf8.size_cons, hseparator]
        rfl
      exact .boundary hfront
    · rename_i hseparator
      have hwide := separator.utf8Size_pos
      refine .inside fun front hfront => ?_
      -- A front up to the separator is too short, and one with it is too long.
      rcases front with _ | ⟨a, _ | ⟨b, _ | ⟨c, front⟩⟩⟩
      · decide
      · obtain ⟨rfl, -⟩ := List.cons_prefix_cons.mp hfront
        rw [Utf8.length_encode, Utf8.size_cons, hone hhigh]
        decide
      · simp only [List.cons_prefix_cons] at hfront
        obtain ⟨rfl, rfl, -⟩ := hfront
        rw [hsize]
        decide
      · simp only [List.cons_prefix_cons] at hfront
        obtain ⟨rfl, rfl, rfl, -⟩ := hfront
        rw [hsize, Utf8.length_encode, Utf8.size_cons]
        omega

theorem Field.fits_reading (f : Field) (value : List Char) : (f.reading value).Fits f := by
  unfold Field.reading
  split
  · assumption
  · rename_i hcounter
    exact Bool.eq_false_iff.mpr hcounter

theorem Field.number_injective {f g : Field} (hnumber : f.number = g.number) : f = g := by
  have hfound := f.ofNumber?_number
  rw [hnumber, g.ofNumber?_number] at hfound
  exact (Option.some.inj hfound).symm

/-- One piece is refused if it is malformed, and otherwise has its say on each field. -/
theorem takeField_spec (r : Record) (piece : List Char) :
    Malformed piece ∧ takeField r piece = .error (.malformedField (String.ofList piece)) ∨
      ¬ Malformed piece ∧ ∃ next, takeField r piece = .ok next ∧
        ∀ f, Leaves f (r.get f) [piece] (next.get f) := by
  have hkept : (∀ f, ¬ Carries f piece) → ∀ f, Leaves f (r.get f) [piece] (r.get f) :=
    fun hnone f => .kept (List.forall_mem_singleton.mpr (hnone f))
  rw [takeField, ← Utf8.length_encode]
  split
  · rename_i hshort
    refine .inr ⟨fun hmalformed => absurd hmalformed.1 (Nat.not_le.mpr hshort), r, rfl, hkept ?_⟩
    exact fun f hcarries => absurd hcarries.1 (Nat.not_le.mpr hshort)
  rename_i hlong
  replace hlong := Nat.le_of_not_lt hlong
  split
  · rename_i hnumber
    refine .inl ⟨⟨hlong, fun number hnumbered => ?_⟩, rfl⟩
    rw [numberOf?_eq_some_iff.mpr hnumbered] at hnumber
    cases hnumber
  rename_i number hnumber
  have hnumbered := numberOf?_eq_some_iff.mp hnumber
  have hnumber_eq : ∀ {f}, Carries f piece → f.number = number := by
    intro f hcarries
    have hsame := numberOf?_eq_some_iff.mpr hcarries.2
    rw [hnumber] at hsame
    exact (Option.some.inj hsame).symm
  refine .inr ⟨fun hmalformed => hmalformed.2 number hnumbered, ?_⟩
  cases hfield : Field.ofNumber? number with
  | none =>
    refine ⟨r, rfl, hkept fun f hcarries => ?_⟩
    rw [Field.ofNumber?_eq_some_iff.mpr (hnumber_eq hcarries)] at hfield
    cases hfield
  | some f =>
    obtain rfl := Field.ofNumber?_eq_some_iff.mp hfield
    refine ⟨_, rfl, fun g => ?_⟩
    by_cases hsame : g = f
    · subst hsame
      change Leaves g _ _ ((r.set g (g.reading (valueOf piece))).get g)
      rw [Record.get_set_self (g.fits_reading _)]
      exact .last (List.nil_append _).symm ⟨hlong, hnumbered⟩ (List.forall_mem_nil _)
        (textFrom_valueOf hnumber hlong)
    · rw [Record.get_set_of_ne hsame]
      refine .kept (List.forall_mem_singleton.mpr fun hcarries => hsame ?_)
      exact Field.number_injective (hnumber_eq hcarries)

theorem Leaves.append {f : Field} {before between after : Value} {early late : List (List Char)}
    (hearly : Leaves f before early between) (hlate : Leaves f between late after) :
    Leaves f before (early ++ late) after := by
  cases hlate with
  | kept hnone =>
    cases hearly with
    | kept hnone' =>
      refine .kept fun piece hpiece => ?_
      exact (List.mem_append.mp hpiece).elim (hnone' piece) (hnone piece)
    | @last first others piece value hpieces hcarries hlast hvalue =>
      have hsplit : early ++ late = first ++ piece :: (others ++ late) := by
        rw [hpieces, List.append_assoc, List.cons_append]
      refine .last hsplit hcarries (fun other hother => ?_) hvalue
      exact (List.mem_append.mp hother).elim (hlast other) (hnone other)
  | @last first others piece value hpieces hcarries hlast hvalue =>
    have hsplit : early ++ late = (early ++ first) ++ piece :: others := by
      rw [hpieces, List.append_assoc]
    exact .last hsplit hcarries hlast hvalue

/-- The first malformed piece refuses all of them, and otherwise each field is left with
    a value. -/
theorem takeFields_spec (r : Record) (pieces : List (List Char)) :
    (∃ early piece late, pieces = early ++ piece :: late ∧ (∀ other ∈ early, ¬ Malformed other) ∧
        Malformed piece ∧ takeFields r pieces = .error (.malformedField (String.ofList piece))) ∨
      (∀ piece ∈ pieces, ¬ Malformed piece) ∧ ∃ record, takeFields r pieces = .ok record ∧
        ∀ f, Leaves f (r.get f) pieces (record.get f) := by
  induction pieces generalizing r with
  | nil => exact .inr ⟨List.forall_mem_nil _, r, rfl, fun f => .kept (List.forall_mem_nil _)⟩
  | cons piece rest ih =>
    obtain ⟨hpiece, htake⟩ | ⟨hpiece, next, htake, hnext⟩ := takeField_spec r piece
    · exact .inl ⟨[], piece, rest, rfl, List.forall_mem_nil _, hpiece, by rw [takeFields, htake]⟩
    · obtain ⟨early, wrong, late, rfl, hearly, hwrong, hrest⟩ | ⟨hall, record, hrest, hrecord⟩ :=
        ih next
      · refine .inl ⟨piece :: early, wrong, late, rfl, ?_, hwrong, ?_⟩
        · exact List.forall_mem_cons.mpr ⟨hpiece, hearly⟩
        · rw [takeFields, htake]
          exact hrest
      · refine .inr ⟨List.forall_mem_cons.mpr ⟨hpiece, hall⟩, record, ?_, fun f => ?_⟩
        · rw [takeFields, htake]
          exact hrest
        · exact (hnext f).append (hrecord f)

theorem fieldsOf_eq_tail_pieces (payload : List Char) :
    fieldsOf payload = (pieces (· == '=') payload).tail := by
  rw [pieces_eq_splitOnP]
  rfl

theorem fieldsOf_append_cons (payload rest : List Char) :
    fieldsOf (payload ++ '=' :: rest) = fieldsOf payload ++ rest.splitOn '=' := by
  have hsome : payload.splitOn '=' ≠ [] := payload.splitOnP_ne_nil _
  rw [fieldsOf, List.splitOn, List.splitOnP_append_cons payload rest rfl]
  exact List.tail_append_of_ne_nil hsome

theorem splitOn_of_not_mem {piece : List Char} (hequals : '=' ∉ piece) :
    piece.splitOn '=' = [piece] :=
  List.splitOnP_eq_singleton fun _ hc => beq_false_of_ne (ne_of_mem_of_not_mem hc hequals)

theorem fieldsOf_eq_nil_iff {payload : List Char} : fieldsOf payload = [] ↔ '=' ∉ payload := by
  constructor
  · intro hnone hequals
    obtain ⟨early, late, rfl⟩ := List.append_of_mem hequals
    rw [fieldsOf_append_cons, List.append_eq_nil_iff] at hnone
    exact late.splitOnP_ne_nil _ hnone.2
  · intro hlacks
    rw [fieldsOf, splitOn_of_not_mem hlacks, List.tail_cons]

theorem Marked.isInfix {text before payload : List Char} (hmarked : Marked text before payload) :
    marker.toList <:+: text := ⟨before, payload, hmarked.split.symm⟩

theorem marked_iff {text before payload : List Char} :
    splitFirst? marker.toList text = some (before, payload) ↔ Marked text before payload := by
  rw [splitFirst?_eq_some_iff]
  exact ⟨fun ⟨hsplit, hfirst⟩ => ⟨hsplit, hfirst⟩, fun ⟨hsplit, hfirst⟩ => ⟨hsplit, hfirst⟩⟩

/-- Where there are fields behind the marker, they decide. -/
theorem readBeacon_of_marked {text : String} {before payload : List Char}
    (hmarked : Marked text.toList before payload) (hequals : '=' ∈ payload) :
    readBeacon text =
      (takeFields {} (fieldsOf payload)).map fun r => (portOf before, r.withDurations) := by
  have hsome : fieldsOf payload ≠ [] := fun hnone => fieldsOf_eq_nil_iff.mp hnone hequals
  rw [fieldsOf_eq_tail_pieces] at hsome ⊢
  rw [readBeacon, marked_iff.mpr hmarked]
  obtain ⟨first, others, hfields⟩ := List.exists_cons_of_ne_nil hsome
  simp only [hfields]
  cases takeFields {} (first :: others) with
  | error e => rfl
  | ok r => rfl

theorem readBeacon_eq_notTelemetry {text : String}
    (hnone : ∀ before payload, Marked text.toList before payload → '=' ∉ payload) :
    readBeacon text = .error .notTelemetry := by
  rw [readBeacon]
  cases hsplit : splitFirst? marker.toList text.toList with
  | none => rfl
  | some parts =>
    obtain ⟨before, payload⟩ := parts
    have hlacks := fieldsOf_eq_nil_iff.mpr (hnone before payload (marked_iff.mp hsplit))
    rw [fieldsOf_eq_tail_pieces] at hlacks
    simp only [hlacks]

section Unique

variable {α : Type} {P : α → Prop} {early early' late late' : List α} {item item' : α}

/-- A list has only one first item of a kind. -/
theorem eq_of_first (hsame : early ++ item :: late = early' ++ item' :: late')
    (hearly : ∀ other ∈ early, ¬ P other) (hitem : P item) (hearly' : ∀ other ∈ early', ¬ P other)
    (hitem' : P item') : item = item' := by
  classical
  have hfirst : ∀ {early late : List α} {item : α}, (∀ other ∈ early, ¬ P other) → P item →
      (early ++ item :: late).find? (fun other => decide (P other)) = some item := by
    intro early late item hearly hitem
    refine List.find?_eq_some_iff_append.mpr ⟨decide_eq_true hitem, early, late, rfl, ?_⟩
    simpa using hearly
  have hfound : (early ++ item :: late).find? (fun other => decide (P other)) = some item :=
    hfirst hearly hitem
  rw [hsame, hfirst hearly' hitem'] at hfound
  exact (Option.some.inj hfound).symm

/-- A list has only one last item of a kind. -/
theorem eq_of_last (hsame : early ++ item :: late = early' ++ item' :: late') (hitem : P item)
    (hlate : ∀ other ∈ late, ¬ P other) (hitem' : P item') (hlate' : ∀ other ∈ late', ¬ P other) :
    item = item' := by
  have hreverse :
      late.reverse ++ item :: early.reverse = late'.reverse ++ item' :: early'.reverse := by
    simpa using congrArg List.reverse hsame
  refine eq_of_first hreverse (fun other hother => ?_) hitem (fun other hother => ?_) hitem'
  · exact hlate other (List.mem_reverse.mp hother)
  · exact hlate' other (List.mem_reverse.mp hother)

end Unique

/-- Two fronts of a text with as many bytes are the same. -/
theorem eq_of_fronts {front front' rest rest' : List Char} (hsame : front ++ rest = front' ++ rest')
    (hsize : (Utf8.encode front).length = (Utf8.encode front').length) : rest = rest' := by
  have hnone : ∀ {short middle : List Char},
      (Utf8.encode (short ++ middle)).length = (Utf8.encode short).length → middle = [] := by
    intro short middle hlength
    rw [Utf8.encode_append, List.length_append, Nat.add_eq_left, Utf8.length_encode] at hlength
    exact List.eq_nil_of_length_eq_zero (Nat.le_zero.mp (hlength ▸ Utf8.length_le_size middle))
  obtain ⟨middle, rfl, hrest⟩ | ⟨middle, rfl, hrest⟩ := List.append_eq_append_iff.mp hsame
  · rw [hrest, hnone hsize.symm, List.nil_append]
  · rw [hrest, hnone hsize, List.nil_append]

theorem TextFrom.unique {start : Nat} {text value value' : List Char}
    (hvalue : TextFrom start text value) (hvalue' : TextFrom start text value') :
    value = value' := by
  generalize hsame : text = text' at hvalue'
  cases hvalue with
  | boundary hfront =>
    cases hvalue' with
    | boundary hfront' => exact eq_of_fronts hsame (hfront.trans hfront'.symm)
    | inside hinside => exact absurd hfront (hinside _ (hsame ▸ List.prefix_append ..))
  | inside hinside =>
    cases hvalue' with
    | boundary hfront' => exact absurd hfront' (hinside _ (hsame ▸ List.prefix_append ..))
    | inside => rfl

theorem Leaves.unique {f : Field} {before after after' : Value} {pieces : List (List Char)}
    (hafter : Leaves f before pieces after) (hafter' : Leaves f before pieces after') :
    after = after' := by
  have hmem : ∀ {early late : List (List Char)} {piece : List Char},
      pieces = early ++ piece :: late → piece ∈ pieces :=
    fun hpieces => hpieces ▸ List.mem_append_cons_self
  cases hafter with
  | kept hnone =>
    cases hafter' with
    | kept => rfl
    | last hpieces hcarries => exact absurd hcarries (hnone _ (hmem hpieces))
  | last hpieces hcarries hlast hvalue =>
    cases hafter' with
    | kept hnone => exact absurd hcarries (hnone _ (hmem hpieces))
    | last hpieces' hcarries' hlast' hvalue' =>
      obtain rfl := eq_of_last (hpieces.symm.trans hpieces') hcarries hlast hcarries' hlast'
      rw [hvalue.unique hvalue']

theorem Marked.unique {text before before' payload payload' : List Char}
    (hmarked : Marked text before payload) (hmarked' : Marked text before' payload') :
    before = before' ∧ payload = payload' := by
  have hsplit := marked_iff.mpr hmarked
  rw [marked_iff.mpr hmarked', Option.some.injEq, Prod.mk.injEq] at hsplit
  exact ⟨hsplit.1.symm, hsplit.2.symm⟩

theorem exists_marked {text : List Char} (hoccurs : marker.toList <:+: text) :
    ∃ before payload, Marked text before payload := by
  cases hsplit : splitFirst? marker.toList text with
  | none => exact absurd hoccurs (splitFirst?_eq_none_iff.mp hsplit)
  | some parts => exact ⟨parts.1, parts.2, marked_iff.mp hsplit⟩

/-- What a beacon is read as is what it means. -/
theorem means_readBeacon (text : String) : Means text.toList (readBeacon text) := by
  by_cases hoccurs : marker.toList <:+: text.toList
  · obtain ⟨before, payload, hmarked⟩ := exists_marked hoccurs
    by_cases hequals : '=' ∈ payload
    · rw [readBeacon_of_marked hmarked hequals]
      obtain ⟨early, piece, late, hfields, hearly, hpiece, htake⟩ |
        ⟨hall, record, htake, hvalues⟩ := takeFields_spec {} (fieldsOf payload)
      · rw [htake]
        exact .malformed hmarked hequals hfields hearly hpiece
      · rw [htake]
        refine .decoded hmarked hequals hall (fun f => ?_) rfl rfl rfl
        rw [Record.get_withDurations, Field.blank, ← Record.get_empty]
        exact hvalues f
    · rw [readBeacon_eq_notTelemetry fun _ _ hmarked' => (hmarked.unique hmarked').2 ▸ hequals]
      exact .fieldless hmarked hequals
  · rw [readBeacon_eq_notTelemetry fun before payload hmarked => absurd hmarked.isInfix hoccurs]
    exact .unmarked hoccurs

/-- The port of a beacon is the one named in front of the marker. -/
theorem Marked.port_eq {text : String} {before payload : List Char} {port : UInt32}
    {record : Record} (hmarked : Marked text.toList before payload)
    (hread : readBeacon text = .ok (port, record)) : port = portOf before := by
  have hmeans := means_readBeacon text
  rw [hread] at hmeans
  cases hmeans with
  | decoded hmarked' => rw [(hmarked.unique hmarked').1]

/-- A beacon is read as nothing but what it means. -/
theorem readBeacon_of_means {text : String} {result : Except BeaconError (UInt32 × Record)}
    (hmeans : Means text.toList result) : readBeacon text = result := by
  cases hmeans with
  | unmarked hnone =>
    exact readBeacon_eq_notTelemetry fun _ _ hmarked => absurd hmarked.isInfix hnone
  | fieldless hmarked hequals =>
    exact readBeacon_eq_notTelemetry fun _ _ hmarked' => (hmarked.unique hmarked').2 ▸ hequals
  | malformed hmarked hequals hfields hearly hpiece =>
    rw [readBeacon_of_marked hmarked hequals]
    obtain ⟨early, piece, late, hfields', hearly', hpiece', htake⟩ | ⟨hall, -⟩ :=
      takeFields_spec {} (fieldsOf _)
    · obtain rfl := eq_of_first (hfields.symm.trans hfields') hearly hpiece hearly' hpiece'
      rw [htake]
      rfl
    · exact absurd hpiece (hall _ (hfields ▸ List.mem_append_cons_self))
  | @decoded before payload record hmarked hequals hfields hvalues huptime hpttOnTime hdcdOnTime =>
    rw [readBeacon_of_marked hmarked hequals]
    obtain ⟨early, piece, late, hfields', -, hpiece, -⟩ | ⟨-, filled, htake, hfilled⟩ :=
      takeFields_spec {} (fieldsOf payload)
    · exact absurd hpiece (hfields _ (hfields' ▸ List.mem_append_cons_self))
    · have hget : ∀ f, filled.get f = record.get f := fun f =>
        (Record.get_empty f ▸ hfilled f).unique (hvalues f)
      rw [htake, ← Record.withDurations_eq hget huptime hpttOnTime hdcdOnTime]
      rfl

/-- A text is read as a result exactly if it means that result. -/
theorem readBeacon_eq_iff {text : String} {result : Except BeaconError (UInt32 × Record)} :
    readBeacon text = result ↔ Means text.toList result :=
  ⟨fun hread => hread ▸ means_readBeacon text, readBeacon_of_means⟩

end PacketMonitor.Telemetry

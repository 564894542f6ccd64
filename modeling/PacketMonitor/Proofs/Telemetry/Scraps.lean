import PacketMonitor.Frame
import PacketMonitor.Proofs.Telemetry.Truncation

namespace PacketMonitor.Telemetry

open PacketMonitor.Text

/-- A place where a beacon can take another field. The marker and some equals sign behind it
    come before that place, and the next field or nothing after it. -/
structure FieldEnd (early late : String) : Prop where
  equals : ∃ front rest, early.toList = front ++ marker.toList ++ rest ∧ '=' ∈ rest
  boundary : ∀ c ∈ late.toList.head?, c = '='

theorem takeFields_append (r : Record) (early late : List (List Char)) :
    takeFields r (early ++ late) = (takeFields r early).bind fun r => takeFields r late := by
  induction early generalizing r with
  | nil => rfl
  | cons field early ih =>
    rw [List.cons_append, takeFields, takeFields]
    cases takeField r field with
    | error e => rfl
    | ok r => exact ih r

/-- What is put between two fields is one more piece, and the others stay as they are. -/
theorem exists_fieldsOf_insert (payload : List Char) {late : List Char}
    (hlate : ∀ c ∈ late.head?, c = '=') :
    ∃ others, fieldsOf (payload ++ late) = fieldsOf payload ++ others ∧
      ∀ scrap, '=' ∉ scrap →
        fieldsOf (payload ++ '=' :: scrap ++ late) = fieldsOf payload ++ scrap :: others := by
  cases late with
  | nil =>
    refine ⟨[], by rw [List.append_nil, List.append_nil], fun scrap hequals => ?_⟩
    rw [List.append_nil, fieldsOf_append_cons, splitOn_of_not_mem hequals]
  | cons c late =>
    obtain rfl := hlate c rfl
    refine ⟨late.splitOn '=', fieldsOf_append_cons payload late, fun scrap hequals => ?_⟩
    rw [fieldsOf_append_cons, fieldsOf_append_cons, splitOn_of_not_mem hequals, List.append_assoc,
      List.singleton_append]

/-- All that is read with a scrap between two fields, and without it, comes from the same fields
    in front of it and behind it. -/
theorem FieldEnd.exists_fields {early late : String} (hplace : FieldEnd early late) :
    ∃ before fields others,
      readBeacon early =
        (takeFields {} fields).map (fun r => (portOf before, r.withDurations)) ∧
      readBeacon (early ++ late) =
        (takeFields {} (fields ++ others)).map (fun r => (portOf before, r.withDurations)) ∧
      ∀ scrap : String, '=' ∉ scrap.toList → readBeacon (early ++ "=" ++ scrap ++ late) =
        (takeFields {} (fields ++ scrap.toList :: others)).map
          (fun r => (portOf before, r.withDurations)) := by
  obtain ⟨front, rest, hearly, hequals⟩ := hplace.equals
  obtain ⟨before, payload, hmarked⟩ := exists_marked ⟨front, rest, hearly.symm⟩
  have hpayload := hmarked.mem_payload hearly hequals
  obtain ⟨others, hwhole, hinsert⟩ := exists_fieldsOf_insert payload hplace.boundary
  have hbehind : ∀ more : String, Marked (early ++ more).toList before (payload ++ more.toList) := by
    intro more
    rw [String.toList_append]
    exact hmarked.append more.toList
  refine ⟨before, fieldsOf payload, others, readBeacon_of_marked hmarked hpayload, ?_, ?_⟩
  · rw [readBeacon_of_marked (hbehind late) (List.mem_append_left _ hpayload), hwhole]
  · intro scrap hscrap
    have hmore : early ++ "=" ++ scrap ++ late = early ++ ("=" ++ scrap ++ late) := by
      simp only [String.append_assoc]
    have hfields : fieldsOf (payload ++ ("=" ++ scrap ++ late).toList) =
        fieldsOf payload ++ scrap.toList :: others := by
      rw [← hinsert scrap.toList hscrap]
      simp
    rw [hmore, readBeacon_of_marked (hbehind _) (List.mem_append_left _ hpayload), hfields]

/-- Two characters of three bytes or more are no number. -/
theorem malformed_of_length_le {piece : List Char} (hshort : piece.length ≤ 2)
    (hlong : 3 ≤ (Utf8.encode piece).length) : Malformed piece := by
  refine ⟨hlong, fun number hnumbered => ?_⟩
  obtain ⟨high, low, rest, first, second, rfl, hhigh, hlow, -⟩ :=
    exists_digits_of_numberOf? (numberOf?_eq_some_iff.mpr hnumbered)
  obtain rfl : rest = [] := List.eq_nil_of_length_eq_zero (by simpa using hshort)
  rw [Utf8.encode_cons_of_ascii hhigh.toNat_lt, Utf8.encode_cons_of_ascii hlow.toNat_lt] at hlong
  exact absurd hlong (Nat.lt_irrefl 2)

/-- A scrap of two characters at most between two fields changes nothing if it has no more than
    two bytes. With more bytes it is malformed, and the first one that is decides. -/
theorem readBeacon_insert_scrap {early scrap late : String} (hplace : FieldEnd early late)
    (hequals : '=' ∉ scrap.toList) (hshort : scrap.length ≤ 2) :
    ((Utf8.encode scrap.toList).length < 3 →
        readBeacon (early ++ "=" ++ scrap ++ late) = readBeacon (early ++ late)) ∧
      (3 ≤ (Utf8.encode scrap.toList).length →
        (∀ port record, readBeacon early = .ok (port, record) →
          readBeacon (early ++ "=" ++ scrap ++ late) = .error (.malformedField scrap)) ∧
        ∀ e, readBeacon early = .error e →
          readBeacon (early ++ "=" ++ scrap ++ late) = .error e ∧
            readBeacon (early ++ late) = .error e) := by
  obtain ⟨before, fields, others, hearly, hwhole, hinsert⟩ := hplace.exists_fields
  rw [hinsert scrap hequals, hwhole, hearly, takeFields_append, takeFields_append]
  refine ⟨fun hfew => ?_, fun hmany => ?_⟩
  · have hskip : ∀ r, takeFields r (scrap.toList :: others) = takeFields r others := by
      intro r
      rw [takeFields, takeField, if_pos (Utf8.length_encode _ ▸ hfew)]
    simp only [hskip]
  · have hmalformed : Malformed scrap.toList := malformed_of_length_le hshort hmany
    have hrefuse : ∀ r, takeFields r (scrap.toList :: others) = .error (.malformedField scrap) := by
      intro r
      obtain ⟨-, htake⟩ | ⟨hfine, -⟩ := takeField_spec r scrap.toList
      · rw [takeFields, htake, String.ofList_toList]
      · exact absurd hmalformed hfine
    cases takeFields {} fields with
    | error e =>
      refine ⟨fun port record hread => ?_, fun e' hread => ⟨hread, hread⟩⟩
      cases hread
    | ok r =>
      refine ⟨fun port record _ => ?_, fun e hread => ?_⟩
      · exact congrArg (Except.map _) (hrefuse r)
      · cases hread

/-- One accented letter is skipped, and behind a digit it is malformed. -/
theorem readBeacon_insert_accents :
    readBeacon "Port=2 <UI C>:=00:2.76=é=0A:22" = readBeacon "Port=2 <UI C>:=00:2.76=0A:22" ∧
      readBeacon "Port=2 <UI C>:=00:2.76=0é=0A:22" = .error (.malformedField "0é") := by
  have hplace : FieldEnd "Port=2 <UI C>:=00:2.76" "=0A:22" :=
    ⟨⟨"Port=2".toList, "=00:2.76".toList, rfl, .head _⟩, by rintro c ⟨⟩; rfl⟩
  have hread : readBeacon "Port=2 <UI C>:=00:2.76" = .ok (2,
      { firmwareVersion := "2.76", uptime := "0s", pttOnTime := "0s", dcdOnTime := "0s" }) := rfl
  have hletter := @readBeacon_insert_scrap "Port=2 <UI C>:=00:2.76" "é" "=0A:22" hplace (by decide)
    (by decide)
  have hdigit := @readBeacon_insert_scrap "Port=2 <UI C>:=00:2.76" "0é" "=0A:22" hplace (by decide)
    (by decide)
  exact ⟨hletter.1 (by decide), (hdigit.2 (by decide)).1 _ _ hread⟩

/-- A byte that is corrupted on its way becomes a scrap of one character, and the record is
    discarded with it. -/
theorem readBeacon_corrupted_byte :
    FieldEnd "Port=2 <UI C>:=00:2.76" "" ∧ '=' ∉ "\uFFFD".toList ∧ "\uFFFD".length ≤ 2 ∧
      Frame.clean (Utf8.encode "Port=2 <UI C>:=00:2.76=".toList ++ [0xC3]) =
        "Port=2 <UI C>:=00:2.76" ++ "=" ++ "\uFFFD" ++ "" ∧
      readBeacon ("Port=2 <UI C>:=00:2.76" ++ "=" ++ "\uFFFD" ++ "") =
        .error (.malformedField "\uFFFD") ∧
      readBeacon ("Port=2 <UI C>:=00:2.76" ++ "") = .ok (2,
        { firmwareVersion := "2.76", uptime := "0s", pttOnTime := "0s", dcdOnTime := "0s" }) := by
  refine ⟨⟨⟨"Port=2".toList, "=00:2.76".toList, rfl, .head _⟩, by rintro c ⟨⟩⟩, by decide,
    by decide, rfl, rfl, rfl⟩

end PacketMonitor.Telemetry

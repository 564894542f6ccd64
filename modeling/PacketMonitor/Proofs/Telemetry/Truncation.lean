import PacketMonitor.Proofs.Telemetry.Meaning

namespace PacketMonitor.Telemetry

open PacketMonitor.Text

/-- A cut through the fields of a beacon: some of them stay whole, and of the next one
    a front is left. -/
structure Severed (text cut : List Char) (whole : List (List Char)) (last : List Char) : Prop where
  before : ∃ before payload piece late, Marked text before payload ∧
    fieldsOf payload = whole ++ piece :: late ∧ last <+: piece
  after : ∃ before payload, Marked cut before payload ∧ fieldsOf payload = whole ++ [last]

namespace Marked

variable {text before payload : List Char}

/-- The first occurrence of the marker stays the first one whatever follows. -/
theorem append (hmarked : Marked text before payload) (rest : List Char) :
    Marked (text ++ rest) before (payload ++ rest) := by
  refine ⟨?_, fun front hoccurs => ?_⟩
  · rw [hmarked.split, List.append_assoc (before ++ marker.toList)]
  · by_contra hearly
    have hinside : (front ++ marker.toList).length ≤ text.length := by
      rw [hmarked.split]
      simp only [List.length_append]
      omega
    have hfront := List.prefix_of_prefix_length_le hoccurs (List.prefix_append text rest) hinside
    exact hearly (hmarked.first front hfront)

theorem mem_payload (hmarked : Marked text before payload) {front rest : List Char}
    (hsplit : text = front ++ marker.toList ++ rest) {c : Char} (hc : c ∈ rest) : c ∈ payload := by
  have hleast : before.length ≤ front.length := hmarked.first front ⟨rest, hsplit.symm⟩
  have hlength : rest.length ≤ payload.length := by
    have hsame := congrArg List.length (hsplit.symm.trans hmarked.split)
    simp only [List.length_append] at hsame
    omega
  have hrest : rest <:+ text := ⟨front ++ marker.toList, hsplit.symm⟩
  have hpayload : payload <:+ text := ⟨before ++ marker.toList, hmarked.split.symm⟩
  exact (List.suffix_of_suffix_length_le hrest hpayload hlength).subset hc

end Marked

theorem exists_fieldsOf_append {payload : List Char} (hequals : '=' ∈ payload) (rest : List Char) :
    ∃ whole last piece late, fieldsOf payload = whole ++ [last] ∧
      fieldsOf (payload ++ rest) = whole ++ (last ++ piece) :: late := by
  obtain ⟨whole, last, piece, late, hpayload, hboth⟩ := exists_pieces_append (· == '=') payload rest
  have hsome : fieldsOf payload ≠ [] := fun hnone => fieldsOf_eq_nil_iff.mp hnone hequals
  rw [fieldsOf_eq_tail_pieces, hpayload] at hsome
  rw [fieldsOf_eq_tail_pieces, fieldsOf_eq_tail_pieces, hpayload, hboth]
  cases whole with
  | nil => exact absurd rfl hsome
  | cons first whole => exact ⟨whole, last, piece, late, rfl, rfl⟩

/-- Two bytes decide on the number, so that a front has it already. -/
theorem Numbered.of_append {bytes more : List UInt8} {number : Nat}
    (hnumbered : Numbered (bytes ++ more) number) (hlong : 2 ≤ bytes.length) :
    Numbered bytes number := by
  match bytes, hlong with
  | high :: low :: rest, _ =>
    cases hnumbered with
    | pair hhigh hlow => exact .pair hhigh hlow rest

theorem Malformed.append {piece : List Char} (hmalformed : Malformed piece) (more : List Char) :
    Malformed (piece ++ more) := by
  obtain ⟨hlong, hnone⟩ := hmalformed
  rw [Malformed, Utf8.encode_append, List.length_append]
  refine ⟨Nat.le_add_right_of_le hlong, fun number hnumbered => ?_⟩
  exact hnone number (hnumbered.of_append (Nat.le_of_succ_le hlong))

/-- A piece that does not carry a field has no say on it. -/
theorem Leaves.of_concat {f : Field} {before after : Value} {whole : List (List Char)}
    {last : List Char} (hleaves : Leaves f before (whole ++ [last]) after)
    (hother : ¬ Carries f last) :
    Leaves f before whole after := by
  cases hleaves with
  | kept hnone => exact .kept fun piece hpiece => hnone piece (List.mem_append_left _ hpiece)
  | @last early late piece value hpieces hcarries hlast hvalue =>
    obtain rfl | ⟨late, other, rfl⟩ := late.eq_nil_or_concat'
    · obtain ⟨-, hsame⟩ := List.append_inj' hpieces rfl
      exact absurd ((List.cons.inj hsame).1 ▸ hcarries) hother
    · rw [← List.cons_append, ← List.append_assoc] at hpieces
      obtain ⟨hwhole, -⟩ := List.append_inj' hpieces rfl
      refine .last hwhole hcarries (fun other hother => ?_) hvalue
      exact hlast other (List.mem_append_left _ hother)

/-- A beacon that is cut off behind some equals sign is read with the same port, and the cut
    touches no field but the one that ends there. -/
theorem readBeacon_of_prefix {text cut : String} {port : UInt32} {record : Record}
    {front rest : List Char} (hread : readBeacon text = .ok (port, record))
    (hcut : cut.toList <+: text.toList) (hmarker : cut.toList = front ++ marker.toList ++ rest)
    (hequals : '=' ∈ rest) :
    ∃ shorter whole last, readBeacon cut = .ok (port, shorter) ∧
      Severed text.toList cut.toList whole last ∧
      ∀ f, ¬ Carries f last → Leaves f f.blank whole (shorter.get f) := by
  obtain ⟨before, payload, hmarked⟩ := exists_marked ⟨front, rest, hmarker.symm⟩
  have hpayload := hmarked.mem_payload hmarker hequals
  obtain ⟨more, htext⟩ := hcut
  have hwhole := hmarked.append more
  rw [htext] at hwhole
  obtain ⟨whole, last, piece, late, hfields, hall⟩ := exists_fieldsOf_append hpayload more
  have hsevered : Severed text.toList cut.toList whole last :=
    ⟨⟨before, _, _, late, hwhole, hall, List.prefix_append ..⟩, ⟨before, payload, hmarked, hfields⟩⟩
  have hmeans := means_readBeacon text
  rw [hread] at hmeans
  cases hmeans with
  | decoded hmarked' hequals' hfine hvalues =>
    obtain ⟨rfl, rfl⟩ := hwhole.unique hmarked'
    -- No piece of the front is malformed: the last one would make a piece of the whole text so.
    have hfront : ∀ piece ∈ fieldsOf payload, ¬ Malformed piece := by
      rw [hfields]
      rw [hall] at hfine
      refine List.forall_mem_append.mpr ⟨fun piece hpiece => ?_, List.forall_mem_singleton.mpr ?_⟩
      · exact hfine piece (List.mem_append_left _ hpiece)
      · intro hmalformed
        exact hfine _ (List.mem_append_cons_self) (hmalformed.append piece)
    obtain ⟨early, piece, late, hpieces, -, hpiece, -⟩ | ⟨-, shorter, htake, hleaves⟩ :=
      takeFields_spec {} (fieldsOf payload)
    · exact absurd hpiece (hfront piece (hpieces ▸ List.mem_append_cons_self))
    · refine ⟨shorter.withDurations, whole, last, ?_, hsevered, fun f hother => ?_⟩
      · rw [readBeacon_of_marked hmarked hpayload, htake]
        rfl
      · rw [Record.get_withDurations, Field.blank, ← Record.get_empty]
        exact (hfields ▸ hleaves f).of_concat hother

/-- The cut goes through the number of a field that was there before. -/
theorem readBeacon_cut_in_number :
    "Port=7 <UI C>:=00:né=0A:22=0".toList <+: "Port=7 <UI C>:=00:né=0A:22=0A:1F".toList ∧
      ∃ shorter whole last, readBeacon "Port=7 <UI C>:=00:né=0A:22=0" = .ok (7, shorter) ∧
        Severed "Port=7 <UI C>:=00:né=0A:22=0A:1F".toList
          "Port=7 <UI C>:=00:né=0A:22=0".toList whole last ∧
        ∀ f, ¬ Carries f last → Leaves f f.blank whole (shorter.get f) := by
  have hcut : "Port=7 <UI C>:=00:né=0A:22=0".toList <+: "Port=7 <UI C>:=00:né=0A:22=0A:1F".toList :=
    ⟨"A:1F".toList, rfl⟩
  have hread : readBeacon "Port=7 <UI C>:=00:né=0A:22=0A:1F" = .ok (7,
      { firmwareVersion := "né", transmitPackets := 0x1F, uptime := "0s", pttOnTime := "0s",
        dcdOnTime := "0s" }) := rfl
  have hmarker : "Port=7 <UI C>:=00:né=0A:22=0".toList =
      "Port=7".toList ++ marker.toList ++ "=00:né=0A:22=0".toList := rfl
  exact ⟨hcut, readBeacon_of_prefix hread hcut hmarker (.head _)⟩

end PacketMonitor.Telemetry

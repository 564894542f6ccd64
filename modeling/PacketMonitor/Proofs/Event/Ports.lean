import PacketMonitor.Event
import PacketMonitor.Proofs.LogLine
import PacketMonitor.Proofs.Telemetry.Beacon
import PacketMonitor.Proofs.Telemetry.Meaning

namespace PacketMonitor

open PacketMonitor.Text

namespace LogLine

theorem IsClock.not_mem {text : List Char} (hclock : IsClock text) {c : Char}
    (hdigit : c.isDigit = false) (hcolon : c ≠ ':') : c ∉ text := by
  obtain ⟨hdigits⟩ := hclock
  intro hmem
  have hone : ∀ digit, digit.isDigit = true → c ≠ digit := by
    rintro digit htrue rfl
    rw [htrue] at hdigit
    cases hdigit
  simp only [List.forall_mem_cons] at hdigits
  obtain ⟨ha, hb, hc, hd, he, hf, -⟩ := hdigits
  simp [hone _ ha, hone _ hb, hone _ hc, hone _ hd, hone _ he, hone _ hf, hcolon] at hmem

namespace Spelling

/-- The number written as the port, which may be of any size. -/
def number (parts : Spelling) : Nat := Nat.ofDigitChars 10 parts.digits 0

/-- What is written in front of the message but for the space between them. -/
def heading (parts : Spelling) : List Char :=
  parts.timestamp ++ parts.direction.letter :: ' ' :: (parts.route ++ [' ']) ++ "Port=".toList ++
    parts.digits

theorem toList_text_eq_heading_append (parts : Spelling) :
    parts.text.toList = parts.heading ++ ' ' :: parts.message := by
  rw [text, String.toList_ofList, heading]
  simp

theorem lt_not_mem_heading (parts : Spelling) : '<' ∉ parts.heading := by
  have htimestamp : '<' ∉ parts.timestamp := parts.timestamp_isClock.not_mem rfl (by decide)
  have hletter : '<' ≠ parts.direction.letter := by
    cases parts.direction <;> decide
  have hsender : '<' ∉ parts.sender := parts.sender_isStation.not_mem rfl
  have hreceiver : '<' ∉ parts.receiver := parts.receiver_isStation.not_mem rfl
  have hdigits : '<' ∉ parts.digits := parts.digits_isNumber.not_mem rfl
  simp [heading, route, htimestamp, hletter, hsender, hreceiver, hdigits]

/-- The marker of a beacon stands first right behind the port if the message begins with it. -/
theorem marked_of_message {parts : Spelling} {payload : List Char}
    (hmessage : parts.message = "<UI C>:".toList ++ payload) :
    Telemetry.Marked parts.text.toList parts.heading payload := by
  have htext : parts.text.toList = parts.heading ++ Telemetry.marker.toList ++ payload := by
    rw [toList_text_eq_heading_append, hmessage, List.append_assoc]
    rfl
  have hheading : ¬ Telemetry.marker.toList <:+: parts.heading := fun hoccurs =>
    parts.lt_not_mem_heading (hoccurs.subset (by decide))
  rw [htext]
  exact Telemetry.marked_iff.mp (splitFirst?_append (by decide) hheading payload)

theorem portOf_heading (parts : Spelling) :
    Telemetry.portOf parts.heading =
      if parts.number < UInt32.size then UInt32.ofNat parts.number else 1 := by
  have hdigits : ∀ c ∈ parts.digits, isDigitOf 10 c = true := fun c hc =>
    (isDigitOf_ten c).trans (parts.digits_isNumber.chars c hc)
  rw [heading, Telemetry.portOf_append_digits _ hdigits,
    numeralBelow?_of_digits parts.digits_isNumber.ne_nil hdigits,
    digitsValue_eq_ofDigitChars parts.digits_isNumber.chars, ← number]
  split <;> rfl

theorem toNat_port (parts : Spelling) :
    parts.line.port.toNat = min parts.number (UInt32.size - 1) :=
  UInt32.toNat_ofNat_of_lt' (Nat.lt_of_le_of_lt (Nat.min_le_right ..) (by decide))

end Spelling

end LogLine

namespace Event

/-- A logged packet is told whatever its payload is, behind the readings of a beacon if there
    are any. If they follow the port right away, both have the port that is written, unless
    that number is too large for a port: then the packet has the largest one, and the readings
    have the default one. -/
theorem ofFrame_of_parse? (color : RouteColor) {text : String} {line : LogLine}
    (hline : LogLine.parse? text = some line) :
    ∃ parts : LogLine.Spelling, parts.text = text ∧ parts.line = line ∧
      (∀ port record, Telemetry.readBeacon text = .ok (port, record) →
        ofFrame color text = [.telemetry port record, .log line (color line.route)] ∧
          ("<UI C>:".toList <+: line.message.toList →
            (parts.number < UInt32.size →
              port.toNat = parts.number ∧ line.port.toNat = parts.number) ∧
            (UInt32.size ≤ parts.number → port = 1 ∧ line.port.toNat = UInt32.size - 1))) ∧
      ∀ e, Telemetry.readBeacon text = .error e →
        ofFrame color text = [.log line (color line.route)] := by
  obtain ⟨parts, rfl, rfl⟩ := LogLine.Spelling.exists_of_parse? hline
  refine ⟨parts, rfl, rfl, fun port record hread => ⟨?_, fun hstarts => ?_⟩, fun e hread => ?_⟩
  · rw [ofFrame, ofBeacon?, hread, ofLine, hline]
    rfl
  · obtain ⟨payload, hmessage⟩ := hstarts
    have hmarked : Telemetry.Marked parts.text.toList parts.heading payload :=
      LogLine.Spelling.marked_of_message
        (hmessage.trans (String.toList_ofList (l := parts.message))).symm
    rw [hmarked.port_eq hread, parts.portOf_heading, parts.toNat_port]
    refine ⟨fun hfits => ?_, fun hlarge => ?_⟩
    · rw [if_pos hfits, UInt32.toNat_ofNat_of_lt' hfits]
      exact ⟨rfl, Nat.min_eq_left (Nat.le_pred_of_lt hfits)⟩
    · rw [if_neg (Nat.not_lt.mpr hlarge)]
      exact ⟨rfl, Nat.min_eq_right (Nat.le_trans (Nat.sub_le _ 1) hlarge)⟩
  · rw [ofFrame, ofBeacon?, hread, ofLine, hline]
    rfl

/-- The payload names another port behind another marker. -/
theorem ofFrame_port_too_large :
    ofFrame (fun _ => "red") "16:34:33R TNC>USB Port=4294967296 <UI C>:=00:2.76 <UI C>: Port=9" =
      [.telemetry 1
          { firmwareVersion := "2.76 <UI C>: Port", uptime := "0s", pttOnTime := "0s",
            dcdOnTime := "0s" },
        .log ⟨"16:34:33", .received, "TNC>USB", 4294967295, "<UI C>:=00:2.76 <UI C>: Port=9"⟩
          "red"] := by
  have hline : LogLine.parse? "16:34:33R TNC>USB Port=4294967296 <UI C>:=00:2.76 <UI C>: Port=9" =
      some ⟨"16:34:33", .received, "TNC>USB", 4294967295, "<UI C>:=00:2.76 <UI C>: Port=9"⟩ := rfl
  have hread : Telemetry.readBeacon
      "16:34:33R TNC>USB Port=4294967296 <UI C>:=00:2.76 <UI C>: Port=9" = .ok (1,
        { firmwareVersion := "2.76 <UI C>: Port", uptime := "0s", pttOnTime := "0s",
          dcdOnTime := "0s" }) := rfl
  obtain ⟨parts, -, -, hbeacon, -⟩ := ofFrame_of_parse? (fun _ => "red") hline
  exact (hbeacon _ _ hread).1

end Event

end PacketMonitor

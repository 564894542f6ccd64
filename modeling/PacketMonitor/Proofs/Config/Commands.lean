import PacketMonitor.Proofs.Config.Problem
import PacketMonitor.Proofs.Session.Conversation

namespace PacketMonitor

open Text

namespace Session

/-- The handshake that these settings ask for. -/
def Settings.login (settings : Settings) (writer : Writer) (start : Nat) : Login where
  callsign := settings.callsign
  ports := settings.ports
  settle := settings.settle.toMillis
  step := settings.step.toMillis
  writer
  start

/-- What the node is to understand: each message of the handshake as one command. -/
def Settings.commands (settings : Settings) : List (List Char) :=
  [settings.callsign.toList, "p".toList, "BPQTERMTCP".toList, (monitorCommand settings.ports).toList]

/-- The command lines that the node finds in some bytes. What is not ended yet comes last. -/
def commandsIn (bytes : List UInt8) : List (List UInt8) :=
  pieces (· == 13) bytes

theorem cr_ascii : '\r'.toNat < 0x80 := by decide

theorem commandLine_eq (command : String) :
    commandLine command = Utf8.encode command.toList ++ [13] := by
  rw [commandLine, Utf8.encode_append, Utf8.encode_cons_of_ascii cr_ascii]
  rfl

/-- A command line stands for as many commands as its text has when it is cut at every
    carriage return. -/
theorem commandsIn_commandLine_append (command : String) (rest : List UInt8) :
    commandsIn (commandLine command ++ rest) =
      (pieces (· == '\r') command.toList).map Utf8.encode ++ commandsIn rest := by
  have hcut : pieces (· == 13) (Utf8.encode command.toList) =
      (pieces (· == '\r') command.toList).map Utf8.encode := Utf8.pieces_encode cr_ascii command.toList
  rw [commandLine_eq, List.append_assoc, List.singleton_append, commandsIn, pieces_at, hcut]
  rfl

theorem count_commandLine (command : String) :
    (commandLine command).count 13 = command.toList.count '\r' + 1 := by
  have hcount : (Utf8.encode command.toList).count 13 = command.toList.count '\r' :=
    Utf8.count_encode cr_ascii command.toList
  rw [commandLine_eq, List.count_append, hcount, List.count_singleton_self]

theorem cr_not_mem_monitorCommand (ports : UInt32) : '\r' ∉ (monitorCommand ports).toList :=
  not_mem_monitorCommand (by decide) (by decide) (by decide) ports

namespace Settings

variable (settings : Settings)

/-- The node finds the other commands as they are, but cuts the callsign at every carriage
    return in it. -/
theorem commandsIn_loginBytes :
    commandsIn settings.loginBytes =
      (pieces (· == '\r') settings.callsign.toList ++ settings.commands.tail).map Utf8.encode ++ [[]] := by
  have hbytes : settings.loginBytes = commandLine settings.callsign ++ (commandLine "p" ++
      (commandLine "BPQTERMTCP" ++ (commandLine (monitorCommand settings.ports) ++ []))) := by
    simp only [loginBytes, List.append_assoc, List.append_nil]
  have hswitch : '\r' ∉ "p".toList := by decide
  have hterminal : '\r' ∉ "BPQTERMTCP".toList := by decide
  simp only [hbytes, commandsIn_commandLine_append, pieces_of_not_mem hswitch,
    pieces_of_not_mem hterminal, pieces_of_not_mem (cr_not_mem_monitorCommand settings.ports)]
  simp [commands, commandsIn]

/-- There are as many carriage returns more than commands as there are in the callsign. -/
theorem count_loginBytes : settings.loginBytes.count 13 = 4 + settings.callsign.toList.count '\r' := by
  have hcommand := List.count_eq_zero.mpr (cr_not_mem_monitorCommand settings.ports)
  have hswitch : "p".toList.count '\r' = 0 := by decide
  have hterminal : "BPQTERMTCP".toList.count '\r' = 0 := by decide
  simp only [loginBytes, List.count_append, count_commandLine, hcommand, hswitch, hterminal]
  omega

/-- A handshake sends the first bytes of its messages, and all of them if it succeeds. -/
theorem flatMap_sent_login (writer : Writer) (start cancelAt : Nat) :
    let outcome := (settings.login writer start).run cancelAt
    outcome.sent.flatMap (·.bytes) <+: settings.loginBytes ∧
      (outcome.error = none → outcome.sent.flatMap (·.bytes) = settings.loginBytes) := by
  intro outcome
  obtain ⟨count, hends, hsent⟩ := (settings.login writer start).ends_run cancelAt
  have hplanned : (settings.login writer start).planned.flatMap (·.bytes) = settings.loginBytes := by
    simp [Login.planned, Login.texts, login, loginBytes]
  have houtcome : outcome.sent = (settings.login writer start).planned.take count := hsent
  rw [houtcome, ← hplanned]
  constructor
  · exact (List.take_prefix ..).flatMap _
  · intro hnone
    obtain ⟨rfl, -⟩ := hends.error_eq_none_iff.mp hnone
    rfl

end Settings

end Session

theorem infix_of_callsignOfLine? {line callsign : List Char}
    (hline : callsignOfLine? line = some callsign) : callsign <:+: line := by
  simp only [callsignOfLine?] at hline
  split at hline
  · split at hline
    · cases hline
    · obtain rfl := Option.some.inj hline
      exact ((isInfix_trim _).trans (List.drop_suffix ..).isInfix).trans (isInfix_trim line)
  · cases hline

/-- A carriage return within a callsign that is found is one that does not end a line. -/
theorem exists_of_cr_mem_callsignOf? {text : List Char} {callsign : String}
    (hfound : callsignOf? text = some callsign) (hreturn : '\r' ∈ callsign.toList) :
    ∃ c, c ≠ '\n' ∧ ['\r', c] <:+: text := by
  obtain ⟨chars, hchars, rfl⟩ := Option.map_eq_some_iff.mp hfound
  obtain ⟨line, hline, hread⟩ := List.exists_of_findSome?_eq_some hchars
  rw [String.toList_ofList] at hreturn
  obtain ⟨hwithin, hfeed⟩ := infix_of_mem_lines hline
  have hpart := infix_of_callsignOfLine? hread
  obtain ⟨early, late, rfl⟩ := List.append_of_mem hreturn
  cases late with
  | nil =>
    -- The callsign is trimmed, so there is something behind the carriage return.
    obtain ⟨-, htrim⟩ := trimmed_of_callsignOfLine? hread
    have hlast : (trim (early ++ ['\r'])).getLast? = some '\r' := by rw [htrim, List.getLast?_concat]
    exact absurd (isBlank_getLast?_trim hlast) (by decide)
  | cons c late =>
    refine ⟨c, ?_, ?_⟩
    · rintro rfl
      exact hfeed (hpart.subset (by simp))
    · have hpair : ['\r', c] <:+: early ++ '\r' :: c :: late := ⟨early, late, by simp⟩
      exact (hpair.trans hpart).trans hwithin

namespace Config

/-- A configuration without a problem logs in with one command line for each of the four messages,
    as long as there is no carriage return in its callsign. Trimming takes such away at the ends
    only, and each one that is left begins another command. The callsign in the node's settings has
    one if it stands within a line. -/
theorem commands_of_no_problem (c : Config) (hnone : c.problem? = none) :
    ∃ settings, c.sessionSettings = .ok settings ∧ c.node.callsign.map trimmed = some settings.callsign ∧
      (∀ writer start cancelAt,
        let outcome := (settings.login writer start).run cancelAt
        outcome.sent.flatMap (·.bytes) <+: settings.loginBytes ∧
          (outcome.error = none → outcome.sent.flatMap (·.bytes) = settings.loginBytes)) ∧
      (settings.loginBytes.count 13 = 4 ↔ '\r' ∉ settings.callsign.toList) ∧
      ('\r' ∉ settings.callsign.toList →
        Session.commandsIn settings.loginBytes = settings.commands.map Utf8.encode ++ [[]]) ∧
      settings.loginBytes.count 13 = 4 + settings.callsign.toList.count '\r' ∧
      Session.commandsIn settings.loginBytes =
        (pieces (· == '\r') settings.callsign.toList ++ settings.commands.tail).map Utf8.encode ++ [[]] ∧
      settings.callsign.toList.head? ≠ some '\r' ∧ settings.callsign.toList.getLast? ≠ some '\r' ∧
      ∀ text, callsignOf? text = c.node.callsign → '\r' ∈ settings.callsign.toList →
        ∃ c, c ≠ '\n' ∧ ['\r', c] <:+: text := by
  obtain ⟨callsign, hlogin⟩ := (sound_of_problem?_eq_none hnone).login
  obtain ⟨settings, hsettings⟩ := exists_sessionSettings hlogin
  obtain ⟨hlogin', -⟩ := of_sessionSettings hsettings
  obtain ⟨hcallsign, -⟩ := Option.filter_eq_some_iff.mp hlogin'
  obtain ⟨given, hgiven, htrimmed⟩ := Option.map_eq_some_iff.mp hcallsign
  have hchars : trim given.toList = settings.callsign.toList := by
    rw [← htrimmed, trimmed, String.toList_ofList]
  have hcount := settings.count_loginBytes
  have hcommands := settings.commandsIn_loginBytes
  have hreturn : isBlank '\r' = true := by decide
  refine ⟨settings, hsettings, hcallsign, settings.flatMap_sent_login, ?_, fun hlacks => ?_, hcount,
    hcommands, fun hfirst => ?_, fun hlast => ?_, fun text hfound hmem => ?_⟩
  · rw [hcount, Nat.add_eq_left, List.count_eq_zero]
  · rw [hcommands, pieces_of_not_mem hlacks]
    rfl
  · rw [← hchars] at hfirst
    exact absurd (isBlank_head?_trim hfirst) (by simp [hreturn])
  · rw [← hchars] at hlast
    exact absurd (isBlank_getLast?_trim hlast) (by simp [hreturn])
  · rw [hgiven] at hfound
    apply exists_of_cr_mem_callsignOf? hfound
    rw [← (trimmed_of_callsignOf? hfound).2, htrimmed]
    exact hmem

/-- Carriage returns around a callsign are not sent. -/
theorem commands_of_trimmed_callsign :
    let c : Config := { node := { callsign := some "\r G4ABC\r\n", ports := 4 } }
    c.problem? = none ∧ ∃ settings, c.sessionSettings = .ok settings ∧
      Session.commandsIn settings.loginBytes = ["G4ABC".toList, "p".toList, "BPQTERMTCP".toList,
        "\\\\\\\\f 1 1 1 0 0 0 1".toList, []].map Utf8.encode := by
  intro c
  have hnone : c.problem? = none := by decide +kernel
  obtain ⟨settings, hsettings, -, -, -, hcommands, -⟩ := commands_of_no_problem c hnone
  have hsame : settings = _ := Except.ok.inj (hsettings.symm.trans (rfl : c.sessionSettings = .ok _))
  subst hsame
  exact ⟨hnone, _, hsettings, (hcommands (by decide +kernel)).trans (by decide +kernel)⟩

/-- A carriage return within a callsign is sent as it is, and what follows it is a command of its
    own. Such a callsign may also come from the node's settings. -/
theorem fifth_command_in_callsign :
    let text := "local-op-callsign:G4ABC\rBYE\n".toList
    let c : Config := { node := { callsign := callsignOf? text, ports := 4 } }
    c.problem? = none ∧ ∃ settings, c.sessionSettings = .ok settings ∧
      let outcome := (settings.login {} 0).run 10000
      outcome.error = none ∧ (outcome.sent.flatMap (·.bytes)).count 13 = 5 ∧
        Session.commandsIn (outcome.sent.flatMap (·.bytes)) = ["G4ABC".toList, "BYE".toList,
          "p".toList, "BPQTERMTCP".toList, "\\\\\\\\f 1 1 1 0 0 0 1".toList, []].map Utf8.encode := by
  intro text c
  have hnone : c.problem? = none := by decide +kernel
  refine ⟨hnone, _, rfl, ?_⟩
  decide +kernel

end Config

end PacketMonitor

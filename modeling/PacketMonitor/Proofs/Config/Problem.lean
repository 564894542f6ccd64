import PacketMonitor.Config.Problem
import PacketMonitor.Identity
import PacketMonitor.Proofs.Session.Keepalive
import PacketMonitor.Proofs.Session.Login
import PacketMonitor.Proofs.Session.Reconnection
import PacketMonitor.Proofs.Text.Blank

namespace PacketMonitor

open Text

theorem Session.Interval.toMillis_ofSeconds (seconds : UInt64) :
    (Interval.ofSeconds seconds).toMillis = seconds.toNat * 1000 := by
  simp only [Interval.ofSeconds, Duration.toMillis]
  omega

theorem Session.Interval.toMillis_ofMillis (millis : UInt64) :
    (Interval.ofMillis millis).toMillis = millis.toNat := by
  simp only [Interval.ofMillis, Duration.toMillis]
  omega

/-- Sessions can be run with these settings: there is a callsign to log in with, the monitor
    command selects exactly the ports, a keepalive is sent, and attempts to connect lie apart. -/
structure Session.Settings.Runnable (settings : Session.Settings) : Prop where
  callsign : settings.callsign ≠ "" ∧ trimmed settings.callsign = settings.callsign
  ports : 1 ≤ settings.ports.toNat ∧ settings.ports.toNat ≤ Session.maxPorts
  mask : ∃ digits n,
    Session.monitorCommand settings.ports =
        "\\\\\\\\" ++ String.ofList digits ++ " 1 1 1 0 0 0 1" ∧
      SpellsHex digits n ∧ ∀ bit, n.testBit bit = decide (bit < settings.ports.toNat)
  alive : ∀ (w : Session.Writer) (now stopAt : Nat), (∀ refusal, w.failure ≠ some (0, refusal)) →
    now + settings.keepalive.toMillis < stopAt →
      ∃ sent ∈ (Session.keepalive settings.keepalive.toMillis stopAt w now).sent,
        sent.begun = now + settings.keepalive.toMillis
  retries : ∀ world : Session.World,
    (Session.supervise settings world).tries.IsChain fun attempt next =>
      ∀ message, (world.answer attempt.1).result = .error message →
        let refused := attempt.2 + (world.answer attempt.1).delay
        refused < next.2 ∧ next.2 ≤ refused + settings.maxBackoff.toMillis

theorem trimmed_of_callsignOfLine? {line callsign : List Char}
    (hline : callsignOfLine? line = some callsign) : callsign ≠ [] ∧ trim callsign = callsign := by
  simp only [callsignOfLine?] at hline
  split at hline
  · split at hline
    · cases hline
    · rename_i hsome
      obtain rfl := Option.some.inj hline
      exact ⟨by simpa using hsome, trim_trim _⟩
  · cases hline

/-- A callsign that is found has no blanks around it and is not empty. -/
theorem trimmed_of_callsignOf? {settings : List Char} {callsign : String}
    (hfound : callsignOf? settings = some callsign) : callsign ≠ "" ∧ trimmed callsign = callsign := by
  obtain ⟨chars, hchars, rfl⟩ := Option.map_eq_some_iff.mp hfound
  obtain ⟨line, -, hline⟩ := List.exists_of_findSome?_eq_some hchars
  obtain ⟨hsome, htrim⟩ := trimmed_of_callsignOfLine? hline
  refine ⟨fun hempty => hsome ?_, ?_⟩
  · rw [← String.toList_ofList (l := chars), hempty]
    rfl
  · rw [trimmed, String.toList_ofList, htrim]

namespace Config

/-- What is right with a configuration that has no problem. -/
structure Sound (c : Config) : Prop where
  ports : 1 ≤ c.node.ports.toNat ∧ c.node.ports.toNat ≤ PacketMonitor.Session.maxPorts
  login : ∃ callsign, c.login? = some callsign
  initialBackoff : 1 ≤ c.session.initialBackoffMs.toNat
  maxBackoff : 1 ≤ c.session.maxBackoffSecs.toNat
  keepalive : 1 ≤ c.session.keepaliveSecs.toNat

theorem sound_of_problem?_eq_none {c : Config} (hnone : c.problem? = none) : c.Sound := by
  have hpositive : ∀ {n : UInt64}, n ≠ 0 → 1 ≤ n.toNat := fun hn =>
    Nat.one_le_iff_ne_zero.mpr fun hzero => hn (UInt64.toNat_inj.mp hzero)
  unfold problem? at hnone
  split at hnone
  · cases hnone
  split at hnone
  · cases hnone
  rename_i hports
  split at hnone
  · cases hnone
  rename_i hlogin
  split at hnone
  · cases hnone
  rename_i hinitial
  split at hnone
  · cases hnone
  rename_i hmax
  split at hnone
  · cases hnone
  rename_i hkeepalive
  refine ⟨by omega, Option.ne_none_iff_exists'.mp fun h => hlogin (h ▸ rfl), hpositive hinitial,
    hpositive hmax, hpositive hkeepalive⟩

theorem login?_of_callsign {c : Config} {callsign : String} (hcallsign : c.node.callsign = some callsign)
    (hsome : callsign ≠ "") (htrimmed : trimmed callsign = callsign) : c.login? = some callsign := by
  rw [login?, hcallsign, Option.map_some, htrimmed]
  exact Option.filter_eq_some_iff.mpr ⟨rfl, by simpa using hsome⟩

theorem trimmed_of_login? {c : Config} {callsign : String} (hlogin : c.login? = some callsign) :
    callsign ≠ "" ∧ trimmed callsign = callsign := by
  obtain ⟨hcallsign, hsome⟩ := Option.filter_eq_some_iff.mp hlogin
  obtain ⟨given, -, rfl⟩ := Option.map_eq_some_iff.mp hcallsign
  exact ⟨by simpa using hsome, trimmed_trimmed given⟩

theorem exists_sessionSettings {c : Config} {callsign : String} (hlogin : c.login? = some callsign) :
    ∃ settings, c.sessionSettings = .ok settings := by
  rw [sessionSettings, hlogin]
  exact ⟨_, rfl⟩

/-- Settings of sessions come from a configuration with a callsign, and keep its times. -/
theorem of_sessionSettings {c : Config} {settings : PacketMonitor.Session.Settings}
    (hsettings : c.sessionSettings = .ok settings) :
    c.login? = some settings.callsign ∧ settings.ports = c.node.ports ∧
      settings.initialBackoff.toMillis = c.session.initialBackoffMs.toNat ∧
      settings.maxBackoff.toMillis = c.session.maxBackoffSecs.toNat * 1000 ∧
      settings.keepalive.toMillis = c.session.keepaliveSecs.toNat * 1000 := by
  rw [sessionSettings] at hsettings
  split at hsettings
  · cases hsettings
  · rename_i hlogin
    cases hsettings
    exact ⟨hlogin, rfl, Session.Interval.toMillis_ofMillis _, Session.Interval.toMillis_ofSeconds _,
      Session.Interval.toMillis_ofSeconds _⟩

/-- Sessions can be run with the settings that a sound configuration gives. -/
theorem Sound.runnable {c : Config} {settings : PacketMonitor.Session.Settings} (hsound : c.Sound)
    (hsettings : c.sessionSettings = .ok settings) : settings.Runnable := by
  obtain ⟨hlogin, hports, hinitial, hmax, hkeepalive⟩ := of_sessionSettings hsettings
  obtain ⟨hfirst, hlast⟩ := hports ▸ hsound.ports
  refine ⟨trimmed_of_login? hlogin, ⟨hfirst, hlast⟩, ?_, ?_, ?_⟩
  · have hfew : settings.ports.toNat ≤ 64 := Nat.le_succ_of_le hlast
    refine ⟨hexadecimal (Session.portMask settings.ports).toNat,
      (Session.portMask settings.ports).toNat, rfl, SpellsHex.hexadecimal _, fun bit => ?_⟩
    rw [Session.toNat_portMask, Nat.min_eq_left hfew, Nat.testBit_two_pow_sub_one]
  · intro w now stopAt haccepted hlate
    have hperiod : 0 < settings.keepalive.toMillis :=
      hkeepalive ▸ Nat.mul_pos hsound.keepalive (by decide)
    obtain ⟨hsent, hbegun⟩ :=
      Session.Keepalive.message_zero_mem_run ⟨_, w, now, hperiod, 0⟩ hlate haccepted
    exact ⟨_, hsent, hbegun⟩
  · exact Session.retries_supervise (hinitial ▸ hsound.initialBackoff)
      (hmax ▸ Nat.mul_pos hsound.maxBackoff (by decide))

/-- A configuration without a problem gives settings that sessions can be run with. A callsign that
    is found in the node's settings is no problem, and sessions log in with just that one. -/
theorem sessions_of_no_problem :
    (∀ c : Config, c.problem? = none →
      ∃ settings, c.sessionSettings = .ok settings ∧ settings.ports = c.node.ports ∧
        settings.maxBackoff.toMillis = c.session.maxBackoffSecs.toNat * 1000 ∧ settings.Runnable) ∧
    ∀ text callsign, callsignOf? text = some callsign →
      ∀ c : Config, c.node.callsign = some callsign → c.problem? ≠ some .noCallsign ∧
        ∃ settings, c.sessionSettings = .ok settings ∧ settings.callsign = callsign := by
  refine ⟨fun c hnone => ?_, fun text callsign hfound c hcallsign => ?_⟩
  · have hsound := sound_of_problem?_eq_none hnone
    obtain ⟨callsign, hlogin⟩ := hsound.login
    obtain ⟨settings, hsettings⟩ := exists_sessionSettings hlogin
    obtain ⟨-, hports, -, hmax, -⟩ := of_sessionSettings hsettings
    exact ⟨settings, hsettings, hports, hmax, hsound.runnable hsettings⟩
  · obtain ⟨hsome, htrimmed⟩ := trimmed_of_callsignOf? hfound
    have hlogin := login?_of_callsign hcallsign hsome htrimmed
    obtain ⟨settings, hsettings⟩ := exists_sessionSettings hlogin
    obtain ⟨hlogin', -⟩ := of_sessionSettings hsettings
    refine ⟨?_, settings, hsettings, Option.some.inj (hlogin'.symm.trans hlogin)⟩
    simp only [problem?, hlogin, Option.isNone_some, Bool.false_eq_true, if_false]
    split_ifs <;> exact nofun

/-- Sessions can be run with the shortest times and the most ports, and a callsign is found below
    an empty one. -/
theorem sessions_of_shortest_times :
    let c : Config :=
      { node := { callsign := some " G4ABC ", ports := 63 }
        session := { initialBackoffMs := 1, maxBackoffSecs := 1, keepaliveSecs := 1 } }
    let text := "local-op-callsign:\r\n  local-op-callsign: M0XYZ \r\n".toList
    let found : Config := { node := { callsign := some "M0XYZ" } }
    c.problem? = none ∧ callsignOf? text = some "M0XYZ" ∧
      (∃ settings, c.sessionSettings = .ok settings ∧ settings.ports = 63 ∧ settings.Runnable) ∧
      ∃ settings, found.sessionSettings = .ok settings ∧ settings.callsign = "M0XYZ" := by
  intro c text found
  have hnone : c.problem? = none := by decide +kernel
  have hfound : callsignOf? text = some "M0XYZ" := by decide +kernel
  obtain ⟨hsound, hcallsign⟩ := sessions_of_no_problem
  obtain ⟨settings, hsettings, hports, -, hrunnable⟩ := hsound c hnone
  exact ⟨hnone, hfound, ⟨settings, hsettings, hports, hrunnable⟩,
    (hcallsign text "M0XYZ" hfound found rfl).2⟩

end Config

end PacketMonitor

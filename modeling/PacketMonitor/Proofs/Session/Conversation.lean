import PacketMonitor.Proofs.Session.Turns
import PacketMonitor.Proofs.Text.Numeral
import PacketMonitor.Proofs.Text.Utf8

namespace PacketMonitor.Session

open PacketMonitor.Stream PacketMonitor.Text

/-- All bytes of a handshake. -/
def Settings.loginBytes (settings : Settings) : List UInt8 :=
  commandLine settings.callsign ++ commandLine "p" ++ commandLine "BPQTERMTCP" ++
    commandLine (monitorCommand settings.ports)

theorem zero_not_mem_commandLine {command : String} (hcommand : '\x00' ∉ command.toList) :
    0 ∉ commandLine command := by
  intro hzero
  have hnul : '\x00' ∈ command.toList ++ ['\r'] := (Utf8.mem_encode_iff (by decide)).mp hzero
  obtain hmem | hmem := List.mem_append.mp hnul
  · exact hcommand hmem
  · exact absurd hmem (by decide)

/-- Apart from its fixed parts the monitor command has hexadecimal digits only. -/
theorem not_mem_monitorCommand {c : Char} (hdigit : isDigitOf 16 c = false)
    (hfront : c ∉ "\\\\\\\\".toList) (hback : c ∉ " 1 1 1 0 0 0 1".toList) (ports : UInt32) :
    c ∉ (monitorCommand ports).toList := by
  intro hmem
  simp only [monitorCommand, String.toList_append, String.toList_ofList, List.mem_append] at hmem
  obtain (hmem | hmem) | hmem := hmem
  · exact hfront hmem
  · have hdigits : c ∈ Nat.toDigits 16 (portMask ports).toNat := hmem
    rw [isDigitOf_of_mem_toDigits (by decide) (by decide) hdigits] at hdigit
    cases hdigit
  · exact hback hmem

/-- Only the callsign can bring a zero byte into the handshake. -/
theorem zero_not_mem_loginBytes {settings : Settings} (hcallsign : '\x00' ∉ settings.callsign.toList) :
    0 ∉ settings.loginBytes := by
  rw [Settings.loginBytes, List.mem_append, List.mem_append, List.mem_append, not_or, not_or, not_or]
  exact ⟨⟨⟨zero_not_mem_commandLine hcallsign, by decide⟩, by decide⟩,
    zero_not_mem_commandLine
      (not_mem_monitorCommand (by decide) (by decide) (by decide) settings.ports)⟩

namespace Connection

variable (settings : Settings) (cancelAt : Nat) (connection : Connection) (start : Nat)

/-- At some time the whole handshake has reached the node, and the pause after it is over. -/
structure Settled (time : Nat) : Prop where
  unrefused : (connection.login settings cancelAt start).error = none
  flushed : ∀ write ∈ connection.loginWrites settings cancelAt start, write.isFlushed = true
  bytes_eq : (connection.loginWrites settings cancelAt start).flatMap (·.bytes) = settings.loginBytes
  waited : ∀ write ∈ connection.loginWrites settings cancelAt start,
    write.ended + settings.settle.wait ≤ time

variable {settings cancelAt connection start}

theorem settled_login (hlogin : (connection.login settings cancelAt start).error = none) :
    Settled settings cancelAt connection start (connection.login settings cancelAt start).time := by
  obtain ⟨hbytes, hflushed⟩ := (performs_login ..).flushedBytes_starts.2 hlogin
  obtain ⟨first, hfirst, hwrites, htime, -⟩ := login_settles hlogin
  refine ⟨hlogin, hflushed, ?_, ?_⟩
  · rw [loginWrites, List.flatMap_def, hbytes]
    simp [messages, handshake, Settings.loginBytes]
  · intro write hwrite
    rw [loginWrites, hwrites] at hwrite
    obtain ⟨-, -, hended⟩ := hfirst.inTurn.bounds write hwrite
    rw [htime]
    exact Nat.add_le_add_right hended _

theorem Settled.mono {time later : Nat} (hsettled : Settled settings cancelAt connection start time)
    (hle : time ≤ later) : Settled settings cancelAt connection start later :=
  ⟨hsettled.unrefused, hsettled.flushed, hsettled.bytes_eq,
    fun write hwrite => Nat.le_trans (hsettled.waited write hwrite) hle⟩

theorem flushedBytes_loginWrites_prefix (settings : Settings) (cancelAt : Nat)
    (connection : Connection) (start : Nat) :
    flushedBytes (connection.loginWrites settings cancelAt start) <+: settings.loginBytes := by
  obtain ⟨hstarts, -⟩ := (performs_login settings cancelAt connection start).flushedBytes_starts
  have hmessages : (messages (handshake settings.callsign settings.ports settings.settle.toMillis
      settings.step.toMillis)).flatten = settings.loginBytes := by
    simp [messages, handshake, Settings.loginBytes]
  exact hmessages ▸ hstarts

end Connection

/-- The messages that keep a session alive. There are none unless its stream is read. -/
def World.keepalives (settings : Settings) (world : World) (connection : Connection) (start : Nat) :
    List Write :=
  if (connection.login settings world.cancelAt start).error = none ∧
      (settings.archive connection).unopened = none then
    connection.upkeepWrites settings world.cancelAt start
  else []

theorem sessionWrites_eq (settings : Settings) (world : World) (connection : Connection) (start : Nat) :
    world.sessionWrites settings connection start =
      connection.loginWrites settings world.cancelAt start ++
        world.keepalives settings connection start := rfl

/-- What is said on a connection: one message after the other as long as the session lasts,
    first the handshake and then, if that is complete and the pause after it is over, zero
    bytes until the stream is not read any more. The handshake itself has no zero byte,
    unless there is one in the callsign. -/
structure Conversation (settings : Settings) (world : World) (connection : Connection)
    (start : Nat) (flushed : List UInt8) : Prop where
  flushed_eq : flushed = flushedBytes (world.sessionWrites settings connection start)
  inTurn : InTurn start (world.sessionWrites settings connection start)
    (world.session settings connection start).time
  flushed_prefix : ∃ count, flushed <+: settings.loginBytes ++ List.replicate count 0
  keepalive : ∀ write ∈ world.keepalives settings connection start, write.bytes = [0] ∧
    connection.Settled settings world.cancelAt start write.begun ∧
    write.begun < (connection.reading settings world.cancelAt start).time
  zero : ∀ early late, flushed = early ++ 0 :: late →
    settings.loginBytes.length ≤ early.length ∨ '\x00' ∉ settings.callsign.toList →
      settings.loginBytes <+: early ∧
        ∃ write ∈ world.keepalives settings connection start, write.isFlushed = true

theorem inTurn_session (settings : Settings) (world : World) (connection : Connection) (start : Nat) :
    InTurn start (world.sessionWrites settings connection start)
      (world.session settings connection start).time := by
  have hlogin : InTurn start (connection.loginWrites settings world.cancelAt start)
      (connection.login settings world.cancelAt start).time :=
    (performs_login ..).inTurn
  have hran : Ran settings world.cancelAt connection start
    (world.session settings connection start) := ran ..
  rw [World.sessionWrites]
  generalize world.session settings connection start = session at hran
  cases hran with
  | refused herror => rwa [if_neg (by simp [herror]), List.append_nil]
  | unarchived _ harchive => rwa [if_neg (by simp [harchive]), List.append_nil]
  | streamed hdone harchive =>
    rw [if_pos ⟨hdone, harchive⟩]
    exact hlogin.append ((keeps_upkeep ..).inTurn.to_le (Nat.le_max_right ..))

theorem keepalives_spec (settings : Settings) (world : World) (connection : Connection) (start : Nat) :
    ∀ write ∈ world.keepalives settings connection start, write.bytes = [0] ∧
      connection.Settled settings world.cancelAt start write.begun ∧
      write.begun < (connection.reading settings world.cancelAt start).time := by
  rw [World.keepalives]
  split
  · rename_i hread
    intro write hwrite
    have hkeeps := keeps_upkeep settings world.cancelAt connection start
    obtain ⟨hbytes, hbegun⟩ := hkeeps.mem_writes write hwrite
    obtain ⟨hsettled, -⟩ := hkeeps.inTurn.bounds write hwrite
    exact ⟨hbytes, (Connection.settled_login hread.1).mono hsettled, hbegun⟩
  · exact List.forall_mem_nil _

theorem flushedBytes_of_zero {writes : List Write} (hzero : ∀ write ∈ writes, write.bytes = [0]) :
    flushedBytes writes = List.replicate (writes.countP (·.isFlushed)) 0 := by
  induction writes with
  | nil => rfl
  | cons write rest ih =>
    obtain ⟨hfirst, hrest⟩ := List.forall_mem_cons.mp hzero
    rw [← List.singleton_append, flushedBytes_append, ih hrest, List.countP_append]
    cases hflushed : write.isFlushed with
    | false => simp [flushedBytes, Write.sent?, hflushed]
    | true => simp [flushedBytes, Write.sent?, hflushed, hfirst, Nat.add_comm 1, List.replicate_succ]

theorem flushedBytes_sessionWrites (settings : Settings) (world : World) (connection : Connection)
    (start : Nat) :
    flushedBytes (world.sessionWrites settings connection start) =
      flushedBytes (connection.loginWrites settings world.cancelAt start) ++
        List.replicate ((world.keepalives settings connection start).countP (·.isFlushed)) 0 := by
  have hzero : ∀ write ∈ world.keepalives settings connection start, write.bytes = [0] := by
    intro write hwrite
    exact (keepalives_spec settings world connection start write hwrite).1
  rw [sessionWrites_eq, flushedBytes_append, flushedBytes_of_zero hzero]

/-- Nothing is written to keep a session alive before the whole handshake has reached the
    node. -/
theorem flushedBytes_loginWrites_of_mem_keepalives {settings : Settings} {world : World}
    {connection : Connection} {start : Nat} {write : Write}
    (hwrite : write ∈ world.keepalives settings connection start) :
    flushedBytes (connection.loginWrites settings world.cancelAt start) = settings.loginBytes := by
  obtain ⟨-, hsettled, -⟩ := keepalives_spec settings world connection start write hwrite
  rw [flushedBytes_of_flushed hsettled.flushed, hsettled.bytes_eq]

/-- Where a front of the handshake goes on with a zero byte, that is one of the callsign. -/
theorem not_starts_loginBytes {settings : Settings} {early late : List UInt8}
    (hbeyond : settings.loginBytes.length ≤ early.length ∨ '\x00' ∉ settings.callsign.toList) :
    ¬ early ++ 0 :: late <+: settings.loginBytes := by
  intro hstarts
  obtain hlength | hcallsign := hbeyond
  · have hle := hstarts.length_le
    simp only [List.length_append, List.length_cons] at hle
    omega
  · exact zero_not_mem_loginBytes hcallsign (hstarts.subset (by simp))

theorem conversation (settings : Settings) (world : World) (connection : Connection) (start : Nat) :
    Conversation settings world connection start
      (flushedBytes (world.sessionWrites settings connection start)) := by
  have hlogin := Connection.flushedBytes_loginWrites_prefix settings world.cancelAt connection start
  have hflushed := flushedBytes_sessionWrites settings world connection start
  refine ⟨rfl, inTurn_session settings world connection start, ?_,
    keepalives_spec settings world connection start, ?_⟩
  · refine ⟨(world.keepalives settings connection start).countP (·.isFlushed), ?_⟩
    rw [hflushed]
    cases hkept : world.keepalives settings connection start with
    | nil => simpa using hlogin
    | cons write rest =>
      rw [flushedBytes_loginWrites_of_mem_keepalives (hkept ▸ List.mem_cons_self ..)]
  · intro early late hsplit hbeyond
    rw [hflushed] at hsplit
    by_cases hany : ∃ write ∈ world.keepalives settings connection start, write.isFlushed = true
    · obtain ⟨write, hwrite, hsent⟩ := hany
      refine ⟨?_, write, hwrite, hsent⟩
      rw [flushedBytes_loginWrites_of_mem_keepalives hwrite] at hsplit
      obtain ⟨front, hearly, -⟩ | ⟨front, hlogin, hrest⟩ := List.append_eq_append_iff.mp hsplit
      · exact ⟨front, hearly.symm⟩
      · cases front with
        | nil => exact ⟨[], by rw [hlogin, List.append_nil, List.append_nil]⟩
        | cons b front =>
          obtain ⟨rfl, -⟩ := List.cons.inj hrest
          exact absurd ⟨[], by rw [hlogin, List.append_nil]⟩ (not_starts_loginBytes hbeyond)
    · have hnone : (world.keepalives settings connection start).countP (·.isFlushed) = 0 := by
        refine List.countP_eq_zero.mpr fun write hwrite hsent => hany ⟨write, hwrite, hsent⟩
      rw [hnone, List.replicate_zero, List.append_nil] at hsplit
      exact absurd (hsplit ▸ hlogin) (not_starts_loginBytes hbeyond)

end PacketMonitor.Session

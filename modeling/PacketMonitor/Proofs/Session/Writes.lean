import PacketMonitor.Proofs.Session.Stages

namespace PacketMonitor.Session

namespace Connection

variable (settings : Settings) (cancelAt : Nat) (connection : Connection) (start : Nat)

/-- The messages that are written during a handshake. -/
def loginWrites : List Write :=
  (connection.login settings cancelAt start).writes

/-- The messages that are written while the stream is read. -/
def upkeepWrites : List Write :=
  (connection.upkeep settings cancelAt start).writes

theorem sent_login : (connection.login settings cancelAt start).sent =
    (connection.loginWrites settings cancelAt start).filterMap Write.sent? := rfl

theorem sent_upkeep : (connection.upkeep settings cancelAt start).sent =
    (connection.upkeepWrites settings cancelAt start).filterMap Write.sent? := rfl

end Connection

/-- The messages that are written during a session: those of the handshake, and the
    keepalive if the stream is read. -/
def World.sessionWrites (settings : Settings) (world : World) (connection : Connection)
    (start : Nat) : List Write :=
  connection.loginWrites settings world.cancelAt start ++
    if (connection.login settings world.cancelAt start).error = none ∧
        (settings.archive connection).unopened = none then
      connection.upkeepWrites settings world.cancelAt start
    else []

/-- The message that a happening tells of, with the time of its flush. -/
def sent? : Nat × Happening → Option (Nat × List UInt8)
  | (time, .sent bytes) => some (time, bytes)
  | _ => none

theorem filterMap_sent?_flushes (sent : List Sent) :
    (flushes sent).filterMap sent? = sent.map fun message => (message.flushed, message.bytes) := by
  rw [flushes, List.filterMap_map]
  exact congrFun List.filterMap_eq_map sent

theorem filterMap_merge_of_none_left {α β : Type} {f : α → Option β} {le : α → α → Bool}
    {entries : List α} (others : List α) (hentries : ∀ entry ∈ entries, f entry = none) :
    (entries.merge others le).filterMap f = others.filterMap f := by
  fun_induction List.merge entries others le with
  | case1 others => rfl
  | case2 entries => exact List.filterMap_eq_nil_iff.mpr hentries
  | case3 entry entries other others hle ih =>
    rw [List.filterMap_cons, hentries entry (List.mem_cons_self ..)]
    exact ih fun later hlater => hentries later (List.mem_cons_of_mem _ hlater)
  | case4 entry entries other others hle ih =>
    rw [List.filterMap_cons, List.filterMap_cons, ih hentries]

/-- What reaches the node during a session are the messages that are written and
    flushed, in this order. -/
theorem Ran.filterMap_sent? {settings : Settings} {world : World} {connection : Connection}
    {start : Nat} {session : SessionOutcome}
    (hran : Ran settings world.cancelAt connection start session) :
    session.happenings.filterMap sent? =
      ((world.sessionWrites settings connection start).filterMap Write.sent?).map fun message =>
        (message.flushed, message.bytes) := by
  have hopening : ∀ sent : List Sent,
      ((start, Happening.status .handshaking) :: flushes sent).filterMap sent? =
        sent.map fun message => (message.flushed, message.bytes) := filterMap_sent?_flushes
  rw [World.sessionWrites]
  cases hran with
  | refused hlogin =>
    rw [if_neg (by simp [hlogin]), List.append_nil, hopening, Connection.sent_login]
  | unarchived hlogin harchive =>
    rw [if_neg (by simp [harchive]), List.append_nil, hopening, Connection.sent_login]
  | streamed hlogin harchive =>
    rw [if_pos ⟨hlogin, harchive⟩, List.filterMap_append, hopening, filterMap_merge_of_none_left,
      filterMap_sent?_flushes, List.filterMap_append, List.map_append, Connection.sent_login,
      Connection.sent_upkeep]
    intro entry hentry
    obtain ⟨⟨time, occurrence⟩, -, rfl⟩ := List.mem_map.mp hentry
    cases occurrence with
    | told signal => cases signal <;> rfl
    | consumed segment => rfl
    | ended => rfl

theorem exists_write_of_mem_flushes {writes : List Write} {entry : Nat × Happening}
    (hentry : entry ∈ flushes (writes.filterMap Write.sent?)) :
    ∃ write ∈ writes, entry = (write.ended, .sent write.bytes) := by
  obtain ⟨message, hmessage, rfl⟩ := List.mem_map.mp hentry
  obtain ⟨write, hwrite, hsent⟩ := List.mem_filterMap.mp hmessage
  rw [Write.sent?] at hsent
  split at hsent
  · cases hsent
    exact ⟨write, hwrite, rfl⟩
  · cases hsent

/-- Nothing else happens during a session than that its handshake begins, that a message
    is flushed, or that something is told of its stream. -/
theorem Ran.cases_of_mem {settings : Settings} {world : World} {connection : Connection}
    {start : Nat} {session : SessionOutcome}
    (hran : Ran settings world.cancelAt connection start session)
    {entry : Nat × Happening} (hentry : entry ∈ session.happenings) :
    entry = (start, .status .handshaking) ∨
      (∃ write ∈ world.sessionWrites settings connection start,
        entry = (write.ended, .sent write.bytes)) ∨
      ((connection.login settings world.cancelAt start).error = none ∧
        (connection.reading settings world.cancelAt start).time ≤ session.time ∧
        ∃ time occurrence,
          (time, occurrence) ∈ (connection.reading settings world.cancelAt start).occurrences ∧
            entry = (time, .ofOccurrence occurrence)) := by
  have hopening : entry ∈ (start, Happening.status .handshaking) ::
      flushes (connection.login settings world.cancelAt start).sent →
        entry = (start, .status .handshaking) ∨
          ∃ write ∈ world.sessionWrites settings connection start,
            entry = (write.ended, .sent write.bytes) := by
    rintro (_ | ⟨_, hflush⟩)
    · exact .inl rfl
    · rw [Connection.sent_login] at hflush
      obtain ⟨write, hwrite, heq⟩ := exists_write_of_mem_flushes hflush
      exact .inr ⟨write, List.mem_append_left _ hwrite, heq⟩
  cases hran with
  | refused | unarchived => exact (hopening hentry).imp_right .inl
  | streamed hlogin harchive =>
    obtain hentry | hentry := List.mem_append.mp hentry
    · exact (hopening hentry).imp_right .inl
    refine .inr ?_
    obtain hentry | hentry := List.mem_merge.mp hentry
    · obtain ⟨⟨time, occurrence⟩, hoccurrence, heq⟩ := List.mem_map.mp hentry
      exact .inr ⟨hlogin, Nat.le_max_left .., time, occurrence, hoccurrence, heq.symm⟩
    · rw [Connection.sent_upkeep] at hentry
      obtain ⟨write, hwrite, heq⟩ := exists_write_of_mem_flushes hentry
      refine .inl ⟨write, List.mem_append_right _ ?_, heq⟩
      rwa [if_pos ⟨hlogin, harchive⟩]

end PacketMonitor.Session

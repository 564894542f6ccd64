import PacketMonitor.Proofs.Session.Conversation
import PacketMonitor.Proofs.Session.Schedule

namespace PacketMonitor.Session

/-- What is told of one connection. -/
def Chronicle.on (number : Nat) (chronicle : Chronicle) : Chronicle :=
  chronicle.filter (·.connection == number)

/-- The bytes that reach the node on one connection. -/
def Chronicle.flushedOn (number : Nat) (chronicle : Chronicle) : List UInt8 :=
  ((chronicle.on number).pick sent?).flatMap (·.2)

theorem connection_of_mem_ofTimed {number : Nat} {happenings : List (Nat × Happening)} {entry : Entry}
    (hentry : entry ∈ Chronicle.ofTimed number happenings) : entry.connection = number := by
  obtain ⟨timed, -, rfl⟩ := List.mem_map.mp hentry
  rfl

theorem on_append (number : Nat) (early late : Chronicle) :
    Chronicle.on number (early ++ late) = early.on number ++ late.on number :=
  List.filter_append ..

theorem on_eq_self {number : Nat} {chronicle : Chronicle}
    (hsame : ∀ entry ∈ chronicle, entry.connection = number) : chronicle.on number = chronicle :=
  List.filter_eq_self.mpr fun entry hentry => beq_iff_eq.mpr (hsame entry hentry)

theorem on_eq_nil {number other : Nat} (hother : other ≠ number) {chronicle : Chronicle}
    (hsame : ∀ entry ∈ chronicle, entry.connection = other) : chronicle.on number = [] := by
  refine List.filter_eq_nil_iff.mpr fun entry hentry => ?_
  rw [beq_iff_eq, hsame entry hentry]
  exact hother

theorem tries_on (number : Nat) (chronicle : Chronicle) :
    (chronicle.on number).tries = chronicle.tries.filter (·.1 == number) := by
  rw [Chronicle.tries, Chronicle.tries, Chronicle.on, List.filterMap_filter, List.filter_filterMap]
  refine List.filterMap_congr fun entry _ => ?_
  obtain ⟨time, connection, happening⟩ := entry
  cases happening with
  | attempt => rfl
  | _ => exact ite_self _

/-- An attempt is the only one of its number. -/
theorem filter_eq_singleton {attempts : List (Nat × Nat)} (hnodup : (attempts.map (·.1)).Nodup)
    {number begun : Nat} (hmem : (number, begun) ∈ attempts) :
    attempts.filter (·.1 == number) = [(number, begun)] := by
  induction attempts with
  | nil => cases hmem
  | cons first rest ih =>
    obtain ⟨hfirst, hrest⟩ := List.nodup_cons.mp hnodup
    obtain rfl | hmem := List.mem_cons.mp hmem
    · have hnone : rest.filter (·.1 == number) = [] := by
        refine List.filter_eq_nil_iff.mpr fun other hother hsame => ?_
        exact hfirst (List.mem_map.mpr ⟨other, hother, beq_iff_eq.mp hsame⟩)
      rw [List.filter_cons, hnone, if_pos (beq_self_eq_true number)]
    · have hother : ¬ (first.1 == number) = true := by
        intro hsame
        exact hfirst (List.mem_map.mpr ⟨(number, begun), hmem, (beq_iff_eq.mp hsame).symm⟩)
      rw [List.filter_cons, if_neg hother, ih hrest hmem]

namespace Taken

variable {settings : Settings} {world : World} {s next : Standing} {entries : Chronicle} {after : Next}

theorem connection_eq (htaken : Taken settings world s entries after) :
    ∀ entry ∈ entries, entry.connection = s.made + 1 := by
  intro entry hentry
  cases htaken with
  | unanswered | refused | refusedLast => exact connection_of_mem_ofTimed hentry
  | cancelled =>
    obtain hentry | hentry := List.mem_append.mp hentry
    · exact connection_of_mem_ofTimed hentry
    · exact connection_of_mem_ofTimed hentry
  | ended | reconnected =>
    obtain hentry | hentry := List.mem_append.mp hentry
    · obtain hentry | hentry := List.mem_append.mp hentry
      · exact connection_of_mem_ofTimed hentry
      · exact connection_of_mem_ofTimed hentry
    · exact connection_of_mem_ofTimed hentry

theorem made_lt (htaken : Taken settings world s entries after) :
    ∀ entry ∈ entries, s.made < entry.connection := by
  intro entry hentry
  rw [htaken.connection_eq entry hentry]
  exact Nat.lt_succ_self _

theorem pairwise_le (htaken : Taken settings world s entries after) :
    entries.Pairwise fun entry later =>
      ∀ bytes, later.happening = .sent bytes → entry.connection ≤ later.connection := by
  refine List.pairwise_of_forall_mem_list fun entry hentry later hlater _ _ => ?_
  rw [htaken.connection_eq entry hentry, htaken.connection_eq later hlater]

/-- The next attempt waits for the end of the session, if there is one. -/
theorem session_time_le (htaken : Taken settings world s entries (.again next))
    {connection : Connection} {start : Nat}
    (hmade : world.connection? (s.made + 1) s.now = some (connection, start)) :
    (world.session settings connection start).time ≤ next.now := by
  cases htaken with
  | refused hanswer => cases (connection?_eq_none_of_refused hanswer).symm.trans hmade
  | reconnected hmade' hsession =>
    cases hmade.symm.trans hmade'
    subst hsession
    exact Nat.le_add_right ..

end Taken

section Pick

variable {α : Type} {kind : Nat × Happening → Option α}

theorem pick_on_stopped (hkind : Sessional kind) (number made stop : Nat) :
    (Chronicle.on number (Chronicle.ofTimed made [(stop, .status .stopped)])).pick kind = [] := by
  by_cases hmade : made = number
  · subst hmade
    rw [on_eq_self fun entry => connection_of_mem_ofTimed, hkind.pick_status]
  · rw [on_eq_nil hmade fun entry => connection_of_mem_ofTimed]
    rfl

theorem connections_on_stopped (world : World) (number made stop : Nat) :
    (Chronicle.on number (Chronicle.ofTimed made [(stop, .status .stopped)])).connections world =
      [] := by
  rw [Chronicle.connections, tries_on]
  rfl

theorem Taken.pick_on_eq {settings : Settings} {world : World} {s : Standing} {entries : Chronicle}
    {after : Next} (hkind : Sessional kind) (htaken : Taken settings world s entries after)
    (number : Nat) :
    (entries.on number).pick kind =
      ((entries.on number).connections world).flatMap (world.pickSession settings kind) := by
  by_cases hmade : s.made + 1 = number
  · subst hmade
    rw [on_eq_self htaken.connection_eq]
    exact htaken.pick_eq hkind
  · rw [on_eq_nil hmade htaken.connection_eq]
    rfl

/-- What only sessions have comes on each connection from the session on it. -/
theorem pick_on_supervise (settings : Settings) (world : World) (hkind : Sessional kind) (number : Nat) :
    ((supervise settings world).on number).pick kind =
      (((supervise settings world).on number).connections world).flatMap
        (world.pickSession settings kind) := by
  rw [supervise_eq]
  split
  · have hstopped : ([⟨0, 0, .status .stopped⟩] : Chronicle) =
      Chronicle.ofTimed 0 [(0, .status .stopped)] := rfl
    rw [hstopped, pick_on_stopped hkind, connections_on_stopped]
    rfl
  · rename_i hcancelAt
    refine attemptsFrom_induction (motive := fun _ _ chronicle => (chronicle.on number).pick kind =
      ((chronicle.on number).connections world).flatMap (world.pickSession settings kind)) ?_ ?_ ?_ _
      (onScript_outset settings (Nat.pos_of_ne_zero hcancelAt))
    · intro s _
      rfl
    · intro fuel s entries stop _ htaken
      rw [on_append, pick_append, connections_append, pick_on_stopped hkind, connections_on_stopped,
        htaken.pick_on_eq hkind, List.append_nil, List.append_nil]
    · intro fuel s entries next later _ htaken hlater
      rw [on_append, pick_append, connections_append, List.flatMap_append, htaken.pick_on_eq hkind,
        hlater]

end Pick

theorem sessional_sent? : Sessional sent? :=
  ⟨fun _ _ => rfl, fun _ => rfl, fun _ => rfl⟩

theorem nodup_numbers (settings : Settings) (world : World) :
    ((supervise settings world).tries.map (·.1)).Nodup := by
  rw [numbers_tries]
  exact List.nodup_range' ..

theorem pickSession_sent? (settings : Settings) (world : World) (made : Connection × Nat) :
    (world.pickSession settings sent? made).flatMap (·.2) =
      flushedBytes (world.sessionWrites settings made.1 made.2) := by
  have hran : Ran settings world.cancelAt made.1 made.2
    (world.session settings made.1 made.2) := ran ..
  rw [World.pickSession, hran.filterMap_sent?, List.flatMap_map]
  rfl

/-- What reaches the node on a connection is what the session on it sends. -/
theorem flushedOn_supervise {settings : Settings} {world : World} {number begun : Nat}
    (hmem : (number, begun) ∈ (supervise settings world).tries) :
    (supervise settings world).flushedOn number =
      (world.connection? number begun).toList.flatMap fun (connection, start) =>
        flushedBytes (world.sessionWrites settings connection start) := by
  rw [Chronicle.flushedOn, pick_on_supervise settings world sessional_sent?, Chronicle.connections,
    tries_on, filter_eq_singleton (nodup_numbers settings world) hmem]
  simp only [List.filterMap_cons, List.filterMap_nil]
  cases world.connection? number begun with
  | none => rfl
  | some made => simp only [List.flatMap_singleton, Option.toList_some, pickSession_sent?]

/-- Nothing reaches the node but on a connection. -/
theorem exists_connection_of_flushedOn {settings : Settings} {world : World} {number : Nat}
    (hflushed : (supervise settings world).flushedOn number ≠ []) :
    ∃ begun connection start, (number, begun) ∈ (supervise settings world).tries ∧
      world.connection? number begun = some (connection, start) := by
  by_cases hmem : ∃ begun, (number, begun) ∈ (supervise settings world).tries
  · obtain ⟨begun, hmem⟩ := hmem
    rw [flushedOn_supervise hmem] at hflushed
    cases hmade : world.connection? number begun with
    | none =>
      rw [hmade] at hflushed
      exact absurd rfl hflushed
    | some made => exact ⟨begun, made.1, made.2, hmem, hmade⟩
  · have hnone : (supervise settings world).tries.filter (·.1 == number) = [] := by
      refine List.filter_eq_nil_iff.mpr fun attempt hattempt hsame => hmem ⟨attempt.2, ?_⟩
      rwa [← beq_iff_eq.mp hsame]
    rw [Chronicle.flushedOn, pick_on_supervise settings world sessional_sent?, Chronicle.connections,
      tries_on, hnone] at hflushed
    exact absurd rfl hflushed

/-- No attempt begins before the sessions on all earlier connections are over. -/
theorem sessions_over_before_attempts (settings : Settings) (world : World) :
    (supervise settings world).tries.Pairwise fun attempt next =>
      ∀ connection start, world.connection? attempt.1 attempt.2 = some (connection, start) →
        (world.session settings connection start).time ≤ next.2 := by
  rw [supervise_eq]
  split
  · exact .nil
  · rename_i hcancelAt
    refine (attemptsFrom_induction (motive := fun _ s chronicle =>
      (∀ attempt ∈ chronicle.tries, s.now ≤ attempt.2) ∧ chronicle.tries.Pairwise fun attempt next =>
        ∀ connection start, world.connection? attempt.1 attempt.2 = some (connection, start) →
          (world.session settings connection start).time ≤ next.2) ?_ ?_ ?_ _
      (onScript_outset settings (Nat.pos_of_ne_zero hcancelAt))).2
    · intro s _
      exact ⟨List.forall_mem_nil _, .nil⟩
    · intro fuel s entries stop _ htaken
      have htries : Chronicle.tries (entries ++ Chronicle.ofTimed s.made [(stop, .status .stopped)]) =
          [(s.made + 1, s.now)] := by
        rw [tries_append, htaken.tries_eq]
        rfl
      rw [htries]
      exact ⟨List.forall_mem_singleton.mpr (Nat.le_refl _), List.pairwise_singleton ..⟩
    · intro fuel s entries next later _ htaken hlater
      obtain ⟨hbegun, hpairwise⟩ := hlater
      rw [tries_append, htaken.tries_eq, List.singleton_append]
      refine ⟨List.forall_mem_cons.mpr ⟨Nat.le_refl _, fun attempt hattempt => ?_⟩, .cons ?_ hpairwise⟩
      · exact Nat.le_trans htaken.now_le_now (hbegun attempt hattempt)
      · intro attempt hattempt connection start hmade
        exact Nat.le_trans (htaken.session_time_le hmade) (hbegun attempt hattempt)

/-- Once an attempt has begun, nothing reaches the node on an earlier connection. -/
theorem sent_in_order (settings : Settings) (world : World) :
    (supervise settings world).Pairwise fun entry later =>
      ∀ bytes, later.happening = .sent bytes → entry.connection ≤ later.connection := by
  rw [supervise_eq]
  split
  · exact List.pairwise_singleton ..
  · rename_i hcancelAt
    refine (attemptsFrom_induction (motive := fun _ s chronicle =>
      (∀ entry ∈ chronicle, ∀ bytes, entry.happening = .sent bytes → s.made < entry.connection) ∧
        chronicle.Pairwise fun entry later =>
          ∀ bytes, later.happening = .sent bytes → entry.connection ≤ later.connection) ?_ ?_ ?_ _
      (onScript_outset settings (Nat.pos_of_ne_zero hcancelAt))).2
    · intro s _
      exact ⟨List.forall_mem_nil _, .nil⟩
    · intro fuel s entries stop _ htaken
      have hstopped : ∀ entry ∈ Chronicle.ofTimed s.made [(stop, .status .stopped)],
          ∀ bytes, entry.happening ≠ .sent bytes := by
        intro entry hentry bytes
        rw [List.mem_singleton.mp hentry]
        nofun
      refine ⟨fun entry hentry bytes hsent => ?_, List.pairwise_append.mpr
        ⟨htaken.pairwise_le, List.pairwise_singleton .., fun entry _ later hlater bytes hsent => ?_⟩⟩
      · obtain hentry | hentry := List.mem_append.mp hentry
        · exact htaken.made_lt entry hentry
        · exact absurd hsent (hstopped entry hentry bytes)
      · exact absurd hsent (hstopped later hlater bytes)
    · intro fuel s entries next later _ htaken hlater
      obtain ⟨habove, hpairwise⟩ := hlater
      rw [htaken.made_eq] at habove
      refine ⟨fun entry hentry bytes hsent => ?_, List.pairwise_append.mpr
        ⟨htaken.pairwise_le, hpairwise, fun entry hentry other hother bytes hsent => ?_⟩⟩
      · obtain hentry | hentry := List.mem_append.mp hentry
        · exact htaken.made_lt entry hentry
        · exact Nat.lt_of_succ_lt (habove entry hentry bytes hsent)
      · rw [htaken.connection_eq entry hentry]
        exact Nat.le_of_lt (habove other hother bytes hsent)

/-- On every connection there is one conversation, and nothing else reaches the node. It is
    over, with everything that is written, before the next attempt to connect begins. -/
theorem supervise_conversations (settings : Settings) (world : World) :
    let chronicle := supervise settings world
    (∀ number begun connection start, (number, begun) ∈ chronicle.tries →
      world.connection? number begun = some (connection, start) →
        Conversation settings world connection start (chronicle.flushedOn number)) ∧
      (∀ number, chronicle.flushedOn number ≠ [] → ∃ begun connection start,
        (number, begun) ∈ chronicle.tries ∧
          world.connection? number begun = some (connection, start)) ∧
      (chronicle.tries.Pairwise fun attempt next => attempt.1 < next.1 ∧
        ∀ connection start, world.connection? attempt.1 attempt.2 = some (connection, start) →
          ∀ write ∈ world.sessionWrites settings connection start, write.ended ≤ next.2) ∧
      chronicle.Pairwise fun entry later =>
        ∀ bytes, later.happening = .sent bytes → entry.connection ≤ later.connection := by
  intro chronicle
  refine ⟨?_, fun number hflushed => exists_connection_of_flushedOn hflushed, ?_,
    sent_in_order settings world⟩
  · intro number begun connection start hmem hmade
    have hflushed : chronicle.flushedOn number =
        flushedBytes (world.sessionWrites settings connection start) := by
      rw [flushedOn_supervise hmem, hmade, Option.toList_some, List.flatMap_singleton]
    rw [hflushed]
    exact conversation settings world connection start
  · have hnumbers : chronicle.tries.Pairwise fun attempt next => attempt.1 < next.1 := by
      rw [← List.pairwise_map, numbers_tries]
      exact List.pairwise_lt_range' ..
    refine (hnumbers.and (sessions_over_before_attempts settings world)).imp ?_
    rintro attempt next ⟨hless, hover⟩
    refine ⟨hless, fun connection start hmade write hwrite => ?_⟩
    obtain ⟨-, -, hended⟩ := (inTurn_session settings world connection start).bounds write hwrite
    exact Nat.le_trans hended (hover connection start hmade)

-- With the usual settings the stream is read from second 8 on, and two keepalives are due
-- before it is closed at second 300.
example :
    let settings : Settings := { callsign := "G4ABC" }
    let source : Stream.Source := { segments := [], ending := .close, endsAt := 300000 }
    (supervise settings ⟨[{ result := .ok { source } }], 400000⟩).flushedOn 1 =
      settings.loginBytes ++ [0, 0] := by
  cbv

end PacketMonitor.Session

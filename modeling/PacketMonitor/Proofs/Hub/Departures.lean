import PacketMonitor.Proofs.Hub.Registry

namespace PacketMonitor.Hub

/-- However much is asked for, a subscriber sees the end only with the last message that is
    left to it. -/
def ReadsOut (hub : Hub) (name : String) : Prop :=
  ∀ limit?, ∃ messages ending, (hub.perform (.receive name limit?)).2 = .received messages ending ∧
    (ending = .closed ∧ messages = hub.unread name ∨
      ending = .limit ∧ limit? = some messages.length ∧ messages <+: hub.unread name)

section Publication

variable {hub : Hub} {name message : String}

/-- An event lets go of exactly the subscribers that are stuck. -/
theorem Valid.mem_registry_publish_iff (hvalid : hub.Valid) :
    name ∈ (hub.publish message).1.registry ↔ name ∈ hub.registry ∧ ¬ hub.Stuck name := by
  have hother : Operation.publish message ≠ .attach name := by simp
  rw [mem_registry_iff, mem_registry_iff]
  apply (hvalid.isRegistered_perform_iff hother).trans
  simp

/-- A message comes to those who are registered afterwards, and nobody else is reached by it. -/
theorem Valid.unread_publish (hvalid : hub.Valid) :
    (name ∈ (hub.publish message).1.registry →
        (hub.publish message).1.unread name = hub.unread name ++ [message]) ∧
      (name ∉ (hub.publish message).1.registry →
        (hub.publish message).1.unread name = hub.unread name) := by
  have hafter := mailbox?_publish hub message name
  rw [hvalid.mem_registry_publish_iff, mem_registry_iff]
  cases hbox : hub.mailbox? name with
  | none =>
    rw [hbox, Option.map_none] at hafter
    refine ⟨fun hregistered => ?_, fun _ => by rw [unread, hafter, unread, hbox]⟩
    obtain ⟨box, hsome, -⟩ := exists_mailbox_of_isRegistered hregistered.1
    cases hbox.symm.trans hsome
  | some box =>
    rw [hbox, Option.map_some] at hafter
    rw [unread_eq hafter, unread_eq hbox, isRegistered_eq hbox]
    constructor
    · rintro ⟨hregistered, hfree⟩
      rw [Mailbox.offer_of_accepts ((hvalid.accepts_iff hbox hregistered).mpr hfree)]
    · intro hout
      rw [Mailbox.offer_of_not_accepts fun haccepts =>
        hout ⟨haccepts.1, (hvalid.accepts_iff hbox haccepts.1).mp haccepts⟩]

/-- The registered subscribers are afterwards those whose queue grew. -/
theorem Valid.registry_publish (hvalid : hub.Valid) :
    (hub.publish message).1.registry = hub.registry.filter fun name =>
      (hub.publish message).1.unread name = hub.unread name ++ [message] := by
  have hnames : (hub.publish message).1.names = hub.names := names_publish message
  rw [registry, hnames, registry, List.filter_filter]
  apply List.filter_congr
  intro name _
  rw [Bool.eq_iff_iff, Bool.and_eq_true, decide_eq_true_iff, ← mem_registry_iff, ← mem_registry_iff]
  constructor
  · intro hstays
    exact ⟨hvalid.unread_publish.1 hstays, (hvalid.mem_registry_publish_iff.mp hstays).1⟩
  · rintro ⟨hgrew, -⟩
    by_contra hleaves
    rw [hvalid.unread_publish.2 hleaves] at hgrew
    simp at hgrew

end Publication

section Queue

variable {hub : Hub} {name : String} {box : Mailbox} {operations : List Operation}

theorem reader?_performAll_eq_gone_iff (hbox : hub.mailbox? name = some box)
    (hname : Operation.attach name ∉ operations) :
    (hub.performAll operations).reader? name = some .gone ↔
      box.reader = .gone ∨ Operation.abandon name ∈ operations := by
  rw [reader?, mailbox?_performAll hub name operations hname, hbox, Option.map_some, Option.map_some,
    Option.some.injEq]
  clear hbox hname
  induction operations generalizing box with
  | nil => simp
  | cons operation rest ih =>
    rw [List.foldl_cons, ih, reader_after_eq_gone_iff, List.mem_cons, or_assoc,
      eq_comm (b := operation)]

/-- As long as a subscriber stays, nothing leaves its queue unread. -/
theorem released_eq_taken (hbox : hub.mailbox? name = some box)
    (hname : Operation.attach name ∉ operations) (hstays : Operation.abandon name ∉ operations) :
    hub.released name operations = hub.taken name operations := by
  have hdiscarded : hub.discarded name operations = [] := by
    clear hbox hname
    induction operations generalizing hub with
    | nil => rfl
    | cons operation rest ih =>
      rw [List.mem_cons, not_or] at hstays
      rw [discarded, if_neg (Ne.symm hstays.1), List.nil_append]
      exact ih hstays.2
  rw [released_eq_taken_append_discarded hbox operations hname, hdiscarded, List.append_nil]

/-- A registered subscriber has before it what it was given on its coming and all events
    since, less what it has read of them. -/
theorem unread_eq_drop (hbox : hub.mailbox? name = some box)
    (hname : Operation.attach name ∉ operations)
    (hregistered : (hub.performAll operations).isRegistered name = true)
    (hstays : Operation.abandon name ∉ operations) :
    (hub.performAll operations).unread name =
      box.queued.drop (hub.taken name operations).length ++
        (published operations).drop ((hub.taken name operations).length - box.queued.length) := by
  obtain ⟨live, hbalance, -, hall, -⟩ := released_append_unread hbox operations hname
  rw [released_eq_taken hbox hname hstays, hall hregistered] at hbalance
  rw [← List.drop_append, ← hbalance, List.drop_left]

/-- Whoever was let go sees the end when its queue is drained, and not before. -/
theorem readsOut_of_not_registered (hbox : hub.mailbox? name = some box)
    (hout : box.registered = false) (hpresent : box.reader ≠ .gone) : hub.ReadsOut name := by
  intro limit?
  refine ⟨box.queued.take (limit?.getD box.queued.length), box.receiveEnd limit?
    (box.queued.take (limit?.getD box.queued.length)).length, ?_, ?_⟩
  · simp only [perform, receive, hbox, if_neg hpresent]
  · rw [Mailbox.receiveEnd, unread_eq hbox]
    split
    · exact .inr ⟨rfl, ‹_›, List.take_prefix ..⟩
    · rename_i hmore
      refine .inl ⟨by simp [hout], List.take_of_length_le ?_⟩
      cases limit? with
      | none => exact Nat.le_refl _
      | some limit =>
        rw [Option.getD_some, List.length_take, Option.some.injEq] at hmore
        rw [Option.getD_some]
        omega

/-- Whoever was let go takes what was left to it to the end, and nothing is added. -/
theorem drains_of_not_registered (hbox : hub.mailbox? name = some box)
    (hout : box.registered = false) (hpresent : box.reader ≠ .gone)
    (hname : Operation.attach name ∉ operations) (hstays : Operation.abandon name ∉ operations) :
    let rest := hub.performAll operations
    rest.isRegistered name = false ∧
      hub.taken name operations ++ rest.unread name = box.queued ∧ rest.ReadsOut name := by
  intro rest
  obtain ⟨live, hbalance, -, -, hnone⟩ := released_append_unread hbox operations hname
  obtain ⟨rfl, hstill⟩ := hnone hout
  rw [released_eq_taken hbox hname hstays, List.append_nil] at hbalance
  have hlater := mailbox?_performAll hub name operations hname
  rw [hbox, Option.map_some] at hlater
  refine ⟨hstill, hbalance, readsOut_of_not_registered hlater ?_ fun hgone => ?_⟩
  · exact (isRegistered_eq hlater).symm.trans hstill
  · have hleft : rest.reader? name = some .gone := (reader?_eq hlater).trans (congrArg some hgone)
    exact ((reader?_performAll_eq_gone_iff hbox hname).mp hleft).elim hpresent hstays

/-- However much of the history is still unread, whoever lags behind by fewer events than
    allowed can take another one. -/
theorem Valid.not_stuck_of_few_live (hvalid : hub.Valid) {joined : Hub} {count : Nat}
    (hattach : (hub.perform (.attach name)) = (joined, .replayed count))
    (hname : Operation.attach name ∉ operations)
    (hregistered : (joined.performAll operations).isRegistered name = true)
    (hlistening : (joined.performAll operations).reader? name = some .listening) :
    let read := (joined.taken name operations).length
    let live := (published operations).drop (read - count)
    (joined.performAll operations).unread name = hub.history.toList.drop read ++ live ∧
      (live.length < hub.settings.subscriberQueue → ¬ (joined.performAll operations).Stuck name) := by
  intro read live
  have hjoined : hub.attach name = .ok (joined, count) := by
    rw [perform_attach_of_replayed (congrArg Prod.snd hattach), hattach]
  obtain ⟨hbox, rfl⟩ := mailbox?_attach_self hjoined
  have hstays : Operation.abandon name ∉ operations := by
    intro habandon
    rw [(reader?_performAll_eq_gone_iff hbox hname).mpr (.inr habandon)] at hlistening
    cases hlistening
  have hunread : (joined.performAll operations).unread name = hub.history.toList.drop read ++ live := by
    rw [unread_eq_drop hbox hname hregistered hstays, History.length_toList]
  refine ⟨hunread, fun hfew => ?_⟩
  rintro (hdeaf | hfull)
  · exact hdeaf hlistening
  · have hsize : hub.history.size ≤ hub.settings.historyCapacity :=
      hvalid.capacity_eq ▸ hub.history.size_le
    rw [settings_performAll, (frame_attach hjoined).1, hunread, List.length_append, List.length_drop,
      History.length_toList, Settings.queueLimit] at hfull
    omega

end Queue

/-- An event lets go of the registered subscribers that do not listen or have as much unread
    as a queue holds, and it comes to all the others, who are the ones counted. Nobody who
    listens and lags behind by fewer events than allowed is let go, and whoever is let go
    still reads all that was queued before it sees the end. -/
theorem publish_lets_go (settings : Settings) (operations : List Operation) (message : String) :
    let hub := (empty settings).performAll operations
    let after := (hub.publish message).1
    (∀ name ∈ hub.registry, (name ∉ after.registry ↔ hub.Stuck name) ∧
      (¬ hub.Stuck name → after.unread name = hub.unread name ++ [message]) ∧
      (hub.Stuck name → after.unread name = hub.unread name)) ∧
    (∀ name, name ∉ hub.registry →
      name ∉ after.registry ∧ after.unread name = hub.unread name) ∧
    (∀ name, (hub.unread name).length ≤ settings.queueLimit) ∧
    (hub.registry.Nodup ∧ (hub.publish message).2 = after.registry.length ∧
      after.registry = hub.registry.filter fun name =>
        after.unread name = hub.unread name ++ [message]) ∧
    (∀ before name late joined count, operations = before ++ .attach name :: late →
      ((empty settings).performAll before).perform (.attach name) = (joined, .replayed count) →
      Operation.attach name ∉ late → name ∈ hub.registry → hub.reader? name = some .listening →
      let read := (joined.taken name late).length
      let live := (published late).drop (read - count)
      hub.unread name = ((empty settings).performAll before).history.toList.drop read ++ live ∧
        (live.length < settings.subscriberQueue → name ∈ after.registry)) ∧
    ∀ name ∈ hub.registry, name ∉ after.registry → hub.reader? name ≠ some .gone →
      ∀ later, Operation.attach name ∉ later → Operation.abandon name ∉ later →
        let rest := after.performAll later
        name ∉ rest.registry ∧
        after.taken name later ++ rest.unread name = hub.unread name ∧ rest.ReadsOut name := by
  intro hub after
  have hvalid : hub.Valid := (valid_empty settings).performAll operations
  have hsettings : hub.settings = settings := settings_performAll ..
  refine ⟨fun name hname => ?_, fun name hname => ?_, hsettings ▸ hvalid.bounded,
    ⟨hvalid.distinct.filter _, ?_, hvalid.registry_publish⟩, ?_, ?_⟩
  · have hstays : name ∈ after.registry ↔ ¬ hub.Stuck name :=
      hvalid.mem_registry_publish_iff.trans (and_iff_right hname)
    refine ⟨by rw [hstays, not_not], fun hfree => ?_, fun hstuck => ?_⟩
    · exact hvalid.unread_publish.1 (hstays.mpr hfree)
    · exact hvalid.unread_publish.2 fun h => hstays.mp h hstuck
  · have hout : name ∉ after.registry := fun h => hname (hvalid.mem_registry_publish_iff.mp h).1
    exact ⟨hout, hvalid.unread_publish.2 hout⟩
  · have hdistinct : after.names.Nodup := (hvalid.perform (.publish message)).distinct
    exact (length_registry hdistinct).symm
  · rintro before name late joined count rfl hattach hlate hname hlistening read live
    have hearlier := (valid_empty settings).performAll before
    have hhub : hub = joined.performAll late := by
      change (empty settings).performAll (before ++ .attach name :: late) = joined.performAll late
      rw [performAll_append_cons, hattach]
    obtain ⟨hunread, hfree⟩ := hearlier.not_stuck_of_few_live hattach hlate
      (hhub ▸ mem_registry_iff.mp hname) (hhub ▸ hlistening)
    rw [settings_performAll] at hfree
    refine ⟨hhub ▸ hunread, fun hfew => ?_⟩
    exact hvalid.mem_registry_publish_iff.mpr ⟨hname, hhub ▸ hfree hfew⟩
  · intro name hname hout hpresent later hlater hstays rest
    obtain ⟨box, hbox, -⟩ := exists_mailbox_of_isRegistered (mem_registry_iff.mp hname)
    rw [reader?_eq hbox] at hpresent
    have hlost : after.mailbox? name = some { box with registered := false } := by
      apply (mailbox?_publish hub message name).trans
      rw [hbox, Option.map_some, Mailbox.offer_of_not_accepts fun haccepts => hout ?_]
      exact hvalid.mem_registry_publish_iff.mpr
        ⟨hname, (hvalid.accepts_iff hbox haccepts.1).mp haccepts⟩
    obtain ⟨hstill, htaken, hends⟩ := drains_of_not_registered hlost rfl
      (fun hgone => hpresent (congrArg some hgone)) hlater hstays
    refine ⟨fun h => ?_, htaken.trans (unread_eq hbox).symm, hends⟩
    rw [mem_registry_iff, hstill] at h
    cases h

end PacketMonitor.Hub

import PacketMonitor.Proofs.Dashboard.Goodbye

namespace PacketMonitor.Dashboard.Relay

section Over

variable {r : Relay}

/-- A stream is over when it takes its subscriber off the hub, and not before. -/
theorem isOver_step_iff {step : Step} :
    (r.step step).isOver = true ↔ r.isOver = true ∨ step = .finish ∧ r.isEnding = true := by
  cases step with
  | elsewhere operation => simp [Relay.step]
  | pass isAccepted =>
    have hsame : (r.pass isAccepted).isOver = r.isOver := by
      rw [Relay.pass]
      split
      · rfl
      · split <;> rfl
      · rfl
      · rfl
    simp [Relay.step, hsame]
  | read frame =>
    rw [Relay.step, Relay.read]
    split <;> simp
  | stop =>
    rw [Relay.step, stop]
    split
    · simp
    · split <;> simp [endPassing]
  | finish =>
    rw [Relay.step, finish]
    cases r.isEnding <;> cases hover : r.isOver <;> simp [hover]

theorem isRegistered_finish (hending : r.isEnding = true) (hnot : r.isOver ≠ true) :
    (r.step .finish).hub.isRegistered r.name = false := by
  rw [Relay.step, finish, if_pos (by simp [hending, hnot]), Hub.isRegistered_detach, bne_self_eq_false,
    Bool.and_false]

/-- A stream that is over leaves no registration behind. -/
theorem isRegistered_run_of_isOver {steps : List Step} (hapart : Apart r.name steps)
    (hbefore : r.isOver = true → r.hub.isRegistered r.name = false)
    (hover : (r.run steps).isOver = true) : (r.run steps).hub.isRegistered r.name = false := by
  induction steps generalizing r with
  | nil => exact hbefore hover
  | cons step rest ih =>
    have hrest : Apart (r.step step).name rest := name_step r step ▸ hapart.tail
    refine name_step r step ▸ ih hrest (fun hnow => ?_) hover
    rw [name_step]
    by_cases hthen : r.isOver = true
    · exact isRegistered_step hapart.head (hbefore hthen)
    · obtain ⟨rfl, hending⟩ := (isOver_step_iff.mp hnow).resolve_left hthen
      exact isRegistered_finish hending hthen

/-- The end of a stream takes its own subscriber off the hub and nobody else. -/
theorem registry_finish (hending : r.isEnding = true)
    (hover : r.isOver = true → r.hub.isRegistered r.name = false) :
    (r.step .finish).hub.registry = r.hub.registry.filter (· != r.name) := by
  rw [step, finish]
  cases hthen : r.isOver with
  | false =>
    rw [if_pos (by simp [hending])]
    exact Hub.registry_detach r.hub r.name
  | true =>
    rw [if_neg (by simp)]
    refine (List.filter_eq_self.mpr fun other hmem => ?_).symm
    have hregistered := Hub.mem_registry_iff.mp hmem
    rw [bne_iff_ne]
    rintro rfl
    rw [hover hthen] at hregistered
    cases hregistered

/-- A stream touches nothing of a hub but the queue and the registration of its subscriber. -/
theorem frame_step {step : Step} (hown : ∀ operation, step ≠ .elsewhere operation) :
    (r.step step).hub.history = r.hub.history ∧
      ∀ other, other ≠ r.name → (r.step step).hub.mailbox? other = r.hub.mailbox? other := by
  rw [hub_step]
  cases hoperation : r.operation? step with
  | none => exact ⟨rfl, fun _ _ => rfl⟩
  | some operation =>
    obtain ⟨hsubscriber, hattach⟩ := subscriber?_operation? hown hoperation
    exact Hub.frame_of_subscriber hsubscriber hattach

end Over

/-- A stream begins with the history in the queue and with nothing sent. -/
theorem exists_hub_of_start {settings : Hub.Settings} {before : List Hub.Operation} {name : String}
    {relay : Relay} (hstart : start ((Hub.empty settings).performAll before) name = .ok relay) :
    let replay := (Hub.published before).drop
      ((Hub.published before).length - settings.historyCapacity)
    ∃ hub, relay = { hub, name } ∧
      hub.mailbox? name = some { queued := replay } := by
  intro replay
  unfold start at hstart
  cases hattach : ((Hub.empty settings).performAll before).attach name with
  | error why =>
    rw [hattach] at hstart
    cases hstart
  | ok joined =>
    rw [hattach] at hstart
    cases hstart
    have hlast : ((Hub.empty settings).performAll before).history.HoldsLast
        settings.historyCapacity (Hub.published before) := by
      simpa only [List.nil_append] using
        Hub.holdsLast_performAll (Hub.empty settings) (History.holdsLast_empty _) before
    refine ⟨joined.1, rfl, ?_⟩
    rw [(Hub.mailbox?_attach_self hattach).1, hlast.toList_eq]

section Start

variable {hub : Hub} {name : String} {queued : List String}

theorem ledger_start (hub : Hub) (name : String) : Ledger { hub, name } [] :=
  ⟨List.prefix_rfl, fun _ _ => rfl⟩

theorem intact_start (hbox : hub.mailbox? name = some { queued }) : Intact { hub, name } [] :=
  ⟨rfl, fun _ => rfl, fun _ => Hub.reader?_eq hbox, by simp, by simp⟩

/-- What a subscriber is given while a stream goes on. From any point it is seen as the part that
    was given so far, with all that was published if the subscriber is registered, and the rest,
    which is nothing if it is not. -/
theorem exists_live (hbox : hub.mailbox? name = some { queued }) {steps : List Step}
    (hapart : Apart name steps) :
    let relay : Relay := { hub, name }
    ∃ live, live <+: announced steps ∧ ∀ early late, steps = early ++ late →
      ∃ sofar more, live = sofar ++ more ∧ sofar <+: announced early ∧
        hub.released name (relay.operations early) ++ (relay.run early).hub.unread name =
          queued ++ sofar ∧
        ((relay.run early).hub.isRegistered name = true → sofar = announced early) ∧
        ((relay.run early).hub.isRegistered name = false → more = []) := by
  intro relay
  have hattach : Hub.Operation.attach name ∉ relay.operations steps := attach_not_mem_operations hapart
  obtain ⟨live, hbalance, hfront, -, -⟩ := Hub.released_append_unread hbox _ hattach
  rw [published_operations] at hfront
  refine ⟨live, hfront, ?_⟩
  rintro early late rfl
  rw [operations_append] at hattach hbalance
  obtain ⟨sofar, more, hsofar, hwhole, hpublished, hall, hnone⟩ :=
    Hub.released_append_unread_of_split hbox _ _ hattach
  rw [published_operations] at hpublished hall
  have hhub : (relay.run early).hub = hub.performAll (relay.operations early) := hub_run relay early
  rw [← hhub] at hsofar hall hnone
  exact ⟨sofar, more, List.append_cancel_left (hbalance.symm.trans hwhole), hpublished, hsofar, hall,
    hnone⟩

end Start

/-- What a stream sends is, at any time, the first part of what its subscriber is given: the last
    events from before its coming, as many as are kept, and then events as they are published.
    The hub withholds none of them from a registered subscriber and adds none for one that it
    let go. While the socket can be used a goodbye follows all of them, and it comes as soon as
    messages were passed on often enough. Whatever ends the stream takes the subscriber off the
    hub for good, and in all this nothing else in the hub is touched. -/
theorem run_relays (settings : Hub.Settings) (before : List Hub.Operation) (name : String)
    (relay : Relay) (steps : List Step)
    (hstart : start ((Hub.empty settings).performAll before) name = .ok relay)
    (hapart : Apart name steps) :
    let replay := (Hub.published before).drop
      ((Hub.published before).length - settings.historyCapacity)
    ∃ live, live <+: announced steps ∧
      ∀ early late, steps = early ++ late →
        let r := relay.run early
        (name ∈ r.hub.registry → announced early <+: live) ∧
        (name ∉ r.hub.registry → live <+: announced early) ∧
        r.sent <+: replay ++ live ∧
        (Usable early → r.saidGoodbye = true → r.sent = replay ++ live) ∧
        (Usable steps → name ∉ r.hub.registry →
          2 * (r.hub.unread name).length + 3 ≤ late.count (.pass true) →
            (r.run late).sent = replay ++ live ∧ (r.run late).saidGoodbye = true) ∧
        (r.isOver = true → name ∉ r.hub.registry) ∧
        (r.isEnding = true → (r.step .finish).isOver = true ∧
          (r.step .finish).hub.registry = r.hub.registry.filter (· != name)) ∧
        r.step (.read .message) = r ∧
        ∀ own, (∀ operation, own ≠ .elsewhere operation) →
          (r.step own).hub.history = r.hub.history ∧
          ∀ other, other ≠ name → (r.step own).hub.mailbox? other = r.hub.mailbox? other := by
  intro replay
  obtain ⟨hub, rfl, hbox⟩ := exists_hub_of_start hstart
  set relay : Relay := { hub, name }
  obtain ⟨live, hfront, hsplit⟩ := exists_live hbox hapart
  have hwhole : ∀ early late, steps = early ++ late → Usable early →
      (relay.run early).saidGoodbye = true → (relay.run early).sent = replay ++ live := by
    rintro early late rfl husable hgoodbye
    obtain ⟨sofar, more, rfl, -, hsofar, -, hnone⟩ := hsplit early late rfl
    have hearly : Apart name early := fun operation h => hapart operation (List.mem_append_left _ h)
    obtain ⟨hsent, hout, hread⟩ := ((intact_start hbox).run hearly husable).sent_eq hgoodbye
    rw [name_run] at hout hread
    rw [hread, List.append_nil] at hsofar
    rw [hnone hout, List.append_nil, ← hsofar]
    exact hsent
  refine ⟨live, hfront, ?_⟩
  rintro early late rfl r
  have hearly : Apart name early := fun operation h => hapart operation (List.mem_append_left _ h)
  have hlate : Apart name late := fun operation h => hapart operation (List.mem_append_right _ h)
  have hname : r.name = name := name_run relay early
  obtain ⟨sofar, more, rfl, hpublished, hsofar, hall, hnone⟩ := hsplit early late rfl
  simp only [Hub.mem_registry_iff, Bool.not_eq_true]
  refine ⟨fun hregistered => ?_, fun hout => ?_, ?_, hwhole early late rfl,
    fun husable hout hcount => ?_, fun hover => ?_, fun hending => ?_, rfl, fun own hown => ?_⟩
  · exact hall hregistered ▸ List.prefix_append ..
  · rwa [hnone hout, List.append_nil]
  · -- What was sent has left the queue, and the rest of the sequence may still be in it.
    have hledger := (ledger_start hub name).run hearly
    have hsent : r.sent <+: replay ++ sofar := hsofar ▸ hledger.sent_prefix.trans (List.prefix_append ..)
    rw [← List.append_assoc]
    exact hsent.trans (List.prefix_append ..)
  · have hbegun := (intact_start hbox).run hearly fun step h => husable step (List.mem_append_left _ h)
    have hgoodbye : (r.run late).saidGoodbye = true :=
      saidGoodbye_run hbegun (hname.symm ▸ hout) (hname.symm ▸ hlate)
        (fun step h => husable step (List.mem_append_right _ h)) (hname.symm ▸ hcount)
    have hsent := hwhole (early ++ late) [] (List.append_nil _).symm husable
    rw [run_append] at hsent
    exact ⟨hsent hgoodbye, hgoodbye⟩
  · exact isRegistered_run_of_isOver hearly (by simp) hover
  · refine ⟨isOver_step_iff.mpr (.inr ⟨rfl, hending⟩), ?_⟩
    rw [registry_finish hending (hname.symm ▸ isRegistered_run_of_isOver hearly (by simp)), hname]
  · exact hname ▸ frame_step hown

/-- A dashboard that lags behind is let go with two events before it and gets both. Its stream is
    over then, and the other dashboard stays. -/
theorem run_relays_to_lagging_dashboard :
    let settings : Hub.Settings := { historyCapacity := 1, subscriberQueue := 1, maxSubscribers := 2 }
    let before : List Hub.Operation := [.publish "a", .publish "b", .attach "y"]
    let joined := (Hub.empty settings).performAll (before ++ [.attach "x"])
    let relay : Relay := { hub := joined, name := "x" }
    let early : List Step := [.elsewhere (.publish "c"), .pass true,
      .elsewhere (.receive "y" none), .elsewhere (.publish "d"), .pass true, .read .message,
      .elsewhere (.publish "e")]
    let late : List Step := List.replicate 7 (.pass true) ++ [.finish]
    let r := relay.run early
    start ((Hub.empty settings).performAll before) "x" = .ok relay ∧ Apart "x" (early ++ late) ∧
      Usable (early ++ late) ∧ r.hub.unread "x" = ["c", "d"] ∧ r.hub.registry = ["y"] ∧
      ∃ live, live <+: ["c", "d", "e"] ∧ r.sent <+: ["b"] ++ live ∧
        (r.run late).sent = ["b"] ++ live ∧ (r.run late).saidGoodbye = true ∧
        (r.run late).isOver = true ∧ "x" ∉ (r.run late).hub.registry ∧
        "y" ∈ (r.run late).hub.registry := by
  intro settings before joined relay early late r
  have hstart : start ((Hub.empty settings).performAll before) "x" = .ok relay := rfl
  have hapart : Apart "x" (early ++ late) := by
    intro operation hmem
    obtain rfl | rfl | rfl | rfl : operation = .publish "c" ∨ operation = .receive "y" none ∨
        operation = .publish "d" ∨ operation = .publish "e" := by
      simpa [early, late] using hmem
    all_goals simp [Hub.Operation.subscriber?]
  have husable : Usable (early ++ late) := by
    unfold Usable
    decide
  have hunread : r.hub.unread "x" = ["c", "d"] := by decide
  have hregistry : r.hub.registry = ["y"] := by decide
  obtain ⟨live, hfront, hall⟩ := run_relays settings before "x" relay (early ++ late) hstart hapart
  obtain ⟨-, -, hsent, -, hrest, -⟩ := hall early late rfl
  have hout : "x" ∉ r.hub.registry := by decide
  obtain ⟨hwhole, hgoodbye⟩ := hrest husable hout (by decide)
  have hover : (r.run late).isOver = true := by decide
  obtain ⟨-, -, -, -, -, hgone, -⟩ := hall (early ++ late) [] (List.append_nil _).symm
  rw [run_append] at hgone
  exact ⟨hstart, hapart, husable, hunread, hregistry, live, hfront, hsent, hwhole, hgoodbye, hover,
    hgone hover, by decide⟩

end PacketMonitor.Dashboard.Relay

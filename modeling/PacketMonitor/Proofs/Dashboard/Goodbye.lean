import PacketMonitor.Proofs.Dashboard.Ledger

namespace PacketMonitor.Dashboard.Relay

/-- Whether the socket can still be used after a step: it took what was passed on, and what
    was read was not the last thing. -/
def Step.leavesUsable : Step → Bool
  | .pass isAccepted => isAccepted
  | .read frame => !frame.isLast
  | .elsewhere _ | .stop | .finish => true

/-- The socket stays usable during some steps. -/
def Usable (steps : List Step) : Prop :=
  ∀ step ∈ steps, step.leavesUsable = true

/-- What holds of a stream as long as its socket can be used. It does not end before the hub has
    let go of the subscriber, and by then nothing is left unread. -/
structure Intact (r : Relay) (released : List String) : Prop where
  complete : r.sent ++ r.passing.inHand = released
  reading : r.passing ≠ .ended → r.isReading = true
  listening : r.passing ≠ .ended → r.hub.reader? r.name = some .listening
  drained : r.passing = .leaving ∨ r.passing = .ended →
    r.hub.isRegistered r.name = false ∧ r.hub.unread r.name = []
  goodbye : r.saidGoodbye = true ↔ r.passing = .ended

namespace Intact

variable {r : Relay} {released : List String}

theorem exists_mailbox (hintact : Intact r released) (hpassing : r.passing ≠ .ended) :
    ∃ box, r.hub.mailbox? r.name = some box ∧ box.reader = .listening := by
  have hlistening := hintact.listening hpassing
  rwa [Hub.reader?, Option.map_eq_some_iff] at hlistening

theorem ended_of_isEnding (hintact : Intact r released) (hending : r.isEnding = true) :
    r.passing = .ended := by
  by_contra hpresent
  simp [isEnding, hpresent, hintact.reading hpresent] at hending

/-- The next message is taken, or there is none and the stream waits or leaves. -/
theorem receive (hintact : Intact r released) (hpassing : r.passing = .waiting) :
    Intact (r.pass true) (released ++ r.hub.released r.name [.receive r.name (some 1)]) := by
  obtain ⟨box, hbox, hlistening⟩ := hintact.exists_mailbox (by simp [hpassing])
  obtain ⟨hafter, hreceived⟩ := Hub.receive_one hbox hlistening
  have hpresent := Passing.afterReceiving_ne_ended (r.hub.receive r.name (some 1)).2
  have hgoodbye : r.saidGoodbye = false := by simpa [hpassing] using hintact.goodbye
  have hsent : r.sent = released := by simpa [hpassing, Passing.inHand] using hintact.complete
  rw [Hub.released_receive, Relay.pass, hpassing]
  refine ⟨?_, fun _ => hintact.reading (by simp [hpassing]), fun _ => ?_, fun hlast => ?_, ?_⟩
  · have hhand := Passing.inHand_afterReceiving (Hub.length_receive_le r.hub r.name 1)
    simp only [hhand, hsent]
  · rw [Hub.reader?_eq hafter, hlistening]
  · -- Without a message and a registration none can come any more.
    have hleaving := hlast.resolve_right hpresent
    simp only [hreceived] at hleaving
    cases hqueued : box.queued with
    | cons message rest => simp [hqueued, Passing.afterReceiving] at hleaving
    | nil =>
      cases hregistered : box.registered with
      | true => simp [hqueued, hregistered, Passing.afterReceiving] at hleaving
      | false =>
        rw [Hub.isRegistered_eq hafter, Hub.unread_eq hafter, hqueued]
        exact ⟨hregistered, rfl⟩
  · simp [hgoodbye, hpresent]

/-- Whoever leaves has read everything and can say goodbye. -/
theorem leave (hintact : Intact r released) (hpassing : r.passing = .leaving) :
    Intact (r.pass true) (released ++ r.hub.released r.name [.abandon r.name]) := by
  obtain ⟨hout, hread⟩ := hintact.drained (.inl hpassing)
  obtain ⟨box, hbox, -⟩ := hintact.exists_mailbox (by simp [hpassing])
  have hafter : (r.hub.abandon r.name).mailbox? r.name = some { box with reader := .gone, queued := [] } := by
    rw [Hub.abandon, Hub.mailbox?_update, hbox, Option.map_some, if_pos rfl]
  have hsent : r.sent = released := by simpa [hpassing, Passing.inHand] using hintact.complete
  rw [Hub.released_abandon, hread, List.append_nil, Relay.pass, hpassing]
  refine ⟨by simp [endPassing, Passing.inHand, hsent], by simp [endPassing], by simp [endPassing],
    fun _ => ⟨?_, ?_⟩, by simp [endPassing]⟩
  · exact (Hub.isRegistered_eq hafter).trans ((Hub.isRegistered_eq hbox).symm.trans hout)
  · exact Hub.unread_eq hafter

theorem pass (hintact : Intact r released) :
    Intact (r.pass true)
      (released ++ r.hub.released r.name (r.operation? (.pass true)).toList) := by
  rw [operation?]
  cases hpassing : r.passing with
  | waiting => exact hintact.receive hpassing
  | leaving => exact hintact.leave hpassing
  | holding message =>
    have hsent : r.sent ++ [message] = released := by
      simpa [hpassing, Passing.inHand] using hintact.complete
    have hgoodbye : r.saidGoodbye = false := by simpa [hpassing] using hintact.goodbye
    have hpresent : r.passing ≠ .ended := by simp [hpassing]
    rw [Relay.pass, hpassing]
    exact ⟨by simp [Passing.inHand, hsent, Hub.released], fun _ => hintact.reading hpresent,
      fun _ => hintact.listening hpresent, by simp, by simp [hgoodbye]⟩
  | ended => simpa [Relay.pass, hpassing, Hub.released] using hintact

/-- One step. Others cannot bring anything to a subscriber that was let go. -/
theorem step (hintact : Intact r released) {step : Step} (hapart : Apart r.name [step])
    (husable : step.leavesUsable = true) :
    Intact (r.step step) (released ++ r.hub.released r.name (r.operation? step).toList) := by
  cases step with
  | elsewhere operation =>
    have hother := hapart operation (List.mem_singleton_self _)
    rw [operation?, Option.toList_some, Hub.released_of_apart hother, List.append_nil]
    refine ⟨hintact.complete, hintact.reading, fun hpresent => ?_, fun hlast => ?_, hintact.goodbye⟩
    · exact (Hub.reader?_perform_of_apart hother).trans (hintact.listening hpresent)
    · obtain ⟨hout, hread⟩ := hintact.drained hlast
      have hsame := Hub.mailbox?_perform_of_not_registered hother hout
      exact ⟨by rwa [Relay.step, Hub.isRegistered, hsame], by rwa [Relay.step, Hub.unread, hsame]⟩
  | pass isAccepted =>
    obtain rfl : isAccepted = true := husable
    exact hintact.pass
  | read frame =>
    have hlast : frame.isLast = false := by simpa [Step.leavesUsable] using husable
    simpa [Relay.step, Relay.read, operation?, hlast, Hub.released] using hintact
  | stop =>
    by_cases hended : r.passing = .ended
    · rw [Relay.step, stop, if_pos hended, operation?, if_neg (by simp [hended])]
      rw [Option.toList_none, Hub.released, List.append_nil]
      exact ⟨hintact.complete, fun h => absurd hended h, hintact.listening, hintact.drained,
        hintact.goodbye⟩
    · simpa [Relay.step, stop, operation?, hended, hintact.reading hended, Hub.released] using hintact
  | finish =>
    rw [released_finish, List.append_nil, Relay.step, finish]
    split
    · rename_i hending
      rw [Bool.and_eq_true] at hending
      have hended : r.passing = .ended := hintact.ended_of_isEnding hending.1
      obtain ⟨hout, hread⟩ := hintact.drained (.inr hended)
      refine ⟨hintact.complete, hintact.reading, fun h => absurd hended h, fun _ => ⟨?_, ?_⟩,
        hintact.goodbye⟩
      · rw [Hub.isRegistered_detach, hout, Bool.false_and]
      · rwa [Hub.unread_detach]
    · exact hintact

theorem run (hintact : Intact r released) {steps : List Step} (hapart : Apart r.name steps)
    (husable : Usable steps) :
    Intact (r.run steps) (released ++ r.hub.released r.name (r.operations steps)) := by
  induction steps generalizing r released with
  | nil => simpa [Relay.run, operations, Hub.released] using hintact
  | cons step rest ih =>
    have hrest : Apart (r.step step).name rest := name_step r step ▸ hapart.tail
    have hstep := hintact.step hapart.head (husable step (List.mem_cons_self ..))
    have hlater := ih hstep hrest fun later hmem => husable later (List.mem_cons_of_mem _ hmem)
    rw [name_step, hub_step, List.append_assoc, ← Hub.released_append] at hlater
    exact hlater

/-- After a goodbye on a usable socket nothing is missing. -/
theorem sent_eq (hintact : Intact r released)
    (hgoodbye : r.saidGoodbye = true) :
    r.sent = released ∧ r.hub.isRegistered r.name = false ∧ r.hub.unread r.name = [] := by
  have hended := hintact.goodbye.mp hgoodbye
  refine ⟨?_, hintact.drained (.inr hended)⟩
  simpa [hended, Passing.inHand] using hintact.complete

end Intact

/-- How often messages must still be passed on until the dashboard is told goodbye, if none is
    added. Each message is first taken out of the queue and then sent. -/
def remaining (r : Relay) : Nat :=
  match r.passing with
  | .waiting => 2 * (r.hub.unread r.name).length + 2
  | .holding _ => 2 * (r.hub.unread r.name).length + 3
  | .leaving => 1
  | .ended => 0

section Ending

variable {r : Relay} {released : List String}

theorem remaining_pass (hintact : Intact r released) (hout : r.hub.isRegistered r.name = false) :
    (r.pass true).remaining = r.remaining - 1 := by
  rw [Relay.pass]
  cases hpassing : r.passing with
  | waiting =>
    obtain ⟨box, hbox, hlistening⟩ := hintact.exists_mailbox (by simp [hpassing])
    obtain ⟨hafter, hreceived⟩ := Hub.receive_one hbox hlistening
    have hregistered : box.registered = false := (Hub.isRegistered_eq hbox).symm.trans hout
    have hbefore : r.remaining = 2 * box.queued.length + 2 := by
      simp only [remaining, hpassing, Hub.unread_eq hbox]
    rw [hbefore]
    simp only
    rw [hreceived]
    cases hqueued : box.queued with
    | nil => simp [remaining, hregistered, Passing.afterReceiving]
    | cons message rest =>
      simp only [remaining, Passing.afterReceiving, Hub.unread_eq hafter, hqueued, List.tail_cons,
        List.length_cons]
      omega
  | holding message => simp [remaining, hpassing]
  | leaving => simp [remaining, hpassing, endPassing]
  | ended => simp [remaining, hpassing]

theorem remaining_step (hintact : Intact r released) (hout : r.hub.isRegistered r.name = false)
    {step : Step} (hapart : Apart r.name [step]) (husable : step.leavesUsable = true) :
    (r.step step).remaining = r.remaining - [step].count (.pass true) := by
  cases step with
  | elsewhere operation =>
    have hother := hapart operation (List.mem_singleton_self _)
    have hsame := Hub.mailbox?_perform_of_not_registered hother hout
    simp [Relay.step, remaining, Hub.unread, hsame]
  | pass isAccepted =>
    obtain rfl : isAccepted = true := husable
    exact remaining_pass hintact hout
  | read frame =>
    have hlast : frame.isLast = false := by simpa [Step.leavesUsable] using husable
    simp [Relay.step, Relay.read, hlast]
  | stop =>
    by_cases hended : r.passing = .ended
    · simp [Relay.step, stop, remaining, hended]
    · simp [Relay.step, stop, hended, hintact.reading hended]
  | finish =>
    rw [Relay.step, finish]
    split
    · simp [remaining, Hub.unread_detach]
    · simp

theorem remaining_run (hintact : Intact r released) (hout : r.hub.isRegistered r.name = false)
    {steps : List Step} (hapart : Apart r.name steps) (husable : Usable steps) :
    (r.run steps).remaining = r.remaining - steps.count (.pass true) := by
  induction steps generalizing r released with
  | nil => rfl
  | cons step rest ih =>
    have hrest : Apart (r.step step).name rest := name_step r step ▸ hapart.tail
    have hleaves := husable step (List.mem_cons_self ..)
    have hlater := ih (hintact.step hapart.head hleaves)
      ((name_step r step).symm ▸ isRegistered_step hapart.head hout) hrest
      fun later hmem => husable later (List.mem_cons_of_mem _ hmem)
    rw [remaining_step hintact hout hapart.head hleaves, Nat.sub_sub, ← List.count_append] at hlater
    exact hlater

/-- Passing messages on often enough brings a stream to its goodbye, if none are added. -/
theorem saidGoodbye_run (hintact : Intact r released) (hout : r.hub.isRegistered r.name = false)
    {steps : List Step} (hapart : Apart r.name steps) (husable : Usable steps)
    (hcount : 2 * (r.hub.unread r.name).length + 3 ≤ steps.count (.pass true)) :
    (r.run steps).saidGoodbye = true := by
  have hle : r.remaining ≤ 2 * (r.hub.unread r.name).length + 3 := by
    rw [remaining]
    split <;> omega
  have hnone : (r.run steps).remaining = 0 := by
    rw [remaining_run hintact hout hapart husable]
    omega
  apply (hintact.run hapart husable).goodbye.mpr
  rw [remaining] at hnone
  split at hnone
  · cases hnone
  · cases hnone
  · cases hnone
  · assumption

end Ending

end PacketMonitor.Dashboard.Relay

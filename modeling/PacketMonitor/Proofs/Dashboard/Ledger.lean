import PacketMonitor.Dashboard.Relay
import PacketMonitor.Proofs.Hub.Ownership

namespace PacketMonitor.Dashboard

/-- The message on its way to the dashboard. -/
def Passing.inHand : Passing → List String
  | holding message => [message]
  | _ => []

theorem Passing.inHand_afterReceiving {received : List String × Hub.ReceiveEnd}
    (hone : received.1.length ≤ 1) : (afterReceiving received).inHand = received.1 := by
  obtain ⟨messages, ending⟩ := received
  match messages, hone with
  | [], _ => cases ending <;> rfl
  | [message], _ => rfl

theorem Passing.afterReceiving_ne_ended (received : List String × Hub.ReceiveEnd) :
    afterReceiving received ≠ .ended := by
  obtain ⟨_ | ⟨message, rest⟩, ending⟩ := received
  · cases ending <;> simp [afterReceiving]
  · simp [afterReceiving]

namespace Relay

/-- What a step does with the hub. -/
def operation? (r : Relay) : Step → Option Hub.Operation
  | .elsewhere operation => some operation
  | .pass _ =>
    match r.passing with
    | .waiting => some (.receive r.name (some 1))
    | .leaving => some (.abandon r.name)
    | .holding _ | .ended => none
  | .read _ => none
  | .stop => if r.passing ≠ .ended ∧ r.isReading = false then some (.abandon r.name) else none
  | .finish => if r.isEnding = true ∧ r.isOver = false then some (.detach r.name) else none

/-- What some steps do with the hub, in order. -/
def operations (r : Relay) : List Step → List Hub.Operation
  | [] => []
  | step :: rest => (r.operation? step).toList ++ (r.step step).operations rest

section Run

variable (r : Relay)

@[simp] theorem name_step (step : Step) : (r.step step).name = r.name := by
  cases step with
  | elsewhere operation => rfl
  | pass isAccepted =>
    rw [step, pass]
    split
    · rfl
    · split <;> rfl
    · rfl
    · rfl
  | read frame =>
    rw [step, read]
    split <;> rfl
  | stop =>
    rw [step, stop]
    split
    · rfl
    · split <;> rfl
  | finish =>
    rw [step, finish]
    split <;> rfl

/-- A stream is to the hub just one who takes messages out of its queue, one by one. -/
theorem hub_step (step : Step) :
    (r.step step).hub = r.hub.performAll (r.operation? step).toList := by
  cases step with
  | elsewhere operation => rfl
  | pass isAccepted =>
    rw [step, pass, operation?]
    cases r.passing with
    | waiting => rfl
    | holding message =>
      cases isAccepted <;> rfl
    | leaving => rfl
    | ended => rfl
  | read frame =>
    rw [step, read]
    split <;> rfl
  | stop =>
    rw [step, stop, operation?]
    by_cases hended : r.passing = .ended
    · simp [hended, Hub.performAll]
    · cases hreading : r.isReading <;> simp [hended, Hub.performAll, Hub.perform, endPassing]
  | finish =>
    rw [step, finish, operation?]
    cases r.isEnding <;> cases r.isOver <;> simp [Hub.performAll, Hub.perform]

@[simp] theorem name_run (steps : List Step) : (r.run steps).name = r.name := by
  induction steps generalizing r with
  | nil => rfl
  | cons step rest ih => exact (ih (r.step step)).trans (name_step r step)

theorem hub_run (steps : List Step) :
    (r.run steps).hub = r.hub.performAll (r.operations steps) := by
  induction steps generalizing r with
  | nil => rfl
  | cons step rest ih =>
    rw [operations, Hub.performAll_append, ← hub_step]
    exact ih (r.step step)

theorem run_append (early late : List Step) : r.run (early ++ late) = (r.run early).run late :=
  List.foldl_append ..

theorem operations_append (early late : List Step) :
    r.operations (early ++ late) = r.operations early ++ (r.run early).operations late := by
  induction early generalizing r with
  | nil => rfl
  | cons step rest ih =>
    rw [List.cons_append, operations, operations, ih, List.append_assoc]
    rfl

end Run

/-- The messages published around a stream, in order. -/
def announced (steps : List Step) : List String :=
  steps.filterMap fun
    | .elsewhere (.publish message) => some message
    | _ => none

theorem announced_cons (step : Step) (rest : List Step) :
    announced (step :: rest) = announced [step] ++ announced rest :=
  List.filterMap_append (l := [step]) ..

/-- The name of a subscriber is its own, and nobody else does anything in it. -/
def Apart (name : String) (steps : List Step) : Prop :=
  ∀ operation, .elsewhere operation ∈ steps → operation.subscriber? ≠ some name

theorem Apart.head {name : String} {step : Step} {rest : List Step}
    (hapart : Apart name (step :: rest)) : Apart name [step] := by
  intro operation hmem
  rw [List.mem_singleton] at hmem
  exact hapart operation (hmem ▸ List.mem_cons_self ..)

theorem Apart.tail {name : String} {step : Step} {rest : List Step}
    (hapart : Apart name (step :: rest)) : Apart name rest :=
  fun operation hmem => hapart operation (List.mem_cons_of_mem step hmem)

section Own

variable {r : Relay}

/-- A stream publishes nothing. -/
theorem published_operation? (step : Step) :
    Hub.published (r.operation? step).toList = announced [step] := by
  cases step with
  | elsewhere operation => cases operation <;> rfl
  | pass isAccepted =>
    rw [operation?]
    cases r.passing <;> rfl
  | read frame => rfl
  | stop | finish =>
    rw [operation?]
    split <;> rfl

theorem published_operations (steps : List Step) :
    Hub.published (r.operations steps) = announced steps := by
  induction steps generalizing r with
  | nil => rfl
  | cons step rest ih =>
    rw [operations, Hub.published, List.filterMap_append, announced_cons]
    exact congrArg₂ _ (published_operation? step) ih

/-- What a stream does itself with the hub belongs to its subscriber, and it never asks to be
    let in again. -/
theorem subscriber?_operation? {step : Step} {operation : Hub.Operation}
    (hown : ∀ other, step ≠ .elsewhere other) (hoperation : r.operation? step = some operation) :
    operation.subscriber? = some r.name ∧ operation ≠ .attach r.name := by
  cases step with
  | elsewhere other => exact absurd rfl (hown other)
  | pass isAccepted =>
    rw [operation?] at hoperation
    split at hoperation <;> cases hoperation <;> exact ⟨rfl, by simp⟩
  | read frame => cases hoperation
  | stop | finish =>
    rw [operation?] at hoperation
    split at hoperation <;> cases hoperation
    exact ⟨rfl, by simp⟩

theorem attach_not_mem_operation? {step : Step} (hapart : Apart r.name [step]) :
    Hub.Operation.attach r.name ∉ (r.operation? step).toList := by
  rw [Option.mem_toList]
  intro hattach
  by_cases hown : ∀ other, step ≠ .elsewhere other
  · exact (subscriber?_operation? hown hattach).2 rfl
  · rw [not_forall_not] at hown
    obtain ⟨operation, rfl⟩ := hown
    cases hattach
    exact hapart _ (List.mem_singleton_self _) rfl

theorem attach_not_mem_operations {steps : List Step} (hapart : Apart r.name steps) :
    Hub.Operation.attach r.name ∉ r.operations steps := by
  induction steps generalizing r with
  | nil => simp [operations]
  | cons step rest ih =>
    have hrest : Hub.Operation.attach (r.step step).name ∉ (r.step step).operations rest := by
      apply ih
      rw [name_step]
      exact hapart.tail
    rw [name_step] at hrest
    rw [operations, List.mem_append, not_or]
    exact ⟨attach_not_mem_operation? hapart.head, hrest⟩

theorem isRegistered_step {step : Step} (hapart : Apart r.name [step])
    (hout : r.hub.isRegistered r.name = false) :
    (r.step step).hub.isRegistered r.name = false := by
  rw [hub_step]
  exact Hub.isRegistered_performAll_of_not (attach_not_mem_operation? hapart) hout

end Own

theorem released_finish {r : Relay} :
    r.hub.released r.name (r.operation? .finish).toList = [] := by
  rw [operation?]
  split
  · rw [Option.toList_some, Hub.released, Hub.given_eq_nil (by simp), if_neg (by simp)]
    rfl
  · rfl

/-- All that left the queue was passed on in order or is in hand, up to what is lost when the
    stream breaks off. -/
structure Ledger (r : Relay) (released : List String) : Prop where
  in_order : r.sent ++ r.passing.inHand <+: released
  complete : r.passing ≠ .leaving → r.passing ≠ .ended → r.sent ++ r.passing.inHand = released

namespace Ledger

variable {r : Relay} {released : List String}

/-- Nothing is passed on any more. -/
theorem of_last (hsent : r.sent <+: released) (hlast : r.passing = .leaving ∨ r.passing = .ended) :
    Ledger r released := by
  obtain hlast | hlast := hlast <;>
    exact ⟨by simpa [hlast, Passing.inHand] using hsent, by simp [hlast]⟩

theorem sent_prefix (hledger : Ledger r released) : r.sent <+: released :=
  (List.prefix_append ..).trans hledger.in_order

theorem pass (hledger : Ledger r released) (isAccepted : Bool) :
    Ledger (r.pass isAccepted)
      (released ++ r.hub.released r.name (r.operation? (.pass isAccepted)).toList) := by
  rw [Relay.pass, operation?]
  cases hpassing : r.passing with
  | waiting =>
    have hsent : r.sent = released := by
      simpa [hpassing, Passing.inHand] using hledger.complete
    have hhand := Passing.inHand_afterReceiving (Hub.length_receive_le r.hub r.name 1)
    have hafter : r.sent ++ (Passing.afterReceiving (r.hub.receive r.name (some 1)).2).inHand =
        released ++ r.hub.released r.name [.receive r.name (some 1)] := by
      rw [hhand, Hub.released_receive, hsent]
    exact ⟨hafter ▸ List.prefix_rfl, fun _ _ => hafter⟩
  | holding message =>
    have hsent : r.sent ++ [message] = released := by
      simpa [hpassing, Passing.inHand] using hledger.complete
    cases isAccepted with
    | true =>
      have hafter : (r.sent ++ [message]) ++ [] = released ++ [] := by rw [hsent]
      exact ⟨hafter ▸ List.prefix_rfl, fun _ _ => hafter⟩
    | false => exact of_last (hledger.sent_prefix.trans (List.prefix_append ..)) (.inl rfl)
  | leaving => exact of_last (hledger.sent_prefix.trans (List.prefix_append ..)) (.inr rfl)
  | ended => exact of_last (hledger.sent_prefix.trans (List.prefix_append ..)) (.inr hpassing)

/-- One step. Whatever leaves the queue in it was in front of it. -/
theorem step (hledger : Ledger r released) {step : Step} (hapart : Apart r.name [step]) :
    Ledger (r.step step) (released ++ r.hub.released r.name (r.operation? step).toList) := by
  cases step with
  | elsewhere operation =>
    have hother := hapart operation (List.mem_singleton_self _)
    rw [operation?, Option.toList_some, Hub.released_of_apart hother, List.append_nil]
    exact ⟨hledger.in_order, hledger.complete⟩
  | pass isAccepted => exact hledger.pass isAccepted
  | read frame =>
    rw [operation?, Option.toList_none, Hub.released, List.append_nil, Relay.step, Relay.read]
    split
    · exact ⟨hledger.in_order, hledger.complete⟩
    · exact hledger
  | stop =>
    have hsent : r.sent <+: released ++ r.hub.released r.name (r.operation? .stop).toList :=
      hledger.sent_prefix.trans (List.prefix_append ..)
    by_cases hended : r.passing = .ended
    · rw [Relay.step, stop, if_pos hended]
      exact of_last hsent (.inr hended)
    · cases hreading : r.isReading with
      | true => simpa [Relay.step, stop, operation?, hended, hreading, Hub.released] using hledger
      | false =>
        simp only [Relay.step, stop, if_neg hended, hreading, Bool.false_eq_true, if_false]
        exact of_last hsent (.inr rfl)
  | finish =>
    rw [released_finish, List.append_nil, Relay.step, finish]
    split
    · exact ⟨hledger.in_order, hledger.complete⟩
    · exact hledger

theorem run (hledger : Ledger r released) {steps : List Step} (hapart : Apart r.name steps) :
    Ledger (r.run steps) (released ++ r.hub.released r.name (r.operations steps)) := by
  induction steps generalizing r released with
  | nil => simpa [Relay.run, operations, Hub.released] using hledger
  | cons step rest ih =>
    have hrest : Apart (r.step step).name rest := name_step r step ▸ hapart.tail
    have hlater := ih (hledger.step hapart.head) hrest
    rw [name_step, hub_step, List.append_assoc, ← Hub.released_append] at hlater
    exact hlater

end Ledger

end Relay

end PacketMonitor.Dashboard

import PacketMonitor.Hub.Operation
import PacketMonitor.Proofs.History

namespace PacketMonitor.Hub

/-- Whether a mailbox takes one message more. -/
def Mailbox.Accepts (limit : Nat) (box : Mailbox) : Prop :=
  box.registered = true ∧ box.reader = .listening ∧ box.queued.length < limit

theorem Mailbox.offer_of_accepts {limit : Nat} {box : Mailbox} (haccepts : box.Accepts limit)
    (message : String) :
    box.offer limit message = { box with queued := box.queued ++ [message] } := by
  obtain ⟨hregistered, hroom⟩ := haccepts
  simp [Mailbox.offer, hregistered, hroom]

theorem Mailbox.offer_of_not_accepts {limit : Nat} {box : Mailbox}
    (hrefuses : ¬ box.Accepts limit) (message : String) :
    box.offer limit message = { box with registered := false } := by
  unfold Mailbox.offer
  split
  · rename_i hunregistered
    have hfalse : box.registered = false := by simpa using hunregistered
    rw [← hfalse]
  · rename_i hregistered
    rw [if_neg fun hroom => hrefuses ⟨by simpa using hregistered, hroom⟩]

/-- What a mailbox becomes when its owner reads from it. -/
def Mailbox.read (limit? : Option Nat) (box : Mailbox) : Mailbox :=
  if box.reader = .gone then box
  else { box with queued := box.queued.drop (limit?.getD box.queued.length) }

/-- What an operation does to the mailbox of a subscriber, whoever it is aimed
    at. The other subscribers have no part in it. -/
def Mailbox.after (limit : Nat) (name : String) (box : Mailbox) : Operation → Mailbox
  | .publish message => box.offer limit message
  | .attach _ => box
  | .detach other => if other = name then { box with registered := false } else box
  | .receive other limit? => if other = name then box.read limit? else box
  | .close other =>
    if other = name then { box with reader := if box.reader = .gone then .gone else .closed } else box
  | .abandon other => if other = name then { box with reader := .gone, queued := [] } else box

theorem mailbox?_update (hub : Hub) (name other : String) (change : Mailbox → Mailbox) :
    (hub.update other change).mailbox? name =
      (hub.mailbox? name).map fun box => if other = name then change box else box := by
  simp only [mailbox?, update, List.find?_map, Option.map_map]
  generalize hfound : List.find? _ hub.mailboxes = found
  cases found with
  | none =>
    have hnone : hub.mailboxes.find? (·.1 == name) = none := hfound
    rw [hnone]
    rfl
  | some entry =>
    have hsome : hub.mailboxes.find? (·.1 == name) = some entry := hfound
    have hname : entry.1 = name := by simpa using List.find?_some hsome
    subst hname
    rw [hsome]
    by_cases hother : other = entry.1
    · simp [hother]
    · simp [hother, Ne.symm hother]

theorem mailbox?_publish (hub : Hub) (message name : String) :
    (hub.publish message).1.mailbox? name =
      (hub.mailbox? name).map (Mailbox.offer hub.settings.queueLimit message) := by
  simp only [mailbox?, publish, List.find?_map, Option.map_map]
  rfl

theorem mailbox?_attach_self {hub joined : Hub} {name : String} {count : Nat}
    (hattach : hub.attach name = .ok (joined, count)) :
    joined.mailbox? name = some { queued := hub.history.toList } ∧ count = hub.history.size := by
  unfold attach at hattach
  split at hattach
  · cases hattach
  · cases hattach
    have hothers : (hub.mailboxes.filter (·.1 != name)).find? (·.1 == name) = none := by
      simp
    exact ⟨by simp [mailbox?, List.find?_append, hothers], by simp⟩

theorem mailbox?_attach_other {hub joined : Hub} {name other : String} {count : Nat}
    (hattach : hub.attach other = .ok (joined, count)) (hother : other ≠ name) :
    joined.mailbox? name = hub.mailbox? name := by
  unfold attach at hattach
  split at hattach
  · cases hattach
  · cases hattach
    have hkeep : (hub.mailboxes.filter (·.1 != other)).find? (·.1 == name) =
        hub.mailboxes.find? (·.1 == name) := by
      rw [List.find?_filter]
      congr 1
      funext entry
      by_cases hentry : entry.1 = name
      · simp [hentry, hother.symm]
      · simp [hentry]
    simp [mailbox?, List.find?_append, hkeep, hother]

theorem mailbox?_receive (hub : Hub) (name other : String) (limit? : Option Nat) :
    (hub.receive other limit?).1.mailbox? name =
      (hub.mailbox? name).map fun box => if other = name then box.read limit? else box := by
  unfold receive
  by_cases hother : other = name
  · subst hother
    cases hbox : hub.mailbox? other with
    | none => simp [hbox]
    | some box =>
      simp only
      split
      · rename_i hgone
        simp [hbox, Mailbox.read, hgone]
      · rename_i hgone
        have hdrop : box.queued.drop (box.queued.take (limit?.getD box.queued.length)).length =
            box.queued.drop (limit?.getD box.queued.length) := by
          rw [List.drop_eq_drop_iff]
          simp
        simp only [mailbox?_update, hbox, Option.map_some, if_true, hdrop, Mailbox.read, if_neg hgone]
  · simp only [hother, if_false, Option.map_id']
    cases hub.mailbox? other with
    | none => rfl
    | some box =>
      simp only
      split
      · rfl
      · simp [mailbox?_update, hother]

/-- An operation reaches a mailbox only in the way its owner's mailbox alone
    decides, unless the name is given to a new subscriber. -/
theorem mailbox?_perform (hub : Hub) (name : String) {operation : Operation}
    (hname : operation ≠ .attach name) :
    (hub.perform operation).1.mailbox? name =
      (hub.mailbox? name).map fun box => box.after hub.settings.queueLimit name operation := by
  cases operation with
  | publish message => exact mailbox?_publish hub message name
  | attach other =>
    have hother : other ≠ name := by
      rintro rfl
      exact hname rfl
    simp only [perform, Mailbox.after, Option.map_id']
    split
    · rename_i joined count hattach
      exact mailbox?_attach_other hattach hother
    · rfl
  | detach other => exact mailbox?_update hub name other _
  | receive other limit? => exact mailbox?_receive hub name other limit?
  | close other => exact mailbox?_update hub name other _
  | abandon other => exact mailbox?_update hub name other _

theorem perform_attach_of_replayed {hub : Hub} {name : String} {count : Nat}
    (hattach : (hub.perform (.attach name)).2 = .replayed count) :
    hub.attach name = .ok ((hub.perform (.attach name)).1, count) := by
  simp only [perform] at hattach ⊢
  split at hattach
  · rename_i hok
    cases hattach
    rw [hok]
  · cases hattach

@[simp] theorem settings_perform (hub : Hub) (operation : Operation) :
    (hub.perform operation).1.settings = hub.settings := by
  cases operation with
  | attach name =>
    simp only [perform, attach]
    split
    · rename_i hattach
      split at hattach <;> cases hattach
      rfl
    · rfl
  | receive name limit? =>
    simp only [perform, receive]
    split
    · rfl
    · split <;> rfl
  | _ => rfl

@[simp] theorem settings_performAll (hub : Hub) (operations : List Operation) :
    (hub.performAll operations).settings = hub.settings := by
  induction operations generalizing hub with
  | nil => rfl
  | cons operation rest ih => exact (ih _).trans (settings_perform hub operation)

theorem attach_not_mem_cons {name : String} {operation : Operation} {rest : List Operation}
    (hname : Operation.attach name ∉ operation :: rest) :
    operation ≠ .attach name ∧ Operation.attach name ∉ rest := by
  rw [List.mem_cons, not_or] at hname
  exact ⟨Ne.symm hname.1, hname.2⟩

theorem mailbox?_performAll (hub : Hub) (name : String) (operations : List Operation)
    (hname : Operation.attach name ∉ operations) :
    (hub.performAll operations).mailbox? name =
      (hub.mailbox? name).map fun box =>
        operations.foldl (Mailbox.after hub.settings.queueLimit name) box := by
  induction operations generalizing hub with
  | nil => simp [performAll]
  | cons operation rest ih =>
    obtain ⟨hoperation, hrest⟩ := attach_not_mem_cons hname
    have hlater := ih (hub.perform operation).1 hrest
    rw [mailbox?_perform hub name hoperation, settings_perform, Option.map_map] at hlater
    exact hlater

end PacketMonitor.Hub

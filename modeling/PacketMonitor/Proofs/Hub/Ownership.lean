import PacketMonitor.Proofs.Hub.Bystanders
import PacketMonitor.Proofs.Hub.Registry

namespace PacketMonitor.Hub

section Apart

variable {hub : Hub} {name : String} {operation : Operation}

/-- What belongs to nobody or to another subscriber takes nothing out of a queue. -/
theorem released_of_apart (hapart : operation.subscriber? ≠ some name) :
    hub.released name [operation] = [] := by
  have hreceive : ∀ limit?, operation ≠ .receive name limit? := by
    rintro limit? rfl
    exact hapart rfl
  have habandon : operation ≠ .abandon name := by
    rintro rfl
    exact hapart rfl
  rw [released, given_eq_nil hreceive, if_neg habandon]
  rfl

theorem released_receive (limit? : Option Nat) :
    hub.released name [.receive name limit?] = (hub.receive name limit?).2.1 := by
  simp [released, perform, Outcome.given]

theorem released_abandon : hub.released name [.abandon name] = hub.unread name := by
  rw [released, given_eq_nil (by simp), if_pos rfl, released, List.nil_append, List.append_nil]

theorem length_receive_le (hub : Hub) (name : String) (limit : Nat) :
    (hub.receive name (some limit)).2.1.length ≤ limit := by
  unfold receive
  split
  · exact Nat.zero_le limit
  · split
    · exact Nat.zero_le limit
    · exact List.length_take_le ..

/-- Whoever listens gets the oldest message, and without one it learns whether any can come. -/
theorem receive_one {box : Mailbox} (hbox : hub.mailbox? name = some box)
    (hlistening : box.reader = .listening) :
    (hub.receive name (some 1)).1.mailbox? name = some { box with queued := box.queued.tail } ∧
      (hub.receive name (some 1)).2 =
        match box.queued with
        | message :: _ => ([message], .limit)
        | [] => ([], if box.registered then .waiting else .closed) := by
  constructor
  · simp [mailbox?_receive, hbox, Mailbox.read, hlistening]
  · simp only [receive, hbox, hlistening, reduceCtorEq, if_false]
    cases box.queued with
    | nil => simp [Mailbox.receiveEnd, hlistening]
    | cons message rest => simp [Mailbox.receiveEnd]

theorem mailbox?_perform_of_apart (hub : Hub) (hapart : operation.subscriber? ≠ some name) :
    (hub.perform operation).1.mailbox? name = hub.mailbox? name ∨
      ∃ message, operation = .publish message ∧ (hub.perform operation).1.mailbox? name =
        (hub.mailbox? name).map (Mailbox.offer hub.settings.queueLimit message) := by
  have hattach : operation ≠ .attach name := by
    rintro rfl
    exact hapart rfl
  have hafter := mailbox?_perform hub name hattach
  cases operation with
  | publish message => exact .inr ⟨message, rfl, hafter⟩
  | attach other => exact .inl (by simpa [Mailbox.after] using hafter)
  | detach other | receive other limit? | close other | abandon other =>
    have hother : other ≠ name := fun h => hapart (congrArg some h)
    exact .inl (by simpa [Mailbox.after, hother] using hafter)

theorem reader?_perform_of_apart (hapart : operation.subscriber? ≠ some name) :
    (hub.perform operation).1.reader? name = hub.reader? name := by
  rw [reader?, reader?]
  obtain hsame | ⟨message, -, hoffer⟩ := mailbox?_perform_of_apart hub hapart
  · rw [hsame]
  · rw [hoffer, Option.map_map]
    congr 1
    funext box
    by_cases haccepts : box.Accepts hub.settings.queueLimit
    · rw [Function.comp_apply, Mailbox.offer_of_accepts haccepts]
    · rw [Function.comp_apply, Mailbox.offer_of_not_accepts haccepts]

/-- The mailbox of whoever was let go is not touched by others. -/
theorem mailbox?_perform_of_not_registered (hapart : operation.subscriber? ≠ some name)
    (hout : hub.isRegistered name = false) :
    (hub.perform operation).1.mailbox? name = hub.mailbox? name := by
  obtain hsame | ⟨message, -, hoffer⟩ := mailbox?_perform_of_apart hub hapart
  · exact hsame
  · rw [hoffer]
    cases hbox : hub.mailbox? name with
    | none => rfl
    | some box =>
      have hregistered : box.registered = false := (isRegistered_eq hbox).symm.trans hout
      simp [Mailbox.offer, hregistered]

end Apart

/-- Whoever was let go stays so while it is not let in anew. -/
theorem isRegistered_performAll_of_not {hub : Hub} {name : String} {operations : List Operation}
    (hname : Operation.attach name ∉ operations) (hout : hub.isRegistered name = false) :
    (hub.performAll operations).isRegistered name = false := by
  cases hbox : hub.mailbox? name with
  | none =>
    rw [isRegistered, mailbox?_performAll hub name operations hname, hbox]
    rfl
  | some box =>
    obtain ⟨live, -, -, -, hnone⟩ := released_append_unread hbox operations hname
    exact (hnone ((isRegistered_eq hbox).symm.trans hout)).2

/-- What a subscriber does with its own queue is nothing to the others. -/
theorem frame_of_subscriber {hub : Hub} {name : String} {operation : Operation}
    (hown : operation.subscriber? = some name) (hattach : operation ≠ .attach name) :
    (hub.perform operation).1.history = hub.history ∧
      ∀ other, other ≠ name → (hub.perform operation).1.mailbox? other = hub.mailbox? other := by
  constructor
  · cases operation with
    | publish message => cases hown
    | attach own =>
      obtain rfl : own = name := Option.some.inj hown
      exact absurd rfl hattach
    | receive own limit? =>
      simp only [perform, receive]
      split
      · rfl
      · split <;> rfl
    | detach own | close own | abandon own => rfl
  · intro other hother
    have hapart : operation.subscriber? ≠ some other := by
      rw [hown]
      exact fun h => hother (Option.some.inj h).symm
    obtain hsame | ⟨message, rfl, -⟩ := mailbox?_perform_of_apart hub hapart
    · exact hsame
    · cases hown

/-- What a subscriber is given does not depend on the point at which it is looked at. While it
    is registered it lacks none of what was published, and later nothing is added. -/
theorem released_append_unread_of_split {hub : Hub} {name : String} {box : Mailbox}
    (hbox : hub.mailbox? name = some box) (early late : List Operation)
    (hname : Operation.attach name ∉ early ++ late) :
    ∃ live more,
      hub.released name early ++ (hub.performAll early).unread name = box.queued ++ live ∧
      hub.released name (early ++ late) ++ (hub.performAll (early ++ late)).unread name =
        box.queued ++ (live ++ more) ∧
      live <+: published early ∧
      ((hub.performAll early).isRegistered name = true → live = published early) ∧
      ((hub.performAll early).isRegistered name = false → more = []) := by
  rw [List.mem_append, not_or] at hname
  have hmiddle := mailbox?_performAll hub name early hname.1
  rw [hbox, Option.map_some] at hmiddle
  obtain ⟨live, hbalance, hfront, hall, -⟩ := released_append_unread hbox early hname.1
  obtain ⟨more, hlater, -, -, hnone⟩ := released_append_unread hmiddle late hname.2
  refine ⟨live, more, hbalance, ?_, hfront, hall, fun hout => ?_⟩
  · rw [released_append, performAll_append, List.append_assoc, hlater, ← List.append_assoc,
      ← unread_eq hmiddle, hbalance, List.append_assoc]
  · exact (hnone ((isRegistered_eq hmiddle).symm.trans hout)).1

end PacketMonitor.Hub

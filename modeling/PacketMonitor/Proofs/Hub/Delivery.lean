import PacketMonitor.Proofs.Hub.Mailbox

namespace PacketMonitor.Hub

/-- The messages published by some operations, in order. -/
def published (operations : List Operation) : List String :=
  operations.filterMap fun
    | .publish message => some message
    | _ => none

/-- What a subscriber has not read yet. -/
def unread (hub : Hub) (name : String) : List String :=
  ((hub.mailbox? name).map (·.queued)).getD []

/-- The messages that the outcome of an operation gives to a subscriber. -/
def Outcome.given (name : String) (operation : Operation) : Outcome → List String
  | .received messages _ =>
    match operation with
    | .receive other _ => if other = name then messages else []
    | _ => []
  | _ => []

/-- The messages that a subscriber takes during some operations, in order. -/
def taken (hub : Hub) (name : String) : List Operation → List String
  | [] => []
  | operation :: rest =>
    (hub.perform operation).2.given name operation ++ taken (hub.perform operation).1 name rest

/-- The messages that are lost unread when a subscriber goes away. -/
def discarded (hub : Hub) (name : String) : List Operation → List String
  | [] => []
  | operation :: rest =>
    (if operation = .abandon name then hub.unread name else []) ++
      discarded (hub.perform operation).1 name rest

/-- All that a subscriber was ever given: what it took, what was lost with it,
    and what it may still read. -/
def allotted (hub : Hub) (name : String) (operations : List Operation) : List String :=
  hub.taken name operations ++ hub.discarded name operations ++
    (hub.performAll operations).unread name

/-- What leaves a mailbox during some operations, read or lost, in order. -/
def released (hub : Hub) (name : String) : List Operation → List String
  | [] => []
  | operation :: rest =>
    (hub.perform operation).2.given name operation ++
      (if operation = .abandon name then hub.unread name else []) ++
      released (hub.perform operation).1 name rest

theorem performAll_append (hub : Hub) (early late : List Operation) :
    hub.performAll (early ++ late) = (hub.performAll early).performAll late := by
  simp [performAll]

theorem released_append (hub : Hub) (name : String) (early late : List Operation) :
    hub.released name (early ++ late) =
      hub.released name early ++ (hub.performAll early).released name late := by
  induction early generalizing hub with
  | nil => rfl
  | cons operation rest ih =>
    simp only [List.cons_append, released, ih, List.append_assoc]
    rfl

theorem given_receive {hub : Hub} {name : String} {box : Mailbox} (limit? : Option Nat)
    (hbox : hub.mailbox? name = some box) :
    (hub.perform (.receive name limit?)).2.given name (.receive name limit?) =
      if box.reader = .gone then [] else box.queued.take (limit?.getD box.queued.length) := by
  simp only [perform, receive, hbox]
  split
  · simp [Outcome.given]
  · simp [Outcome.given]

theorem given_eq_nil {hub : Hub} {name : String} {operation : Operation}
    (hreceive : ∀ limit?, operation ≠ .receive name limit?) :
    (hub.perform operation).2.given name operation = [] := by
  cases operation with
  | receive other limit? =>
    have hother : other ≠ name := by
      rintro rfl
      exact hreceive limit? rfl
    simp only [perform, Outcome.given, if_neg hother]
  | attach other =>
    simp only [perform]
    split <;> rfl
  | _ => rfl

/-- An operation only moves messages from the front of a mailbox to its owner, or
    away with it, and puts at most the one just published at the end. -/
theorem given_append_queued_after {hub : Hub} {name : String} {box : Mailbox}
    (hbox : hub.mailbox? name = some box) (operation : Operation)
    (hpublish : ∀ message, operation ≠ .publish message) :
    (hub.perform operation).2.given name operation ++
        (if operation = .abandon name then hub.unread name else []) ++
        (box.after hub.settings.queueLimit name operation).queued = box.queued := by
  cases operation with
  | publish message => exact absurd rfl (hpublish message)
  | receive other limit? =>
    by_cases hother : other = name
    · subst hother
      rw [given_receive limit? hbox]
      by_cases hgone : box.reader = .gone
      · simp [Mailbox.after, Mailbox.read, hgone]
      · simp [Mailbox.after, Mailbox.read, hgone]
    · rw [given_eq_nil (by simp [hother])]
      simp [Mailbox.after, hother]
  | abandon other =>
    rw [given_eq_nil (by simp)]
    by_cases hother : other = name <;> simp [Mailbox.after, hother, unread, hbox]
  | attach other =>
    rw [given_eq_nil (by simp)]
    simp [Mailbox.after]
  | detach other =>
    rw [given_eq_nil (by simp)]
    by_cases hother : other = name <;> simp [Mailbox.after, hother]
  | close other =>
    rw [given_eq_nil (by simp)]
    by_cases hother : other = name <;> simp [Mailbox.after, hother]

theorem registered_after {limit : Nat} {name : String} {box : Mailbox} {operation : Operation}
    (hregistered : box.registered = false) :
    (box.after limit name operation).registered = false := by
  cases operation with
  | publish message =>
    have hrefuses : ¬ box.Accepts limit := by simp [Mailbox.Accepts, hregistered]
    simp [Mailbox.after, Mailbox.offer_of_not_accepts hrefuses]
  | attach other => exact hregistered
  | receive other limit? =>
    simp only [Mailbox.after, Mailbox.read]
    split
    · split <;> exact hregistered
    · exact hregistered
  | detach other | close other | abandon other =>
    simp only [Mailbox.after]
    split <;> simp [hregistered]

theorem isRegistered_eq {hub : Hub} {name : String} {box : Mailbox}
    (hbox : hub.mailbox? name = some box) : hub.isRegistered name = box.registered := by
  simp [isRegistered, hbox]

/-- The law of one mailbox: what leaves it and what stays in it is what was in it
    before, followed by the published messages as far as they were accepted. -/
theorem released_append_unread {hub : Hub} {name : String} {box : Mailbox}
    (hbox : hub.mailbox? name = some box) (operations : List Operation)
    (hname : Operation.attach name ∉ operations) :
    ∃ live, hub.released name operations ++ (hub.performAll operations).unread name =
        box.queued ++ live ∧
      live <+: published operations ∧
      ((hub.performAll operations).isRegistered name = true → live = published operations) ∧
      (box.registered = false →
        live = [] ∧ (hub.performAll operations).isRegistered name = false) := by
  induction operations generalizing hub box with
  | nil =>
    refine ⟨[], ?_, List.prefix_rfl, fun _ => rfl, fun hregistered => ⟨rfl, ?_⟩⟩
    · simp [released, performAll, unread, hbox]
    · simpa [performAll, isRegistered_eq hbox] using hregistered
  | cons operation rest ih =>
    obtain ⟨hoperation, hrest⟩ := attach_not_mem_cons hname
    have hnext := mailbox?_perform hub name hoperation
    rw [hbox, Option.map_some] at hnext
    obtain ⟨live, hbalance, hfront, hall, hgone⟩ := ih hnext hrest
    change released _ name rest ++ ((hub.perform operation).1.performAll rest).unread name = _
      at hbalance
    by_cases hpublish : ∃ message, operation = .publish message
    · obtain ⟨message, rfl⟩ := hpublish
      by_cases haccepts : box.Accepts hub.settings.queueLimit
      · refine ⟨message :: live, ?_, ?_, ?_, ?_⟩
        · change (_ ++ released _ name rest) ++ ((hub.perform _).1.performAll rest).unread name = _
          rw [given_eq_nil (by simp), List.append_assoc, hbalance]
          simp [Mailbox.after, Mailbox.offer_of_accepts haccepts]
        · simpa [published] using hfront
        · intro hregistered
          simpa [published] using hall hregistered
        · intro hregistered
          simp [haccepts.1] at hregistered
      · have hoffer := Mailbox.offer_of_not_accepts haccepts message
        obtain ⟨rfl, hout⟩ := hgone (by simp [Mailbox.after, hoffer])
        refine ⟨[], ?_, List.nil_prefix, ?_, fun _ => ⟨rfl, hout⟩⟩
        · change (_ ++ released _ name rest) ++ ((hub.perform _).1.performAll rest).unread name = _
          rw [given_eq_nil (by simp), List.append_assoc, hbalance]
          simp [Mailbox.after, hoffer]
        · intro hregistered
          change ((hub.perform _).1.performAll rest).isRegistered name = true at hregistered
          rw [hout] at hregistered
          cases hregistered
    · have hpublished : published (operation :: rest) = published rest := by
        cases operation with
        | publish message => exact absurd ⟨message, rfl⟩ hpublish
        | _ => rfl
      have hmoved := given_append_queued_after hbox operation fun message h => hpublish ⟨message, h⟩
      refine ⟨live, ?_, hpublished ▸ hfront, hpublished ▸ hall, fun h => hgone (registered_after h)⟩
      change (_ ++ _ ++ released _ name rest) ++ ((hub.perform _).1.performAll rest).unread name = _
      rw [List.append_assoc, hbalance, ← List.append_assoc, hmoved]

/-- Only going away makes a subscriber gone, and it stays so. -/
theorem reader_after_eq_gone_iff {limit : Nat} {name : String} {box : Mailbox}
    {operation : Operation} :
    (box.after limit name operation).reader = .gone ↔
      box.reader = .gone ∨ operation = .abandon name := by
  cases operation with
  | publish message =>
    by_cases haccepts : box.Accepts limit
    · simp [Mailbox.after, Mailbox.offer_of_accepts haccepts]
    · simp [Mailbox.after, Mailbox.offer_of_not_accepts haccepts]
  | attach other => simp [Mailbox.after]
  | receive other limit? =>
    simp only [Mailbox.after, Mailbox.read]
    split
    · split <;> simp
    · simp
  | detach other => by_cases hother : other = name <;> simp [Mailbox.after, hother]
  | close other => by_cases hother : other = name <;> simp [Mailbox.after, hother]
  | abandon other => by_cases hother : other = name <;> simp [Mailbox.after, hother]

/-- Whoever is gone takes nothing more. -/
theorem taken_eq_nil_of_gone {hub : Hub} {name : String} {box : Mailbox}
    (hbox : hub.mailbox? name = some box) (hgone : box.reader = .gone) (operations : List Operation)
    (hname : Operation.attach name ∉ operations) : hub.taken name operations = [] := by
  induction operations generalizing hub box with
  | nil => rfl
  | cons operation rest ih =>
    obtain ⟨hoperation, hrest⟩ := attach_not_mem_cons hname
    have hnext := mailbox?_perform hub name hoperation
    rw [hbox, Option.map_some] at hnext
    have hgiven : (hub.perform operation).2.given name operation = [] := by
      by_cases hreceive : ∃ limit?, operation = .receive name limit?
      · obtain ⟨limit?, rfl⟩ := hreceive
        simp [given_receive limit? hbox, hgone]
      · exact given_eq_nil fun limit? h => hreceive ⟨limit?, h⟩
    rw [taken, hgiven, List.nil_append]
    exact ih hnext (reader_after_eq_gone_iff.mpr (.inl hgone)) hrest

/-- What leaves a mailbox is first what its owner takes, and then what is lost
    when it goes away. -/
theorem released_eq_taken_append_discarded {hub : Hub} {name : String} {box : Mailbox}
    (hbox : hub.mailbox? name = some box) (operations : List Operation)
    (hname : Operation.attach name ∉ operations) :
    hub.released name operations = hub.taken name operations ++ hub.discarded name operations := by
  induction operations generalizing hub box with
  | nil => rfl
  | cons operation rest ih =>
    obtain ⟨hoperation, hrest⟩ := attach_not_mem_cons hname
    have hnext := mailbox?_perform hub name hoperation
    rw [hbox, Option.map_some] at hnext
    rw [released, taken, discarded, ih hnext hrest]
    by_cases habandon : operation = .abandon name
    · subst habandon
      rw [taken_eq_nil_of_gone hnext (by simp [Mailbox.after]) rest hrest]
      simp
    · simp [habandon]

theorem allotted_eq {hub : Hub} {name : String} {box : Mailbox}
    (hbox : hub.mailbox? name = some box) (operations : List Operation)
    (hname : Operation.attach name ∉ operations) :
    hub.allotted name operations =
      hub.released name operations ++ (hub.performAll operations).unread name := by
  rw [allotted, released_eq_taken_append_discarded hbox operations hname]

/-- The history that some operations leave behind does not depend on the
    subscribers. -/
theorem holdsLast_performAll (hub : Hub) {capacity : Nat} {earlier : List String}
    (hlast : hub.history.HoldsLast capacity earlier) (operations : List Operation) :
    (hub.performAll operations).history.HoldsLast capacity (earlier ++ published operations) := by
  induction operations generalizing hub earlier with
  | nil => simpa [performAll, published] using hlast
  | cons operation rest ih =>
    cases operation with
    | publish message =>
      have hpublished : published (.publish message :: rest) = [message] ++ published rest := rfl
      rw [hpublished, ← List.append_assoc]
      exact ih (hub.publish message).1 (hlast.push message)
    | attach name =>
      refine ih (hub.perform (.attach name)).1 ?_
      simp only [perform, attach]
      split
      · rename_i hattach
        split at hattach <;> cases hattach
        exact hlast
      · exact hlast
    | receive name limit? =>
      refine ih (hub.receive name limit?).1 ?_
      unfold receive
      split
      · exact hlast
      · split <;> exact hlast
    | detach name => exact ih (hub.detach name).1 hlast
    | close name => exact ih (hub.close name) hlast
    | abandon name => exact ih (hub.abandon name) hlast

/-- Messages offered one after the other to a new subscriber are all queued while
    there is room for them. -/
theorem foldl_offer_of_room {limit : Nat} (queued messages : List String)
    (hroom : queued.length + messages.length ≤ limit) :
    messages.foldl (fun box message => Mailbox.offer limit message box) { queued } =
      { queued := queued ++ messages } := by
  induction messages generalizing queued with
  | nil => simp
  | cons message rest ih =>
    rw [List.length_cons] at hroom
    have haccepts : ({ queued } : Mailbox).Accepts limit := ⟨rfl, rfl, by simp only; omega⟩
    rw [List.foldl_cons, Mailbox.offer_of_accepts haccepts]
    simpa using ih (queued ++ [message]) (by simp only [List.length_append, List.length_singleton]; omega)

/-- A whole history always fits into a new mailbox: filling it at once, as attaching
    does, is the same as offering the history entry by entry. -/
theorem foldl_offer_history (settings : Settings) (operations : List Operation) :
    let hub := (empty settings).performAll operations
    hub.history.toList.foldl
        (fun box message => Mailbox.offer hub.settings.queueLimit message box) {} =
      { queued := hub.history.toList } := by
  intro hub
  have hlast := holdsLast_performAll (empty settings) (History.holdsLast_empty _) operations
  refine foldl_offer_of_room [] hub.history.toList ?_
  have hsize : hub.history.size ≤ settings.historyCapacity := by
    rw [hlast.size_eq]
    exact Nat.min_le_right _ _
  have hsettings : hub.settings = settings := settings_performAll _ _
  rw [List.length_nil, History.length_toList, hsettings, Settings.queueLimit]
  omega

/-- Every subscriber, as long as its name is not given to another, is allotted the
    last events from before its coming, as many as the history holds, and then the
    events published since, in order, without gap or repetition. While it is
    registered it misses none of them. Once the hub has let go of it, nothing is added
    any more. -/
theorem allotted_eq_replay_append_live (settings : Settings) (before after : List Operation)
    (name : String) (count : Nat)
    (hattach : (((empty settings).performAll before).perform (.attach name)).2 = .replayed count)
    (hname : Operation.attach name ∉ after) :
    let joined := (((empty settings).performAll before).perform (.attach name)).1
    let replay := (published before).drop ((published before).length - settings.historyCapacity)
    count = replay.length ∧
    ∃ live, joined.allotted name after = replay ++ live ∧
      live <+: published after ∧
      ((joined.performAll after).isRegistered name = true → live = published after) ∧
      ∀ early late, after = early ++ late →
        (joined.performAll early).isRegistered name = false →
          joined.allotted name early = replay ++ live := by
  intro joined replay
  have hlast : ((empty settings).performAll before).history.HoldsLast settings.historyCapacity
      (published before) := by
    simpa only [List.nil_append] using
      holdsLast_performAll (empty settings) (History.holdsLast_empty _) before
  obtain ⟨hbox, hcount⟩ := mailbox?_attach_self (perform_attach_of_replayed hattach)
  rw [hlast.toList_eq] at hbox
  obtain ⟨live, hbalance, hfront, hall, -⟩ := released_append_unread hbox after hname
  refine ⟨?_, live, (allotted_eq hbox after hname).trans hbalance, hfront, hall, ?_⟩
  · rw [hcount, ← History.length_toList, hlast.toList_eq]
  · intro early late hsplit hgone
    subst hsplit
    have hearly : Operation.attach name ∉ early := fun h => hname (List.mem_append_left late h)
    have hlate : Operation.attach name ∉ late := fun h => hname (List.mem_append_right early h)
    have hmiddle := mailbox?_performAll joined name early hearly
    rw [hbox, Option.map_some] at hmiddle
    obtain ⟨rest, hrest, -, -, hnone⟩ := released_append_unread hmiddle late hlate
    obtain ⟨rfl, -⟩ := hnone ((isRegistered_eq hmiddle).symm.trans hgone)
    calc joined.allotted name early
        = joined.released name early ++ (joined.performAll early).unread name :=
          allotted_eq hbox early hearly
      _ = joined.released name early ++ ((joined.performAll early).released name late ++
            ((joined.performAll early).performAll late).unread name) := by
          rw [hrest, List.append_nil, unread, hmiddle]
          rfl
      _ = joined.released name (early ++ late) ++
            (joined.performAll (early ++ late)).unread name := by
          rw [released_append, performAll_append, List.append_assoc]
      _ = replay ++ live := hbalance

/-- A subscriber that lags behind keeps what it was given before it was let go. -/
theorem allotted_lagging_subscriber :
    let settings : Settings := { historyCapacity := 2, subscriberQueue := 1 }
    let before : List Operation := [.publish "a", .publish "b", .publish "c"]
    let after : List Operation :=
      [.publish "d", .receive "x" (some 1), .publish "e", .publish "f", .receive "x" none, .publish "g"]
    let joined := (((empty settings).performAll before).perform (.attach "x")).1
    (((empty settings).performAll before).perform (.attach "x")).2 = .replayed 2 ∧
      joined.allotted "x" after = ["b", "c"] ++ ["d", "e"] ∧
      ∃ live, joined.allotted "x" after = ["b", "c"] ++ live ∧ live <+: ["d", "e", "f", "g"] := by
  intro settings before after joined
  obtain ⟨-, live, hallotted, hfront, -⟩ :=
    allotted_eq_replay_append_live settings before after "x" 2 (by decide) (by decide)
  exact ⟨by decide, by decide, live, hallotted, hfront⟩

end PacketMonitor.Hub

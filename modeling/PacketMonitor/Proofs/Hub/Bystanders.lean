import PacketMonitor.Proofs.Hub.Delivery

namespace PacketMonitor.Hub

/-- The subscriber that an operation belongs to. Publishing belongs to nobody. -/
def Operation.subscriber? : Operation → Option String
  | .publish _ => none
  | .attach name | .detach name | .receive name _ | .close name | .abandon name => some name

/-- Whether an operation belongs to one of the subscribers that are kept. -/
def Operation.isOf (kept : String → Bool) (operation : Operation) : Bool :=
  operation.subscriber?.any kept

/-- Whether an operation is still there when all that others do is left out. -/
def Operation.remains (kept : String → Bool) (operation : Operation) : Bool :=
  operation.subscriber?.all kept

/-- Some operations carried out in order, each with what it gives back. -/
def trace (hub : Hub) : List Operation → List (Operation × Outcome)
  | [] => []
  | operation :: rest =>
    (operation, (hub.perform operation).2) :: trace (hub.perform operation).1 rest

/-- The hub as if it had only the mailboxes of the subscribers that are kept. -/
def restrict (kept : String → Bool) (hub : Hub) : Hub :=
  { hub with mailboxes := hub.mailboxes.filter fun entry => kept entry.1 }

section Restrict

variable {kept : String → Bool} {name : String} (hub : Hub)

@[simp] theorem history_restrict : (hub.restrict kept).history = hub.history := rfl

@[simp] theorem settings_restrict : (hub.restrict kept).settings = hub.settings := rfl

theorem mailbox?_restrict (hkept : kept name = true) :
    (hub.restrict kept).mailbox? name = hub.mailbox? name := by
  rw [mailbox?, mailbox?, restrict, List.find?_filter]
  congr 2
  funext entry
  by_cases hentry : entry.1 = name
  · simp [hentry, hkept]
  · simp [hentry]

theorem isRegistered_restrict (hkept : kept name = true) :
    (hub.restrict kept).isRegistered name = hub.isRegistered name := by
  rw [isRegistered, isRegistered, mailbox?_restrict hub hkept]

theorem subscribers_restrict_le : (hub.restrict kept).subscribers ≤ hub.subscribers := by
  rw [subscribers, subscribers, restrict]
  exact (List.filter_sublist.filter _).length_le

theorem update_restrict (change : Mailbox → Mailbox) :
    (hub.restrict kept).update name change = (hub.update name change).restrict kept := by
  simp only [restrict, update, List.filter_map]
  rfl

theorem restrict_update_of_other (hother : kept name = false) (change : Mailbox → Mailbox) :
    (hub.update name change).restrict kept = hub.restrict kept := by
  rw [← update_restrict]
  simp only [restrict, update, Hub.mk.injEq, true_and]
  refine (List.map_congr_left fun entry hentry => ?_).trans (List.map_id _)
  have hkept : kept entry.1 = true := (List.mem_filter.mp hentry).2
  have hname : entry.1 ≠ name := by
    rintro rfl
    rw [hother] at hkept
    cases hkept
  rw [if_neg (by simpa using hname), id]

theorem publish_restrict (message : String) :
    ((hub.restrict kept).publish message).1 = ((hub.publish message).1).restrict kept := by
  simp only [restrict, publish, List.filter_map]
  rfl

/-- Whoever gets into the whole hub also gets into the part, since that is not fuller. -/
theorem attach_restrict {hub joined : Hub} {count : Nat} (hkept : kept name = true)
    (hattach : hub.attach name = .ok (joined, count)) :
    (hub.restrict kept).attach name = .ok (joined.restrict kept, count) := by
  unfold attach at hattach ⊢
  split at hattach
  · cases hattach
  · rename_i hroom
    cases hattach
    have hle : (hub.restrict kept).subscribers ≤ hub.subscribers := subscribers_restrict_le hub
    rw [if_neg (by rw [settings_restrict]; omega)]
    simp [restrict, hkept, List.filter_filter, Bool.and_comm]

theorem restrict_attach_of_other {hub joined : Hub} {count : Nat} (hother : kept name = false)
    (hattach : hub.attach name = .ok (joined, count)) : joined.restrict kept = hub.restrict kept := by
  unfold attach at hattach
  split at hattach
  · cases hattach
  · cases hattach
    simp only [restrict, List.filter_append, List.filter_filter, Hub.mk.injEq, true_and]
    rw [List.filter_cons_of_neg (by simp [hother]), List.filter_nil, List.append_nil]
    refine List.filter_congr fun entry _ => ?_
    by_cases hentry : entry.1 = name
    · simp [hentry, hother]
    · simp [hentry]

/-- What others do leaves no trace in the part of a hub that is kept. -/
theorem restrict_perform_of_other {operation : Operation} (hother : operation.remains kept = false) :
    ((hub.perform operation).1).restrict kept = hub.restrict kept := by
  cases operation with
  | publish message => cases hother
  | attach name =>
    simp only [perform]
    split
    · rename_i joined count hattach
      exact restrict_attach_of_other hother hattach
    · rfl
  | receive name limit? =>
    simp only [perform, receive]
    split
    · rfl
    · split
      · rfl
      · exact restrict_update_of_other hub hother _
  | detach name => exact restrict_update_of_other hub hother _
  | close name => exact restrict_update_of_other hub hother _
  | abandon name => exact restrict_update_of_other hub hother _

/-- All other operations do the same to the part as if it were the whole hub, and those of
    the subscribers that are kept give the same. Only letting somebody in takes the others
    into account, because of the limit. -/
theorem perform_restrict {operation : Operation} (hremains : operation.remains kept = true)
    (hattach : ∀ name why, operation = .attach name → (hub.perform operation).2 ≠ .refused why) :
    ((hub.restrict kept).perform operation).1 = ((hub.perform operation).1).restrict kept ∧
      (operation.isOf kept = true →
        ((hub.restrict kept).perform operation).2 = (hub.perform operation).2) := by
  cases operation with
  | publish message => exact ⟨publish_restrict hub message, fun hof => by cases hof⟩
  | attach name =>
    simp only [perform] at hattach ⊢
    cases hresult : hub.attach name with
    | error why =>
      rw [hresult] at hattach
      exact absurd rfl (hattach name why rfl)
    | ok joined =>
      rw [attach_restrict hremains hresult]
      exact ⟨rfl, fun _ => rfl⟩
  | detach name =>
    refine ⟨by simp only [perform, detach, update_restrict], fun _ => ?_⟩
    exact congrArg Outcome.removed (isRegistered_restrict hub hremains)
  | receive name limit? =>
    simp only [perform, receive, mailbox?_restrict hub hremains]
    split
    · exact ⟨rfl, fun _ => rfl⟩
    · split
      · exact ⟨rfl, fun _ => rfl⟩
      · exact ⟨by simp only [update_restrict], fun _ => rfl⟩
  | close name => exact ⟨by simp only [perform, close, update_restrict], fun _ => rfl⟩
  | abandon name => exact ⟨by simp only [perform, abandon, update_restrict], fun _ => rfl⟩

end Restrict

theorem trace_append (hub : Hub) (early late : List Operation) :
    hub.trace (early ++ late) = hub.trace early ++ (hub.performAll early).trace late := by
  induction early generalizing hub with
  | nil => rfl
  | cons operation rest ih => exact congrArg _ (ih (hub.perform operation).1)

theorem isOf_of_not_remains {kept : String → Bool} {operation : Operation}
    (hother : operation.remains kept = false) : operation.isOf kept = false := by
  cases operation with
  | publish message => rfl
  | _ => exact hother

/-- The part of a hub that is kept goes its way as if there were nothing else, as long as
    none of its subscribers is turned away. -/
theorem run_restrict {kept : String → Bool} {hub : Hub} {operations : List Operation}
    (hattach : ∀ name why, kept name = true → (.attach name, .refused why) ∉ hub.trace operations) :
    (hub.restrict kept).performAll (operations.filter (·.remains kept)) =
        (hub.performAll operations).restrict kept ∧
      ((hub.restrict kept).trace (operations.filter (·.remains kept))).filter (·.1.isOf kept) =
        (hub.trace operations).filter (·.1.isOf kept) := by
  induction operations generalizing hub with
  | nil => exact ⟨rfl, rfl⟩
  | cons operation rest ih =>
    obtain ⟨hperformed, htraced⟩ := ih fun name why hkept hmem =>
      hattach name why hkept (List.mem_cons_of_mem _ hmem)
    rw [trace]
    by_cases hremains : operation.remains kept = true
    · have hstep := perform_restrict hub hremains fun name why heq hrefused => by
        subst heq
        exact hattach name why hremains (hrefused ▸ List.mem_cons_self ..)
      rw [List.filter_cons_of_pos hremains, trace, performAll, List.foldl_cons, hstep.1]
      refine ⟨hperformed, ?_⟩
      by_cases hof : operation.isOf kept = true
      · simp only [List.filter_cons, hof, if_true, htraced, hstep.2 hof]
      · simp only [List.filter_cons, hof, htraced, if_false, Bool.false_eq_true]
    · have hother : operation.remains kept = false := by simpa using hremains
      rw [restrict_perform_of_other hub hother] at hperformed htraced
      rw [List.filter_cons_of_neg hremains, List.filter_cons_of_neg (by simp [isOf_of_not_remains hother])]
      exact ⟨hperformed, htraced⟩

/-- If some subscribers are let in whenever they ask, then all that the others do makes no
    difference to them. Without it every operation of theirs gives the same, and at each
    point the history is the same, and so is the mailbox of each of them with what it holds
    and whether it is registered. -/
theorem trace_without_others (settings : Settings) (kept : String → Bool) (operations : List Operation)
    (hattach : ∀ name why, kept name = true →
      (.attach name, .refused why) ∉ (empty settings).trace operations) :
    ((empty settings).trace (operations.filter (·.remains kept))).filter (·.1.isOf kept) =
        ((empty settings).trace operations).filter (·.1.isOf kept) ∧
      ∀ early, early <+: operations →
        let whole := (empty settings).performAll early
        let part := (empty settings).performAll (early.filter (·.remains kept))
        part.history = whole.history ∧
          ∀ name, kept name = true →
            part.mailbox? name = whole.mailbox? name ∧ part.isRegistered name = whole.isRegistered name := by
  have hempty : (empty settings).restrict kept = empty settings := rfl
  constructor
  · rw [← (run_restrict hattach).2, hempty]
  · rintro early ⟨late, rfl⟩ whole part
    have hearly : ∀ name why, kept name = true →
        (.attach name, .refused why) ∉ (empty settings).trace early := by
      intro name why hkept hmem
      refine hattach name why hkept ?_
      rw [trace_append]
      exact List.mem_append_left _ hmem
    have hpart : part = whole.restrict kept := (run_restrict hearly).1
    rw [hpart]
    exact ⟨rfl, fun name hkept =>
      ⟨mailbox?_restrict whole hkept, isRegistered_restrict whole hkept⟩⟩

/-- The others are one that lags behind and goes away, and one that nobody lets in. -/
theorem trace_without_two_others :
    let operations : List Operation := [.attach "x", .publish "a", .attach "y", .attach "z",
      .publish "b", .publish "c", .receive "y" none, .abandon "x", .detach "y"]
    let kept : String → Bool := (· == "y")
    let hub := empty { historyCapacity := 1, subscriberQueue := 1, maxSubscribers := 2 }
    (.attach "y", .replayed 1) ∈ hub.trace operations ∧
      (hub.trace (operations.filter (·.remains kept))).filter (·.1.isOf kept) =
        [(.attach "y", .replayed 1), (.receive "y" none, .received ["a", "b"] .closed),
          (.detach "y", .removed false)] := by
  intro operations kept hub
  have hattach : ∀ name why, kept name = true → (.attach name, .refused why) ∉ hub.trace operations := by
    intro name why hkept hmem
    obtain rfl : name = "y" := by simpa [kept] using hkept
    have hrefused : ∃ entry ∈ hub.trace operations, entry.1 = .attach "y" ∧ entry.2 ≠ .replayed 1 :=
      ⟨_, hmem, rfl, by simp⟩
    exact absurd hrefused (by decide)
  obtain ⟨htraced, -⟩ := trace_without_others
    { historyCapacity := 1, subscriberQueue := 1, maxSubscribers := 2 } kept operations hattach
  exact ⟨by decide, htraced.trans (by decide)⟩

end PacketMonitor.Hub

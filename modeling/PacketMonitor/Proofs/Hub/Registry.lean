import Mathlib.Data.List.Induction
import Mathlib.Data.List.Nodup
import PacketMonitor.Proofs.Hub.Delivery

namespace PacketMonitor.Hub

/-- The names of all mailboxes, in the order of their coming. -/
def names (hub : Hub) : List String :=
  hub.mailboxes.map (·.1)

/-- The names of the registered subscribers. -/
def registry (hub : Hub) : List String :=
  hub.names.filter hub.isRegistered

/-- What a subscriber does with its queue. -/
def reader? (hub : Hub) (name : String) : Option Reader :=
  (hub.mailbox? name).map (·.reader)

/-- A subscriber cannot take another message: it does not listen, or its queue is as long
    as it may be. -/
def Stuck (hub : Hub) (name : String) : Prop :=
  hub.reader? name ≠ some .listening ∨ (hub.unread name).length = hub.settings.queueLimit

/-- What holds of a hub whatever is done with it. -/
structure Valid (hub : Hub) : Prop where
  capacity_eq : hub.history.capacity = hub.settings.historyCapacity
  distinct : hub.names.Nodup
  bounded : ∀ name, (hub.unread name).length ≤ hub.settings.queueLimit
  within : hub.subscribers ≤ hub.settings.maxSubscribers

section Lookup

variable {hub : Hub} {name : String} {box : Mailbox}

theorem mailbox?_eq_none_iff : hub.mailbox? name = none ↔ name ∉ hub.names := by
  rw [mailbox?, Option.map_eq_none_iff, List.find?_eq_none, names, List.mem_map]
  simp only [beq_iff_eq, not_exists, not_and]

theorem unread_eq (hbox : hub.mailbox? name = some box) : hub.unread name = box.queued := by
  rw [unread, hbox]
  rfl

theorem reader?_eq (hbox : hub.mailbox? name = some box) : hub.reader? name = some box.reader := by
  rw [reader?, hbox]
  rfl

theorem exists_mailbox_of_isRegistered (hregistered : hub.isRegistered name = true) :
    ∃ box, hub.mailbox? name = some box ∧ box.registered = true := by
  cases hbox : hub.mailbox? name with
  | none =>
    rw [isRegistered, hbox] at hregistered
    cases hregistered
  | some box => exact ⟨box, rfl, (isRegistered_eq hbox).symm.trans hregistered⟩

theorem mem_registry_iff : name ∈ hub.registry ↔ hub.isRegistered name = true := by
  rw [registry, List.mem_filter]
  refine ⟨And.right, fun hregistered => ⟨?_, hregistered⟩⟩
  obtain ⟨box, hbox, -⟩ := exists_mailbox_of_isRegistered hregistered
  by_contra hnone
  rw [mailbox?_eq_none_iff.mpr hnone] at hbox
  cases hbox

/-- Among distinct names each mailbox is the one that its name leads to. -/
theorem mailbox?_of_mem (hdistinct : hub.names.Nodup) {entry : String × Mailbox}
    (hentry : entry ∈ hub.mailboxes) : hub.mailbox? entry.1 = some entry.2 := by
  rw [mailbox?, Option.map_eq_some_iff]
  refine ⟨entry, ?_, rfl⟩
  obtain ⟨early, late, hsplit⟩ := List.append_of_mem hentry
  rw [names, hsplit, List.map_append, List.map_cons, List.nodup_middle, List.nodup_cons] at hdistinct
  rw [hsplit, List.find?_append, List.find?_cons_of_pos (by simp), Option.or_eq_right_of_none]
  apply List.find?_eq_none.mpr
  intro other hother hname
  apply hdistinct.1
  rw [← beq_iff_eq.mp hname]
  exact List.mem_append_left _ (List.mem_map_of_mem hother)

theorem length_registry (hdistinct : hub.names.Nodup) : hub.registry.length = hub.subscribers := by
  rw [registry, names, List.filter_map, List.length_map, subscribers]
  refine congrArg List.length (List.filter_congr fun entry hentry => ?_)
  exact isRegistered_eq (mailbox?_of_mem hdistinct hentry)

end Lookup

section Step

variable {hub joined : Hub} {name : String} {operation : Operation} {count : Nat}

@[simp] theorem names_update (change : Mailbox → Mailbox) : (hub.update name change).names = hub.names := by
  simp [names, update, Function.comp_def]

@[simp] theorem names_publish (message : String) : (hub.publish message).1.names = hub.names := by
  simp [names, publish, Function.comp_def]

theorem names_attach (hattach : hub.attach name = .ok (joined, count)) :
    joined.names = hub.names.filter (· != name) ++ [name] := by
  unfold attach at hattach
  split at hattach
  · cases hattach
  · cases hattach
    simp [names, List.filter_map, Function.comp_def]

/-- Only a new subscriber brings a new name. -/
theorem names_perform (hattach : ∀ other, operation ≠ .attach other) :
    (hub.perform operation).1.names = hub.names := by
  cases operation with
  | publish message => exact names_publish message
  | attach other => exact absurd rfl (hattach other)
  | receive other limit? =>
    simp only [perform, receive]
    split
    · rfl
    · split
      · rfl
      · exact names_update _
  | detach other | close other | abandon other => exact names_update _

/-- A registration outlasts all but its own end and an event that is not taken. -/
theorem registered_after_iff {limit : Nat} {box : Mailbox} :
    (box.after limit name operation).registered = true ↔
      box.registered = true ∧ operation ≠ .detach name ∧
        ∀ message, operation = .publish message → box.Accepts limit := by
  cases operation with
  | publish message =>
    by_cases haccepts : box.Accepts limit
    · simp [Mailbox.after, Mailbox.offer_of_accepts haccepts, haccepts]
    · simp [Mailbox.after, Mailbox.offer_of_not_accepts haccepts, haccepts]
  | attach other => simp [Mailbox.after]
  | detach other => by_cases hother : other = name <;> simp [Mailbox.after, hother]
  | receive other limit? =>
    by_cases hother : other = name
    · simp only [Mailbox.after, if_pos hother, Mailbox.read]
      split <;> simp
    · simp [Mailbox.after, hother]
  | close other | abandon other => by_cases hother : other = name <;> simp [Mailbox.after, hother]

/-- No mailbox that is not overfull becomes so. -/
theorem length_queued_after_le {limit : Nat} {box : Mailbox} (hbound : box.queued.length ≤ limit) :
    (box.after limit name operation).queued.length ≤ limit := by
  cases operation with
  | publish message =>
    by_cases haccepts : box.Accepts limit
    · have hroom := haccepts.2.2
      simp only [Mailbox.after, Mailbox.offer_of_accepts haccepts, List.length_append,
        List.length_singleton]
      omega
    · simpa only [Mailbox.after, Mailbox.offer_of_not_accepts haccepts] using hbound
  | attach other => exact hbound
  | receive other limit? =>
    simp only [Mailbox.after, Mailbox.read]
    split
    · split
      · exact hbound
      · rw [List.length_drop]
        omega
    · exact hbound
  | detach other | close other =>
    simp only [Mailbox.after]
    split <;> exact hbound
  | abandon other =>
    simp only [Mailbox.after]
    split
    · exact Nat.zero_le _
    · exact hbound

/-- Whoever asks is let in unless the registry is full, and then nothing is changed. -/
theorem attach_spec (hub : Hub) (name : String) :
    (hub.settings.maxSubscribers ≤ hub.subscribers ∧
        hub.perform (.attach name) =
          (hub, .refused (.tooManySubscribers hub.settings.maxSubscribers))) ∨
      (hub.subscribers < hub.settings.maxSubscribers ∧
        ∃ joined, hub.attach name = .ok (joined, hub.history.size) ∧
          hub.perform (.attach name) = (joined, .replayed hub.history.size)) := by
  by_cases hfull : hub.settings.maxSubscribers ≤ hub.subscribers
  · exact .inl ⟨hfull, by rw [perform, attach, if_pos hfull]⟩
  · have hreplayed : (hub.perform (.attach name)).2 = .replayed hub.history.size := by
      rw [perform, attach, if_neg hfull, ← History.length_toList]
    exact .inr ⟨Nat.lt_of_not_le hfull, _, perform_attach_of_replayed hreplayed, Prod.ext rfl hreplayed⟩

theorem registry_attach (hattach : hub.attach name = .ok (joined, count)) :
    joined.registry = hub.registry.filter (· != name) ++ [name] := by
  have hself : joined.isRegistered name = true := isRegistered_eq (mailbox?_attach_self hattach).1
  rw [registry, names_attach hattach, List.filter_append, List.filter_cons_of_pos hself,
    List.filter_nil, registry, List.filter_filter, List.filter_filter]
  refine congrArg (· ++ [name]) (List.filter_congr fun other _ => ?_)
  by_cases hother : other = name
  · simp [hother]
  · rw [isRegistered, isRegistered, mailbox?_attach_other hattach (Ne.symm hother), Bool.and_comm]

theorem frame_attach (hattach : hub.attach name = .ok (joined, count)) :
    joined.settings = hub.settings ∧ joined.history = hub.history := by
  unfold attach at hattach
  split at hattach
  · cases hattach
  · cases hattach
    exact ⟨rfl, rfl⟩

theorem capacity_perform (hattach : ∀ other, operation ≠ .attach other) :
    (hub.perform operation).1.history.capacity = hub.history.capacity := by
  cases operation with
  | publish message => exact History.capacity_push hub.history message
  | attach other => exact absurd rfl (hattach other)
  | receive other limit? =>
    simp only [perform, receive]
    split
    · rfl
    · split <;> rfl
  | detach other | close other | abandon other => rfl

end Step

namespace Valid

variable {hub : Hub} {name : String} {operation : Operation}

theorem accepts_iff (hvalid : hub.Valid) {box : Mailbox} (hbox : hub.mailbox? name = some box)
    (hregistered : box.registered = true) :
    box.Accepts hub.settings.queueLimit ↔ ¬ hub.Stuck name := by
  have hbound := hvalid.bounded name
  rw [unread_eq hbox] at hbound
  rw [Stuck, reader?_eq hbox, unread_eq hbox, Mailbox.Accepts]
  constructor
  · rintro ⟨-, hlistening, hroom⟩ (hdeaf | hfull)
    · exact hdeaf (congrArg some hlistening)
    · omega
  · intro hfree
    rw [not_or, not_not] at hfree
    exact ⟨hregistered, Option.some.inj hfree.1, Nat.lt_of_le_of_ne hbound hfree.2⟩

/-- A registration ends when the subscriber is detached or found stuck by an event, and in
    no other way. -/
theorem isRegistered_perform_iff (hvalid : hub.Valid) (hname : operation ≠ .attach name) :
    (hub.perform operation).1.isRegistered name = true ↔
      hub.isRegistered name = true ∧ operation ≠ .detach name ∧
        ∀ message, operation = .publish message → ¬ hub.Stuck name := by
  have hafter := mailbox?_perform hub name hname
  cases hbox : hub.mailbox? name with
  | none =>
    rw [hbox, Option.map_none] at hafter
    simp [isRegistered, hafter, hbox]
  | some box =>
    rw [hbox, Option.map_some] at hafter
    rw [isRegistered_eq hafter, isRegistered_eq hbox, registered_after_iff]
    apply and_congr_right
    intro hregistered
    rw [hvalid.accepts_iff hbox hregistered]

/-- Letting somebody in takes nobody else's place. -/
theorem attach (hvalid : hub.Valid) {joined : Hub} {count : Nat}
    (hroom : hub.subscribers < hub.settings.maxSubscribers)
    (hattach : hub.attach name = .ok (joined, count)) : joined.Valid := by
  obtain ⟨hsettings, hhistory⟩ := frame_attach hattach
  have hdistinct : joined.names.Nodup := by
    rw [names_attach hattach]
    exact List.nodup_append.mpr ⟨hvalid.distinct.filter _, by simp, by simp⟩
  refine ⟨?_, hdistinct, fun other => ?_, ?_⟩
  · rw [hsettings, hhistory, hvalid.capacity_eq]
  · rw [hsettings]
    by_cases hother : name = other
    · subst hother
      have hsize := hub.history.size_le
      rw [hvalid.capacity_eq] at hsize
      rw [unread_eq (mailbox?_attach_self hattach).1, History.length_toList, Settings.queueLimit]
      exact Nat.le_trans hsize (by omega)
    · rw [unread, mailbox?_attach_other hattach hother]
      exact hvalid.bounded other
  · have hothers := List.length_filter_le (· != name) hub.registry
    rw [length_registry hvalid.distinct] at hothers
    rw [hsettings, ← length_registry hdistinct, registry_attach hattach, List.length_append,
      List.length_singleton]
    omega

theorem subscribers_perform_le (hvalid : hub.Valid) (hattach : ∀ other, operation ≠ .attach other) :
    (hub.perform operation).1.subscribers ≤ hub.subscribers := by
  have hnames : (hub.perform operation).1.names = hub.names := names_perform hattach
  rw [← length_registry hvalid.distinct, ← length_registry (hnames ▸ hvalid.distinct), registry, registry,
    hnames]
  exact (List.monotone_filter_right hub.names fun name hregistered =>
    ((hvalid.isRegistered_perform_iff (hattach name)).mp hregistered).1).length_le

theorem perform (hvalid : hub.Valid) (operation : Operation) : (hub.perform operation).1.Valid := by
  by_cases hattach : ∃ name, operation = .attach name
  · obtain ⟨name, rfl⟩ := hattach
    obtain ⟨-, hsame⟩ | ⟨hroom, joined, hjoined, hperform⟩ := attach_spec hub name
    · rwa [hsame]
    · rw [hperform]
      exact hvalid.attach hroom hjoined
  · have hother : ∀ name, operation ≠ .attach name := fun name h => hattach ⟨name, h⟩
    refine ⟨?_, ?_, fun name => ?_, ?_⟩
    · rw [capacity_perform hother, settings_perform, hvalid.capacity_eq]
    · rw [names_perform hother]
      exact hvalid.distinct
    · have hafter := mailbox?_perform hub name (hother name)
      rw [settings_perform]
      cases hbox : hub.mailbox? name with
      | none =>
        rw [unread, hafter, hbox]
        exact Nat.zero_le _
      | some box =>
        rw [hbox, Option.map_some] at hafter
        rw [unread_eq hafter]
        exact length_queued_after_le (unread_eq hbox ▸ hvalid.bounded name)
    · rw [settings_perform]
      exact Nat.le_trans (hvalid.subscribers_perform_le hother) hvalid.within

end Valid

theorem valid_empty (settings : Settings) : (empty settings).Valid :=
  ⟨rfl, List.nodup_nil, fun _ => Nat.zero_le _, Nat.zero_le _⟩

theorem Valid.performAll {hub : Hub} (hvalid : hub.Valid) (operations : List Operation) :
    (hub.performAll operations).Valid := by
  induction operations generalizing hub with
  | nil => exact hvalid
  | cons operation rest ih => exact ih (hvalid.perform operation)

/-- What is done with a hub leaves a subscriber registered: it is not detached, and no event
    finds it stuck. -/
structure Keeps (hub : Hub) (name : String) (operations : List Operation) : Prop where
  undetached : Operation.detach name ∉ operations
  unstuck : ∀ early message late, operations = early ++ .publish message :: late →
    ¬ (hub.performAll early).Stuck name

theorem keeps_concat_iff {hub : Hub} {name : String} {operations : List Operation}
    {last : Operation} :
    hub.Keeps name (operations ++ [last]) ↔
      hub.Keeps name operations ∧ last ≠ .detach name ∧
        ∀ message, last = .publish message → ¬ (hub.performAll operations).Stuck name := by
  constructor
  · rintro ⟨hdetach, hstuck⟩
    rw [List.mem_append, List.mem_singleton, not_or] at hdetach
    refine ⟨⟨hdetach.1, fun early message late hsplit => ?_⟩, Ne.symm hdetach.2, ?_⟩
    · exact hstuck early message (late ++ [last]) (by rw [hsplit, List.append_assoc, List.cons_append])
    · rintro message rfl
      exact hstuck operations message [] rfl
  · rintro ⟨⟨hdetach, hstuck⟩, hlast, hpublish⟩
    refine ⟨?_, fun early message late hsplit => ?_⟩
    · rw [List.mem_append, List.mem_singleton, not_or]
      exact ⟨hdetach, Ne.symm hlast⟩
    · obtain rfl | ⟨late, other, rfl⟩ := List.eq_nil_or_concat late
      · obtain ⟨rfl, rfl⟩ := List.append_singleton_inj.mp hsplit
        exact hpublish message rfl
      · rw [List.concat_eq_append, ← List.cons_append, ← List.append_assoc] at hsplit
        exact hstuck early message late (List.append_singleton_inj.mp hsplit).1

theorem performAll_append_cons (hub : Hub) (early : List Operation) (operation : Operation)
    (late : List Operation) :
    hub.performAll (early ++ operation :: late) =
      ((hub.performAll early).perform operation).1.performAll late :=
  performAll_append hub early (operation :: late)

theorem performAll_concat (hub : Hub) (operations : List Operation) (last : Operation) :
    hub.performAll (operations ++ [last]) = ((hub.performAll operations).perform last).1 :=
  performAll_append hub operations [last]

namespace Valid

variable {hub : Hub} {name : String}

theorem isRegistered_of_keeps (hvalid : hub.Valid) (hregistered : hub.isRegistered name = true)
    {operations : List Operation} (hkeeps : hub.Keeps name operations) :
    (hub.performAll operations).isRegistered name = true := by
  induction operations using List.reverseRecOn with
  | nil => exact hregistered
  | append_singleton operations last ih =>
    obtain ⟨hearlier, hdetach, hpublish⟩ := keeps_concat_iff.mp hkeeps
    have hvalid' := hvalid.performAll operations
    rw [performAll_concat]
    by_cases hattach : last = .attach name
    · subst hattach
      obtain ⟨-, hsame⟩ | ⟨-, joined, hjoined, hperform⟩ :=
        attach_spec (hub.performAll operations) name
      · rw [hsame]
        exact ih hearlier
      · rw [hperform]
        exact isRegistered_eq (mailbox?_attach_self hjoined).1
    · exact (hvalid'.isRegistered_perform_iff hattach).mpr ⟨ih hearlier, hdetach, hpublish⟩

end Valid

/-- Whoever is registered was let in at some point and kept since. -/
theorem isRegistered_performAll_iff {hub : Hub} (hvalid : hub.Valid) {name : String}
    (hnone : hub.isRegistered name = false) (operations : List Operation) :
    (hub.performAll operations).isRegistered name = true ↔
      ∃ before after count, operations = before ++ .attach name :: after ∧
        ((hub.performAll before).perform (.attach name)).2 = .replayed count ∧
        ((hub.performAll before).perform (.attach name)).1.Keeps name after := by
  constructor
  · intro hregistered
    induction operations using List.reverseRecOn with
    | nil =>
      rw [performAll, List.foldl_nil, hnone] at hregistered
      cases hregistered
    | append_singleton operations last ih =>
      rw [performAll_concat] at hregistered
      by_cases hjoins : last = .attach name ∧ ∃ count,
          ((hub.performAll operations).perform (.attach name)).2 = .replayed count
      · obtain ⟨rfl, count, hjoined⟩ := hjoins
        exact ⟨operations, [], count, rfl, hjoined, by simp, by simp⟩
      · -- Otherwise the subscriber was registered before, and the last operation keeps it.
        obtain ⟨hearlier, hdetach, hpublish⟩ :
            (hub.performAll operations).isRegistered name = true ∧ last ≠ .detach name ∧
              ∀ message, last = .publish message → ¬ (hub.performAll operations).Stuck name := by
          by_cases hattach : last = .attach name
          · subst hattach
            obtain ⟨-, hsame⟩ | ⟨-, joined, -, hperform⟩ :=
              attach_spec (hub.performAll operations) name
            · rw [hsame] at hregistered
              exact ⟨hregistered, by simp, by simp⟩
            · exact absurd ⟨rfl, _, congrArg Prod.snd hperform⟩ hjoins
          · exact ((hvalid.performAll operations).isRegistered_perform_iff hattach).mp hregistered
        obtain ⟨before, after, count, rfl, hjoined, hkeeps⟩ := ih hearlier
        refine ⟨before, after ++ [last], count, by simp, hjoined, ?_⟩
        rw [performAll_append_cons] at hpublish
        exact keeps_concat_iff.mpr ⟨hkeeps, hdetach, hpublish⟩
  · rintro ⟨before, after, count, rfl, hjoined, hkeeps⟩
    have hvalid' := (hvalid.performAll before).perform (.attach name)
    rw [performAll_append_cons]
    refine hvalid'.isRegistered_of_keeps ?_ hkeeps
    exact isRegistered_eq (mailbox?_attach_self (perform_attach_of_replayed hjoined)).1

theorem isRegistered_detach (hub : Hub) (name other : String) :
    (hub.detach name).1.isRegistered other = (hub.isRegistered other && other != name) := by
  rw [isRegistered, detach, mailbox?_update, isRegistered]
  by_cases hother : name = other
  · subst hother
    cases hub.mailbox? name <;> simp
  · have hne : other ≠ name := Ne.symm hother
    cases hub.mailbox? other <;> simp [hother, hne]

theorem registry_detach (hub : Hub) (name : String) :
    (hub.detach name).1.registry = hub.registry.filter (· != name) := by
  have hnames : (hub.detach name).1.names = hub.names := names_update _
  rw [registry, hnames, registry, List.filter_filter]
  apply List.filter_congr
  intro other _
  rw [isRegistered_detach, Bool.and_comm]

theorem unread_detach (hub : Hub) (name other : String) :
    (hub.detach name).1.unread other = hub.unread other := by
  rw [unread, detach, mailbox?_update, unread, Option.map_map]
  congr 2
  funext box
  simp only [Function.comp_apply]
  split <;> rfl

/-- Whoever is not registered is not detached either. -/
theorem detach_of_not_registered {hub : Hub} (hdistinct : hub.names.Nodup) {name : String}
    (hnone : hub.isRegistered name = false) : hub.perform (.detach name) = (hub, .removed false) := by
  have hsame : hub.mailboxes.map (fun entry =>
      (entry.1, if entry.1 == name then { entry.2 with registered := false } else entry.2)) =
        hub.mailboxes := by
    refine (List.map_congr_left fun entry hentry => ?_).trans (List.map_id _)
    by_cases hname : entry.1 = name
    · subst hname
      have hregistered : entry.2.registered = false :=
        (isRegistered_eq (mailbox?_of_mem hdistinct hentry)).symm.trans hnone
      rw [if_pos (beq_self_eq_true _), ← hregistered]
      rfl
    · rw [if_neg (by simpa using hname)]
      rfl
  rw [perform, detach, hnone, update]
  simp only [hsame]

/-- The registry holds as many subscribers as allowed at most, and each of them was let in
    and kept since. Nobody is let in only if it is full, and then nothing is changed. Whoever
    is detached leaves alone, and never again until it is let in anew. -/
theorem registry_performAll (settings : Settings) (operations : List Operation) :
    let hub := (empty settings).performAll operations
    (hub.registry.Nodup ∧ hub.registry.length = hub.subscribers ∧
      hub.subscribers ≤ settings.maxSubscribers) ∧
    (∀ name, name ∈ hub.registry ↔
      ∃ before after count, operations = before ++ .attach name :: after ∧
        (((empty settings).performAll before).perform (.attach name)).2 = .replayed count ∧
        (((empty settings).performAll before).perform (.attach name)).1.Keeps name after) ∧
    (∀ name, (∀ why, (hub.perform (.attach name)).2 = .refused why ↔
        settings.maxSubscribers ≤ hub.subscribers ∧
          why = .tooManySubscribers settings.maxSubscribers) ∧
      (settings.maxSubscribers ≤ hub.subscribers → (hub.perform (.attach name)).1 = hub)) ∧
    ∀ name,
      let left := (hub.perform (.detach name)).1
      (hub.perform (.detach name)).2 = .removed (decide (name ∈ hub.registry)) ∧
      left.registry = hub.registry.filter (· != name) ∧ left.history = hub.history ∧
      (∀ other, left.unread other = hub.unread other) ∧
      (∀ other, other ≠ name → left.mailbox? other = hub.mailbox? other) ∧
      ∀ later, Operation.attach name ∉ later →
        (left.performAll later).perform (.detach name) = (left.performAll later, .removed false) := by
  intro hub
  have hvalid : hub.Valid := (valid_empty settings).performAll operations
  have hsettings : hub.settings = settings := settings_performAll ..
  refine ⟨⟨hvalid.distinct.filter _, length_registry hvalid.distinct, hsettings ▸ hvalid.within⟩,
    fun name => ?_, fun name => ?_, fun name => ?_⟩
  · exact mem_registry_iff.trans (isRegistered_performAll_iff (valid_empty settings) rfl operations)
  · rw [← hsettings]
    obtain ⟨hfull, hsame⟩ | ⟨hroom, joined, -, hperform⟩ := attach_spec hub name
    · rw [hsame]
      exact ⟨fun why => by simp [hfull, eq_comm], fun _ => rfl⟩
    · have hnot := Nat.not_le.mpr hroom
      rw [hperform]
      exact ⟨fun why => by simp [hnot], fun hfull => absurd hfull hnot⟩
  · intro left
    have hleft : left.Valid := hvalid.perform _
    have hnone : left.isRegistered name = false := by
      change (hub.detach name).1.isRegistered name = false
      simp [isRegistered_detach]
    refine ⟨?_, registry_detach hub name, rfl, unread_detach hub name, fun other hother => ?_,
      fun later hlater => ?_⟩
    · apply congrArg Outcome.removed
      rw [Bool.eq_iff_iff, decide_eq_true_iff, mem_registry_iff]
    · change (hub.update name _).mailbox? other = _
      rw [mailbox?_update]
      simp [Ne.symm hother]
    · apply detach_of_not_registered (hleft.performAll later).distinct
      rw [Bool.eq_false_iff]
      intro hregistered
      obtain ⟨before, after, count, hsplit, -⟩ :=
        (isRegistered_performAll_iff hleft hnone later).mp hregistered
      exact hlater (hsplit ▸ List.mem_append_right before (List.mem_cons_self ..))

end PacketMonitor.Hub

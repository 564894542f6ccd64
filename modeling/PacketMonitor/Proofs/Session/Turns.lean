import PacketMonitor.Proofs.Session.Underway

namespace PacketMonitor.Session

/-- Messages that are written one after the other from a time on, all of them over by
    another time. -/
inductive InTurn : Nat → List Write → Nat → Prop where
  | done {now finish : Nat} (hnow : now ≤ finish) : InTurn now [] finish
  | next {now finish : Nat} {write : Write} {later : List Write} (hbegun : now ≤ write.begun)
    (hended : write.begun ≤ write.ended) (hlater : InTurn write.ended later finish) :
    InTurn now (write :: later) finish

namespace InTurn

variable {now middle finish : Nat} {writes : List Write}

theorem le (hturn : InTurn now writes finish) : now ≤ finish := by
  induction hturn with
  | done hnow => exact hnow
  | next hbegun hended _ ih => omega

theorem from_le {earlier : Nat} (hturn : InTurn now writes finish) (hle : earlier ≤ now) :
    InTurn earlier writes finish := by
  cases hturn with
  | done hnow => exact .done (Nat.le_trans hle hnow)
  | next hbegun hended hlater => exact .next (Nat.le_trans hle hbegun) hended hlater

theorem append {others : List Write} (hturn : InTurn now writes middle)
    (hothers : InTurn middle others finish) : InTurn now (writes ++ others) finish := by
  induction hturn with
  | done hnow => exact hothers.from_le hnow
  | next hbegun hended _ ih => exact .next hbegun hended (ih hothers)

theorem to_le {later : Nat} (hturn : InTurn now writes finish) (hle : finish ≤ later) :
    InTurn now writes later := by
  rw [← List.append_nil writes]
  exact hturn.append (.done hle)

theorem bounds (hturn : InTurn now writes finish) :
    ∀ write ∈ writes, now ≤ write.begun ∧ write.begun ≤ write.ended ∧ write.ended ≤ finish := by
  induction hturn with
  | done => exact List.forall_mem_nil _
  | next hbegun hended hlater ih =>
    refine List.forall_mem_cons.mpr ⟨⟨hbegun, hended, hlater.le⟩, fun other hother => ?_⟩
    obtain ⟨hstart, hrest⟩ := ih other hother
    exact ⟨by omega, hrest⟩

end InTurn

/-- The messages among some actions. -/
def messages (actions : List Action) : List (List UInt8) :=
  actions.filterMap fun
    | .send _ bytes => some bytes
    | .pause _ => none

/-- The bytes that reach the node of some messages. -/
def flushedBytes (writes : List Write) : List UInt8 :=
  (writes.filterMap Write.sent?).flatMap (·.bytes)

theorem flushedBytes_append (early late : List Write) :
    flushedBytes (early ++ late) = flushedBytes early ++ flushedBytes late := by
  simp [flushedBytes]

theorem flushedBytes_of_flushed {writes : List Write} (hflushed : ∀ write ∈ writes, write.isFlushed = true) :
    flushedBytes writes = writes.flatMap (·.bytes) := by
  induction writes with
  | nil => rfl
  | cons write rest ih =>
    obtain ⟨hfirst, hrest⟩ := List.forall_mem_cons.mp hflushed
    have hsent : write.sent? = some ⟨write.begun, write.ended, write.bytes⟩ := if_pos hfirst
    rw [flushedBytes, List.filterMap_cons_some hsent, List.flatMap_cons, List.flatMap_cons, ← ih hrest,
      flushedBytes]

namespace Performs

variable {cancelAt now : Nat} {actions : List Action} {outcome : HandshakeOutcome}

theorem inTurn (hperforms : Performs cancelAt now actions outcome) :
    InTurn now outcome.writes outcome.time := by
  induction hperforms with
  | done => exact .done (Nat.le_refl _)
  | cancelled => exact .done (Nat.le_max_left ..)
  | paused _ _ ih => exact ih.from_le (Nat.le_add_right ..)
  | refused hnow => exact .next (Nat.le_refl _) hnow (.done (Nat.le_refl _))
  | flushed hnow _ ih => exact .next (Nat.le_refl _) hnow ih

/-- What reaches the node are the messages from the first one on, up to where it is given
    up, and all of them if nothing goes wrong. -/
theorem flushedBytes_starts (hperforms : Performs cancelAt now actions outcome) :
    flushedBytes outcome.writes <+: (messages actions).flatten ∧
      (outcome.error = none → outcome.writes.map (·.bytes) = messages actions ∧
        ∀ write ∈ outcome.writes, write.isFlushed = true) := by
  induction hperforms with
  | done => exact ⟨List.nil_prefix, fun _ => ⟨rfl, List.forall_mem_nil _⟩⟩
  | cancelled | refused => exact ⟨List.nil_prefix, fun hdone => nomatch hdone⟩
  | paused _ _ ih => exact ih
  | @flushed _ _ _ bytes _ _ _ _ ih =>
    obtain ⟨hstarts, hall⟩ := ih
    refine ⟨(List.prefix_append_right_inj bytes).mpr hstarts, fun hdone => ?_⟩
    obtain ⟨hbytes, hflushed⟩ := hall hdone
    exact ⟨congrArg (bytes :: ·) hbytes, List.forall_mem_cons.mpr ⟨rfl, hflushed⟩⟩

end Performs

namespace Keeps

variable {stopAt now : Nat} {outcome : KeepaliveOutcome}

theorem inTurn (hkeeps : Keeps stopAt now outcome) : InTurn now outcome.writes outcome.time := by
  induction hkeeps with
  | stopped => exact .done (Nat.le_max_left ..)
  | refused hnow _ hended => exact .next hnow hended (.done (Nat.le_refl _))
  | flushed hnow _ hended _ ih => exact .next hnow hended ih

/-- A keepalive is nothing but a zero byte, and none is begun when it is time to stop. -/
theorem mem_writes (hkeeps : Keeps stopAt now outcome) :
    ∀ write ∈ outcome.writes, write.bytes = [0] ∧ write.begun < stopAt := by
  induction hkeeps with
  | stopped => exact List.forall_mem_nil _
  | refused _ hbegun => exact List.forall_mem_singleton.mpr ⟨rfl, hbegun⟩
  | flushed _ hbegun _ _ ih => exact List.forall_mem_cons.mpr ⟨⟨rfl, hbegun⟩, ih⟩

end Keeps

end PacketMonitor.Session

import Mathlib.Data.List.Chain
import PacketMonitor.Proofs.Session.Schedule

namespace PacketMonitor.Session

/-- An attempt is due after another one when the pause between them is over, if that is before
    cancellation. The pause is as long as it should be, unless both the pause and all of the
    run are longer than the longest wait. -/
def Due (settings : Settings) (world : World) (attempt next : Nat × Nat) : Prop :=
  next.1 = attempt.1 + 1 ∧ next.2 < world.cancelAt ∧
    ∃ ended pause, Pauses settings world attempt.1 attempt.2 ended pause ∧
      next.2 = resumed ended pause ∧
      (world.cancelAt ≤ longestWait ∨ pause ≤ longestWait → next.2 = ended + pause)

namespace Scheduled

variable {settings : Settings} {world : World} {number begun : Nat} {tries : List (Nat × Nat)}

theorem eq_of_mem_head? (hscheduled : Scheduled settings world number begun tries) :
    ∀ first ∈ tries.head?, first = (number, begun) := by
  cases hscheduled with
  | again | last => exact fun first hfirst => (Option.some.inj hfirst).symm
  | unfollowed => exact fun first hfirst => nomatch hfirst

theorem isChain (hscheduled : Scheduled settings world number begun tries) :
    tries.IsChain (Due settings world) := by
  induction hscheduled with
  | @again number begun ended pause later hpauses hnext hlater ih =>
    refine ih.cons fun first hfirst => ?_
    rw [hlater.eq_of_mem_head? first hfirst]
    exact ⟨rfl, hnext, ended, pause, hpauses, rfl, resumed_eq hnext⟩
  | last => exact .singleton _
  | unfollowed => exact .nil

/-- After the last attempt no pause is over before cancellation, unless there are more
    attempts than are followed. -/
theorem ends (hscheduled : Scheduled settings world number begun tries) :
    (∃ before last, tries = before ++ [last] ∧
      ∀ ended pause, Pauses settings world last.1 last.2 ended pause →
        world.cancelAt ≤ resumed ended pause) ∨
    (settings.retryDelay 0 = 0 ∧ world.attempts.length + 1 < number + tries.length) := by
  induction hscheduled with
  | @again number begun ended pause later _ _ _ ih =>
    obtain ⟨before, last, rfl, hlast⟩ | ⟨hdelay, hpast⟩ := ih
    · exact .inl ⟨(number, begun) :: before, last, rfl, hlast⟩
    · refine .inr ⟨hdelay, ?_⟩
      rw [List.length_cons]
      omega
  | last hlast => exact .inl ⟨[], _, rfl, hlast⟩
  | unfollowed hpast hdelay => exact .inr ⟨hdelay, hpast⟩

end Scheduled

theorem tries_eq_nil_of_zero {settings : Settings} {world : World} (hcancelAt : world.cancelAt = 0) :
    (supervise settings world).tries = [] := by
  rw [supervise_eq, if_pos hcancelAt]
  rfl

theorem isChain_tries (settings : Settings) (world : World) :
    (supervise settings world).tries.IsChain (Due settings world) := by
  obtain hcancelAt | hcancelAt := Nat.eq_zero_or_pos world.cancelAt
  · rw [tries_eq_nil_of_zero hcancelAt]
    exact .nil
  · exact (scheduled_supervise settings hcancelAt).isChain

/-- Between a refused attempt and the next one there is always some time, but no more than the
    limit. -/
theorem retries_supervise {settings : Settings} (hinitial : 1 ≤ settings.initialBackoff.toMillis)
    (hlimit : 1 ≤ settings.maxBackoff.toMillis) (world : World) :
    (supervise settings world).tries.IsChain fun attempt next =>
      ∀ message, (world.answer attempt.1).result = .error message →
        let refused := attempt.2 + (world.answer attempt.1).delay
        refused < next.2 ∧ next.2 ≤ refused + settings.maxBackoff.toMillis := by
  have hdelay : 0 < settings.retryDelay 0 := by
    rw [Settings.retryDelay]
    omega
  refine (isChain_tries settings world).imp fun attempt next hnext message hanswer => ?_
  obtain ⟨-, -, ended, pause, hpauses, hresumed, -⟩ := hnext
  rw [hresumed]
  cases hpauses with
  | @refused _ count =>
    have hlongest : settings.retryDelay count ≤ settings.maxBackoff.toMillis := Nat.min_le_left ..
    refine ⟨lt_resumed (retryDelay_pos hdelay count) _, Nat.add_le_add_left ?_ _⟩
    exact Nat.le_trans (Nat.min_le_left ..) hlongest
  | reconnected hmade => cases (connection?_eq_none_of_refused hanswer).symm.trans hmade

end PacketMonitor.Session

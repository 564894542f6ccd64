import Mathlib.Algebra.Group.Nat.Defs
import PacketMonitor.Session.Backoff

namespace PacketMonitor.Session

namespace Duration

theorem toMillis_eq (d : Duration) : d.toMillis = d.toNanos / 1000000 := by
  simp only [toMillis, toNanos]
  omega

theorem toNanos_le_longest (d : Duration) : d.toNanos ≤ longest.toNanos := by
  have hseconds := d.seconds_lt
  have hnanos := d.nanos_lt
  change d.seconds * 1000000000 + d.nanos ≤ (2 ^ 64 - 1) * 1000000000 + 999999999
  omega

theorem isAtMost_iff {a b : Duration} : a.isAtMost b = true ↔ a.toNanos ≤ b.toNanos := by
  have ha := a.nanos_lt
  have hb := b.nanos_lt
  simp only [isAtMost, Bool.or_eq_true, Bool.and_eq_true, decide_eq_true_eq, beq_iff_eq, toNanos]
  omega

theorem toNanos_shorter (a b : Duration) : (a.shorter b).toNanos = min a.toNanos b.toNanos := by
  rw [shorter]
  split
  · rename_i hle
    exact (Nat.min_eq_left (isAtMost_iff.mp hle)).symm
  · rename_i hlt
    exact (Nat.min_eq_right (Nat.le_of_not_le (mt isAtMost_iff.mpr hlt))).symm

/-- Seconds and nanoseconds are counted together, and none are lost below the longest
    duration. -/
theorem toNanos_ofParts (seconds nanos : Nat) :
    (ofParts seconds nanos).toNanos = min (seconds * 1000000000 + nanos) longest.toNanos := by
  have hlongest : longest.toNanos = (2 ^ 64 - 1) * 1000000000 + 999999999 := rfl
  rw [ofParts]
  split
  · simp only [hlongest]
    simp only [toNanos]
    omega
  · rw [hlongest]
    omega

theorem toNanos_double (d : Duration) : d.double.toNanos = min (2 * d.toNanos) longest.toNanos := by
  rw [double, toNanos_ofParts]
  congr 1
  rw [toNanos]
  omega

end Duration

namespace Backoff

/-- What can be done with the delays: take the next one, or start again. -/
inductive Draw where
  | next
  | reset
  deriving DecidableEq, Repr

/-- The sequence after something was done with it. -/
def draw (b : Backoff) : Draw → Backoff
  | .next => b.next.2
  | .reset => b.reset

/-- How many delays were taken since the last start, if some were taken before. -/
def taken (count : Nat) (draws : List Draw) : Nat :=
  draws.foldl (fun
    | count, .next => count + 1
    | _, .reset => 0) count

/-- The sequence after some delays were taken from it. -/
def advanced (b : Backoff) : Nat → Backoff
  | 0 => b
  | count + 1 => (b.advanced count).next.2

@[simp] theorem limit_advanced (b : Backoff) (count : Nat) : (b.advanced count).limit = b.limit := by
  induction count with
  | zero => rfl
  | succ count ih => exact ih

@[simp] theorem initial_advanced (b : Backoff) (count : Nat) :
    (b.advanced count).initial = b.initial := by
  induction count with
  | zero => rfl
  | succ count ih => exact ih

theorem reset_advanced_start (initial limit : Duration) (count : Nat) :
    ((start initial limit).advanced count).reset = start initial limit := by
  have hreset : ∀ b : Backoff, b.reset = ⟨b.initial, b.limit, b.initial⟩ := fun _ => rfl
  rw [hreset, initial_advanced, limit_advanced]
  rfl

/-- Only the delays taken since the last start make a difference. -/
theorem foldl_draw_advanced_start (initial limit : Duration) (count : Nat) (draws : List Draw) :
    draws.foldl draw ((start initial limit).advanced count) =
      (start initial limit).advanced (taken count draws) := by
  induction draws generalizing count with
  | nil => rfl
  | cons first draws ih =>
    rw [List.foldl_cons]
    cases first with
    | next => exact ih (count + 1)
    | reset =>
      rw [draw, reset_advanced_start]
      exact ih 0

theorem taken_append_replicate (draws : List Draw) (count : Nat) :
    taken 0 (draws ++ List.replicate count Draw.next) = taken 0 draws + count := by
  induction count with
  | zero => rw [List.replicate_zero, List.append_nil, Nat.add_zero]
  | succ count ih =>
    rw [List.replicate_succ', ← List.append_assoc, taken, List.foldl_append]
    exact congrArg (· + 1) ih

/-- Doubling that is cut off at every step is doubling that is cut off in the end. -/
theorem toNanos_advanced_start (initial limit : Duration) (count : Nat) :
    ((start initial limit).advanced count).current.toNanos =
      min limit.toNanos (initial.toNanos * 2 ^ count) := by
  have hlimit := limit.toNanos_le_longest
  induction count with
  | zero =>
    have hstart := initial.toNanos_shorter limit
    rw [Nat.pow_zero, Nat.mul_one, Nat.min_comm]
    exact hstart
  | succ count ih =>
    have hstep : ((start initial limit).advanced (count + 1)).current =
        ((start initial limit).advanced count).current.double.shorter
          ((start initial limit).advanced count).limit := rfl
    rw [hstep, limit_advanced, Duration.toNanos_shorter, Duration.toNanos_double, ih, Nat.pow_succ,
      ← Nat.mul_assoc]
    simp only [start]
    omega

/-- Whatever was done before, the next delay is the first one doubled for each delay taken since the
    last start, up to the limit, to the nanosecond. Later delays up to another start are no
    shorter. -/
theorem next_after_draws (initial limit : Duration) (draws : List Draw) :
    let delay := (draws.foldl draw (start initial limit)).next.1
    let nanos := min limit.toNanos (min initial.toNanos limit.toNanos * 2 ^ taken 0 draws)
    (delay.seconds = nanos / 1000000000 ∧ delay.nanos = nanos % 1000000000) ∧
      delay.isAtMost limit = true ∧
      ∀ count, delay.isAtMost
        ((draws ++ List.replicate count Draw.next).foldl draw (start initial limit)).next.1 = true := by
  intro delay nanos
  have hvalue : ∀ draws : List Draw,
      (draws.foldl draw (start initial limit)).next.1.toNanos =
        min limit.toNanos (initial.toNanos * 2 ^ taken 0 draws) := by
    intro draws
    rw [← toNanos_advanced_start, ← foldl_draw_advanced_start]
    rfl
  have hdelay : delay.toNanos = nanos := by
    rw [hvalue]
    have hpower : 1 ≤ 2 ^ taken 0 draws := Nat.one_le_two_pow
    obtain hle | hle := Nat.le_total initial.toNanos limit.toNanos
    · simp only [nanos, Nat.min_eq_left hle]
    · have hinitial := Nat.le_mul_of_pos_right initial.toNanos hpower
      have hlimit := Nat.le_mul_of_pos_right limit.toNanos hpower
      simp only [nanos, Nat.min_eq_right hle, Nat.min_eq_left hlimit,
        Nat.min_eq_left (Nat.le_trans hle hinitial)]
  refine ⟨?_, Duration.isAtMost_iff.mpr ?_, fun count => Duration.isAtMost_iff.mpr ?_⟩
  · have hnanos := delay.nanos_lt
    rw [← hdelay, Duration.toNanos]
    omega
  · exact Nat.le_trans (Nat.le_of_eq hdelay) (Nat.min_le_left ..)
  · have hpower := Nat.pow_le_pow_right (by decide : 0 < 2) (Nat.le_add_right (taken 0 draws) count)
    have hlonger := Nat.mul_le_mul_left initial.toNanos hpower
    rw [hvalue, hvalue, taken_append_replicate]
    exact Nat.le_min.mpr ⟨Nat.min_le_left .., Nat.le_trans (Nat.min_le_right ..) hlonger⟩

end Backoff

end PacketMonitor.Session

import PacketMonitor.Proofs.Stream.Entering
import PacketMonitor.Session.Supervisor

namespace PacketMonitor.Session

open PacketMonitor.Stream

def Happening.status? : Happening → Option Status
  | .status reached => some reached
  | _ => none

/-- The statuses set among some happenings, each with its time. -/
def statusesAmong (happenings : List (Nat × Happening)) : List (Nat × Status) :=
  happenings.filterMap fun (time, happening) => happening.status?.map (time, ·)

@[simp] theorem statusesAmong_nil : statusesAmong [] = [] := rfl

@[simp] theorem statusesAmong_cons_status (time : Nat) (status : Status)
    (rest : List (Nat × Happening)) :
    statusesAmong ((time, .status status) :: rest) = (time, status) :: statusesAmong rest := rfl

@[simp] theorem statusesAmong_append (early late : List (Nat × Happening)) :
    statusesAmong (early ++ late) = statusesAmong early ++ statusesAmong late := by
  simp [statusesAmong]

@[simp] theorem statuses_append (early late : Chronicle) :
    Chronicle.statuses (early ++ late) = early.statuses ++ late.statuses := by
  simp [Chronicle.statuses]

@[simp] theorem statuses_ofTimed (connection : Nat) (happenings : List (Nat × Happening)) :
    (Chronicle.ofTimed connection happenings).statuses = statusesAmong happenings := by
  induction happenings with
  | nil => rfl
  | cons entry rest ih =>
    obtain ⟨time, happening⟩ := entry
    cases happening with
    | status status => exact congrArg ((time, status) :: ·) ih
    | _ => exact ih

@[simp] theorem statusesAmong_flushes (sent : List Sent) : statusesAmong (flushes sent) = [] := by
  simp [statusesAmong, flushes, List.filterMap_map, Happening.status?]

theorem filterMap_merge_of_none {α β : Type} {f : α → Option β} {le : α → α → Bool}
    (entries : List α) {others : List α} (hothers : ∀ other ∈ others, f other = none) :
    (entries.merge others le).filterMap f = entries.filterMap f := by
  fun_induction List.merge entries others le with
  | case1 others => exact List.filterMap_eq_nil_iff.mpr hothers
  | case2 entries => rfl
  | case3 entry entries other others hle ih =>
    rw [List.filterMap_cons, List.filterMap_cons, ih hothers]
  | case4 entry entries other others hle ih =>
    rw [List.filterMap_cons, hothers other (List.mem_cons_self ..)]
    exact ih fun later hlater => hothers later (List.mem_cons_of_mem _ hlater)

/-- The messages that are sent at the same time leave no trace among the statuses. -/
theorem statusesAmong_merge_flushes (reading : List (Nat × Happening)) (sent : List Sent)
    (le : Nat × Happening → Nat × Happening → Bool) :
    statusesAmong (reading.merge (flushes sent) le) = statusesAmong reading := by
  refine filterMap_merge_of_none reading fun other hother => ?_
  obtain ⟨message, -, rfl⟩ := List.mem_map.mp hother
  rfl

theorem statusesAmong_occurrences (occurrences : List (Nat × Occurrence)) :
    statusesAmong (occurrences.map fun (time, o) => (time, Happening.ofOccurrence o)) =
      (entered occurrences).map fun (time, phase) => (time, .monitor phase) := by
  induction occurrences with
  | nil => rfl
  | cons entry rest ih =>
    obtain ⟨time, occurrence⟩ := entry
    cases occurrence with
    | told signal =>
      cases signal with
      | entered phase => exact congrArg ((time, .monitor phase) :: ·) ih
      | frame raw => exact ih
    | consumed segment => exact ih
    | ended => exact ih

theorem eq_cancelled_of_isCancelled {fault : Fault}
    (hcancelled : (Error.monitor fault).isCancelled = true) : fault = .cancelled := by
  cases fault with
  | cancelled => rfl
  | _ => cases hcancelled

end PacketMonitor.Session

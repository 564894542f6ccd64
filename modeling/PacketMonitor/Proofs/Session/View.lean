import PacketMonitor.Proofs.Stream.Monitoring
import PacketMonitor.Session.Chronicle

namespace PacketMonitor.Session

open PacketMonitor.Stream

/-- Whoever follows a chronicle to its end finds the events of its frames published,
    in the order of the frames, and nothing else. -/
theorem hub_finally (color : RouteColor) (view : View) (chronicle : Chronicle) :
    (view.finally color chronicle).hub =
      view.hub.publishAll (published color chronicle.frames) := by
  induction chronicle generalizing view with
  | nil => rfl
  | cons entry rest ih =>
    have hrest := ih (view.follow color entry)
    rw [View.finally, List.foldl_cons]
    refine hrest.trans ?_
    obtain ⟨time, connection, happening⟩ := entry
    cases happening with
    | frame raw =>
      simp [View.follow, Chronicle.frames, published, Hub.publishAll_append]
    | _ => rfl

/-- The chronicle of a single run on a stream. -/
def chronicleOfRun (connection : Nat) (occurrences : List (Nat × Occurrence)) : Chronicle :=
  Chronicle.ofTimed connection (occurrences.map fun (time, o) => (time, Happening.ofOccurrence o))

theorem frames_chronicleOfRun (connection : Nat) (occurrences : List (Nat × Occurrence)) :
    (chronicleOfRun connection occurrences).frames = framesAmong (signals occurrences) := by
  induction occurrences with
  | nil => rfl
  | cons entry rest ih =>
    obtain ⟨time, occurrence⟩ := entry
    cases occurrence with
    | told signal =>
      cases signal with
      | entered phase => exact ih
      | frame raw => exact congrArg (raw :: ·) ih
    | consumed segment => exact ih
    | ended => exact ih

theorem hub_chronicleOfRun (color : RouteColor) (view : View) (connection : Nat)
    (occurrences : List (Nat × Occurrence)) :
    (view.finally color (chronicleOfRun connection occurrences)).hub =
      view.hub.publishAll (published color (framesAmong (signals occurrences))) := by
  rw [hub_finally, frames_chronicleOfRun]

/-- A run that does not enter monitoring publishes nothing. -/
theorem hub_run_of_not_entered (color : RouteColor) (view : View) {cancelAt now : Nat} {r : Reader}
    {source : Source}
    (hentered : .entered .monitoring ∉ signals (r.run cancelAt now source).occurrences) :
    (view.finally color (chronicleOfRun 0 (r.run cancelAt now source).occurrences)).hub = view.hub := by
  obtain ⟨hsignals, -, -⟩ := Reader.run_eq_takeAll cancelAt now r source
  rw [entered_run_iff (.inr rfl)] at hentered
  have hnone := framesAmong_eq_nil (r.restart.path_takeAll (source.heard cancelAt now)) hentered
  have hframes : framesAmong (signals (r.run cancelAt now source).occurrences) = [] := by
    rw [hsignals]
    simpa [framesAmong] using hnone
  rw [hub_chronicleOfRun, hframes]
  rfl

end PacketMonitor.Session

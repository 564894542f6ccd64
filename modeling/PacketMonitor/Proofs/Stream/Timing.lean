import PacketMonitor.Proofs.Stream.Phases
import PacketMonitor.Proofs.Stream.Segmentation

namespace PacketMonitor.Stream

theorem badHeader_ne_cancelled (chunk : List UInt8) : badHeader chunk ≠ .cancelled := by
  unfold badHeader
  split
  · exact Fault.noConfusion
  · exact Fault.noConfusion

theorem Ending.fault?_ne_cancelled {phase : Phase} {ending : Ending} {fault : Fault}
    (hfault : ending.fault? phase = some fault) : fault ≠ .cancelled := by
  cases ending with
  | close =>
    obtain rfl : Fault.closed phase = fault := Option.some.inj hfault
    exact Fault.noConfusion
  | failure message =>
    obtain rfl : Fault.io message = fault := Option.some.inj hfault
    exact Fault.noConfusion
  | silence => cases hfault

namespace Reader

theorem fault_takeByte_ne_cancelled {r last : Reader} {b : UInt8} {fault : Fault}
    (htake : r.takeByte b = .error (last, fault)) : fault ≠ .cancelled := by
  unfold takeByte at htake
  split at htake
  · obtain ⟨next, told, hchunk, -⟩ | ⟨-, -, hchunk⟩ :=
      takeChunk_spec r.fresh_reset (b :: r.pending).reverse
    · rw [hchunk] at htake
      cases htake
    · rw [hchunk] at htake
      cases htake
      exact badHeader_ne_cancelled _
  · split at htake
    · cases htake
    · cases htake
      exact Fault.noConfusion

theorem fault_takeAll_ne_cancelled {r : Reader} {bytes left : List UInt8} {fault : Fault}
    (hfault : (r.takeAll bytes).fault = some (fault, left)) : fault ≠ .cancelled := by
  induction bytes generalizing r with
  | nil => cases hfault
  | cons b rest ih =>
    cases htake : r.takeByte b with
    | ok taken =>
      rw [takeAll_cons_ok htake] at hfault
      exact ih hfault
    | error refused =>
      rw [takeAll_cons_error htake] at hfault
      cases hfault
      exact fault_takeByte_ne_cancelled htake

namespace Listens

variable {cancelAt endsAt now : Nat} {ending : Ending} {r : Reader} {segments : List Segment}
  {outcome : Outcome}

/-- Nothing is told of a stream before it is read. -/
theorem now_le_of_mem (hlistens : Listens cancelAt ending endsAt now r segments outcome) :
    ∀ entry ∈ outcome.occurrences, now ≤ entry.1 := by
  induction hlistens with
  | endless | late => exact List.forall_mem_nil _
  | ended => exact List.forall_mem_singleton.mpr (Nat.le_max_left ..)
  | broken => exact fun entry hentry => fst_of_mem_toldAt hentry ▸ Nat.le_max_left ..
  | consumed _ _ _ ih =>
    refine List.forall_mem_append.mpr ⟨List.forall_mem_append.mpr ⟨?_, ?_⟩, ?_⟩
    · exact fun entry hentry => fst_of_mem_toldAt hentry ▸ Nat.le_max_left ..
    · exact List.forall_mem_singleton.mpr (Nat.le_max_left ..)
    · exact fun entry hentry => Nat.le_trans (Nat.le_max_left ..) (ih entry hentry)

/-- Reading takes no time back, and only cancellation counts as such. -/
theorem timing (hlistens : Listens cancelAt ending endsAt now r segments outcome) :
    now ≤ outcome.time ∧ (∀ entry ∈ outcome.occurrences, entry.1 ≤ outcome.time) ∧
      (outcome.fault = .cancelled → cancelAt ≤ outcome.time) := by
  induction hlistens with
  | endless | late =>
    exact ⟨Nat.le_max_left .., List.forall_mem_nil _, fun _ => Nat.le_max_right ..⟩
  | ended _ hfault =>
    exact ⟨Nat.le_max_left .., List.forall_mem_singleton.mpr (Nat.le_refl _),
      fun hcancelled => absurd hcancelled (Ending.fault?_ne_cancelled hfault)⟩
  | broken _ hfault =>
    exact ⟨Nat.le_max_left .., fun entry hentry => Nat.le_of_eq (fst_of_mem_toldAt hentry),
      fun hcancelled => absurd hcancelled (fault_takeAll_ne_cancelled hfault)⟩
  | consumed _ _ _ ih =>
    obtain ⟨hnow, htimes, hcancelled⟩ := ih
    refine ⟨Nat.le_trans (Nat.le_max_left ..) hnow, ?_, hcancelled⟩
    refine List.forall_mem_append.mpr ⟨List.forall_mem_append.mpr ⟨?_, ?_⟩, htimes⟩
    · exact fun entry hentry => fst_of_mem_toldAt hentry ▸ hnow
    · exact List.forall_mem_singleton.mpr hnow

/-- What is told of a stream comes in the order of time. -/
theorem pairwise (hlistens : Listens cancelAt ending endsAt now r segments outcome) :
    outcome.occurrences.Pairwise (·.1 ≤ ·.1) := by
  have htold : ∀ time told, (toldAt time told).Pairwise (·.1 ≤ ·.1) := fun time told =>
    List.pairwise_map.mpr (List.pairwise_of_forall fun _ _ => Nat.le_refl _)
  induction hlistens with
  | endless | late => exact .nil
  | ended => exact List.pairwise_singleton ..
  | broken => exact htold ..
  | @consumed now r segment rest later hready hfault hlater ih =>
    refine List.pairwise_append.mpr ⟨List.pairwise_append.mpr ⟨htold .., ?_, ?_⟩, ih, ?_⟩
    · exact List.pairwise_singleton ..
    · intro entry hentry consumed hconsumed
      rw [fst_of_mem_toldAt hentry, List.mem_singleton.mp hconsumed]
    · intro entry hentry behind hbehind
      have htime : entry.1 = max now segment.readyAt := by
        obtain hentry | hentry := List.mem_append.mp hentry
        · exact fst_of_mem_toldAt hentry
        · rw [List.mem_singleton.mp hentry]
      exact htime ▸ hlater.now_le_of_mem behind hbehind

/-- Cancellation ends reading at once, and nothing is told from then on. -/
theorem before_cancellation (hlistens : Listens cancelAt ending endsAt now r segments outcome)
    (hnow : now < cancelAt) :
    outcome.time ≤ cancelAt ∧ ∀ entry ∈ outcome.occurrences, entry.1 < cancelAt := by
  induction hlistens with
  | endless | late =>
    exact ⟨Nat.max_le.mpr ⟨Nat.le_of_lt hnow, Nat.le_refl _⟩, List.forall_mem_nil _⟩
  | ended hready => exact ⟨Nat.le_of_lt hready, List.forall_mem_singleton.mpr hready⟩
  | broken hready =>
    exact ⟨Nat.le_of_lt hready, fun entry hentry => fst_of_mem_toldAt hentry ▸ hready⟩
  | consumed hready _ _ ih =>
    obtain ⟨hover, htimes⟩ := ih hready
    refine ⟨hover, List.forall_mem_append.mpr ⟨List.forall_mem_append.mpr ⟨?_, ?_⟩, htimes⟩⟩
    · exact fun entry hentry => fst_of_mem_toldAt hentry ▸ hready
    · exact List.forall_mem_singleton.mpr hready

end Listens

theorem now_le_of_mem_run {cancelAt now : Nat} {r : Reader} {source : Source} {entry : Nat × Occurrence}
    (hentry : entry ∈ (r.run cancelAt now source).occurrences) : now ≤ entry.1 := by
  have hlistens := listens_source cancelAt now r source
  simp only [run, List.mem_cons, List.mem_append, List.not_mem_nil, or_false] at hentry
  obtain rfl | hread | rfl := hentry
  · exact Nat.le_refl _
  · exact hlistens.now_le_of_mem entry hread
  · exact hlistens.timing.1

end Reader

end PacketMonitor.Stream

import PacketMonitor.Proofs.Stream.Reading

namespace PacketMonitor.Stream

/-- The phase that is entered, with the time. -/
def entered? : Nat × Occurrence → Option (Nat × Phase)
  | (time, .told (.entered phase)) => some (time, phase)
  | _ => none

/-- The phases entered among some occurrences, each with its time. -/
def entered (occurrences : List (Nat × Occurrence)) : List (Nat × Phase) :=
  occurrences.filterMap entered?

theorem entered?_eq_some_iff {entry : Nat × Occurrence} {time : Nat} {phase : Phase} :
    entered? entry = some (time, phase) ↔ entry = (time, .told (.entered phase)) := by
  constructor
  · intro hentered
    obtain ⟨time', occurrence⟩ := entry
    cases occurrence with
    | told signal =>
      cases signal with
      | entered phase' =>
        cases hentered
        rfl
      | frame raw => cases hentered
    | consumed segment => cases hentered
    | ended => cases hentered
  · rintro rfl
    rfl

theorem mem_entered_iff {occurrences : List (Nat × Occurrence)} {time : Nat} {phase : Phase} :
    (time, phase) ∈ entered occurrences ↔ (time, .told (.entered phase)) ∈ occurrences := by
  rw [entered, List.mem_filterMap]
  constructor
  · rintro ⟨entry, hentry, hentered⟩
    exact entered?_eq_some_iff.mp hentered ▸ hentry
  · exact fun hentry => ⟨_, hentry, rfl⟩

theorem pairwise_entered {occurrences : List (Nat × Occurrence)}
    (hsorted : occurrences.Pairwise (·.1 ≤ ·.1)) : (entered occurrences).Pairwise (·.1 ≤ ·.1) := by
  refine hsorted.filterMap entered? fun entry later hle first hfirst next hnext => ?_
  rw [entered?_eq_some_iff.mp hfirst, entered?_eq_some_iff.mp hnext] at hle
  exact hle

def Signal.phase? : Signal → Option Phase
  | .entered phase => some phase
  | .frame _ => none

theorem map_snd_entered (occurrences : List (Nat × Occurrence)) :
    (entered occurrences).map (·.2) = (signals occurrences).filterMap Signal.phase? := by
  induction occurrences with
  | nil => rfl
  | cons entry rest ih =>
    obtain ⟨time, occurrence⟩ := entry
    cases occurrence with
    | told signal =>
      cases signal with
      | entered phase => exact congrArg (phase :: ·) ih
      | frame raw => exact ih
    | consumed segment => exact ih
    | ended => exact ih

/-- The phases of a session that reads a stream from a time on until another one. It comes as
    far as is delivered, and is not left open. -/
inductive Phased (source : Source) (cancelAt now finish : Nat) : List (Nat × Phase) → Prop where
  | unheard : Phased source cancelAt now finish [(now, .connecting), (finish, .failed)]
  | greeted {awaited : Nat} (hawaited : now ≤ awaited) (hfinish : awaited ≤ finish) :
    Phased source cancelAt now finish
      [(now, .connecting), (awaited, .awaitingPortList), (finish, .failed)]
  | opened {awaited opened : Nat} {before : List UInt8} {digit : UInt8} {names : List (List UInt8)}
    (hawaited : now ≤ awaited) (hopened : awaited ≤ opened) (hfinish : opened ≤ finish)
    (hopens : Opens before digit names)
    (hdelivered : before ++ portList digit names <+: source.deliveredBy cancelAt opened) :
    Phased source cancelAt now finish
      [(now, .connecting), (awaited, .awaitingPortList), (opened, .monitoring), (finish, .failed)]

namespace Reader

variable {cancelAt now : Nat} {r : Reader} {source : Source} {archive : Archive} {reading : Reading}

/-- Between its first phase and its last a run enters at most two, one after the other. -/
theorem phases_told_of_connecting (cancelAt now : Nat) (r : Reader) (source : Source) :
    (signals (told cancelAt now r source)).filterMap Signal.phase? <+:
      [.awaitingPortList, .monitoring] := by
  obtain ⟨hsignals, -, -⟩ := (listens_source cancelAt now r source).eq_takeAll
  have hpath : Path .connecting _ _ := r.restart.path_takeAll (source.heard cancelAt now)
  have htold : signals (told cancelAt now r source) = _ := hsignals
  obtain ⟨-, hpath⟩ | ⟨-, hpath⟩ | ⟨-, frames, hpath⟩ := hpath.of_connecting
  · rw [htold, hpath]
    exact List.nil_prefix
  · rw [htold, hpath]
    exact ⟨[.monitoring], rfl⟩
  · have hframes : (frames.map Signal.frame).filterMap Signal.phase? = [] := by
      rw [List.filterMap_map]
      exact List.filterMap_eq_nil_iff.mpr fun _ _ => rfl
    rw [htold, hpath, List.filterMap_cons, List.filterMap_cons, hframes]
    exact List.prefix_rfl

theorem Reads.phased (hreads : Reads cancelAt now r source archive reading) (hnow : now < cancelAt) :
    Phased source cancelAt now reading.time (entered reading.occurrences) := by
  obtain ⟨kept, hoccurrences, hfront, -, hover⟩ := hreads.exists_kept
  have hbounds : ∀ entry ∈ entered kept, now ≤ entry.1 ∧ entry.1 ≤ reading.time := by
    intro entry hentry
    have hmem := mem_entered_iff.mp hentry
    exact ⟨now_le_of_mem_told cancelAt now r source (hfront.subset hmem), hover _ hmem⟩
  have hsorted : (entered kept).Pairwise (·.1 ≤ ·.1) :=
    pairwise_entered ((pairwise_told ..).sublist hfront.sublist)
  have hphases : (entered kept).map (·.2) <+: [.awaitingPortList, .monitoring] := by
    rw [map_snd_entered]
    exact ((hfront.filterMap _).filterMap _).trans (phases_told_of_connecting cancelAt now r source)
  have hdelivered : ∀ time, (time, .monitoring) ∈ entered kept → ∃ before digit names,
      Opens before digit names ∧ before ++ portList digit names <+: source.deliveredBy cancelAt time := by
    intro time hmem
    refine exists_opens_of_mem_run hnow (r := r) ?_
    rw [occurrences_run]
    exact List.mem_cons_of_mem _ (List.mem_append_left _ (hfront.subset (mem_entered_iff.mp hmem)))
  have hentered : entered reading.occurrences =
      (now, .connecting) :: (entered kept ++ [(reading.time, .failed)]) := by
    rw [hoccurrences]
    exact congrArg (_ :: ·) (List.filterMap_append ..)
  rw [hentered]
  generalize entered kept = phases at hbounds hsorted hphases hdelivered
  obtain _ | ⟨⟨awaited, first⟩, _ | ⟨⟨opened, second⟩, _ | ⟨third, more⟩⟩⟩ := phases
  · exact .unheard
  · obtain ⟨rfl, -⟩ := List.cons_prefix_cons.mp hphases
    obtain ⟨hawaited, hfinish⟩ := hbounds _ (List.mem_cons_self ..)
    exact .greeted hawaited hfinish
  · obtain ⟨rfl, hbehind⟩ := List.cons_prefix_cons.mp hphases
    obtain ⟨rfl, -⟩ := List.cons_prefix_cons.mp hbehind
    obtain ⟨hawaited, -⟩ := hbounds _ (List.mem_cons_self ..)
    obtain ⟨-, hfinish⟩ := hbounds (opened, .monitoring) (by simp)
    obtain ⟨before, digit, names, hopens, hstarts⟩ := hdelivered opened (by simp)
    exact .opened hawaited (by simpa using hsorted) hfinish hopens hstarts
  · exact absurd hphases.length_le (by simp)

end Reader

end PacketMonitor.Stream

import Mathlib.Data.List.TakeWhile
import PacketMonitor.Proofs.Stream.Archive
import PacketMonitor.Proofs.Stream.Passage

namespace PacketMonitor.Stream

/-- The stream comes to an end, and cancellation does not come before all that there is to
    wait for. -/
structure Source.Undisturbed (source : Source) (cancelAt now : Nat) : Prop where
  now_lt : now < cancelAt
  ready_lt : ∀ segment ∈ source.segments, segment.readyAt < cancelAt
  ends_lt : source.endsAt < cancelAt
  ending_ne : source.ending ≠ .silence

namespace Source.Undisturbed

variable {source : Source} {cancelAt now : Nat}

theorem inTime_eq (hquiet : source.Undisturbed cancelAt now) {segment : Segment}
    (hsegment : segment ∈ source.segments) : inTime cancelAt now segment.readyAt = true :=
  decide_eq_true (Nat.max_lt.mpr ⟨hquiet.now_lt, hquiet.ready_lt segment hsegment⟩)

theorem heard_eq (hquiet : source.Undisturbed cancelAt now) : source.heard cancelAt now = source.bytes := by
  rw [heard, bytes, List.takeWhile_eq_self_iff.mpr]
  exact fun segment hsegment => hquiet.inTime_eq hsegment

theorem closing_eq (hquiet : source.Undisturbed cancelAt now) :
    source.closing cancelAt now = source.ending := by
  have hends : inTime cancelAt now source.endsAt = true :=
    decide_eq_true (Nat.max_lt.mpr ⟨hquiet.now_lt, hquiet.ends_lt⟩)
  have hall : source.segments.all (fun segment => inTime cancelAt now segment.readyAt) = true :=
    List.all_eq_true.mpr fun segment hsegment => hquiet.inTime_eq hsegment
  rw [closing, if_pos ⟨hall, hends⟩]

end Source.Undisturbed

/-- Reading without disturbance leaves what the bytes taken at once leave, and it can go on
    without disturbance. -/
theorem Reader.Listens.undisturbed {cancelAt endsAt now : Nat} {ending : Ending} {r : Reader}
    {segments : List Segment} {outcome : Outcome}
    (hlistens : Listens cancelAt ending endsAt now r segments outcome)
    (hquiet : Source.Undisturbed ⟨segments, ending, endsAt⟩ cancelAt now) :
    outcome.source.bytes =
        ((r.takeAll (Source.bytes ⟨segments, ending, endsAt⟩)).fault.map (·.2)).getD [] ∧
      outcome.source.ending = ending ∧ outcome.source.Undisturbed cancelAt outcome.time := by
  obtain ⟨hnow, hready, hends, hending⟩ := hquiet
  induction hlistens with
  | @endless now r hlate =>
    obtain ⟨fault, hfault⟩ : ∃ fault, ending.fault? r.phase = some fault := by
      cases ending with
      | close | failure message => exact ⟨_, rfl⟩
      | silence => exact absurd rfl hending
    exact absurd (Nat.max_lt.mpr ⟨hnow, hends⟩) (Nat.not_lt.mpr (hlate fault hfault))
  | ended hclosed => exact ⟨rfl, rfl, hclosed, hready, hends, hending⟩
  | @late now r segment rest hlate =>
    have hsegment : segment.readyAt < cancelAt := hready segment (List.mem_cons_self ..)
    exact absurd (Nat.max_lt.mpr ⟨hnow, hsegment⟩) (Nat.not_lt.mpr hlate)
  | @broken now r segment rest fault left htime hfault =>
    have hbytes : Source.bytes ⟨segment :: rest, ending, endsAt⟩ =
        segment.bytes ++ Source.bytes ⟨rest, ending, endsAt⟩ := rfl
    obtain ⟨hsegment, hrest⟩ := List.forall_mem_cons.mp hready
    refine ⟨?_, rfl, htime, List.forall_mem_cons.mpr ⟨hsegment, hrest⟩, hends, hending⟩
    rw [hbytes, takeAll_append]
    simp only [Intake.leaving, hfault]
    rfl
  | @consumed now r segment rest later htime hfault hlater ih =>
    have hbytes : Source.bytes ⟨segment :: rest, ending, endsAt⟩ =
        segment.bytes ++ Source.bytes ⟨rest, ending, endsAt⟩ := rfl
    rw [hbytes, takeAll_append, hfault]
    exact ih htime (List.forall_mem_cons.mp hready).2 hends hending

namespace Engine

variable {cancelAt : Nat} {engine : Engine} {passage : Passage}

/-- An undisturbed run goes through the stream as a passage says. -/
theorem outcome_of_passes (hquiet : engine.source.Undisturbed cancelAt engine.time)
    (hpasses : Passes engine.source.ending .greeting engine.source.bytes passage) :
    let outcome := engine.outcome cancelAt
    signals outcome.occurrences =
        .entered .connecting :: (passage.chunks.flatMap Accepted.told ++ [.entered .failed]) ∧
      outcome.fault = passage.fault ∧ outcome.source.bytes = passage.left ∧
      outcome.reader.ports = passage.chunks.foldl Accepted.ports engine.reader.ports := by
  obtain ⟨hsignals, hreader, hfault⟩ :=
    Reader.run_eq_takeAll cancelAt engine.time engine.reader engine.source
  obtain ⟨hleft, -⟩ :=
    (Reader.listens_source cancelAt engine.time engine.reader engine.source).undisturbed hquiet
  obtain ⟨htold, hports, hends, hrest⟩ := Reader.takeAll_of_passes hpasses engine.reader.at_greeting
  rw [hquiet.heard_eq] at hsignals hreader hfault
  rw [hquiet.closing_eq] at hfault
  refine ⟨?_, hfault.trans hends, hleft.trans hrest, (congrArg Reader.ports hreader).trans hports⟩
  rw [← htold]
  exact hsignals

theorem undisturbed_run (color : RouteColor) (hquiet : engine.source.Undisturbed cancelAt engine.time) :
    (engine.run color cancelAt).source.ending = engine.source.ending ∧
      (engine.run color cancelAt).source.Undisturbed cancelAt (engine.run color cancelAt).time :=
  ((Reader.listens_source cancelAt engine.time engine.reader engine.source).undisturbed hquiet).2

theorem undisturbed_runs (color : RouteColor) (hquiet : engine.source.Undisturbed cancelAt engine.time)
    (count : Nat) :
    (engine.runs color cancelAt count).source.ending = engine.source.ending ∧
      (engine.runs color cancelAt count).source.Undisturbed cancelAt
        (engine.runs color cancelAt count).time := by
  induction count with
  | zero => exact ⟨rfl, hquiet⟩
  | succ count ih =>
    obtain ⟨hending, hnext⟩ := undisturbed_run color ih.2
    exact ⟨hending.trans ih.1, hnext⟩

/-- What is published by a run depends on its signals alone. -/
theorem hub_run (color : RouteColor) (cancelAt : Nat) (engine : Engine) :
    (engine.run color cancelAt).desk.hub = engine.desk.hub.publishAll
      (published color (framesAmong (signals (engine.outcome cancelAt).occurrences))) := by
  rw [desk_run, Desk.foldl_take, received, frames_map_snd]

end Engine

section Ports

variable {accepted after : List Accepted} {known : List String}

theorem foldl_ports_of_no_header (hnone : ∀ entry ∈ accepted, entry.stage ≠ .header) :
    accepted.foldl Accepted.ports known = known ++ accepted.filterMap Accepted.name? := by
  induction accepted generalizing known with
  | nil => exact (List.append_nil _).symm
  | cons entry rest ih =>
    have hentry : entry.stage ≠ .header := hnone entry (List.mem_cons_self ..)
    rw [List.foldl_cons, ih fun later hlater => hnone later (List.mem_cons_of_mem _ hlater),
      Accepted.ports, if_neg hentry, List.append_assoc, List.filterMap_cons]
    cases entry.name? <;> rfl

/-- A header makes all names before it forgotten. -/
theorem foldl_ports_of_header {head : Accepted} (before : List Accepted) (hhead : head.stage = .header)
    (hnone : ∀ entry ∈ after, entry.stage ≠ .header) :
    (before ++ head :: after).foldl Accepted.ports known = after.filterMap Accepted.name? := by
  rw [List.foldl_append, List.foldl_cons, Accepted.ports, if_pos hhead,
    foldl_ports_of_no_header hnone, List.nil_append]

/-- A name is accepted behind a header only. -/
theorem Passes.exists_header {ending : Ending} {stage : Stage} {bytes : List UInt8} {passage : Passage}
    (hpasses : Passes ending stage bytes passage) (hstage : stage = .greeting ∨ stage = .header)
    {entry : Accepted} (hentry : entry ∈ passage.chunks) (hname : entry.name? ≠ none) :
    ∃ head ∈ passage.chunks, head.stage = .header := by
  induction hpasses with
  | @chunk stage next chunk rest passage hchunk hnext hrest ih =>
    obtain rfl | rfl := hstage
    · have hnext' : next = .greeting ∨ next = .header := by
        cases hnext with
        | noise => exact .inl rfl
        | greeted => exact .inr rfl
      obtain rfl | hlater := List.mem_cons.mp hentry
      · exact absurd rfl hname
      · obtain ⟨head, hhead, hheader⟩ := ih hnext' hlater
        exact ⟨head, List.mem_cons_of_mem _ hhead, hheader⟩
    · exact ⟨_, List.mem_cons_self .., rfl⟩
  | misheaded | overlong | tail => cases hentry

end Ports

/-- However often an engine runs on a stream that ends, each run goes on exactly behind the
    bytes that the runs before it used up. It tells, publishes and ends as any engine that
    finds the bytes left, in whatever pieces. The ports are those behind the last header that
    was accepted in all runs. -/
theorem runs_resume (color : RouteColor) {cancelAt : Nat} {engine : Engine}
    (hquiet : engine.source.Undisturbed cancelAt engine.time) :
    let engines := engine.runs color cancelAt
    ∃ passage : Nat → Passage, ∀ k,
      let outcome := (engines k).outcome cancelAt
      let accepted := (List.range k).flatMap fun i => (passage i).chunks
      Passes engine.source.ending .greeting (engines k).source.bytes (passage k) ∧
      (engines (k + 1)).source.bytes = (passage k).left ∧
      engine.source.bytes =
        ((List.range k).flatMap fun i => (passage i).spent) ++ (engines k).source.bytes ∧
      signals outcome.occurrences =
        .entered .connecting :: ((passage k).chunks.flatMap Accepted.told ++ [.entered .failed]) ∧
      outcome.fault = (passage k).fault ∧
      (∀ (other : Engine) (cancelAt' : Nat), other.source.bytes = (engines k).source.bytes →
        other.source.ending = engine.source.ending →
        other.source.Undisturbed cancelAt' other.time →
          signals (other.outcome cancelAt').occurrences = signals outcome.occurrences ∧
          (other.outcome cancelAt').fault = outcome.fault ∧
          ∃ events, (engines (k + 1)).desk.hub = (engines k).desk.hub.publishAll events ∧
            (other.run color cancelAt').desk.hub = other.desk.hub.publishAll events) ∧
      (∀ before head after, accepted = before ++ head :: after → head.stage = .header →
        (∀ entry ∈ after, entry.stage ≠ .header) →
          (engines k).reader.ports = after.filterMap Accepted.name?) ∧
      ((∀ entry ∈ accepted, entry.stage ≠ .header) →
        (engines k).reader.ports = engine.reader.ports) := by
  intro engines
  have hquiets := fun k => engine.undisturbed_runs color hquiet k
  choose passage hpasses using fun k =>
    exists_passes engine.source.ending .greeting (engines k).source.bytes
  have hruns := fun k => Engine.outcome_of_passes (hquiets k).2 ((hquiets k).1 ▸ hpasses k)
  have hbytes : ∀ k, engine.source.bytes =
      ((List.range k).flatMap fun i => (passage i).spent) ++ (engines k).source.bytes := by
    intro k
    induction k with
    | zero => rfl
    | succ k ih =>
      obtain ⟨-, -, hleft, -⟩ := hruns k
      have hnext : (engines (k + 1)).source.bytes = (passage k).left := hleft
      rw [ih, (hpasses k).bytes_eq, hnext, List.range_succ, List.flatMap_append, List.append_assoc]
      simp
  have hports : ∀ k, (engines k).reader.ports =
      ((List.range k).flatMap fun i => (passage i).chunks).foldl Accepted.ports
        engine.reader.ports := by
    intro k
    induction k with
    | zero => rfl
    | succ k ih =>
      obtain ⟨-, -, -, hknown⟩ := hruns k
      have hnext : (engines (k + 1)).reader.ports = _ := hknown
      rw [hnext, ih, List.range_succ, List.flatMap_append, List.foldl_append]
      simp
  refine ⟨passage, fun k => ?_⟩
  intro outcome accepted
  obtain ⟨hsignals, hfault, hleft, -⟩ := hruns k
  refine ⟨hpasses k, hleft, hbytes k, hsignals, hfault, ?_, ?_, ?_⟩
  · intro other cancelAt' hsame hending hother
    have hpasses' : Passes other.source.ending .greeting other.source.bytes (passage k) := by
      rw [hsame, hending]
      exact hpasses k
    obtain ⟨hsignals', hfault', -⟩ := Engine.outcome_of_passes hother hpasses'
    have htold : signals (other.outcome cancelAt').occurrences = signals outcome.occurrences :=
      hsignals'.trans hsignals.symm
    refine ⟨htold, hfault'.trans hfault.symm,
      published color (framesAmong (signals outcome.occurrences)), ?_, ?_⟩
    · exact Engine.hub_run color cancelAt (engines k)
    · rw [Engine.hub_run, htold]
  · intro before head after hsplit hhead hnone
    rw [hports k]
    change accepted.foldl Accepted.ports engine.reader.ports = _
    rw [hsplit, foldl_ports_of_header before hhead hnone]
  · intro hnone
    have hnames : accepted.filterMap Accepted.name? = [] := by
      apply List.filterMap_eq_nil_iff.mpr
      intro entry hentry
      by_contra hname
      obtain ⟨i, hi, hentry⟩ := List.mem_flatMap.mp hentry
      obtain ⟨head, hhead, hheader⟩ := (hpasses i).exists_header (.inl rfl) hentry hname
      exact hnone head (List.mem_flatMap.mpr ⟨i, hi, hhead⟩) hheader
    rw [hports k]
    change accepted.foldl Accepted.ports engine.reader.ports = _
    rw [foldl_ports_of_no_header hnone, hnames, List.append_nil]

/-- A second run finds the banner and the list behind a header that was refused. -/
theorem second_run_behind_bad_header :
    let rest := banner ++ portList 0x31 [[0x41]] ++ [0x68, 0xFE, 0x7A]
    let bytes := banner ++ [0x78, 0x7C] ++ rest
    let source : Source := ⟨[⟨0, 0, bytes.take 27⟩, ⟨1, 0, bytes.drop 27⟩], .close, 0⟩
    let engine : Engine := ⟨{}, source, 0, ⟨.empty {}, none, none⟩⟩
    source.Undisturbed 1 0 ∧
      (∃ passage, Passes .close .greeting bytes passage ∧ passage.fault = badHeader [0x78, 0x7C] ∧
        passage.spent = banner ++ [0x78, 0x7C] ∧ passage.left = rest) ∧
      (engine.runs hueColor 1 2).source.bytes = [] ∧
      (engine.runs hueColor 1 2).reader.ports = ["A"] := by
  intro rest bytes source engine
  have hquiet : engine.source.Undisturbed 1 engine.time := ⟨by decide, by decide, by decide, by decide⟩
  obtain ⟨passage, hruns⟩ := runs_resume hueColor hquiet
  obtain ⟨hpasses, hleft, hbytes, -, hfault, -⟩ := hruns 0
  have hrest : (passage 0).left = rest := hleft.symm.trans (by decide +kernel)
  refine ⟨hquiet, ⟨passage 0, hpasses, ?_, ?_, hrest⟩, by decide +kernel, by decide +kernel⟩
  · exact hfault.symm.trans (by decide +kernel)
  · have hspent := hpasses.bytes_eq
    rw [hrest] at hspent
    exact (List.append_cancel_right hspent).symm

end PacketMonitor.Stream

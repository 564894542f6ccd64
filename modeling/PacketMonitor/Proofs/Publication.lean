import PacketMonitor.Proofs.Session.View
import PacketMonitor.Proofs.Stream.Preamble

namespace PacketMonitor.Stream

open Session

/-- A run awaits the list of ports from the end of the first banner in the bytes that
    it hears, unless a chunk before is beyond the limit, and it receives frames from
    the end of a complete list right behind the banner. The names of the ports are
    those of the list. Otherwise it fails without having published anything: by a
    violation if the list starts with another chunk or a chunk is beyond the limit,
    and as the stream ends if not. -/
theorem run_recognises_preamble (color : RouteColor) (view : View) (cancelAt now : Nat) (r : Reader)
    (source : Source) :
    let bytes := source.heard cancelAt now
    let closing := source.closing cancelAt now
    let outcome := r.run cancelAt now source
    let told := signals outcome.occurrences
    (banner <:+: bytes ↔ ∃ before, before <+: bytes ∧ EndsFirst before) ∧
    (∀ before, r.restart.EntersAfter .awaitingPortList before ↔
      EndsFirst before ∧ Within 0x0D before) ∧
    (.entered .awaitingPortList ∈ told ↔
      ∃ before, before <+: bytes ∧ EndsFirst before ∧ Within 0x0D before) ∧
    (.entered .monitoring ∈ told ↔
      ∃ before digit names, Opens before digit names ∧ before ++ portList digit names <+: bytes) ∧
    (∀ before digit names rest, bytes = before ++ portList digit names ++ rest →
      Opens before digit names →
        r.restart.EntersAfter .monitoring (before ++ portList digit names) ∧
        told = .entered .connecting :: .entered .awaitingPortList :: .entered .monitoring ::
          ((splitFrames rest).1.map .frame ++ [.entered .failed]) ∧
        outcome.reader.ports = names.map portName ∧
        ∀ port ∈ outcome.reader.ports, '|' ∉ port.toList) ∧
    (.entered .monitoring ∉ told →
      outcome.reader.phase = .failed ∧
      (view.finally color (chronicleOfRun 0 outcome.occurrences)).hub = view.hub ∧
      (∀ before rest, bytes = before ++ rest → Greets before →
        (∀ body, Misheaded body rest → outcome.fault = badHeader (body ++ [0x7C])) ∧
        ((∀ body, ¬ Misheaded body rest) →
          (Within 0x7C rest → outcome.fault = closing.fault .awaitingPortList) ∧
          (¬ Within 0x7C rest → outcome.fault = overlong 0x7C .awaitingPortList))) ∧
      (.entered .awaitingPortList ∉ told →
        (Within 0x0D bytes → outcome.fault = closing.fault .connecting) ∧
        (¬ Within 0x0D bytes → outcome.fault = overlong 0x0D .connecting))) := by
  intro bytes closing outcome told
  have hfresh := r.fresh_restart
  refine ⟨banner_infix_iff, fun before => Reader.entersAfter_awaitingPortList_iff hfresh rfl, ?_, ?_,
    ?_, ?_⟩
  · exact (entered_run_iff (.inl rfl) ..).trans
      (Reader.entered_awaitingPortList_iff hfresh rfl bytes)
  · exact (entered_run_iff (.inr rfl) ..).trans
      (Reader.entered_monitoring_iff hfresh rfl rfl bytes)
  · intro before digit names rest hheard hopens
    obtain ⟨htold, hports⟩ := Reader.run_of_opens (r := r) hheard hopens
    refine ⟨Reader.entersAfter_monitoring hfresh rfl rfl hopens, htold, hports, ?_⟩
    intro port hport
    rw [hports] at hport
    obtain ⟨name, hname, rfl⟩ := List.mem_map.mp hport
    exact bar_not_mem_portName (hopens.announces.isName name hname)
  · intro hentered
    obtain ⟨-, hreader, -⟩ := Reader.run_eq_takeAll cancelAt now r source
    refine ⟨by rw [hreader], hub_run_of_not_entered color view hentered, ?_, ?_⟩
    · intro before rest hheard hgreets
      exact Reader.fault_run_of_greets hheard hgreets hentered
    · exact Reader.fault_run_of_not_greeted

theorem run_recognises_two_ports :
    let before := [0x00, 0x0D, 0x43] ++ banner
    let bytes := before ++ portList 0x32 [[0x41], []]
    let source : Source := ⟨[⟨0, 0, bytes.take 20⟩, ⟨1, 0, bytes.drop 20⟩], .close, 0⟩
    Opens before 0x32 [[0x41], []] ∧
      .entered .monitoring ∈ signals (({} : Reader).run 1 0 source).occurrences ∧
      (({} : Reader).run 1 0 source).reader.ports = ["A", ""] := by
  intro before bytes source
  have hopens : Opens before 0x32 [[0x41], []] :=
    ⟨⟨⟨by decide, by decide⟩, .of_length_lt (by decide)⟩, by decide, by decide,
      by simp [IsName, maxChunk]⟩
  have hheard : source.heard 1 0 = before ++ portList 0x32 [[0x41], []] ++ [] := by decide
  obtain ⟨-, -, -, -, hopened, -⟩ :=
    run_recognises_preamble hueColor ⟨.disconnected, .empty {}⟩ 1 0 {} source
  obtain ⟨-, htold, hports, -⟩ := hopened before 0x32 [[0x41], []] [] hheard hopens
  exact ⟨hopens, by rw [htold]; simp, hports.trans (by decide)⟩

/-- Once a run has entered monitoring with some of the bytes it hears, it publishes
    the events of the frames into which a splitter cuts the rest, frame by frame and
    in order, and it ends by a violation exactly if a terminator fails to come in
    time, and otherwise as the stream does. Nothing is published before. The bytes
    alone decide all that is told, the events, the ports and the state. -/
theorem run_publishes_splitFrames (color : RouteColor) (view : View) (cancelAt now : Nat) (r : Reader)
    (source : Source) :
    let outcome := r.run cancelAt now source
    let told := signals outcome.occurrences
    let hub := (view.finally color (chronicleOfRun 0 outcome.occurrences)).hub
    (∀ before rest, source.heard cancelAt now = before ++ rest →
      r.restart.EntersAfter .monitoring before →
        hub = view.hub.publishAll ((splitFrames rest).1.flatMap fun frame =>
          (Event.ofBeacon? (Frame.clean frame)).toList ++ [Event.ofLine color (Frame.clean frame)]) ∧
        outcome.fault =
          if maxChunk ≤ (splitFrames rest).2.length then overlong Frame.terminator .monitoring
          else (source.closing cancelAt now).fault .monitoring) ∧
    (.entered .monitoring ∈ told →
      ∃ before rest, source.heard cancelAt now = before ++ rest ∧
        r.restart.EntersAfter .monitoring before) ∧
    (.entered .monitoring ∉ told → hub = view.hub) ∧
    framesAmong (told.takeWhile (· ≠ .entered .monitoring)) = [] ∧
    outcome.reader.phase = .failed ∧
    ∀ (cancelAt' now' : Nat) (source' : Source),
      source'.heard cancelAt' now' = source.heard cancelAt now →
        let other := r.run cancelAt' now' source'
        signals other.occurrences = told ∧
          (view.finally color (chronicleOfRun 0 other.occurrences)).hub = hub ∧
          other.reader = outcome.reader := by
  intro outcome told hub
  obtain ⟨hsignals, hreader, hfault⟩ := Reader.run_eq_takeAll cancelAt now r source
  have hhub : hub = view.hub.publishAll (published color (framesAmong told)) :=
    hub_chronicleOfRun color view 0 outcome.occurrences
  refine ⟨?_, ?_, hub_run_of_not_entered color view, ?_, ?_, ?_⟩
  · intro before rest hsplit henters
    obtain ⟨hrest, hphase, hover⟩ := signals_takeAll_of_entersAfter rfl henters rest
    rw [← hsplit] at hrest hphase hover
    constructor
    · have hframes : framesAmong told = (splitFrames rest).1 := by
        calc framesAmong told
            = framesAmong (r.restart.takeAll (source.heard cancelAt now)).signals := by
              change framesAmong (signals outcome.occurrences) = _
              rw [hsignals]
              simp [framesAmong]
          _ = (splitFrames rest).1 := by
              rw [hrest]
              exact framesAmong_map_frame _
      rw [hhub, hframes]
      rfl
    · rw [hfault, hover, hphase]
      split <;> rfl
  · intro hentered
    exact Reader.exists_entersAfter ((entered_run_iff (.inr rfl) ..).mp hentered)
  · change framesAmong ((signals outcome.occurrences).takeWhile _) = []
    rw [hsignals]
    exact framesAmong_takeWhile_run (r.restart.path_takeAll _)
  · rw [hreader]
  · intro cancelAt' now' source' hheard other
    obtain ⟨hsignals', hreader', -⟩ := Reader.run_eq_takeAll cancelAt' now' r source'
    rw [hheard] at hsignals' hreader'
    have htold : signals other.occurrences = told := hsignals'.trans hsignals.symm
    refine ⟨htold, ?_, hreader'.trans hreader.symm⟩
    rw [hhub, hub_chronicleOfRun, htold]

theorem run_publishes_one_of_two :
    let bytes := banner ++ portList 0x30 [] ++ [0x78, 0xFE, 0x79]
    let source : Source := ⟨[⟨0, 0, bytes.take 30⟩, ⟨1, 0, bytes.drop 30⟩], .close, 0⟩
    let outcome := ({} : Reader).run 1 0 source
    let view : View := ⟨.disconnected, .empty {}⟩
    (view.finally hueColor (chronicleOfRun 0 outcome.occurrences)).hub =
        view.hub.publishAll [Event.ofLine hueColor (Frame.clean [0x78, 0xFE])] ∧
      outcome.fault = .closed .monitoring := by
  intro bytes source outcome view
  have hopens : Opens banner 0x30 [] :=
    ⟨⟨⟨by decide, by decide⟩, .of_length_lt (by decide)⟩, by decide, by decide, by simp⟩
  have hheard : source.heard 1 0 = banner ++ portList 0x30 [] ++ [0x78, 0xFE, 0x79] := by decide
  have henters := Reader.entersAfter_monitoring (Reader.fresh_restart {}) rfl rfl hopens
  have hsplit : splitFrames [0x78, 0xFE, 0x79] = ([[0x78, 0xFE]], [0x79]) :=
    splitFrames_eq_iff.mpr ⟨by decide,
      fun frame hframe => ⟨[0x78], List.mem_singleton.mp hframe, by decide, by decide⟩, by decide⟩
  obtain ⟨hpublished, -⟩ := run_publishes_splitFrames hueColor view 1 0 {} source
  obtain ⟨hhub, hfault⟩ := hpublished _ _ hheard henters
  rw [hsplit] at hhub hfault
  exact ⟨hhub, hfault⟩

end PacketMonitor.Stream

import PacketMonitor.Proofs.Stream.Monitoring
import PacketMonitor.Proofs.Stream.PortList

namespace PacketMonitor.Stream

/-- The bytes up to and with a complete list of ports, banner and noise in front. -/
structure Opens (before : List UInt8) (digit : UInt8) (names : List (List UInt8)) : Prop where
  greets : Greets before
  announces : Announces digit names

theorem Announces.eq_of_starts {digit digit' : UInt8} {names names' : List (List UInt8)}
    (hlist : Announces digit names) (hlist' : Announces digit' names')
    (hstarts : portList digit names <+: portList digit' names') :
    digit = digit' ∧ names = names' := by
  obtain ⟨rest, hrest⟩ := hstarts
  rw [portList, portList, List.append_assoc] at hrest
  obtain ⟨hheader, hnames⟩ := List.append_inj hrest rfl
  obtain rfl : digit = digit' := by simpa [header] using hheader
  rw [← List.append_nil (barred names')] at hnames
  have hcount : names.length = names'.length := hlist.count.trans hlist'.count.symm
  exact ⟨rfl, (barred_inj hlist.isName hlist'.isName hcount hnames).1⟩

namespace Reader

theorem entered_monitoring_iff {r : Reader} (hfresh : r.Fresh) (hphase : r.phase = .connecting)
    (hawaited : r.awaited = none) (bytes : List UInt8) :
    .entered .monitoring ∈ (r.takeAll bytes).signals ↔
      ∃ before digit names, Opens before digit names ∧ before ++ portList digit names <+: bytes := by
  let greeted : Reader := { r with phase := .awaitingPortList }
  have hlater := entered_monitoring_of_awaiting_iff (r := greeted) hfresh rfl hawaited
  constructor
  · intro hentered
    obtain ⟨before, rest, rfl, hgreets, htaken⟩ | ⟨-, hsignals, -⟩ :=
      takeAll_connecting hfresh hphase bytes
    · rw [htaken] at hentered
      obtain ⟨digit, names, hlist, hstarts⟩ := (hlater rest).mp (by simpa [Intake.after] using hentered)
      exact ⟨before, digit, names, ⟨hgreets, hlist⟩, (List.prefix_append_right_inj _).mpr hstarts⟩
    · rw [hsignals] at hentered
      exact absurd hentered List.not_mem_nil
  · rintro ⟨before, digit, names, ⟨hgreets, hlist⟩, rest, rfl⟩
    rw [List.append_assoc, takeAll_greeting hfresh hphase hgreets]
    exact List.mem_cons_of_mem _ ((hlater _).mpr ⟨digit, names, hlist, List.prefix_append ..⟩)

/-- Monitoring begins right behind the last bar of the list. -/
theorem entersAfter_monitoring {r : Reader} (hfresh : r.Fresh) (hphase : r.phase = .connecting)
    (hawaited : r.awaited = none) {before : List UInt8} {digit : UInt8} {names : List (List UInt8)}
    (hopens : Opens before digit names) :
    r.EntersAfter .monitoring (before ++ portList digit names) := by
  intro front hfront
  rw [entered_monitoring_iff hfresh hphase hawaited]
  constructor
  · rintro ⟨before', digit', names', hopens', hstarts⟩
    have hboth := hstarts.trans hfront
    have hbefore : before' = before := by
      have hfirst := (List.prefix_append before' (portList digit' names')).trans hboth
      obtain hle | hle := List.prefix_or_prefix_of_prefix hfirst
        (List.prefix_append before (portList digit names))
      · exact hopens'.greets.eq_of_starts hopens.greets hle
      · exact (hopens.greets.eq_of_starts hopens'.greets hle).symm
    subst hbefore
    obtain ⟨rfl, rfl⟩ := hopens'.announces.eq_of_starts hopens.announces
      ((List.prefix_append_right_inj _).mp hboth)
    exact hfront.eq_of_length_le hstarts.length_le
  · rintro rfl
    exact ⟨before, digit, names, hopens, List.prefix_rfl⟩

theorem fresh_restart (r : Reader) : r.restart.Fresh := ⟨rfl, rfl⟩

/-- A run that hears a complete list of ports knows their names, and the bytes behind
    the list are cut into frames. -/
theorem run_of_opens {cancelAt now : Nat} {r : Reader} {source : Source} {before rest : List UInt8}
    {digit : UInt8} {names : List (List UInt8)}
    (hheard : source.heard cancelAt now = before ++ portList digit names ++ rest)
    (hopens : Opens before digit names) :
    signals (r.run cancelAt now source).occurrences =
        .entered .connecting :: .entered .awaitingPortList :: .entered .monitoring ::
          ((splitFrames rest).1.map .frame ++ [.entered .failed]) ∧
      (r.run cancelAt now source).reader.ports = names.map portName := by
  let greeted : Reader := { r.restart with phase := .awaitingPortList }
  let opened : Reader := { greeted with phase := .monitoring, ports := names.map portName, awaited := none }
  obtain ⟨hsignals, hreader, -⟩ := run_eq_takeAll cancelAt now r source
  obtain ⟨hframes, -, hports, -⟩ := takeAll_monitoring (r := opened) r.fresh_restart rfl rest
  have htaken : r.restart.takeAll (source.heard cancelAt now) =
      ((opened.takeAll rest).after [.entered .monitoring]).after [.entered .awaitingPortList] := by
    rw [hheard, List.append_assoc, takeAll_greeting r.fresh_restart rfl hopens.greets]
    exact congrArg (Intake.after · _)
      (takeAll_portList (r := greeted) r.fresh_restart rfl rfl hopens.announces rest)
  rw [hsignals, hreader, htaken]
  exact ⟨by simp [Intake.after, hframes], hports⟩

theorem fault_run_of_greets {cancelAt now : Nat} {r : Reader} {source : Source}
    {before rest : List UInt8} (hheard : source.heard cancelAt now = before ++ rest)
    (hgreets : Greets before)
    (hentered : .entered .monitoring ∉ signals (r.run cancelAt now source).occurrences) :
    (∀ body, Misheaded body rest →
        (r.run cancelAt now source).fault = badHeader (body ++ [0x7C])) ∧
      ((∀ body, ¬ Misheaded body rest) →
        (Within 0x7C rest →
          (r.run cancelAt now source).fault =
            (source.closing cancelAt now).fault .awaitingPortList) ∧
        (¬ Within 0x7C rest →
          (r.run cancelAt now source).fault = overlong 0x7C .awaitingPortList)) := by
  let greeted : Reader := { r.restart with phase := .awaitingPortList }
  obtain ⟨-, -, hfault⟩ := run_eq_takeAll cancelAt now r source
  rw [hheard, takeAll_greeting r.fresh_restart rfl hgreets] at hfault
  change (r.run cancelAt now source).fault =
    ((greeted.takeAll rest).fault.map (·.1)).getD
      ((source.closing cancelAt now).fault (greeted.takeAll rest).reader.phase) at hfault
  constructor
  · intro body hmisheaded
    obtain ⟨-, -, hbad⟩ := takeAll_misheaded (r := greeted) r.fresh_restart rfl rfl hmisheaded
    rw [hfault, hbad]
    rfl
  · intro hheaded
    have hunfinished : ∀ digit names, Announces digit names → ¬ portList digit names <+: rest := by
      intro digit names hlist hstarts
      rw [entered_run_iff (.inr rfl), entered_monitoring_iff r.fresh_restart rfl rfl] at hentered
      refine hentered ⟨before, digit, names, ⟨hgreets, hlist⟩, ?_⟩
      rw [hheard]
      exact (List.prefix_append_right_inj _).mpr hstarts
    obtain ⟨-, hlast, hnone, hover⟩ :=
      takeAll_unfinished (r := greeted) r.fresh_restart rfl rfl hheaded hunfinished
    constructor
    · intro hwithin
      rw [hfault, hnone hwithin, hlast]
      rfl
    · intro hbeyond
      rw [hfault, hover hbeyond]
      rfl

theorem fault_run_of_not_greeted {cancelAt now : Nat} {r : Reader} {source : Source}
    (hentered : .entered .awaitingPortList ∉ signals (r.run cancelAt now source).occurrences) :
    (Within 0x0D (source.heard cancelAt now) →
        (r.run cancelAt now source).fault = (source.closing cancelAt now).fault .connecting) ∧
      (¬ Within 0x0D (source.heard cancelAt now) →
        (r.run cancelAt now source).fault = overlong 0x0D .connecting) := by
  obtain ⟨-, -, hfault⟩ := run_eq_takeAll cancelAt now r source
  rw [entered_run_iff (.inl rfl), entered_awaitingPortList_iff r.fresh_restart rfl] at hentered
  obtain ⟨before, rest, hheard, hgreets, -⟩ | ⟨-, -, hlast, hnone, hover⟩ :=
    takeAll_connecting r.fresh_restart rfl (source.heard cancelAt now)
  · exact absurd ⟨before, ⟨rest, hheard.symm⟩, hgreets⟩ hentered
  · constructor
    · intro hwithin
      rw [hfault, hnone hwithin, hlast]
      rfl
    · intro hbeyond
      rw [hfault, hover hbeyond]
      rfl

end Reader

end PacketMonitor.Stream

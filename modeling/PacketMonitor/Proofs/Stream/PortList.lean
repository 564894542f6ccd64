import PacketMonitor.Proofs.Stream.Banner
import PacketMonitor.Proofs.Text.Decoding
import PacketMonitor.Proofs.Text.Pieces

namespace PacketMonitor.Stream

open Text

def IsDigit (b : UInt8) : Prop := 0x30 ≤ b ∧ b ≤ 0x39

instance (b : UInt8) : Decidable (IsDigit b) := inferInstanceAs (Decidable (_ ∧ _))

/-- What a list of ports starts with: two marks, the number of ports and a bar. -/
def header (digit : UInt8) : List UInt8 := [0xFF, 0xFF, digit, 0x7C]

/-- Some names with a bar behind each. -/
def barred (names : List (List UInt8)) : List UInt8 :=
  names.flatMap fun name => name ++ [0x7C]

def portList (digit : UInt8) (names : List (List UInt8)) : List UInt8 :=
  header digit ++ barred names

/-- A name that can stand in a list of ports. -/
def IsName (name : List UInt8) : Prop := 0x7C ∉ name ∧ name.length < maxChunk

/-- A list of ports has as many names as its header says. -/
structure Announces (digit : UInt8) (names : List (List UInt8)) : Prop where
  isDigit : IsDigit digit
  count : names.length = digit.toNat - 0x30
  isName : ∀ name ∈ names, IsName name

/-- The bytes start with a chunk that is not the header of a list. -/
structure Misheaded (body bytes : List UInt8) : Prop where
  starts : body ++ [0x7C] <+: bytes
  isName : IsName body
  other : ∀ digit, IsDigit digit → body ++ [0x7C] ≠ header digit

def portName (name : List UInt8) : String := String.ofList (Utf8.decodeLossy name)

theorem IsDigit.toNat_le {digit : UInt8} (hdigit : IsDigit digit) :
    0x30 ≤ digit.toNat ∧ digit.toNat ≤ 0x39 :=
  ⟨UInt8.le_iff_toNat_le.mp hdigit.1, UInt8.le_iff_toNat_le.mp hdigit.2⟩

theorem bar_not_mem_portName {name : List UInt8} (hname : IsName name) :
    '|' ∉ (portName name).toList := by
  intro hmem
  rw [portName, String.toList_ofList] at hmem
  exact hname.1 (Utf8.mem_of_mem_decodeLossy hmem (by decide))

@[simp] theorem barred_nil : barred [] = [] := rfl

@[simp] theorem barred_cons (name : List UInt8) (names : List (List UInt8)) :
    barred (name :: names) = name ++ 0x7C :: barred names := by
  simp [barred]

theorem within_barred {names : List (List UInt8)} (hnames : ∀ name ∈ names, IsName name)
    (rest : List UInt8) : Within 0x7C (barred names ++ rest) ↔ Within 0x7C rest := by
  induction names with
  | nil => rfl
  | cons name names ih =>
    rw [barred_cons, List.append_assoc, List.cons_append,
      Within.append_cons_iff (hnames name (List.mem_cons_self ..)).2]
    exact ih fun other hother => hnames other (List.mem_cons_of_mem _ hother)

theorem within_header (digit : UInt8) (rest : List UInt8) :
    Within 0x7C (header digit ++ rest) ↔ Within 0x7C rest := by
  have hroom : [0xFF, 0xFF, digit].length < maxChunk := (by decide : 3 < maxChunk)
  exact Within.append_cons_iff hroom

/-- As many names as are awaited can be cut off the bytes, or at some name before the
    last one its bar does not come in time. -/
theorem exists_barred (count : Nat) (bytes : List UInt8) :
    ∃ names rest, bytes = barred names ++ rest ∧ (∀ name ∈ names, IsName name) ∧
      (names.length = count ∨ names.length < count ∧ Lacks 0x7C rest) := by
  induction count generalizing bytes with
  | zero => exact ⟨[], bytes, rfl, by simp, .inl rfl⟩
  | succ count ih =>
    cases cut 0x7C bytes with
    | whole body rest hbody hroom =>
      obtain ⟨names, late, rfl, hnames, hcount⟩ := ih rest
      refine ⟨body :: names, late, by simp, ?_, ?_⟩
      · rintro name (_ | ⟨_, hname⟩)
        · exact ⟨hbody, hroom⟩
        · exact hnames name hname
      · obtain hcount | ⟨hcount, hlacks⟩ := hcount
        · exact .inl (congrArg Nat.succ hcount)
        · exact .inr ⟨Nat.succ_lt_succ hcount, hlacks⟩
    | lacking _ hlacks => exact ⟨[], bytes, rfl, by simp, .inr ⟨Nat.succ_pos count, hlacks⟩⟩

/-- The names of a list can be read back in one way only. -/
theorem barred_inj {names names' : List (List UInt8)} (hnames : ∀ name ∈ names, IsName name)
    (hnames' : ∀ name ∈ names', IsName name) (hcount : names.length = names'.length)
    {rest rest' : List UInt8} (hbytes : barred names ++ rest = barred names' ++ rest') :
    names = names' ∧ rest = rest' := by
  induction names generalizing names' with
  | nil =>
    obtain rfl := List.eq_nil_of_length_eq_zero hcount.symm
    exact ⟨rfl, hbytes⟩
  | cons name names ih =>
    cases names' with
    | nil => simp at hcount
    | cons name' names' =>
      rw [barred_cons, barred_cons, List.append_assoc, List.append_assoc] at hbytes
      obtain ⟨rfl, hrest⟩ := append_cons_inj (hnames name (List.mem_cons_self ..)).1
        (hnames' name' (List.mem_cons_self ..)).1 hbytes
      obtain ⟨rfl, hlate⟩ := ih (fun other hother => hnames other (List.mem_cons_of_mem _ hother))
        (fun other hother => hnames' other (List.mem_cons_of_mem _ hother))
        (Nat.succ.inj hcount) hrest
      exact ⟨rfl, hlate⟩

namespace Reader

theorem portCount?_eq_some_iff {chunk : List UInt8} {count : Nat} :
    portCount? chunk = some count ↔
      ∃ digit, IsDigit digit ∧ chunk = header digit ∧ count = digit.toNat - 0x30 := by
  unfold portCount?
  split
  · rename_i digit
    change (if IsDigit digit then some (digit.toNat - 0x30) else none) = some count ↔ _
    by_cases hdigit : IsDigit digit
    · rw [if_pos hdigit]
      constructor
      · intro hcount
        exact ⟨digit, hdigit, rfl, (Option.some.inj hcount).symm⟩
      · rintro ⟨digit', -, hchunk, rfl⟩
        simp only [header, List.cons.injEq, true_and, and_true] at hchunk
        rw [hchunk]
    · rw [if_neg hdigit]
      refine iff_of_false (by simp) ?_
      rintro ⟨digit', hdigit', hchunk, -⟩
      simp only [header, List.cons.injEq, true_and, and_true] at hchunk
      exact hdigit (hchunk ▸ hdigit')
  · rename_i hother
    refine iff_of_false (by simp) ?_
    rintro ⟨digit, -, rfl, -⟩
    exact hother digit rfl

theorem descriptor_concat (name : List UInt8) : descriptor (name ++ [0x7C]) = portName name := by
  have hsuffix : [Phase.awaitingPortList.delimiter] <:+ name ++ [0x7C] := List.suffix_append ..
  rw [descriptor, Frame.dropEnd, if_pos (List.isSuffixOf_iff_suffix.mpr hsuffix)]
  simp [portName]

/-- What becomes of bytes when the given number of descriptors is to come. -/
def takeAwaiting (r : Reader) (count : Nat) (bytes : List UInt8) : Intake :=
  ((r.await count).1.takeAll bytes).after (r.await count).2

theorem takeAwaiting_succ (r : Reader) (count : Nat) (bytes : List UInt8) :
    r.takeAwaiting (count + 1) bytes = ({ r with awaited := some (count + 1) } : Reader).takeAll bytes :=
  rfl

theorem takeAwaiting_awaited (r : Reader) (awaited : Option Nat) (count : Nat) (bytes : List UInt8) :
    ({ r with awaited := awaited } : Reader).takeAwaiting count bytes = r.takeAwaiting count bytes := by
  cases count <;> rfl

/-- Each name that is there uses up one of those awaited. -/
theorem takeAwaiting_barred {r : Reader} (hfresh : r.Fresh) (hphase : r.phase = .awaitingPortList)
    {names : List (List UInt8)} (hnames : ∀ name ∈ names, IsName name) (more : Nat)
    (rest : List UInt8) :
    r.takeAwaiting (names.length + more) (barred names ++ rest) =
      ({ r with ports := r.ports ++ names.map portName } : Reader).takeAwaiting more rest := by
  induction names generalizing r with
  | nil => simp
  | cons name names ih =>
    obtain ⟨hname, hroom⟩ := hnames name (List.mem_cons_self ..)
    let waiting : Reader := { r with awaited := some (names.length + more + 1) }
    have hdelimiter : waiting.phase.delimiter = 0x7C := congrArg Phase.delimiter hphase
    have hchunk : waiting.takeChunk (name ++ [0x7C]) =
        .ok (({ waiting with ports := r.ports ++ [portName name] } : Reader).await
          (names.length + more)) := by
      simp only [waiting, takeChunk, hphase, descriptor_concat]
      rfl
    have hlater := ih (r := { r with ports := r.ports ++ [portName name] }) hfresh hphase
      fun other hother => hnames other (List.mem_cons_of_mem _ hother)
    rw [barred_cons, List.length_cons, List.append_assoc, Nat.succ_add, takeAwaiting_succ]
    calc waiting.takeAll (name ++ 0x7C :: (barred names ++ rest))
        = ({ waiting with ports := r.ports ++ [portName name] } : Reader).takeAwaiting
            (names.length + more) (barred names ++ rest) :=
          takeAll_whole_ok (r := waiting) hfresh hdelimiter hname hroom hchunk _
      _ = ({ r with ports := r.ports ++ [portName name] } : Reader).takeAwaiting
            (names.length + more) (barred names ++ rest) :=
          takeAwaiting_awaited { r with ports := r.ports ++ [portName name] } waiting.awaited _ _
      _ = _ := by
          rw [hlater, List.map_cons, List.append_assoc, List.singleton_append]

theorem takeAll_header {r : Reader} (hfresh : r.Fresh) (hphase : r.phase = .awaitingPortList)
    (hawaited : r.awaited = none) {digit : UInt8} (hdigit : IsDigit digit) (rest : List UInt8) :
    r.takeAll (header digit ++ rest) =
      ({ r with ports := [] } : Reader).takeAwaiting (digit.toNat - 0x30) rest := by
  have hdelimiter : r.phase.delimiter = 0x7C := congrArg Phase.delimiter hphase
  have hbody : 0x7C ∉ [0xFF, 0xFF, digit] := by
    have hle := hdigit.toNat_le
    simp only [List.mem_cons, List.not_mem_nil, or_false, not_or]
    refine ⟨by decide, by decide, ?_⟩
    rintro rfl
    exact absurd hle.2 (by decide)
  have hroom : [0xFF, 0xFF, digit].length < maxChunk := (by decide : 3 < maxChunk)
  have hcount : portCount? (header digit) = some (digit.toNat - 0x30) :=
    portCount?_eq_some_iff.mpr ⟨digit, hdigit, rfl, rfl⟩
  have hchunk : r.takeChunk (header digit) =
      .ok (({ r with ports := [] } : Reader).await (digit.toNat - 0x30)) := by
    simp only [takeChunk, hphase, hawaited, hcount]
  exact takeAll_whole_ok hfresh hdelimiter hbody hroom hchunk rest

/-- A complete list of ports opens monitoring with its last byte. -/
theorem takeAll_portList {r : Reader} (hfresh : r.Fresh) (hphase : r.phase = .awaitingPortList)
    (hawaited : r.awaited = none) {digit : UInt8} {names : List (List UInt8)}
    (hlist : Announces digit names) (rest : List UInt8) :
    r.takeAll (portList digit names ++ rest) =
      (({ r with phase := .monitoring, ports := names.map portName, awaited := none } :
        Reader).takeAll rest).after [.entered .monitoring] := by
  rw [portList, List.append_assoc, takeAll_header hfresh hphase hawaited hlist.isDigit, ← hlist.count]
  exact takeAwaiting_barred (r := { r with ports := [] }) hfresh hphase hlist.isName 0 rest

theorem takeAll_misheaded {r : Reader} (hfresh : r.Fresh) (hphase : r.phase = .awaitingPortList)
    (hawaited : r.awaited = none) {body bytes : List UInt8} (hmisheaded : Misheaded body bytes) :
    (r.takeAll bytes).signals = [] ∧ (r.takeAll bytes).reader.phase = .awaitingPortList ∧
      (r.takeAll bytes).fault.map (·.1) = some (badHeader (body ++ [0x7C])) := by
  have hdelimiter : r.phase.delimiter = 0x7C := congrArg Phase.delimiter hphase
  obtain ⟨⟨rest, rfl⟩, ⟨hbody, hroom⟩, hother⟩ := hmisheaded
  have hcount : portCount? (body ++ [0x7C]) = none := by
    cases hcount : portCount? (body ++ [0x7C]) with
    | none => rfl
    | some count =>
      obtain ⟨digit, hdigit, hheader, -⟩ := portCount?_eq_some_iff.mp hcount
      exact absurd hheader (hother digit hdigit)
  have hchunk : r.takeChunk (body ++ [0x7C]) = .error (r, badHeader (body ++ [0x7C])) := by
    simp only [takeChunk, hphase, hawaited, hcount]
  rw [List.append_assoc, List.singleton_append,
    takeAll_whole_error hfresh hdelimiter hbody hroom hchunk]
  exact ⟨rfl, hphase, rfl⟩

/-- A list that starts as it should and is not complete tells nothing. It is a fault
    only if a chunk of it is beyond the limit. -/
theorem takeAll_unfinished {r : Reader} (hfresh : r.Fresh) (hphase : r.phase = .awaitingPortList)
    (hawaited : r.awaited = none) {bytes : List UInt8} (hheaded : ∀ body, ¬ Misheaded body bytes)
    (hunfinished : ∀ digit names, Announces digit names → ¬ portList digit names <+: bytes) :
    (r.takeAll bytes).signals = [] ∧ (r.takeAll bytes).reader.phase = .awaitingPortList ∧
      (Within 0x7C bytes → (r.takeAll bytes).fault = none) ∧
      (¬ Within 0x7C bytes →
        (r.takeAll bytes).fault.map (·.1) = some (overlong 0x7C .awaitingPortList)) := by
  have hdelimiter : r.phase.delimiter = 0x7C := congrArg Phase.delimiter hphase
  cases cut 0x7C bytes with
  | whole body rest hbody hroom =>
    have hstarts : body ++ [0x7C] <+: body ++ 0x7C :: rest := ⟨rest, by simp⟩
    obtain ⟨digit, hdigit, hheader⟩ : ∃ digit, IsDigit digit ∧ body ++ [0x7C] = header digit := by
      by_contra hnone
      refine hheaded body ⟨hstarts, ⟨hbody, hroom⟩, fun digit hdigit hheader => ?_⟩
      exact hnone ⟨digit, hdigit, hheader⟩
    have hbytes : body ++ 0x7C :: rest = header digit ++ rest := by
      rw [← hheader, List.append_assoc, List.singleton_append]
    rw [hbytes] at hunfinished ⊢
    obtain ⟨names, late, rfl, hnames, hcount | ⟨hfewer, hlacks⟩⟩ :=
      exists_barred (digit.toNat - 0x30) rest
    · refine absurd ?_ (hunfinished digit names ⟨hdigit, hcount, hnames⟩)
      rw [portList]
      exact (List.prefix_append_right_inj _).mpr (List.prefix_append ..)
    · obtain ⟨more, hmore⟩ : ∃ more, digit.toNat - 0x30 = names.length + (more + 1) :=
        ⟨digit.toNat - 0x30 - names.length - 1, by omega⟩
      let waiting : Reader := { r with awaited := some (more + 1), ports := names.map portName }
      have htaken : r.takeAll (header digit ++ (barred names ++ late)) = waiting.takeAll late := by
        rw [takeAll_header hfresh hphase hawaited hdigit, hmore]
        exact takeAwaiting_barred (r := { r with ports := [] }) hfresh hphase hnames (more + 1) late
      obtain ⟨hsignals, hlast, -, -⟩ := takeAll_lacking (r := waiting) hfresh (hdelimiter ▸ hlacks)
      have hfault := fault_of_lacks (r := waiting) hfresh hdelimiter hlacks
      change _ ∧ (_ → _ = some (overlong 0x7C r.phase)) at hfault
      rw [hphase] at hfault
      rw [htaken, within_header, within_barred hnames]
      exact ⟨hsignals, hlast.trans hphase, hfault⟩
  | lacking _ hlacks =>
    obtain ⟨hsignals, hlast, -, -⟩ := takeAll_lacking hfresh (hdelimiter ▸ hlacks)
    have hfault := fault_of_lacks hfresh hdelimiter hlacks
    rw [hphase] at hfault
    exact ⟨hsignals, hlast.trans hphase, hfault⟩

theorem entered_monitoring_of_awaiting_iff {r : Reader} (hfresh : r.Fresh)
    (hphase : r.phase = .awaitingPortList) (hawaited : r.awaited = none) (bytes : List UInt8) :
    .entered .monitoring ∈ (r.takeAll bytes).signals ↔
      ∃ digit names, Announces digit names ∧ portList digit names <+: bytes := by
  constructor
  · intro hentered
    by_contra hnone
    have hunfinished : ∀ digit names, Announces digit names → ¬ portList digit names <+: bytes :=
      fun digit names hlist hstarts => hnone ⟨digit, names, hlist, hstarts⟩
    by_cases hheaded : ∀ body, ¬ Misheaded body bytes
    · obtain ⟨hsignals, -⟩ := takeAll_unfinished hfresh hphase hawaited hheaded hunfinished
      rw [hsignals] at hentered
      exact absurd hentered List.not_mem_nil
    · obtain ⟨body, hbody⟩ := not_forall.mp hheaded
      obtain ⟨hsignals, -⟩ := takeAll_misheaded hfresh hphase hawaited (not_not.mp hbody)
      rw [hsignals] at hentered
      exact absurd hentered List.not_mem_nil
  · rintro ⟨digit, names, hlist, rest, rfl⟩
    rw [takeAll_portList hfresh hphase hawaited hlist]
    exact List.mem_cons_self ..

end Reader

end PacketMonitor.Stream

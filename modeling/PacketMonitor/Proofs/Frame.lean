import PacketMonitor.Frame
import PacketMonitor.Proofs.Text.Decoding
import PacketMonitor.Proofs.Text.Pieces

namespace PacketMonitor.Frame

open PacketMonitor.Text
open PacketMonitor.Text.Utf8 (Repaired)
open String (utf8EncodeChar)

/-- A terminal escape in front of a frame, if there is one. -/
inductive Escape where
  | none
  | short
  | long
  deriving DecidableEq

def Escape.bytes : Escape → List UInt8
  | .none => []
  | .short => [0xFF, 0x1B]
  | .long => [0xFF, 0x1B, 0x11]

/-- A byte that may be missing. -/
def layer (present : Bool) (b : UInt8) : List UInt8 := if present then [b] else []

/-- The layers around the text of a frame, each of which may be missing. -/
structure Wrapping where
  escape : Escape
  bracket : Bool
  carriageReturn : Bool
  terminated : Bool
  deriving DecidableEq

/-- The bytes of a frame in their layers. -/
def Wrapping.wrap (w : Wrapping) (bytes : List UInt8) : List UInt8 :=
  w.escape.bytes ++ (layer w.bracket 0x5B ++ (bytes ++ layer w.carriageReturn 0x0D)) ++
    layer w.terminated terminator

/-- No layer that is missing could be found in what the others leave. -/
structure Wrapping.Tight (w : Wrapping) (bytes : List UInt8) : Prop where
  terminated : w.terminated = false → ¬ [terminator] <:+
    w.escape.bytes ++ (layer w.bracket 0x5B ++ (bytes ++ layer w.carriageReturn 0x0D))
  escape : w.escape = .none → ¬ [0xFF, 0x1B] <+:
    layer w.bracket 0x5B ++ (bytes ++ layer w.carriageReturn 0x0D)
  control : w.escape = .short → ¬ [0x11] <+:
    layer w.bracket 0x5B ++ (bytes ++ layer w.carriageReturn 0x0D)
  bracket : w.bracket = false → ¬ [0x5B] <+: bytes ++ layer w.carriageReturn 0x0D
  carriageReturn : w.carriageReturn = false → ¬ [0x0D] <:+ bytes

section Layers

variable {b : UInt8} {bytes rest : List UInt8}

theorem dropEnd_eq_iff : dropEnd [b] bytes = rest ↔
    ∃ present, bytes = rest ++ layer present b ∧ (present = false → ¬ [b] <:+ rest) := by
  rw [dropEnd]
  constructor
  · rintro rfl
    split
    · rename_i hends
      obtain ⟨front, rfl⟩ := List.isSuffixOf_iff_suffix.mp hends
      rw [List.length_append, Nat.add_sub_cancel, List.take_left]
      exact ⟨true, rfl, nofun⟩
    · rename_i hother
      rw [List.isSuffixOf_iff_suffix] at hother
      exact ⟨false, (List.append_nil bytes).symm, fun _ => hother⟩
  · rintro ⟨present, rfl, hother⟩
    cases present with
    | true =>
      rw [layer, if_pos rfl, if_pos (List.isSuffixOf_iff_suffix.mpr (List.suffix_append ..)),
        List.length_append, Nat.add_sub_cancel, List.take_left]
    | false =>
      rw [layer, if_neg Bool.false_ne_true, List.append_nil]
      exact if_neg fun hends => hother rfl (List.isSuffixOf_iff_suffix.mp hends)

theorem dropStart_eq_iff : dropStart [b] bytes = rest ↔
    ∃ present, bytes = layer present b ++ rest ∧ (present = false → ¬ [b] <+: rest) := by
  rw [dropStart]
  constructor
  · rintro rfl
    split
    · rename_i hstarts
      obtain ⟨later, rfl⟩ := List.isPrefixOf_iff_prefix.mp hstarts
      rw [List.drop_left]
      exact ⟨true, rfl, nofun⟩
    · rename_i hother
      rw [List.isPrefixOf_iff_prefix] at hother
      exact ⟨false, rfl, fun _ => hother⟩
  · rintro ⟨present, rfl, hother⟩
    cases present with
    | true => rw [layer, if_pos rfl, if_pos (List.isPrefixOf_iff_prefix.mpr (List.prefix_append ..)),
        List.drop_left]
    | false => exact if_neg fun hstarts => hother rfl (List.isPrefixOf_iff_prefix.mp hstarts)

theorem stripEscape_eq_iff : stripEscape bytes = rest ↔
    ∃ escape : Escape, bytes = escape.bytes ++ rest ∧
      (escape = .none → ¬ [0xFF, 0x1B] <+: rest) ∧ (escape = .short → ¬ [0x11] <+: rest) := by
  rw [stripEscape, dropStart]
  constructor
  · rintro rfl
    split
    · rename_i hlong
      obtain ⟨later, rfl⟩ := List.isPrefixOf_iff_prefix.mp hlong
      exact ⟨.long, rfl, nofun, nofun⟩
    rename_i hother
    split
    · rename_i hshort
      obtain ⟨later, rfl⟩ := List.isPrefixOf_iff_prefix.mp hshort
      refine ⟨.short, rfl, nofun, fun _ hcontrol => hother ?_⟩
      obtain ⟨more, rfl⟩ := hcontrol
      exact List.isPrefixOf_iff_prefix.mpr ⟨more, rfl⟩
    · rename_i hnone
      exact ⟨.none, rfl, fun _ hshort => hnone (List.isPrefixOf_iff_prefix.mpr hshort), nofun⟩
  · rintro ⟨escape, rfl, hnone, hshort⟩
    cases escape with
    | none =>
      have hother : ¬ [0xFF, 0x1B] <+: rest := hnone rfl
      have hother' : ¬ [0xFF, 0x1B, 0x11] <+: rest := fun hlong =>
        hother ((List.prefix_append [0xFF, 0x1B] [0x11]).trans hlong)
      rw [Escape.bytes, List.nil_append, if_neg (mt List.isPrefixOf_iff_prefix.mp hother'),
        if_neg (mt List.isPrefixOf_iff_prefix.mp hother)]
    | short =>
      have hother : ¬ [0xFF, 0x1B, 0x11] <+: [0xFF, 0x1B] ++ rest := fun hlong =>
        hshort rfl ((List.prefix_append_right_inj [0xFF, 0x1B]).mp hlong)
      rw [Escape.bytes, if_neg (mt List.isPrefixOf_iff_prefix.mp hother),
        if_pos (List.isPrefixOf_iff_prefix.mpr (List.prefix_append ..)), List.drop_left]
    | long => rfl

end Layers

theorem body_eq_iff {raw bytes : List UInt8} :
    body raw = bytes ↔ ∃ w : Wrapping, w.Tight bytes ∧ raw = w.wrap bytes := by
  rw [body, dropEnd_eq_iff]
  constructor
  · rintro ⟨carriageReturn, hclosed, hreturn⟩
    obtain ⟨bracket, hopened, hbracket⟩ := dropStart_eq_iff.mp hclosed
    obtain ⟨escape, hescaped, hnone, hshort⟩ := stripEscape_eq_iff.mp hopened
    obtain ⟨terminated, hwhole, hterminated⟩ := dropEnd_eq_iff.mp hescaped
    exact ⟨⟨escape, bracket, carriageReturn, terminated⟩,
      ⟨hterminated, hnone, hshort, hbracket, hreturn⟩, hwhole⟩
  · rintro ⟨w, htight, hraw⟩
    have hescaped := dropEnd_eq_iff.mpr ⟨w.terminated, hraw, htight.terminated⟩
    have hopened := stripEscape_eq_iff.mpr ⟨w.escape, hescaped, htight.escape, htight.control⟩
    have hclosed := dropStart_eq_iff.mpr ⟨w.bracket, hopened, htight.bracket⟩
    exact ⟨w.carriageReturn, hclosed, htight.carriageReturn⟩

/-- Bytes that write a text, where a newline is either of the two control characters. -/
inductive Writes : List Char → List UInt8 → Prop where
  | nil : Writes [] []
  | newline {b : UInt8} {text : List Char} {bytes : List UInt8} (hb : b = 0x0D ∨ b = 0x0A)
    (hrest : Writes text bytes) : Writes ('\n' :: text) (b :: bytes)
  | char {c : Char} {text : List Char} {bytes : List UInt8} (hc : c ≠ '\n')
    (hrest : Writes text bytes) : Writes (c :: text) (utf8EncodeChar c ++ bytes)

/-- What is shown for a character. -/
def shown (c : Char) : Char := if c = '\r' then '\n' else c

theorem clean_of_repaired {raw : List UInt8} {text : List Char} (hrepaired : Repaired (body raw) text) :
    clean raw = String.ofList (text.map shown) := by
  rw [clean, Utf8.decodeLossy_eq_iff.mpr hrepaired]
  rfl

namespace Writes

variable {text : List Char} {bytes : List UInt8}

theorem repaired (hwrites : Writes text bytes) (hreturn : '\r' ∉ text) :
    ∃ decoded, Repaired bytes decoded ∧ decoded.map shown = text := by
  induction hwrites with
  | nil => exact ⟨[], .nil, rfl⟩
  | @newline b text bytes hb _ ih =>
    obtain ⟨decoded, hdecoded, hshown⟩ := ih fun hmem => hreturn (List.mem_cons_of_mem _ hmem)
    obtain rfl | rfl := hb
    · exact ⟨'\r' :: decoded, .char rfl hdecoded, by rw [List.map_cons, hshown]; rfl⟩
    · exact ⟨'\n' :: decoded, .char rfl hdecoded, by rw [List.map_cons, hshown]; rfl⟩
  | @char c text bytes _ _ ih =>
    obtain ⟨decoded, hdecoded, hshown⟩ := ih fun hmem => hreturn (List.mem_cons_of_mem _ hmem)
    have hc : c ≠ '\r' := fun hc => hreturn (hc ▸ List.mem_cons_self ..)
    exact ⟨c :: decoded, .char rfl hdecoded, by rw [List.map_cons, hshown, shown, if_neg hc]⟩

theorem toNat_lt (hwrites : Writes text bytes) {b : UInt8} (hb : b ∈ bytes) : b.toNat < 0xF8 := by
  induction hwrites with
  | nil => cases hb
  | newline hnewline _ ih =>
    obtain rfl | hb := List.mem_cons.mp hb
    · obtain rfl | rfl := hnewline <;> decide
    · exact ih hb
  | char _ _ ih =>
    obtain hb | hb := List.mem_append.mp hb
    · exact Utf8.toNat_lt_of_mem_utf8EncodeChar hb
    · exact ih hb

/-- The text begins with a character if the bytes do. -/
theorem exists_cons (hwrites : Writes text bytes) {c : Char} (hc : c ≠ '\n') (hc' : c ≠ '\r')
    (hstarts : utf8EncodeChar c <+: bytes) :
    ∃ rest bytes', text = c :: rest ∧ bytes = utf8EncodeChar c ++ bytes' ∧ Writes rest bytes' := by
  obtain ⟨later, rfl⟩ := hstarts
  generalize hsame : utf8EncodeChar c ++ later = bytes at hwrites
  cases hwrites with
  | nil => exact absurd (List.append_eq_nil_iff.mp hsame).1 (Utf8.utf8EncodeChar_ne_nil c)
  | @newline b text bytes hb _ =>
    obtain rfl | rfl := hb
    · have hbreak : utf8EncodeChar c ++ later = utf8EncodeChar '\r' ++ bytes := hsame
      exact absurd (Utf8.utf8EncodeChar_append_inj hbreak).1 hc'
    · have hbreak : utf8EncodeChar c ++ later = utf8EncodeChar '\n' ++ bytes := hsame
      exact absurd (Utf8.utf8EncodeChar_append_inj hbreak).1 hc
  | @char c' text bytes _ hrest =>
    obtain ⟨rfl, rfl⟩ := Utf8.utf8EncodeChar_append_inj hsame
    exact ⟨text, later, rfl, rfl, hrest⟩

theorem eq_nil (hwrites : Writes text []) : text = [] := by
  generalize hnone : [] = bytes at hwrites
  cases hwrites with
  | nil => rfl
  | newline => cases hnone
  | @char c _ _ _ =>
    exact absurd (List.append_eq_nil_iff.mp hnone.symm).1 (Utf8.utf8EncodeChar_ne_nil c)

/-- A carriage return at the end of the bytes is the last newline of the text. -/
theorem exists_concat {bytes front : List UInt8} (hwrites : Writes text bytes) (hreturn : '\r' ∉ text)
    (hends : bytes = front ++ [0x0D]) : ∃ rest, text = rest ++ ['\n'] ∧ Writes rest front := by
  induction hwrites generalizing front with
  | nil => exact absurd hends.symm (List.append_ne_nil_of_right_ne_nil _ (List.cons_ne_nil _ _))
  | @newline b text bytes hb hrest ih =>
    cases front with
    | nil =>
      obtain ⟨-, rfl⟩ := List.cons.inj hends
      exact ⟨[], by rw [hrest.eq_nil]; rfl, .nil⟩
    | cons b' front =>
      obtain ⟨rfl, hlater⟩ := List.cons.inj hends
      obtain ⟨rest, rfl, hfront⟩ := ih (fun hmem => hreturn (List.mem_cons_of_mem _ hmem)) hlater
      exact ⟨'\n' :: rest, rfl, .newline hb hfront⟩
  | @char c text bytes hc hrest ih =>
    obtain rfl | ⟨early, b, rfl⟩ := bytes.eq_nil_or_concat'
    · have hmem : 0x0D ∈ utf8EncodeChar c := by
        rw [List.append_nil] at hends
        exact hends ▸ List.mem_append_right _ (List.mem_singleton_self _)
      obtain hvalue | hlarge := Utf8.toNat_of_mem_utf8EncodeChar hmem
      · have hcode : c = '\r' := Char.toNat_inj.mp hvalue.symm
        exact absurd (hcode ▸ List.mem_cons_self ..) hreturn
      · exact absurd hlarge (by decide)
    · rw [← List.append_assoc] at hends
      obtain ⟨rfl, hlast⟩ := List.append_inj' hends rfl
      obtain ⟨rest, rfl, hfront⟩ := ih (fun hmem => hreturn (List.mem_cons_of_mem _ hmem))
        (by rw [hlast])
      exact ⟨c :: rest, rfl, .char hc hfront⟩

theorem append_layer (hwrites : Writes text bytes) (present : Bool) :
    ∃ more, (∀ c ∈ more, c = '\n') ∧ Writes (text ++ more) (bytes ++ layer present 0x0D) := by
  have hmore : ∃ more, (∀ c ∈ more, c = '\n') ∧ Writes more (layer present 0x0D) := by
    cases present with
    | true => exact ⟨['\n'], fun c hc => List.mem_singleton.mp hc, .newline (.inl rfl) .nil⟩
    | false => exact ⟨[], List.forall_mem_nil _, .nil⟩
  obtain ⟨more, hnewlines, hmore⟩ := hmore
  refine ⟨more, hnewlines, ?_⟩
  induction hwrites with
  | nil => exact hmore
  | newline hb _ ih => exact .newline hb ih
  | char hc _ ih => exact List.append_assoc .. ▸ .char hc ih

theorem exists_tail {c : Char} (hwrites : Writes (c :: text) bytes) (hc : c ≠ '\n') :
    ∃ bytes', bytes = utf8EncodeChar c ++ bytes' ∧ Writes text bytes' := by
  cases hwrites with
  | newline => exact absurd rfl hc
  | char _ hrest => exact ⟨_, rfl, hrest⟩

end Writes

/-- Nothing at the ends of a text can be taken for a layer that is missing. -/
structure Wrapping.Spares (w : Wrapping) (text : List Char) (bytes : List UInt8) : Prop where
  bracket : w.bracket = false → ¬ ['['] <+: text
  control : w.escape = .short → w.bracket = false → ¬ ['\x11'] <+: text
  carriageReturn : w.carriageReturn = false → ¬ [0x0D] <:+ bytes

theorem mem_layer {present : Bool} {b b' : UInt8} (hmem : b' ∈ layer present b) : b' = b := by
  cases present with
  | true => exact List.mem_singleton.mp hmem
  | false => cases hmem

namespace Wrapping

variable {w : Wrapping} {text : List Char} {bytes : List UInt8}

/-- A text that loses nothing is all that is left of its frame. -/
theorem Spares.tight (hspares : w.Spares text bytes) (hwrites : Writes text bytes) : w.Tight bytes := by
  have hinner : ∀ b ∈ layer w.bracket 0x5B ++ (bytes ++ layer w.carriageReturn 0x0D), b.toNat < 0xF8 := by
    intro b hb
    obtain hb | hb := List.mem_append.mp hb
    · exact mem_layer hb ▸ by decide
    obtain hb | hb := List.mem_append.mp hb
    · exact hwrites.toNat_lt hb
    · exact mem_layer hb ▸ by decide
  have hfirst : ∀ {c : Char}, c ≠ '\n' → c ≠ '\r' → ¬ [c] <+: text →
      ¬ utf8EncodeChar c <+: bytes ++ layer w.carriageReturn 0x0D := by
    intro c hc hc' hother hstarts
    obtain ⟨more, hmore, hwhole⟩ := hwrites.append_layer w.carriageReturn
    obtain ⟨rest, -, hrest, -⟩ := hwhole.exists_cons hc hc' hstarts
    cases text with
    | nil => exact hc (hmore c (by rw [← List.nil_append more, hrest]; exact List.mem_cons_self ..))
    | cons c' text =>
      obtain ⟨rfl, -⟩ := List.cons.inj hrest
      exact hother (List.cons_prefix_cons.mpr ⟨rfl, List.nil_prefix⟩)
  refine ⟨fun _ hends => ?_, fun _ hstarts => ?_, fun hshort hstarts => ?_, fun hmissing => ?_,
    hspares.carriageReturn⟩
  · obtain hmem | hmem := List.mem_append.mp (hends.subset (List.mem_singleton_self _))
    · cases hescape : w.escape <;> rw [hescape] at hmem <;> exact absurd hmem (by decide)
    · exact absurd (hinner _ hmem) (by decide)
  · exact absurd (hinner 0xFF (hstarts.subset (List.mem_cons_self ..))) (by decide)
  · cases hbracket : w.bracket with
    | true =>
      rw [hbracket] at hstarts
      exact absurd (List.cons_prefix_cons.mp hstarts).1 (by decide)
    | false =>
      rw [hbracket] at hstarts
      exact hfirst (c := '\x11') (by decide) (by decide) (hspares.control hshort hbracket) hstarts
  · exact hfirst (c := '[') (by decide) (by decide) (hspares.bracket hmissing)

theorem clean_wrap_of_spares (hspares : w.Spares text bytes) (hwrites : Writes text bytes)
    (hreturn : '\r' ∉ text) : clean (w.wrap bytes) = String.ofList text := by
  have hbody : body (w.wrap bytes) = bytes := body_eq_iff.mpr ⟨w, hspares.tight hwrites, rfl⟩
  obtain ⟨decoded, hdecoded, rfl⟩ := hwrites.repaired hreturn
  exact clean_of_repaired (hbody.symm ▸ hdecoded)

/-- Where a layer is missing and the text has its character, the frame is that of a shorter text
    in one more layer. -/
theorem exists_shorter (hspares : ¬ w.Spares text bytes) (hwrites : Writes text bytes)
    (hreturn : '\r' ∉ text) :
    ∃ (w' : Wrapping) (text' : List Char) (bytes' : List UInt8), w.wrap bytes = w'.wrap bytes' ∧
      Writes text' bytes' ∧ '\r' ∉ text' ∧ text'.length < text.length := by
  obtain ⟨escape, bracket, carriageReturn, terminated⟩ := w
  by_cases hbracket : bracket = false ∧ ['['] <+: text
  · obtain ⟨rfl, rest, rfl⟩ := hbracket
    obtain ⟨bytes', rfl, hrest⟩ := hwrites.exists_tail (by decide)
    exact ⟨⟨escape, true, carriageReturn, terminated⟩, rest, bytes', rfl, hrest,
      fun hmem => hreturn (List.mem_cons_of_mem _ hmem), Nat.lt_succ_self _⟩
  by_cases hcontrol : escape = .short ∧ bracket = false ∧ ['\x11'] <+: text
  · obtain ⟨rfl, rfl, rest, rfl⟩ := hcontrol
    obtain ⟨bytes', rfl, hrest⟩ := hwrites.exists_tail (by decide)
    exact ⟨⟨.long, false, carriageReturn, terminated⟩, rest, bytes', rfl, hrest,
      fun hmem => hreturn (List.mem_cons_of_mem _ hmem), Nat.lt_succ_self _⟩
  by_cases hclosed : carriageReturn = false ∧ [0x0D] <:+ bytes
  · obtain ⟨rfl, front, rfl⟩ := hclosed
    obtain ⟨rest, rfl, hrest⟩ := hwrites.exists_concat hreturn rfl
    refine ⟨⟨escape, bracket, true, terminated⟩, rest, front, ?_, hrest,
      fun hmem => hreturn (List.mem_append_left _ hmem), ?_⟩
    · simp only [wrap, layer, Bool.false_eq_true, if_false, if_true, List.append_nil]
    · rw [List.length_append]
      exact Nat.lt_succ_self _
  exact absurd ⟨fun hmissing hstarts => hbracket ⟨hmissing, hstarts⟩,
    fun hshort hmissing hstarts => hcontrol ⟨hshort, hmissing, hstarts⟩,
    fun hmissing hends => hclosed ⟨hmissing, hends⟩⟩ hspares

theorem length_clean_wrap_le (hwrites : Writes text bytes) (hreturn : '\r' ∉ text) :
    (clean (w.wrap bytes)).toList.length ≤ text.length := by
  induction hlength : text.length using Nat.strongRecOn generalizing w text bytes with
  | ind n ih =>
    by_cases hspares : w.Spares text bytes
    · rw [clean_wrap_of_spares hspares hwrites hreturn, String.toList_ofList, hlength]
    · obtain ⟨w', text', bytes', hsame, hwrites', hreturn', hshorter⟩ :=
        exists_shorter hspares hwrites hreturn
      rw [hsame]
      exact Nat.le_of_lt (Nat.lt_of_le_of_lt (ih _ (hlength ▸ hshorter) hwrites' hreturn' rfl)
        (hlength ▸ hshorter))

end Wrapping

/-- Unwrapping gives a text back exactly if none of it can be taken for a layer that is missing,
    and whatever a frame is, all but one of each layer is shown. -/
theorem clean_wrap_eq_iff :
    (∀ (w : Wrapping) (text : String) (bytes : List UInt8), '\r' ∉ text.toList →
        Writes text.toList bytes →
        (clean (w.wrap bytes) = text ↔ w.Spares text.toList bytes)) ∧
      ∀ raw, ∃ (w : Wrapping) (bytes : List UInt8) (text : List Char), raw = w.wrap bytes ∧
        Repaired bytes text ∧ clean raw = String.ofList (text.map shown) := by
  refine ⟨fun w text bytes hreturn hwrites => ⟨fun hclean => ?_, fun hspares => ?_⟩, fun raw => ?_⟩
  · by_contra hspares
    obtain ⟨w', text', bytes', hsame, hwrites', hreturn', hshorter⟩ :=
      Wrapping.exists_shorter hspares hwrites hreturn
    have hle := Wrapping.length_clean_wrap_le (w := w') hwrites' hreturn'
    rw [← hsame, hclean] at hle
    exact absurd hshorter (Nat.not_lt.mpr hle)
  · rw [Wrapping.clean_wrap_of_spares hspares hwrites hreturn, String.ofList_toList]
  · obtain ⟨w, -, hraw⟩ := body_eq_iff.mp (rfl : body raw = body raw)
    have hrepaired := Utf8.repaired_decodeLossy (body raw)
    exact ⟨w, body raw, _, hraw, hrepaired, clean_of_repaired hrepaired⟩

/-- A bracket within the text and a newline at its end are kept behind the short escape, where no
    bracket was written and the frame has a carriage return of its own. -/
theorem clean_wrap_short_escape :
    '\r' ∉ "é[\n".toList ∧ Writes "é[\n".toList [0xC3, 0xA9, 0x5B, 0x0D] ∧
      clean (Wrapping.wrap ⟨.short, false, true, true⟩ [0xC3, 0xA9, 0x5B, 0x0D]) = "é[\n" := by
  have hreturn : '\r' ∉ "é[\n".toList := by decide
  have hwrites : Writes "é[\n".toList [0xC3, 0xA9, 0x5B, 0x0D] :=
    .char (c := 'é') (by decide) (.char (c := '[') (by decide) (.newline (.inl rfl) .nil))
  exact ⟨hreturn, hwrites, (clean_wrap_eq_iff.1 _ _ _ hreturn hwrites).mpr
    ⟨fun _ => by decide, fun _ _ => by decide, nofun⟩⟩

/-- A byte that ends a line. -/
def isBreak (b : UInt8) : Bool := b == 0x0D || b == 0x0A

theorem isBreak_iff {b : UInt8} : isBreak b = true ↔ b = 0x0D ∨ b = 0x0A := by
  simp [isBreak]

theorem not_mem_map_shown (text : List Char) : '\r' ∉ text.map shown := by
  intro hmem
  obtain ⟨c, -, hc⟩ := List.mem_map.mp hmem
  unfold shown at hc
  split at hc
  · cases hc
  · rename_i hother
    exact hother hc

theorem shown_of_repaired {bytes : List UInt8} {text : List Char} (hrepaired : Repaired bytes text)
    (hline : ∀ b ∈ bytes, isBreak b = false) :
    text.map shown = text ∧ ∀ c ∈ text, (c == '\n') = false := by
  have hother : ∀ c ∈ text, c ≠ '\r' ∧ c ≠ '\n' := by
    intro c hc
    constructor
    · rintro rfl
      exact absurd (hline _ (hrepaired.mem (by decide) hc)) (by decide)
    · rintro rfl
      exact absurd (hline _ (hrepaired.mem (by decide) hc)) (by decide)
  constructor
  · exact (List.map_congr_left fun c hc => if_neg (hother c hc).1).trans (List.map_id text)
  · exact fun c hc => beq_eq_false_iff_ne.mpr (hother c hc).2

/-- The lines of a repaired text are the repaired lines. -/
theorem lines_of_repaired (bytes : List UInt8) : ∀ text, Repaired bytes text →
    List.Forall₂ Repaired (pieces isBreak bytes) (pieces (· == '\n') (text.map shown)) := by
  refine pieces_induction isBreak (motive := fun bytes => ∀ text, Repaired bytes text →
    List.Forall₂ Repaired (pieces isBreak bytes) (pieces (· == '\n') (text.map shown))) ?_ ?_ bytes
  · intro line hline text hrepaired
    obtain ⟨hshown, hlacks⟩ := shown_of_repaired hrepaired hline
    rw [pieces_of_lacks hline, hshown, pieces_of_lacks hlacks]
    exact .cons hrepaired .nil
  · intro line b late hline hb ih text hrepaired
    have hfirst := Utf8.repaired_decodeLossy line
    have hlate := Utf8.repaired_decodeLossy late
    obtain ⟨c, hc, hascii, hbyte⟩ : ∃ c, shown c = '\n' ∧ c.toNat < 0x80 ∧ UInt8.ofNat c.toNat = b := by
      obtain rfl | rfl := isBreak_iff.mp hb
      · exact ⟨'\r', rfl, by decide, rfl⟩
      · exact ⟨'\n', rfl, by decide, rfl⟩
    obtain ⟨hshown, hlacks⟩ := shown_of_repaired hfirst hline
    subst hbyte
    rw [hrepaired.unique (hfirst.append_cons hascii hlate), List.map_append, List.map_cons, hshown, hc,
      pieces_append_cons _ _ hb, pieces_append_cons _ _ rfl, pieces_of_lacks hline, pieces_of_lacks hlacks]
    exact .cons hfirst (ih _ hlate)

/-- The text of a frame has no carriage return, and its lines are those of the bytes between the
    layers, each repaired on its own. -/
theorem lines_clean (raw : List UInt8) :
    (∃ w : Wrapping, raw = w.wrap (body raw) ∧ w.Tight (body raw)) ∧
      '\r' ∉ (clean raw).toList ∧
      List.Forall₂ Repaired (pieces isBreak (body raw)) (pieces (· == '\n') (clean raw).toList) := by
  obtain ⟨w, htight, hraw⟩ := body_eq_iff.mp (rfl : body raw = body raw)
  have hrepaired := Utf8.repaired_decodeLossy (body raw)
  rw [clean_of_repaired hrepaired, String.toList_ofList]
  exact ⟨⟨w, hraw, htight⟩, not_mem_map_shown _, lines_of_repaired _ _ hrepaired⟩

/-- A character that is cut off does not take the line break behind it along. -/
example : clean [0x61, 0xE2, 0x82, 0x0D, 0x62, 0xFF, 0xFE] = "a\uFFFD\nb\uFFFD" := rfl

end PacketMonitor.Frame

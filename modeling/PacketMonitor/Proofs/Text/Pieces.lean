import Mathlib.Data.List.Infix
import Mathlib.Data.List.TakeDrop
import Mathlib.Data.List.TakeWhile
import PacketMonitor.Text.Pieces

namespace PacketMonitor.Text

/-- A separator that is in neither front stands behind both. -/
theorem append_cons_inj {α : Type} {separator : α} {front front' rest rest' : List α}
    (hfront : separator ∉ front) (hfront' : separator ∉ front')
    (hsame : front ++ separator :: rest = front' ++ separator :: rest') :
    front = front' ∧ rest = rest' := by
  obtain ⟨middle, rfl, hrest⟩ | ⟨middle, rfl, hrest⟩ := List.append_eq_append_iff.mp hsame
  · cases middle with
    | nil => exact ⟨(List.append_nil front).symm, (List.cons.inj hrest).2⟩
    | cons c middle =>
      obtain ⟨rfl, -⟩ := List.cons.inj hrest
      exact absurd (List.mem_append_right front (List.mem_cons_self ..)) hfront'
  · cases middle with
    | nil => exact ⟨List.append_nil front', (List.cons.inj hrest).2.symm⟩
    | cons c middle =>
      obtain ⟨rfl, -⟩ := List.cons.inj hrest
      exact absurd (List.mem_append_right front' (List.mem_cons_self ..)) hfront

/-- A run is split off where no other member follows it. -/
theorem span_append {α : Type} {isMember : α → Bool} {run rest : List α}
    (hrun : ∀ item ∈ run, isMember item = true) (hrest : ∀ item ∈ rest.head?, isMember item = false) :
    (run ++ rest).span isMember = (run, rest) := by
  rw [List.span_eq_takeWhile_dropWhile, List.takeWhile_append_of_pos hrun,
    List.dropWhile_append_of_pos hrun]
  cases rest with
  | nil => rw [List.takeWhile_nil, List.dropWhile_nil, List.append_nil]
  | cons item rest =>
    have hstop : ¬isMember item = true := Bool.not_eq_true _ ▸ hrest item rfl
    rw [List.takeWhile_cons_of_neg hstop, List.dropWhile_cons_of_neg hstop, List.append_nil]

theorem span_eq_iff {α : Type} {isMember : α → Bool} {items run rest : List α} :
    items.span isMember = (run, rest) ↔ items = run ++ rest ∧
      (∀ item ∈ run, isMember item = true) ∧ ∀ item ∈ rest.head?, isMember item = false := by
  constructor
  · intro hspan
    rw [List.span_eq_takeWhile_dropWhile] at hspan
    obtain ⟨rfl, rfl⟩ := Prod.mk.inj hspan
    refine ⟨List.takeWhile_append_dropWhile.symm, fun item => List.mem_takeWhile_imp, ?_⟩
    intro item hitem
    have hstop := items.head?_dropWhile_not isMember
    rwa [Option.mem_def.mp hitem] at hstop
  · rintro ⟨rfl, hrun, hrest⟩
    exact span_append hrun hrest

theorem takeWhile_eq_iff {α : Type} {isMember : α → Bool} {items run : List α} :
    items.takeWhile isMember = run ↔ ∃ rest, items = run ++ rest ∧
      (∀ item ∈ run, isMember item = true) ∧ ∀ item ∈ rest.head?, isMember item = false := by
  simp only [← span_eq_iff, List.span_eq_takeWhile_dropWhile, Prod.mk.injEq, exists_and_left,
    exists_eq', and_true]

theorem pieces_eq_splitOnP {α : Type} (isSeparator : α → Bool) (items : List α) :
    pieces isSeparator items = items.splitOnP isSeparator := by
  induction items with
  | nil => rw [pieces_nil, List.splitOnP_nil]
  | cons item rest ih =>
    rw [pieces_cons, List.splitOnP_cons_eq_if_modifyHead, ih]
    split
    · rfl
    · obtain ⟨piece, others, hpieces⟩ := List.exists_cons_of_ne_nil (rest.splitOnP_ne_nil isSeparator)
      rw [hpieces, List.modifyHead_cons]

theorem pieces_ne_nil {α : Type} (isSeparator : α → Bool) (items : List α) :
    pieces isSeparator items ≠ [] := by
  rw [pieces_eq_splitOnP]
  exact items.splitOnP_ne_nil isSeparator

theorem pieces_of_lacks {α : Type} {isSeparator : α → Bool} {items : List α}
    (hlacks : ∀ item ∈ items, isSeparator item = false) : pieces isSeparator items = [items] := by
  rw [pieces_eq_splitOnP, List.splitOnP_eq_singleton hlacks]

theorem pieces_of_not_mem {α : Type} [BEq α] [LawfulBEq α] {separator : α} {items : List α}
    (hlacks : separator ∉ items) : pieces (· == separator) items = [items] :=
  pieces_of_lacks fun _ hitem => beq_eq_false_iff_ne.mpr fun hsame => hlacks (hsame ▸ hitem)

theorem pieces_append_cons {α : Type} {isSeparator : α → Bool} (early late : List α) {separator : α}
    (hseparator : isSeparator separator = true) :
    pieces isSeparator (early ++ separator :: late) =
      pieces isSeparator early ++ pieces isSeparator late := by
  simp only [pieces_eq_splitOnP, List.splitOnP_append_cons early late hseparator]

theorem pieces_at {α : Type} [BEq α] [ReflBEq α] (separator : α) (early late : List α) :
    pieces (· == separator) (early ++ separator :: late) =
      pieces (· == separator) early ++ pieces (· == separator) late :=
  pieces_append_cons early late (beq_self_eq_true separator)

/-- What holds of a single piece, and of a piece in front of a separator if it holds of what
    follows, holds of every list. -/
theorem pieces_induction {α : Type} (isSeparator : α → Bool) {motive : List α → Prop}
    (single : ∀ piece, (∀ item ∈ piece, isSeparator item = false) → motive piece)
    (separated : ∀ piece separator late, (∀ item ∈ piece, isSeparator item = false) →
      isSeparator separator = true → motive late → motive (piece ++ separator :: late))
    (items : List α) : motive items := by
  suffices hall : ∀ piece, (∀ item ∈ piece, isSeparator item = false) → motive (piece ++ items) from
    hall [] (List.forall_mem_nil _)
  induction items with
  | nil =>
    intro piece hpiece
    rw [List.append_nil]
    exact single piece hpiece
  | cons item rest ih =>
    intro piece hpiece
    cases hitem : isSeparator item with
    | true => exact separated piece item rest hpiece hitem (ih [] (List.forall_mem_nil _))
    | false =>
      have hlonger := ih (piece ++ [item])
        (List.forall_mem_append.mpr ⟨hpiece, List.forall_mem_singleton.mpr hitem⟩)
      rwa [List.append_assoc, List.singleton_append] at hlonger

/-- A piece is a stretch of the list without separators. -/
theorem infix_of_mem_pieces {α : Type} {isSeparator : α → Bool} {items piece : List α}
    (hpiece : piece ∈ pieces isSeparator items) :
    piece <:+: items ∧ ∀ item ∈ piece, isSeparator item = false := by
  induction items using pieces_induction isSeparator with
  | single whole hwhole =>
    rw [pieces_of_lacks hwhole, List.mem_singleton] at hpiece
    subst hpiece
    exact ⟨List.infix_rfl, hwhole⟩
  | separated first separator late hfirst hseparator ih =>
    rw [pieces_append_cons _ _ hseparator, pieces_of_lacks hfirst, List.singleton_append,
      List.mem_cons] at hpiece
    obtain rfl | hlate := hpiece
    · exact ⟨(List.prefix_append ..).isInfix, hfirst⟩
    · obtain ⟨hpiece, hlacks⟩ := ih hlate
      exact ⟨(hpiece.trans (List.suffix_cons ..).isInfix).trans (List.suffix_append ..).isInfix, hlacks⟩

theorem infix_of_mem_lines {text line : List Char} (hline : line ∈ lines text) :
    line <:+: text ∧ '\n' ∉ line := by
  obtain ⟨piece, hpiece, rfl⟩ := List.mem_map.mp hline
  have hmem : piece ∈ pieces (· == '\n') text := by
    split at hpiece
    · exact List.mem_of_mem_dropLast hpiece
    · exact hpiece
  obtain ⟨hpiece, hlacks⟩ := infix_of_mem_pieces hmem
  have hfeed : '\n' ∉ piece := fun hfeed => absurd (hlacks '\n' hfeed) (by decide)
  split
  · exact ⟨(List.dropLast_prefix piece).isInfix.trans hpiece, fun h => hfeed (List.mem_of_mem_dropLast h)⟩
  · exact ⟨hpiece, hfeed⟩

/-- Where two lists meet, the last piece of one and the first piece of the other are one piece. -/
theorem exists_pieces_append {α : Type} (isSeparator : α → Bool) (front rest : List α) :
    ∃ whole last piece late, pieces isSeparator front = whole ++ [last] ∧
      pieces isSeparator (front ++ rest) = whole ++ (last ++ piece) :: late := by
  induction front with
  | nil =>
    obtain ⟨piece, late, hrest⟩ := List.exists_cons_of_ne_nil (pieces_ne_nil isSeparator rest)
    exact ⟨[], [], piece, late, pieces_nil isSeparator, hrest⟩
  | cons item front ih =>
    obtain ⟨whole, last, piece, late, hfront, hboth⟩ := ih
    rw [List.cons_append, pieces_cons, pieces_cons, hfront, hboth]
    split
    · exact ⟨[] :: whole, last, piece, late, rfl, rfl⟩
    · cases whole with
      | nil => exact ⟨[], item :: last, piece, late, rfl, rfl⟩
      | cons first whole => exact ⟨(item :: first) :: whole, last, piece, late, rfl, rfl⟩

/-- Segments that each follow a separator are the pieces behind the first one. -/
theorem pieces_append_flatMap {α : Type} {isSeparator : α → Bool} {separator : α}
    (hseparator : isSeparator separator = true) {first : List α} {segments : List (List α)}
    (hfirst : ∀ item ∈ first, isSeparator item = false)
    (hsegments : ∀ segment ∈ segments, ∀ item ∈ segment, isSeparator item = false) :
    pieces isSeparator (first ++ segments.flatMap (separator :: ·)) = first :: segments := by
  induction segments generalizing first with
  | nil => rw [List.flatMap_nil, List.append_nil, pieces_of_lacks hfirst]
  | cons segment segments ih =>
    obtain ⟨hsegment, hothers⟩ := List.forall_mem_cons.mp hsegments
    rw [List.flatMap_cons, List.cons_append, pieces_append_cons _ _ hseparator, pieces_of_lacks hfirst,
      ih hsegment hothers, List.singleton_append]

section Occurrence

variable {α : Type} [BEq α] {pattern : List α}

theorem splitFirstFrom?_eq_map (passed items : List α) :
    splitFirstFrom? pattern passed items =
      (splitFirst? pattern items).map fun (before, after) => (passed.reverse ++ before, after) := by
  induction items generalizing passed with
  | nil =>
    simp only [splitFirst?, splitFirstFrom?]
    split <;> simp
  | cons item rest ih =>
    simp only [splitFirst?, splitFirstFrom?]
    split
    · simp
    · rw [ih, ih [item], Option.map_map]
      congr 1
      funext (before, after)
      simp

theorem splitFirst?_cons (item : α) (rest : List α) :
    splitFirst? pattern (item :: rest) =
      if pattern.isPrefixOf (item :: rest) then some ([], (item :: rest).drop pattern.length)
      else (splitFirst? pattern rest).map fun (before, after) => (item :: before, after) := by
  rw [splitFirst?, splitFirstFrom?, splitFirstFrom?_eq_map [item]]
  rfl

variable [LawfulBEq α]

/-- A list is split around the occurrence of a pattern with the least in front of it. -/
theorem splitFirst?_eq_some_iff {items before after : List α} :
    splitFirst? pattern items = some (before, after) ↔
      items = before ++ pattern ++ after ∧
        ∀ front, front ++ pattern <+: items → before.length ≤ front.length := by
  induction items generalizing before with
  | nil =>
    simp only [splitFirst?, splitFirstFrom?, List.isEmpty_iff]
    split
    · simp_all
    · simp_all
  | cons item rest ih =>
    rw [splitFirst?_cons]
    split
    · rename_i hstarts
      obtain ⟨later, hlater⟩ := List.isPrefixOf_iff_prefix.mp hstarts
      rw [← hlater, List.drop_left]
      constructor
      · rintro ⟨⟩
        exact ⟨rfl, fun front _ => Nat.zero_le _⟩
      · rintro ⟨hsplit, hleast⟩
        have hbefore := hleast [] (List.prefix_append ..)
        obtain rfl := List.eq_nil_of_length_eq_zero (Nat.le_zero.mp hbefore)
        rw [List.nil_append, List.append_cancel_left_eq] at hsplit
        rw [hsplit]
    · rename_i hstarts
      have hother : ¬ pattern <+: item :: rest := fun h => hstarts (List.isPrefixOf_iff_prefix.mpr h)
      constructor
      · intro hsplit
        obtain ⟨⟨front, later⟩, hrest, heq⟩ := Option.map_eq_some_iff.mp hsplit
        cases heq
        obtain ⟨rfl, hleast⟩ := ih.mp hrest
        refine ⟨rfl, fun other hoccurs => ?_⟩
        cases other with
        | nil => exact absurd hoccurs hother
        | cons head other =>
          rw [List.cons_append, List.cons_prefix_cons] at hoccurs
          exact Nat.succ_le_succ (hleast other hoccurs.2)
      · rintro ⟨hsplit, hleast⟩
        cases before with
        | nil =>
          rw [List.nil_append] at hsplit
          exact absurd (hsplit ▸ List.prefix_append ..) hother
        | cons head before =>
          obtain ⟨rfl, rfl⟩ := List.cons.inj hsplit
          refine Option.map_eq_some_iff.mpr ⟨(before, after), ih.mpr ⟨rfl, fun front hoccurs => ?_⟩, rfl⟩
          have hlonger := hleast (item :: front) (List.cons_prefix_cons.mpr ⟨rfl, hoccurs⟩)
          exact Nat.le_of_succ_le_succ hlonger

theorem splitFirst?_eq_none_iff {items : List α} :
    splitFirst? pattern items = none ↔ ¬ pattern <:+: items := by
  induction items with
  | nil => simp [splitFirst?, splitFirstFrom?]
  | cons item rest ih =>
    rw [splitFirst?_cons, List.infix_cons_iff, ← List.isPrefixOf_iff_prefix]
    split
    · rename_i hstarts
      simp [hstarts]
    · rename_i hstarts
      rw [Option.map_eq_none_iff, ih]
      simp [hstarts]

/-- Behind a list without it a pattern is found where it stands, unless a part of its end
    is its beginning as well. -/
theorem splitFirst?_append {before : List α}
    (hinside : ∀ count < pattern.length, pattern.drop count <+: pattern → count = 0)
    (hbefore : ¬ pattern <:+: before) (after : List α) :
    splitFirst? pattern (before ++ pattern ++ after) = some (before, after) := by
  refine splitFirst?_eq_some_iff.mpr ⟨rfl, fun front hoccurs => ?_⟩
  by_contra hearly
  have hfront : front <+: before := by
    apply List.prefix_of_prefix_length_le ((List.prefix_append ..).trans hoccurs)
    · exact (List.prefix_append before pattern).trans (List.prefix_append ..)
    · omega
  obtain ⟨middle, rfl⟩ := hfront
  simp only [List.append_assoc, List.prefix_append_right_inj] at hoccurs
  obtain hwhole | ⟨rest, hrest⟩ :=
    List.prefix_or_prefix_of_prefix hoccurs (List.prefix_append middle (pattern ++ after))
  · exact hbefore ((hwhole.isInfix).trans (List.suffix_append ..).isInfix)
  · have hlength := congrArg List.length hrest
    simp only [List.length_append] at hlength hearly
    by_cases hnone : middle.length = pattern.length
    · have hall : middle = pattern := by
        rw [← hrest, List.eq_nil_of_length_eq_zero (by omega : rest.length = 0), List.append_nil]
      exact hbefore (hall ▸ (List.suffix_append ..).isInfix)
    · have hdrop : pattern.drop middle.length = rest := by rw [← hrest, List.drop_left]
      have hagain : middle ++ rest <+: middle ++ (pattern ++ after) := by rwa [hrest]
      have hborder : rest <+: pattern :=
        List.prefix_of_prefix_length_le ((List.prefix_append_right_inj middle).mp hagain)
          (List.prefix_append ..) (by omega)
      have hstart := hinside middle.length (by omega) (hdrop ▸ hborder)
      omega

/-- What stands behind the last occurrence of a pattern is the least of all that stands behind
    one. -/
theorem afterLast?_eq_some_iff {items after : List α} :
    afterLast? pattern items = some after ↔
      ∃ before, items = before ++ pattern ++ after ∧
        ∀ rest, pattern ++ rest <:+ items → after.length ≤ rest.length := by
  have hsplit : ∀ before, splitFirst? pattern.reverse items.reverse =
      some (after.reverse, before.reverse) ↔ items = before ++ pattern ++ after ∧
        ∀ rest, pattern ++ rest <:+ items → after.length ≤ rest.length := by
    intro before
    rw [splitFirst?_eq_some_iff, ← List.reverse_append, ← List.reverse_append, List.reverse_inj,
      ← List.append_assoc, List.length_reverse]
    refine and_congr_right fun _ => ⟨fun hleast rest hoccurs => ?_, fun hleast front hoccurs => ?_⟩
    · have hfront := hleast rest.reverse
      rw [← List.reverse_append, List.reverse_prefix, List.length_reverse] at hfront
      exact hfront hoccurs
    · have hrest := hleast front.reverse
      rw [← List.reverse_prefix, List.reverse_append, List.reverse_reverse,
        List.length_reverse] at hrest
      exact hrest hoccurs
  constructor
  · intro hread
    obtain ⟨⟨front, rest⟩, hfound, rfl⟩ := Option.map_eq_some_iff.mp hread
    exact ⟨rest.reverse, (hsplit _).mp (by rw [hfound, List.reverse_reverse, List.reverse_reverse])⟩
  · rintro ⟨before, hbefore⟩
    rw [afterLast?, (hsplit before).mpr hbefore, Option.map_some, List.reverse_reverse]

theorem afterLast?_append {after : List α}
    (hinside : ∀ count < pattern.length, pattern.reverse.drop count <+: pattern.reverse → count = 0)
    (hafter : ¬ pattern <:+: after) (before : List α) :
    afterLast? pattern (before ++ pattern ++ after) = some after := by
  have hreverse : (before ++ pattern ++ after).reverse =
      after.reverse ++ pattern.reverse ++ before.reverse := by
    simp only [List.reverse_append, List.append_assoc]
  rw [afterLast?, hreverse, splitFirst?_append (by rwa [List.length_reverse])
    (by rwa [List.reverse_infix]), Option.map_some, List.reverse_reverse]

end Occurrence

end PacketMonitor.Text

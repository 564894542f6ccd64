import Mathlib.Data.List.DropRight
import PacketMonitor.Text.Blank

namespace PacketMonitor.Text

theorem exists_eq_trimEnd_append (text : List Char) :
    ∃ blanks, text = trimEnd text ++ blanks ∧ ∀ c ∈ blanks, isBlank c = true :=
  ⟨text.rtakeWhile isBlank, List.rdropWhile_append_rtakeWhile.symm, fun _ => List.mem_rtakeWhile_imp⟩

theorem trimEnd_append_blanks (text : List Char) {blanks : List Char}
    (hblanks : ∀ c ∈ blanks, isBlank c = true) : trimEnd (text ++ blanks) = trimEnd text := by
  have hreverse : ∀ c ∈ blanks.reverse, isBlank c = true :=
    fun c hc => hblanks c (List.mem_reverse.mp hc)
  rw [trimEnd, trimEnd, List.reverse_append, List.dropWhile_append_of_pos hreverse]

theorem trimEnd_concat (text : List Char) {c : Char} (hc : isBlank c = false) :
    trimEnd (text ++ [c]) = text ++ [c] := by
  rw [trimEnd, List.reverse_concat, List.dropWhile_cons_of_neg (by simp [hc]), List.reverse_cons,
    List.reverse_reverse]

theorem trimEnd_trimEnd (text : List Char) : trimEnd (trimEnd text) = trimEnd text :=
  List.rdropWhile_idempotent isBlank text

/-- Trimming the end leaves no blanks at the start where there were none. -/
theorem trimStart_trimEnd_trimStart (text : List Char) :
    trimStart (trimEnd (trimStart text)) = trimEnd (trimStart text) := by
  have hfront : trimEnd (trimStart text) <+: trimStart text := List.rdropWhile_prefix ..
  have hstart : trimStart (trimStart text) = trimStart text := List.dropWhile_idempotent ..
  refine List.dropWhile_eq_self_iff.mpr fun hlength => ?_
  rw [hfront.getElem hlength]
  exact List.dropWhile_eq_self_iff.mp hstart (Nat.lt_of_lt_of_le hlength hfront.length_le)

theorem trim_trim (text : List Char) : trim (trim text) = trim text := by
  rw [trim, trim, trimStart_trimEnd_trimStart, trimEnd_trimEnd]

/-- Trimming takes something away at the ends only. -/
theorem isInfix_trim (text : List Char) : trim text <:+: text :=
  (List.rdropWhile_prefix isBlank (trimStart text)).isInfix.trans
    (List.dropWhile_suffix isBlank).isInfix

theorem isBlank_head?_trim {text : List Char} {c : Char} (hc : (trim text).head? = some c) :
    isBlank c = false := by
  have hstart : (trim text).dropWhile isBlank = trim text := trimStart_trimEnd_trimStart text
  obtain ⟨rest, hcons⟩ := List.head?_eq_some_iff.mp hc
  rw [hcons] at hstart
  have hfirst := List.dropWhile_eq_self_iff.mp hstart (Nat.zero_lt_succ _)
  exact Bool.not_eq_true _ ▸ hfirst

theorem isBlank_getLast?_trim {text : List Char} {c : Char} (hc : (trim text).getLast? = some c) :
    isBlank c = false := by
  have hsome : (trimStart text).rdropWhile isBlank ≠ [] := by
    intro hnone
    have htrim : trim text = [] := hnone
    rw [htrim] at hc
    cases hc
  have hlast : (trim text).getLast? = some _ := List.getLast?_eq_some_getLast hsome
  obtain rfl := Option.some.inj (hc.symm.trans hlast)
  simpa using List.rdropWhile_last_not isBlank (trimStart text) hsome

theorem trimmed_trimmed (text : String) : trimmed (trimmed text) = trimmed text := by
  rw [trimmed, trimmed, String.toList_ofList, trim_trim]

end PacketMonitor.Text

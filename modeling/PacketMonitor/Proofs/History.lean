import Mathlib.Data.List.DropRight
import PacketMonitor.History

namespace PacketMonitor.History

variable {α β : Type}

/-- A history has room for so many entries and holds the last of a sequence, as
    many of them as that. -/
structure HoldsLast (h : History α) (capacity : Nat) (entries : List α) : Prop where
  capacity_eq : h.capacity = capacity
  toList_eq : h.toList = entries.drop (entries.length - capacity)

theorem holdsLast_empty (capacity : Nat) : (empty capacity : History α).HoldsLast capacity [] :=
  ⟨rfl, by simp⟩

theorem HoldsLast.size_eq {h : History α} {capacity : Nat} {entries : List α}
    (hlast : h.HoldsLast capacity entries) : h.size = min entries.length capacity := by
  rw [← length_toList, hlast.toList_eq, List.length_drop]
  omega

/-- Full or not, with room or without, a history still holds the last entries
    after one entry more. -/
theorem HoldsLast.push {h : History α} {capacity : Nat} {entries : List α}
    (hlast : h.HoldsLast capacity entries) (entry : α) :
    (h.push entry).HoldsLast capacity (entries ++ [entry]) := by
  refine ⟨(capacity_push h entry).trans hlast.capacity_eq, ?_⟩
  have hsize := hlast.size_eq
  have hfront : entries.length - capacity ≤ entries.length := Nat.sub_le _ _
  rw [toList_push, hlast.capacity_eq, hlast.toList_eq, ← List.drop_append_of_le_length hfront,
    List.drop_drop]
  congr 1
  simp only [List.length_append, List.length_singleton]
  omega

/-- Entries that are added one after the other follow those that a history had before. -/
theorem HoldsLast.foldl_push {h : History α} {capacity : Nat} {entries : List α}
    (hlast : h.HoldsLast capacity entries) (more : List α) :
    (more.foldl History.push h).HoldsLast capacity (entries ++ more) := by
  induction more generalizing h entries with
  | nil =>
    rw [List.append_nil]
    exact hlast
  | cons entry more ih =>
    have hnext := ih (hlast.push entry)
    rwa [List.append_assoc, List.singleton_append] at hnext

theorem HoldsLast.toList_eq_rtake {h : History α} {capacity : Nat} {entries : List α}
    (hlast : h.HoldsLast capacity entries) :
    h.toList = entries.rtake (min entries.length capacity) := by
  rw [hlast.toList_eq, List.rtake]
  congr 1
  omega

/-- After each entry a history lists and visits the last entries of all, as many as there is
    room for, in the order in which they came. The room stays what it was, be it none at all. -/
theorem foldl_push_keeps_last (capacity : Nat) (entries : List α) (f : β → α → β) (start : β) :
    let h := entries.foldl push (empty capacity)
    let last := entries.rtake (min entries.length capacity)
    h.toList = last ∧ h.foldl f start = last.foldl f start ∧
      h.size = min entries.length capacity ∧
      (h.isEmpty = true ↔ min entries.length capacity = 0) ∧ h.capacity = capacity := by
  intro h last
  have hlast : h.HoldsLast capacity entries := (holdsLast_empty capacity).foldl_push entries
  have htoList : h.toList = last := hlast.toList_eq_rtake
  refine ⟨htoList, ?_, hlast.size_eq, ?_, hlast.capacity_eq⟩
  · rw [foldl_eq_foldl_toList, htoList]
  · rw [isEmpty_iff_size_eq_zero, hlast.size_eq]

end PacketMonitor.History

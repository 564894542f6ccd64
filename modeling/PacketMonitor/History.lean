namespace PacketMonitor

/-- The last entries of a sequence, as many as fit, in a ring. While there is
    room the oldest entry stands first. Afterwards each new entry takes the
    place of the oldest one. -/
structure History (α : Type) where
  capacity : Nat
  slots : Array α
  oldest : Nat
  size_le : slots.size ≤ capacity
  oldest_lt : slots.size = capacity → 0 < capacity → oldest < capacity
  oldest_eq : slots.size < capacity → oldest = 0

namespace History

variable {α β : Type}

/-- A history without entries. With capacity zero it never has any. -/
def empty (capacity : Nat) : History α where
  capacity
  slots := #[]
  oldest := 0
  size_le := Nat.zero_le _
  oldest_lt := fun _ h => h
  oldest_eq := fun _ => rfl

/-- The number of entries kept. -/
def size (h : History α) : Nat := h.slots.size

/-- Whether nothing is kept. -/
def isEmpty (h : History α) : Bool := h.slots.isEmpty

/-- The entries kept, oldest first. -/
def toList (h : History α) : List α :=
  h.slots.toList.drop h.oldest ++ h.slots.toList.take h.oldest

/-- Visits the entries in place, oldest first. -/
def foldl (f : β → α → β) (start : β) (h : History α) : β :=
  h.slots.foldl f (h.slots.foldl f start h.oldest) 0 h.oldest

/-- Adds an entry. A full history forgets its oldest one for it. -/
def push (h : History α) (entry : α) : History α :=
  if hroom : h.slots.size < h.capacity then
    { h with
      slots := h.slots.push entry
      size_le := by rw [Array.size_push]; exact hroom
      oldest_lt := by intro _ hpositive; rw [h.oldest_eq hroom]; exact hpositive
      oldest_eq := fun _ => h.oldest_eq hroom }
  else if hnone : h.capacity = 0 then h
  else
    have hfull : h.slots.size = h.capacity := Nat.le_antisymm h.size_le (Nat.le_of_not_lt hroom)
    { h with
      slots := h.slots.set h.oldest entry
        (hfull ▸ h.oldest_lt hfull (Nat.pos_of_ne_zero hnone))
      oldest := (h.oldest + 1) % h.capacity
      size_le := by rw [Array.size_set]; exact h.size_le
      oldest_lt := fun _ hpositive => Nat.mod_lt _ hpositive
      oldest_eq := by
        intro hsmall
        rw [Array.size_set, hfull] at hsmall
        exact absurd hsmall (Nat.lt_irrefl _) }

@[simp] theorem toList_empty (capacity : Nat) : (empty capacity : History α).toList = [] := rfl

@[simp] theorem length_toList (h : History α) : h.toList.length = h.size := by
  simp [toList, size]
  omega

theorem isEmpty_iff_size_eq_zero (h : History α) : h.isEmpty = true ↔ h.size = 0 :=
  Array.isEmpty_iff_size_eq_zero

/-- A visit meets the entries in the order in which they are listed. -/
theorem foldl_eq_foldl_toList (f : β → α → β) (start : β) (h : History α) :
    h.foldl f start = h.toList.foldl f start := by
  have hslots : ∀ start first stop, h.slots.foldl f start first stop =
      ((h.slots.toList.take stop).drop first).foldl f start := by
    intro start first stop
    rw [Array.foldl_eq_foldl_extract, ← Array.foldl_toList, Array.toList_extract,
      List.extract_eq_drop_take']
  rw [foldl, hslots, hslots, toList, List.foldl_append, List.drop_zero, Array.size, List.take_length]

@[simp] theorem capacity_push (h : History α) (entry : α) :
    (h.push entry).capacity = h.capacity := by
  unfold push
  split
  · rfl
  · split <;> rfl

/-- A new entry follows all others, and what no longer fits is left out at the
    front. -/
theorem toList_push (h : History α) (entry : α) :
    (h.push entry).toList =
      (h.toList ++ [entry]).drop (h.size + 1 - h.capacity) := by
  unfold push
  split
  · rename_i hroom
    have hnone : h.size + 1 - h.capacity = 0 := by simp only [size]; omega
    simp [toList, h.oldest_eq hroom, hnone]
  · rename_i hroom
    split
    · rename_i hzero
      have hsize : h.slots.size = 0 := by have := h.size_le; omega
      have hslots : h.slots = #[] := Array.eq_empty_of_size_eq_zero hsize
      simp [toList, hslots, size, hzero]
    · rename_i hpositive
      have hfull : h.slots.size = h.capacity := Nat.le_antisymm h.size_le (Nat.le_of_not_lt hroom)
      have hone : h.size + 1 - h.capacity = 1 := by simp only [size]; omega
      have hlt := h.oldest_lt hfull (Nat.pos_of_ne_zero hpositive)
      rw [hone]
      obtain ⟨capacity, ⟨slots⟩, oldest, _, _, _⟩ := h
      simp only [List.size_toArray] at hfull hlt
      subst hfull
      obtain ⟨before, old, after, rfl, rfl⟩ :
          ∃ before old after, slots = before ++ old :: after ∧ oldest = before.length :=
        ⟨slots.take oldest, slots[oldest], slots.drop (oldest + 1), by simp, by simp; omega⟩
      cases after with
      | nil => simp [toList]
      | cons next after =>
        have hnext : (before.length + 1) % (before.length + (after.length + 1 + 1)) =
            before.length + 1 := Nat.mod_eq_of_lt (by omega)
        simp [toList, hnext, List.drop_append, List.take_append, List.drop_eq_nil_of_le,
          List.take_of_length_le]

end History

end PacketMonitor

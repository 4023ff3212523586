import Libjingle.Std.Memory

/-!
# Rings of elements

A ring keeps its elements in the first `size` addresses of a memory. Cell
`index` of the ring that starts at `start` lives at address
`(start + index) % size`. A transfer that runs over the end is made of two
parts, the second of which restarts at address zero; `read_eq_cells` and the
`cell_write` lemmas let a reader forget that split.
-/

namespace Libjingle.Std.Ring

variable {α : Type}

/-- The element `index` cells after `start`. -/
def cell (memory : Memory α) (size start index : Nat) : α :=
  memory ((start + index) % size)

/-- Copy `count` elements out of the ring: up to its end, then from its front. -/
def read (memory : Memory α) (size start count : Nat) : List α :=
  let tail := min count (size - start)
  memory.slice start tail ++ memory.slice 0 (count - tail)

/-- Copy `source` into the ring: up to its end, then from its front. -/
def write (memory : Memory α) (size start : Nat) (source : List α) : Memory α :=
  let tail := min source.length (size - start)
  (memory.copy start (source.take tail)).copy 0 (source.drop tail)

/-- An offset inside the ring crosses its end at most once. -/
theorem add_mod_of_le {size start index : Nat} (startInside : start < size)
    (indexInside : index < size) :
    (start + index) % size =
      if start + index < size then start + index else start + index - size := by
  split
  · next before => exact Nat.mod_eq_of_lt before
  · next past =>
      rw [Nat.mod_eq_sub_mod (Nat.le_of_not_lt past)]
      exact Nat.mod_eq_of_lt (by omega)

/-- Moving the start of the ring forward renumbers its cells. -/
theorem cell_advance (memory : Memory α) (size start amount index : Nat) :
    cell memory size ((start + amount) % size) index =
      cell memory size start (amount + index) := by
  simp [cell, Nat.mod_add_mod, Nat.add_assoc]

@[simp] theorem length_read (memory : Memory α) (size start count : Nat) :
    (read memory size start count).length = count := by
  simp only [read, List.length_append, Memory.length_slice]
  omega

/-- The two parts of a read are the consecutive cells of the ring. -/
theorem read_eq_cells (memory : Memory α) {size start count : Nat} (startInside : start < size)
    (fits : count ≤ size) :
    read memory size start count = (List.range count).map (cell memory size start) := by
  apply List.ext_getElem
  · simp
  · intro index left right
    have counted : index < count := by simpa using left
    have wrapped := add_mod_of_le startInside (Nat.lt_of_lt_of_le counted fits)
    simp only [read, List.getElem_append, Memory.length_slice, Memory.getElem_slice,
      List.getElem_map, List.getElem_range, cell, wrapped]
    split <;> split <;> first | rfl | (congr 1; omega)

/-- A cell in the written range holds the element written there. -/
theorem cell_write_inside (memory : Memory α) {size start index : Nat} (source : List α)
    (startInside : start < size) (fits : source.length ≤ size) (inside : index < source.length) :
    cell (write memory size start source) size start index = source[index] := by
  have wrapped := add_mod_of_le startInside (Nat.lt_of_lt_of_le inside fits)
  simp only [cell, write, wrapped]
  split
  · next before =>
      rw [Memory.copy_after _ _ (by simp; omega),
        Memory.copy_inside _ _ (by omega) (by simp; omega)]
      simp
  · next past =>
      rw [Memory.copy_inside _ _ (by omega) (by simp; omega)]
      simp only [List.getElem_drop]
      congr 1
      omega

/-- Every cell after the written range keeps its element. -/
theorem cell_write_outside (memory : Memory α) {size start index : Nat} (source : List α)
    (startInside : start < size) (outside : source.length ≤ index) (indexInside : index < size) :
    cell (write memory size start source) size start index = cell memory size start index := by
  have wrapped := add_mod_of_le startInside indexInside
  simp only [cell, write, wrapped]
  split
  · next before =>
      rw [Memory.copy_after _ _ (by simp; omega), Memory.copy_after _ _ (by simp; omega)]
  · next past =>
      rw [Memory.copy_after _ _ (by simp; omega), Memory.copy_before _ _ (by omega)]

end Libjingle.Std.Ring

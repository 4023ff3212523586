import Libjingle.Base.FifoBuffer

/-!
# What each `FifoBuffer` call does to the cells

One specification lemma for each call, in terms of `contents` (the readable
bytes) and `cell` (every byte of the ring, counted from the read position).
Users of the buffer reason from these lemmas and never unfold the ring.
-/

namespace Libjingle.Base.FifoBuffer

open Libjingle.Std

variable {f : FifoBuffer}

/-! ## Reading -/

/-- A read at an offset returns the readable bytes from there on. -/
theorem readOffset_eq (valid : f.Valid) (bytes : Nat) {offset : Nat}
    (inside : offset < f.dataLength) :
    f.readOffset bytes offset = (.success, (f.contents.drop offset).take bytes) := by
  have past : ¬ f.dataLength ≤ offset := Nat.not_le.mpr inside
  have fits := valid.fits
  simp only [readOffset, past, if_false, Prod.mk.injEq, true_and]
  rw [Ring.read_eq_cells _ (Nat.mod_lt _ valid.positive) (by omega)]
  apply List.ext_getElem
  · simp
  · intro index left right
    simp [contents, cell, Ring.cell_advance]

theorem readOffset_empty (bytes : Nat) {offset : Nat} (outside : f.dataLength ≤ offset) :
    f.readOffset bytes offset = (if f.state ≠ .closed then .block else .eos, []) := by
  simp [readOffset, outside]

/-- The buffer after `amount` readable bytes have left at the front. -/
def advance (f : FifoBuffer) (amount : Nat) : FifoBuffer :=
  { f with
    readPosition := (f.readPosition + amount) % f.bufferLength
    dataLength := f.dataLength - amount }

@[simp] theorem state_advance (amount : Nat) : (f.advance amount).state = f.state := rfl

@[simp] theorem bufferLength_advance (amount : Nat) :
    (f.advance amount).bufferLength = f.bufferLength := rfl

@[simp] theorem dataLength_advance (amount : Nat) :
    (f.advance amount).dataLength = f.dataLength - amount := rfl

theorem valid_advance (valid : f.Valid) (amount : Nat) : (f.advance amount).Valid where
  positive := valid.positive
  inside := Nat.mod_lt _ valid.positive
  fits := Nat.le_trans (Nat.sub_le _ _) valid.fits

/-- Bytes leave at the front: every remaining cell moves down. -/
@[simp] theorem cell_advance (amount index : Nat) :
    (f.advance amount).cell index = f.cell (amount + index) :=
  Ring.cell_advance _ _ _ _ _

@[simp] theorem contents_advance (amount : Nat) :
    (f.advance amount).contents = f.contents.drop amount := by
  apply List.ext_getElem
  · simp
  · intro index left right
    simp [contents]

/-- A successful read returns the oldest bytes and takes them out. -/
theorem read_eq (valid : f.Valid) (bytes : Nat) (some : 0 < f.dataLength) :
    ∃ g, f.read bytes = (.success, f.contents.take bytes, g) ∧
      (g = f.advance (min bytes f.dataLength) ∨
        g = (f.advance (min bytes f.dataLength)).postEvent .write) := by
  have result : f.readOffset bytes 0 = (.success, f.contents.take bytes) := by
    simpa using readOffset_eq valid bytes some
  simp only [read, result, List.length_take, length_contents]
  split
  · exact ⟨_, rfl, .inr rfl⟩
  · exact ⟨_, rfl, .inl rfl⟩

theorem read_empty (bytes : Nat) (empty : f.dataLength = 0) :
    f.read bytes = (if f.state ≠ .closed then .block else .eos, [], f) := by
  have result := readOffset_empty bytes (Nat.le_of_eq empty)
  by_cases closed : f.state = .closed <;> simp [read, result, closed]

/-- Consuming readable bytes takes them out at the front. -/
theorem consumeReadData_eq {size : Nat} (le : size ≤ f.dataLength) :
    f.consumeReadData size = f.advance size ∨
      f.consumeReadData size = (f.advance size).postEvent .write := by
  simp only [consumeReadData, sizeSub_of_le le]
  split
  · exact .inr rfl
  · exact .inl rfl

/-- The block at the read position is an initial part of the contents, and it
is not empty while something is readable. -/
theorem getReadData_eq (valid : f.Valid) :
    ∃ count, f.getReadData = f.contents.take count ∧ (0 < f.dataLength → 0 < count) := by
  have inside := valid.inside
  have fits := valid.fits
  refine ⟨if f.readPosition + f.dataLength ≤ f.bufferLength then f.dataLength
    else f.bufferLength - f.readPosition, ?_, fun _ => by split <;> omega⟩
  apply List.ext_getElem
  · simp [getReadData]
    split <;> omega
  · intro index left right
    have counted : f.readPosition + index < f.bufferLength := by
      simp only [getReadData, Memory.length_slice] at left
      split at left <;> omega
    simp [getReadData, contents, cell, Ring.cell, Nat.mod_eq_of_lt counted]

/-! ## Writing -/

/-- The buffer after `source` was stored `offset` bytes past the readable ones. -/
def stage (f : FifoBuffer) (source : List UInt8) (offset : Nat) : FifoBuffer :=
  { f with
    buffer := Ring.write f.buffer f.bufferLength
      ((f.readPosition + f.dataLength + offset) % f.bufferLength) source }

@[simp] theorem state_stage (source : List UInt8) (offset : Nat) :
    (f.stage source offset).state = f.state := rfl

@[simp] theorem bufferLength_stage (source : List UInt8) (offset : Nat) :
    (f.stage source offset).bufferLength = f.bufferLength := rfl

@[simp] theorem dataLength_stage (source : List UInt8) (offset : Nat) :
    (f.stage source offset).dataLength = f.dataLength := rfl

theorem valid_stage (valid : f.Valid) (source : List UInt8) (offset : Nat) :
    (f.stage source offset).Valid :=
  ⟨valid.positive, valid.inside, valid.fits⟩

/-- A write within the free space succeeds and stores what fits. -/
theorem writeOffset_eq (isOpen : f.state ≠ .closed) {offset : Nat}
    (room : f.dataLength + offset < f.bufferLength) (source : Memory UInt8) (bytes : Nat) :
    f.writeOffset source bytes offset =
      (.success, min bytes (f.bufferLength - f.dataLength - offset),
        f.stage (source.slice 0 (min bytes (f.bufferLength - f.dataLength - offset))) offset) := by
  simp [writeOffset, isOpen, Nat.not_le.mpr room, stage]

theorem writeOffset_full (isOpen : f.state ≠ .closed) {offset : Nat}
    (full : f.bufferLength ≤ f.dataLength + offset) (source : Memory UInt8) (bytes : Nat) :
    f.writeOffset source bytes offset = (.block, 0, f) := by
  simp [writeOffset, isOpen, full]

/-- The cell at a position of the ring, counted from the target of a staged write. -/
private theorem cell_from_target (memory : Memory UInt8) (position index : Nat) :
    Ring.cell memory f.bufferLength f.readPosition (position + index) =
      Ring.cell memory f.bufferLength ((f.readPosition + position) % f.bufferLength) index :=
  (Ring.cell_advance _ _ _ _ _).symm

/-- A staged byte is in the cell it was staged for. -/
theorem cell_stage_inside (valid : f.Valid) {source : List UInt8} {offset index : Nat}
    (room : f.dataLength + offset + source.length ≤ f.bufferLength)
    (inside : index < source.length) :
    (f.stage source offset).cell (f.dataLength + offset + index) = source[index] := by
  have target := cell_from_target (f := f) (f.stage source offset).buffer
    (f.dataLength + offset) index
  rw [← Nat.add_assoc f.readPosition] at target
  calc (f.stage source offset).cell (f.dataLength + offset + index)
      = _ := target
    _ = source[index] :=
      Ring.cell_write_inside _ _ (Nat.mod_lt _ valid.positive) (by omega) inside

/-- Staging leaves every other cell of the ring alone. -/
theorem cell_stage_outside (valid : f.Valid) {source : List UInt8} {offset index : Nat}
    (room : f.dataLength + offset + source.length ≤ f.bufferLength)
    (indexInside : index < f.bufferLength)
    (outside : index < f.dataLength + offset ∨ f.dataLength + offset + source.length ≤ index) :
    (f.stage source offset).cell index = f.cell index := by
  -- Count the cell from the target of the write; cells before it come after it.
  obtain ⟨distance, placed, reached⟩ : ∃ distance, source.length ≤ distance ∧
      distance < f.bufferLength ∧
      (f.dataLength + offset + distance = index ∨
        f.dataLength + offset + distance = index + f.bufferLength) := by
    rcases outside with before | after
    · exact ⟨index + f.bufferLength - (f.dataLength + offset), by omega, by omega, by omega⟩
    · exact ⟨index - (f.dataLength + offset), by omega, by omega, by omega⟩
  have same : ∀ memory : Memory UInt8, Ring.cell memory f.bufferLength f.readPosition index =
      Ring.cell memory f.bufferLength
        ((f.readPosition + f.dataLength + offset) % f.bufferLength) distance := by
    intro memory
    rw [Nat.add_assoc f.readPosition, ← cell_from_target]
    rcases reached.2 with equal | wrapped
    · rw [equal]
    · simp only [wrapped, Ring.cell, ← Nat.add_assoc, Nat.add_mod_right]
  calc (f.stage source offset).cell index
      = _ := same _
    _ = _ := Ring.cell_write_outside _ _ (Nat.mod_lt _ valid.positive) placed reached.1
    _ = f.cell index := (same _).symm

/-- Staging does not touch the readable bytes. -/
theorem contents_stage (valid : f.Valid) {source : List UInt8} {offset : Nat}
    (room : f.dataLength + offset + source.length ≤ f.bufferLength) :
    (f.stage source offset).contents = f.contents :=
  contents_congr rfl fun _ inside =>
    cell_stage_outside valid room (Nat.lt_of_lt_of_le inside valid.fits) (.inl (by omega))

/-- The buffer after `amount` more stored bytes count as readable. -/
def extend (f : FifoBuffer) (amount : Nat) : FifoBuffer :=
  { f with dataLength := f.dataLength + amount }

@[simp] theorem state_extend (amount : Nat) : (f.extend amount).state = f.state := rfl

@[simp] theorem bufferLength_extend (amount : Nat) :
    (f.extend amount).bufferLength = f.bufferLength := rfl

@[simp] theorem dataLength_extend (amount : Nat) :
    (f.extend amount).dataLength = f.dataLength + amount := rfl

@[simp] theorem cell_extend (amount : Nat) : (f.extend amount).cell = f.cell := rfl

theorem valid_extend (valid : f.Valid) {amount : Nat}
    (room : f.dataLength + amount ≤ f.bufferLength) : (f.extend amount).Valid :=
  ⟨valid.positive, valid.inside, room⟩

/-- Counting stored bytes as readable appends their cells to the contents. -/
theorem contents_extend (amount : Nat) :
    (f.extend amount).contents =
      f.contents ++ (List.range amount).map fun index => f.cell (f.dataLength + index) := by
  simp [contents, List.range_add, List.map_map, Function.comp_def]

theorem consumeWriteBuffer_eq (amount : Nat) :
    f.consumeWriteBuffer amount = f.extend amount ∨
      f.consumeWriteBuffer amount = (f.extend amount).postEvent .read := by
  simp only [consumeWriteBuffer]
  split
  · exact .inr rfl
  · exact .inl rfl

/-- A write into a buffer with room stores what fits behind the readable bytes. -/
theorem write_eq (isOpen : f.state ≠ .closed) (room : f.dataLength < f.bufferLength)
    (source : Memory UInt8) (bytes : Nat) :
    let stored := source.slice 0 (min bytes (f.bufferLength - f.dataLength))
    ∃ g, f.write source bytes = (.success, stored.length, g) ∧
      (g = (f.stage stored 0).extend stored.length ∨
        g = ((f.stage stored 0).extend stored.length).postEvent .read) := by
  have result := writeOffset_eq isOpen (show f.dataLength + 0 < f.bufferLength from room) source
    bytes
  simp only [Nat.sub_zero] at result
  simp only [write, result, Memory.length_slice]
  split
  · exact ⟨_, rfl, .inr rfl⟩
  · exact ⟨_, rfl, .inl rfl⟩

theorem write_full (isOpen : f.state ≠ .closed) (full : f.bufferLength ≤ f.dataLength)
    (source : Memory UInt8) (bytes : Nat) : f.write source bytes = (.block, 0, f) := by
  have result := writeOffset_full isOpen (show f.bufferLength ≤ f.dataLength + 0 from full) source
    bytes
  simp [write, result]

/-- The bytes written behind the readable ones become readable themselves. -/
theorem contents_stage_extend (valid : f.Valid) {source : List UInt8}
    (room : f.dataLength + source.length ≤ f.bufferLength) :
    ((f.stage source 0).extend source.length).contents = f.contents ++ source := by
  rw [contents_extend, contents_stage valid (by simpa using room)]
  congr 1
  apply List.ext_getElem
  · simp
  · intro index left right
    have staged := cell_stage_inside valid
      (show f.dataLength + 0 + source.length ≤ f.bufferLength from room) right
    simpa using staged

/-! ## Resizing and the write block -/

/-- Resizing to at least the readable length keeps exactly the readable bytes. -/
theorem setCapacity_eq (valid : f.Valid) {size : Nat} (positive : 0 < size)
    (holds : f.dataLength ≤ size) (fresh : Memory UInt8) :
    ∃ g, f.setCapacity size fresh = (true, g) ∧ g.Valid ∧ g.state = f.state ∧
      g.bufferLength = size ∧ g.dataLength = f.dataLength ∧ g.contents = f.contents ∧
      (size = f.bufferLength → g = f) := by
  have notSmaller : ¬ size < f.dataLength := Nat.not_lt.mpr holds
  by_cases same : size = f.bufferLength
  · exact ⟨f, by simp [setCapacity, same, valid.fits], valid, rfl, same.symm, rfl, rfl,
      fun _ => rfl⟩
  · simp only [setCapacity, notSmaller, if_false, ne_eq, same, not_false_eq_true, if_true]
    refine ⟨_, rfl, ⟨positive, positive, holds⟩, rfl, rfl, rfl, ?_, False.elim⟩
    apply List.ext_getElem
    · simp
    · intro index left right
      have inside : index < f.dataLength := by simpa using right
      have counted : index < size := Nat.lt_of_lt_of_le inside holds
      simp only [contents, List.getElem_map, List.getElem_range, cell]
      rw [Ring.cell, Nat.zero_add, Nat.mod_eq_of_lt counted,
        Memory.copy_inside _ _ (Nat.zero_le _) (by simpa using inside)]
      simp [Ring.read_eq_cells _ valid.inside valid.fits]

theorem setCapacity_small {size : Nat} (small : size < f.dataLength) (fresh : Memory UInt8) :
    f.setCapacity size fresh = (false, f) := by
  simp [setCapacity, small]

/-- The start of the ring moves to the front when nothing is readable. -/
def rewind (f : FifoBuffer) : FifoBuffer :=
  if f.dataLength = 0 then { f with readPosition := 0 } else f

theorem rewind_of_ne {g : FifoBuffer} (some : g.dataLength ≠ 0) : g.rewind = g := by
  simp [rewind, some]

@[simp] theorem state_rewind : f.rewind.state = f.state := by
  simp only [rewind]; split <;> rfl

@[simp] theorem bufferLength_rewind : f.rewind.bufferLength = f.bufferLength := by
  simp only [rewind]; split <;> rfl

@[simp] theorem dataLength_rewind : f.rewind.dataLength = f.dataLength := by
  simp only [rewind]; split <;> rfl

theorem valid_rewind (valid : f.Valid) : f.rewind.Valid := by
  simp only [rewind]
  split
  · exact ⟨valid.positive, valid.positive, valid.fits⟩
  · exact valid

theorem contents_rewind : f.rewind.contents = f.contents := by
  simp only [rewind]
  split
  · next empty => simp [contents, empty]
  · rfl

/-- Writing into the block from `getWriteBuffer` stages the bytes right behind
the readable ones. -/
theorem getWriteBuffer_fill (valid : f.Valid) (isOpen : f.state ≠ .closed) :
    ∃ position size, f.getWriteBuffer = (some (position, size), f.rewind) ∧
      size ≤ f.bufferLength - f.dataLength ∧
      (f.dataLength < f.bufferLength → 0 < size) ∧
      ∀ source : List UInt8, source.length ≤ size →
        f.rewind.fill position source = f.rewind.stage source 0 := by
  have inside := (valid_rewind valid).inside
  have fits := valid.fits
  have positive := valid.positive
  have start : f.dataLength = 0 → f.rewind.readPosition = 0 := fun empty => by
    simp [rewind, empty]
  simp only [bufferLength_rewind] at inside
  let position := (f.rewind.readPosition + f.dataLength) % f.bufferLength
  let size := if f.rewind.readPosition < position ∨ f.dataLength = 0 then
    f.bufferLength - position else f.rewind.readPosition - position
  have result : f.getWriteBuffer = (some (position, size), f.rewind) := by
    simp only [getWriteBuffer, isOpen, if_false]
    rw [show (if f.dataLength = 0 then { f with readPosition := 0 } else f) = f.rewind from rfl,
      dataLength_rewind, bufferLength_rewind]
  -- The write position is past the read position, or has wrapped around to before it.
  have target : position =
      if f.rewind.readPosition + f.dataLength < f.bufferLength then
        f.rewind.readPosition + f.dataLength
      else f.rewind.readPosition + f.dataLength - f.bufferLength := by
    rcases Nat.lt_or_ge f.dataLength f.bufferLength with partly | full
    · exact Ring.add_mod_of_le inside partly
    · have equal : f.dataLength = f.bufferLength := by omega
      simp only [position, equal, Nat.add_mod_right, Nat.mod_eq_of_lt inside]
      split <;> omega
  have sizeEq : size = if f.rewind.readPosition < position ∨ f.dataLength = 0 then
    f.bufferLength - position else f.rewind.readPosition - position := rfl
  have tail : size ≤ f.bufferLength - position := by
    rw [sizeEq]; split <;> omega
  refine ⟨position, size, result, ?_, ?_, ?_⟩
  · by_cases empty : f.dataLength = 0
    · omega
    · rw [sizeEq, target]; split <;> split <;> omega
  · intro room
    by_cases empty : f.dataLength = 0
    · have := start empty
      rw [sizeEq, target]; split <;> split <;> omega
    · rw [sizeEq, target]; split <;> split <;> omega
  · intro source bounded
    have whole : min source.length (f.bufferLength - position) = source.length := by omega
    simp only [fill, stage, Ring.write, bufferLength_rewind, dataLength_rewind, Nat.add_zero]
    rw [show (f.rewind.readPosition + f.dataLength) % f.bufferLength = position from rfl, whole]
    simp

end Libjingle.Base.FifoBuffer

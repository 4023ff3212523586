import Libjingle.Base.FifoCells

/-!
# A `FifoBuffer` inside a connection

The buffers of a connection stay open and their capacity is a `uint32`, which
may be zero. Under that invariant each call the connection makes has one
specification, in terms of `contents` and of the bytes `past` the readable ones.
-/

namespace Libjingle.Base.FifoBuffer

open Libjingle.Std

variable {f : FifoBuffer}

/-- What every call keeps true of an open buffer, also when a caller counts more
bytes than there is room for. -/
structure Shaped (f : FifoBuffer) : Prop where
  isOpen : f.state ≠ .closed
  word : f.bufferLength < 2 ^ 32
  inside : 0 < f.bufferLength → f.readPosition < f.bufferLength

/-- The readable bytes of an open buffer fit in it. -/
structure Sound (f : FifoBuffer) : Prop extends Shaped f where
  fits : f.dataLength ≤ f.bufferLength

/-- The byte `index` places past the readable ones. -/
def past (f : FifoBuffer) (index : Nat) : UInt8 :=
  f.cell (f.dataLength + index)

/-- The places past the readable bytes. -/
def free (f : FifoBuffer) : Nat :=
  f.bufferLength - f.dataLength

namespace Sound

theorem new {size : Nat} (word : size < 2 ^ 32) (memory : Memory UInt8) :
    (FifoBuffer.new size memory).Sound :=
  ⟨⟨by simp [FifoBuffer.new], word, id⟩, Nat.zero_le _⟩

theorem valid (sound : f.Sound) (positive : 0 < f.bufferLength) : f.Valid :=
  ⟨positive, sound.inside positive, sound.fits⟩

theorem getWriteRemaining (sound : f.Sound) : f.getWriteRemaining = f.free :=
  sizeSub_of_le sound.fits

theorem free_word (sound : f.Sound) : f.free < 2 ^ 32 :=
  Nat.lt_of_le_of_lt (Nat.sub_le _ _) sound.word

theorem postEvent (sound : f.Sound) (event : StreamEvent) : (f.postEvent event).Sound :=
  ⟨⟨sound.isOpen, sound.word, sound.inside⟩, sound.fits⟩

theorem advance (sound : f.Sound) (amount : Nat) : (f.advance amount).Sound where
  isOpen := sound.isOpen
  word := sound.word
  fits := Nat.le_trans (Nat.sub_le _ _) sound.fits
  inside positive := Nat.mod_lt _ positive

/-! ## Calls on the send buffer -/

/-- Data that is written joins the contents as far as it fits. -/
theorem write (sound : f.Sound) (source : Memory UInt8) (bytes : Nat) :
    ∃ result g, f.write source bytes = (result, min bytes f.free, g) ∧ g.Sound ∧
      g.bufferLength = f.bufferLength ∧ g.dataLength = f.dataLength + min bytes f.free ∧
      g.contents = f.contents ++ source.slice 0 (min bytes f.free) := by
  have fits := sound.fits
  by_cases room : f.dataLength < f.bufferLength
  · have valid := sound.valid (by omega)
    obtain ⟨g, result, shape⟩ := write_eq sound.isOpen room source bytes
    have fitsStored : f.dataLength + (source.slice 0 (min bytes f.free)).length ≤
        f.bufferLength := by
      simp only [Memory.length_slice, free]
      omega
    have grown : ((f.stage (source.slice 0 (min bytes f.free)) 0).extend
        (source.slice 0 (min bytes f.free)).length).Sound :=
      ⟨⟨sound.isOpen, sound.word, sound.inside⟩, fitsStored⟩
    have contents := contents_stage_extend valid fitsStored
    simp only [Memory.length_slice] at result shape grown contents
    refine ⟨_, g, result, ?_⟩
    rcases shape with rfl | rfl
    · exact ⟨grown, rfl, rfl, contents⟩
    · exact ⟨grown.postEvent _, rfl, rfl, contents⟩
  · have none : min bytes f.free = 0 := by simp only [free]; omega
    rw [none, write_full sound.isOpen (by omega)]
    exact ⟨_, f, rfl, sound, rfl, rfl, by simp⟩

/-- Acknowledged data leaves at the front. -/
theorem consumeReadData (sound : f.Sound) {size : Nat} (le : size ≤ f.dataLength) :
    (f.consumeReadData size).Sound ∧
      (f.consumeReadData size).bufferLength = f.bufferLength ∧
      (f.consumeReadData size).dataLength = f.dataLength - size ∧
      (f.consumeReadData size).contents = f.contents.drop size := by
  rcases consumeReadData_eq le with shape | shape <;> rw [shape]
  · exact ⟨sound.advance size, rfl, rfl, contents_advance size⟩
  · exact ⟨(sound.advance size).postEvent _, rfl, rfl, contents_advance size⟩

/-- A read inside the buffered data delivers all that is asked for. -/
theorem readOffset (sound : f.Sound) {bytes offset : Nat} (some : 0 < bytes)
    (inside : offset + bytes ≤ f.dataLength) :
    f.readOffset bytes offset = (.success, (f.contents.drop offset).take bytes) :=
  readOffset_eq (sound.valid (by have := sound.fits; omega)) bytes (by omega)

/-- A capacity that holds the readable bytes is taken, and they stay. -/
theorem setCapacity (sound : f.Sound) {size : Nat} (word : size < 2 ^ 32)
    (holds : f.dataLength ≤ size) (fresh : Memory UInt8) :
    (f.setCapacity size fresh).2.Sound ∧ (f.setCapacity size fresh).2.bufferLength = size ∧
      (f.setCapacity size fresh).2.dataLength = f.dataLength ∧
      (f.setCapacity size fresh).2.contents = f.contents := by
  have fits := sound.fits
  by_cases zero : f.bufferLength = 0 ∨ size = 0
  · have empty : f.dataLength = 0 := by omega
    simp only [FifoBuffer.setCapacity, Nat.not_lt.mpr holds, if_false]
    split
    · exact ⟨⟨⟨sound.isOpen, word, id⟩, holds⟩, rfl, rfl, by simp [contents, empty]⟩
    · next same => exact ⟨sound, (not_not.mp same).symm, rfl, rfl⟩
  · obtain ⟨g, result, valid, state, length, data, contents, _⟩ :=
      setCapacity_eq (sound.valid (by omega)) (by omega) holds fresh
    rw [result]
    exact ⟨⟨⟨state ▸ sound.isOpen, length ▸ word, fun _ => valid.inside⟩, valid.fits⟩, length, data,
      contents⟩

/-! ## Calls on the receive buffer -/

/-- A read takes bytes out at the front and leaves what is stored past the
readable ones where it is. -/
theorem read (sound : f.Sound) {bytes : Nat} {result : StreamResult} {data : List UInt8}
    {g : FifoBuffer} (reads : f.read bytes = (result, data, g)) :
    g.Sound ∧ g.bufferLength = f.bufferLength ∧ f.contents = data ++ g.contents ∧
      g.dataLength = f.dataLength - data.length ∧ g.past = f.past := by
  by_cases empty : f.dataLength = 0
  · rw [read_empty bytes empty] at reads
    cases reads
    exact ⟨sound, rfl, rfl, rfl, rfl⟩
  · have fits := sound.fits
    have valid := sound.valid (by omega)
    obtain ⟨h, shape, final⟩ := read_eq valid bytes (Nat.pos_of_ne_zero empty)
    rw [shape] at reads
    cases reads
    have length : (f.contents.take bytes).length = min bytes f.dataLength := by simp
    have past : (f.advance (min bytes f.dataLength)).past = f.past := by
      funext index
      simp only [FifoBuffer.past, dataLength_advance, cell_advance]
      congr 1
      omega
    have parts : f.contents =
        f.contents.take bytes ++ (f.advance (min bytes f.dataLength)).contents := by
      rw [contents_advance, ← length_contents, List.take_eq_take_min, List.take_append_drop]
    rw [length]
    rcases final with rfl | rfl
    · exact ⟨sound.advance _, rfl, parts, rfl, past⟩
    · exact ⟨(sound.advance _).postEvent _, rfl, parts, rfl, past⟩

/-- Bytes that fit in the free places are stored there, and nowhere else. -/
theorem writeOffset (sound : f.Sound) {bytes offset : Nat} (some : 0 < bytes)
    (room : offset + bytes ≤ f.free) (source : Memory UInt8) :
    ∃ g, f.writeOffset source bytes offset = (.success, bytes, g) ∧ g.Sound ∧
      g.bufferLength = f.bufferLength ∧ g.dataLength = f.dataLength ∧ g.contents = f.contents ∧
      ∀ index < f.free, g.past index =
        if offset ≤ index ∧ index < offset + bytes then source (index - offset)
        else f.past index := by
  simp only [free] at room
  have valid := sound.valid (by omega)
  have whole : min bytes (f.bufferLength - f.dataLength - offset) = bytes := by omega
  have result := writeOffset_eq sound.isOpen (show f.dataLength + offset < f.bufferLength by omega)
    source bytes
  rw [whole] at result
  have stored : f.dataLength + offset + (source.slice 0 bytes).length ≤ f.bufferLength := by
    simp only [Memory.length_slice]
    omega
  refine ⟨_, result, ⟨⟨sound.isOpen, sound.word, sound.inside⟩, sound.fits⟩, rfl, rfl,
    contents_stage valid stored, ?_⟩
  intro index inside
  simp only [free] at inside
  simp only [FifoBuffer.past, dataLength_stage]
  split
  · next target =>
    have place : f.dataLength + index = f.dataLength + offset + (index - offset) := by omega
    rw [place, cell_stage_inside valid stored (by simp only [Memory.length_slice]; omega)]
    simp
  · next other =>
    simp only [Memory.length_slice] at stored
    exact cell_stage_outside valid (by simpa using stored) (by omega)
      (by simp only [Memory.length_slice]; omega)

/-- Stored bytes that are counted join the contents. -/
theorem consumeWriteBuffer (sound : f.Sound) {size : Nat} (room : size ≤ f.free) :
    (f.consumeWriteBuffer size).Sound ∧
      (f.consumeWriteBuffer size).bufferLength = f.bufferLength ∧
      (f.consumeWriteBuffer size).dataLength = f.dataLength + size ∧
      (f.consumeWriteBuffer size).contents = f.contents ++ (List.range size).map f.past ∧
      ∀ index, (f.consumeWriteBuffer size).past index = f.past (size + index) := by
  have fits := sound.fits
  simp only [free] at room
  have grown : (f.extend size).Sound := by
    refine ⟨⟨sound.isOpen, sound.word, sound.inside⟩, ?_⟩
    simp only [dataLength_extend, bufferLength_extend]
    omega
  have past : ∀ index, (f.extend size).past index = f.past (size + index) := fun index => by
    simp only [FifoBuffer.past, dataLength_extend, cell_extend, Nat.add_assoc]
  rcases consumeWriteBuffer_eq (f := f) size with shape | shape <;> rw [shape]
  · exact ⟨grown, rfl, rfl, contents_extend size, past⟩
  · exact ⟨grown.postEvent _, rfl, rfl, (contents_postEvent _ _).trans (contents_extend size), past⟩

end Sound

end Libjingle.Base.FifoBuffer

import Libjingle.Std.Ring

/-!
# `FifoBuffer`

The ring buffer of `talk/base/stream.cc`. Readable data starts at
`readPosition`; bytes stored past it with `writeOffset` are not readable until
`consumeWriteBuffer` counts them. Sizes are `size_t` values and become `Nat`;
`sizeSub` keeps the wrap of the one subtraction that an unchecked caller can
drive below zero. Caller memory is a pointer and a byte count, as in the source.
-/

namespace Libjingle.Base

open Libjingle.Std

inductive StreamState where
  | closed
  | opening
  | «open»
  deriving DecidableEq, Repr

inductive StreamResult where
  | error
  | success
  | block
  | eos
  deriving DecidableEq, Repr

inductive StreamEvent where
  | «open»
  | read
  | write
  | close
  deriving DecidableEq, Repr

/-- Subtraction of `size_t` values. -/
def sizeSub (a b : Nat) : Nat :=
  if b ≤ a then a - b else 2 ^ 64 - (b - a)

theorem sizeSub_of_le {a b : Nat} (le : b ≤ a) : sizeSub a b = a - b := by
  simp [sizeSub, le]

/-- The fields of the class. `posted` lists the events posted to the owner
thread, newest first; the lock has no counterpart. -/
structure FifoBuffer where
  state : StreamState
  buffer : Memory UInt8
  bufferLength : Nat
  dataLength : Nat
  readPosition : Nat
  posted : List StreamEvent

namespace FifoBuffer

/-- A pointer to the caller's bytes. -/
def pointer (source : List UInt8) : Memory UInt8 :=
  Memory.ofList source fun _ => 0

theorem slice_pointer (source : List UInt8) {count : Nat} (fits : count ≤ source.length) :
    (pointer source).slice 0 count = source.take count := by
  have inside : 0 + count ≤ source.length := by simpa using fits
  simpa [pointer] using Memory.slice_ofList source (fun _ => 0) inside

/-- A fresh buffer over the memory that `new char[size]` returned. -/
def new (size : Nat) (memory : Memory UInt8) : FifoBuffer where
  state := .open
  buffer := memory
  bufferLength := size
  dataLength := 0
  readPosition := 0
  posted := []

/-- `PostEvent` to the owner thread. -/
def postEvent (f : FifoBuffer) (event : StreamEvent) : FifoBuffer :=
  { f with posted := event :: f.posted }

def getBuffered (f : FifoBuffer) : Nat :=
  f.dataLength

def getWriteRemaining (f : FifoBuffer) : Nat :=
  sizeSub f.bufferLength f.dataLength

def close (f : FifoBuffer) : FifoBuffer :=
  { f with state := .closed }

/-- Resizing copies the readable bytes to the front of `fresh`, the memory of
the new allocation. -/
def setCapacity (f : FifoBuffer) (size : Nat) (fresh : Memory UInt8) : Bool × FifoBuffer :=
  if size < f.dataLength then
    (false, f)
  else if size ≠ f.bufferLength then
    (true, { f with
      buffer := fresh.copy 0 (Ring.read f.buffer f.bufferLength f.readPosition f.dataLength)
      readPosition := 0
      bufferLength := size })
  else
    (true, f)

/-- `ReadOffsetLocked`, reached from outside as `ReadOffset`. -/
def readOffset (f : FifoBuffer) (bytes offset : Nat) : StreamResult × List UInt8 :=
  if f.dataLength ≤ offset then
    (if f.state ≠ .closed then .block else .eos, [])
  else
    let available := f.dataLength - offset
    let readPosition := (f.readPosition + offset) % f.bufferLength
    (.success, Ring.read f.buffer f.bufferLength readPosition (min bytes available))

/-- `WriteOffsetLocked`, reached from outside as `WriteOffset`. The number is
the count of bytes written. -/
def writeOffset (f : FifoBuffer) (source : Memory UInt8) (bytes offset : Nat) :
    StreamResult × Nat × FifoBuffer :=
  if f.state = .closed then
    (.eos, 0, f)
  else if f.bufferLength ≤ f.dataLength + offset then
    (.block, 0, f)
  else
    let available := f.bufferLength - f.dataLength - offset
    let writePosition := (f.readPosition + f.dataLength + offset) % f.bufferLength
    let copy := min bytes available
    (.success, copy,
      { f with buffer := Ring.write f.buffer f.bufferLength writePosition (source.slice 0 copy) })

def read (f : FifoBuffer) (bytes : Nat) : StreamResult × List UInt8 × FifoBuffer :=
  let wasWritable := f.dataLength < f.bufferLength
  match f.readOffset bytes 0 with
  | (.success, data) =>
      let f := { f with
        readPosition := (f.readPosition + data.length) % f.bufferLength
        dataLength := f.dataLength - data.length }
      (.success, data, if ¬ wasWritable ∧ 0 < data.length then f.postEvent .write else f)
  | (result, data) => (result, data, f)

def write (f : FifoBuffer) (source : Memory UInt8) (bytes : Nat) :
    StreamResult × Nat × FifoBuffer :=
  let wasReadable := 0 < f.dataLength
  match f.writeOffset source bytes 0 with
  | (.success, copy, f) =>
      let f := { f with dataLength := f.dataLength + copy }
      (.success, copy, if ¬ wasReadable ∧ 0 < copy then f.postEvent .read else f)
  | (result, copy, f) => (result, copy, f)

/-- The contiguous block of readable bytes at the read position. -/
def getReadData (f : FifoBuffer) : List UInt8 :=
  f.buffer.slice f.readPosition
    (if f.readPosition + f.dataLength ≤ f.bufferLength then f.dataLength
      else f.bufferLength - f.readPosition)

def consumeReadData (f : FifoBuffer) (size : Nat) : FifoBuffer :=
  let wasWritable := f.dataLength < f.bufferLength
  let f := { f with
    readPosition := (f.readPosition + size) % f.bufferLength
    dataLength := sizeSub f.dataLength size }
  if ¬ wasWritable ∧ 0 < size then f.postEvent .write else f

/-- The address and the size of the block to write into. -/
def getWriteBuffer (f : FifoBuffer) : Option (Nat × Nat) × FifoBuffer :=
  if f.state = .closed then
    (none, f)
  else
    -- If empty, reset the write position to get the biggest possible block.
    let f := if f.dataLength = 0 then { f with readPosition := 0 } else f
    let writePosition := (f.readPosition + f.dataLength) % f.bufferLength
    let size :=
      if f.readPosition < writePosition ∨ f.dataLength = 0 then f.bufferLength - writePosition
      else f.readPosition - writePosition
    (some (writePosition, size), f)

/-- What a caller does with the block from `getWriteBuffer`. -/
def fill (f : FifoBuffer) (position : Nat) (source : List UInt8) : FifoBuffer :=
  { f with buffer := f.buffer.copy position source }

def consumeWriteBuffer (f : FifoBuffer) (size : Nat) : FifoBuffer :=
  let wasReadable := 0 < f.dataLength
  let f := { f with dataLength := f.dataLength + size }
  if ¬ wasReadable ∧ 0 < size then f.postEvent .read else f

/-! ## The bytes of a buffer -/

/-- The byte `index` places after the read position. -/
def cell (f : FifoBuffer) (index : Nat) : UInt8 :=
  Ring.cell f.buffer f.bufferLength f.readPosition index

/-- The readable bytes, oldest first. -/
def contents (f : FifoBuffer) : List UInt8 :=
  (List.range f.dataLength).map f.cell

/-- The relation between the fields that every call with its asserted
precondition keeps. -/
structure Valid (f : FifoBuffer) : Prop where
  positive : 0 < f.bufferLength
  inside : f.readPosition < f.bufferLength
  fits : f.dataLength ≤ f.bufferLength

@[simp] theorem length_contents (f : FifoBuffer) : f.contents.length = f.dataLength := by
  simp [contents]

@[simp] theorem contents_postEvent (f : FifoBuffer) (event : StreamEvent) :
    (f.postEvent event).contents = f.contents := rfl

@[simp] theorem cell_postEvent (f : FifoBuffer) (event : StreamEvent) :
    (f.postEvent event).cell = f.cell := rfl

@[simp] theorem valid_postEvent (f : FifoBuffer) (event : StreamEvent) :
    (f.postEvent event).Valid ↔ f.Valid :=
  ⟨fun valid => ⟨valid.positive, valid.inside, valid.fits⟩,
    fun valid => ⟨valid.positive, valid.inside, valid.fits⟩⟩

theorem valid_new {size : Nat} (positive : 0 < size) (memory : Memory UInt8) :
    (new size memory).Valid :=
  ⟨positive, positive, Nat.zero_le _⟩

/-- Free space is what the readable bytes leave of the capacity. -/
theorem Valid.getWriteRemaining {f : FifoBuffer} (valid : f.Valid) :
    f.getWriteRemaining = f.bufferLength - f.dataLength :=
  sizeSub_of_le valid.fits

/-- Equal cells over the readable range make equal contents. -/
theorem contents_congr {f g : FifoBuffer} (length : g.dataLength = f.dataLength)
    (cells : ∀ index < f.dataLength, g.cell index = f.cell index) : g.contents = f.contents := by
  simp only [contents, length]
  apply List.map_congr_left
  intro index inside
  exact cells index (by simpa using inside)

end FifoBuffer

end Libjingle.Base

import Libjingle.Std.StagedQueue
import Libjingle.Base.FifoCells

/-!
# `FifoBuffer` refines a queue with a staging area

`FifoCall` names the calls of an open buffer and `FifoBuffer.call` runs one.
`FifoQueue.Accepts` says which replies the abstract queue allows and
`FifoQueue.next` how a call changes it, up to what a change of the capacity does
to the staging area. `Agrees` is the simulation relation; each kind of change
keeps it, hence so does each call, hence every run of calls answers as the queue
does.
-/

namespace Libjingle.Base

open Libjingle.Std

/-- The calls on an open buffer, with the caller's bytes as lists. -/
inductive FifoCall where
  | write (source : List UInt8)
  | read (bytes : Nat)
  | readOffset (bytes offset : Nat)
  | writeOffset (source : List UInt8) (offset : Nat)
  | getReadData
  | consumeReadData (size : Nat)
  /-- `GetWriteBuffer` followed by writing `source` into the returned block. -/
  | fillWriteBuffer (source : List UInt8)
  | consumeWriteBuffer (size : Nat)
  /-- `SetCapacity`; `fresh` is what the new allocation happens to contain. -/
  | setCapacity (size : Nat) (fresh : Memory UInt8)
  | getBuffered
  | getWriteRemaining

/-- What a call reports to its caller. -/
inductive FifoReply where
  | data (result : StreamResult) (bytes : List UInt8)
  | count (result : StreamResult) (bytes : Nat)
  | block (bytes : List UInt8)
  | size (size : Nat)
  | resized (accepted : Bool)
  | done

namespace FifoBuffer

/-- The asserted preconditions, and that a caller stays inside the write block. -/
def Allowed (f : FifoBuffer) : FifoCall → Prop
  | .consumeReadData size => size ≤ f.dataLength
  | .consumeWriteBuffer size => size ≤ f.bufferLength - f.dataLength
  | .setCapacity size _ => 1 ≤ size
  | .fillWriteBuffer source => ∀ position size,
      f.getWriteBuffer.1 = some (position, size) → source.length ≤ size
  | _ => True

/-- Run one call. -/
def call (f : FifoBuffer) : FifoCall → FifoReply × FifoBuffer
  | .write source =>
      let (result, count, f) := f.write (pointer source) source.length
      (.count result count, f)
  | .read bytes =>
      let (result, data, f) := f.read bytes
      (.data result data, f)
  | .readOffset bytes offset =>
      let (result, data) := f.readOffset bytes offset
      (.data result data, f)
  | .writeOffset source offset =>
      let (result, count, f) := f.writeOffset (pointer source) source.length offset
      (.count result count, f)
  | .getReadData => (.block f.getReadData, f)
  | .consumeReadData size => (.done, f.consumeReadData size)
  | .fillWriteBuffer source =>
      match f.getWriteBuffer with
      | (some (position, size), f) => (.size size, f.fill position source)
      | (none, f) => (.size 0, f)
  | .consumeWriteBuffer size => (.done, f.consumeWriteBuffer size)
  | .setCapacity size fresh =>
      let (accepted, f) := f.setCapacity size fresh
      (.resized accepted, f)
  | .getBuffered => (.size f.getBuffered, f)
  | .getWriteRemaining => (.size f.getWriteRemaining, f)

/-- The buffer after a list of calls. -/
def after (f : FifoBuffer) (calls : List FifoCall) : FifoBuffer :=
  calls.foldl (fun f call => (f.call call).2) f

/-- The replies to a list of calls. -/
def replies (f : FifoBuffer) : List FifoCall → List FifoReply
  | [] => []
  | first :: rest => (f.call first).1 :: replies (f.call first).2 rest

/-- Every call of a list meets its precondition when it is made. -/
def AllAllowed (f : FifoBuffer) : List FifoCall → Prop
  | [] => True
  | first :: rest => f.Allowed first ∧ AllAllowed (f.call first).2 rest

end FifoBuffer

namespace FifoQueue

/-- The replies the queue allows to a call. -/
def Accepts (q : StagedQueue UInt8) : FifoCall → FifoReply → Prop
  | .write source, reply =>
      if q.free = 0 then reply = .count .block 0
      else reply = .count .success (min source.length q.free)
  | .read bytes, reply =>
      if q.queue = [] then reply = .data .block []
      else ∃ data, reply = .data .success data ∧ StagedQueue.Known (q.queue.take bytes) data
  | .readOffset bytes offset, reply =>
      if q.queue.length ≤ offset then reply = .data .block []
      else ∃ data, reply = .data .success data ∧
        StagedQueue.Known ((q.queue.drop offset).take bytes) data
  | .writeOffset source offset, reply =>
      if q.free ≤ offset then reply = .count .block 0
      else reply = .count .success (min source.length (q.free - offset))
  | .getReadData, reply => ∃ data count, reply = .block data ∧
      StagedQueue.Known (q.queue.take count) data ∧ (q.queue ≠ [] → 0 < count)
  | .fillWriteBuffer _, reply => ∃ size, reply = .size size ∧ size ≤ q.free ∧
      (0 < q.free → 0 < size)
  | .setCapacity size _, reply => reply = .resized (decide (q.queue.length ≤ size))
  | .getBuffered, reply => reply = .size q.queue.length
  | .getWriteRemaining, reply => reply = .size (q.capacity - q.queue.length)
  | .consumeReadData _, reply => reply = .done
  | .consumeWriteBuffer _, reply => reply = .done

/-- How a call changes the queue. `resize` is what an accepted change of the
capacity does to it. -/
def next (resize : StagedQueue UInt8 → Nat → StagedQueue UInt8) (q : StagedQueue UInt8) :
    FifoCall → StagedQueue UInt8
  | .write source =>
      let stored := source.take q.free
      (q.stage stored 0).publish stored.length
  | .read bytes => q.pop (min bytes q.queue.length)
  | .writeOffset source offset => q.stage (source.take (q.free - offset)) offset
  | .consumeReadData size => q.pop size
  | .fillWriteBuffer source => (if q.queue = [] then q.forget else q).stage source 0
  | .consumeWriteBuffer size => q.publish size
  | .setCapacity size _ =>
      if size < q.queue.length ∨ size = q.capacity then q else resize q size
  | .readOffset _ _ | .getReadData | .getBuffered | .getWriteRemaining => q

/-- The queue allows a list of replies to a list of calls. -/
def AcceptsAll (resize : StagedQueue UInt8 → Nat → StagedQueue UInt8) (q : StagedQueue UInt8) :
    List FifoCall → List FifoReply → Prop
  | [], [] => True
  | first :: rest, reply :: replies =>
      Accepts q first reply ∧ AcceptsAll resize (next resize q first) rest replies
  | _, _ => False

/-- Every run of allowed calls on a fresh buffer answers as the queue does, and
free space and readable length always add up to the capacity. -/
def Refined (resize : StagedQueue UInt8 → Nat → StagedQueue UInt8) (capacity : Nat)
    (memory : Memory UInt8) (calls : List FifoCall) : Prop :=
  let f := FifoBuffer.new capacity memory
  AcceptsAll resize (StagedQueue.new capacity) calls (f.replies calls) ∧
    (f.after calls).getWriteRemaining + (f.after calls).getBuffered =
      (f.after calls).bufferLength

end FifoQueue

/-! ## The simulation relation -/

/-- The buffer holds what the queue says, in the readable part and staged. -/
structure Agrees (f : FifoBuffer) (q : StagedQueue UInt8) : Prop where
  valid : f.Valid
  isOpen : f.state ≠ .closed
  capacity : q.capacity = f.bufferLength
  known : StagedQueue.Known q.queue f.contents
  staged : ∀ place stored, q.staged place = some stored →
    f.dataLength + place < f.bufferLength ∧ f.cell (f.dataLength + place) = stored

namespace Agrees

variable {f : FifoBuffer} {q : StagedQueue UInt8}

theorem length_queue (agrees : Agrees f q) : q.queue.length = f.dataLength := by
  simpa using agrees.known.length_eq

theorem free_eq (agrees : Agrees f q) : q.free = f.bufferLength - f.dataLength := by
  simp [StagedQueue.free, agrees.capacity, agrees.length_queue]

theorem queue_eq_nil_iff (agrees : Agrees f q) : q.queue = [] ↔ f.dataLength = 0 := by
  rw [← List.length_eq_zero_iff, agrees.length_queue]

theorem new {capacity : Nat} (positive : 0 < capacity) (memory : Memory UInt8) :
    Agrees (FifoBuffer.new capacity memory) (StagedQueue.new capacity) where
  valid := FifoBuffer.valid_new positive memory
  isOpen := by simp [FifoBuffer.new]
  capacity := rfl
  known := List.Forall₂.nil
  staged := by simp [StagedQueue.new]

/-- Posting an event changes none of the bytes. -/
theorem posted {g : FifoBuffer} {event : StreamEvent} (agrees : Agrees f q)
    (shape : g = f ∨ g = f.postEvent event) : Agrees g q := by
  rcases shape with rfl | rfl
  · exact agrees
  · exact {
      valid := (FifoBuffer.valid_postEvent f event).mpr agrees.valid
      isOpen := agrees.isOpen
      capacity := agrees.capacity
      known := agrees.known
      staged := agrees.staged }

/-- Readable bytes leave on both sides. -/
theorem pop (agrees : Agrees f q) {amount : Nat} (le : amount ≤ f.dataLength) :
    Agrees (f.advance amount) (q.pop amount) where
  valid := FifoBuffer.valid_advance agrees.valid amount
  isOpen := agrees.isOpen
  capacity := agrees.capacity
  known := by simpa [StagedQueue.pop] using agrees.known.drop amount
  staged := by
    intro place stored known
    obtain ⟨inside, holds⟩ := agrees.staged place stored known
    have placeEq : amount + (f.dataLength - amount + place) = f.dataLength + place := by omega
    simp only [FifoBuffer.dataLength_advance, FifoBuffer.bufferLength_advance,
      FifoBuffer.cell_advance, placeEq]
    exact ⟨by omega, holds⟩

/-- Bytes are staged on both sides. -/
theorem stage (agrees : Agrees f q) {source : List UInt8} {offset : Nat}
    (room : f.dataLength + offset + source.length ≤ f.bufferLength) :
    Agrees (f.stage source offset) (q.stage source offset) where
  valid := FifoBuffer.valid_stage agrees.valid source offset
  isOpen := agrees.isOpen
  capacity := agrees.capacity
  known := by
    simpa [StagedQueue.stage, FifoBuffer.contents_stage agrees.valid room] using agrees.known
  staged := by
    intro place stored known
    simp only [StagedQueue.stage] at known
    by_cases inside : offset ≤ place ∧ place - offset < source.length
    · -- A place that has just been staged.
      rw [if_pos inside.1, List.getElem?_eq_getElem inside.2] at known
      have cell := FifoBuffer.cell_stage_inside agrees.valid room inside.2
      have placeEq : f.dataLength + offset + (place - offset) = f.dataLength + place := by omega
      rw [placeEq] at cell
      refine ⟨by simp; omega, ?_⟩
      simpa [cell] using known
    · -- A place staged before, or never.
      have earlier : q.staged place = some stored := by
        by_cases before : offset ≤ place
        · rw [if_pos before, List.getElem?_eq_none (by omega)] at known
          simpa using known
        · rwa [if_neg before] at known
      obtain ⟨bound, holds⟩ := agrees.staged place stored earlier
      refine ⟨bound, ?_⟩
      rw [FifoBuffer.dataLength_stage, FifoBuffer.cell_stage_outside agrees.valid room bound
        (by omega)]
      exact holds

/-- Staged bytes become readable on both sides. -/
theorem publish (agrees : Agrees f q) {amount : Nat}
    (room : f.dataLength + amount ≤ f.bufferLength) :
    Agrees (f.extend amount) (q.publish amount) where
  valid := FifoBuffer.valid_extend agrees.valid room
  isOpen := agrees.isOpen
  capacity := agrees.capacity
  known := by
    rw [FifoBuffer.contents_extend]
    refine agrees.known.append (StagedQueue.known_map _ _ _ ?_)
    intro index _ stored known
    exact (agrees.staged index stored known).2
  staged := by
    intro place stored known
    have holds := agrees.staged (amount + place) stored known
    rw [← Nat.add_assoc] at holds
    exact holds

theorem forget (agrees : Agrees f q) : Agrees f q.forget :=
  { agrees with staged := by simp [StagedQueue.forget] }

/-- `GetWriteBuffer` on an empty buffer moves the ring, so staged bytes are lost. -/
theorem rewind (agrees : Agrees f q) :
    Agrees f.rewind (if q.queue = [] then q.forget else q) := by
  by_cases empty : f.dataLength = 0
  · rw [if_pos (agrees.queue_eq_nil_iff.mpr empty)]
    exact {
      valid := FifoBuffer.valid_rewind agrees.valid
      isOpen := by simpa using agrees.isOpen
      capacity := by simpa [StagedQueue.forget] using agrees.capacity
      known := by simpa [FifoBuffer.contents_rewind, StagedQueue.forget] using agrees.known
      staged := by simp [StagedQueue.forget] }
  · rw [if_neg fun nil => empty (agrees.queue_eq_nil_iff.mp nil), FifoBuffer.rewind_of_ne empty]
    exact agrees

/-! ## One call, and a run of calls -/

attribute [local simp] FifoQueue.Accepts FifoQueue.next FifoBuffer.call

/-- What a write stores: the initial part that fits. -/
private theorem slice_stored (source : List UInt8) (free : Nat) :
    (FifoBuffer.pointer source).slice 0 (min source.length free) = source.take free := by
  rw [FifoBuffer.slice_pointer source (Nat.min_le_left _ _), Nat.min_comm,
    ← List.take_eq_take_min]

theorem call_write (agrees : Agrees f q) (source : List UInt8) :
    FifoQueue.Accepts q (.write source) (f.call (.write source)).1 ∧
      Agrees (f.call (.write source)).2
        (FifoQueue.next StagedQueue.resizeForgetting q (.write source)) := by
  have fits := agrees.valid.fits
  simp only [FifoQueue.Accepts, FifoQueue.next, FifoBuffer.call, agrees.free_eq]
  by_cases room : f.dataLength < f.bufferLength
  · obtain ⟨g, result, shape⟩ := FifoBuffer.write_eq agrees.isOpen room
      (FifoBuffer.pointer source) source.length
    rw [slice_stored] at result shape
    have stored : f.dataLength + 0 + (source.take (f.bufferLength - f.dataLength)).length ≤
        f.bufferLength := by simp; omega
    have inside : (f.stage (source.take (f.bufferLength - f.dataLength)) 0).dataLength +
        (source.take (f.bufferLength - f.dataLength)).length ≤ f.bufferLength := stored
    have published := (agrees.stage stored).publish inside
    rw [result, if_neg (by omega)]
    exact ⟨by simp [Nat.min_comm], published.posted shape⟩
  · have none : f.bufferLength - f.dataLength = 0 := by omega
    simp only [none, if_true, List.take_zero, List.length_nil,
      FifoBuffer.write_full agrees.isOpen (Nat.not_lt.mp room)]
    have nothing : f.dataLength + 0 + ([] : List UInt8).length ≤ f.bufferLength := fits
    have inside : (f.stage [] 0).dataLength + 0 ≤ f.bufferLength := fits
    refine ⟨trivial, ?_⟩
    simpa [FifoBuffer.stage, FifoBuffer.extend, Ring.write] using
      (agrees.stage nothing).publish inside

theorem call_read (agrees : Agrees f q) (bytes : Nat) :
    FifoQueue.Accepts q (.read bytes) (f.call (.read bytes)).1 ∧
      Agrees (f.call (.read bytes)).2
        (FifoQueue.next StagedQueue.resizeForgetting q (.read bytes)) := by
  simp only [FifoQueue.Accepts, FifoQueue.next, FifoBuffer.call, agrees.queue_eq_nil_iff]
  by_cases empty : f.dataLength = 0
  · have isOpen := agrees.isOpen
    simp only [FifoBuffer.read_empty bytes empty, empty, agrees.length_queue, Nat.min_zero]
    exact ⟨by simp [isOpen], by simpa [StagedQueue.pop] using agrees⟩
  · obtain ⟨g, result, shape⟩ := FifoBuffer.read_eq agrees.valid bytes (by omega)
    have popped := agrees.pop (Nat.min_le_right bytes f.dataLength)
    rw [result, if_neg empty, agrees.length_queue]
    exact ⟨⟨_, rfl, agrees.known.take bytes⟩, popped.posted shape⟩

theorem call_writeOffset (agrees : Agrees f q) (source : List UInt8) (offset : Nat) :
    FifoQueue.Accepts q (.writeOffset source offset) (f.call (.writeOffset source offset)).1 ∧
      Agrees (f.call (.writeOffset source offset)).2
        (FifoQueue.next StagedQueue.resizeForgetting q (.writeOffset source offset)) := by
  have fits := agrees.valid.fits
  simp only [FifoQueue.Accepts, FifoQueue.next, FifoBuffer.call, agrees.free_eq]
  by_cases room : f.dataLength + offset < f.bufferLength
  · rw [if_neg (by omega), FifoBuffer.writeOffset_eq agrees.isOpen room, slice_stored]
    exact ⟨rfl, agrees.stage (by simp; omega)⟩
  · have none : f.bufferLength - f.dataLength - offset = 0 := by omega
    rw [if_pos (by omega), FifoBuffer.writeOffset_full agrees.isOpen (by omega), none]
    exact ⟨rfl, by simpa [StagedQueue.stage] using agrees⟩

theorem call_fillWriteBuffer (agrees : Agrees f q) (source : List UInt8)
    (allowed : f.Allowed (.fillWriteBuffer source)) :
    FifoQueue.Accepts q (.fillWriteBuffer source) (f.call (.fillWriteBuffer source)).1 ∧
      Agrees (f.call (.fillWriteBuffer source)).2
        (FifoQueue.next StagedQueue.resizeForgetting q (.fillWriteBuffer source)) := by
  have fits := agrees.valid.fits
  obtain ⟨position, size, result, bounded, nonempty, filled⟩ :=
    FifoBuffer.getWriteBuffer_fill agrees.valid agrees.isOpen
  have inside : source.length ≤ size := allowed position size (by rw [result])
  simp only [FifoQueue.Accepts, FifoQueue.next, FifoBuffer.call, result, agrees.free_eq]
  refine ⟨⟨size, rfl, bounded, fun room => nonempty (by omega)⟩, ?_⟩
  rw [filled source inside]
  exact agrees.rewind.stage (by simp; omega)

theorem call_setCapacity (agrees : Agrees f q) (size : Nat) (fresh : Memory UInt8)
    (positive : 1 ≤ size) :
    FifoQueue.Accepts q (.setCapacity size fresh) (f.call (.setCapacity size fresh)).1 ∧
      Agrees (f.call (.setCapacity size fresh)).2
        (FifoQueue.next StagedQueue.resizeForgetting q (.setCapacity size fresh)) := by
  simp only [FifoQueue.Accepts, FifoQueue.next, FifoBuffer.call, agrees.length_queue,
    agrees.capacity]
  by_cases small : size < f.dataLength
  · rw [FifoBuffer.setCapacity_small small, if_pos (.inl small)]
    exact ⟨by simp [Nat.not_le.mpr small], agrees⟩
  · obtain ⟨g, result, valid, state, length, data, contents, same⟩ :=
      FifoBuffer.setCapacity_eq agrees.valid positive (Nat.le_of_not_lt small) fresh
    rw [result]
    refine ⟨by simp [Nat.le_of_not_lt small], ?_⟩
    by_cases equal : size = f.bufferLength
    · rw [if_pos (.inr equal), same equal]
      exact agrees
    · rw [if_neg (by omega)]
      exact {
        valid := valid
        isOpen := state ▸ agrees.isOpen
        capacity := length.symm
        known := contents ▸ agrees.known
        staged := by simp [StagedQueue.resizeForgetting, StagedQueue.forget] }

/-- Every allowed call gets a reply the queue accepts and keeps the agreement. -/
theorem call (agrees : Agrees f q) (call : FifoCall) (allowed : f.Allowed call) :
    FifoQueue.Accepts q call (f.call call).1 ∧
      Agrees (f.call call).2 (FifoQueue.next StagedQueue.resizeForgetting q call) := by
  cases call with
  | write source => exact agrees.call_write source
  | read bytes => exact agrees.call_read bytes
  | readOffset bytes offset =>
    refine ⟨?_, agrees⟩
    simp only [FifoQueue.Accepts, FifoBuffer.call, agrees.length_queue]
    by_cases outside : f.dataLength ≤ offset
    · have isOpen := agrees.isOpen
      simp [FifoBuffer.readOffset_empty bytes outside, outside, isOpen]
    · rw [if_neg outside, FifoBuffer.readOffset_eq agrees.valid bytes (by omega)]
      exact ⟨_, rfl, (agrees.known.drop offset).take bytes⟩
  | writeOffset source offset => exact agrees.call_writeOffset source offset
  | getReadData =>
    obtain ⟨count, block, nonempty⟩ := FifoBuffer.getReadData_eq agrees.valid
    refine ⟨⟨_, count, rfl, ?_, fun some => nonempty ?_⟩, agrees⟩
    · rw [block]
      exact agrees.known.take count
    · exact Nat.pos_of_ne_zero fun empty => some (agrees.queue_eq_nil_iff.mpr empty)
  | consumeReadData size =>
    exact ⟨rfl, (agrees.pop allowed).posted (FifoBuffer.consumeReadData_eq allowed)⟩
  | fillWriteBuffer source => exact agrees.call_fillWriteBuffer source allowed
  | consumeWriteBuffer size =>
    have room : f.dataLength + size ≤ f.bufferLength := by
      have fits := agrees.valid.fits
      simp only [FifoBuffer.Allowed] at allowed
      omega
    exact ⟨rfl, (agrees.publish room).posted (FifoBuffer.consumeWriteBuffer_eq size)⟩
  | setCapacity size fresh => exact agrees.call_setCapacity size fresh allowed
  | getBuffered =>
    exact ⟨by simp [FifoQueue.Accepts, FifoBuffer.call, FifoBuffer.getBuffered,
      agrees.length_queue], agrees⟩
  | getWriteRemaining =>
    exact ⟨by simp [FifoQueue.Accepts, FifoBuffer.call, agrees.valid.getWriteRemaining,
      agrees.length_queue, agrees.capacity], agrees⟩

/-- A run of allowed calls answers as the queue does and keeps the buffer valid. -/
theorem run (agrees : Agrees f q) (calls : List FifoCall) (allowed : f.AllAllowed calls) :
    FifoQueue.AcceptsAll StagedQueue.resizeForgetting q calls (f.replies calls) ∧
      (f.after calls).Valid := by
  induction calls generalizing f q with
  | nil => exact ⟨trivial, agrees.valid⟩
  | cons first rest ih =>
    obtain ⟨accepted, kept⟩ := agrees.call first allowed.1
    obtain ⟨acceptedRest, valid⟩ := ih kept allowed.2
    exact ⟨⟨accepted, acceptedRest⟩, valid⟩

end Agrees

namespace FifoQueue

end FifoQueue

end Libjingle.Base

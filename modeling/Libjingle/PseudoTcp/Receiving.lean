import Libjingle.PseudoTcp.State

/-!
# Receiving

The part of `PseudoTcp::process` that takes the bytes of a segment in: trimming
to the receive buffer, storing, delivering in order and keeping the list of
out-of-order segments. It works on the incoming half of the state alone.
-/

namespace Libjingle

open Libjingle.Std
open Libjingle.Base

namespace PseudoTcp

/-- Free space of the receive buffer, as the `uint32` the code compares with. -/
def Incoming.availableSpace (i : Incoming) : Nat :=
  toWord i.rbuf.getWriteRemaining

/-- Drop the part of a segment that lies before `rcvNxt`. -/
def Incoming.trimLeft (i : Incoming) (seg : Segment) : Segment :=
  if seg.seq < i.rcvNxt then
    let nAdjust := i.rcvNxt - seg.seq
    if nAdjust < seg.len then
      { seg with
        seq := add32 seg.seq nAdjust
        data := fun index => seg.data (nAdjust + index)
        len := seg.len - nAdjust }
    else { seg with len := 0 }
  else seg

/-- Drop the part of a segment that lies past the free space. -/
def Incoming.trimRight (i : Incoming) (seg : Segment) : Segment :=
  let past := sub32 (add32 seg.seq seg.len) i.rcvNxt
  if i.availableSpace < past then
    let nAdjust := past - i.availableSpace
    if nAdjust < seg.len then { seg with len := seg.len - nAdjust } else { seg with len := 0 }
  else seg

/-- Adjust the incoming segment to fit our receive buffer. -/
def Incoming.adjust (i : Incoming) (seg : Segment) : Segment :=
  i.trimRight (i.trimLeft seg)

/-- Keep the out-of-order list sorted by sequence number. -/
def insertRSegment (rseg : RSegment) : List RSegment → List RSegment
  | [] => [rseg]
  | head :: tail =>
      if head.seq < rseg.seq then head :: insertRSegment rseg tail else rseg :: head :: tail

/-- The in-order delivery of `len` stored bytes. -/
def Incoming.deliver (i : Incoming) (len : Nat) : Incoming :=
  { i with
    rbuf := i.rbuf.consumeWriteBuffer len
    rcvNxt := add32 i.rcvNxt len
    rcvWnd := sub32 i.rcvWnd len }

/-- Go through the front of the out-of-order list: deliver what now follows in
order and erase the entries. The flag tells whether anything was recovered. -/
def Incoming.recoverList (i : Incoming) : List RSegment → Bool × Incoming
  | [] => (false, { i with rlist := [] })
  | rseg :: rest =>
      if rseg.seq ≤ i.rcvNxt then
        if i.rcvNxt < add32 rseg.seq rseg.len then
          (true, ((i.deliver (sub32 (add32 rseg.seq rseg.len) i.rcvNxt)).recoverList rest).2)
        else i.recoverList rest
      else (false, { i with rlist := rseg :: rest })

/-- What taking a segment in leaves behind. -/
structure Received where
  incoming : Incoming
  newData : Bool
  recovered : Bool

/-- The distance of a segment from the next expected byte. -/
def Incoming.offsetOf (i : Incoming) (seg : Segment) : Nat :=
  sub32 seg.seq i.rcvNxt

/-- Take an adjusted segment in. Control segments, and everything after a close,
only advance `rcvNxt`. -/
def Incoming.receive (i : Incoming) (seg : Segment) (bIgnoreData : Bool) : Received :=
  if seg.len = 0 then
    ⟨i, false, false⟩
  else if bIgnoreData then
    if seg.seq = i.rcvNxt then
      ⟨{ i with rcvNxt := add32 i.rcvNxt seg.len }, false, false⟩
    else ⟨i, false, false⟩
  else
    let (_, _, rbuf) := i.rbuf.writeOffset seg.data seg.len (i.offsetOf seg)
    let i := { i with rbuf := rbuf }
    if seg.seq = i.rcvNxt then
      let (recovered, i) := (i.deliver seg.len).recoverList i.rlist
      ⟨i, true, recovered⟩
    else
      ⟨{ i with rlist := insertRSegment ⟨seg.seq, seg.len⟩ i.rlist }, false, false⟩

/-- The scale factor such that the scaled window size fits in 16 bits, and the
scaled size. -/
def windowScale : Nat → Nat → Nat → Nat × Nat
  | 0, scaleFactor, newSize => (scaleFactor, newSize)
  | fuel + 1, scaleFactor, newSize =>
      if 0xFFFF < newSize then windowScale fuel (scaleFactor + 1) (newSize >>> 1)
      else (scaleFactor, newSize)

/-- `resizeReceiveBuffer`, up to the slow-start threshold. -/
def Incoming.resize (i : Incoming) (newSize : Nat) (fresh : Memory UInt8) : Incoming :=
  -- A `uint32` fits in 16 bits after 16 shifts.
  let (scaleFactor, scaled) := windowScale 16 0 newSize
  let newSize := shl32 scaled scaleFactor
  let (_, rbuf) := i.rbuf.setCapacity newSize fresh
  { i with
    rbuf := rbuf
    rbufLen := newSize
    rwndScale := scaleFactor
    rcvWnd := toWord rbuf.getWriteRemaining }

/-- After a read, announce the free space once it is worth announcing. -/
def Incoming.openWindow (i : Incoming) : Incoming :=
  { i with rcvWnd := i.availableSpace }

end PseudoTcp

end Libjingle

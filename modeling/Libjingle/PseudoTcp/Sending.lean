import Libjingle.PseudoTcp.State

/-!
# Sending

`queue`, `packet`, `transmit` and `attemptSend` of `talk/p2p/base/pseudotcp.cc`.
An iterator into the send list is an index. The loops carry fuel: each round of
`reduceMss` and `transmitLoop` moves down the table of packet maximums, and each
round of `attemptSendLoop` transmits an untransmitted segment.
-/

namespace Libjingle

open Libjingle.Std
open Libjingle.Base

namespace PseudoTcp

/-! ## Bytes on the wire -/

/-- `long_to_bytes`: network byte order. -/
def longToBytes (value : Nat) : List UInt8 :=
  [UInt8.ofNat (value / 2 ^ 24), UInt8.ofNat (value / 2 ^ 16), UInt8.ofNat (value / 2 ^ 8),
    UInt8.ofNat value]

/-- `short_to_bytes`: network byte order. -/
def shortToBytes (value : Nat) : List UInt8 :=
  [UInt8.ofNat (value / 2 ^ 8), UInt8.ofNat value]

/-- `bytes_to_long`. -/
def bytesToLong (memory : Memory UInt8) (start : Nat) : Nat :=
  (memory start).toNat * 2 ^ 24 + (memory (start + 1)).toNat * 2 ^ 16 +
    (memory (start + 2)).toNat * 2 ^ 8 + (memory (start + 3)).toNat

/-- `bytes_to_short`. -/
def bytesToShort (memory : Memory UInt8) (start : Nat) : Nat :=
  (memory start).toNat * 2 ^ 8 + (memory (start + 1)).toNat

/-- The 24 header bytes of a packet sent at time `now`. -/
def headerBytes (s : PseudoTcp) (now seq flags : Nat) : List UInt8 :=
  longToBytes s.conv ++ longToBytes seq ++ longToBytes s.rcvNxt ++
    [0, UInt8.ofNat flags] ++ shortToBytes (s.rcvWnd >>> s.rwndScale) ++
    longToBytes now ++ longToBytes s.tsRecent

/-! ## The send list -/

/-- The list part of `queue`: data joins an untransmitted last segment of its
own kind, and starts a segment otherwise. -/
def Outgoing.append (o : Outgoing) (len : Nat) (bCtrl : Bool) : Outgoing :=
  let fresh : SSegment := ⟨add32 o.sndUna o.sbuf.getBuffered, len, 0, bCtrl⟩
  match o.slist.getLast? with
  | some last =>
      if last.bCtrl = bCtrl ∧ last.xmit = 0 then
        { o with slist := o.slist.dropLast ++ [{ last with len := add32 last.len len }] }
      else { o with slist := o.slist ++ [fresh] }
  | none => { o with slist := [fresh] }

/-- Cut the segment at `index` after `len` bytes; the rest gets `xmit`. -/
def splitSegment (slist : List SSegment) (index len xmit : Nat) : List SSegment :=
  match slist[index]? with
  | some seg =>
      slist.take index ++
        { seg with len := len } ::
        ⟨add32 seg.seq len, sub32 seg.len len, xmit, seg.bCtrl⟩ ::
        slist.drop (index + 1)
  | none => slist

/-- The end of `transmit`: cut off what did not fit into the packet, move
`sndNxt` past a first transmission, and count the transmission. -/
def Outgoing.mark (o : Outgoing) (index nTransmit : Nat) : Outgoing :=
  match o.slist[index]? with
  | some seg =>
      let o := if nTransmit < seg.len then
        { o with slist := splitSegment o.slist index nTransmit seg.xmit } else o
      let len := min nTransmit seg.len
      let o := if seg.xmit = 0 then { o with sndNxt := add32 o.sndNxt len } else o
      { o with slist := o.slist.modify index fun g => { g with xmit := add8 g.xmit 1 } }
  | none => o

/-! ## `queue` -/

/-- Take data into the send buffer, as much as fits. The number is the count of
bytes taken. -/
def queue (s : PseudoTcp) (data : List UInt8) (len : Nat) (bCtrl : Bool) : Nat × PseudoTcp :=
  let availableSpace := toWord s.sbuf.getWriteRemaining
  let len := if availableSpace < len then availableSpace else len
  let s := { s with toOutgoing := s.toOutgoing.append len bCtrl }
  let (_, written, sbuf) := s.sbuf.write (FifoBuffer.pointer data) len
  (written, { s with sbuf := sbuf }.record (.queued (data.take written) bCtrl))

/-! ## `packet` -/

/-- Create a packet and submit it to the network: `len` bytes at `offset` of the
send buffer, or a bare acknowledgement when `len` is zero. Bytes that
`ReadOffset` does not deliver are what the stack happened to hold. -/
def packet (s : PseudoTcp) (seq flags offset len : Nat) : WriteResult × PseudoTcp :=
  let (now, s) := s.now
  let header := s.headerBytes now seq flags
  let s := { s with tsLastAck := s.rcvNxt }
  let payload := if len = 0 then [] else (s.sbuf.readOffset len offset).2
  let rest := s.notify.memory.slice 0 (len - payload.length)
  let (wres, s) := s.nextResult
  let s := s.record (.packet ⟨seq, flags, offset, len, payload, header ++ payload ++ rest, wres⟩)
  -- A bare acknowledgement counts as sent whatever the network answers.
  if wres ≠ .success ∧ len ≠ 0 then
    (wres, s)
  else
    (.success, { s with
      tAck := 0
      lastSend := if 0 < len then now else s.lastSend
      lastTraffic := now
      bOutgoing := true })

/-! ## `transmit` -/

/-- The packet that carries the first `nTransmit` bytes of a segment. -/
def packetOf (s : PseudoTcp) (seg : SSegment) (nTransmit : Nat) : WriteResult × PseudoTcp :=
  s.packet seg.seq (if seg.bCtrl then flagCtl else 0) (sub32 seg.seq s.sndUna) nTransmit

/-- The next lower level of the table of packet maximums. -/
def lowerMss (s : PseudoTcp) : PseudoTcp :=
  let mss := sub32 (packetMaximums.getD (s.mssLevel + 1) 0) packetOverhead
  { s with mssLevel := s.mssLevel + 1, mss := mss, cwnd := mul32 2 mss }

/-- The inner loop after `WR_TOO_LARGE`: go down the table until the segment
size drops below `nTransmit`. -/
def reduceMss : Nat → PseudoTcp → Nat → Bool × PseudoTcp
  | 0, s, _ => (false, s)
  | fuel + 1, s, nTransmit =>
      if packetMaximums.getD (s.mssLevel + 1) 0 = 0 then (false, s)
      else if s.lowerMss.mss < nTransmit then (true, s.lowerMss)
      else reduceMss fuel s.lowerMss nTransmit

/-- The outer loop: write the packet, with fewer bytes whenever it is too large. -/
def transmitLoop : Nat → PseudoTcp → SSegment → Nat → Option Nat × PseudoTcp
  | 0, s, _, _ => (none, s)
  | fuel + 1, s, seg, nTransmit =>
      match s.packetOf seg nTransmit with
      | (.success, s) => (some nTransmit, s)
      | (.fail, s) => (none, s)
      | (.tooLarge, s) =>
          match s.reduceMss packetMaximums.length nTransmit with
          | (true, s) => transmitLoop fuel s seg s.mss
          | (false, s) => (none, s)

/-- The end of `transmit` after a packet was written. -/
def markTransmitted (s : PseudoTcp) (index nTransmit now : Nat) : PseudoTcp :=
  { s with
    toOutgoing := s.toOutgoing.mark index nTransmit
    rtoBase := if s.rtoBase = 0 then now else s.rtoBase }

/-- Transmit the segment at `index` of the send list; false when it was sent too
often or the network refuses it. -/
def transmit (s : PseudoTcp) (index now : Nat) : Bool × PseudoTcp :=
  match s.slist[index]? with
  | none => (false, s)
  | some seg =>
      if (if s.state = .established then 15 else 30) ≤ seg.xmit then
        (false, s)
      else
        match s.transmitLoop packetMaximums.length seg (min seg.len s.mss) with
        | (none, s) => (false, s)
        | (some nTransmit, s) => (true, s.markTransmitted index nTransmit now)

/-! ## `attemptSend` -/

/-- How many bytes may be sent in one more segment: the unsent bytes, limited by
the segment size, the peer's window and the congestion window. -/
def sendable (s : PseudoTcp) : Nat :=
  let cwnd :=
    if s.dupAcks = 1 ∨ s.dupAcks = 2 then add32 s.cwnd (mul32 s.dupAcks s.mss) else s.cwnd
  let nWindow := min s.sndWnd cwnd
  let nInFlight := sub32 s.sndNxt s.sndUna
  let nUseable := if nInFlight < nWindow then nWindow - nInFlight else 0
  let nAvailable := min (sub32 s.sbuf.getBuffered nInFlight) s.mss
  if nUseable < nAvailable then
    -- RFC 813 - avoid SWS
    if mul32 nUseable 4 < nWindow then 0 else nUseable
  else nAvailable

/-- What `attemptSend` does when there is nothing to send. -/
def sendAck (s : PseudoTcp) : SendFlags → PseudoTcp
  | .none => s
  | .immediateAck => (s.packet s.sndNxt 0 0 0).2
  | .delayedAck =>
      if s.tAck ≠ 0 then (s.packet s.sndNxt 0 0 0).2
      else
        let (time, s) := s.now
        { s with tAck := time }

/-- If the segment is too large, break it into two. -/
def Outgoing.carve (o : Outgoing) (index nAvailable : Nat) : Outgoing :=
  match o.slist[index]? with
  | some seg =>
      if nAvailable < seg.len then { o with slist := splitSegment o.slist index nAvailable 0 }
      else o
  | none => o

def attemptSendLoop : Nat → PseudoTcp → SendFlags → Nat → PseudoTcp
  | 0, s, _, _ => s
  | fuel + 1, s, sflags, now =>
      let nAvailable := s.sendable
      if nAvailable = 0 then
        s.sendAck sflags
      else if s.useNagling ∧ s.sndUna < s.sndNxt ∧ nAvailable < s.mss then
        s
      else
        match s.slist.findIdx? fun seg => seg.xmit = 0 with
        | none => s
        | some index =>
            let s := { s with toOutgoing := s.toOutgoing.carve index nAvailable }
            match s.transmit index now with
            | (false, s) => s
            | (true, s) => attemptSendLoop fuel s .none now

def attemptSend (s : PseudoTcp) (sflags : SendFlags) : PseudoTcp :=
  let (now, s) := s.now
  let s := if (s.rxRto : Int) < timeDiff now s.lastSend then { s with cwnd := s.mss } else s
  s.attemptSendLoop (s.sbuf.getBuffered + s.slist.length + 1) sflags now

end PseudoTcp

end Libjingle

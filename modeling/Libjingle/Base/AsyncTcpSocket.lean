import Libjingle.Base.ByteBuffer
import Libjingle.Std.Incremental
import Libjingle.Std.Trace

/-!
# `AsyncTCPSocket`

`talk/base/asynctcpsocket.cc`: packets over a stream, each behind its length in
sixteen bits. A buffer is the list of the bytes in use, so `inpos_` and `outpos_`
are its length. The underlying socket answers a write with the number of bytes it
takes and a read with what has arrived; both answers are inputs of a step.
-/

namespace Libjingle.Base

open Libjingle.Std

def maxPacketSize : Nat := 64 * 1024

def pktLenSize : Nat := 2

def bufSize : Nat := maxPacketSize + pktLenSize

/-- What the underlying socket does when it is asked to send: it fails, or it takes
up to so many bytes. -/
inductive WriteAnswer
  | error
  | takes (count : Nat)
  deriving DecidableEq, Repr

/-- The result of `socket_->Send` for a buffer of `cb` bytes. -/
def WriteAnswer.result (cb : Nat) : WriteAnswer → Int
  | .error => -1
  | .takes count => min count cb

structure AsyncTCPSocket where
  inbuf : List UInt8 := []
  outbuf : List UInt8 := []
  deriving DecidableEq, Repr

/-- A call that may write: what it returns and which bytes went out. -/
structure Written where
  result : Int
  bytes : List UInt8
  socket : AsyncTCPSocket
  deriving DecidableEq, Repr

/-- A read event: the packets signalled, and whether the buffer has overflowed. -/
structure ReadEvent where
  packets : List (List UInt8)
  overflow : Bool
  socket : AsyncTCPSocket
  deriving DecidableEq, Repr

/-- The length prefix, cut to sixteen bits, and the packet. -/
def frame (packet : List UInt8) : List UInt8 :=
  ByteBuffer.uint16Bytes (UInt16.ofNat packet.length) ++ packet

/-- One turn of the loop of `ProcessInput`: the first packet and the data behind it. -/
def nextPacket (data : List UInt8) : Option (List UInt8 × List UInt8) :=
  if data.length < pktLenSize then none
  else
    let pktLen := BigEndian.ofBytes (data.take pktLenSize)
    if data.length < pktLenSize + pktLen then none
    else some ((data.drop pktLenSize).take pktLen, data.drop (pktLenSize + pktLen))

namespace AsyncTCPSocket

def flush (s : AsyncTCPSocket) (answer : WriteAnswer) : Written :=
  let res := answer.result s.outbuf.length
  if res ≤ 0 then { result := res, bytes := [], socket := s }
  else if res.toNat ≤ s.outbuf.length then
    { result := res
      bytes := s.outbuf.take res.toNat
      socket := { s with outbuf := s.outbuf.drop res.toNat } }
  else { result := -1, bytes := [], socket := s }

def send (s : AsyncTCPSocket) (packet : List UInt8) (answer : WriteAnswer) : Written :=
  if maxPacketSize < packet.length then { result := -1, bytes := [], socket := s }
  -- Blocked on an earlier packet: this one is dropped in silence.
  else if s.outbuf ≠ [] then { result := packet.length, bytes := [], socket := s }
  else
    let flushed := flush { s with outbuf := frame packet } answer
    if flushed.result ≤ 0 then
      { flushed with socket := { flushed.socket with outbuf := [] } }
    else { flushed with result := packet.length }

/-- The loop of `ProcessInput`. Every packet takes its length prefix from the data,
so the length of the data bounds the number of turns. -/
def processInput : Nat → List UInt8 → List (List UInt8) × List UInt8
  | 0, data => ([], data)
  | turns + 1, data =>
    match nextPacket data with
    | none => ([], data)
    | some (packet, rest) =>
      let (packets, left) := processInput turns rest
      (packet :: packets, left)

/-- `OnReadEvent` of a connected socket. `arrived` is what `Recv` stored, or nothing
when it failed. -/
def onReadEvent (s : AsyncTCPSocket) (arrived : Option (List UInt8)) : ReadEvent :=
  match arrived with
  | none => { packets := [], overflow := false, socket := s }
  | some bytes =>
    let data := s.inbuf ++ bytes
    let (packets, left) := processInput data.length data
    if bufSize ≤ left.length then
      { packets, overflow := true, socket := { s with inbuf := [] } }
    else { packets, overflow := false, socket := { s with inbuf := left } }

def onWriteEvent (s : AsyncTCPSocket) (answer : WriteAnswer) : Written :=
  if s.outbuf ≠ [] then s.flush answer else { result := 0, bytes := [], socket := s }

/-- The packet is refused, or dropped because an earlier one is not out yet or
because the underlying socket makes no progress. -/
def Drops (s : AsyncTCPSocket) (packet : List UInt8) (answer : WriteAnswer) : Prop :=
  maxPacketSize < packet.length ∨ s.outbuf ≠ [] ∨ answer.result (frame packet).length ≤ 0

instance (s : AsyncTCPSocket) (packet : List UInt8) (answer : WriteAnswer) :
    Decidable (s.Drops packet answer) := inferInstanceAs (Decidable (_ ∨ _ ∨ _))

end AsyncTCPSocket

/-! ## A connection -/

/-- What `Recv` does: it fails, or it delivers up to so many bytes. -/
inductive ReadAnswer
  | error
  | delivers (count : Nat)
  deriving DecidableEq, Repr

/-- One direction of a connection: the two sockets, the bytes under way, and what
has happened so far. -/
structure TcpLink where
  sender : AsyncTCPSocket := {}
  peer : AsyncTCPSocket := {}
  wire : List UInt8 := []
  sent : List UInt8 := []
  kept : List (List UInt8) := []
  signalled : List (List UInt8) := []
  overflowed : Bool := false
  deriving DecidableEq, Repr

inductive TcpStep
  | send (packet : List UInt8) (answer : WriteAnswer)
  | writeEvent (answer : WriteAnswer)
  | readEvent (answer : ReadAnswer)
  deriving DecidableEq, Repr

namespace TcpLink

/-- The bytes that a read takes: as many as there are, as fit in the buffer and as
the socket delivers. -/
def arriving (l : TcpLink) : ReadAnswer → Option (List UInt8)
  | .error => none
  | .delivers count => some (l.wire.take (min count (bufSize - l.peer.inbuf.length)))

def wrote (l : TcpLink) (written : Written) : TcpLink :=
  { l with
    sender := written.socket
    wire := l.wire ++ written.bytes
    sent := l.sent ++ written.bytes }

def step (l : TcpLink) : TcpStep → TcpLink
  | .send packet answer =>
    { l.wrote (l.sender.send packet answer) with
      kept := if l.sender.Drops packet answer then l.kept else l.kept ++ [packet] }
  | .writeEvent answer => l.wrote (l.sender.onWriteEvent answer)
  | .readEvent answer =>
    let arrived := l.arriving answer
    let event := l.peer.onReadEvent arrived
    { l with
      peer := event.socket
      wire := l.wire.drop (arrived.getD []).length
      signalled := l.signalled ++ event.packets
      overflowed := l.overflowed || event.overflow }

abbrev run (l : TcpLink) (steps : List TcpStep) : TcpLink := runInputs step l steps

end TcpLink

end Libjingle.Base

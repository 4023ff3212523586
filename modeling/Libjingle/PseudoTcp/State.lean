import Libjingle.Std.Word
import Libjingle.Base.FifoBuffer

/-!
# The state of a `PseudoTcp`

The data model of `talk/p2p/base/pseudotcp.h`. The members are grouped as in the
class declaration, so that a function which leaves a group alone leaves one
structure alone. `uint32`, `uint16` and `uint8` members are `Nat`; the code wraps
them where it computes with them.

The notify object stands for everything outside the connection: the clock, the
outcome of every `TcpWritePacket`, the calls an application makes from inside a
callback, and the contents of uninitialised memory. Its `history` records, newest
first, the bytes that passed between the connection and the outside, and
`notified` the callbacks.
-/

namespace Libjingle

open Libjingle.Std
open Libjingle.Base

namespace PseudoTcp

/-! ## Constants -/

/-- `PACKET_MAXIMUMS`, the table of standard MTUs with its end marker. -/
def packetMaximums : List Nat :=
  [65535, 32000, 17914, 8166, 4352, 2002, 1492, 1006, 508, 296, 0]

def maxPacket : Nat := 65535
def minPacket : Nat := 296

def ipHeaderSize : Nat := 20
def udpHeaderSize : Nat := 8
def jingleHeaderSize : Nat := 64
def headerSize : Nat := 24

def packetOverhead : Nat := headerSize + udpHeaderSize + ipHeaderSize + jingleHeaderSize

def defaultRcvBufSize : Nat := 60 * 1024
def defaultSndBufSize : Nat := 90 * 1024

def minRto : Nat := 250
def defRto : Nat := 3000
def maxRto : Nat := 60000
def defAckDelay : Nat := 100

def flagCtl : Nat := 2
def flagRst : Nat := 4

def ctlConnect : UInt8 := 0

def tcpOptEol : UInt8 := 0
def tcpOptNoop : UInt8 := 1
def tcpOptWndScale : UInt8 := 3

/-! ## Enumerations and records -/

inductive TcpState where
  | listen
  | synSent
  | synReceived
  | established
  | closed
  deriving DecidableEq, Repr

inductive Shutdown where
  | none
  | graceful
  | forceful
  deriving DecidableEq, Repr

inductive WriteResult where
  | success
  | tooLarge
  | fail
  deriving DecidableEq, Repr

inductive SendFlags where
  | none
  | delayedAck
  | immediateAck
  deriving DecidableEq, Repr

/-- The error codes the connection reports. -/
inductive Errno where
  | none
  | inval
  | notConn
  | wouldBlock
  | connAborted
  | connReset
  deriving DecidableEq, Repr

/-- The options that may be set at any time. -/
inductive Opt where
  | noDelay
  | ackDelay
  deriving DecidableEq, Repr

/-- An incoming segment. `data` is a pointer into the received packet. -/
structure Segment where
  conv : Nat
  seq : Nat
  ack : Nat
  flags : Nat
  wnd : Nat
  data : Memory UInt8
  len : Nat
  tsval : Nat
  tsecr : Nat

/-- An entry of the send list. -/
structure SSegment where
  seq : Nat
  len : Nat
  xmit : Nat
  bCtrl : Bool
  deriving DecidableEq, Repr

/-- An entry of the out-of-order list. -/
structure RSegment where
  seq : Nat
  len : Nat
  deriving DecidableEq, Repr

/-- One call of `packet`: its arguments, what `ReadOffset` delivered, the buffer
given to `TcpWritePacket` and the answer. -/
structure PacketCall where
  seq : Nat
  flags : Nat
  offset : Nat
  len : Nat
  payload : List UInt8
  buffer : List UInt8
  result : WriteResult

/-- The bytes that pass between a connection and the outside. -/
inductive Event where
  | packet (call : PacketCall)
  /-- Bytes taken into the send buffer. -/
  | queued (data : List UInt8) (bCtrl : Bool)
  /-- Bytes returned by `Recv`. -/
  | received (data : List UInt8)

inductive Notification where
  | onTcpOpen
  | onTcpReadable
  | onTcpWriteable
  | onTcpClosed (err : Errno)
  deriving DecidableEq, Repr

/-- The calls an application may make at any time, also from inside a callback. -/
inductive AppCall where
  | send (data : List UInt8)
  | recv (len : Nat)
  | close (force : Bool)
  | setOption (opt : Opt) (value : UInt32)

/-- What the outside does while one call runs. -/
structure Environment where
  /-- The values that successive calls of `Now` return. -/
  clock : List UInt32
  /-- The answers of successive calls of `TcpWritePacket`. -/
  results : List WriteResult
  onTcpOpen : List AppCall
  onTcpReadable : List AppCall
  onTcpWriteable : List AppCall
  /-- The contents of memory that the code does not initialise. -/
  memory : Memory UInt8

structure Notify extends Environment where
  history : List Event
  notified : List Notification

/-! ## The connection -/

structure Tcb where
  state : TcpState
  conv : Nat
  bReadEnable : Bool
  bWriteEnable : Bool
  bOutgoing : Bool
  lastTraffic : Nat
  shutdown : Shutdown
  error : Errno

structure Incoming where
  rlist : List RSegment
  rbufLen : Nat
  rcvNxt : Nat
  rcvWnd : Nat
  rwndScale : Nat
  rbuf : FifoBuffer

structure Outgoing where
  slist : List SSegment
  sbufLen : Nat
  sndNxt : Nat
  sndWnd : Nat
  sndUna : Nat
  swndScale : Nat
  sbuf : FifoBuffer

/-- Segment size, retransmit timer, congestion avoidance and fast retransmit. -/
structure Congestion where
  mss : Nat
  mssLevel : Nat
  largest : Nat
  mtuAdvise : Nat
  rtoBase : Nat
  ssthresh : Nat
  cwnd : Nat
  dupAcks : Nat
  recover : Nat

structure Timers where
  lastRecv : Nat
  lastSend : Nat
  tsRecent : Nat
  tsLastAck : Nat
  rxRttVar : Nat
  rxSrtt : Nat
  rxRto : Nat
  tAck : Nat

structure Options where
  useNagling : Bool
  ackDelay : Nat
  supportWndScale : Bool

end PseudoTcp

open PseudoTcp in
structure PseudoTcp extends Tcb, Incoming, Outgoing, Congestion, Timers, Options where
  notify : Notify

namespace PseudoTcp

/-- The constructor. The two buffers lie in freshly allocated memory. -/
def new (conv now : UInt32) (environment : Environment) (rcvMemory sndMemory : Memory UInt8) :
    PseudoTcp where
  state := .listen
  conv := conv.toNat
  bReadEnable := true
  bWriteEnable := false
  bOutgoing := false
  lastTraffic := now.toNat
  shutdown := .none
  error := .none
  rlist := []
  rbufLen := defaultRcvBufSize
  rcvNxt := 0
  rcvWnd := defaultRcvBufSize
  rwndScale := 0
  rbuf := FifoBuffer.new defaultRcvBufSize rcvMemory
  slist := []
  sbufLen := defaultSndBufSize
  sndNxt := 0
  sndWnd := 1
  sndUna := 0
  swndScale := 0
  sbuf := FifoBuffer.new defaultSndBufSize sndMemory
  mss := minPacket - packetOverhead
  mssLevel := 0
  largest := 0
  mtuAdvise := maxPacket
  rtoBase := 0
  ssthresh := defaultRcvBufSize
  cwnd := 2 * (minPacket - packetOverhead)
  dupAcks := 0
  recover := 0
  lastRecv := now.toNat
  lastSend := now.toNat
  tsRecent := 0
  tsLastAck := 0
  rxRttVar := 0
  rxSrtt := 0
  rxRto := defRto
  tAck := 0
  useNagling := true
  ackDelay := defAckDelay
  supportWndScale := true
  notify := { environment with history := [], notified := [] }

/-- The bytes that passed between the connection and the outside, newest first. -/
def history (s : PseudoTcp) : List Event :=
  s.notify.history

def record (s : PseudoTcp) (event : Event) : PseudoTcp :=
  { s with notify := { s.notify with history := event :: s.notify.history } }

/-- `Now`: the clock moves on with every reading. -/
def now (s : PseudoTcp) : Nat × PseudoTcp :=
  match s.notify.clock with
  | [] => (0, s)
  | time :: rest => (time.toNat, { s with notify := { s.notify with clock := rest } })

/-- The answer of the next `TcpWritePacket`. -/
def nextResult (s : PseudoTcp) : WriteResult × PseudoTcp :=
  match s.notify.results with
  | [] => (.success, s)
  | result :: rest => (result, { s with notify := { s.notify with results := rest } })

end PseudoTcp

end Libjingle

import Libjingle.PseudoTcp.Sending
import Libjingle.PseudoTcp.Receiving

/-!
# Processing

`Recv`, `Send`, the callbacks with the calls an application makes from inside
them, and `PseudoTcp::process`. The one long function of the source is cut at
its blank lines: control data, timestamp, acknowledgement, end of the handshake,
write notification, data.
-/

namespace Libjingle

open Libjingle.Std
open Libjingle.Base

namespace PseudoTcp

/-! ## `Recv`, `Send` and the callbacks -/

/-- `Recv`; no bytes stand for `SOCKET_ERROR`. -/
def recv (s : PseudoTcp) (len : Nat) : Option (List UInt8) × PseudoTcp :=
  if s.state ≠ .established then
    (none, { s with error := .notConn })
  else
    match s.rbuf.read len with
    | (.block, _, _) => (none, { s with bReadEnable := true, error := .wouldBlock })
    | (_, data, rbuf) =>
        let s := { s with rbuf := rbuf }.record (.received data)
        let s :=
          if min (s.rbufLen / 2) s.mss ≤ sub32 s.availableSpace s.rcvWnd then
            let bWasClosed := s.rcvWnd = 0
            let s := { s with toIncoming := s.toIncoming.openWindow }
            if bWasClosed then s.attemptSend .immediateAck else s
          else s
        (some data, s)

/-- `Send`; no count stands for `SOCKET_ERROR`. -/
def send (s : PseudoTcp) (data : List UInt8) : Option Nat × PseudoTcp :=
  if s.state ≠ .established then
    (none, { s with error := .notConn })
  else if s.sbuf.getWriteRemaining = 0 then
    (none, { s with bWriteEnable := true, error := .wouldBlock })
  else
    let (written, s) := s.queue data (toWord data.length) false
    (some written, s.attemptSend .none)

def close (s : PseudoTcp) (force : Bool) : PseudoTcp :=
  { s with shutdown := if force then .forceful else .graceful }

/-- `SetOption` for the options that have no precondition. -/
def setOption (s : PseudoTcp) (opt : Opt) (value : UInt32) : PseudoTcp :=
  match opt with
  | .noDelay => { s with useNagling := value = 0 }
  | .ackDelay => { s with ackDelay := value.toNat }

def appCall (s : PseudoTcp) : AppCall → PseudoTcp
  | .send data => (s.send data).2
  | .recv len => (s.recv len).2
  | .close force => s.close force
  | .setOption opt value => s.setOption opt value

def notified (s : PseudoTcp) (notification : Notification) : PseudoTcp :=
  { s with notify := { s.notify with notified := notification :: s.notify.notified } }

/-- A callback: the application learns of the event and makes its calls. -/
def callback (s : PseudoTcp) (notification : Notification) (calls : List AppCall) : PseudoTcp :=
  calls.foldl appCall (s.notified notification)

def onTcpOpen (s : PseudoTcp) : PseudoTcp :=
  s.callback .onTcpOpen s.notify.onTcpOpen

def onTcpReadable (s : PseudoTcp) : PseudoTcp :=
  s.callback .onTcpReadable s.notify.onTcpReadable

def onTcpWriteable (s : PseudoTcp) : PseudoTcp :=
  s.callback .onTcpWriteable s.notify.onTcpWriteable

def closedown (s : PseudoTcp) (err : Errno) : PseudoTcp :=
  { s with state := .closed }.notified (.onTcpClosed err)

/-! ## Segment size and options -/

/-- The loop of `adjustMTU` over the table from some level on. -/
def mssLevelFor (mtu : Nat) : List Nat → Nat
  | maximum :: next :: rest =>
      if next = 0 ∨ maximum ≤ mtu then 0 else mssLevelFor mtu (next :: rest) + 1
  | _ => 0

def adjustMTU (s : PseudoTcp) : PseudoTcp :=
  let mss := sub32 s.mtuAdvise packetOverhead
  { s with
    mssLevel := mssLevelFor s.mtuAdvise packetMaximums
    mss := mss
    ssthresh := max s.ssthresh (mul32 2 mss)
    cwnd := max s.cwnd mss }

def resizeSendBuffer (s : PseudoTcp) (newSize : Nat) : PseudoTcp :=
  { s with sbufLen := newSize, sbuf := (s.sbuf.setCapacity newSize s.notify.memory).2 }

def resizeReceiveBuffer (s : PseudoTcp) (newSize : Nat) : PseudoTcp :=
  let incoming := s.toIncoming.resize newSize s.notify.memory
  { s with toIncoming := incoming, ssthresh := incoming.rbufLen }

/-- The message that `queueConnectMessage` sends. -/
def connectMessage (s : PseudoTcp) : List UInt8 :=
  ctlConnect :: if s.supportWndScale then [tcpOptWndScale, 1, UInt8.ofNat s.rwndScale] else []

def queueConnectMessage (s : PseudoTcp) : PseudoTcp :=
  let buf := s.connectMessage
  ({ s with sndWnd := buf.length }.queue buf buf.length true).2

/-- Apply a TCP option that has been read from the header. -/
def applyOption (s : PseudoTcp) (kind : UInt8) (data : Memory UInt8) (len : Nat) : PseudoTcp :=
  if kind = tcpOptWndScale ∧ len = 1 then { s with swndScale := (data 0).toNat } else s

/-- The option list from `position` on, with `length` bytes left: whether it
ended well, the kinds seen, and the state after the options. -/
def parseOptionsLoop (data : Memory UInt8) :
    Nat → PseudoTcp → Nat → Nat → List UInt8 → Bool × List UInt8 × PseudoTcp
  | 0, s, _, _, seen => (true, seen, s)
  | fuel + 1, s, position, length, seen =>
      if length = 0 then
        (true, seen, s)
      else
        let kind := data position
        if kind = tcpOptEol then
          (true, seen, s)
        else if kind = tcpOptNoop then
          parseOptionsLoop data fuel s (position + 1) (length - 1) seen
        else
          -- A failed `ReadUInt8` leaves the option length at zero.
          let optLen := if length = 1 then 0 else (data (position + 1)).toNat
          let position := position + min length 2
          let length := length - min length 2
          if optLen ≤ length then
            let s := s.applyOption kind (fun index => data (position + index)) optLen
            parseOptionsLoop data fuel s (position + optLen) (length - optLen) (kind :: seen)
          else (false, seen, s)

def parseOptions (s : PseudoTcp) (data : Memory UInt8) (len : Nat) : PseudoTcp :=
  match s.parseOptionsLoop data len 0 len [] with
  | (false, _, s) => s
  | (true, seen, s) =>
      -- Without window scaling, revert the receive buffer to its default size.
      if tcpOptWndScale ∉ seen ∧ 0 < s.rwndScale then
        { s.resizeReceiveBuffer defaultRcvBufSize with swndScale := 0 }
      else s

/-- The options are well formed and lack window scaling, which the receive
buffer needs: it goes back to its default size. -/
def Reverts (s : PseudoTcp) (data : Memory UInt8) (len : Nat) : Prop :=
  (s.parseOptionsLoop data len 0 len []).1 = true ∧
    tcpOptWndScale ∉ (s.parseOptionsLoop data len 0 len []).2.1 ∧ 0 < s.rwndScale

instance (s : PseudoTcp) (data : Memory UInt8) (len : Nat) : Decidable (s.Reverts data len) :=
  inferInstanceAs (Decidable (_ ∧ _))

/-! ## `process` -/

/-- Control data; nothing stands for a segment that is refused, and otherwise
the flag is `bConnect`. -/
def processControl (s : PseudoTcp) (seg : Segment) : Option Bool × PseudoTcp :=
  if seg.flags &&& flagCtl = 0 then
    (some false, s)
  else if seg.len = 0 then
    (none, s)
  else if seg.data 0 = ctlConnect then
    let s := s.parseOptions (fun index => seg.data (index + 1)) (seg.len - 1)
    if s.state = .listen then
      (some true, { s with state := .synReceived }.queueConnectMessage)
    else if s.state = .synSent then
      (some true, ({ s with state := .established }).adjustMTU.onTcpOpen)
    else (some true, s)
  else (none, s)

def updateTimestamp (s : PseudoTcp) (seg : Segment) : PseudoTcp :=
  if seg.seq ≤ s.tsLastAck ∧ s.tsLastAck < add32 seg.seq seg.len then
    { s with tsRecent := seg.tsval }
  else s

/-- `bound`. -/
def bound (lower middle upper : Nat) : Nat :=
  min (max lower middle) upper

/-- Calculate round-trip time. -/
def updateRtt (s : PseudoTcp) (seg : Segment) (now : Nat) : PseudoTcp :=
  let rtt := timeDiff now seg.tsecr
  if seg.tsecr ≠ 0 ∧ 0 ≤ rtt then
    let s :=
      if s.rxSrtt = 0 then
        { s with rxSrtt := rtt.toNat, rxRttVar := rtt.toNat / 2 }
      else
        { s with
          rxRttVar := toWord (3 * s.rxRttVar + (rtt - s.rxSrtt).natAbs) / 4
          rxSrtt := toWord (7 * s.rxSrtt + rtt.toNat) / 8 }
    { s with rxRto := bound minRto (add32 s.rxSrtt (max 1 (mul32 4 s.rxRttVar))) maxRto }
  else s

/-- Take `nFree` acknowledged bytes off the front of the send list, and note the
largest segment that was acknowledged whole. -/
def freeSegments : List SSegment → Nat → Nat → List SSegment × Nat
  | [], _, largest => ([], largest)
  | seg :: rest, nFree, largest =>
      if nFree = 0 then
        (seg :: rest, largest)
      else if nFree < seg.len then
        ({ seg with len := seg.len - nFree } :: rest, largest)
      else freeSegments rest (nFree - seg.len) (max largest seg.len)

/-- The peer's window as a segment announces it. -/
def Outgoing.window (o : Outgoing) (seg : Segment) : Nat :=
  shl32 seg.wnd o.swndScale

/-- The send buffer and the send list after an acknowledgement of new data. -/
def Outgoing.acknowledge (o : Outgoing) (seg : Segment) : Outgoing :=
  let nAcked := sub32 seg.ack o.sndUna
  { o with
    sndWnd := o.window seg
    sndUna := seg.ack
    sbuf := o.sbuf.consumeReadData nAcked
    slist := (freeSegments o.slist nAcked 0).1 }

/-- The state after the bookkeeping of an acknowledgement of new data. -/
def acknowledge (s : PseudoTcp) (seg : Segment) (now : Nat) : PseudoTcp :=
  let nAcked := sub32 seg.ack s.sndUna
  { s with
    toOutgoing := s.toOutgoing.acknowledge seg
    largest := (freeSegments s.slist nAcked s.largest).2
    rtoBase := if seg.ack = s.sndNxt then 0 else now }

/-- Is this a valuable ack? -/
def valuable (s : PseudoTcp) (ack : Nat) : Prop :=
  s.sndUna < ack ∧ ack ≤ s.sndNxt

instance (s : PseudoTcp) (ack : Nat) : Decidable (s.valuable ack) :=
  inferInstanceAs (Decidable (_ ∧ _))

/-- NewReno: leave recovery. -/
def exitRecovery (s : PseudoTcp) : PseudoTcp :=
  let nInFlight := sub32 s.sndNxt s.sndUna
  { s with cwnd := min s.ssthresh (add32 nInFlight s.mss), dupAcks := 0 }

/-- The congestion window after a partial acknowledgement in recovery. -/
def partialAck (s : PseudoTcp) (nAcked : Nat) : PseudoTcp :=
  { s with cwnd := add32 s.cwnd (sub32 s.mss (min nAcked s.cwnd)) }

/-- Slow start, congestion avoidance. -/
def growWindow (s : PseudoTcp) : PseudoTcp :=
  { s with
    dupAcks := 0
    cwnd :=
      if s.cwnd < s.ssthresh then add32 s.cwnd s.mss
      else add32 s.cwnd (max 1 (mul32 s.mss s.mss / s.cwnd)) }

/-- The slow-start threshold after a loss. -/
def lossThreshold (s : PseudoTcp) : Nat :=
  max (sub32 s.sndNxt s.sndUna / 2) (mul32 2 s.mss)

/-- Fast retransmit: enter recovery. -/
def enterRecovery (s : PseudoTcp) : PseudoTcp :=
  { s with
    recover := s.sndNxt
    ssthresh := s.lossThreshold
    cwnd := add32 s.lossThreshold (mul32 3 s.mss) }

/-- One more duplicate acknowledgement. -/
def countDupAck (s : PseudoTcp) : PseudoTcp :=
  { s with dupAcks := add8 s.dupAcks 1 }

/-- One more duplicate acknowledgement during recovery. -/
def inflateWindow (s : PseudoTcp) : PseudoTcp :=
  { s with cwnd := add32 s.cwnd s.mss }

/-- An acknowledgement of new data; false when it closes the connection. -/
def processNewAck (s : PseudoTcp) (seg : Segment) (now : Nat) : Bool × PseudoTcp :=
  let nAcked := sub32 seg.ack s.sndUna
  let s := (s.updateRtt seg now).acknowledge seg now
  if 3 ≤ s.dupAcks then
    if s.recover ≤ s.sndUna then
      (true, s.exitRecovery)
    else
      match s.transmit 0 now with
      | (false, s) => (false, s.closedown .connAborted)
      | (true, s) => (true, s.partialAck nAcked)
  else (true, s.growWindow)

/-- An acknowledgement of nothing new; false when it closes the connection. -/
def processDupAck (s : PseudoTcp) (seg : Segment) (now : Nat) : Bool × PseudoTcp :=
  -- How else does a closed window become open?
  let s := { s with sndWnd := s.window seg }
  if 0 < seg.len then
    (true, s)
  else if s.sndUna ≠ s.sndNxt then
    let s := s.countDupAck
    if s.dupAcks = 3 then
      match s.transmit 0 now with
      | (false, s) => (false, s.closedown .connAborted)
      | (true, s) => (true, s.enterRecovery)
    else if 3 < s.dupAcks then
      (true, s.inflateWindow)
    else (true, s)
  else (true, { s with dupAcks := 0 })

def processAck (s : PseudoTcp) (seg : Segment) (now : Nat) : Bool × PseudoTcp :=
  if s.valuable seg.ack then s.processNewAck seg now
  else if seg.ack = s.sndUna then s.processDupAck seg now
  else (true, s)

/-- The first segment that is not a connect message ends the handshake. -/
def finishHandshake (s : PseudoTcp) (bConnect : Bool) : PseudoTcp :=
  if s.state = .synReceived ∧ ¬ bConnect then
    ({ s with state := .established }).adjustMTU.onTcpOpen
  else s

/-- If we make room in the send queue, notify the user. -/
def notifyWriteable (s : PseudoTcp) : PseudoTcp :=
  let kIdealRefillSize := add32 s.sbufLen s.rbufLen / 2
  if s.bWriteEnable ∧ toWord s.sbuf.getBuffered < kIdealRefillSize then
    { s with bWriteEnable := false }.onTcpWriteable
  else s

/-- Which acknowledgement a segment calls for by its position alone. -/
def ackFlags (s : PseudoTcp) (seg : Segment) : SendFlags :=
  if seg.seq ≠ s.rcvNxt then .immediateAck
  else if seg.len ≠ 0 then
    if s.ackDelay = 0 then .immediateAck else .delayedAck
  else .none

/-- Control data, and all data after a close, is not for the application. -/
def ignoresData (s : PseudoTcp) (seg : Segment) : Bool :=
  seg.flags &&& flagCtl ≠ 0 ∨ s.shutdown ≠ .none

def processData (s : PseudoTcp) (seg : Segment) : PseudoTcp :=
  let sflags := s.ackFlags seg
  let received := s.toIncoming.receive (s.adjust seg) (s.ignoresData seg)
  let s := { s with toIncoming := received.incoming }
  let s := s.attemptSend (if received.recovered then .immediateAck else sflags)
  if received.newData ∧ s.bReadEnable then
    { s with bReadEnable := false }.onTcpReadable
  else s

/-- Traffic has come in. -/
def noteReceipt (s : PseudoTcp) (now : Nat) : PseudoTcp :=
  { s with lastTraffic := now, lastRecv := now, bOutgoing := false }

/-- The part of `process` before the acknowledgement is looked at. Nothing
stands for a segment that goes no further; otherwise the values are `bConnect`
and `now`. -/
def processHeader (s : PseudoTcp) (seg : Segment) : Option (Bool × Nat) × PseudoTcp :=
  if seg.conv ≠ s.conv then
    (none, s)
  else
    let (now, s) := s.now
    let s := s.noteReceipt now
    if s.state = .closed then
      (none, s)
    else if seg.flags &&& flagRst ≠ 0 then
      (none, s.closedown .connReset)
    else
      match s.processControl seg with
      | (none, s) => (none, s)
      | (some bConnect, s) => (some (bConnect, now), s.updateTimestamp seg)

def process (s : PseudoTcp) (seg : Segment) : Bool × PseudoTcp :=
  match s.processHeader seg with
  | (none, s) => (false, s)
  | (some (bConnect, now), s) =>
      match s.processAck seg now with
      | (false, s) => (false, s)
      | (true, s) => (true, (s.finishHandshake bConnect).notifyWriteable.processData seg)

/-! ## Where a segment acts

The states in which `process` comes to the options, the acknowledgement and the
data of a segment, and in which it adjusts the segment size. -/

def atOptions (s : PseudoTcp) (seg : Segment) : Option PseudoTcp :=
  if seg.conv = s.conv ∧ s.state ≠ .closed ∧ seg.flags &&& flagRst = 0 ∧
      seg.flags &&& flagCtl ≠ 0 ∧ seg.len ≠ 0 ∧ seg.data 0 = ctlConnect then
    some (s.now.2.noteReceipt s.now.1)
  else none

def atAck (s : PseudoTcp) (seg : Segment) : Option PseudoTcp :=
  match s.processHeader seg with
  | (none, _) => none
  | (some _, s) => some s

def atData (s : PseudoTcp) (seg : Segment) : Option PseudoTcp :=
  match s.processHeader seg with
  | (none, _) => none
  | (some (bConnect, now), s) =>
      match s.processAck seg now with
      | (false, _) => none
      | (true, s) => some (s.finishHandshake bConnect).notifyWriteable

inductive AdjustsAt (s : PseudoTcp) (seg : Segment) : PseudoTcp → Prop where
  | control {t : PseudoTcp} (options : s.atOptions seg = some t)
      (opening : (t.parseOptions (fun index => seg.data (index + 1)) (seg.len - 1)).state =
        .synSent) :
      AdjustsAt s seg
        { t.parseOptions (fun index => seg.data (index + 1)) (seg.len - 1) with
          state := .established }
  | handshake {now : Nat} {t u : PseudoTcp}
      (header : s.processHeader seg = (some (false, now), t))
      (ack : t.processAck seg now = (true, u)) (opening : u.state = .synReceived) :
      AdjustsAt s seg { u with state := .established }

end PseudoTcp

end Libjingle

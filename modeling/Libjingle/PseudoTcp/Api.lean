import Libjingle.PseudoTcp.Process

/-!
# The public interface

`Connect`, `NotifyMTU`, `NotifyClock`, `NotifyPacket`, the buffer options, and
runs: a run is a list of calls, each with the environment it meets. A call that
the header forbids in the present state (a buffer option after `Connect`) does
not occur in a run.
-/

namespace Libjingle

open Libjingle.Std
open Libjingle.Base

namespace PseudoTcp

def disableWindowScale (s : PseudoTcp) : PseudoTcp :=
  { s with supportWndScale := false }

def connect (s : PseudoTcp) : PseudoTcp :=
  if s.state ≠ .listen then
    { s with error := .inval }
  else
    ({ s with state := .synSent }.queueConnectMessage).attemptSend .none

def notifyMTU (s : PseudoTcp) (mtu : UInt16) : PseudoTcp :=
  let s := { s with mtuAdvise := mtu.toNat }
  if s.state = .established then s.adjustMTU else s

/-- The window and timer after a retransmission that the clock caused. -/
def backOff (s : PseudoTcp) (now : Nat) : PseudoTcp :=
  -- The limit is lower when connecting.
  let rtoLimit :=
    if s.state = .established ∨ s.state = .closed then maxRto else defRto
  { s with
    ssthresh := s.lossThreshold
    cwnd := s.mss
    rxRto := min rtoLimit (mul32 s.rxRto 2)
    rtoBase := now }

/-- Check if it's time to retransmit a segment; false when that closes the
connection. -/
def retransmitClock (s : PseudoTcp) (now : Nat) : Bool × PseudoTcp :=
  if s.rtoBase ≠ 0 ∧ timeDiff (add32 s.rtoBase s.rxRto) now ≤ 0 ∧ s.slist ≠ [] then
    match s.transmit 0 now with
    | (false, s) => (false, s.closedown .connAborted)
    | (true, s) => (true, s.backOff now)
  else (true, s)

/-- Check if it's time to probe closed windows; false when that closes the
connection. -/
def probeClock (s : PseudoTcp) (now : Nat) : Bool × PseudoTcp :=
  if s.sndWnd = 0 ∧ timeDiff (add32 s.lastSend s.rxRto) now ≤ 0 then
    if 15000 ≤ timeDiff now s.lastRecv then
      (false, s.closedown .connAborted)
    else
      let s := (s.packet (sub32 s.sndNxt 1) 0 0 0).2
      (true, { s with lastSend := now, rxRto := min maxRto (mul32 s.rxRto 2) })
  else (true, s)

/-- Check if it's time to send delayed acks. -/
def ackClock (s : PseudoTcp) (now : Nat) : PseudoTcp :=
  if s.tAck ≠ 0 ∧ timeDiff (add32 s.tAck s.ackDelay) now ≤ 0 then
    (s.packet s.sndNxt 0 0 0).2
  else s

def notifyClock (s : PseudoTcp) (now : UInt32) : PseudoTcp :=
  if s.state = .closed then s
  else
    match s.retransmitClock now.toNat with
    | (false, s) => s
    | (true, s) =>
        match s.probeClock now.toNat with
        | (false, s) => s
        | (true, s) => s.ackClock now.toNat

/-- The header fields and the payload of a packet. The fields are read, and the
payload length computed, whatever the size of the packet is. -/
def segmentOf (buffer : Memory UInt8) (size : Nat) : Segment where
  conv := bytesToLong buffer 0
  seq := bytesToLong buffer 4
  ack := bytesToLong buffer 8
  flags := (buffer 13).toNat
  wnd := bytesToShort buffer 14
  tsval := bytesToLong buffer 16
  tsecr := bytesToLong buffer 20
  data := fun index => buffer (headerSize + index)
  len := sub32 size headerSize

def parse (s : PseudoTcp) (buffer : Memory UInt8) (size : Nat) : Bool × PseudoTcp :=
  if size < 12 then (false, s) else s.process (segmentOf buffer size)

def notifyPacket (s : PseudoTcp) (buffer : Memory UInt8) (len : Nat) : Bool × PseudoTcp :=
  if maxPacket < len then (false, s) else s.parse buffer len

/-- The least of a timeout and the time until a clock value, as `int32`. -/
private def earlier (timeout : Int) (clock now : Nat) : Int :=
  min timeout (timeDiff clock now)

/-- `GetNextClock`: when `NotifyClock` should be called next; nothing when the
socket is ready to be destroyed. -/
def getNextClock (s : PseudoTcp) (now : Nat) : Option Int :=
  if s.shutdown = .forceful then none
  else if s.shutdown = .graceful ∧
      (s.state ≠ .established ∨ (s.sbuf.getBuffered = 0 ∧ s.tAck = 0)) then none
  else if s.state = .closed then some 60000
  else
    let timeout : Int := 4000
    let timeout := if s.tAck ≠ 0 then earlier timeout (add32 s.tAck s.ackDelay) now else timeout
    let timeout := if s.rtoBase ≠ 0 then earlier timeout (add32 s.rtoBase s.rxRto) now else timeout
    some (if s.sndWnd = 0 then earlier timeout (add32 s.lastSend s.rxRto) now else timeout)

/-- The socket is ready to be destroyed. -/
def Discarded (s : PseudoTcp) : Prop :=
  s.shutdown = .forceful ∨ (s.shutdown = .graceful ∧
    (s.state ≠ .established ∨ (s.sbuf.getBuffered = 0 ∧ s.tAck = 0)))

/-- A timer that runs, and its deadline. -/
inductive Pending (s : PseudoTcp) : Nat → Prop where
  | ack (delayed : s.tAck ≠ 0) : Pending s (add32 s.tAck s.ackDelay)
  | retransmission (on : s.rtoBase ≠ 0) : Pending s (add32 s.rtoBase s.rxRto)
  | probe (shut : s.sndWnd = 0) : Pending s (add32 s.lastSend s.rxRto)

theorem getNextClock_discarded {s : PseudoTcp} (discarded : s.Discarded) (now : Nat) :
    s.getNextClock now = none := by
  unfold getNextClock
  rcases discarded with forceful | graceful
  · rw [if_pos forceful]
  · rw [if_neg (by rw [graceful.1]; decide), if_pos graceful]

/-- While the connection is open the timeout is the least of the default and of the times until the
deadlines. -/
theorem getNextClock_spec {s : PseudoTcp} (wanted : ¬ s.Discarded) (isOpen : s.state ≠ .closed)
    (now : Nat) : ∃ timeout, s.getNextClock now = some timeout ∧ timeout ≤ 4000 ∧
      (∀ deadline, s.Pending deadline → timeout ≤ timeDiff deadline now) ∧
      (timeout = 4000 ∨ ∃ deadline, s.Pending deadline ∧ timeout = timeDiff deadline now) := by
  unfold getNextClock
  rw [if_neg fun forceful => wanted (.inl forceful), if_neg fun graceful => wanted (.inr graceful),
    if_neg isOpen]
  refine ⟨_, rfl, ?_, ?_, ?_⟩
  · unfold earlier
    split <;> split <;> split <;> omega
  · rintro deadline (delayed | on | shut)
    · unfold earlier
      rw [if_pos delayed]
      split <;> split <;> omega
    · unfold earlier
      rw [if_pos on]
      split <;> split <;> omega
    · unfold earlier
      rw [if_pos shut]
      omega
  · -- The first timeout is the default, and each timer that runs keeps it or sets its own.
    have set : ∀ {timeout : Int} {deadline : Nat}, s.Pending deadline →
        (timeout = 4000 ∨ ∃ deadline, s.Pending deadline ∧ timeout = timeDiff deadline now) →
        (earlier timeout deadline now = 4000 ∨
          ∃ other, s.Pending other ∧ earlier timeout deadline now = timeDiff other now) := by
      intro timeout deadline pending kept
      unfold earlier
      rcases Int.le_total timeout (timeDiff deadline now) with earlier | later
      · rw [Int.min_eq_left earlier]
        exact kept
      · exact .inr ⟨deadline, pending, Int.min_eq_right later⟩
    have keep : ∀ {p : Prop} [Decidable p] {timeout : Int} {deadline : Nat},
        (p → s.Pending deadline) →
        (timeout = 4000 ∨ ∃ deadline, s.Pending deadline ∧ timeout = timeDiff deadline now) →
        ((if p then earlier timeout deadline now else timeout) = 4000 ∨ ∃ other,
          s.Pending other ∧ (if p then earlier timeout deadline now else timeout) =
            timeDiff other now) := by
      intro p _ timeout deadline pending kept
      split
      · next runs => exact set (pending runs) kept
      · exact kept
    exact keep .probe (keep .retransmission (keep .ack (.inl rfl)))

/-! ## Runs -/

inductive ApiCall where
  | app (call : AppCall)
  | connect
  | notifyMTU (mtu : UInt16)
  | notifyClock (now : UInt32)
  | notifyPacket (buffer : Memory UInt8) (len : Nat)
  /-- `SetOption(OPT_SNDBUF, ...)`. -/
  | setSndBuf (size : UInt32)
  /-- `SetOption(OPT_RCVBUF, ...)`. -/
  | setRcvBuf (size : UInt32)
  | disableWindowScale

/-- An environment in which the clock stands still, the network takes every
packet and no callback calls back. -/
def Environment.silent : Environment where
  clock := []
  results := []
  onTcpOpen := []
  onTcpReadable := []
  onTcpWriteable := []
  memory := fun _ => 0

/-- The bytes of a packet for conversation zero. -/
def packetBytes (seq ack flags wnd : Nat) (payload : List UInt8) : List UInt8 :=
  longToBytes 0 ++ longToBytes seq ++ longToBytes ack ++ [0, UInt8.ofNat flags] ++
    shortToBytes wnd ++ longToBytes 0 ++ longToBytes 0 ++ payload

/-- The arrival of such a packet. -/
def ApiCall.arrival (bytes : List UInt8) : ApiCall :=
  .notifyPacket (FifoBuffer.pointer bytes) bytes.length

/-- The precondition of the buffer options. -/
def Permits (s : PseudoTcp) : ApiCall → Prop
  | .setSndBuf _ | .setRcvBuf _ => s.state = .listen
  | _ => True

/-- A call meets the environment it is made in. -/
def meet (s : PseudoTcp) (environment : Environment) : PseudoTcp :=
  { s with notify := { s.notify with toEnvironment := environment } }

def run (s : PseudoTcp) : ApiCall → PseudoTcp
  | .app call => s.appCall call
  | .connect => s.connect
  | .notifyMTU mtu => s.notifyMTU mtu
  | .notifyClock now => s.notifyClock now
  | .notifyPacket buffer len => (s.notifyPacket buffer len).2
  | .setSndBuf size => s.resizeSendBuffer size.toNat
  | .setRcvBuf size => s.resizeReceiveBuffer size.toNat
  | .disableWindowScale => s.disableWindowScale

/-- One call in its environment. -/
def step (s : PseudoTcp) (environment : Environment) (call : ApiCall) : PseudoTcp :=
  (s.meet environment).run call

/-- The states that `s` reaches through calls that all satisfy `Ok`, a condition
on the state before a call, the environment and the call. -/
inductive Runs (Ok : PseudoTcp → Environment → ApiCall → Prop) (s : PseudoTcp) :
    PseudoTcp → Prop where
  | start : Runs Ok s s
  | step {t : PseudoTcp} (run : Runs Ok s t) (environment : Environment) (call : ApiCall)
      (permitted : t.Permits call) (ok : Ok t environment call) :
      Runs Ok s (t.step environment call)

/-- Calls one after another in a silent environment. -/
def runAll (s : PseudoTcp) : List ApiCall → PseudoTcp
  | [] => s
  | call :: rest => (s.step .silent call).runAll rest

/-- Every call of such a run is permitted and satisfies `Ok`. -/
def AllOk (Ok : PseudoTcp → Environment → ApiCall → Prop) (s : PseudoTcp) : List ApiCall → Prop
  | [] => True
  | call :: rest =>
      s.Permits call ∧ Ok s .silent call ∧ AllOk Ok (s.step .silent call) rest

theorem Runs.trans {Ok : PseudoTcp → Environment → ApiCall → Prop} {s t u : PseudoTcp}
    (first : Runs Ok s t) (second : Runs Ok t u) : Runs Ok s u := by
  induction second with
  | start => exact first
  | step _ environment call permitted ok ih => exact ih.step environment call permitted ok

theorem AllOk.runs {Ok : PseudoTcp → Environment → ApiCall → Prop} {s : PseudoTcp}
    {calls : List ApiCall} (ok : AllOk Ok s calls) : Runs Ok s (s.runAll calls) := by
  induction calls generalizing s with
  | nil => exact .start
  | cons call rest ih =>
    exact (Runs.start.step .silent call ok.1 ok.2.1).trans (ih ok.2.2)

/-- The states that a new connection reaches. -/
def Reachable (Ok : PseudoTcp → Environment → ApiCall → Prop) (s : PseudoTcp) : Prop :=
  ∃ conv now environment rcvMemory sndMemory,
    Runs Ok (new conv now environment rcvMemory sndMemory) s

/-- A new connection for conversation zero. -/
def fresh : PseudoTcp :=
  new 0 0 .silent (fun _ => 0) (fun _ => 0)

theorem AllOk.reachable {Ok : PseudoTcp → Environment → ApiCall → Prop} {calls : List ApiCall}
    (ok : AllOk Ok fresh calls) : Reachable Ok (fresh.runAll calls) :=
  ⟨_, _, _, _, _, ok.runs⟩

/-- The calls that establish a connection with a peer that scales windows. -/
def opening : List ApiCall :=
  [.connect, .arrival (packetBytes 0 4 flagCtl 61440 [0, 3, 1, 0])]

/-- The call brings a segment in: a packet that is neither too short nor too long. -/
def ApiCall.Brings (call : ApiCall) (seg : Segment) : Prop :=
  ∃ buffer len, call = .notifyPacket buffer len ∧ 12 ≤ len ∧ len ≤ maxPacket ∧
    seg = segmentOf buffer len

end PseudoTcp

end Libjingle

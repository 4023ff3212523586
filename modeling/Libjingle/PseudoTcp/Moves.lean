import Mathlib.Logic.Relation
import Libjingle.PseudoTcp.Api

/-!
# What a connection can do

Every call is a sequence of `Move`s: writing a packet, splitting or marking a
segment, taking an acknowledgement, taking data in, and so on. A move carries
the guard under which the code makes it. An invariant is then proved once for
each move, never by going through the functions again.

`Admission` says what is assumed about the outside: about an incoming segment at
the points where `process` lets it act, and about the calls that only some runs
contain.
-/

namespace Libjingle

open Libjingle.Std
open Libjingle.Base

namespace PseudoTcp

/-- The calls an application makes from inside the callbacks. -/
def scripts (s : PseudoTcp) : List AppCall :=
  s.notify.onTcpOpen ++ s.notify.onTcpReadable ++ s.notify.onTcpWriteable

/-- The two states differ in timers, options and what was logged at most. -/
structure Frame (s t : PseudoTcp) : Prop where
  incoming : t.toIncoming = s.toIncoming
  outgoing : t.toOutgoing = s.toOutgoing
  congestion : t.toCongestion = s.toCongestion
  state : t.state = s.state
  conv : t.conv = s.conv
  shutdown : t.shutdown = s.shutdown
  supportWndScale : t.supportWndScale = s.supportWndScale
  scripts : t.scripts = s.scripts

/-- The two states differ in timers, options and notifications at most. -/
structure SameCore (s t : PseudoTcp) : Prop extends Frame s t where
  history : t.history = s.history

namespace SameCore

theorem refl (s : PseudoTcp) : SameCore s s :=
  { incoming := rfl, outgoing := rfl, congestion := rfl, state := rfl, conv := rfl,
    shutdown := rfl, supportWndScale := rfl, scripts := rfl, history := rfl }

theorem trans {s t u : PseudoTcp} (first : SameCore s t) (second : SameCore t u) :
    SameCore s u where
  incoming := second.incoming.trans first.incoming
  outgoing := second.outgoing.trans first.outgoing
  congestion := second.congestion.trans first.congestion
  state := second.state.trans first.state
  conv := second.conv.trans first.conv
  shutdown := second.shutdown.trans first.shutdown
  supportWndScale := second.supportWndScale.trans first.supportWndScale
  scripts := second.scripts.trans first.scripts
  history := second.history.trans first.history

end SameCore

/-! ## The clock and the network's answers -/

theorem now_same (s : PseudoTcp) : SameCore s s.now.2 := by
  simp only [now]
  split
  · exact .refl s
  · exact { SameCore.refl s with }

theorem nextResult_same (s : PseudoTcp) : SameCore s s.nextResult.2 := by
  simp only [nextResult]
  split
  · exact .refl s
  · exact { SameCore.refl s with }

/-! ## One packet -/

/-- What one call of `packet` does: it logs a call with these arguments, whose
payload is what the send buffer holds there and whose header shows the receive
side, and changes nothing else of the core. -/
structure PacketSpec (s : PseudoTcp) (seq flags offset len : Nat) (call : PacketCall)
    (t : PseudoTcp) : Prop extends Frame s t where
  history : t.history = .packet call :: s.history
  seqOf : call.seq = seq
  flagsOf : call.flags = flags
  offsetOf : call.offset = offset
  lenOf : call.len = len
  payload : call.payload = if len = 0 then [] else (s.sbuf.readOffset len offset).2
  buffer : ∃ now tsRecent rest, call.buffer =
    longToBytes s.conv ++ longToBytes seq ++ longToBytes s.rcvNxt ++ [0, UInt8.ofNat flags] ++
      shortToBytes (s.rcvWnd >>> s.rwndScale) ++ longToBytes now ++ longToBytes tsRecent ++
      call.payload ++ rest ∧ rest.length = len - call.payload.length

/-- `packet` logs one call; only a packet with data reports a failure. -/
theorem packet_spec (s : PseudoTcp) (seq flags offset len : Nat) :
    ∃ call, PacketSpec s seq flags offset len call (s.packet seq flags offset len).2 ∧
      (s.packet seq flags offset len).1 = if len = 0 then .success else call.result := by
  obtain ⟨now, clocked, read⟩ : ∃ now t, s.now = (now, t) := ⟨_, _, rfl⟩
  have same : SameCore s clocked := by simpa [read] using now_same s
  let header := clocked.headerBytes now seq flags
  let stamped : PseudoTcp := { clocked with tsLastAck := clocked.rcvNxt }
  let payload := if len = 0 then [] else (stamped.sbuf.readOffset len offset).2
  let rest := stamped.notify.memory.slice 0 (len - payload.length)
  obtain ⟨result, answered, answer⟩ : ∃ result t, stamped.nextResult = (result, t) :=
    ⟨_, _, rfl⟩
  have sameAnswer : SameCore stamped answered := by simpa [answer] using nextResult_same stamped
  have sameStamp : SameCore s stamped := same.trans { SameCore.refl clocked with }
  have whole := sameStamp.trans sameAnswer
  let call : PacketCall :=
    ⟨seq, flags, offset, len, payload, header ++ payload ++ rest, result⟩
  have logged : PacketSpec s seq flags offset len call (answered.record (.packet call)) := {
    whole.toFrame with
    history := congrArg (Event.packet call :: ·) whole.history
    seqOf := rfl
    flagsOf := rfl
    offsetOf := rfl
    lenOf := rfl
    payload := by simp only [call, payload]; rw [sameStamp.outgoing]
    buffer := by
      refine ⟨now, clocked.tsRecent, rest, ?_, by simp [call, rest]⟩
      simp only [call, header, headerBytes, same.incoming, same.conv, List.append_assoc] }
  have shape : s.packet seq flags offset len =
      if result ≠ .success ∧ len ≠ 0 then (result, answered.record (.packet call))
      else (.success, { answered.record (.packet call) with
        tAck := 0
        lastSend := if 0 < len then now else answered.lastSend
        lastTraffic := now
        bOutgoing := true }) := by
    simp only [packet, read]
    rw [show PseudoTcp.nextResult _ = (result, answered) from answer]
    rfl
  refine ⟨call, ?_, ?_⟩
  · rw [shape]
    split
    · exact logged
    · exact { logged with }
  · rw [shape]
    by_cases bare : len = 0
    · simp [bare]
    · by_cases fine : result = .success
      · simp [fine, call]
      · simp [bare, fine, call]

/-! ## Round-trip time and options -/

theorem updateRtt_same (s : PseudoTcp) (seg : Segment) (now : Nat) :
    SameCore s (s.updateRtt seg now) := by
  cases s
  simp only [updateRtt]
  split
  · split <;> exact { SameCore.refl _ with }
  · exact .refl _

/-- The option list sets at most the scale of the peer's window. -/
theorem parseOptionsLoop_spec (data : Memory UInt8) (fuel : Nat) (s : PseudoTcp)
    (position length : Nat) (seen : List UInt8) :
    ∃ scale, (s.parseOptionsLoop data fuel position length seen).2.2 =
      { s with swndScale := scale } := by
  induction fuel generalizing s position length seen with
  | zero => exact ⟨_, rfl⟩
  | succ fuel ih =>
    simp only [parseOptionsLoop]
    split
    · exact ⟨_, rfl⟩
    · split
      · exact ⟨_, rfl⟩
      · split
        · exact ih _ _ _ _
        · generalize (if length = 1 then 0 else (data (position + 1)).toNat) = optLen
          split
          · obtain ⟨scale, result⟩ := ih (s.applyOption _ _ _) _ _ _
            refine ⟨scale, result.trans ?_⟩
            simp only [applyOption]
            split <;> rfl
          · exact ⟨_, rfl⟩

/-- Options set the scale of the peer's window; without the scale option, a
receive buffer that needs scaling goes back to its default size. -/
theorem parseOptions_spec (s : PseudoTcp) (data : Memory UInt8) (len : Nat) :
    (∃ scale, s.parseOptions data len = { s with swndScale := scale }) ∨
      (s.Reverts data len ∧ s.parseOptions data len =
        { s.resizeReceiveBuffer defaultRcvBufSize with swndScale := 0 }) := by
  obtain ⟨scale, result⟩ := parseOptionsLoop_spec data len s 0 len []
  unfold parseOptions
  split
  · next t parsed => exact .inl ⟨scale, by rw [parsed] at result; exact result⟩
  · next seen t parsed =>
    rw [parsed] at result
    simp only at result
    subst result
    split
    · next revert => exact .inr ⟨⟨by rw [parsed], by rw [parsed]; exact revert.1, revert.2⟩, rfl⟩
    · exact .inl ⟨scale, rfl⟩

/-! ## Moves -/

/-- What is assumed about the outside. The predicates on a segment speak about
the state in which `process` comes to it. -/
structure Admission where
  /-- A CONNECT message whose options are about to be applied. -/
  options : PseudoTcp → Segment → Prop
  /-- A segment whose acknowledgement is about to be examined. -/
  ack : PseudoTcp → Segment → Prop
  /-- A segment whose data is about to be taken in. -/
  data : PseudoTcp → Segment → Prop
  /-- A state in which `adjustMTU` is about to run. -/
  adjust : PseudoTcp → Prop
  /-- An MTU that is advised. -/
  advise : Nat → Prop
  sndBuf : PseudoTcp → Nat → Prop
  rcvBuf : PseudoTcp → Nat → Prop
  close : Prop
  unscale : Prop
  /-- No sum for the congestion window comes out as zero. -/
  roomy : Prop

/-- Everything may happen. -/
def Admission.all : Admission where
  options _ _ := True
  ack _ _ := True
  data _ _ := True
  adjust _ := True
  advise _ := True
  sndBuf _ _ := True
  rcvBuf _ _ := True
  close := True
  unscale := True
  roomy := False

/-- A segment of the send list is transmitted again. -/
def Retransmits (s : PseudoTcp) (index : Nat) : Prop :=
  index = 0 ∧ (s.rtoBase ≠ 0 ∨ s.sndUna ≠ s.sndNxt ∨ s.sndUna < s.recover)

/-- The first untransmitted segment is transmitted: there are unsent bytes, and
the peer's window has room for it. -/
def TransmitsNew (s : PseudoTcp) (index : Nat) (seg : SSegment) : Prop :=
  s.slist.findIdx? (fun g => g.xmit = 0) = some index ∧
    0 < sub32 s.sbuf.getBuffered (sub32 s.sndNxt s.sndUna) ∧
    sub32 s.sndNxt s.sndUna + seg.len ≤ s.sndWnd

/-- `transmit` may be called for the segment at `index`. -/
structure Attempt (s : PseudoTcp) (index : Nat) (seg : SSegment) : Prop where
  found : s.slist[index]? = some seg
  few : seg.xmit < 30
  reason : s.Retransmits index ∨ s.TransmitsNew index seg

/-- A packet with the beginning of a segment, as much as the segment size allows. -/
def PacketOf (s : PseudoTcp) (seg : SSegment) (call : PacketCall) (t : PseudoTcp) : Prop :=
  PacketSpec s seg.seq (if seg.bCtrl then flagCtl else 0) (sub32 seg.seq s.sndUna)
    (min seg.len s.mss) call t

/-- What the congestion window grows by in slow start and in congestion avoidance. -/
def growth (s : PseudoTcp) : Nat :=
  if s.cwnd < s.ssthresh then s.mss else max 1 (mul32 s.mss s.mss / s.cwnd)

/-- The moves that change the congestion state only. -/
inductive CongestionMove (policy : Admission) (s : PseudoTcp) : PseudoTcp → Prop where
  | lowered (more : packetMaximums.getD (s.mssLevel + 1) 0 ≠ 0) :
      CongestionMove policy s s.lowerMss
  | idle : CongestionMove policy s { s with cwnd := s.mss }
  | exited (room : policy.roomy → 0 < s.ssthresh ∧ sub32 s.sndNxt s.sndUna + s.mss ≠ 2 ^ 32) :
      CongestionMove policy s s.exitRecovery
  | partly (nAcked : Nat)
      (room : policy.roomy → s.cwnd + s.mss - min nAcked s.cwnd ≠ 2 ^ 32) :
      CongestionMove policy s (s.partialAck nAcked)
  | grew (room : policy.roomy → s.cwnd + s.growth ≠ 2 ^ 32) :
      CongestionMove policy s s.growWindow
  | counted : CongestionMove policy s s.countDupAck
  | restarted : CongestionMove policy s { s with dupAcks := 0 }
  | entered : CongestionMove policy s s.enterRecovery
  | inflated (room : policy.roomy → s.cwnd + s.mss ≠ 2 ^ 32) :
      CongestionMove policy s s.inflateWindow
  | backedOff (now : Nat) (armed : s.rtoBase ≠ 0) : CongestionMove policy s (s.backOff now)
  | adjusted (admitted : policy.adjust s) : CongestionMove policy s s.adjustMTU
  | advised (mtu : UInt16) (admitted : policy.advise mtu.toNat) :
      CongestionMove policy s { s with mtuAdvise := mtu.toNat }

/-- What a change of the congestion state leaves alone. -/
structure CongestionFrame (s t : PseudoTcp) : Prop where
  incoming : t.toIncoming = s.toIncoming
  outgoing : t.toOutgoing = s.toOutgoing
  state : t.state = s.state
  conv : t.conv = s.conv
  shutdown : t.shutdown = s.shutdown
  supportWndScale : t.supportWndScale = s.supportWndScale
  notify : t.notify = s.notify

theorem CongestionMove.frame {policy : Admission} {s t : PseudoTcp}
    (change : CongestionMove policy s t) : CongestionFrame s t := by
  cases s
  cases change <;>
    constructor <;>
    simp only [lowerMss, exitRecovery, partialAck, growWindow, countDupAck, enterRecovery,
      inflateWindow, backOff, adjustMTU]

/-- One move of a connection. -/
inductive Move (policy : Admission) (s : PseudoTcp) : PseudoTcp → Prop where
  | keep {t : PseudoTcp} (same : SameCore s t) : Move policy s t
  | congested {t : PseudoTcp} (change : CongestionMove policy s t) : Move policy s t
  /-- A packet without data. -/
  | acked {seq : Nat} {call : PacketCall} {t : PseudoTcp}
      (spec : PacketSpec s seq 0 0 0 call t) : Move policy s t
  /-- A packet with data that the network did not take. -/
  | refused {index : Nat} {seg : SSegment} {call : PacketCall} {t : PseudoTcp}
      (attempt : Attempt s index seg) (spec : PacketOf s seg call t)
      (failed : call.result ≠ .success) : Move policy s t
  /-- A packet with data that the network took, and its segment marked. -/
  | transmitted {index now : Nat} {seg : SSegment} {call : PacketCall} {t : PseudoTcp}
      (attempt : Attempt s index seg) (spec : PacketOf s seg call t)
      (taken : call.len = 0 ∨ call.result = .success) :
      Move policy s (t.markTransmitted index (min seg.len s.mss) now)
  | carved {index n : Nat}
      (first : s.slist.findIdx? (fun g => g.xmit = 0) = some index) (positive : 0 < n) :
      Move policy s { s with toOutgoing := s.toOutgoing.carve index n }
  | queued (data : List UInt8) (established : s.state = .established) :
      Move policy s (s.queue data (toWord data.length) false).2
  /-- The connect message is queued, in answer to a call or to a segment. -/
  | began {state : TcpState} (listening : s.state = .listen)
      (opening : state = .synSent ∨ state = .synReceived) :
      Move policy s { s with state := state }.queueConnectMessage
  | established (opening : s.state = .synSent ∨ s.state = .synReceived) :
      Move policy s { s with state := .established }
  | closed : Move policy s { s with state := .closed }
  | acknowledged {seg : Segment} {now : Nat} (valuable : s.valuable seg.ack)
      (admitted : policy.ack s seg) : Move policy s ((s.updateRtt seg now).acknowledge seg now)
  | windowed {seg : Segment} (current : seg.ack = s.sndUna) (admitted : policy.ack s seg) :
      Move policy s { s with sndWnd := s.window seg }
  | optioned {seg : Segment} (admitted : policy.options s seg) :
      Move policy s (s.parseOptions (fun index => seg.data (index + 1)) (seg.len - 1))
  | received {seg : Segment} (admitted : policy.data s seg) :
      Move policy s { s with
        toIncoming := (s.toIncoming.receive (s.adjust seg) (s.ignoresData seg)).incoming }
  | read {bytes : Nat} {result : StreamResult} {data : List UInt8} {rbuf : FifoBuffer}
      (reads : s.rbuf.read bytes = (result, data, rbuf)) (served : result ≠ .block) :
      Move policy s ({ s with rbuf := rbuf }.record (.received data))
  | opened : Move policy s { s with toIncoming := s.toIncoming.openWindow }
  | closing (shutdown : Shutdown) (admitted : policy.close) :
      Move policy s { s with shutdown := shutdown }
  | resizedSend (size : Nat) (listening : s.state = .listen) (word : size < 2 ^ 32)
      (admitted : policy.sndBuf s size) : Move policy s (s.resizeSendBuffer size)
  | resizedReceive (size : Nat) (listening : s.state = .listen) (word : size < 2 ^ 32)
      (admitted : policy.rcvBuf s size) : Move policy s (s.resizeReceiveBuffer size)
  | unscaled (admitted : policy.unscale) : Move policy s { s with supportWndScale := false }

/-- Any number of moves. -/
abbrev Moves (policy : Admission) : PseudoTcp → PseudoTcp → Prop :=
  Relation.ReflTransGen (Move policy)

/-- The calls that the callbacks will make do not change. -/
theorem Move.scripts_eq {policy : Admission} {s t : PseudoTcp} (move : Move policy s t) :
    t.scripts = s.scripts := by
  cases move with
  | keep same => exact same.scripts
  | congested change => simp only [scripts, change.frame.notify]
  | acked spec => exact spec.scripts
  | refused _ spec _ => exact spec.scripts
  | transmitted _ spec _ => exact spec.scripts
  | @acknowledged seg now _ _ => exact (updateRtt_same s seg now).scripts
  | @optioned seg _ =>
    obtain ⟨scale, result⟩ | ⟨_, result⟩ :=
      parseOptions_spec s (fun index => seg.data (index + 1)) (seg.len - 1) <;>
      rw [result] <;> rfl
  | _ => rfl

/-- A property that every move keeps is kept by any number of moves. -/
theorem Moves.keeps {policy : Admission} {P : PseudoTcp → Prop} {s t : PseudoTcp}
    (moves : Moves policy s t) (step : ∀ {s t}, Move policy s t → P s → P t) (start : P s) :
    P t := by
  induction moves with
  | refl => exact start
  | tail _ move ih => exact step move ih

end PseudoTcp

end Libjingle

import Libjingle.PseudoTcp.SendQueue

/-!
# The send list tiles the send buffer

In a run in which no acknowledgement falls inside a segment, the segments of the
send list tile the buffered range from `sndUna` on, and every packet carries the
bytes it announces. An acknowledgement inside a segment shortens the segment but
leaves its sequence number behind, which is how the code loses the property.
-/

namespace Libjingle.PseudoTcp

open Libjingle.Std
open Libjingle.Base

/-- The segments tile the buffered bytes, and the transmitted ones are a prefix
that ends at `sndNxt`. -/
structure Tiled (s : PseudoTcp) : Prop where
  chained : Chained s.sndUna s.slist
  buffered : total s.slist = s.sbuf.getBuffered
  sent : ∃ sent unsent, s.slist = sent ++ unsent ∧ (∀ seg ∈ sent, 0 < seg.xmit) ∧
    (∀ seg ∈ unsent, seg.xmit = 0) ∧ s.sndNxt = add32 s.sndUna (total sent)

/-- Every packet that was written carries as many bytes as it announces. -/
def Filled (s : PseudoTcp) : Prop :=
  ∀ call, .packet call ∈ s.history → call.payload.length = call.len

/-- The acknowledgement of a segment, if it acknowledges new data, falls between
two segments of the send list. -/
def AcksWhole (s : PseudoTcp) (seg : Segment) : Prop :=
  s.valuable seg.ack → ¬ Cuts s.slist (sub32 seg.ack s.sndUna)

/-! ## Sequence numbers -/

theorem Queue.chained_cut {o : Outgoing} {sent unsent before after : List SSegment}
    {seg : SSegment} (queue : Queue o sent unsent) (list : o.slist = before ++ seg :: after)
    (chained : Chained o.sndUna o.slist) (n xmit xmit' : Nat) :
    Chained o.sndUna
      (before ++ ({ seg with len := min n seg.len, xmit := xmit } :: leftover seg n xmit') ++
        after) := by
  rw [list] at chained
  exact chained.replace queue.una chained_leftover (total_leftover (queue.len_word list) _ _)

theorem Queue.chained_append {o : Outgoing} {sent unsent : List SSegment}
    (queue : Queue o sent unsent) (chained : Chained o.sndUna o.slist) (n : Nat) (bCtrl : Bool) :
    Chained (o.append n bCtrl).sndUna (o.append n bCtrl).slist := by
  rcases o.append_eq n bCtrl with ⟨before, last, list, _, _, shape⟩ | ⟨_, shape⟩ <;> rw [shape]
  · rw [list, Libjingle.PseudoTcp.chained_append queue.una] at chained
    exact (Libjingle.PseudoTcp.chained_append queue.una).mpr chained
  · refine (Libjingle.PseudoTcp.chained_append queue.una).mpr ⟨chained, ?_⟩
    rw [queue.buffered]
    exact ⟨rfl, trivial⟩

theorem OutgoingMove.chained {policy : Admission} {s : PseudoTcp} {o : Outgoing}
    (invariant : SendInvariant s) (whole : ∀ seg, policy.ack s seg → s.AcksWhole seg)
    (chained : Chained s.sndUna s.slist) (move : OutgoingMove policy s o) :
    Chained o.sndUna o.slist := by
  obtain ⟨sent, unsent, queue⟩ := invariant.queue
  have una := queue.una
  cases move with
  | same => exact chained
  | @marked index seg attempt =>
    obtain ⟨before, after, list, rfl, _⟩ := attempt.split
    rw [Outgoing.mark_eq list]
    simpa using queue.chained_cut list chained (min seg.len s.mss) (add8 seg.xmit 1) seg.xmit
  | carved first _ =>
    obtain ⟨before, seg, after, list, rfl, _⟩ := findIdx?_unsent.mp first
    rw [Outgoing.carve_eq list]
    simpa using queue.chained_cut list chained _ seg.xmit _
  | queued data _ =>
    obtain ⟨sbuf, shape, _⟩ := queue_spec queue.sound data (toWord data.length) false
    rw [shape]
    exact queue.chained_append chained _ false
  | began _ =>
    obtain ⟨sbuf, shape, _⟩ :=
      queue_spec (s := { s with sndWnd := s.connectMessage.length }) queue.sound s.connectMessage
        s.connectMessage.length true
    have opened : Queue { s.toOutgoing with sndWnd := s.connectMessage.length } sent unsent :=
      { queue with }
    rw [shape]
    exact opened.chained_append chained _ true
  | @acknowledged seg valuable admitted =>
    obtain ⟨acked, within, _⟩ := queue.acknowledge valuable.1 valuable.2 0
    have le : sub32 seg.ack s.sndUna ≤ total s.slist := by
      rw [acked, queue.list, total_append]
      omega
    obtain ⟨freed, kept, list, count, result⟩ :=
      freeSegments_whole (whole seg admitted valuable) le 0
    have ackWord : seg.ack < 2 ^ 32 :=
      Nat.lt_of_le_of_lt valuable.2 (queue.next ▸ add32_lt _ _)
    rw [list] at chained
    have rest := ((chained_append una).mp chained).2
    rw [count, add32_sub32 una ackWord] at rest
    simpa only [Outgoing.acknowledge, result] using rest
  | windowed _ _ => exact chained
  | scaled scale => exact chained
  | resized size listening word => exact chained

/-! ## Packets -/

/-- The event that a move logs. -/
inductive Logs (s : PseudoTcp) : Event → Prop where
  | bare {seq : Nat} {call : PacketCall} {t : PseudoTcp} (spec : PacketSpec s seq 0 0 0 call t) :
      Logs s (.packet call)
  | data {index : Nat} {seg : SSegment} {call : PacketCall} {t : PseudoTcp}
      (attempt : Attempt s index seg) (spec : PacketOf s seg call t) : Logs s (.packet call)
  | queued (data : List UInt8) (bCtrl : Bool) : Logs s (.queued data bCtrl)
  | received (data : List UInt8) : Logs s (.received data)

theorem queue_history (s : PseudoTcp) (data : List UInt8) (len : Nat) (bCtrl : Bool) :
    ∃ taken, (s.queue data len bCtrl).2.history = .queued (data.take taken) bCtrl :: s.history :=
  ⟨_, rfl⟩

/-- A move logs at most one event. -/
theorem Move.logs {policy : Admission} {s t : PseudoTcp} (move : Move policy s t) :
    t.history = s.history ∨ ∃ event, t.history = event :: s.history ∧ Logs s event := by
  cases move with
  | keep same => exact .inl same.history
  | congested change => exact .inl (by simp only [history, change.frame.notify])
  | acked spec => exact .inr ⟨_, spec.history, .bare spec⟩
  | refused attempt spec _ => exact .inr ⟨_, spec.history, .data attempt spec⟩
  | transmitted attempt spec _ => exact .inr ⟨_, spec.history, .data attempt spec⟩
  | queued data _ =>
    obtain ⟨taken, more⟩ := queue_history s data (toWord data.length) false
    exact .inr ⟨_, more, .queued _ _⟩
  | @began state _ _ =>
    obtain ⟨taken, more⟩ := queue_history { s with state := state, sndWnd := s.connectMessage.length }
      s.connectMessage s.connectMessage.length true
    exact .inr ⟨_, more, .queued _ _⟩
  | @acknowledged seg now _ _ => exact .inl (updateRtt_same s seg now).history
  | @optioned seg _ =>
    obtain ⟨scale, result⟩ | ⟨_, result⟩ :=
      parseOptions_spec s (fun index => seg.data (index + 1)) (seg.len - 1) <;>
      rw [result] <;> exact .inl rfl
  | read _ _ => exact .inr ⟨_, rfl, .received _⟩
  | _ => exact .inl rfl

/-- The beginning of a segment is where its sequence number says. -/
theorem Attempt.payload {s t : PseudoTcp} {index : Nat} {seg : SSegment} {call : PacketCall}
    {sent unsent : List SSegment} (queue : Queue s.toOutgoing sent unsent)
    (chained : Chained s.sndUna s.slist) (attempt : Attempt s index seg)
    (spec : PacketOf s seg call t) : ∃ before after, s.slist = before ++ seg :: after ∧
      before.length = index ∧ call.offset = total before ∧
      call.payload = (s.sbuf.contents.drop (total before)).take call.len ∧
      call.payload.length = call.len := by
  obtain ⟨before, after, list, length, _⟩ := attempt.split
  have word := queue.total_word
  have bytes := queue.buffered
  rw [list] at word bytes chained
  simp only [total_append, total_cons] at word bytes
  have offset : sub32 seg.seq s.sndUna = total before := by
    rw [chained.seq_eq queue.una]
    exact sub32_add32 queue.una (by omega)
  have callOffset : call.offset = total before := spec.offsetOf.trans offset
  refine ⟨before, after, list, length, callOffset, ?_⟩
  have payload := spec.payload
  rw [offset] at payload
  rw [spec.lenOf]
  by_cases bare : min seg.len s.mss = 0
  · rw [if_pos bare] at payload
    simp [payload, bare]
  · rw [if_neg bare, queue.sound.readOffset (by omega) (by omega)] at payload
    refine ⟨payload, ?_⟩
    simp only [payload, List.length_take, List.length_drop, FifoBuffer.length_contents]
    omega

theorem Filled.move {policy : Admission} {s t : PseudoTcp} (move : Move policy s t)
    (invariant : SendInvariant s) (chained : Chained s.sndUna s.slist) (filled : Filled s) :
    Filled t := by
  obtain ⟨sent, unsent, queue⟩ := invariant.queue
  intro call member
  rcases move.logs with same | ⟨event, more, logs⟩
  · exact filled call (same ▸ member)
  rw [more] at member
  rcases List.mem_cons.mp member with rfl | old
  · cases logs with
    | bare spec => rw [spec.payload, spec.lenOf]; rfl
    | data attempt spec =>
      obtain ⟨_, _, _, _, _, _, length⟩ := attempt.payload queue chained spec
      exact length
  · exact filled call old

/-! ## Runs -/

/-- What every move keeps when no acknowledgement cuts a segment. -/
structure TilingInvariant (s : PseudoTcp) : Prop extends SendInvariant s where
  chained : Chained s.sndUna s.slist
  filled : Filled s

theorem TilingInvariant.move {policy : Admission} {s t : PseudoTcp}
    (whole : ∀ seg, policy.ack s seg → s.AcksWhole seg) (move : Move policy s t)
    (invariant : TilingInvariant s) : TilingInvariant t where
  toSendInvariant := invariant.toSendInvariant.move move
  chained := move.outgoing.chained invariant.toSendInvariant whole invariant.chained
  filled := invariant.filled.move move invariant.toSendInvariant invariant.chained

theorem SendInvariant.new (conv now : UInt32) (environment : Environment)
    (rcvMemory sndMemory : Memory UInt8) :
    SendInvariant (new conv now environment rcvMemory sndMemory) where
  queue := ⟨[], [], {
    list := rfl
    transmitted := by simp
    waiting := by simp
    few := by simp
    una := by simp [PseudoTcp.new]
    next := by simp [PseudoTcp.new, add32]
    buffered := rfl
    sound := .new (by decide) sndMemory }⟩
  listening _ := rfl

theorem TilingInvariant.tiled {s : PseudoTcp} (invariant : TilingInvariant s) : Tiled s where
  chained := invariant.chained
  buffered := by
    obtain ⟨_, _, queue⟩ := invariant.queue
    exact queue.buffered
  sent := by
    obtain ⟨sent, unsent, queue⟩ := invariant.queue
    exact ⟨sent, unsent, queue.list, queue.transmitted, queue.waiting, queue.next⟩

/-- The acknowledgements of a call fall between segments, in the state in which
`process` examines them. -/
def MeetsWholeAcks (s : PseudoTcp) (environment : Environment) (call : ApiCall) : Prop :=
  ∀ seg, call.Brings seg → ∀ t, (s.meet environment).atAck seg = some t → t.AcksWhole seg

/-- In every state that a connection reaches through calls whose acknowledgements
fall between segments, the send list tiles the buffered bytes, and every packet
written so far carried the bytes it announced. -/
theorem sendList_tiles {s : PseudoTcp} (reached : Reachable MeetsWholeAcks s) :
    Tiled s ∧ Filled s := by
  obtain ⟨conv, now, environment, rcvMemory, sndMemory, run⟩ := reached
  have invariant : TilingInvariant s := run.keeps
    (.incoming (fun _ _ => True) AcksWhole (fun _ _ => True) (fun _ _ => True))
    (fun ok _ => grants_incoming
      (fun seg brought t => ⟨fun _ => trivial, ok seg brought t, fun _ => trivial⟩)
      fun _ _ => trivial)
    (fun _ kept => ⟨⟨kept.queue, kept.listening⟩, kept.chained, kept.filled⟩)
    (fun move kept => kept.move (fun _ => id) move)
    ⟨.new _ _ _ _ _, trivial, by simp [Filled, history, PseudoTcp.new]⟩
  exact ⟨invariant.tiled, invariant.filled⟩

/-- A bare acknowledgement up to byte `ack`. -/
private def bareAck (ack : Nat) : List UInt8 :=
  packetBytes 0 ack 0 61440 []

/-- The acknowledgement of the whole connect message. -/
theorem sendList_tiles_connecting :
    Tiled (fresh.runAll [.connect, .arrival (bareAck 4)]) ∧
      Filled (fresh.runAll [.connect, .arrival (bareAck 4)]) := by
  refine sendList_tiles (AllOk.reachable ⟨trivial, ?_, trivial, ?_, trivial⟩)
  · rintro seg ⟨_, _, call, _⟩
    cases call
  · rintro seg ⟨buffer, len, call, _, _, rfl⟩ t comes _
    cases call
    have seen : (((fresh.step .silent .connect).meet .silent).atAck
        (segmentOf (FifoBuffer.pointer (bareAck 4)) (bareAck 4).length)).map
          (fun t => (t.slist, t.sndUna)) = some ([⟨0, 4, 1, true⟩], 0) := by decide +kernel
    have ack : (segmentOf (FifoBuffer.pointer (bareAck 4)) (bareAck 4).length).ack = 4 := by
      decide +kernel
    rw [comes] at seen
    simp only [Option.map_some, Option.some.injEq, Prod.mk.injEq] at seen
    rw [ack, seen.1, seen.2]
    rintro ⟨before, seg, after, list, low, high⟩
    match before with
    | [] =>
      cases list
      exact absurd high (by decide)
    | _ :: [] => cases list
    | _ :: _ :: _ => cases list

/-- The calls of the sending side. -/
def SenderCall : ApiCall → Prop
  | .app (.send _) | .connect | .notifyClock _ | .notifyMTU _ | .notifyPacket _ _ => True
  | _ => False

/-- An acknowledgement inside the connect message leaves a segment whose
sequence number is not the first unacknowledged one. -/
theorem ack_inside_segment :
    ¬ ∀ s, Reachable (fun _ _ call => SenderCall call) s → s.state ≠ .closed →
      Tiled s ∧ Filled s := by
  intro claim
  let calls : List ApiCall := [.connect, .arrival (bareAck 2)]
  have reached : Reachable (fun _ _ call => SenderCall call) (fresh.runAll calls) :=
    AllOk.reachable ⟨trivial, trivial, trivial, trivial, trivial⟩
  have isOpen : (fresh.runAll calls).state ≠ .closed := by decide +kernel
  have list : (fresh.runAll calls).slist = [⟨0, 2, 1, true⟩] := by decide +kernel
  have una : (fresh.runAll calls).sndUna = 2 := by decide +kernel
  have chained := (claim _ reached isOpen).1.chained
  rw [list, una] at chained
  exact absurd chained.1 (by decide)

end Libjingle.PseudoTcp

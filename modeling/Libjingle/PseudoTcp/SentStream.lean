import Libjingle.PseudoTcp.SendTiling
import Libjingle.PseudoTcp.Wire

/-!
# The stream that is sent

The log shows which bytes were taken into the send buffer. The buffer holds the ones that have not
been acknowledged, whatever comes in from the network. A packet quotes the stream at its sequence
number as long as no acknowledgement falls inside a segment.
-/

namespace Libjingle.PseudoTcp

open Libjingle.Std
open Libjingle.Base

variable {policy : Admission} {s t : PseudoTcp}

/-- The bytes that were taken into the send buffer, the latest event first. -/
def stream : List Event → List UInt8
  | [] => []
  | .queued data _ :: earlier => stream earlier ++ data
  | .packet _ :: earlier => stream earlier
  | .received _ :: earlier => stream earlier

/-- The buffered bytes are the stream from the first unacknowledged byte on. -/
structure Buffered (s : PseudoTcp) (acked : Nat) : Prop where
  una : s.sndUna = acked % 2 ^ 32
  within : acked ≤ (stream s.history).length
  contents : s.sbuf.contents = (stream s.history).drop acked

/-- A segment carries the stream at its sequence number. -/
structure Quotes (seg : Segment) (bytes : List UInt8) (position : Nat) : Prop where
  seq : seg.seq = position % 2 ^ 32
  data : ∀ index < seg.len, bytes[position + index]? = some (seg.data index)

theorem Quotes.append {seg : Segment} {bytes : List UInt8} {position : Nat}
    (quotes : Quotes seg bytes position) (more : List UInt8) :
    Quotes seg (bytes ++ more) position := by
  refine ⟨quotes.seq, fun index inside => ?_⟩
  have old := quotes.data index inside
  rw [List.getElem?_append_left (List.getElem?_eq_some_iff.mp old).1]
  exact old

/-! ## Moves -/

/-- What a move does to the stream and to the buffered bytes. -/
inductive StreamMove (s t : PseudoTcp) : Prop where
  | same (una : t.sndUna = s.sndUna) (contents : t.sbuf.contents = s.sbuf.contents)
      (bytes : stream t.history = stream s.history)
  | queued (data : List UInt8) (una : t.sndUna = s.sndUna)
      (contents : t.sbuf.contents = s.sbuf.contents ++ data)
      (bytes : stream t.history = stream s.history ++ data)
  | acknowledged (ack : Nat) (low : s.sndUna < ack)
      (within : ack - s.sndUna ≤ s.sbuf.dataLength) (word : ack < 2 ^ 32) (una : t.sndUna = ack)
      (contents : t.sbuf.contents = s.sbuf.contents.drop (ack - s.sndUna))
      (bytes : stream t.history = stream s.history)

theorem StreamMove.of_outgoing (outgoing : t.toOutgoing = s.toOutgoing)
    (bytes : stream t.history = stream s.history) : StreamMove s t :=
  .same (congrArg Outgoing.sndUna outgoing)
    (congrArg (fun o : Outgoing => o.sbuf.contents) outgoing) bytes

/-- Bytes that are queued join the stream and the buffer. -/
theorem queue_stream (sound : s.sbuf.Sound) (data : List UInt8) {len : Nat}
    (short : len ≤ data.length) (bCtrl : Bool) :
    ∃ taken, (s.queue data len bCtrl).2.sndUna = s.sndUna ∧
      (s.queue data len bCtrl).2.sbuf.contents = s.sbuf.contents ++ taken ∧
      stream (s.queue data len bCtrl).2.history = stream s.history ++ taken := by
  obtain ⟨sbuf, shape, _, _, contents⟩ := queue_spec sound data len bCtrl
  have una : (s.toOutgoing.append (min len s.sbuf.free) bCtrl).sndUna = s.sndUna := by
    rcases s.toOutgoing.append_eq (min len s.sbuf.free) bCtrl with
      ⟨_, _, _, _, _, same⟩ | ⟨_, same⟩ <;> rw [same]
  rw [FifoBuffer.slice_pointer data (Nat.le_trans (Nat.min_le_left _ _) short)] at contents
  rw [shape]
  exact ⟨data.take (min len s.sbuf.free), una, contents, rfl⟩

theorem Outgoing.mark_buffer (o : Outgoing) (index nTransmit : Nat) :
    (o.mark index nTransmit).sndUna = o.sndUna ∧ (o.mark index nTransmit).sbuf = o.sbuf := by
  unfold Outgoing.mark
  split
  · dsimp only
    split <;> split <;> exact ⟨rfl, rfl⟩
  · exact ⟨rfl, rfl⟩

theorem Outgoing.carve_buffer (o : Outgoing) (index n : Nat) :
    (o.carve index n).sndUna = o.sndUna ∧ (o.carve index n).sbuf = o.sbuf := by
  unfold Outgoing.carve
  split
  · split <;> exact ⟨rfl, rfl⟩
  · exact ⟨rfl, rfl⟩

theorem Move.stream (move : Move policy s t) (invariant : SendInvariant s) : StreamMove s t := by
  obtain ⟨sent, unsent, queue⟩ := invariant.queue
  cases move with
  | keep same => exact .of_outgoing same.outgoing (congrArg PseudoTcp.stream same.history)
  | congested change =>
    have history : t.history = s.history := by simp only [history, change.frame.notify]
    exact .of_outgoing change.frame.outgoing (congrArg PseudoTcp.stream history)
  | acked spec => exact .of_outgoing spec.outgoing (by rw [spec.history, PseudoTcp.stream])
  | refused _ spec _ => exact .of_outgoing spec.outgoing (by rw [spec.history, PseudoTcp.stream])
  | @transmitted index now seg call u _ spec _ =>
    obtain ⟨una, sbuf⟩ := u.toOutgoing.mark_buffer index (min seg.len s.mss)
    rw [spec.outgoing] at una sbuf
    refine .same ?_ ?_ ?_
    · simp only [markTransmitted, spec.outgoing, una]
    · simp only [markTransmitted, spec.outgoing, sbuf]
    · show PseudoTcp.stream u.history = _
      rw [spec.history, PseudoTcp.stream]
  | @carved index n _ _ =>
    obtain ⟨una, sbuf⟩ := s.toOutgoing.carve_buffer index n
    exact .same una (congrArg FifoBuffer.contents sbuf) rfl
  | queued data _ =>
    obtain ⟨taken, una, contents, bytes⟩ := queue_stream queue.sound data (Nat.mod_le _ _) false
    exact .queued taken una contents bytes
  | @began state _ _ =>
    have sound : { s with state := state, sndWnd := s.connectMessage.length }.sbuf.Sound :=
      queue.sound
    obtain ⟨taken, una, contents, bytes⟩ :=
      queue_stream sound s.connectMessage (Nat.le_refl _) true
    exact .queued taken una contents bytes
  | @acknowledged seg now valuable _ =>
    have same := updateRtt_same s seg now
    obtain ⟨acked, within, after⟩ := queue.acknowledge valuable.1 valuable.2 0
    have word : seg.ack < 2 ^ 32 := after.una
    have bytes := queue.total_eq
    have inside : seg.ack - s.sndUna ≤ s.sbuf.dataLength := by omega
    obtain ⟨_, _, _, contents⟩ := queue.sound.consumeReadData inside
    refine .acknowledged seg.ack valuable.1 inside word rfl ?_
      (congrArg PseudoTcp.stream same.history)
    simp only [acknowledge, Outgoing.acknowledge, same.outgoing, acked, contents]
  | @optioned seg _ =>
    obtain ⟨scale, result⟩ | ⟨_, result⟩ :=
      parseOptions_spec s (fun index => seg.data (index + 1)) (seg.len - 1) <;>
      rw [result] <;> exact .same rfl rfl rfl
  | resizedSend size listening word _ =>
    have empty : s.sbuf.dataLength = 0 := by
      rw [← queue.buffered, invariant.listening listening]
      rfl
    obtain ⟨_, _, _, contents⟩ :=
      queue.sound.setCapacity word (by omega) s.notify.memory
    exact .same rfl contents rfl
  | _ => exact .same rfl rfl rfl

theorem StreamMove.buffered {acked : Nat} (move : StreamMove s t) (buffered : Buffered s acked) :
    ∃ acked', Buffered t acked' := by
  have length : s.sbuf.dataLength = (PseudoTcp.stream s.history).length - acked := by
    rw [← FifoBuffer.length_contents, buffered.contents, List.length_drop]
  have within := buffered.within
  have una := buffered.una
  cases move with
  | same una' contents bytes =>
    exact ⟨acked, una'.trans una, bytes ▸ within,
      (contents.trans buffered.contents).trans (by rw [bytes])⟩
  | queued data una' contents bytes =>
    refine ⟨acked, una'.trans una, ?_, ?_⟩
    · rw [bytes, List.length_append]
      omega
    · rw [contents, bytes, buffered.contents, List.drop_append_of_le_length within]
  | acknowledged ack low inside word una' contents bytes =>
    refine ⟨acked + (ack - s.sndUna), ?_, ?_, ?_⟩
    · rw [una']
      omega
    · rw [bytes]
      omega
    · rw [contents, bytes, buffered.contents, List.drop_drop]

/-! ## Packets -/

/-- A packet quotes the stream, as its receiver reads it, with as many bytes as it announces. -/
def Quoted (call : PacketCall) (bytes : List UInt8) : Prop :=
  ∃ position, (segmentOf (FifoBuffer.pointer call.buffer) call.buffer.length).len = call.len ∧
    Quotes (segmentOf (FifoBuffer.pointer call.buffer) call.buffer.length) bytes position

/-- Every packet with data quotes the stream. -/
def QuotesStream (s : PseudoTcp) : Prop :=
  ∀ call, .packet call ∈ s.history → 0 < call.len → Quoted call (stream s.history)

theorem StreamMove.grows (move : StreamMove s t) :
    ∃ more, stream t.history = stream s.history ++ more := by
  cases move with
  | same _ _ bytes => exact ⟨[], by rw [bytes, List.append_nil]⟩
  | queued data _ _ bytes => exact ⟨data, bytes⟩
  | acknowledged _ _ _ _ _ _ bytes => exact ⟨[], by rw [bytes, List.append_nil]⟩

theorem Attempt.quotes {index acked : Nat} {seg : SSegment} {call : PacketCall}
    (invariant : TilingInvariant s) (buffered : Buffered s acked) (attempt : Attempt s index seg)
    (spec : PacketOf s seg call t) : Quoted call (stream s.history) := by
  obtain ⟨sent, unsent, queue⟩ := invariant.queue
  have chained := invariant.chained
  obtain ⟨before, after, list, _, _, payload, filled⟩ := attempt.payload queue chained spec
  have word : call.len < 2 ^ 32 := by
    have bound := queue.len_word list
    have short : min seg.len s.mss ≤ seg.len := Nat.min_le_left _ _
    rw [spec.lenOf]
    omega
  rw [list] at chained
  have seq : seg.seq = add32 s.sndUna (total before) := chained.seq_eq queue.una
  obtain ⟨now, tsRecent, rest, buffer, none⟩ := spec.buffer
  rw [filled, ← spec.lenOf, Nat.sub_self] at none
  rw [List.eq_nil_of_length_eq_zero none, List.append_nil] at buffer
  have carries := segmentOf_carries s.conv seg.seq s.rcvNxt (if seg.bCtrl then flagCtl else 0)
    (s.rcvWnd >>> s.rwndScale) now tsRecent call.payload
  unfold Quoted
  rw [buffer]
  refine ⟨acked + total before, ?_, ?_, ?_⟩
  · rw [carries.len, filled, Nat.mod_eq_of_lt word]
  · rw [carries.seq, seq, buffered.una]
    simp only [add32]
    omega
  · intro index inside
    rw [carries.len, filled, Nat.mod_eq_of_lt word] at inside
    rw [carries.data index (filled ▸ inside), ← List.getElem?_eq_getElem]
    rw [payload, buffered.contents, List.drop_drop, List.getElem?_take_of_lt inside,
      List.getElem?_drop]

theorem Move.quotesStream (move : Move policy s t) (invariant : TilingInvariant s) {acked : Nat}
    (buffered : Buffered s acked) (quotes : QuotesStream s) : QuotesStream t := by
  obtain ⟨more, grows⟩ := (move.stream invariant.toSendInvariant).grows
  intro call member some
  have shown : Quoted call (PseudoTcp.stream s.history) := by
    rcases move.logs with same | ⟨event, added, logs⟩
    · exact quotes call (same ▸ member) some
    rw [added] at member
    rcases List.mem_cons.mp member with rfl | old
    · cases logs with
      | bare spec =>
        rw [spec.lenOf] at some
        exact absurd some (Nat.lt_irrefl 0)
      | data attempt spec => exact attempt.quotes invariant buffered spec
    · exact quotes call old some
  obtain ⟨position, len, quoted⟩ := shown
  exact ⟨position, len, grows ▸ quoted.append more⟩

/-! ## Runs -/

theorem Buffered.new (conv now : UInt32) (environment : Environment)
    (rcvMemory sndMemory : Memory UInt8) :
    Buffered (new conv now environment rcvMemory sndMemory) 0 :=
  ⟨rfl, Nat.le_refl 0, rfl⟩

/-- The buffer holds the accepted bytes that have not been acknowledged. What is in flight are the
transmitted segments, none of them sent more than thirty times. -/
structure HoldsStream (s : PseudoTcp) : Prop where
  buffered : ∃ acked, Buffered s acked
  segments : ∃ sent unsent, s.slist = sent ++ unsent ∧
    sub32 s.sndNxt s.sndUna = total sent ∧ total sent + total unsent = s.sbuf.getBuffered ∧
    (∀ seg ∈ sent, 0 < seg.xmit ∧ seg.xmit ≤ 30) ∧ ∀ seg ∈ unsent, seg.xmit = 0

/-- The send buffer holds the stream in every run, whatever comes in from the network. -/
theorem sendBuffer_holds_stream (reached : Reachable (fun _ _ _ => True) s) : HoldsStream s := by
  obtain ⟨conv, now, environment, rcvMemory, sndMemory, run⟩ := reached
  have kept : SendInvariant s ∧ ∃ acked, Buffered s acked := run.keeps
    (P := fun s => SendInvariant s ∧ ∃ acked, Buffered s acked)
    (.incoming (fun _ _ => True) (fun _ _ => True) (fun _ _ => True) (fun _ _ => True))
    (fun _ _ => grants_incoming (fun _ _ _ => ⟨fun _ => trivial, fun _ => trivial, fun _ => trivial⟩)
      fun _ _ => trivial)
    (fun _ kept => ⟨⟨kept.1.queue, kept.1.listening⟩,
      kept.2.imp fun _ buffered => ⟨buffered.una, buffered.within, buffered.contents⟩⟩)
    (fun move kept => ⟨kept.1.move move,
      kept.2.elim fun _ buffered => (move.stream kept.1).buffered buffered⟩)
    ⟨.new _ _ _ _ _, 0, .new _ _ _ _ _⟩
  obtain ⟨sent, unsent, queue⟩ := kept.1.queue
  exact ⟨kept.2, sent, unsent, queue.list, queue.inFlight, queue.total_eq,
    fun seg member => ⟨queue.transmitted seg member, queue.few seg member⟩, queue.waiting⟩

/-- The opening, whose connect message the peer's message acknowledges. -/
theorem sendBuffer_holds_opening : HoldsStream (fresh.runAll opening) :=
  sendBuffer_holds_stream (AllOk.reachable ⟨trivial, trivial, trivial, trivial, trivial⟩)

end Libjingle.PseudoTcp

import Libjingle.Base.FifoSound
import Libjingle.PseudoTcp.Calls

/-!
# The send queue

The send list and the send buffer hold the same bytes: first the segments that
have been transmitted, up to `sndNxt`, then the ones that have not. `Queue` says
so, and every move keeps it, whatever comes in from the network. That the
segments also carry the right sequence numbers, `Chained`, is kept by every
move but an acknowledgement that falls inside a segment.
-/

namespace Libjingle.PseudoTcp

open Libjingle.Std
open Libjingle.Base

/-! ## Outgoing moves -/

/-- What one move does to the outgoing half. -/
inductive OutgoingMove (policy : Admission) (s : PseudoTcp) : Outgoing → Prop where
  | same : OutgoingMove policy s s.toOutgoing
  | marked {index : Nat} {seg : SSegment} (attempt : Attempt s index seg) :
      OutgoingMove policy s (s.toOutgoing.mark index (min seg.len s.mss))
  | carved {index n : Nat}
      (first : s.slist.findIdx? (fun g => g.xmit = 0) = some index) (positive : 0 < n) :
      OutgoingMove policy s (s.toOutgoing.carve index n)
  | queued (data : List UInt8) (established : s.state = .established) :
      OutgoingMove policy s (s.queue data (toWord data.length) false).2.toOutgoing
  | began (listening : s.state = .listen) :
      OutgoingMove policy s
        ({ s with sndWnd := s.connectMessage.length }.queue s.connectMessage
          s.connectMessage.length true).2.toOutgoing
  | acknowledged {seg : Segment} (valuable : s.valuable seg.ack) (admitted : policy.ack s seg) :
      OutgoingMove policy s (s.toOutgoing.acknowledge seg)
  | windowed {seg : Segment} (current : seg.ack = s.sndUna) (admitted : policy.ack s seg) :
      OutgoingMove policy s { s.toOutgoing with sndWnd := s.window seg }
  | scaled (scale : Nat) : OutgoingMove policy s { s.toOutgoing with swndScale := scale }
  | resized (size : Nat) (listening : s.state = .listen) (word : size < 2 ^ 32) :
      OutgoingMove policy s (s.resizeSendBuffer size).toOutgoing

theorem Move.outgoing {policy : Admission} {s t : PseudoTcp} (move : Move policy s t) :
    OutgoingMove policy s t.toOutgoing := by
  cases move with
  | keep same => rw [same.outgoing]; exact .same
  | congested change => rw [change.frame.outgoing]; exact .same
  | acked spec => rw [spec.outgoing]; exact .same
  | refused _ spec _ => rw [spec.outgoing]; exact .same
  | @transmitted index now seg call u attempt spec _ =>
    have shape : (u.markTransmitted index (min seg.len s.mss) now).toOutgoing =
        s.toOutgoing.mark index (min seg.len s.mss) := by
      simp only [markTransmitted, spec.outgoing]
    rw [shape]
    exact .marked attempt
  | carved first positive => exact .carved first positive
  | queued data established => exact .queued data established
  | began listening _ => exact .began listening
  | @acknowledged seg now valuable admitted =>
    have shape : ((s.updateRtt seg now).acknowledge seg now).toOutgoing =
        s.toOutgoing.acknowledge seg := by
      simp only [acknowledge, (updateRtt_same s seg now).outgoing]
    rw [shape]
    exact .acknowledged valuable admitted
  | windowed current admitted => exact .windowed current admitted
  | @optioned seg _ =>
    obtain ⟨scale, result⟩ | ⟨_, result⟩ :=
      parseOptions_spec s (fun index => seg.data (index + 1)) (seg.len - 1)
    · rw [result]; exact .scaled scale
    · rw [result]; exact .scaled 0
  | resizedSend size listening word _ => exact .resized size listening word
  | _ => exact .same

/-! ## The queue invariant -/

/-- The send list is what has been transmitted followed by what has not, and is
as long as the send buffer. -/
structure Queue (o : Outgoing) (sent unsent : List SSegment) : Prop where
  list : o.slist = sent ++ unsent
  transmitted : ∀ g ∈ sent, 0 < g.xmit
  waiting : ∀ g ∈ unsent, g.xmit = 0
  few : ∀ g ∈ sent, g.xmit ≤ 30
  una : o.sndUna < 2 ^ 32
  next : o.sndNxt = add32 o.sndUna (total sent)
  buffered : total o.slist = o.sbuf.dataLength
  sound : o.sbuf.Sound

namespace Queue

variable {o : Outgoing} {sent unsent before after : List SSegment} {seg : SSegment}

theorem total_eq (queue : Queue o sent unsent) :
    total sent + total unsent = o.sbuf.dataLength := by
  rw [← queue.buffered, queue.list, total_append]

theorem total_word (queue : Queue o sent unsent) : total o.slist < 2 ^ 32 := by
  have fits := queue.sound.fits
  have word := queue.sound.word
  rw [queue.buffered]
  omega

theorem len_word (queue : Queue o sent unsent) (list : o.slist = before ++ seg :: after) :
    seg.len < 2 ^ 32 := by
  have word := queue.total_word
  rw [list] at word
  simp only [total_append, total_cons] at word
  omega

/-- What is in flight is what has been transmitted. -/
theorem inFlight (queue : Queue o sent unsent) : sub32 o.sndNxt o.sndUna = total sent := by
  have word := queue.total_word
  rw [queue.list, total_append] at word
  rw [queue.next, sub32_add32 queue.una (by omega)]

/-- Where a segment behind transmitted ones lies: in the transmitted part, or at
the front of the rest. -/
theorem locate (queue : Queue o sent unsent) (list : o.slist = before ++ seg :: after)
    (earlier : ∀ g ∈ before, 0 < g.xmit) :
    (0 < seg.xmit ∧ ∃ rest, sent = before ++ seg :: rest ∧ after = rest ++ unsent) ∨
      (seg.xmit = 0 ∧ sent = before ∧ unsent = seg :: after) := by
  have parts := queue.list.symm.trans list
  rcases List.append_eq_append_iff.mp parts with ⟨more, front, back⟩ | ⟨more, front, back⟩
  · cases more with
    | nil =>
      simp only [List.append_nil, List.nil_append] at front back
      exact .inr ⟨queue.waiting seg (by simp [back]), front.symm, back⟩
    | cons g rest =>
      have unsentG := queue.waiting g (by simp [back])
      have sentG := earlier g (by simp [front])
      omega
  · cases more with
    | nil =>
      simp only [List.append_nil, List.nil_append] at front back
      exact .inr ⟨queue.waiting seg (by simp [← back]), front, back.symm⟩
    | cons g rest =>
      simp only [List.cons_append, List.cons.injEq] at back
      obtain ⟨rfl, back⟩ := back
      exact .inl ⟨queue.transmitted seg (by simp [front]), rest, front, back⟩

/-- A segment is transmitted again, perhaps in two. -/
theorem markAgain (queue : Queue o sent unsent) {rest : List SSegment}
    (place : sent = before ++ seg :: rest) (some : 0 < seg.xmit) (few : seg.xmit < 30) (n : Nat) :
    Queue (o.mark before.length n)
      (before ++ { seg with len := min n seg.len, xmit := seg.xmit + 1 } ::
        leftover seg n seg.xmit ++ rest) unsent := by
  have list : o.slist = before ++ seg :: (rest ++ unsent) := by simp [queue.list, place]
  have word := queue.len_word list
  have parts := total_leftover word n seg.xmit
  have counted : add8 seg.xmit 1 = seg.xmit + 1 := add8_of_lt (by omega)
  have member : ∀ g ∈ leftover seg n seg.xmit, g.xmit = seg.xmit := by
    intro g inside
    unfold leftover at inside
    split at inside <;> simp_all
  have same : total (before ++ { seg with len := min n seg.len, xmit := seg.xmit + 1 } ::
      leftover seg n seg.xmit ++ rest) = total sent := by
    simp only [place, total_append, total_cons]
    omega
  rw [Outgoing.mark_eq list, counted, if_neg (by omega)]
  exact {
    list := by simp
    transmitted := by
      intro g inside
      simp only [List.append_assoc, List.cons_append, List.mem_append, List.mem_cons] at inside
      rcases inside with inside | rfl | inside | inside
      · exact queue.transmitted g (by simp [place, inside])
      · exact Nat.succ_pos _
      · exact member g inside ▸ some
      · exact queue.transmitted g (by simp [place, inside])
    waiting := queue.waiting
    few := by
      intro g inside
      simp only [List.append_assoc, List.cons_append, List.mem_append, List.mem_cons] at inside
      rcases inside with inside | rfl | inside | inside
      · exact queue.few g (by simp [place, inside])
      · exact few
      · exact member g inside ▸ Nat.le_of_lt few
      · exact queue.few g (by simp [place, inside])
    una := queue.una
    next := by rw [same]; exact queue.next
    buffered := by
      have whole := queue.buffered
      rw [queue.list, total_append, ← same] at whole
      simp only [total_append, total_cons] at whole ⊢
      omega
    sound := queue.sound }

/-- The first untransmitted segment is transmitted, perhaps only its beginning. -/
theorem markFirst (queue : Queue o sent unsent) (place : unsent = seg :: after) (n : Nat) :
    Queue (o.mark sent.length n)
      (sent ++ [{ seg with len := min n seg.len, xmit := 1 }]) (leftover seg n 0 ++ after) := by
  have list : o.slist = sent ++ seg :: after := by rw [queue.list, place]
  have word := queue.len_word list
  have parts := total_leftover word n 0
  have unsentSeg : seg.xmit = 0 := queue.waiting seg (by simp [place])
  rw [Outgoing.mark_eq list, unsentSeg, if_pos rfl]
  exact {
    list := by simp [show add8 0 1 = 1 from rfl]
    transmitted := by
      intro g inside
      rcases List.mem_append.mp inside with inside | inside
      · exact queue.transmitted g inside
      · simp_all
    waiting := by
      intro g inside
      rcases List.mem_append.mp inside with inside | inside
      · unfold leftover at inside
        split at inside <;> simp_all
      · exact queue.waiting g (by simp [place, inside])
    few := by
      intro g inside
      rcases List.mem_append.mp inside with inside | inside
      · exact queue.few g inside
      · simp_all
    una := queue.una
    next := by
      simp only [queue.next, add32_assoc, total_append, total_cons, total_nil]
      rfl
    buffered := by
      have whole := queue.buffered
      rw [list] at whole
      simp only [total_append, total_cons] at whole ⊢
      omega
    sound := queue.sound }

/-- The first untransmitted segment is cut. -/
theorem carve (queue : Queue o sent unsent) (place : unsent = seg :: after) (n : Nat) :
    Queue (o.carve sent.length n) sent
      ({ seg with len := min n seg.len } :: leftover seg n 0 ++ after) := by
  have list : o.slist = sent ++ seg :: after := by rw [queue.list, place]
  have word := queue.len_word list
  have parts := total_leftover word n 0
  have unsentSeg : seg.xmit = 0 := queue.waiting seg (by simp [place])
  rw [Outgoing.carve_eq list]
  exact { queue with
    list := by simp
    waiting := by
      intro g inside
      rcases List.mem_append.mp inside with inside | inside
      · rcases List.mem_cons.mp inside with rfl | inside
        · exact unsentSeg
        · unfold leftover at inside
          split at inside <;> simp_all
      · exact queue.waiting g (by simp [place, inside])
    buffered := by
      have whole := queue.buffered
      rw [list] at whole
      simp only [total_append, total_cons] at whole ⊢
      omega }

/-- An acknowledgement of transmitted bytes takes them off the front. -/
theorem acknowledge (queue : Queue o sent unsent) {segment : Segment} (low : o.sndUna < segment.ack)
    (high : segment.ack ≤ o.sndNxt) (largest : Nat) :
    sub32 segment.ack o.sndUna = segment.ack - o.sndUna ∧
      segment.ack - o.sndUna ≤ total sent ∧
      Queue (o.acknowledge segment)
        (freeSegments sent (segment.ack - o.sndUna) largest).1 unsent := by
  have nextWord : o.sndNxt < 2 ^ 32 := by rw [queue.next]; exact add32_lt _ _
  have flight := queue.inFlight
  rw [sub32_of_le (by omega) nextWord] at flight
  have acked : sub32 segment.ack o.sndUna = segment.ack - o.sndUna :=
    sub32_of_le (Nat.le_of_lt low) (by omega)
  have within : segment.ack - o.sndUna ≤ total sent := by omega
  have bytes := queue.total_eq
  obtain ⟨sound, _, length, _⟩ := queue.sound.consumeReadData
    (show segment.ack - o.sndUna ≤ o.sbuf.dataLength by omega)
  have origin : ∀ g ∈ (freeSegments sent (segment.ack - o.sndUna) largest).1,
      ∃ old ∈ sent, g.xmit = old.xmit := fun g member => by
    obtain ⟨old, inside, same, _⟩ := mem_freeSegments member
    exact ⟨old, inside, same⟩
  have independent : (freeSegments sent (segment.ack - o.sndUna) 0).1 =
      (freeSegments sent (segment.ack - o.sndUna) largest).1 := freeSegments_largest _ _ _ _
  refine ⟨acked, within, ?_⟩
  simp only [Outgoing.acknowledge, acked]
  exact {
    list := by
      simp only [queue.list]
      rw [freeSegments_append within, independent]
    transmitted := fun g member => by
      obtain ⟨old, inside, same⟩ := origin g member
      exact same ▸ queue.transmitted old inside
    waiting := queue.waiting
    few := fun g member => by
      obtain ⟨old, inside, same⟩ := origin g member
      exact same ▸ queue.few old inside
    una := by
      show segment.ack < 2 ^ 32
      omega
    next := by
      show o.sndNxt = add32 segment.ack _
      rw [total_freeSegments within, add32_of_lt (by omega)]
      omega
    buffered := by
      simp only [queue.list]
      rw [freeSegments_append within, total_append, total_freeSegments within, length]
      omega
    sound := sound }

end Queue

/-- Data that is queued joins the last segment or starts one, and joins the
buffer, as much as fits. -/
theorem queue_spec {s : PseudoTcp} (sound : s.sbuf.Sound) (data : List UInt8) (len : Nat)
    (bCtrl : Bool) :
    ∃ sbuf, s.queue data len bCtrl = (min len s.sbuf.free,
        { s with toOutgoing := { s.toOutgoing.append (min len s.sbuf.free) bCtrl with
          sbuf := sbuf } }.record (.queued (data.take (min len s.sbuf.free)) bCtrl)) ∧
      sbuf.Sound ∧ sbuf.dataLength = s.sbuf.dataLength + min len s.sbuf.free ∧
      sbuf.contents = s.sbuf.contents ++
        (FifoBuffer.pointer data).slice 0 (min len s.sbuf.free) := by
  have count : (if toWord s.sbuf.getWriteRemaining < len then toWord s.sbuf.getWriteRemaining
      else len) = min len s.sbuf.free := by
    rw [sound.getWriteRemaining, toWord_of_lt sound.free_word]
    split <;> omega
  have whole : min (min len s.sbuf.free) s.sbuf.free = min len s.sbuf.free := by omega
  have sbufSame : ∀ len, (s.toOutgoing.append len bCtrl).sbuf = s.sbuf := fun len => by
    rcases s.toOutgoing.append_eq len bCtrl with ⟨_, _, _, _, _, shape⟩ | ⟨_, shape⟩ <;> rw [shape]
  obtain ⟨result, sbuf, written, soundNew, _, length, contents⟩ :=
    sound.write (FifoBuffer.pointer data) (min len s.sbuf.free)
  rw [whole] at written length contents
  refine ⟨sbuf, ?_, soundNew, length, contents⟩
  unfold PseudoTcp.queue
  simp only [count, sbufSame, written]

/-- What queueing `n` bytes does to the untransmitted segments. -/
inductive Enqueued (o : Outgoing) (unsent : List SSegment) (n : Nat) (bCtrl : Bool) :
    List SSegment → Prop where
  | joined {front : List SSegment} {last : SSegment} (place : unsent = front ++ [last])
      (kind : last.bCtrl = bCtrl) :
      Enqueued o unsent n bCtrl (front ++ [{ last with len := last.len + n }])
  | started (apart : ∀ last, o.slist.getLast? = some last → last.bCtrl = bCtrl → 0 < last.xmit) :
      Enqueued o unsent n bCtrl
        (unsent ++ [⟨add32 o.sndUna o.sbuf.dataLength, n, 0, bCtrl⟩])

theorem Queue.enqueue {o : Outgoing} {sent unsent : List SSegment} (queue : Queue o sent unsent)
    {n : Nat} {sbuf : FifoBuffer} (bCtrl : Bool) (sound : sbuf.Sound)
    (length : sbuf.dataLength = o.sbuf.dataLength + n) :
    ∃ unsent', Enqueued o unsent n bCtrl unsent' ∧
      Queue { o.append n bCtrl with sbuf := sbuf } sent unsent' := by
  have whole := queue.buffered
  have bound : o.sbuf.dataLength + n < 2 ^ 32 := by
    have fits := sound.fits
    have word := sound.word
    omega
  rcases o.append_eq n bCtrl with ⟨before, last, list, kind, waits, shape⟩ | ⟨apart, shape⟩
  · -- The last segment has not been transmitted, so it is one of the waiting ones.
    obtain ⟨front, place⟩ : ∃ front, unsent = front ++ [last] := by
      rcases List.eq_nil_or_concat unsent with none | ⟨front, other, place⟩
      · have inside : last ∈ sent := by
          have parts := queue.list.symm.trans list
          simp only [none, List.append_nil] at parts
          simp [parts]
        have := queue.transmitted last inside
        omega
      · have parts := queue.list.symm.trans list
        rw [place, List.concat_eq_append, ← List.append_assoc] at parts
        obtain ⟨_, same⟩ := List.append_inj' parts rfl
        cases same
        exact ⟨front, by simp [place]⟩
    have joined : sent ++ front = before := by
      have parts := queue.list.symm.trans list
      rw [place, ← List.append_assoc] at parts
      exact (List.append_inj' parts rfl).1
    rw [list, total_append, total_cons, total_nil] at whole
    refine ⟨_, .joined place kind, ?_⟩
    rw [shape, add32_of_lt (show last.len + n < 2 ^ 32 by omega)]
    exact {
      list := by simp [← joined]
      transmitted := queue.transmitted
      waiting := by
        intro g inside
        rcases List.mem_append.mp inside with inside | inside
        · exact queue.waiting g (by simp [place, inside])
        · simp only [List.mem_singleton] at inside
          exact inside ▸ waits
      few := queue.few
      una := queue.una
      next := queue.next
      buffered := by
        simp only [total_append, total_cons, total_nil, length]
        omega
      sound := sound }
  · refine ⟨_, .started apart, ?_⟩
    rw [shape]
    exact {
      list := by simp [queue.list, FifoBuffer.getBuffered]
      transmitted := queue.transmitted
      waiting := by
        intro g inside
        rcases List.mem_append.mp inside with inside | inside
        · exact queue.waiting g inside
        · simp_all
      few := queue.few
      una := queue.una
      next := queue.next
      buffered := by
        simp only [total_append, total_cons, total_nil, length]
        omega
      sound := sound }

/-! ## Every move keeps the queue -/

/-- A transmission is of a segment behind transmitted ones only. -/
theorem Attempt.split {s : PseudoTcp} {index : Nat} {seg : SSegment}
    (attempt : Attempt s index seg) :
    ∃ before after, s.slist = before ++ seg :: after ∧ before.length = index ∧
      ∀ g ∈ before, 0 < g.xmit := by
  obtain ⟨before, after, list, length⟩ := getElem?_segment attempt.found
  refine ⟨before, after, list, length, ?_⟩
  rcases attempt.reason with ⟨front, _⟩ | ⟨first, _⟩
  · have none := List.eq_nil_of_length_eq_zero (length.trans front)
    simp [none]
  · obtain ⟨before', seg', after', list', length', _, sent⟩ := findIdx?_unsent.mp first
    have parts := list.symm.trans list'
    obtain ⟨same, _⟩ := List.append_inj parts (length.trans length'.symm)
    exact same ▸ sent

/-- A connection that still listens has nothing to send. -/
structure SendInvariant (s : PseudoTcp) : Prop where
  queue : ∃ sent unsent, Queue s.toOutgoing sent unsent
  listening : s.state = .listen → s.slist = []

theorem OutgoingMove.queue {policy : Admission} {s : PseudoTcp} {o : Outgoing}
    (invariant : SendInvariant s) (move : OutgoingMove policy s o) :
    ∃ sent unsent, Queue o sent unsent := by
  obtain ⟨sent, unsent, queue⟩ := invariant.queue
  cases move with
  | same => exact ⟨sent, unsent, queue⟩
  | marked attempt =>
    obtain ⟨before, after, list, rfl, earlier⟩ := attempt.split
    rcases queue.locate list earlier with ⟨some, rest, place, _⟩ | ⟨_, rfl, place⟩
    · exact ⟨_, _, queue.markAgain place some attempt.few _⟩
    · exact ⟨_, _, queue.markFirst place _⟩
  | carved first _ =>
    obtain ⟨before, seg, after, list, rfl, waits, earlier⟩ := findIdx?_unsent.mp first
    rcases queue.locate list earlier with ⟨some, _⟩ | ⟨_, rfl, place⟩
    · omega
    · exact ⟨_, _, queue.carve place _⟩
  | queued data _ =>
    obtain ⟨sbuf, shape, sound, length, _⟩ :=
      queue_spec queue.sound data (toWord data.length) false
    obtain ⟨unsent', _, enqueued⟩ := queue.enqueue false sound length
    rw [shape]
    exact ⟨_, _, enqueued⟩
  | began _ =>
    obtain ⟨sbuf, shape, sound, length, _⟩ :=
      queue_spec (s := { s with sndWnd := s.connectMessage.length }) queue.sound s.connectMessage
        s.connectMessage.length true
    have opened : Queue { s.toOutgoing with sndWnd := s.connectMessage.length } sent unsent :=
      { queue with }
    obtain ⟨unsent', _, enqueued⟩ := opened.enqueue true sound length
    rw [shape]
    exact ⟨_, _, enqueued⟩
  | acknowledged valuable _ =>
    obtain ⟨_, _, acknowledged⟩ := queue.acknowledge valuable.1 valuable.2 0
    exact ⟨_, _, acknowledged⟩
  | windowed _ _ => exact ⟨sent, unsent, { queue with }⟩
  | scaled scale => exact ⟨sent, unsent, { queue with }⟩
  | resized size listening word =>
    have none := invariant.listening listening
    have empty : s.sbuf.dataLength = 0 := by
      rw [← queue.buffered, none]
      rfl
    obtain ⟨sound, _, length, _⟩ :=
      queue.sound.setCapacity word (by omega) s.notify.memory
    refine ⟨sent, unsent, { queue with buffered := ?_, sound := sound }⟩
    exact queue.buffered.trans length.symm

/-- Only a connection that listened listens after a move, and its send list was
not touched. -/
theorem Move.listening {policy : Admission} {s t : PseudoTcp} (move : Move policy s t)
    (listening : t.state = .listen) : s.state = .listen ∧ (s.slist = [] → t.slist = []) := by
  cases move with
  | keep same => exact ⟨same.state ▸ listening, by rw [same.outgoing]; exact id⟩
  | congested change =>
    exact ⟨change.frame.state ▸ listening, by rw [change.frame.outgoing]; exact id⟩
  | acked spec => exact ⟨spec.state ▸ listening, by rw [spec.outgoing]; exact id⟩
  | refused _ spec _ => exact ⟨spec.state ▸ listening, by rw [spec.outgoing]; exact id⟩
  | transmitted attempt spec _ =>
    refine ⟨spec.state ▸ listening, fun none => ?_⟩
    have found := attempt.found
    simp [none] at found
  | carved first _ => exact ⟨listening, fun none => by simp [none] at first⟩
  | queued data established =>
    simp only [PseudoTcp.queue, record] at listening
    rw [established] at listening
    cases listening
  | began _ opening =>
    simp only [queueConnectMessage, PseudoTcp.queue, record] at listening
    rcases opening with rfl | rfl <;> cases listening
  | established => cases listening
  | closed => cases listening
  | @acknowledged seg now _ _ =>
    have same := updateRtt_same s seg now
    simp only [acknowledge, same.state] at listening
    refine ⟨listening, fun none => ?_⟩
    simp only [acknowledge, Outgoing.acknowledge, same.outgoing, none, freeSegments]
  | @optioned seg _ =>
    obtain ⟨scale, result⟩ | ⟨_, result⟩ :=
      parseOptions_spec s (fun index => seg.data (index + 1)) (seg.len - 1)
    · rw [result] at listening ⊢; exact ⟨listening, id⟩
    · rw [result] at listening ⊢; exact ⟨listening, id⟩
  | _ => exact ⟨listening, id⟩

/-- Every move keeps the send queue. -/
theorem SendInvariant.move {policy : Admission} {s t : PseudoTcp} (move : Move policy s t)
    (invariant : SendInvariant s) : SendInvariant t where
  queue := move.outgoing.queue invariant
  listening listening :=
    (move.listening listening).2 (invariant.listening (move.listening listening).1)

end Libjingle.PseudoTcp

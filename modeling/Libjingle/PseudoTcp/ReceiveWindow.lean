import Libjingle.PseudoTcp.Arrivals
import Libjingle.PseudoTcp.Calls

/-!
# The receive buffer and its window

What the receiving half keeps while segments come in: the out-of-order list
describes places inside the free space (`Bounded`), and under a stronger
condition inside the announced window (`Windowed`). Both fail once a segment
overruns the window test, once `rcvNxt` wraps past a list that is not empty, or
once the buffer is resized under such a list.
-/

namespace Libjingle.PseudoTcp

open Libjingle.Std
open Libjingle.Base

/-! ## Incoming moves -/

/-- What one move does to the incoming half. -/
inductive IncomingMove (policy : Admission) (s : PseudoTcp) : Incoming → Prop where
  | same : IncomingMove policy s s.toIncoming
  | received {seg : Segment} (admitted : policy.data s seg) :
      IncomingMove policy s (s.toIncoming.receive (s.adjust seg) (s.ignoresData seg)).incoming
  | read {bytes : Nat} {result : StreamResult} {data : List UInt8} {rbuf : FifoBuffer}
      (reads : s.rbuf.read bytes = (result, data, rbuf)) :
      IncomingMove policy s { s.toIncoming with rbuf := rbuf }
  | opened : IncomingMove policy s s.toIncoming.openWindow
  | reverted {seg : Segment} (admitted : policy.options s seg)
      (reverts : s.Reverts (fun index => seg.data (index + 1)) (seg.len - 1)) :
      IncomingMove policy s (s.toIncoming.resize defaultRcvBufSize s.notify.memory)
  | resized {size : Nat} (listening : s.state = .listen) (word : size < 2 ^ 32)
      (admitted : policy.rcvBuf s size) :
      IncomingMove policy s (s.toIncoming.resize size s.notify.memory)

theorem Move.incoming {policy : Admission} {s t : PseudoTcp} (move : Move policy s t) :
    IncomingMove policy s t.toIncoming := by
  cases move with
  | keep same => rw [same.incoming]; exact .same
  | congested change => rw [change.frame.incoming]; exact .same
  | acked spec => rw [spec.incoming]; exact .same
  | refused _ spec _ => rw [spec.incoming]; exact .same
  | @transmitted index now seg call u _ spec _ =>
    have shape : (u.markTransmitted index (min seg.len s.mss) now).toIncoming = s.toIncoming :=
      spec.incoming
    rw [shape]
    exact .same
  | @acknowledged seg now _ _ =>
    have shape : ((s.updateRtt seg now).acknowledge seg now).toIncoming = s.toIncoming :=
      (updateRtt_same s seg now).incoming
    rw [shape]
    exact .same
  | @optioned seg admitted =>
    obtain ⟨scale, result⟩ | ⟨reverts, result⟩ :=
      parseOptions_spec s (fun index => seg.data (index + 1)) (seg.len - 1)
    · rw [result]; exact .same
    · rw [result]; exact .reverted admitted reverts
  | received admitted => exact .received admitted
  | read reads _ => exact .read reads
  | opened => exact .opened
  | resizedReceive size listening word admitted => exact .resized listening word admitted
  | _ => exact .same

/-! ## Sizes -/

/-- The loop that finds the scale factor shifts until the size fits in 16 bits. -/
theorem windowScale_spec (fuel scaleFactor newSize : Nat) (word : newSize < 2 ^ (16 + fuel)) :
    (windowScale fuel scaleFactor newSize).2 ≤ 0xFFFF ∧
      ∃ shifts ≤ fuel, (windowScale fuel scaleFactor newSize).1 = scaleFactor + shifts ∧
        (windowScale fuel scaleFactor newSize).2 = newSize >>> shifts := by
  induction fuel generalizing scaleFactor newSize with
  | zero =>
    simp only [windowScale]
    exact ⟨by omega, 0, by omega, rfl, rfl⟩
  | succ fuel ih =>
    simp only [windowScale]
    split
    · have half : newSize >>> 1 < 2 ^ (16 + fuel) := by
        rw [Nat.shiftRight_eq_div_pow]
        rw [show 16 + (fuel + 1) = 16 + fuel + 1 by omega, Nat.pow_succ] at word
        omega
      obtain ⟨small, shifts, le, factor, scaled⟩ := ih (scaleFactor + 1) (newSize >>> 1) half
      refine ⟨small, shifts + 1, by omega, by omega, ?_⟩
      rw [scaled, ← Nat.shiftRight_add, Nat.add_comm]
    · exact ⟨by omega, 0, by omega, rfl, rfl⟩

/-- The size a receive buffer gets when `newSize` is asked for. -/
def bufferSize (newSize : Nat) : Nat :=
  shl32 (windowScale 16 0 newSize).2 (windowScale 16 0 newSize).1

/-- The scale factor that goes with it. -/
def bufferScale (newSize : Nat) : Nat :=
  (windowScale 16 0 newSize).1

/-- The low bits that the scaled size has no room for are given up. -/
theorem bufferSize_spec {newSize : Nat} (word : newSize < 2 ^ 32) :
    bufferSize newSize ≤ newSize ∧ bufferSize newSize >>> bufferScale newSize ≤ 0xFFFF := by
  obtain ⟨small, shifts, _, factor, scaled⟩ := windowScale_spec 16 0 newSize word
  have le : newSize >>> shifts <<< shifts ≤ newSize := by
    rw [Nat.shiftLeft_eq, Nat.shiftRight_eq_div_pow]
    exact Nat.div_mul_le_self _ _
  rw [Nat.zero_add] at factor
  have size : bufferSize newSize = newSize >>> shifts <<< shifts := by
    rw [bufferSize, factor, scaled, shl32, Nat.mod_eq_of_lt (by omega)]
  rw [size, bufferScale, factor, Nat.shiftLeft_shiftRight]
  exact ⟨le, scaled ▸ small⟩

/-- The buffer may be resized: nothing is stored out of order and the new size
holds the readable bytes. -/
def Incoming.Resizable (i : Incoming) (newSize : Nat) : Prop :=
  i.rlist = [] ∧ i.rbuf.dataLength ≤ bufferSize newSize

instance (i : Incoming) (newSize : Nat) : Decidable (i.Resizable newSize) :=
  inferInstanceAs (Decidable (_ ∧ _))

/-- If the options of a segment send the receive buffer back to its default size,
it may be resized. -/
def RevertsSafely (s : PseudoTcp) (seg : Segment) : Prop :=
  s.Reverts (fun index => seg.data (index + 1)) (seg.len - 1) → s.Resizable defaultRcvBufSize

instance (s : PseudoTcp) (seg : Segment) : Decidable (s.RevertsSafely seg) :=
  inferInstanceAs (Decidable (_ → _))

theorem Incoming.resize_eq (i : Incoming) (newSize : Nat) (fresh : Memory UInt8) :
    i.resize newSize fresh = { i with
      rbuf := (i.rbuf.setCapacity (bufferSize newSize) fresh).2
      rbufLen := bufferSize newSize
      rwndScale := bufferScale newSize
      rcvWnd := toWord (i.rbuf.setCapacity (bufferSize newSize) fresh).2.getWriteRemaining } :=
  rfl

/-! ## Places inside the free space -/

/-- Up to where segments stored out of order may reach: the end of the free
space, or the end of the announced window. -/
inductive Edge where
  | free
  | window

/-- How far the edge is from the next expected byte. -/
def Incoming.room (i : Incoming) : Edge → Nat
  | .free => i.rbuf.free
  | .window => i.rcvWnd

/-- Every entry of a list ends at most `room` bytes after the next expected byte. -/
def Within (rcvNxt room : Nat) (pending : List RSegment) : Prop :=
  ∀ rseg ∈ pending, rseg.seq < 2 ^ 32 ∧ rseg.len < 2 ^ 32 ∧ rseg.seq + rseg.len ≤ rcvNxt + room

/-- The receive buffer is sound, the edge lies inside the free space, and the
entries to come lie before the edge. -/
structure Bounded (edge : Edge) (i : Incoming) (pending : List RSegment) : Prop where
  sound : i.rbuf.Sound
  next : i.rcvNxt < 2 ^ 32
  room : i.room edge ≤ i.rbuf.free
  within : Within i.rcvNxt (i.room edge) pending

/-- In-order data, or data that is only skipped, does not carry the next expected
byte past the end of a word while segments are stored out of order. -/
def Incoming.StaysBelow (i : Incoming) (seg : Segment) : Prop :=
  (i.adjust seg).seq = i.rcvNxt → i.rlist ≠ [] → i.rcvNxt + (i.adjust seg).len < 2 ^ 32

instance (i : Incoming) (seg : Segment) : Decidable (i.StaysBelow seg) :=
  inferInstanceAs (Decidable (_ → _ → _))

/-- What is left of a segment ends before the edge. -/
def Incoming.EndsBefore (i : Incoming) (edge : Edge) (seg : Segment) : Prop :=
  (i.adjust seg).len ≠ 0 →
    i.offsetOf (i.adjust seg) + (i.adjust seg).len ≤ i.room edge

/-- A segment respects the free space when it does not overrun, and the window
when what is left of it ends there. -/
def Incoming.Respects (i : Incoming) (seg : Segment) : Edge → Prop
  | .free => ¬ i.Overruns seg
  | .window => i.EndsBefore .window seg

instance (i : Incoming) (seg : Segment) : (edge : Edge) → Decidable (i.Respects seg edge)
  | .free => inferInstanceAs (Decidable (¬ _))
  | .window => inferInstanceAs (Decidable (_ → _))

namespace Bounded

variable {edge : Edge} {i : Incoming} {pending : List RSegment}

theorem mono (bounded : Bounded edge i pending) {j : Incoming} (sound : j.rbuf.Sound)
    (next : j.rcvNxt = i.rcvNxt) (wider : i.room edge ≤ j.room edge)
    (room : j.room edge ≤ j.rbuf.free) : Bounded edge j pending where
  sound := sound
  next := next ▸ bounded.next
  room := room
  within rseg member := by
    obtain ⟨seq, len, bound⟩ := bounded.within rseg member
    exact ⟨seq, len, by omega⟩

/-- Delivering bytes before the edge moves the next expected byte towards it. -/
theorem deliver (bounded : Bounded edge i pending) {n : Nat} (fits : n ≤ i.room edge)
    (below : pending ≠ [] → i.rcvNxt + n < 2 ^ 32) : Bounded edge (i.deliver n) pending := by
  have room := bounded.room
  have fitsFree : n ≤ i.rbuf.free := by omega
  have wordFree := bounded.sound.free_word
  obtain ⟨sound, length, data, _⟩ := bounded.sound.consumeWriteBuffer fitsFree
  have freeLeft : (i.deliver n).rbuf.free = i.rbuf.free - n := by
    simp only [Incoming.deliver, FifoBuffer.free, length, data]
    omega
  have roomLeft : (i.deliver n).room edge = i.room edge - n := by
    cases edge with
    | free => exact freeLeft
    | window =>
      simp only [Incoming.room] at fits room
      simp only [Incoming.room, Incoming.deliver]
      exact sub32_of_le fits (by omega)
  exact {
    sound := sound
    next := add32_lt _ _
    room := by omega
    within := by
      intro rseg member
      obtain ⟨seq, len, bound⟩ := bounded.within rseg member
      have whole := below (List.ne_nil_of_mem member)
      refine ⟨seq, len, ?_⟩
      rw [roomLeft]
      simp only [Incoming.deliver]
      rw [add32_of_lt whole]
      omega }

/-- The walk over the out-of-order list stays inside the bounds. -/
theorem recoverList (bounded : Bounded edge i pending) :
    Bounded edge (i.recoverList pending).2 (i.recoverList pending).2.rlist := by
  refine Incoming.recoverList_keeps (P := Bounded edge) ?_ ?_ ?_ ?_ pending i bounded
  · exact fun kept => ⟨kept.next, fun rseg member =>
      ⟨(kept.within rseg member).1, (kept.within rseg member).2.1⟩⟩
  · intro i rseg rest n kept reached ends whole _
    obtain ⟨_, _, bound⟩ := kept.within rseg (by simp)
    have keptRest : Bounded edge i rest :=
      { kept with within := fun g member => kept.within g (by simp [member]) }
    exact keptRest.deliver (by omega) fun _ => by omega
  · intro i rseg rest kept
    exact { kept with within := fun g member => kept.within g (by simp [member]) }
  · intro i rest kept
    exact kept.mono kept.sound rfl (by cases edge <;> exact Nat.le_refl _)
      (by cases edge <;> exact kept.room)

/-- Storing a segment that ends before the edge. -/
theorem store (bounded : Bounded edge i i.rlist) {seg : Segment} (some : seg.len ≠ 0)
    (fits : i.offsetOf seg + seg.len ≤ i.room edge) :
    ∃ rbuf, i.rbuf.writeOffset seg.data seg.len (i.offsetOf seg) = (.success, seg.len, rbuf) ∧
      rbuf.contents = i.rbuf.contents ∧ rbuf.dataLength = i.rbuf.dataLength ∧
      (∀ index < i.rbuf.free, rbuf.past index =
        if i.offsetOf seg ≤ index ∧ index < i.offsetOf seg + seg.len then
          seg.data (index - i.offsetOf seg)
        else i.rbuf.past index) ∧
      ({ i with rbuf := rbuf } : Incoming).room edge = i.room edge ∧
      Bounded edge { i with rbuf := rbuf } i.rlist := by
  have room := bounded.room
  obtain ⟨rbuf, result, sound, length, data, contents, past⟩ :=
    bounded.sound.writeOffset (Nat.pos_of_ne_zero some) (Nat.le_trans fits room) seg.data
  have free : rbuf.free = i.rbuf.free := by simp only [FifoBuffer.free, length, data]
  have same : ({ i with rbuf := rbuf } : Incoming).room edge = i.room edge := by
    cases edge
    · exact free
    · rfl
  refine ⟨rbuf, result, contents, data, past, same,
    bounded.mono sound rfl (Nat.le_of_eq same.symm) ?_⟩
  rw [same]
  exact free ▸ room

/-- Taking in a segment that ends before the edge. -/
theorem receive (bounded : Bounded edge i i.rlist) {seg : Segment} {bIgnoreData : Bool}
    (seqWord : seg.seq < 2 ^ 32) (lenWord : seg.len < 2 ^ 32)
    (ahead : bIgnoreData = false → seg.len ≠ 0 → i.rcvNxt ≤ seg.seq)
    (fits : bIgnoreData = false → seg.len ≠ 0 → i.offsetOf seg + seg.len ≤ i.room edge)
    (below : seg.seq = i.rcvNxt → i.rlist ≠ [] → i.rcvNxt + seg.len < 2 ^ 32) :
    Bounded edge (i.receive seg bIgnoreData).incoming
      (i.receive seg bIgnoreData).incoming.rlist := by
  unfold Incoming.receive
  by_cases empty : seg.len = 0
  · rw [if_pos empty]
    exact bounded
  rw [if_neg empty]
  cases bIgnoreData with
  | true =>
    simp only [if_true]
    split
    · next current =>
      exact {
        sound := bounded.sound
        next := add32_lt _ _
        room := by cases edge <;> exact bounded.room
        within := by
          intro rseg member
          obtain ⟨seq, len, bound⟩ := bounded.within rseg member
          refine ⟨seq, len, ?_⟩
          dsimp only
          rw [add32_of_lt (below current (List.ne_nil_of_mem member))]
          have same : ({ i with rcvNxt := i.rcvNxt + seg.len } : Incoming).room edge =
              i.room edge := by cases edge <;> rfl
          rw [same]
          omega }
    · exact bounded
  | false =>
    have reaches := fits rfl empty
    have notBefore := ahead rfl empty
    obtain ⟨rbuf, result, _, _, _, same, stored⟩ := bounded.store empty reaches
    simp only [Bool.false_eq_true, if_false, result]
    split
    · next current =>
      have offset : i.offsetOf seg = 0 := by
        rw [Incoming.offsetOf, current, sub32_of_le (Nat.le_refl _) bounded.next, Nat.sub_self]
      exact (stored.deliver (by omega) (below current)).recoverList
    · refine { stored with within := ?_ }
      intro rseg member
      rcases mem_insertRSegment.mp member with rfl | old
      · refine ⟨seqWord, lenWord, ?_⟩
        have offset : i.offsetOf seg = seg.seq - i.rcvNxt := sub32_of_le notBefore seqWord
        have sameRoom : ({ i with rbuf := rbuf, rlist := insertRSegment ⟨seg.seq, seg.len⟩ i.rlist }
            : Incoming).room edge = i.room edge := same
        dsimp only at sameRoom ⊢
        omega
      · exact stored.within rseg old

/-- A segment that respects the edge is cut to end before it. -/
theorem respects (bounded : Bounded edge i i.rlist) {seg : Segment} (words : seg.Words)
    (respects : i.Respects seg edge) : ¬ i.Overruns seg ∧ i.EndsBefore edge seg := by
  have inside : ¬ i.Overruns seg := by
    cases edge with
    | free => exact respects
    | window =>
      intro overruns
      obtain ⟨same, some, past⟩ := i.adjust_overruns bounded.sound bounded.next words overruns
      obtain ⟨seqWord, _⟩ := i.adjust_words words
      have ends := respects (by omega)
      have room := bounded.room
      rw [Incoming.offsetOf, sub32_of_le (same ▸ overruns.1) seqWord] at ends
      omega
  refine ⟨inside, ?_⟩
  cases edge with
  | window => exact respects
  | free =>
    intro some
    rcases i.adjust_spec bounded.sound bounded.next words inside with empty | adjusted
    · exact absurd empty some
    · rw [Incoming.offsetOf, sub32_of_le adjusted.ahead adjusted.word]
      exact adjusted.room

/-- Every move keeps the bounds, when what comes in respects them. -/
theorem move {policy : Admission} {s : PseudoTcp} {j : Incoming}
    (bounded : Bounded edge s.toIncoming s.rlist) (move : IncomingMove policy s j)
    (data : ∀ seg, policy.data s seg → seg.Words ∧ s.StaysBelow seg ∧
      (s.ignoresData seg = false → s.Respects seg edge))
    (options : ∀ seg, policy.options s seg → s.RevertsSafely seg)
    (rcvBuf : ∀ size, policy.rcvBuf s size → s.Resizable size) :
    Bounded edge j j.rlist := by
  have resized : ∀ size, size < 2 ^ 32 → s.Resizable size →
      Bounded edge (s.toIncoming.resize size s.notify.memory)
        (s.toIncoming.resize size s.notify.memory).rlist := by
    intro size word ⟨noneStored, holds⟩
    have sizeWord : bufferSize size < 2 ^ 32 :=
      Nat.lt_of_le_of_lt (bufferSize_spec word).1 word
    obtain ⟨sound, _⟩ := bounded.sound.setCapacity sizeWord holds s.notify.memory
    rw [Incoming.resize_eq]
    exact {
      sound := sound
      next := bounded.next
      room := by
        cases edge
        · exact Nat.le_refl _
        · have window : toWord (s.rbuf.setCapacity (bufferSize size)
              s.notify.memory).2.getWriteRemaining =
              (s.rbuf.setCapacity (bufferSize size) s.notify.memory).2.free := by
            rw [sound.getWriteRemaining, toWord_of_lt sound.free_word]
          exact Nat.le_of_eq window
      within := by simp [Within, noneStored] }
  cases move with
  | same => exact bounded
  | @received seg admitted =>
    obtain ⟨words, below, inside⟩ := data seg admitted
    obtain ⟨seqWord, shorter⟩ := s.toIncoming.adjust_words words
    refine bounded.receive seqWord (Nat.lt_of_le_of_lt shorter words.len) ?_ ?_ below
    · intro used some
      rcases s.toIncoming.adjust_spec bounded.sound bounded.next words
        (bounded.respects words (inside used)).1 with empty | adjusted
      · exact absurd empty some
      · exact adjusted.ahead
    · exact fun used some => (bounded.respects words (inside used)).2 some
  | @read _ _ _ rbuf reads =>
    obtain ⟨sound, length, _, data, _⟩ := bounded.sound.read reads
    have wider : s.rbuf.free ≤ rbuf.free := by
      simp only [FifoBuffer.free, length, data]
      omega
    refine bounded.mono sound rfl ?_ ?_
    · cases edge
      · exact wider
      · exact Nat.le_refl _
    · cases edge
      · exact Nat.le_refl _
      · exact Nat.le_trans bounded.room wider
  | opened =>
    have wider : s.toIncoming.openWindow.rcvWnd = s.rbuf.free :=
      s.toIncoming.availableSpace_eq bounded.sound
    refine bounded.mono bounded.sound rfl ?_ ?_
    · cases edge
      · exact Nat.le_refl _
      · exact Nat.le_trans bounded.room (Nat.le_of_eq wider.symm)
    · cases edge
      · exact Nat.le_refl _
      · exact Nat.le_of_eq wider
  | reverted admitted reverts => exact resized _ (by decide) (options _ admitted reverts)
  | resized _ word admitted => exact resized _ word (rcvBuf _ admitted)

end Bounded

/-! ## Runs -/

theorem bytesToLong_lt (memory : Memory UInt8) (start : Nat) :
    bytesToLong memory start < 2 ^ 32 := by
  have first := (memory start).toNat_lt
  have second := (memory (start + 1)).toNat_lt
  have third := (memory (start + 2)).toNat_lt
  have fourth := (memory (start + 3)).toNat_lt
  simp only [bytesToLong]
  omega

/-- The fields of a parsed header are words. -/
theorem segmentOf_words (buffer : Memory UInt8) (size : Nat) : (segmentOf buffer size).Words :=
  ⟨bytesToLong_lt _ _, sub32_lt _ _, bytesToLong_lt _ _⟩

/-- What a run lets in: the receive buffer is resized only while nothing is
stored out of order, and a segment, in the state in which `process` comes to its
data, respects the edge and does not carry the next expected byte past the end
of a word under segments stored out of order. -/
def Orderly (edge : Edge) (s : PseudoTcp) (environment : Environment) (call : ApiCall) : Prop :=
  (∀ seg, call.Brings seg → ∀ t,
    ((s.meet environment).atOptions seg = some t → t.RevertsSafely seg) ∧
    ((s.meet environment).atData seg = some t →
      t.StaysBelow seg ∧ (t.ignoresData seg = false → t.Respects seg edge))) ∧
  ∀ size, call = .setRcvBuf size → s.Resizable size.toNat

/-- For a packet the two conditions can be computed. -/
theorem Orderly.packet {edge : Edge} {s : PseudoTcp} {environment : Environment}
    {buffer : Memory UInt8} {size : Nat}
    (options : ((s.meet environment).atOptions (segmentOf buffer size)).all fun t =>
      decide (t.RevertsSafely (segmentOf buffer size)))
    (data : ((s.meet environment).atData (segmentOf buffer size)).all fun t =>
      decide (t.StaysBelow (segmentOf buffer size) ∧
        (t.ignoresData (segmentOf buffer size) = true ∨
          t.Respects (segmentOf buffer size) edge))) :
    Orderly edge s environment (.notifyPacket buffer size) := by
  refine ⟨?_, by simp⟩
  rintro seg ⟨_, _, call, _, _, rfl⟩ t
  cases call
  simp only [Option.all_eq_true, decide_eq_true_eq] at options data
  refine ⟨options t, fun comes => ⟨(data t comes).1, fun used => ?_⟩⟩
  exact (data t comes).2.resolve_left (by simp [used])

/-- What such a run grants to each call. -/
def Edge.admission (edge : Edge) : Admission :=
  .incoming
    RevertsSafely
    (fun _ _ => True)
    (fun s seg => seg.Words ∧ s.StaysBelow seg ∧ (s.ignoresData seg = false → s.Respects seg edge))
    (fun s size => s.Resizable size)

theorem Orderly.grants {edge : Edge} {s : PseudoTcp} {environment : Environment} {call : ApiCall}
    (orderly : Orderly edge s environment call) :
    Quiet edge.admission (s.meet environment) ∧
      GrantsCall edge.admission (s.meet environment) call := by
  refine grants_incoming (fun seg brought t => ?_) orderly.2
  refine ⟨(orderly.1 seg brought t).1, fun _ => trivial, fun comes => ?_⟩
  obtain ⟨buffer, len, _, _, _, rfl⟩ := brought
  exact ⟨segmentOf_words buffer len, (orderly.1 _ ⟨buffer, len, by assumption, by assumption,
    by assumption, rfl⟩ t).2 comes⟩

/-- The bounds, and a window that fits in the sixteen bits of its field. -/
structure ReceiveInvariant (edge : Edge) (s : PseudoTcp) : Prop where
  bounded : Bounded edge s.toIncoming s.rlist
  capacity : s.rbuf.bufferLength = s.rbufLen
  scaled : s.rbufLen >>> s.rwndScale ≤ 0xFFFF

theorem ReceiveInvariant.new (edge : Edge) (conv now : UInt32) (environment : Environment)
    (rcvMemory sndMemory : Memory UInt8) :
    ReceiveInvariant edge (new conv now environment rcvMemory sndMemory) where
  bounded := {
    sound := .new (by decide) rcvMemory
    next := by simp [PseudoTcp.new]
    room := by cases edge <;> exact Nat.le_refl _
    within := by simp [Within, PseudoTcp.new] }
  capacity := rfl
  scaled := show defaultRcvBufSize >>> 0 ≤ 0xFFFF by decide

theorem ReceiveInvariant.move {edge : Edge} {s t : PseudoTcp} (move : Move edge.admission s t)
    (invariant : ReceiveInvariant edge s) : ReceiveInvariant edge t := by
  have incoming := move.incoming
  have bounded := invariant.bounded.move incoming (fun _ admitted => admitted)
    (fun _ admitted => admitted) (fun _ admitted => admitted)
  have resized : ∀ size, size < 2 ^ 32 → s.Resizable size →
      ((s.toIncoming.resize size s.notify.memory).rbuf.bufferLength =
        (s.toIncoming.resize size s.notify.memory).rbufLen ∧
      (s.toIncoming.resize size s.notify.memory).rbufLen >>>
        (s.toIncoming.resize size s.notify.memory).rwndScale ≤ 0xFFFF) := by
    intro size word ⟨_, holds⟩
    obtain ⟨smaller, fits⟩ := bufferSize_spec word
    rw [Incoming.resize_eq]
    exact ⟨(invariant.bounded.sound.setCapacity (by omega) holds s.notify.memory).2.1, fits⟩
  suffices sizes : t.rbuf.bufferLength = t.rbufLen ∧ t.rbufLen >>> t.rwndScale ≤ 0xFFFF from
    ⟨bounded, sizes.1, sizes.2⟩
  have kept : ∀ j : Incoming, j.sizes = s.sizes →
      j.rbuf.bufferLength = j.rbufLen ∧ j.rbufLen >>> j.rwndScale ≤ 0xFFFF := by
    intro j same
    simp only [Incoming.sizes, Prod.mk.injEq] at same
    rw [same.1, same.2.1, same.2.2]
    exact ⟨invariant.capacity, invariant.scaled⟩
  generalize t.toIncoming = j at incoming ⊢
  cases incoming with
  | same => exact kept _ rfl
  | received _ => exact kept _ (Incoming.sizes_receive _ _ _)
  | read reads =>
    refine kept _ ?_
    simp only [Incoming.sizes, (invariant.bounded.sound.read reads).2.1]
  | opened => exact kept _ rfl
  | reverted admitted reverts => exact resized _ (by decide) (admitted reverts)
  | resized _ word admitted => exact resized _ word admitted

theorem receiveInvariant {edge : Edge} {s : PseudoTcp} (reached : Reachable (Orderly edge) s) :
    ReceiveInvariant edge s := by
  obtain ⟨conv, now, environment, rcvMemory, sndMemory, run⟩ := reached
  exact run.keeps edge.admission (fun ok _ => ok.grants)
    (fun _ kept => ⟨kept.bounded, kept.capacity, kept.scaled⟩) (fun move kept => kept.move move)
    (.new edge conv now environment rcvMemory sndMemory)

end Libjingle.PseudoTcp

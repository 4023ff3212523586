import Libjingle.PseudoTcp.ReceiveWindow
import Libjingle.PseudoTcp.Wire

/-!
# Storing incoming data and accounting for the window

`StoresWhole` says that what is left of a segment goes into free places of the
receive buffer, all of it; in an orderly run that is so exactly for the segments
that do not overrun. `WindowAccounts` says that the window counter stays inside
the free space; it does while accepted data ends before the announced window.
-/

namespace Libjingle.PseudoTcp

open Libjingle.Std
open Libjingle.Base

/-! ## Storing -/

/-- What is left of a segment is stored whole in the free places, the readable
bytes stay as they are, and an entry of the out-of-order list is added for the
stored bytes only. -/
def StoresWhole (i : Incoming) (seg : Segment) : Prop :=
  (i.adjust seg).len ≠ 0 →
    i.offsetOf (i.adjust seg) + (i.adjust seg).len ≤ i.rbuf.free ∧
    ∃ rbuf, i.rbuf.writeOffset (i.adjust seg).data (i.adjust seg).len
        (i.offsetOf (i.adjust seg)) = (.success, (i.adjust seg).len, rbuf) ∧
      rbuf.contents = i.rbuf.contents ∧
      (∀ index < (i.adjust seg).len,
        rbuf.past (i.offsetOf (i.adjust seg) + index) = (i.adjust seg).data index) ∧
      ∀ rseg ∈ (i.receive (i.adjust seg) false).incoming.rlist,
        rseg ∈ i.rlist ∨ rseg = ⟨(i.adjust seg).seq, (i.adjust seg).len⟩

/-- Nothing but the segment itself joins the out-of-order list. -/
theorem Incoming.rlist_receive (i : Incoming) (seg : Segment) (bIgnoreData : Bool)
    (rseg : RSegment) (member : rseg ∈ (i.receive seg bIgnoreData).incoming.rlist) :
    rseg ∈ i.rlist ∨ rseg = ⟨seg.seq, seg.len⟩ := by
  simp only [receive] at member
  split at member
  · exact .inl member
  · split at member
    · split at member <;> exact .inl member
    · split at member
      · refine .inl ?_
        exact (recoverList_subset _ _ rseg member)
      · rcases mem_insertRSegment.mp member with same | old
        · exact .inr same
        · exact .inl old

theorem storesWhole_iff {i : Incoming} {seg : Segment} (bounded : Bounded .free i i.rlist)
    (words : seg.Words) : StoresWhole i seg ↔ ¬ i.Overruns seg := by
  constructor
  · intro stores overruns
    obtain ⟨same, some, past⟩ := i.adjust_overruns bounded.sound bounded.next words overruns
    obtain ⟨seqWord, _⟩ := i.adjust_words words
    have fits := (stores (by omega)).1
    rw [Incoming.offsetOf, sub32_of_le (same ▸ overruns.1) seqWord] at fits
    omega
  · intro inside some
    have fits := (bounded.respects words inside).2 some
    obtain ⟨rbuf, result, contents, _, past, _⟩ := bounded.store some fits
    refine ⟨fits, rbuf, result, contents, fun index bound => ?_,
      Incoming.rlist_receive i _ false⟩
    have room : i.room .free = i.rbuf.free := rfl
    rw [past _ (by omega), if_pos (by omega)]
    congr 1
    omega

/-- In every state that an orderly run reaches, a data segment that `process`
comes to is stored whole if and only if it does not overrun. -/
theorem process_stores_iff {s t : PseudoTcp} (reached : Reachable (Orderly .free) s)
    (environment : Environment) (buffer : Memory UInt8) (size : Nat)
    (comes : (s.meet environment).atData (segmentOf buffer size) = some t)
    (used : t.ignoresData (segmentOf buffer size) = false) :
    StoresWhole t.toIncoming (segmentOf buffer size) ↔ ¬ t.Overruns (segmentOf buffer size) := by
  have plain : (segmentOf buffer size).flags &&& flagCtl = 0 := by
    simp only [ignoresData, decide_eq_false_iff_not, not_or, not_not] at used
    exact used.1
  have granted : Quiet (Edge.admission .free) (s.meet environment) ∧
      GrantsHeader (Edge.admission .free) (s.meet environment) (segmentOf buffer size) :=
    grantsHeader_incoming plain fun _ _ => trivial
  have moves := atData_moves granted.1 granted.2 comes
  have start : ReceiveInvariant .free (s.meet environment) :=
    let kept := receiveInvariant reached
    ⟨kept.bounded, kept.capacity, kept.scaled⟩
  have kept : ReceiveInvariant .free t := moves.keeps (fun move kept => kept.move move) start
  exact storesWhole_iff kept.bounded (segmentOf_words buffer size)

/-- The opening is orderly for either edge. -/
theorem opening_orderly (edge : Edge) : AllOk (Orderly edge) fresh opening := by
  refine ⟨trivial, ⟨?_, by simp⟩, trivial, .packet ?_ ?_, trivial⟩
  · rintro seg ⟨_, _, call, _⟩
    cases call
  · decide +kernel
  · cases edge <;> decide +kernel

/-- A segment that lies `seq` into the stream. -/
private def dataAt (seq : Nat) (payload : List UInt8) : List UInt8 :=
  packetBytes seq 4 0 61440 payload

theorem process_stores_iff_ahead : ∃ t,
    ((fresh.runAll opening).meet .silent).atData
      (segmentOf (FifoBuffer.pointer (dataAt 9 [7, 8])) 26) = some t ∧
    (StoresWhole t.toIncoming (segmentOf (FifoBuffer.pointer (dataAt 9 [7, 8])) 26) ↔
      ¬ t.Overruns (segmentOf (FifoBuffer.pointer (dataAt 9 [7, 8])) 26)) := by
  have comes : (((fresh.runAll opening).meet .silent).atData
      (segmentOf (FifoBuffer.pointer (dataAt 9 [7, 8])) 26)).any (fun t =>
        t.ignoresData (segmentOf (FifoBuffer.pointer (dataAt 9 [7, 8])) 26) = false) := by
    decide +kernel
  obtain ⟨t, at_t, used⟩ := (Option.any_eq_true _ _).mp comes
  exact ⟨t, at_t, process_stores_iff (opening_orderly .free).reachable .silent _ _ at_t
    (of_decide_eq_true used)⟩

/-- A segment whose end wraps past the window test is not stored, though it is
listed: nothing of it fits in the receive buffer. -/
theorem wrapped_segment_lost :
    ¬ ∀ s t buffer size, Reachable (fun _ _ _ => True) s → s.state = .established →
      s.shutdown = .none → headerSize ≤ size → size ≤ headerSize + maxPacket →
      (s.meet .silent).atData (segmentOf buffer size) = some t →
      t.ignoresData (segmentOf buffer size) = false →
      StoresWhole t.toIncoming (segmentOf buffer size) := by
  intro claim
  let far := segmentOf (FifoBuffer.pointer (dataAt (2 ^ 32 - 1) (List.replicate 10 7))) 34
  have reached : Reachable (fun _ _ _ => True) (fresh.runAll opening) :=
    AllOk.reachable ⟨trivial, trivial, trivial, trivial, trivial⟩
  have comes : (((fresh.runAll opening).meet .silent).atData far).any (fun t =>
      t.ignoresData far = false ∧ (t.adjust far).len ≠ 0 ∧
        t.rbuf.free < t.offsetOf (t.adjust far) + (t.adjust far).len) := by decide +kernel
  obtain ⟨t, at_t, facts⟩ := (Option.any_eq_true _ _).mp comes
  obtain ⟨used, some, outside⟩ := of_decide_eq_true facts
  have stores := claim _ t _ _ reached (by decide +kernel) (by decide +kernel) (by decide)
    (by decide) at_t used
  exact absurd (stores some).1 (Nat.not_le.mpr outside)

/-! ## The window -/

/-- The window field of a packet as its receiver reads it. -/
def PacketCall.window (call : PacketCall) : Nat :=
  (segmentOf (FifoBuffer.pointer call.buffer) call.buffer.length).wnd

/-- The window counter lies inside the free space, and the free space inside the
buffer; `Recv` subtracts the counter from no less than it, and a packet announces
the counter up to the bits its scale drops. -/
structure WindowAccounts (s : PseudoTcp) : Prop where
  inside : s.rcvWnd ≤ s.rbuf.getWriteRemaining
  within : s.rbuf.getWriteRemaining ≤ s.rbufLen
  read : ∀ bytes result data rbuf, s.rbuf.read bytes = (result, data, rbuf) →
    s.rcvWnd ≤ toWord rbuf.getWriteRemaining
  announced : ∀ seq flags offset len, ∃ call,
    (s.packet seq flags offset len).2.history = .packet call :: s.history ∧
      call.window <<< s.rwndScale ≤ s.rbuf.getWriteRemaining ∧
      call.window <<< s.rwndScale ≤ s.rcvWnd ∧
      s.rcvWnd < call.window <<< s.rwndScale + 2 ^ s.rwndScale

/-- Taking a segment in moves bytes from the window to the readable ones, as many
as leave the one as join the other. -/
def Spends (s : PseudoTcp) (seg : Segment) : Prop :=
  (s.toIncoming.receive (s.adjust seg) (s.ignoresData seg)).incoming.rcvWnd +
      (s.toIncoming.receive (s.adjust seg) (s.ignoresData seg)).incoming.rbuf.dataLength =
    s.rcvWnd + s.rbuf.dataLength

namespace Bounded

variable {i : Incoming} {pending : List RSegment}

theorem deliver_spends (bounded : Bounded .window i pending) {n : Nat} (fits : n ≤ i.rcvWnd) :
    (i.deliver n).rcvWnd + (i.deliver n).rbuf.dataLength = i.rcvWnd + i.rbuf.dataLength := by
  have room : i.rcvWnd ≤ i.rbuf.free := bounded.room
  have word := bounded.sound.free_word
  obtain ⟨_, _, data, _⟩ := bounded.sound.consumeWriteBuffer (Nat.le_trans fits room)
  simp only [Incoming.deliver, data]
  rw [sub32_of_le fits (by omega)]
  omega

theorem recoverList_spends (bounded : Bounded .window i pending) :
    (i.recoverList pending).2.rcvWnd + (i.recoverList pending).2.rbuf.dataLength =
      i.rcvWnd + i.rbuf.dataLength := by
  refine (Incoming.recoverList_keeps (P := fun j rest => Bounded .window j rest ∧
    j.rcvWnd + j.rbuf.dataLength = i.rcvWnd + i.rbuf.dataLength) ?_ ?_ ?_ ?_ pending i
    ⟨bounded, rfl⟩).2
  · exact fun kept => ⟨kept.1.next, fun rseg member =>
      ⟨(kept.1.within rseg member).1, (kept.1.within rseg member).2.1⟩⟩
  · intro j rseg rest n kept reached ends whole _
    obtain ⟨bound, spent⟩ := kept
    have last : rseg.seq + rseg.len ≤ j.rcvNxt + j.rcvWnd := (bound.within rseg (by simp)).2.2
    have boundRest : Bounded .window j rest :=
      { bound with within := fun g member => bound.within g (by simp [member]) }
    have fits : n ≤ j.rcvWnd := by omega
    exact ⟨boundRest.deliver fits fun _ => by omega,
      (boundRest.deliver_spends fits).trans spent⟩
  · rintro j rseg rest ⟨bound, spent⟩
    exact ⟨{ bound with within := fun g member => bound.within g (by simp [member]) }, spent⟩
  · rintro j rest ⟨bound, spent⟩
    exact ⟨bound.mono bound.sound rfl (Nat.le_refl _) bound.room, spent⟩

theorem receive_spends (bounded : Bounded .window i i.rlist) {seg : Segment} {bIgnoreData : Bool}
    (fits : bIgnoreData = false → seg.len ≠ 0 → i.offsetOf seg + seg.len ≤ i.rcvWnd)
    (below : seg.seq = i.rcvNxt → i.rlist ≠ [] → i.rcvNxt + seg.len < 2 ^ 32) :
    (i.receive seg bIgnoreData).incoming.rcvWnd +
      (i.receive seg bIgnoreData).incoming.rbuf.dataLength = i.rcvWnd + i.rbuf.dataLength := by
  unfold Incoming.receive
  by_cases empty : seg.len = 0
  · rw [if_pos empty]
  rw [if_neg empty]
  cases bIgnoreData with
  | true =>
    simp only [if_true]
    split <;> rfl
  | false =>
    have reaches := fits rfl empty
    obtain ⟨rbuf, result, _, data, _, _, stored⟩ := bounded.store empty reaches
    simp only [Bool.false_eq_true, if_false, result]
    split
    · next current =>
      have inOrder : seg.len ≤ ({ i with rbuf := rbuf } : Incoming).rcvWnd := by
        dsimp only
        omega
      have delivered := stored.deliver inOrder (below current)
      rw [delivered.recoverList_spends, stored.deliver_spends inOrder, data]
    · rw [data]

end Bounded

theorem ReceiveInvariant.accounts {s : PseudoTcp} (invariant : ReceiveInvariant .window s) :
    WindowAccounts s := by
  have sound := invariant.bounded.sound
  have room : s.rcvWnd ≤ s.rbuf.free := invariant.bounded.room
  have capacity := invariant.capacity
  have small : s.rbuf.free ≤ s.rbufLen := by
    rw [FifoBuffer.free, capacity]
    exact Nat.sub_le _ _
  refine ⟨sound.getWriteRemaining ▸ room, sound.getWriteRemaining ▸ small, ?_, ?_⟩
  · intro bytes result data rbuf reads
    obtain ⟨readSound, length, _, left, _⟩ := sound.read reads
    rw [readSound.getWriteRemaining, toWord_of_lt readSound.free_word]
    simp only [FifoBuffer.free] at room ⊢
    omega
  · intro seq flags offset len
    obtain ⟨call, spec, _⟩ := packet_spec s seq flags offset len
    obtain ⟨now, tsRecent, rest, shape, _⟩ := spec.buffer
    refine ⟨call, spec.history, ?_⟩
    have scaled : s.rcvWnd >>> s.rwndScale < 2 ^ 16 := by
      have fits := invariant.scaled
      rw [Nat.shiftRight_eq_div_pow] at fits ⊢
      have smaller := Nat.div_le_div_right (c := 2 ^ s.rwndScale) (Nat.le_trans room small)
      omega
    have field : call.window = s.rcvWnd >>> s.rwndScale := by
      have carried := (segmentOf_carries s.conv seq s.rcvNxt flags (s.rcvWnd >>> s.rwndScale) now
        tsRecent (call.payload ++ rest)).wnd
      simp only [← List.append_assoc, ← shape] at carried
      exact carried.trans (Nat.mod_eq_of_lt scaled)
    have lower : s.rcvWnd >>> s.rwndScale <<< s.rwndScale ≤ s.rcvWnd := by
      rw [Nat.shiftLeft_eq, Nat.shiftRight_eq_div_pow]
      exact Nat.div_mul_le_self _ _
    have upper : s.rcvWnd < s.rcvWnd >>> s.rwndScale <<< s.rwndScale + 2 ^ s.rwndScale := by
      rw [Nat.shiftLeft_eq, Nat.shiftRight_eq_div_pow, Nat.mul_comm]
      have parts := Nat.div_add_mod s.rcvWnd (2 ^ s.rwndScale)
      have rest := Nat.mod_lt s.rcvWnd (Nat.two_pow_pos s.rwndScale)
      omega
    rw [field, sound.getWriteRemaining]
    exact ⟨Nat.le_trans lower room, lower, upper⟩

end Libjingle.PseudoTcp

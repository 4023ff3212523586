import Libjingle.Base.FifoSound
import Libjingle.PseudoTcp.Receiving

/-!
# What taking a segment in does

One specification lemma for each part of the receiving code: how a segment is
cut to the receive buffer, what delivering in order does, and an induction rule
for the walk over the out-of-order list. Sequence numbers are compared as plain
numbers, as the code does; `Overruns` names the segments for which the window
test does not mean what it says.
-/

namespace Libjingle.PseudoTcp

open Libjingle.Std
open Libjingle.Base

variable {i : Incoming} {seg : Segment}

/-- The sequence number, the length and the acknowledgement are `uint32` values. -/
structure Segment.Words (seg : Segment) : Prop where
  seq : seg.seq < 2 ^ 32
  len : seg.len < 2 ^ 32
  ack : seg.ack < 2 ^ 32

/-- The segment lies ahead, and so far that its end is past the end of a word
when counted from the next expected byte. -/
def Incoming.Overruns (i : Incoming) (seg : Segment) : Prop :=
  i.rcvNxt ≤ seg.seq ∧ 2 ^ 32 ≤ seg.seq - i.rcvNxt + seg.len

instance (i : Incoming) (seg : Segment) : Decidable (i.Overruns seg) :=
  inferInstanceAs (Decidable (_ ∧ _))

/-- What is left of a segment after it has been cut to the receive buffer: a part
of it that starts at or after the next expected byte and fits in the free places.
Only what lies outside is cut off. -/
structure Adjusted (i : Incoming) (seg adj : Segment) : Prop where
  part : ∃ skip, adj.seq = seg.seq + skip ∧ skip + adj.len ≤ seg.len ∧
    adj.data = fun index => seg.data (skip + index)
  word : adj.seq < 2 ^ 32
  ahead : i.rcvNxt ≤ adj.seq
  room : adj.seq - i.rcvNxt + adj.len ≤ i.rbuf.free
  whole : seg.seq + seg.len ≤ i.rcvNxt + i.rbuf.free → adj.seq + adj.len = seg.seq + seg.len

theorem Incoming.availableSpace_eq (sound : i.rbuf.Sound) : i.availableSpace = i.rbuf.free := by
  rw [availableSpace, sound.getWriteRemaining, toWord_of_lt sound.free_word]

/-- A segment that does not overrun is cut to what fits, perhaps to nothing. -/
theorem Incoming.adjust_spec (sound : i.rbuf.Sound) (next : i.rcvNxt < 2 ^ 32)
    (words : seg.Words) (inside : ¬ i.Overruns seg) :
    (i.adjust seg).len = 0 ∨ Adjusted i seg (i.adjust seg) := by
  have seqWord := words.seq
  have lenWord := words.len
  have freeWord := sound.free_word
  simp only [Overruns, not_and, Nat.not_le] at inside
  simp only [adjust, trimRight, i.availableSpace_eq sound, trimLeft]
  by_cases old : seg.seq < i.rcvNxt
  · simp only [old, if_true]
    by_cases partly : i.rcvNxt - seg.seq < seg.len
    · simp only [partly, if_true]
      have start : add32 seg.seq (i.rcvNxt - seg.seq) = i.rcvNxt := by
        rw [add32_of_lt (by omega)]
        omega
      have past : sub32 (add32 i.rcvNxt (seg.len - (i.rcvNxt - seg.seq))) i.rcvNxt =
          seg.len - (i.rcvNxt - seg.seq) := sub32_add32 next (by omega)
      simp only [start, past]
      split
      · split
        · refine .inr ⟨⟨i.rcvNxt - seg.seq, ?_, ?_, rfl⟩, ?_, ?_, ?_, ?_⟩ <;> dsimp only <;> omega
        · exact .inl rfl
      · refine .inr ⟨⟨i.rcvNxt - seg.seq, ?_, ?_, rfl⟩, ?_, ?_, ?_, ?_⟩ <;> dsimp only <;> omega
    · simp only [partly, if_false]
      refine .inl ?_
      split
      · split
        · dsimp only; omega
        · rfl
      · rfl
  · simp only [old, if_false]
    have far := inside (by omega)
    have past : sub32 (add32 seg.seq seg.len) i.rcvNxt = seg.seq - i.rcvNxt + seg.len := by
      simp only [sub32, add32]
      omega
    simp only [past]
    split
    · split
      · refine .inr ⟨⟨0, rfl, ?_, ?_⟩, ?_, ?_, ?_, ?_⟩ <;> dsimp only
        · omega
        · simp only [Nat.zero_add]
        · omega
        · omega
        · omega
        · omega
      · exact .inl rfl
    · refine .inr ⟨⟨0, rfl, ?_, ?_⟩, ?_, ?_, ?_, ?_⟩
      · omega
      · simp only [Nat.zero_add]
      · omega
      · omega
      · omega
      · intro _; rfl

/-- Cutting a segment keeps its words. -/
theorem Incoming.adjust_words (i : Incoming) (words : seg.Words) :
    (i.adjust seg).seq < 2 ^ 32 ∧ (i.adjust seg).len ≤ seg.len := by
  have seqWord := words.seq
  have left : (i.trimLeft seg).seq < 2 ^ 32 ∧ (i.trimLeft seg).len ≤ seg.len := by
    simp only [trimLeft]
    split
    · split
      · exact ⟨add32_lt _ _, Nat.sub_le _ _⟩
      · exact ⟨seqWord, Nat.zero_le _⟩
    · exact ⟨seqWord, Nat.le_refl _⟩
  simp only [adjust, trimRight]
  split
  · split
    · exact ⟨left.1, Nat.le_trans (Nat.sub_le _ _) left.2⟩
    · exact ⟨left.1, Nat.zero_le _⟩
  · exact left

/-- An overrunning segment is not cut to the free places. -/
theorem Incoming.adjust_overruns (sound : i.rbuf.Sound) (next : i.rcvNxt < 2 ^ 32)
    (words : seg.Words) (overruns : i.Overruns seg) :
    (i.adjust seg).seq = seg.seq ∧ 0 < (i.adjust seg).len ∧
      i.rbuf.free < (i.adjust seg).seq - i.rcvNxt + (i.adjust seg).len := by
  have seqWord := words.seq
  have lenWord := words.len
  have freeWord := sound.free_word
  obtain ⟨ahead, far⟩ := overruns
  have old : ¬ seg.seq < i.rcvNxt := by omega
  have past : sub32 (add32 seg.seq seg.len) i.rcvNxt =
      seg.seq - i.rcvNxt + seg.len - 2 ^ 32 := by
    simp only [sub32, add32]
    omega
  simp only [adjust, trimRight, i.availableSpace_eq sound, trimLeft, old, if_false, past]
  split
  · split
    · refine ⟨rfl, ?_, ?_⟩ <;> dsimp only <;> omega
    · omega
  · exact ⟨rfl, by omega, by omega⟩

/-! ## The out-of-order list -/

@[simp] theorem bufferLength_consumeWriteBuffer (f : FifoBuffer) (size : Nat) :
    (f.consumeWriteBuffer size).bufferLength = f.bufferLength := by
  simp only [FifoBuffer.consumeWriteBuffer]
  split <;> rfl

@[simp] theorem bufferLength_writeOffset (f : FifoBuffer) (source : Memory UInt8)
    (bytes offset : Nat) : (f.writeOffset source bytes offset).2.2.bufferLength = f.bufferLength := by
  simp only [FifoBuffer.writeOffset]
  split
  · rfl
  · split <;> rfl

/-- The sizes and the scale of the receive buffer. -/
def Incoming.sizes (i : Incoming) : Nat × Nat × Nat :=
  (i.rbuf.bufferLength, i.rbufLen, i.rwndScale)

theorem Incoming.sizes_recoverList (pending : List RSegment) (i : Incoming) :
    (i.recoverList pending).2.sizes = i.sizes := by
  induction pending generalizing i with
  | nil => rfl
  | cons rseg rest ih =>
    simp only [recoverList]
    split
    · split
      · rw [ih]
        simp [sizes, deliver]
      · exact ih i
    · rfl

/-- Taking a segment in changes neither. -/
theorem Incoming.sizes_receive (i : Incoming) (seg : Segment) (bIgnoreData : Bool) :
    (i.receive seg bIgnoreData).incoming.sizes = i.sizes := by
  simp only [receive]
  split
  · rfl
  · split
    · split <;> rfl
    · split
      · rw [sizes_recoverList]
        simp [sizes, deliver]
      · simp [sizes]

/-- What the walk over the out-of-order list keeps. `P` speaks about the incoming
half and the entries still to come: it may rely on a delivery reaching exactly
the end of an entry that starts at or before the next expected byte. -/
theorem Incoming.recoverList_keeps {P : Incoming → List RSegment → Prop}
    (bounds : ∀ {i pending}, P i pending → i.rcvNxt < 2 ^ 32 ∧
      ∀ rseg ∈ pending, rseg.seq < 2 ^ 32 ∧ rseg.len < 2 ^ 32)
    (deliver : ∀ {i rseg rest n}, P i (rseg :: rest) → rseg.seq ≤ i.rcvNxt →
      i.rcvNxt + n = rseg.seq + rseg.len → rseg.seq + rseg.len < 2 ^ 32 → 0 < n →
      P (i.deliver n) rest)
    (skip : ∀ {i rseg rest}, P i (rseg :: rest) → P i rest)
    (stop : ∀ {i rest}, P i rest → P { i with rlist := rest } rest)
    (pending : List RSegment) (i : Incoming) (start : P i pending) :
    P (i.recoverList pending).2 (i.recoverList pending).2.rlist := by
  induction pending generalizing i with
  | nil => exact stop start
  | cons rseg rest ih =>
    obtain ⟨next, words⟩ := bounds start
    obtain ⟨seqWord, lenWord⟩ := words rseg (by simp)
    simp only [recoverList]
    split
    · next reached =>
      split
      · next more =>
        -- The end of the entry has not wrapped, or it would lie before its start.
        have whole : rseg.seq + rseg.len < 2 ^ 32 := by
          simp only [add32] at more
          omega
        rw [add32_of_lt whole] at more ⊢
        rw [sub32_of_le (Nat.le_of_lt more) whole]
        have ends : i.rcvNxt + (rseg.seq + rseg.len - i.rcvNxt) = rseg.seq + rseg.len := by
          omega
        exact ih _ (deliver start reached ends whole (by omega))
      · exact ih _ (skip start)
    · exact stop start

/-- Entries only leave the list. -/
theorem Incoming.recoverList_subset (pending : List RSegment) (i : Incoming) :
    ∀ rseg ∈ (i.recoverList pending).2.rlist, rseg ∈ pending := by
  induction pending generalizing i with
  | nil => exact fun _ member => member
  | cons first rest ih =>
    simp only [recoverList]
    split
    · split
      · exact fun rseg member => List.mem_cons_of_mem _ (ih _ rseg member)
      · exact fun rseg member => List.mem_cons_of_mem _ (ih _ rseg member)
    · exact fun _ member => member

theorem mem_insertRSegment {rseg g : RSegment} {rlist : List RSegment} :
    g ∈ insertRSegment rseg rlist ↔ g = rseg ∨ g ∈ rlist := by
  induction rlist with
  | nil => simp [insertRSegment]
  | cons head tail ih =>
    simp only [insertRSegment]
    split
    · simp only [List.mem_cons, ih]
      exact or_left_comm
    · simp

end Libjingle.PseudoTcp

import Libjingle.PseudoTcp.Moves

/-!
# Packets on the wire

What the receiver of a packet reads in its header and behind it. The fields come
back modulo their widths, and the payload byte for byte.
-/

namespace Libjingle.PseudoTcp

open Libjingle.Std
open Libjingle.Base

theorem pointer_of_lt {source : List UInt8} {index : Nat} (inside : index < source.length) :
    FifoBuffer.pointer source index = source[index] :=
  Memory.ofList_of_lt source _ inside

/-- A pointer into a list, past its front. -/
theorem pointer_append (front back : List UInt8) (index : Nat) :
    FifoBuffer.pointer (front ++ back) (front.length + index) = FifoBuffer.pointer back index := by
  simp [FifoBuffer.pointer, Memory.ofList, Memory.copy, List.getElem?_append_right]

theorem bytesToLong_longToBytes (front back : List UInt8) (value : Nat) :
    bytesToLong (FifoBuffer.pointer (front ++ (longToBytes value ++ back))) front.length =
      value % 2 ^ 32 := by
  have first := pointer_append front (longToBytes value ++ back) 0
  simp only [bytesToLong, Nat.add_zero] at first ⊢
  simp only [first, pointer_append]
  simp only [FifoBuffer.pointer, Memory.ofList, Memory.copy, longToBytes]
  simp
  omega

theorem bytesToShort_shortToBytes (front back : List UInt8) (value : Nat) :
    bytesToShort (FifoBuffer.pointer (front ++ (shortToBytes value ++ back))) front.length =
      value % 2 ^ 16 := by
  have first := pointer_append front (shortToBytes value ++ back) 0
  simp only [bytesToShort, Nat.add_zero] at first ⊢
  simp only [first, pointer_append]
  simp only [FifoBuffer.pointer, Memory.ofList, Memory.copy, shortToBytes]
  simp
  omega

/-- The segment that `Segment` fields and payload make up, as the receiver sees it. -/
structure Carries (seg : Segment) (conv seq ack flags wnd : Nat) (payload : List UInt8) :
    Prop where
  conv : seg.conv = conv % 2 ^ 32
  seq : seg.seq = seq % 2 ^ 32
  ack : seg.ack = ack % 2 ^ 32
  flags : seg.flags = flags % 2 ^ 8
  wnd : seg.wnd = wnd % 2 ^ 16
  len : seg.len = payload.length % 2 ^ 32
  data : ∀ index (inside : index < payload.length), seg.data index = payload[index]

theorem segmentOf_carries (conv seq ack flags wnd tsval tsecr : Nat) (payload : List UInt8) :
    let bytes := longToBytes conv ++ longToBytes seq ++ longToBytes ack ++
      [0, UInt8.ofNat flags] ++ shortToBytes wnd ++ longToBytes tsval ++ longToBytes tsecr ++ payload
    Carries (segmentOf (FifoBuffer.pointer bytes) bytes.length) conv seq ack flags wnd payload where
  conv := by
    have field := bytesToLong_longToBytes [] (longToBytes seq ++ longToBytes ack ++
      [0, UInt8.ofNat flags] ++ shortToBytes wnd ++ longToBytes tsval ++ longToBytes tsecr ++
      payload) conv
    simp only [segmentOf, List.append_assoc] at field ⊢
    exact field
  seq := by
    have field := bytesToLong_longToBytes (longToBytes conv) (longToBytes ack ++
      [0, UInt8.ofNat flags] ++ shortToBytes wnd ++ longToBytes tsval ++ longToBytes tsecr ++
      payload) seq
    simp only [segmentOf, List.append_assoc] at field ⊢
    exact field
  ack := by
    have field := bytesToLong_longToBytes (longToBytes conv ++ longToBytes seq)
      ([0, UInt8.ofNat flags] ++ shortToBytes wnd ++ longToBytes tsval ++ longToBytes tsecr ++
      payload) ack
    simp only [segmentOf, List.append_assoc] at field ⊢
    exact field
  flags := by
    simp [segmentOf, FifoBuffer.pointer, Memory.ofList, Memory.copy, longToBytes]
  wnd := by
    have field := bytesToShort_shortToBytes (longToBytes conv ++ longToBytes seq ++
      longToBytes ack ++ [0, UInt8.ofNat flags]) (longToBytes tsval ++ longToBytes tsecr ++
      payload) wnd
    simp only [segmentOf, List.append_assoc] at field ⊢
    exact field
  len := by
    simp [segmentOf, headerSize, longToBytes, shortToBytes, sub32]
    omega
  data index inside := by
    have place := pointer_append (longToBytes conv ++ longToBytes seq ++ longToBytes ack ++
      [0, UInt8.ofNat flags] ++ shortToBytes wnd ++ longToBytes tsval ++ longToBytes tsecr)
      payload index
    exact place.trans (pointer_of_lt inside)

end Libjingle.PseudoTcp

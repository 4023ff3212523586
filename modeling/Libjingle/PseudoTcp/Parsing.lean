import Libjingle.PseudoTcp.Wire

/-!
# What `parse` reads

`parse` turns away packets of fewer than twelve bytes, and the header has
twenty-four. A packet in between is read past its end, and the length of its payload
wraps. Every other packet is read as it stands, and gives back what `packet` wrote.
-/

namespace Libjingle.PseudoTcp

open Libjingle.Std
open Libjingle.Base

/-- A string stands at the start of a buffer; what is behind it is not said. -/
def Holds (buffer : Memory UInt8) (bytes : List UInt8) : Prop :=
  ∀ index (inside : index < bytes.length), buffer index = bytes[index]

theorem Holds.pointer (bytes : List UInt8) : Holds (FifoBuffer.pointer bytes) bytes :=
  fun _ inside => pointer_of_lt inside

theorem Holds.bytesToLong {buffer other : Memory UInt8} {bytes : List UInt8} {start : Nat}
    (holds : Holds buffer bytes) (same : Holds other bytes) (inside : start + 3 < bytes.length) :
    bytesToLong buffer start = PseudoTcp.bytesToLong other start := by
  simp only [PseudoTcp.bytesToLong]
  rw [holds start (by omega), holds (start + 1) (by omega), holds (start + 2) (by omega),
    holds (start + 3) inside, same start (by omega), same (start + 1) (by omega),
    same (start + 2) (by omega), same (start + 3) inside]

/-- The segment of a packet is made of the packet alone: the header fields do not depend
on the memory behind it, and the payload is the rest of it. -/
structure ReadInside (bytes : List UInt8) : Prop where
  header : ∀ buffer other, Holds buffer bytes → Holds other bytes →
    { segmentOf buffer bytes.length with data := fun _ => 0 } =
      { segmentOf other bytes.length with data := fun _ => 0 }
  len : ∀ buffer, (segmentOf buffer bytes.length).len + headerSize = bytes.length
  data : ∀ buffer, Holds buffer bytes → ∀ index (inside : headerSize + index < bytes.length),
    (segmentOf buffer bytes.length).data index = bytes[headerSize + index]

/-- The call turns the packet away in every state and leaves the state alone, or it
processes a segment that is made of the packet alone. -/
def ParsedSafely (bytes : List UInt8) : Prop :=
  (∀ (s : PseudoTcp) buffer, Holds buffer bytes →
    s.notifyPacket buffer bytes.length = (false, s)) ∨
  (∀ (s : PseudoTcp) buffer, Holds buffer bytes →
    s.notifyPacket buffer bytes.length = s.process (segmentOf buffer bytes.length)) ∧
  ReadInside bytes

theorem readInside_of_le {bytes : List UInt8} (long : headerSize ≤ bytes.length)
    (short : bytes.length ≤ maxPacket) : ReadInside bytes where
  header buffer other holds same := by
    have long : 24 ≤ bytes.length := long
    simp only [segmentOf, holds.bytesToLong same (show 0 + 3 < _ by omega),
      holds.bytesToLong same (show 4 + 3 < _ by omega),
      holds.bytesToLong same (show 8 + 3 < _ by omega),
      holds.bytesToLong same (show 16 + 3 < _ by omega),
      holds.bytesToLong same (show 20 + 3 < _ by omega), bytesToShort,
      holds 13 (by omega), same 13 (by omega), holds 14 (by omega), same 14 (by omega),
      holds (14 + 1) (by omega), same (14 + 1) (by omega)]
  len buffer := by
    have small : bytes.length < 2 ^ 32 := Nat.lt_of_le_of_lt short (by decide)
    rw [segmentOf, sub32_of_le long small, Nat.sub_add_cancel long]
  data _ holds index inside := holds (headerSize + index) inside

/-- The payload length of a packet between the two sizes wraps. -/
theorem not_readInside {bytes : List UInt8} (short : bytes.length < headerSize) :
    ¬ ReadInside bytes := by
  intro inside
  have short : bytes.length < 24 := short
  have len := inside.len (FifoBuffer.pointer bytes)
  simp only [segmentOf, headerSize, sub32] at len
  omega

/-- A closed connection that has seen no traffic at time zero. -/
def idle (conv : Nat) : PseudoTcp :=
  { fresh with conv := conv, state := .closed, lastTraffic := 1 }

/-- A closed connection notes every packet of its conversation. -/
theorem process_idle (seg : Segment) :
    ((idle seg.conv).process seg).2.lastTraffic = 0 := by
  simp only [process, processHeader, idle, ne_eq, not_true_eq_false, if_false]
  rfl

theorem parsedSafely_iff (bytes : List UInt8) :
    ParsedSafely bytes ↔ ¬ (12 ≤ bytes.length ∧ bytes.length < headerSize) := by
  constructor
  · rintro (refused | ⟨-, inside⟩) ⟨long, short⟩
    · have fits : ¬ maxPacket < bytes.length :=
        Nat.not_lt.mpr (Nat.le_trans (Nat.le_of_lt short) (by decide))
      let buffer := FifoBuffer.pointer bytes
      let s := idle (segmentOf buffer bytes.length).conv
      have unchanged := refused s buffer (Holds.pointer bytes)
      rw [notifyPacket, if_neg fits, parse, if_neg (Nat.not_lt.mpr long)] at unchanged
      have noted : (s.process (segmentOf buffer bytes.length)).2.lastTraffic = 0 := process_idle _
      rw [unchanged] at noted
      cases noted
    · exact not_readInside short inside
  · intro whole
    by_cases fits : maxPacket < bytes.length
    · exact .inl fun s buffer _ => by rw [notifyPacket, if_pos fits]
    · by_cases short : bytes.length < 12
      · exact .inl fun s buffer _ => by rw [notifyPacket, if_neg fits, parse, if_pos short]
      · have long : headerSize ≤ bytes.length := Nat.not_lt.mp fun below =>
          whole ⟨Nat.not_lt.mp short, below⟩
        exact .inr ⟨fun s buffer _ => by rw [notifyPacket, if_neg fits, parse, if_neg short],
          readInside_of_le long (Nat.not_lt.mp fits)⟩

/-! ## What `packet` wrote -/

/-- The segment of a packet gives back what the packet was made of, `uint32` members
modulo their width and the window as the header has it. -/
structure Recovers (s : PseudoTcp) (now : Nat) (seq : UInt32) (flags : UInt8)
    (payload : List UInt8) (seg : Segment) : Prop where
  conv : seg.conv = toWord s.conv
  seq : seg.seq = seq.toNat
  ack : seg.ack = toWord s.rcvNxt
  flags : seg.flags = flags.toNat
  wnd : seg.wnd = (s.rcvWnd >>> s.rwndScale) % 2 ^ 16
  tsval : seg.tsval = toWord now
  tsecr : seg.tsecr = toWord s.tsRecent
  len : seg.len = payload.length
  data : ∀ index (inside : index < payload.length), seg.data index = payload[index]

theorem length_headerBytes (s : PseudoTcp) (now seq flags : Nat) :
    (s.headerBytes now seq flags).length = headerSize := rfl

theorem Holds.append {buffer : Memory UInt8} {front back : List UInt8}
    (holds : Holds buffer (front ++ back)) : Holds buffer front := fun index inside => by
  rw [holds index (by rw [List.length_append]; omega), List.getElem_append_left inside]

theorem recovers_of_holds (s : PseudoTcp) (now : Nat) (seq : UInt32) (flags : UInt8)
    {payload : List UInt8} {buffer : Memory UInt8}
    (holds : Holds buffer (s.headerBytes now seq.toNat flags.toNat ++ payload))
    (fits : headerSize + payload.length ≤ maxPacket) :
    Recovers s now seq flags payload (segmentOf buffer (headerSize + payload.length)) := by
  let bytes := s.headerBytes now seq.toNat flags.toNat ++ payload
  have length : bytes.length = headerSize + payload.length := by
    rw [List.length_append, length_headerBytes]
  have carries : Carries (segmentOf (FifoBuffer.pointer bytes) bytes.length) s.conv seq.toNat
      s.rcvNxt flags.toNat (s.rcvWnd >>> s.rwndScale) payload :=
    segmentOf_carries s.conv seq.toNat s.rcvNxt flags.toNat _ now s.tsRecent payload
  have inside : ReadInside bytes :=
    readInside_of_le (by rw [length]; exact Nat.le_add_right _ _) (by rw [length]; exact fits)
  have same := inside.header buffer (FifoBuffer.pointer bytes) holds (Holds.pointer bytes)
  have tsval := bytesToLong_longToBytes (longToBytes s.conv ++ longToBytes seq.toNat ++
    longToBytes s.rcvNxt ++ [0, UInt8.ofNat flags.toNat] ++ shortToBytes (s.rcvWnd >>> s.rwndScale))
    (longToBytes s.tsRecent ++ payload) now
  have tsecr := bytesToLong_longToBytes (longToBytes s.conv ++ longToBytes seq.toNat ++
    longToBytes s.rcvNxt ++ [0, UInt8.ofNat flags.toNat] ++
    shortToBytes (s.rcvWnd >>> s.rwndScale) ++ longToBytes now) payload s.tsRecent
  simp only [← List.append_assoc] at tsval tsecr
  have small : payload.length < 2 ^ 32 :=
    Nat.lt_of_le_of_lt (Nat.le_trans (Nat.le_add_left _ _) fits) (by decide)
  rw [← length]
  exact {
    conv := (congrArg Segment.conv same).trans carries.conv
    seq := ((congrArg Segment.seq same).trans carries.seq).trans (Nat.mod_eq_of_lt seq.toNat_lt)
    ack := (congrArg Segment.ack same).trans carries.ack
    flags := ((congrArg Segment.flags same).trans carries.flags).trans
      (Nat.mod_eq_of_lt flags.toNat_lt)
    wnd := (congrArg Segment.wnd same).trans carries.wnd
    tsval := (congrArg Segment.tsval same).trans tsval
    tsecr := (congrArg Segment.tsecr same).trans tsecr
    len := carries.len.trans (Nat.mod_eq_of_lt small)
    data := fun index short => by
      rw [inside.data buffer holds index (by rw [length]; omega)]
      have behind : (s.headerBytes now seq.toNat flags.toNat).length ≤ headerSize + index :=
        Nat.le_add_right _ _
      refine (List.getElem_append_right behind).trans ?_
      simp only [length_headerBytes, Nat.add_sub_cancel_left] }

theorem headerBytes_congr {s t : PseudoTcp} (conv : t.conv = s.conv)
    (incoming : t.toIncoming = s.toIncoming) (tsRecent : t.tsRecent = s.tsRecent)
    (now seq flags : Nat) : t.headerBytes now seq flags = s.headerBytes now seq flags := by
  simp only [headerBytes, conv, incoming, tsRecent]

theorem now_tsRecent (s : PseudoTcp) : s.now.2.tsRecent = s.tsRecent := by
  rw [now]
  split <;> rfl

theorem length_readOffset_le (f : FifoBuffer) (bytes offset : Nat) :
    (f.readOffset bytes offset).2.length ≤ bytes := by
  rw [FifoBuffer.readOffset]
  split
  · exact Nat.zero_le _
  · rw [Ring.length_read]
    exact Nat.min_le_left _ _

/-- The one packet that a call of `packet` writes: the header and `len` more bytes. -/
theorem packet_writes (s : PseudoTcp) (seq flags offset len : Nat) :
    ∃ call, (s.packet seq flags offset len).2.history = .packet call :: s.history ∧
      ∃ payload, payload.length = len ∧
        call.buffer = s.headerBytes s.now.1 seq flags ++ payload := by
  have same := now_same s
  have header := headerBytes_congr same.conv same.incoming (now_tsRecent s) s.now.1 seq flags
  obtain ⟨now, clocked, read⟩ : ∃ now t, s.now = (now, t) := ⟨_, _, rfl⟩
  rw [read] at same header
  let stamped : PseudoTcp := { clocked with tsLastAck := clocked.rcvNxt }
  let payload := if len = 0 then [] else (stamped.sbuf.readOffset len offset).2
  let rest := stamped.notify.memory.slice 0 (len - payload.length)
  have short : payload.length ≤ len := by
    simp only [payload]
    split
    · exact Nat.zero_le _
    · exact length_readOffset_le _ _ _
  have answered := (nextResult_same stamped).history
  have history : stamped.nextResult.2.history = s.history := answered.trans same.history
  let call : PacketCall := ⟨seq, flags, offset, len, payload,
    clocked.headerBytes now seq flags ++ payload ++ rest, stamped.nextResult.1⟩
  refine ⟨call, ?_, payload ++ rest, ?_, ?_⟩
  · rw [← history, packet, read]
    simp only
    split <;> rfl
  · rw [List.length_append, Memory.length_slice]
    omega
  · rw [read, ← header, ← List.append_assoc]

/-- A packet is parsed safely exactly if it is not one of those whose header is cut
behind the twelfth byte, and what `packet` writes is parsed back. -/
theorem parse_reads_header (bytes : List UInt8) (s : PseudoTcp) (seq : UInt32) (flags : UInt8)
    (offset len : Nat) (fits : headerSize + len ≤ maxPacket) :
    (ParsedSafely bytes ↔ ¬ (12 ≤ bytes.length ∧ bytes.length < headerSize)) ∧
    ∃ call, (s.packet seq.toNat flags.toNat offset len).2.history = .packet call :: s.history ∧
      ∃ payload, payload.length = len ∧
        call.buffer = s.headerBytes s.now.1 seq.toNat flags.toNat ++ payload ∧
        ∀ buffer, Holds buffer call.buffer → ∀ t : PseudoTcp,
          t.notifyPacket buffer call.buffer.length =
            t.process (segmentOf buffer call.buffer.length) ∧
          Recovers s s.now.1 seq flags payload (segmentOf buffer call.buffer.length) := by
  obtain ⟨call, history, payload, length, written⟩ :=
    packet_writes s seq.toNat flags.toNat offset len
  have size : call.buffer.length = headerSize + payload.length := by
    rw [written, List.length_append, length_headerBytes]
  refine ⟨parsedSafely_iff bytes, call, history, payload, length, written,
    fun buffer holds t => ⟨?_, ?_⟩⟩
  · have long : ¬ call.buffer.length < 12 := by rw [size, headerSize]; omega
    have short : ¬ maxPacket < call.buffer.length := by rw [size, length]; omega
    rw [notifyPacket, if_neg short, parse, if_neg long]
  · rw [size]
    exact recovers_of_holds s s.now.1 seq flags (written ▸ holds) (by rw [length]; exact fits)

theorem parse_reads_header_bare :
    ParsedSafely (List.replicate 24 0) ↔ ¬ (12 ≤ 24 ∧ 24 < headerSize) :=
  (parse_reads_header (List.replicate 24 0) fresh 0 0 0 0 (by decide)).1

/-- Twelve bytes make a segment with a payload of almost four gigabytes. -/
theorem not_parsedSafely_twelve : ¬ ParsedSafely (List.replicate 12 0) := by
  intro safe
  rcases safe with refused | ⟨-, inside⟩
  · have noted : ((idle 0).notifyPacket (fun _ => 0) 12).2.lastTraffic = 0 := rfl
    have holds : Holds (fun _ => 0) (List.replicate 12 0) := fun index inside => by
      rw [List.getElem_replicate]
    have unchanged : (idle 0).notifyPacket (fun _ => 0) 12 = (false, idle 0) :=
      refused (idle 0) (fun _ => 0) holds
    rw [unchanged] at noted
    cases noted
  · exact not_readInside (by decide) inside

end Libjingle.PseudoTcp

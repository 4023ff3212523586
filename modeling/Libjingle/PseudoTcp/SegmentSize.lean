import Libjingle.PseudoTcp.Recovery
import Libjingle.PseudoTcp.SendTiling

/-!
# Segment sizes and packets

The segment size comes from the advised MTU or from the table of packet maximums, less the headers.
An MTU that has no room for more than the headers makes it zero or lets it wrap, and packets no
longer fit into the buffer that `packet` makes them in.
-/

namespace Libjingle.PseudoTcp

open Libjingle.Std
open Libjingle.Base

variable {s t : PseudoTcp}

/-- A segment fits into a packet with its headers, its square into a word, and every packet into
the buffer that it is made in. -/
structure SegmentSizes (s : PseudoTcp) : Prop where
  pos : 0 < s.mss
  le : s.mss ≤ maxPacket - packetOverhead
  square : mul32 s.mss s.mss = s.mss * s.mss
  threshold : 2 * s.mss ≤ s.lossThreshold
  packets : ∀ call, .packet call ∈ s.history → headerSize + call.len ≤ maxPacket

/-- An MTU has room for more than the headers. -/
def RoomyMtu : ApiCall → Prop
  | .notifyMTU mtu => packetOverhead < mtu.toNat
  | _ => True

/-- What holds of the segment size along a run with such MTUs. -/
structure MssFits (s : PseudoTcp) : Prop where
  pos : 0 < s.mss
  le : s.mss ≤ maxPacket - packetOverhead
  room : packetOverhead < s.mtuAdvise
  advised : s.mtuAdvise ≤ maxPacket
  packets : ∀ call, .packet call ∈ s.history → headerSize + call.len ≤ maxPacket

theorem MssFits.sizes (fits : MssFits s) : SegmentSizes s := by
  have pos := fits.pos
  have le := fits.le
  have table : maxPacket - packetOverhead = 65419 := rfl
  rw [table] at le
  have square : s.mss * s.mss ≤ 65419 * 65419 := Nat.mul_le_mul le le
  have double : mul32 2 s.mss = 2 * s.mss := mul32_of_lt (by omega)
  refine ⟨pos, fits.le, mul32_of_lt (by omega), ?_, fits.packets⟩
  unfold lossThreshold
  rw [double]
  exact Nat.le_max_right _ _

theorem lowerMss_sizes (s : PseudoTcp) :
    s.lowerMss.mss = sub32 (packetMaximums.getD (s.mssLevel + 1) 0) packetOverhead ∧
      s.lowerMss.mtuAdvise = s.mtuAdvise := by
  rcases s with ⟨_, _, _, ⟨⟩, _, _, _⟩
  constructor <;> simp only [lowerMss]

theorem adjustMTU_sizes (s : PseudoTcp) :
    s.adjustMTU.mss = sub32 s.mtuAdvise packetOverhead ∧ s.adjustMTU.mtuAdvise = s.mtuAdvise := by
  rcases s with ⟨_, _, _, ⟨⟩, _, _, _⟩
  constructor <;> simp only [adjustMTU]

/-- A move changes the segment size through the table or through the advised MTU. -/
theorem CongestionMove.sizes {policy : Admission} (change : CongestionMove policy s t) :
    (t.mss = s.mss ∧ t.mtuAdvise = s.mtuAdvise) ∨
      (180 ≤ t.mss ∧ t.mss ≤ 31884 ∧ t.mtuAdvise = s.mtuAdvise) ∨
      (t.mss = sub32 s.mtuAdvise packetOverhead ∧ t.mtuAdvise = s.mtuAdvise) ∨
      (t.mss = s.mss ∧ ∃ mtu : UInt16, t.mtuAdvise = mtu.toNat ∧ policy.advise mtu.toNat) := by
  cases change with
  | lowered more =>
    have bounds := lowered_mss more
    obtain ⟨mss, mtu⟩ := lowerMss_sizes s
    rw [mss]
    exact .inr (.inl ⟨bounds.1, bounds.2, mtu⟩)
  | adjusted _ => exact .inr (.inr (.inl (adjustMTU_sizes s)))
  | advised mtu admitted => exact .inr (.inr (.inr ⟨rfl, mtu, rfl, admitted⟩))
  | _ =>
    refine .inl ?_
    rcases s with ⟨_, _, _, ⟨⟩, _, _, _⟩
    constructor <;>
      simp only [exitRecovery, partialAck, growWindow, countDupAck, enterRecovery, inflateWindow,
        backOff]

theorem Move.sizes {policy : Admission} (move : Move policy s t) :
    CongestionMove policy s t ∨ (t.mss = s.mss ∧ t.mtuAdvise = s.mtuAdvise) := by
  have same : ∀ {u : PseudoTcp}, u.toCongestion = s.toCongestion →
      u.mss = s.mss ∧ u.mtuAdvise = s.mtuAdvise := fun eq =>
    ⟨congrArg Congestion.mss eq, congrArg Congestion.mtuAdvise eq⟩
  cases move with
  | keep core => exact .inr (same core.congestion)
  | congested change => exact .inl change
  | acked spec => exact .inr (same spec.congestion)
  | refused _ spec _ => exact .inr (same spec.congestion)
  | transmitted _ spec _ =>
    have written := same spec.congestion
    exact .inr written
  | @acknowledged seg now _ _ =>
    have timed := same (updateRtt_same s seg now).congestion
    exact .inr timed
  | @optioned seg _ =>
    obtain ⟨scale, result⟩ | ⟨_, result⟩ :=
      parseOptions_spec s (fun index => seg.data (index + 1)) (seg.len - 1) <;>
      rw [result] <;> exact .inr ⟨rfl, rfl⟩
  | resizedReceive _ _ _ _ => exact .inr ⟨rfl, rfl⟩
  | _ => exact .inr (same rfl)

/-- Everything may happen, except that an MTU without room is advised. -/
def advising : Admission :=
  { Admission.all with advise := fun mtu => packetOverhead < mtu }

theorem MssFits.move (fits : MssFits s) (move : Move advising s t) : MssFits t := by
  have packet : maxPacket = 65535 := rfl
  have overhead : packetOverhead = 116 := rfl
  have header : headerSize = 24 := rfl
  have pos := fits.pos
  have le := fits.le
  have room := fits.room
  have advised := fits.advised
  have packets : ∀ call, .packet call ∈ t.history → headerSize + call.len ≤ maxPacket := by
    intro call member
    rcases move.logs with same | ⟨event, more, logs⟩
    · exact fits.packets call (same ▸ member)
    rw [more] at member
    rcases List.mem_cons.mp member with rfl | old
    · cases logs with
      | bare spec =>
        rw [spec.lenOf]
        omega
      | @data _ seg _ _ _ spec =>
        have short : min seg.len s.mss ≤ s.mss := Nat.min_le_right _ _
        rw [spec.lenOf]
        omega
    · exact fits.packets call old
  have size : sub32 s.mtuAdvise packetOverhead = s.mtuAdvise - packetOverhead :=
    sub32_of_le (Nat.le_of_lt room) (by omega)
  suffices sizes : 0 < t.mss ∧ t.mss ≤ maxPacket - packetOverhead ∧
      packetOverhead < t.mtuAdvise ∧ t.mtuAdvise ≤ maxPacket from
    ⟨sizes.1, sizes.2.1, sizes.2.2.1, sizes.2.2.2, packets⟩
  rcases move.sizes with change | ⟨mss, mtu⟩
  · rcases change.sizes with ⟨mss, mtu⟩ | ⟨low, high, mtu⟩ | ⟨mss, mtu⟩ | ⟨mss, word, mtu, larger⟩
    · omega
    · omega
    · omega
    · have bound := word.toNat_lt
      have larger : packetOverhead < word.toNat := larger
      omega
  · omega

theorem RoomyMtu.grants {call : ApiCall} (roomy : RoomyMtu call) :
    Quiet advising s ∧ GrantsCall advising s call := by
  refine ⟨fun _ _ _ _ => trivial, ?_⟩
  have grants : ∀ seg, Grants advising s seg := fun seg => {
    options := fun _ _ => trivial
    ack := fun _ _ => trivial
    data := fun _ _ => trivial
    adjust := fun _ _ => trivial
    room := fun _ _ roomy => roomy.elim }
  cases call with
  | app call => exact fun _ _ => trivial
  | notifyMTU mtu => exact ⟨roomy, fun _ => trivial⟩
  | notifyPacket buffer len => exact fun _ _ => grants _
  | _ => trivial

/-- In every run whose advised MTUs have room for more than the headers, segments and packets have
their sizes; an established connection loses them with any other MTU. -/
theorem segments_fit (reached : Reachable (fun _ _ call => RoomyMtu call) s) :
    SegmentSizes s ∧ (s.state = .established → ∀ mtu,
      SegmentSizes (s.notifyMTU mtu) ↔ packetOverhead < mtu.toNat) := by
  obtain ⟨conv, now, environment, rcvMemory, sndMemory, run⟩ := reached
  have fits : MssFits s := by
    refine run.keeps advising (fun roomy _ => RoomyMtu.grants roomy)
      (fun _ kept => ⟨kept.pos, kept.le, kept.room, kept.advised, kept.packets⟩)
      (fun move kept => kept.move move) ⟨?_, ?_, ?_, ?_, ?_⟩
    · show 0 < minPacket - packetOverhead
      decide
    · show minPacket - packetOverhead ≤ maxPacket - packetOverhead
      decide
    · show packetOverhead < maxPacket
      decide
    · exact Nat.le_refl _
    · intro call member
      cases member
  refine ⟨fits.sizes, fun established mtu => ⟨fun sizes => ?_, fun room => ?_⟩⟩
  · have pos := sizes.pos
    have le := sizes.le
    have table : maxPacket - packetOverhead = 65419 := rfl
    have word := mtu.toNat_lt
    simp only [notifyMTU, established, if_true, adjustMTU] at pos le
    rw [table] at le
    simp only [sub32, show packetOverhead = 116 from rfl] at pos le ⊢
    omega
  · have moves : Moves advising s (s.run (.notifyMTU mtu)) :=
      run_moves s (.notifyMTU mtu) (fun _ _ _ _ => trivial) trivial ⟨room, fun _ => trivial⟩
    exact (moves.keeps (fun move kept => kept.move move) fits).sizes

/-- The opening with an MTU of 1280 bytes. -/
theorem segments_fit_advised :
    SegmentSizes (fresh.runAll (.notifyMTU 1280 :: opening)) ∧
      ∀ mtu, SegmentSizes ((fresh.runAll (.notifyMTU 1280 :: opening)).notifyMTU mtu) ↔
        packetOverhead < mtu.toNat := by
  have advised : RoomyMtu (.notifyMTU 1280) := by
    show packetOverhead < UInt16.toNat 1280
    decide
  have reached : Reachable (fun _ _ call => RoomyMtu call)
      (fresh.runAll (.notifyMTU 1280 :: opening)) :=
    AllOk.reachable ⟨trivial, advised, trivial, trivial, trivial, trivial, trivial⟩
  have fits := segments_fit reached
  exact ⟨fits.1, fits.2 (by decide +kernel)⟩

end Libjingle.PseudoTcp

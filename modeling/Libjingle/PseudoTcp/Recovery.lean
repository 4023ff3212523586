import Libjingle.PseudoTcp.Moves

/-!
# Recovery after a fast retransmit

The third duplicate acknowledgement starts a fast retransmit and recovery, and
`m_dup_acks` stays at three or more until the data of that time is acknowledged. Only the
examination of an acknowledgement touches the counter. It has eight bits, so the
two hundred and fifty-third duplicate acknowledgement in recovery takes it back to zero.
-/

namespace Libjingle.PseudoTcp

open Libjingle.Std
open Libjingle.Base

variable {s t u : PseudoTcp}

/-! ## What leaves the recovery alone -/

/-- The duplicate acknowledgements, the end of recovery and the slow-start threshold are
as before. -/
structure Unmoved (s t : PseudoTcp) : Prop where
  dupAcks : t.dupAcks = s.dupAcks
  recover : t.recover = s.recover
  ssthresh : t.ssthresh = s.ssthresh

theorem Unmoved.refl (s : PseudoTcp) : Unmoved s s :=
  ⟨rfl, rfl, rfl⟩

theorem Unmoved.trans (first : Unmoved s t) (second : Unmoved t u) : Unmoved s u :=
  ⟨second.dupAcks.trans first.dupAcks, second.recover.trans first.recover,
    second.ssthresh.trans first.ssthresh⟩

theorem Unmoved.of_congestion (same : t.toCongestion = s.toCongestion) : Unmoved s t :=
  ⟨congrArg Congestion.dupAcks same, congrArg Congestion.recover same,
    congrArg Congestion.ssthresh same⟩

theorem Unmoved.after (later : Unmoved t u) (same : t.toCongestion = s.toCongestion) :
    Unmoved s u :=
  (of_congestion same).trans later

theorem now_unmoved (s : PseudoTcp) : Unmoved s s.now.2 :=
  .of_congestion (now_same s).congestion

theorem packet_unmoved (s : PseudoTcp) (seq flags offset len : Nat) :
    Unmoved s (s.packet seq flags offset len).2 := by
  obtain ⟨call, spec, -⟩ := packet_spec s seq flags offset len
  exact .of_congestion spec.congestion

theorem lowerMss_unmoved (s : PseudoTcp) : Unmoved s s.lowerMss := by
  rcases s with ⟨_, _, _, ⟨⟩, _, _, _⟩
  constructor <;> simp only [lowerMss]

theorem reduceMss_unmoved (fuel : Nat) (s : PseudoTcp) (nTransmit : Nat) :
    Unmoved s (s.reduceMss fuel nTransmit).2 := by
  induction fuel generalizing s with
  | zero => exact .refl s
  | succ fuel ih =>
    have lower := lowerMss_unmoved s
    simp only [reduceMss]
    split
    · exact .refl s
    · split
      · exact lower
      · exact lower.trans (ih s.lowerMss)

theorem transmitLoop_unmoved (fuel : Nat) (s : PseudoTcp) (seg : SSegment) (nTransmit : Nat) :
    Unmoved s (s.transmitLoop fuel seg nTransmit).2 := by
  induction fuel generalizing s nTransmit with
  | zero => exact .refl s
  | succ fuel ih =>
    have written : Unmoved s (s.packetOf seg nTransmit).2 := packet_unmoved s _ _ _ _
    simp only [transmitLoop]
    generalize s.packetOf seg nTransmit = answer at written ⊢
    obtain ⟨result, t⟩ := answer
    cases result with
    | success => exact written
    | fail => exact written
    | tooLarge =>
      have reduced := reduceMss_unmoved packetMaximums.length t nTransmit
      simp only
      generalize t.reduceMss packetMaximums.length nTransmit = lowered at reduced ⊢
      obtain ⟨_ | _, u⟩ := lowered
      · exact written.trans reduced
      · exact (written.trans reduced).trans (ih u u.mss)

theorem transmit_unmoved (s : PseudoTcp) (index now : Nat) :
    Unmoved s (s.transmit index now).2 := by
  unfold transmit
  split
  · exact .refl s
  · next seg found =>
    by_cases often : (if s.state = .established then 15 else 30) ≤ seg.xmit
    · simp only [often, if_true]
      exact .refl s
    · simp only [often, if_false]
      have looped := transmitLoop_unmoved packetMaximums.length s seg (min seg.len s.mss)
      generalize s.transmitLoop packetMaximums.length seg (min seg.len s.mss) = result
        at looped ⊢
      obtain ⟨_ | n, t⟩ := result
      · exact looped
      · exact looped.trans ⟨rfl, rfl, rfl⟩

theorem sendAck_unmoved (s : PseudoTcp) (sflags : SendFlags) : Unmoved s (s.sendAck sflags) := by
  cases sflags with
  | none => exact .refl s
  | immediateAck => exact packet_unmoved s _ _ _ _
  | delayedAck =>
    simp only [sendAck]
    split
    · exact packet_unmoved s _ _ _ _
    · exact (now_unmoved s).trans ⟨rfl, rfl, rfl⟩

theorem attemptSendLoop_unmoved (fuel : Nat) (s : PseudoTcp) (sflags : SendFlags) (now : Nat) :
    Unmoved s (s.attemptSendLoop fuel sflags now) := by
  induction fuel generalizing s sflags with
  | zero => exact .refl s
  | succ fuel ih =>
    simp only [attemptSendLoop]
    split
    · exact sendAck_unmoved s sflags
    · split
      · exact .refl s
      · split
        · exact .refl s
        · next index first =>
          have sent := transmit_unmoved { s with toOutgoing := s.toOutgoing.carve index s.sendable }
            index now
          generalize transmit { s with toOutgoing := s.toOutgoing.carve index s.sendable } index
            now = result at sent ⊢
          obtain ⟨_ | _, t⟩ := result
          · exact sent.after rfl
          · have carved : Unmoved s t := sent.after rfl
            exact carved.trans (ih t .none)

theorem attemptSend_unmoved (s : PseudoTcp) (sflags : SendFlags) :
    Unmoved s (s.attemptSend sflags) := by
  have clock := now_unmoved s
  have idle : Unmoved s.now.2 { s.now.2 with cwnd := s.now.2.mss } := ⟨rfl, rfl, rfl⟩
  simp only [attemptSend]
  split
  · exact (clock.trans idle).trans (attemptSendLoop_unmoved _ _ _ _)
  · exact clock.trans (attemptSendLoop_unmoved _ _ _ _)

theorem recv_unmoved (s : PseudoTcp) (len : Nat) : Unmoved s (s.recv len).2 := by
  simp only [recv]
  split
  · exact .of_congestion rfl
  · split
    · exact .of_congestion rfl
    · next result data rbuf notBlocked reads =>
      have taken : Unmoved s ({ s with rbuf := rbuf }.record (.received data)) := .of_congestion rfl
      generalize { s with rbuf := rbuf }.record (.received data) = t at taken ⊢
      have opened : Unmoved s { t with toIncoming := t.toIncoming.openWindow } :=
        taken.trans (.of_congestion rfl)
      generalize { t with toIncoming := t.toIncoming.openWindow } = wide at opened ⊢
      dsimp only
      split
      · split
        · exact opened.trans (attemptSend_unmoved _ _)
        · exact opened
      · exact taken

theorem queue_unmoved (s : PseudoTcp) (data : List UInt8) (len : Nat) (bCtrl : Bool) :
    Unmoved s (s.queue data len bCtrl).2 :=
  .of_congestion rfl

theorem send_unmoved (s : PseudoTcp) (data : List UInt8) : Unmoved s (s.send data).2 := by
  simp only [send]
  split
  · exact .of_congestion rfl
  · split
    · exact .of_congestion rfl
    · have queued := queue_unmoved s data (toWord data.length) false
      generalize s.queue data (toWord data.length) false = result at queued ⊢
      obtain ⟨written, t⟩ := result
      dsimp only
      exact queued.trans (attemptSend_unmoved t .none)

theorem appCall_unmoved (s : PseudoTcp) (call : AppCall) : Unmoved s (s.appCall call) := by
  cases call with
  | send data => exact send_unmoved s data
  | recv len => exact recv_unmoved s len
  | close force => exact .of_congestion rfl
  | setOption opt value => cases opt <;> exact .of_congestion rfl

theorem callback_unmoved (s : PseudoTcp) (notification : Notification) (calls : List AppCall) :
    Unmoved s (s.callback notification calls) := by
  have notified : Unmoved s (s.notified notification) := .of_congestion rfl
  refine notified.trans ?_
  unfold callback
  generalize s.notified notification = t
  induction calls generalizing t with
  | nil => exact .refl t
  | cons first rest ih => exact (appCall_unmoved t first).trans (ih _)

/-- The duplicate acknowledgements and the end of recovery are as before. -/
structure Steady (s t : PseudoTcp) : Prop where
  dupAcks : t.dupAcks = s.dupAcks
  recover : t.recover = s.recover

theorem Steady.refl (s : PseudoTcp) : Steady s s :=
  ⟨rfl, rfl⟩

theorem Steady.trans (first : Steady s t) (second : Steady t u) : Steady s u :=
  ⟨second.dupAcks.trans first.dupAcks, second.recover.trans first.recover⟩

theorem Unmoved.steady (unmoved : Unmoved s t) : Steady s t :=
  ⟨unmoved.dupAcks, unmoved.recover⟩

theorem Steady.after (later : Steady t u) (same : t.toCongestion = s.toCongestion) :
    Steady s u :=
  (Unmoved.of_congestion same).steady.trans later

theorem adjustMTU_steady (s : PseudoTcp) : Steady s s.adjustMTU := by
  rcases s with ⟨_, _, _, ⟨⟩, _, _, _⟩
  constructor <;> simp only [adjustMTU]

/-- The end of the handshake. -/
theorem established_steady (s : PseudoTcp) :
    Steady s ({ s with state := .established }).adjustMTU.onTcpOpen :=
  Steady.after ((adjustMTU_steady _).trans (callback_unmoved _ _ _).steady) rfl

theorem parseOptions_steady (s : PseudoTcp) (data : Memory UInt8) (len : Nat) :
    Steady s (s.parseOptions data len) := by
  obtain ⟨scale, result⟩ | ⟨-, result⟩ := parseOptions_spec s data len
  · rw [result]
    exact Unmoved.steady (.of_congestion rfl)
  · rw [result]
    exact ⟨rfl, rfl⟩

theorem processControl_steady (s : PseudoTcp) (seg : Segment) :
    Steady s (s.processControl seg).2 := by
  have options := parseOptions_steady s (fun index => seg.data (index + 1)) (seg.len - 1)
  simp only [processControl]
  split
  · exact .refl s
  · split
    · exact .refl s
    · split
      · generalize s.parseOptions (fun index => seg.data (index + 1)) (seg.len - 1) = t
          at options ⊢
        split
        · exact options.trans (Unmoved.steady (.of_congestion rfl))
        · split
          · exact options.trans (established_steady t)
          · exact options
      · exact .refl s

theorem processHeader_steady (s : PseudoTcp) (seg : Segment) :
    Steady s (s.processHeader seg).2 := by
  have noted : Steady s (s.now.2.noteReceipt s.now.1) :=
    (now_unmoved s).steady.trans ⟨rfl, rfl⟩
  simp only [processHeader]
  split
  · exact .refl s
  · split
    · exact noted
    · split
      · exact noted.trans ⟨rfl, rfl⟩
      · have control := processControl_steady (s.now.2.noteReceipt s.now.1) seg
        generalize processControl (s.now.2.noteReceipt s.now.1) seg = result at control ⊢
        obtain ⟨_ | bConnect, t⟩ := result
        · exact noted.trans control
        · refine (noted.trans control).trans ?_
          simp only [updateTimestamp]
          split <;> exact ⟨rfl, rfl⟩

theorem afterAck_steady (s : PseudoTcp) (bConnect : Bool) (seg : Segment) :
    Steady s ((s.finishHandshake bConnect).notifyWriteable.processData seg) := by
  have handshake : Steady s (s.finishHandshake bConnect) := by
    simp only [finishHandshake]
    split
    · exact established_steady s
    · exact .refl s
  have writeable : ∀ t : PseudoTcp, Steady t t.notifyWriteable := fun t => by
    simp only [notifyWriteable]
    split
    · exact (callback_unmoved _ _ _).steady.after rfl
    · exact .refl t
  have data : ∀ t : PseudoTcp, Steady t (t.processData seg) := fun t => by
    simp only [processData]
    generalize t.toIncoming.receive (t.adjust seg) (t.ignoresData seg) = received
    have sent : Steady t _ :=
      (attemptSend_unmoved { t with toIncoming := received.incoming }
        (if received.recovered = true then .immediateAck else t.ackFlags seg)).steady.after rfl
    generalize attemptSend { t with toIncoming := received.incoming }
      (if received.recovered = true then .immediateAck else t.ackFlags seg) = u at sent ⊢
    split
    · have told : Steady u ({ u with bReadEnable := false }).onTcpReadable :=
        (callback_unmoved _ _ _).steady.after rfl
      exact sent.trans told
    · exact sent
  exact (handshake.trans (writeable _)).trans (data _)

theorem notifyClock_steady (s : PseudoTcp) (now : UInt32) : Steady s (s.notifyClock now) := by
  have retransmit : ∀ t : PseudoTcp, Steady t (t.retransmitClock now.toNat).2 := fun t => by
    have sent := transmit_unmoved t 0 now.toNat
    simp only [retransmitClock]
    split
    · generalize t.transmit 0 now.toNat = result at sent ⊢
      obtain ⟨_ | _, u⟩ := result
      · exact sent.steady.trans (Unmoved.steady (.of_congestion rfl))
      · exact sent.steady.trans ⟨rfl, rfl⟩
    · exact .refl t
  have probe : ∀ t : PseudoTcp, Steady t (t.probeClock now.toNat).2 := fun t => by
    have sent := (packet_unmoved t (sub32 t.sndNxt 1) 0 0 0).steady
    simp only [probeClock]
    split
    · split
      · exact Unmoved.steady (.of_congestion rfl)
      · exact sent.trans (Unmoved.steady (.of_congestion rfl))
    · exact .refl t
  have ack : ∀ t : PseudoTcp, Steady t (t.ackClock now.toNat) := fun t => by
    simp only [ackClock]
    split
    · exact (packet_unmoved t _ _ _ _).steady
    · exact .refl t
  have first := retransmit s
  simp only [notifyClock]
  split
  · exact .refl s
  · generalize s.retransmitClock now.toNat = result at first ⊢
    obtain ⟨_ | _, t⟩ := result
    · exact first
    · have second := probe t
      simp only
      generalize t.probeClock now.toNat = result at second ⊢
      obtain ⟨_ | _, u⟩ := result
      · exact first.trans second
      · exact (first.trans second).trans (ack u)

/-! ## Acknowledgements in recovery -/

/-- A duplicate acknowledgement that is counted. -/
def CountsDuplicate (t : PseudoTcp) (seg : Segment) : Prop :=
  seg.ack = t.sndUna ∧ seg.len = 0 ∧ t.sndUna ≠ t.sndNxt

instance (t : PseudoTcp) (seg : Segment) : Decidable (t.CountsDuplicate seg) :=
  inferInstanceAs (Decidable (_ ∧ _))

/-- The third duplicate acknowledgement. -/
def StartsRecovery (t : PseudoTcp) (seg : Segment) : Prop :=
  t.CountsDuplicate seg ∧ add8 t.dupAcks 1 = 3

/-- The state as a fast retransmit leaves it to the end of the acknowledgement. -/
structure InRecovery (recover : Nat) (t : PseudoTcp) : Prop where
  many : 3 ≤ t.dupAcks
  byte : t.dupAcks < 2 ^ 8
  recover : t.recover = recover

theorem Steady.inRecovery {recover : Nat} (steady : Steady s t) (inside : InRecovery recover s) :
    InRecovery recover t :=
  ⟨steady.dupAcks ▸ inside.many, steady.dupAcks ▸ inside.byte,
    steady.recover.trans inside.recover⟩

/-- The counter does not wrap, and is not cleared: at the largest count no further
duplicate comes, and no acknowledgement comes while nothing is in flight. -/
def CountsOn (t : PseudoTcp) (seg : Segment) : Prop :=
  seg.ack = t.sndUna → seg.len = 0 → t.dupAcks ≠ 255 ∧ t.sndUna ≠ t.sndNxt

theorem not_startsRecovery {recover : Nat} (inside : InRecovery recover t) (seg : Segment)
    (counts : t.CountsOn seg) : ¬ t.StartsRecovery seg := by
  rintro ⟨⟨current, bare, -⟩, third⟩
  have many := inside.many
  have byte := inside.byte
  have below := (counts current bare).1
  simp only [add8] at third
  omega

theorem processDupAck_inRecovery {recover : Nat} (inside : InRecovery recover t) {seg : Segment}
    (now : Nat) (current : seg.ack = t.sndUna) (counts : t.CountsOn seg) :
    InRecovery recover (t.processDupAck seg now).2 ∧
      (t.processDupAck seg now).2.ssthresh = t.ssthresh := by
  simp only [processDupAck]
  split
  · exact ⟨⟨inside.many, inside.byte, inside.recover⟩, rfl⟩
  · next bare =>
    obtain ⟨below, inFlight⟩ := counts current (Nat.eq_zero_of_not_pos bare)
    have many := inside.many
    have byte := inside.byte
    have next : add8 t.dupAcks 1 = t.dupAcks + 1 := by
      simp only [add8]
      omega
    rw [if_pos inFlight]
    simp only [countDupAck, next]
    rw [if_neg (by omega), if_pos (by omega)]
    exact ⟨⟨Nat.le_succ_of_le many, show t.dupAcks + 1 < 2 ^ 8 by omega, inside.recover⟩, rfl⟩

theorem processNewAck_inRecovery {recover : Nat} (inside : InRecovery recover t) {seg : Segment}
    (now : Nat) (below : seg.ack < recover) :
    InRecovery recover (t.processNewAck seg now).2 ∧
      (t.processNewAck seg now).2.ssthresh = t.ssthresh := by
  have timed := Unmoved.of_congestion (updateRtt_same t seg now).congestion
  have freed : Unmoved (t.updateRtt seg now) ((t.updateRtt seg now).acknowledge seg now) :=
    ⟨rfl, rfl, rfl⟩
  have unmoved := timed.trans freed
  have una : ((t.updateRtt seg now).acknowledge seg now).sndUna = seg.ack := rfl
  simp only [processNewAck]
  generalize (t.updateRtt seg now).acknowledge seg now = u at unmoved una ⊢
  have inside := unmoved.steady.inRecovery inside
  rw [if_pos inside.many, inside.recover, una, if_neg (Nat.not_le.mpr below)]
  have sent := transmit_unmoved u 0 now
  generalize u.transmit 0 now = result at sent ⊢
  obtain ⟨_ | _, v⟩ := result
  · have closed : Unmoved v (v.closedown .connAborted) := .of_congestion rfl
    have all := sent.trans closed
    exact ⟨all.steady.inRecovery inside, all.ssthresh.trans unmoved.ssthresh⟩
  · have partly : Unmoved v (v.partialAck (sub32 seg.ack t.sndUna)) := ⟨rfl, rfl, rfl⟩
    have all := sent.trans partly
    exact ⟨all.steady.inRecovery inside, all.ssthresh.trans unmoved.ssthresh⟩

theorem processAck_inRecovery {recover : Nat} (inside : InRecovery recover t) {seg : Segment}
    (now : Nat) (below : seg.ack < recover) (counts : t.CountsOn seg) :
    InRecovery recover (t.processAck seg now).2 ∧
      (t.processAck seg now).2.ssthresh = t.ssthresh := by
  simp only [processAck]
  split
  · exact processNewAck_inRecovery inside now below
  · split
    · next current => exact processDupAck_inRecovery inside now current counts
    · exact ⟨inside, rfl⟩

/-! ## Runs -/

/-- The call brings no acknowledgement of everything up to the end of recovery. -/
def ApiCall.Unrecovered (recover : Nat) (call : ApiCall) : Prop :=
  ∀ seg, call.Brings seg → seg.ack < recover

/-- The acknowledgement that the call brings, if it comes to be examined, is counted on. -/
def Counting (s : PseudoTcp) (environment : Environment) (call : ApiCall) : Prop :=
  ∀ seg, call.Brings seg → ∀ t, (s.meet environment).atAck seg = some t → t.CountsOn seg

theorem process_inRecovery {recover : Nat} (inside : InRecovery recover s) {seg : Segment}
    (below : seg.ack < recover) (counts : ∀ t, s.atAck seg = some t → t.CountsOn seg) :
    InRecovery recover (s.process seg).2 := by
  have header := (processHeader_steady s seg).inRecovery inside
  simp only [atAck] at counts
  simp only [process]
  generalize s.processHeader seg = result at header counts ⊢
  obtain ⟨_ | ⟨bConnect, now⟩, t⟩ := result
  · exact header
  · obtain ⟨acked, -⟩ := processAck_inRecovery header now below (counts t rfl)
    simp only
    generalize t.processAck seg now = result at acked ⊢
    obtain ⟨_ | _, u⟩ := result
    · exact acked
    · exact (afterAck_steady u bConnect seg).inRecovery acked

theorem run_steady (s : PseudoTcp) (call : ApiCall) (silent : ∀ seg, ¬ call.Brings seg) :
    Steady s (s.run call) := by
  cases call with
  | app call => exact (appCall_unmoved s call).steady
  | connect =>
    simp only [run, connect]
    split
    · exact Unmoved.steady (.of_congestion rfl)
    · exact (attemptSend_unmoved _ _).steady.after rfl
  | notifyMTU mtu =>
    simp only [run, notifyMTU]
    split
    · exact Steady.trans (⟨rfl, rfl⟩ : Steady s { s with mtuAdvise := mtu.toNat })
        (adjustMTU_steady _)
    · exact ⟨rfl, rfl⟩
  | notifyClock now => exact notifyClock_steady s now
  | notifyPacket buffer len =>
    simp only [run, notifyPacket, parse]
    split
    · exact .refl s
    · next short =>
      split
      · exact .refl s
      · next long =>
        exact absurd ⟨buffer, len, rfl, Nat.not_lt.mp long, Nat.not_lt.mp short, rfl⟩
          (silent (segmentOf buffer len))
  | setSndBuf size => exact Unmoved.steady (.of_congestion rfl)
  | setRcvBuf size => exact ⟨rfl, rfl⟩
  | disableWindowScale => exact Unmoved.steady (.of_congestion rfl)

theorem meet_steady (s : PseudoTcp) (environment : Environment) :
    Steady s (s.meet environment) :=
  Unmoved.steady (.of_congestion rfl)

theorem step_inRecovery {recover : Nat} (inside : InRecovery recover s) {environment : Environment}
    {call : ApiCall} (below : call.Unrecovered recover) (counts : s.Counting environment call) :
    InRecovery recover (s.step environment call) := by
  have met := (meet_steady s environment).inRecovery inside
  by_cases brings : ∃ seg, call.Brings seg
  · obtain ⟨seg, brought⟩ := brings
    obtain ⟨buffer, len, rfl, long, short, rfl⟩ := id brought
    simp only [step, run, notifyPacket, parse, if_neg (Nat.not_lt.mpr short),
      if_neg (Nat.not_lt.mpr long)]
    exact process_inRecovery met (below _ brought) (counts _ brought)
  · exact (run_steady _ call fun seg brought => brings ⟨seg, brought⟩).inRecovery met

/-- The call brings the third duplicate acknowledgement, and the segment at the front is
transmitted again; `nxt` is `m_snd_nxt` at that moment. -/
def FastRetransmits (s : PseudoTcp) (environment : Environment) (call : ApiCall) (nxt : Nat) :
    Prop :=
  ∃ seg bConnect now t u, call.Brings seg ∧
    (s.meet environment).processHeader seg = (some (bConnect, now), t) ∧ t.StartsRecovery seg ∧
    { t with sndWnd := t.window seg }.countDupAck.transmit 0 now = (true, u) ∧ u.sndNxt = nxt

theorem enterRecovery_inRecovery (third : s.dupAcks = 3) :
    InRecovery s.sndNxt s.enterRecovery := by
  constructor
  · simp only [enterRecovery]
    exact Nat.le_of_eq third.symm
  · simp only [enterRecovery, third]
    decide
  · simp only [enterRecovery]

theorem countDupAck_dupAcks (s : PseudoTcp) : s.countDupAck.dupAcks = add8 s.dupAcks 1 := by
  simp only [countDupAck]

theorem processDupAck_third {seg : Segment} {now : Nat} (bare : ¬ 0 < seg.len)
    (inFlight : t.sndUna ≠ t.sndNxt)
    (third : { t with sndWnd := t.window seg }.countDupAck.dupAcks = 3)
    (sent : { t with sndWnd := t.window seg }.countDupAck.transmit 0 now = (true, u)) :
    t.processDupAck seg now = (true, u.enterRecovery) := by
  simp only [processDupAck, if_neg bare, inFlight, ne_eq, not_false_eq_true, if_true]
  generalize { t with sndWnd := t.window seg }.countDupAck = counted at third sent ⊢
  rw [if_pos third, sent]

theorem StartsRecovery.counted {seg : Segment} (starts : t.StartsRecovery seg) :
    { t with sndWnd := t.window seg }.countDupAck.dupAcks = 3 := by
  obtain ⟨-, third⟩ := starts
  simp only [countDupAck_dupAcks, third]

theorem StartsRecovery.not_valuable {seg : Segment} (starts : t.StartsRecovery seg) :
    ¬ t.valuable seg.ack := by
  obtain ⟨⟨current, -, -⟩, -⟩ := starts
  exact fun valuable => Nat.lt_irrefl _ (current ▸ valuable.1)

theorem retransmitted_dupAcks {seg : Segment} {now : Nat}
    (counted : { t with sndWnd := t.window seg }.countDupAck.dupAcks = 3)
    (sent : { t with sndWnd := t.window seg }.countDupAck.transmit 0 now = (true, u)) :
    u.dupAcks = 3 := by
  have unmoved := transmit_unmoved { t with sndWnd := t.window seg }.countDupAck 0 now
  rw [sent] at unmoved
  exact unmoved.dupAcks.trans counted

theorem processAck_third {seg : Segment} {now : Nat} (starts : t.StartsRecovery seg)
    (notNew : ¬ t.valuable seg.ack)
    (counted : { t with sndWnd := t.window seg }.countDupAck.dupAcks = 3)
    (sent : { t with sndWnd := t.window seg }.countDupAck.transmit 0 now = (true, u)) :
    t.processAck seg now = (true, u.enterRecovery) := by
  obtain ⟨⟨current, bare, inFlight⟩, -⟩ := starts
  rw [processAck, if_neg notNew, if_pos current]
  exact processDupAck_third (by rw [bare]; exact Nat.lt_irrefl 0) inFlight counted sent

theorem process_third {seg : Segment} {bConnect : Bool} {now : Nat}
    (header : s.processHeader seg = (some (bConnect, now), t))
    (acked : t.processAck seg now = (true, u.enterRecovery)) (many : u.dupAcks = 3) :
    InRecovery u.sndNxt (s.process seg).2 := by
  simp only [process, header, acked]
  exact (afterAck_steady _ bConnect seg).inRecovery (enterRecovery_inRecovery many)

theorem FastRetransmits.inRecovery {environment : Environment} {call : ApiCall} {nxt : Nat}
    (starts : FastRetransmits s environment call nxt) :
    InRecovery nxt (s.step environment call) := by
  obtain ⟨seg, bConnect, now, t, u, ⟨buffer, len, rfl, long, short, rfl⟩, header, third, sent,
    rfl⟩ := starts
  have acked := processAck_third third third.not_valuable third.counted sent
  have inside := process_third header acked (retransmitted_dupAcks third.counted sent)
  simp only [step, run, notifyPacket, parse, if_neg (Nat.not_lt.mpr short),
    if_neg (Nat.not_lt.mpr long)]
  exact inside

/-- After a fast retransmit, and for as long as no acknowledgement comes up to
`m_recover`, the counter stays at three or more while it can count on, and no
acknowledgement starts another fast retransmit or lowers the slow-start threshold. -/
theorem recovery_lasts {s t : PseudoTcp} {environment : Environment} {call : ApiCall} {nxt : Nat}
    (starts : FastRetransmits s environment call nxt)
    (run : Runs (fun s environment call => call.Unrecovered nxt ∧ s.Counting environment call)
      (s.step environment call) t) :
    3 ≤ t.dupAcks ∧ t.recover = nxt ∧
    ∀ environment call seg u, call.Unrecovered nxt → t.Counting environment call →
      call.Brings seg → (t.meet environment).atAck seg = some u →
      ¬ u.StartsRecovery seg ∧ ∀ now, (u.processAck seg now).2.ssthresh = u.ssthresh := by
  have inside : InRecovery nxt t := by
    induction run with
    | start => exact starts.inRecovery
    | step run environment call permitted ok ih => exact step_inRecovery ih ok.1 ok.2
  refine ⟨inside.many, inside.recover, fun environment call seg u below counts brought comes => ?_⟩
  have met := (meet_steady t environment).inRecovery inside
  have header := (processHeader_steady (t.meet environment) seg).inRecovery met
  have examined : u = ((t.meet environment).processHeader seg).2 := by
    simp only [atAck] at comes
    split at comes
    · cases comes
    · next result => rw [result]; exact (Option.some.inj comes).symm
  rw [← examined] at header
  have counted := counts seg brought u comes
  exact ⟨not_startsRecovery header seg counted,
    fun now => (processAck_inRecovery header now (below seg brought) counted).2⟩

/-! ## Two hundred and fifty-six duplicates -/

/-- A bare acknowledgement of everything before byte four. -/
private def duplicate : ApiCall :=
  .arrival (packetBytes 4 4 0 61440 [])

/-- A hundred bytes in flight, acknowledged twice at byte four. -/
private def doubted : PseudoTcp :=
  fresh.runAll (opening ++ [.app (.send (List.replicate 100 1)), duplicate, duplicate])

private theorem duplicate_brings :
    duplicate.Brings (segmentOf (FifoBuffer.pointer (packetBytes 4 4 0 61440 [])) 24) :=
  ⟨_, _, rfl, by decide, by decide, rfl⟩

private theorem brought_duplicate {seg : Segment} (brings : duplicate.Brings seg) :
    seg = segmentOf (FifoBuffer.pointer (packetBytes 4 4 0 61440 [])) 24 := by
  obtain ⟨buffer, len, call, -, -, rfl⟩ := brings
  cases call
  rfl

private theorem duplicate_unrecovered : duplicate.Unrecovered 104 := by
  intro seg brings
  rw [brought_duplicate brings]
  decide +kernel

private theorem answer_eq {α : Type} {answer : α × PseudoTcp} {result : α}
    (answered : answer.1 = result) : answer = (result, answer.2) :=
  Prod.ext answered rfl

private theorem doubted_retransmits : FastRetransmits doubted .silent duplicate 104 := by
  let seg := segmentOf (FifoBuffer.pointer (packetBytes 4 4 0 61440 [])) 24
  let header := (doubted.meet .silent).processHeader seg
  let t := header.2
  let sent := { t with sndWnd := t.window seg }.countDupAck.transmit 0 0
  have examined : header.1 = some (false, 0) := by decide +kernel
  have third : t.StartsRecovery seg := by
    unfold StartsRecovery
    decide +kernel
  have succeeds : sent.1 = true := by decide +kernel
  have next : sent.2.sndNxt = 104 := by decide +kernel
  exact ⟨seg, false, 0, t, sent.2, duplicate_brings, answer_eq examined, third,
    answer_eq succeeds, next⟩

/-- One more duplicate in recovery. -/
theorem recovery_lasts_fourth :
    3 ≤ ((doubted.step .silent duplicate).step .silent duplicate).dupAcks := by
  have counting : (doubted.step .silent duplicate).Counting .silent duplicate := by
    intro seg brings t comes _ _
    have seen : (((doubted.step .silent duplicate).meet .silent).atAck seg).map
        (fun t => (t.dupAcks, t.sndUna, t.sndNxt)) = some (3, 4, 104) := by
      rw [brought_duplicate brings]
      decide +kernel
    rw [comes] at seen
    simp only [Option.map_some, Option.some.injEq, Prod.mk.injEq] at seen
    obtain ⟨three, una, nxt⟩ := seen
    rw [three, una, nxt]
    decide
  exact (recovery_lasts doubted_retransmits
    (Runs.start.step .silent duplicate trivial ⟨duplicate_unrecovered, counting⟩)).1

private theorem duplicates_ok (s : PseudoTcp) (n : Nat) :
    AllOk (fun _ _ call => call.Unrecovered 104) s (List.replicate n duplicate) := by
  induction n generalizing s with
  | zero => trivial
  | succ n ih => exact ⟨trivial, duplicate_unrecovered, ih _⟩

/-- After two hundred and fifty-three more duplicates the counter is at zero. -/
theorem recovery_forgotten :
    ¬ ∀ s, Reachable (fun _ _ _ => True) s → ∀ environment call nxt t,
      FastRetransmits s environment call nxt →
      Runs (fun _ _ call => call.Unrecovered nxt) (s.step environment call) t →
      3 ≤ t.dupAcks := by
  intro claim
  have reached : Reachable (fun _ _ _ => True) doubted :=
    AllOk.reachable ⟨trivial, trivial, trivial, trivial, trivial, trivial, trivial, trivial,
      trivial, trivial, trivial⟩
  have many := claim doubted reached .silent duplicate 104 _ doubted_retransmits
    (duplicates_ok _ 253).runs
  have none : ((doubted.step .silent duplicate).runAll (List.replicate 253 duplicate)).dupAcks
      = 0 := by
    decide +kernel
  omega

end Libjingle.PseudoTcp

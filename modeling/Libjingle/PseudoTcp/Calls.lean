import Libjingle.PseudoTcp.Moves
import Libjingle.PseudoTcp.SendList

/-!
# Every call is made of moves

One theorem for each function of the connection, from `transmit` up to the
public calls. The theorem about `process` says in which states it comes to the
options, the acknowledgement and the data of a segment, so that a run may assume
something about each.
-/

namespace Libjingle.PseudoTcp

open Libjingle.Std
open Libjingle.Base

variable {policy : Admission} {s t u v : PseudoTcp}

theorem Moves.one (move : Move policy s t) : Moves policy s t :=
  Relation.ReflTransGen.single move

theorem SameCore.moves (same : SameCore s t) : Moves policy s t :=
  Moves.one (.keep same)

theorem CongestionMove.moves (change : CongestionMove policy s t) : Moves policy s t :=
  Moves.one (.congested change)

/-! ## Transmitting -/

/-- What the guard of a transmission reads stays the same. -/
structure SameQueue (s t : PseudoTcp) : Prop where
  outgoing : t.toOutgoing = s.toOutgoing
  rtoBase : t.rtoBase = s.rtoBase
  recover : t.recover = s.recover

theorem SameQueue.refl (s : PseudoTcp) : SameQueue s s :=
  ⟨rfl, rfl, rfl⟩

theorem SameQueue.trans (first : SameQueue s t) (second : SameQueue t u) : SameQueue s u :=
  ⟨second.outgoing.trans first.outgoing, second.rtoBase.trans first.rtoBase,
    second.recover.trans first.recover⟩

theorem Frame.sameQueue (frame : Frame s t) : SameQueue s t :=
  ⟨frame.outgoing, congrArg Congestion.rtoBase frame.congestion,
    congrArg Congestion.recover frame.congestion⟩

theorem Attempt.congr {index : Nat} {seg : SSegment} (attempt : Attempt s index seg)
    (same : SameQueue s t) : Attempt t index seg where
  found := by rw [same.outgoing]; exact attempt.found
  few := attempt.few
  reason := by
    simp only [Retransmits, TransmitsNew, same.outgoing, same.rtoBase, same.recover]
    exact attempt.reason

/-- The congestion window and the segment size are as before, or small. -/
def Tempered (s t : PseudoTcp) : Prop :=
  (t.cwnd = s.cwnd ∧ t.mss = s.mss) ∨ t.cwnd + t.mss < 2 ^ 32

theorem Tempered.refl (s : PseudoTcp) : Tempered s s :=
  .inl ⟨rfl, rfl⟩

theorem Tempered.trans (first : Tempered s t) (second : Tempered t u) : Tempered s u := by
  rcases second with ⟨cwnd, mss⟩ | small
  · simpa only [Tempered, cwnd, mss] using first
  · exact .inr small

theorem Frame.tempered (frame : Frame s t) : Tempered s t :=
  .inl ⟨congrArg Congestion.cwnd frame.congestion, congrArg Congestion.mss frame.congestion⟩

/-- Every entry of the table but the first and the end marker makes a segment
size in this range. -/
theorem lowered_mss {level : Nat} (more : packetMaximums.getD (level + 1) 0 ≠ 0) :
    180 ≤ sub32 (packetMaximums.getD (level + 1) 0) packetOverhead ∧
      sub32 (packetMaximums.getD (level + 1) 0) packetOverhead ≤ 31884 := by
  match level with
  | 0 | 1 | 2 | 3 | 4 | 5 | 6 | 7 | 8 =>
    simp [packetMaximums, sub32, packetOverhead, headerSize, udpHeaderSize, ipHeaderSize,
      jingleHeaderSize]
  | 9 => exact absurd rfl more
  | level + 10 => simp [packetMaximums] at more

theorem lowerMss_same (s : PseudoTcp) : SameQueue s s.lowerMss := by
  rcases s with ⟨_, _, _, ⟨⟩, _, _, _⟩
  constructor <;> simp only [lowerMss]

theorem lowerMss_tempered (more : packetMaximums.getD (s.mssLevel + 1) 0 ≠ 0) :
    Tempered s s.lowerMss := by
  have bounds := lowered_mss more
  refine .inr ?_
  simp only [lowerMss]
  rw [mul32_of_lt (by omega)]
  omega

theorem reduceMss_moves (fuel : Nat) (s : PseudoTcp) (nTransmit : Nat) :
    Moves policy s (s.reduceMss fuel nTransmit).2 ∧
      SameQueue s (s.reduceMss fuel nTransmit).2 ∧
      Tempered s (s.reduceMss fuel nTransmit).2 ∧
      ((s.reduceMss fuel nTransmit).1 = true → (s.reduceMss fuel nTransmit).2.mss < nTransmit) := by
  induction fuel generalizing s with
  | zero => exact ⟨.refl, .refl s, .refl s, by simp [reduceMss]⟩
  | succ fuel ih =>
    simp only [reduceMss]
    split
    · exact ⟨.refl, .refl s, .refl s, by simp⟩
    · next more =>
      have lower : Move policy s s.lowerMss := .congested (.lowered more)
      have same := lowerMss_same s
      split
      · next below => exact ⟨.one lower, same, lowerMss_tempered more, fun _ => below⟩
      · obtain ⟨moves, sameRest, tempered, below⟩ := ih s.lowerMss
        exact ⟨.head lower moves, same.trans sameRest, (lowerMss_tempered more).trans tempered,
          below⟩

theorem packetOf_spec (s : PseudoTcp) (seg : SSegment) :
    ∃ call, PacketOf s seg call (s.packetOf seg (min seg.len s.mss)).2 ∧
      (s.packetOf seg (min seg.len s.mss)).1 =
        if min seg.len s.mss = 0 then .success else call.result :=
  packet_spec s _ _ _ _

/-- The loop of `transmit`: refused packets and lower segment sizes, and at last
a packet that was taken or nothing. -/
theorem transmitLoop_moves (fuel : Nat) (s : PseudoTcp) (seg : SSegment) (index now : Nat)
    (attempt : Attempt s index seg) {result : Option Nat}
    (ends : s.transmitLoop fuel seg (min seg.len s.mss) = (result, t)) :
    SameQueue s t ∧ Tempered s t ∧
      (∀ n, result = some n → Moves policy s (t.markTransmitted index n now)) ∧
      (result = none → Moves policy s t) := by
  induction fuel generalizing s with
  | zero =>
    cases ends
    exact ⟨.refl _, .refl _, by simp, fun _ => .refl⟩
  | succ fuel ih =>
    obtain ⟨call, spec, answer⟩ := packetOf_spec s seg
    have same := spec.toFrame.sameQueue
    have tempered := spec.toFrame.tempered
    simp only [transmitLoop] at ends
    rcases written : s.packetOf seg (min seg.len s.mss) with ⟨outcome, u⟩
    simp only [written] at spec answer same tempered ends
    have failed : outcome ≠ .success → Move policy s u := by
      intro notTaken
      refine .refused attempt spec ?_
      split at answer
      · exact absurd answer notTaken
      · exact answer ▸ notTaken
    cases outcome with
    | success =>
      cases ends
      refine ⟨same, tempered, ?_, by simp⟩
      rintro n ⟨⟩
      refine .one (.transmitted attempt spec ?_)
      rw [spec.lenOf]
      split at answer
      · next bare => exact .inl bare
      · exact .inr answer.symm
    | fail =>
      cases ends
      exact ⟨same, tempered, by simp, fun _ => .one (failed (by simp))⟩
    | tooLarge =>
      obtain ⟨moves, sameMss, temperedMss, below⟩ :=
        @reduceMss_moves policy packetMaximums.length u (min seg.len s.mss)
      rcases reduced : u.reduceMss packetMaximums.length (min seg.len s.mss) with ⟨again, v⟩
      simp only [reduced] at moves sameMss temperedMss below ends
      have lower : Moves policy s v := .head (failed (by simp)) moves
      have sameLower := same.trans sameMss
      have temperedLower := tempered.trans temperedMss
      cases again with
      | false =>
        cases ends
        exact ⟨sameLower, temperedLower, by simp, fun _ => lower⟩
      | true =>
        have size : min seg.len v.mss = v.mss := by
          have := below rfl
          omega
        obtain ⟨sameLoop, temperedLoop, marked, stopped⟩ :=
          ih v (attempt.congr sameLower) (by rw [size]; exact ends)
        exact ⟨sameLower.trans sameLoop, temperedLower.trans temperedLoop,
          fun n taken => lower.trans (marked n taken), fun none => lower.trans (stopped none)⟩

/-- What `transmit` leaves behind besides the packet. -/
structure Transmitted (s : PseudoTcp) (index : Nat) (t : PseudoTcp) : Prop where
  outgoing : t.toOutgoing = s.toOutgoing ∨ ∃ n, t.toOutgoing = s.toOutgoing.mark index n
  tempered : Tempered s t
  armed : s.rtoBase ≠ 0 → t.rtoBase ≠ 0

theorem Transmitted.refl (s : PseudoTcp) (index : Nat) : Transmitted s index s :=
  ⟨.inl rfl, .refl s, id⟩

/-- `transmit` is made of moves. -/
theorem transmit_moves (s : PseudoTcp) (index now : Nat)
    (attempt : ∀ seg, s.slist[index]? = some seg → seg.xmit < 30 → Attempt s index seg) :
    Moves policy s (s.transmit index now).2 ∧ Transmitted s index (s.transmit index now).2 := by
  unfold transmit
  split
  · exact ⟨.refl, .refl s index⟩
  · next seg found =>
    by_cases few : seg.xmit < 30
    · by_cases often : (if s.state = .established then 15 else 30) ≤ seg.xmit
      · simp only [often, if_true]
        exact ⟨.refl, .refl s index⟩
      · simp only [often, if_false]
        rcases looped : s.transmitLoop packetMaximums.length seg (min seg.len s.mss) with
          ⟨result, t⟩
        obtain ⟨same, tempered, marked, stopped⟩ :=
          @transmitLoop_moves policy t _ s seg index now (attempt seg found few) result looped
        cases result with
        | none =>
          exact ⟨stopped rfl, .inl same.outgoing, tempered, fun armed => same.rtoBase ▸ armed⟩
        | some n =>
          refine ⟨marked n rfl, .inr ⟨n, ?_⟩, tempered, fun armed => ?_⟩
          · simp only [markTransmitted, same.outgoing]
          · simp only [markTransmitted, same.rtoBase, armed, if_false]
            exact armed
    · have many : (if s.state = .established then 15 else 30) ≤ seg.xmit := by
        split <;> omega
      simp only [many, if_true]
      exact ⟨.refl, .refl s index⟩

/-- The segment at the front may be transmitted again when something is in
flight. -/
theorem transmit_front (s : PseudoTcp) (now : Nat) (inFlight : s.Retransmits 0) :
    Moves policy s (s.transmit 0 now).2 ∧ Transmitted s 0 (s.transmit 0 now).2 :=
  transmit_moves s 0 now fun _ found few => ⟨found, few, .inl inFlight⟩

/-! ## Sending -/

theorem sendAck_moves (s : PseudoTcp) (sflags : SendFlags) :
    Moves policy s (s.sendAck sflags) := by
  obtain ⟨call, spec, _⟩ := packet_spec s s.sndNxt 0 0 0
  cases sflags with
  | none => exact .refl
  | immediateAck => exact .one (.acked spec)
  | delayedAck =>
    simp only [sendAck]
    split
    · exact .one (.acked spec)
    · exact SameCore.moves ((now_same s).trans { SameCore.refl s.now.2 with })

/-- What may be sent is unsent, fits in the peer's window and in a segment. -/
theorem sendable_spec (s : PseudoTcp) (some : 0 < s.sendable) :
    0 < sub32 s.sbuf.getBuffered (sub32 s.sndNxt s.sndUna) ∧
      sub32 s.sndNxt s.sndUna + s.sendable ≤ s.sndWnd := by
  simp only [sendable] at some ⊢
  generalize (if s.dupAcks = 1 ∨ s.dupAcks = 2 then add32 s.cwnd (mul32 s.dupAcks s.mss)
    else s.cwnd) = cwnd at some ⊢
  generalize sub32 s.sndNxt s.sndUna = nInFlight at some ⊢
  generalize sub32 s.sbuf.getBuffered nInFlight = unsent at some ⊢
  by_cases inside : nInFlight < min s.sndWnd cwnd
  · simp only [inside, if_true] at some ⊢
    split
    · next short =>
      simp only [short, if_true] at some
      split
      · next silly => simp [silly] at some
      · omega
    · next enough =>
      simp only [enough, if_false] at some
      omega
  · simp only [inside, if_false] at some ⊢
    split
    · next short => simp [short] at some
    · next enough => simp only [enough, if_false] at some

theorem attemptSendLoop_moves (fuel : Nat) (s : PseudoTcp) (sflags : SendFlags) (now : Nat) :
    Moves policy s (s.attemptSendLoop fuel sflags now) := by
  induction fuel generalizing s sflags with
  | zero => exact .refl
  | succ fuel ih =>
    simp only [attemptSendLoop]
    by_cases nothing : s.sendable = 0
    · rw [if_pos nothing]
      exact sendAck_moves s sflags
    rw [if_neg nothing]
    obtain ⟨unsent, room⟩ := sendable_spec s (Nat.pos_of_ne_zero nothing)
    split
    · exact .refl
    split
    · exact .refl
    next index first =>
    obtain ⟨slist, shape, still, short⟩ := Outgoing.carve_first first s.sendable
    let carved : PseudoTcp := { s with toOutgoing := s.toOutgoing.carve index s.sendable }
    have carve : Move policy s carved := .carved first (Nat.pos_of_ne_zero nothing)
    obtain ⟨moves, _⟩ := @transmit_moves policy carved index now fun seg found few => {
      found := found
      few := few
      reason := by
        simp only [carved, shape] at found
        refine .inr ⟨?_, ?_, ?_⟩ <;> simp only [carved, shape]
        · exact still
        · exact unsent
        · exact Nat.le_trans (Nat.add_le_add_left (short seg found) _) room }
    rcases sent : carved.transmit index now with ⟨_ | _, t⟩
    · rw [sent] at moves
      exact .head carve moves
    · rw [sent] at moves
      exact .head carve (moves.trans (ih t .none))

theorem attemptSend_moves (s : PseudoTcp) (sflags : SendFlags) :
    Moves policy s (s.attemptSend sflags) := by
  have clock : Moves policy s s.now.2 := (now_same s).moves
  simp only [attemptSend]
  split
  · exact clock.trans (.head (.congested .idle) (attemptSendLoop_moves _ _ _ _))
  · exact clock.trans (attemptSendLoop_moves _ _ _ _)

/-! ## The calls of an application -/

/-- A call of the application is one that the run admits. -/
def AppCall.Admitted (policy : Admission) (call : AppCall) : Prop :=
  ∀ force, call = .close force → policy.close

/-- The callbacks make admitted calls only. -/
def Quiet (policy : Admission) (s : PseudoTcp) : Prop :=
  ∀ call ∈ s.scripts, call.Admitted policy

theorem Moves.scripts_eq (moves : Moves policy s t) : t.scripts = s.scripts :=
  moves.keeps (P := fun t => t.scripts = s.scripts)
    (fun move before => move.scripts_eq.trans before) rfl

theorem Quiet.after (quiet : Quiet policy s) (moves : Moves policy s t) : Quiet policy t := by
  unfold Quiet
  rw [moves.scripts_eq]
  exact quiet

theorem openWindow_moves (s : PseudoTcp) :
    Moves policy s { s with toIncoming := s.toIncoming.openWindow } :=
  .one .opened

theorem recv_moves (s : PseudoTcp) (len : Nat) : Moves policy s (s.recv len).2 := by
  simp only [recv]
  split
  · exact SameCore.moves { SameCore.refl s with }
  · split
    · exact SameCore.moves { SameCore.refl s with }
    · next result data rbuf notBlocked reads =>
      have read : Moves policy s ({ s with rbuf := rbuf }.record (.received data)) :=
        .one (.read reads notBlocked)
      generalize { s with rbuf := rbuf }.record (.received data) = taken at read ⊢
      have opened := read.trans (openWindow_moves taken)
      generalize { taken with toIncoming := taken.toIncoming.openWindow } = wide at opened ⊢
      dsimp only
      split
      · split
        · exact opened.trans (attemptSend_moves _ _)
        · exact opened
      · exact read

theorem send_moves (s : PseudoTcp) (data : List UInt8) : Moves policy s (s.send data).2 := by
  simp only [send]
  split
  · exact SameCore.moves { SameCore.refl s with }
  · next established =>
    split
    · exact SameCore.moves { SameCore.refl s with }
    · have queued : Move policy s (s.queue data (toWord data.length) false).2 :=
        .queued data (not_not.mp established)
      generalize s.queue data (toWord data.length) false = result at queued ⊢
      obtain ⟨written, taken⟩ := result
      dsimp only
      exact .head queued (attemptSend_moves taken .none)

theorem appCall_moves (s : PseudoTcp) (call : AppCall) (admitted : call.Admitted policy) :
    Moves policy s (s.appCall call) := by
  cases call with
  | send data => exact send_moves s data
  | recv len => exact recv_moves s len
  | close force => exact .one (.closing _ (admitted force rfl))
  | setOption opt value => cases opt <;> exact SameCore.moves { SameCore.refl s with }

theorem callback_moves (s : PseudoTcp) (notification : Notification) (calls : List AppCall)
    (admitted : ∀ call ∈ calls, call.Admitted policy) :
    Moves policy s (s.callback notification calls) := by
  have notified : Moves policy s (s.notified notification) :=
    SameCore.moves { SameCore.refl s with }
  refine notified.trans ?_
  unfold callback
  generalize s.notified notification = t
  induction calls generalizing t with
  | nil => exact .refl
  | cons first rest ih =>
    exact (appCall_moves t first (admitted first (by simp))).trans
      (ih (fun call member => admitted call (by simp [member])) _)

theorem onTcpOpen_moves (quiet : Quiet policy s) : Moves policy s s.onTcpOpen :=
  callback_moves s _ _ fun call member => quiet call (by simp [scripts, member])

theorem onTcpReadable_moves (quiet : Quiet policy s) : Moves policy s s.onTcpReadable :=
  callback_moves s _ _ fun call member => quiet call (by simp [scripts, member])

theorem onTcpWriteable_moves (quiet : Quiet policy s) : Moves policy s s.onTcpWriteable :=
  callback_moves s _ _ fun call member => quiet call (by simp [scripts, member])

theorem closedown_moves (s : PseudoTcp) (err : Errno) : Moves policy s (s.closedown err) :=
  .head .closed (SameCore.moves { SameCore.refl { s with state := .closed } with })

/-! ## Processing a segment -/

/-- No sum that an acknowledgement makes the congestion window comes out as zero. -/
structure Room (s : PseudoTcp) (seg : Segment) : Prop where
  exit : s.valuable seg.ack → 3 ≤ s.dupAcks → s.recover ≤ seg.ack →
    sub32 s.sndNxt seg.ack + s.mss ≠ 2 ^ 32
  partly : s.valuable seg.ack → 3 ≤ s.dupAcks → seg.ack < s.recover →
    s.cwnd + s.mss - min (sub32 seg.ack s.sndUna) s.cwnd ≠ 2 ^ 32
  grow : s.valuable seg.ack → s.dupAcks < 3 → s.cwnd + s.growth ≠ 2 ^ 32
  inflate : seg.ack = s.sndUna → seg.len = 0 → s.sndUna ≠ s.sndNxt → 3 < add8 s.dupAcks 1 →
    s.cwnd + s.mss ≠ 2 ^ 32

/-- A connection in recovery has a slow-start threshold to come back to. -/
def HasThreshold (s : PseudoTcp) : Prop :=
  3 ≤ s.dupAcks → 0 < s.ssthresh

/-- What a run grants to a segment that is processed from a state, up to where
`process` comes to the data. -/
structure GrantsHeader (policy : Admission) (s : PseudoTcp) (seg : Segment) : Prop where
  options : ∀ t, s.atOptions seg = some t → policy.options t seg
  ack : ∀ t, s.atAck seg = some t → policy.ack t seg
  adjust : ∀ t, s.AdjustsAt seg t → policy.adjust t
  room : ∀ t, s.atAck seg = some t → policy.roomy → t.Room seg ∧ t.HasThreshold

/-- What a run grants to a segment that is processed from a state. -/
structure Grants (policy : Admission) (s : PseudoTcp) (seg : Segment) : Prop
    extends GrantsHeader policy s seg where
  data : ∀ t, s.atData seg = some t → policy.data t seg

theorem acknowledge_moves (s : PseudoTcp) (seg : Segment) (now : Nat)
    (valuable : s.valuable seg.ack) (admitted : policy.ack s seg) :
    Moves policy s ((s.updateRtt seg now).acknowledge seg now) :=
  .one (.acknowledged valuable admitted)

/-- An acknowledgement of new data leaves the windows and the recovery as they are. -/
theorem acknowledge_congestion (s : PseudoTcp) (seg : Segment) (now : Nat) :
    ((s.updateRtt seg now).acknowledge seg now).cwnd = s.cwnd ∧
      ((s.updateRtt seg now).acknowledge seg now).mss = s.mss ∧
      ((s.updateRtt seg now).acknowledge seg now).ssthresh = s.ssthresh ∧
      ((s.updateRtt seg now).acknowledge seg now).dupAcks = s.dupAcks ∧
      ((s.updateRtt seg now).acknowledge seg now).recover = s.recover := by
  simp only [acknowledge, (updateRtt_same s seg now).congestion, and_self]

theorem processNewAck_moves (s : PseudoTcp) (seg : Segment) (now : Nat)
    (valuable : s.valuable seg.ack) (admitted : policy.ack s seg)
    (room : policy.roomy → s.Room seg ∧ s.HasThreshold) :
    Moves policy s (s.processNewAck seg now).2 := by
  have acked := @acknowledge_moves policy s seg now valuable admitted
  have same := updateRtt_same s seg now
  have una : ((s.updateRtt seg now).acknowledge seg now).sndUna = seg.ack := rfl
  have next : ((s.updateRtt seg now).acknowledge seg now).sndNxt = s.sndNxt := by
    simp only [acknowledge, Outgoing.acknowledge, same.outgoing]
  have congestion := acknowledge_congestion s seg now
  simp only [processNewAck]
  generalize (s.updateRtt seg now).acknowledge seg now = t at acked una next congestion ⊢
  obtain ⟨cwnd, mss, ssthresh, dupAcks, recover⟩ := congestion
  split
  · next duplicates =>
    rw [dupAcks] at duplicates
    split
    · next recovered =>
      rw [recover, una] at recovered
      refine acked.tail (.congested (.exited fun roomy => ?_))
      rw [una, next, mss, ssthresh]
      exact ⟨(room roomy).2 duplicates, (room roomy).1.exit valuable duplicates recovered⟩
    · next inRecovery =>
      obtain ⟨moves, transmitted⟩ := @transmit_front policy t now
        ⟨rfl, .inr (.inr (Nat.lt_of_not_le inRecovery))⟩
      rw [recover, una] at inRecovery
      have tempered := transmitted.tempered
      rcases sent : t.transmit 0 now with ⟨_ | _, u⟩
      · rw [sent] at moves
        exact (acked.trans moves).trans (closedown_moves _ _)
      · rw [sent] at moves tempered
        refine (acked.trans moves).tail (.congested (.partly _ fun roomy => ?_))
        rcases tempered with ⟨cwndSame, mssSame⟩ | small
        · simp only at cwndSame mssSame
          rw [cwndSame, mssSame, cwnd, mss]
          exact (room roomy).1.partly valuable duplicates (Nat.lt_of_not_le inRecovery)
        · change u.cwnd + u.mss - min (sub32 seg.ack s.sndUna) u.cwnd ≠ 2 ^ 32
          simp only at small
          omega
  · next few =>
    rw [dupAcks] at few
    refine acked.tail (.congested (.grew fun roomy => ?_))
    rw [growth, cwnd, mss, ssthresh]
    exact (room roomy).1.grow valuable (Nat.lt_of_not_le few)

theorem processDupAck_moves (s : PseudoTcp) (seg : Segment) (now : Nat)
    (current : seg.ack = s.sndUna) (admitted : policy.ack s seg)
    (room : policy.roomy → s.Room seg) : Moves policy s (s.processDupAck seg now).2 := by
  have windowed : Moves policy s { s with sndWnd := s.window seg } :=
    .one (.windowed current admitted)
  have room : policy.roomy → seg.len = 0 → s.sndUna ≠ s.sndNxt → 3 < add8 s.dupAcks 1 →
      s.cwnd + s.mss ≠ 2 ^ 32 := fun roomy => (room roomy).inflate current
  unfold processDupAck
  generalize next : ({ s with sndWnd := s.window seg } : PseudoTcp) = t at windowed ⊢
  have una : t.sndUna = s.sndUna := by rw [← next]
  have nxt : t.sndNxt = s.sndNxt := by rw [← next]
  dsimp only
  split
  · exact windowed
  next bare =>
  split
  · next inFlight =>
    have counted : Moves policy s t.countDupAck := windowed.tail (.congested .counted)
    split
    · obtain ⟨moves, _⟩ := @transmit_front policy t.countDupAck now
        ⟨rfl, .inr (.inl inFlight)⟩
      rcases sent : t.countDupAck.transmit 0 now with ⟨_ | _, u⟩
      · rw [sent] at moves
        exact (counted.trans moves).trans (closedown_moves _ _)
      · rw [sent] at moves
        exact (counted.trans moves).tail (.congested .entered)
    · split
      · next many =>
        refine counted.tail (.congested (.inflated fun roomy => ?_))
        have cwnd : t.countDupAck.cwnd = s.cwnd := by rw [← next]; rfl
        have mss : t.countDupAck.mss = s.mss := by rw [← next]; rfl
        have dupAcks : t.countDupAck.dupAcks = add8 s.dupAcks 1 := by rw [← next]; rfl
        rw [cwnd, mss]
        rw [una, nxt] at inFlight
        exact room roomy (Nat.eq_zero_of_not_pos bare) inFlight (dupAcks ▸ many)
      · exact counted
  · exact windowed.tail (.congested .restarted)

theorem processAck_moves (s : PseudoTcp) (seg : Segment) (now : Nat) (admitted : policy.ack s seg)
    (room : policy.roomy → s.Room seg ∧ s.HasThreshold) :
    Moves policy s (s.processAck seg now).2 := by
  unfold processAck
  split
  · next valuable => exact processNewAck_moves s seg now valuable admitted room
  · split
    · next current =>
      exact processDupAck_moves s seg now current admitted fun roomy => (room roomy).1
    · exact .refl

theorem establish_moves (quiet : Quiet policy s)
    (opening : s.state = .synSent ∨ s.state = .synReceived)
    (adjust : policy.adjust { s with state := .established }) :
    Moves policy s ({ s with state := .established }).adjustMTU.onTcpOpen := by
  have established : Moves policy s { s with state := .established } := .one (.established opening)
  have adjusted := established.tail (.congested (.adjusted adjust))
  exact adjusted.trans (onTcpOpen_moves (quiet.after adjusted))

theorem processControl_moves (s : PseudoTcp) (seg : Segment) (quiet : Quiet policy s)
    (options : seg.flags &&& flagCtl ≠ 0 → seg.len ≠ 0 → seg.data 0 = ctlConnect →
      policy.options s seg)
    (adjust : seg.flags &&& flagCtl ≠ 0 → seg.len ≠ 0 → seg.data 0 = ctlConnect →
      (s.parseOptions (fun index => seg.data (index + 1)) (seg.len - 1)).state = .synSent →
      policy.adjust { s.parseOptions (fun index => seg.data (index + 1)) (seg.len - 1) with
        state := .established }) :
    Moves policy s (s.processControl seg).2 := by
  unfold processControl
  split
  · exact .refl
  next control =>
  split
  · exact .refl
  next some =>
  split
  · next connect =>
    have optioned : Moves policy s
        (s.parseOptions (fun index => seg.data (index + 1)) (seg.len - 1)) :=
      .one (.optioned (options control some connect))
    have adjusts := adjust control some connect
    have still := quiet.after optioned
    generalize s.parseOptions (fun index => seg.data (index + 1)) (seg.len - 1) = t
      at optioned adjusts still ⊢
    dsimp only
    split
    · next listening => exact optioned.tail (.began listening (.inr rfl))
    · split
      · next opening =>
        exact optioned.trans (establish_moves still (.inl opening) (adjusts opening))
      · exact optioned
  · exact .refl

theorem updateTimestamp_same (s : PseudoTcp) (seg : Segment) : SameCore s (s.updateTimestamp seg) := by
  unfold updateTimestamp
  split
  · exact { SameCore.refl s with }
  · exact .refl s

theorem noteReceipt_same (s : PseudoTcp) : SameCore s (s.now.2.noteReceipt s.now.1) :=
  (now_same s).trans { SameCore.refl s.now.2 with }

theorem processHeader_moves (s : PseudoTcp) (seg : Segment) (quiet : Quiet policy s)
    (grants : GrantsHeader policy s seg) : Moves policy s (s.processHeader seg).2 := by
  have same := noteReceipt_same s
  have start : Moves policy s (s.now.2.noteReceipt s.now.1) := same.moves
  have reads : seg.conv = s.conv → (s.now.2.noteReceipt s.now.1).state ≠ .closed →
      seg.flags &&& flagRst = 0 → seg.flags &&& flagCtl ≠ 0 → seg.len ≠ 0 →
      seg.data 0 = ctlConnect → s.atOptions seg = some (s.now.2.noteReceipt s.now.1) := by
    intro ours isOpen noReset control some connect
    rw [same.state] at isOpen
    rw [atOptions, if_pos ⟨ours, isOpen, noReset, control, some, connect⟩]
  unfold processHeader
  dsimp only
  generalize s.now.2.noteReceipt s.now.1 = u at start reads ⊢
  split
  · exact .refl
  next ours =>
  split
  · exact start
  next isOpen =>
  split
  · exact start.trans (closedown_moves _ _)
  next noReset =>
  have reads := reads (not_not.mp ours) isOpen (not_not.mp noReset)
  have control := @processControl_moves policy u seg (quiet.after start)
    (fun control some connect => grants.options u (reads control some connect))
    (fun control some connect opening =>
      grants.adjust _ (.control (reads control some connect) opening))
  generalize u.processControl seg = result at control ⊢
  rcases result with ⟨_ | bConnect, v⟩
  · exact start.trans control
  · exact (start.trans control).trans (updateTimestamp_same v seg).moves

theorem finishHandshake_moves (s : PseudoTcp) (bConnect : Bool) (quiet : Quiet policy s)
    (adjust : s.state = .synReceived → bConnect = false →
      policy.adjust { s with state := .established }) :
    Moves policy s (s.finishHandshake bConnect) := by
  unfold finishHandshake
  split
  · next opening =>
    exact establish_moves quiet (.inr opening.1) (adjust opening.1 (by simpa using opening.2))
  · exact .refl

theorem notifyWriteable_moves (s : PseudoTcp) (quiet : Quiet policy s) :
    Moves policy s s.notifyWriteable := by
  simp only [notifyWriteable]
  split
  · have same : Moves policy s { s with bWriteEnable := false } :=
      SameCore.moves { SameCore.refl s with }
    exact same.trans (onTcpWriteable_moves (quiet.after same))
  · exact .refl

theorem processData_moves (s : PseudoTcp) (seg : Segment) (quiet : Quiet policy s)
    (admitted : policy.data s seg) : Moves policy s (s.processData seg) := by
  have received : Moves policy s { s with
      toIncoming := (s.toIncoming.receive (s.adjust seg) (s.ignoresData seg)).incoming } :=
    .one (.received admitted)
  unfold processData
  generalize s.toIncoming.receive (s.adjust seg) (s.ignoresData seg) = result at received ⊢
  dsimp only
  generalize { s with toIncoming := result.incoming } = t at received ⊢
  have sent := received.trans (@attemptSend_moves policy t
    (if result.recovered then .immediateAck else s.ackFlags seg))
  generalize t.attemptSend (if result.recovered then .immediateAck else s.ackFlags seg) = u
    at sent ⊢
  split
  · have same : Moves policy s { u with bReadEnable := false } :=
      sent.trans (SameCore.moves { SameCore.refl u with })
    exact same.trans (onTcpReadable_moves (quiet.after same))
  · exact sent

theorem atAck_moves (quiet : Quiet policy s) {seg : Segment} (grants : GrantsHeader policy s seg)
    (comes : s.atAck seg = some t) : Moves policy s t := by
  have header := processHeader_moves s seg quiet grants
  unfold atAck at comes
  generalize s.processHeader seg = result at header comes
  rcases result with ⟨_ | _, u⟩
  · cases comes
  · cases comes
    exact header

theorem atData_moves (quiet : Quiet policy s) {seg : Segment} (grants : GrantsHeader policy s seg)
    (comes : s.atData seg = some t) : Moves policy s t := by
  unfold atData at comes
  rcases headed : s.processHeader seg with ⟨_ | ⟨bConnect, now⟩, u⟩
  · simp [headed] at comes
  have reaches : s.atAck seg = some u := by simp only [atAck, headed]
  have acked := (atAck_moves quiet grants reaches).trans
    (processAck_moves u seg now (grants.ack u reaches) (grants.room u reaches))
  rcases examined : u.processAck seg now with ⟨_ | _, v⟩
  · simp [headed, examined] at comes
  simp only [headed, examined, Option.some.injEq] at comes
  rw [examined] at acked
  dsimp only at acked
  have finished := acked.trans (finishHandshake_moves v bConnect (quiet.after acked)
    fun opening other => grants.adjust _ (.handshake (other ▸ headed) examined opening))
  rw [← comes]
  exact finished.trans (notifyWriteable_moves _ (quiet.after finished))

/-- A segment is refused, or closes the connection, or its data is processed. -/
theorem process_cases (s : PseudoTcp) (seg : Segment) :
    (∃ t, s.atData seg = some t ∧ s.process seg = (true, t.processData seg)) ∨
      (∃ bConnect now t u, s.processHeader seg = (some (bConnect, now), t) ∧
        s.atAck seg = some t ∧ t.processAck seg now = (false, u) ∧
        s.process seg = (false, u)) ∨
      s.process seg = (false, (s.processHeader seg).2) := by
  unfold process
  rcases headed : s.processHeader seg with ⟨_ | ⟨bConnect, now⟩, t⟩
  · exact .inr (.inr rfl)
  rcases examined : t.processAck seg now with ⟨_ | _, u⟩
  · exact .inr (.inl ⟨bConnect, now, t, u, rfl, by simp only [atAck, headed], examined,
      by simp only [examined]⟩)
  · exact .inl ⟨(u.finishHandshake bConnect).notifyWriteable,
      by simp only [atData, headed, examined], by simp only [examined]⟩

theorem process_moves (s : PseudoTcp) (seg : Segment) (quiet : Quiet policy s)
    (grants : Grants policy s seg) : Moves policy s (s.process seg).2 := by
  rcases process_cases s seg with ⟨t, comes, result⟩ | ⟨_, now, t, u, _, comes, ack, result⟩ | result
  · have before := atData_moves quiet grants.toGrantsHeader comes
    rw [result]
    exact before.trans (processData_moves t seg (quiet.after before) (grants.data t comes))
  · have acked := processAck_moves t seg now (grants.ack t comes) (grants.room t comes)
    rw [ack] at acked
    rw [result]
    exact (atAck_moves quiet grants.toGrantsHeader comes).trans acked
  · rw [result]
    exact processHeader_moves s seg quiet grants.toGrantsHeader

/-! ## The public calls -/

theorem queueConnectMessage_moves (listening : s.state = .listen) :
    Moves policy s { s with state := .synSent }.queueConnectMessage :=
  .one (.began listening (.inl rfl))

theorem connect_moves (s : PseudoTcp) : Moves policy s s.connect := by
  unfold connect
  split
  · exact SameCore.moves { SameCore.refl s with }
  · next listening =>
    exact (queueConnectMessage_moves (not_not.mp listening)).trans (attemptSend_moves _ _)

theorem retransmitClock_moves (s : PseudoTcp) (now : Nat) :
    Moves policy s (s.retransmitClock now).2 := by
  unfold retransmitClock
  split
  · next due =>
    obtain ⟨moves, transmitted⟩ := @transmit_front policy s now ⟨rfl, .inl due.1⟩
    have armed := transmitted.armed due.1
    generalize s.transmit 0 now = result at moves armed ⊢
    rcases result with ⟨_ | _, t⟩
    · exact moves.trans (closedown_moves _ _)
    · exact moves.tail (.congested (.backedOff now armed))
  · exact .refl

theorem bareAck_moves (s : PseudoTcp) (seq : Nat) : Moves policy s (s.packet seq 0 0 0).2 := by
  obtain ⟨call, spec, _⟩ := packet_spec s seq 0 0 0
  exact .one (.acked spec)

theorem probeClock_moves (s : PseudoTcp) (now : Nat) : Moves policy s (s.probeClock now).2 := by
  unfold probeClock
  split
  · split
    · exact closedown_moves _ _
    · have probed := @bareAck_moves policy s (sub32 s.sndNxt 1)
      generalize (s.packet (sub32 s.sndNxt 1) 0 0 0).2 = t at probed ⊢
      exact probed.trans (SameCore.moves { SameCore.refl t with })
  · exact .refl

theorem ackClock_moves (s : PseudoTcp) (now : Nat) : Moves policy s (s.ackClock now) := by
  unfold ackClock
  split
  · exact bareAck_moves s s.sndNxt
  · exact .refl

theorem notifyClock_moves (s : PseudoTcp) (now : UInt32) : Moves policy s (s.notifyClock now) := by
  unfold notifyClock
  split
  · exact .refl
  have retransmitted := @retransmitClock_moves policy s now.toNat
  generalize s.retransmitClock now.toNat = result at retransmitted ⊢
  rcases result with ⟨_ | _, t⟩
  · exact retransmitted
  have probed := retransmitted.trans (@probeClock_moves policy t now.toNat)
  dsimp only
  generalize t.probeClock now.toNat = result at probed ⊢
  rcases result with ⟨_ | _, u⟩
  · exact probed
  exact probed.trans (ackClock_moves u now.toNat)

/-- What a run grants to one call in its environment. -/
def GrantsCall (policy : Admission) (s : PseudoTcp) : ApiCall → Prop
  | .app call => call.Admitted policy
  | .connect | .notifyClock _ => True
  | .notifyMTU mtu => policy.advise mtu.toNat ∧
      (s.state = .established → policy.adjust { s with mtuAdvise := mtu.toNat })
  | .notifyPacket buffer len => 12 ≤ len → len ≤ maxPacket →
      Grants policy s (segmentOf buffer len)
  | .setSndBuf size => policy.sndBuf s size.toNat
  | .setRcvBuf size => policy.rcvBuf s size.toNat
  | .disableWindowScale => policy.unscale

theorem run_moves (s : PseudoTcp) (call : ApiCall) (quiet : Quiet policy s)
    (permitted : s.Permits call) (grants : GrantsCall policy s call) :
    Moves policy s (s.run call) := by
  cases call with
  | app call => exact appCall_moves s call grants
  | connect => exact connect_moves s
  | notifyMTU mtu =>
    have advised : Moves policy s { s with mtuAdvise := mtu.toNat } :=
      .one (.congested (.advised mtu grants.1))
    simp only [run, notifyMTU]
    split
    · next established => exact advised.tail (.congested (.adjusted (grants.2 established)))
    · exact advised
  | notifyClock now => exact notifyClock_moves s now
  | notifyPacket buffer len =>
    simp only [run, notifyPacket, parse]
    split
    · exact .refl
    next small =>
    split
    · exact .refl
    next large => exact process_moves s _ quiet (grants (by omega) (by omega))
  | setSndBuf size => exact .one (.resizedSend _ permitted size.toNat_lt grants)
  | setRcvBuf size => exact .one (.resizedReceive _ permitted size.toNat_lt grants)
  | disableWindowScale => exact .one (.unscaled grants)

/-- Everything may happen, except that incoming segments and a new size of the
receive buffer meet a condition. -/
def Admission.incoming (options ack data : PseudoTcp → Segment → Prop)
    (rcvBuf : PseudoTcp → Nat → Prop) : Admission :=
  { Admission.all with options := options, ack := ack, data := data, rcvBuf := rcvBuf }

/-- What such an admission asks of a segment that is not a control segment, before
its data. -/
theorem grantsHeader_incoming {options ack data : PseudoTcp → Segment → Prop}
    {rcvBuf : PseudoTcp → Nat → Prop} {seg : Segment} (plain : seg.flags &&& flagCtl = 0)
    (acks : ∀ t, s.atAck seg = some t → ack t seg) :
    Quiet (.incoming options ack data rcvBuf) s ∧
      GrantsHeader (.incoming options ack data rcvBuf) s seg := by
  refine ⟨fun _ _ _ _ => trivial, ?_⟩
  exact {
    options := by
      intro t comes
      simp only [atOptions] at comes
      split at comes
      · next control => exact absurd plain control.2.2.2.1
      · cases comes
    ack := acks
    adjust := fun _ _ => trivial
    room := fun _ _ roomy => roomy.elim }

/-- What such an admission asks of a call. -/
theorem grants_incoming {options ack data : PseudoTcp → Segment → Prop}
    {rcvBuf : PseudoTcp → Nat → Prop} {call : ApiCall}
    (segment : ∀ seg, call.Brings seg → ∀ t,
      (s.atOptions seg = some t → options t seg) ∧ (s.atAck seg = some t → ack t seg) ∧
        (s.atData seg = some t → data t seg))
    (size : ∀ size, call = .setRcvBuf size → rcvBuf s size.toNat) :
    Quiet (.incoming options ack data rcvBuf) s ∧
      GrantsCall (.incoming options ack data rcvBuf) s call := by
  refine ⟨fun _ _ _ _ => trivial, ?_⟩
  cases call with
  | app call => exact fun _ _ => trivial
  | connect => trivial
  | notifyMTU mtu => exact ⟨trivial, fun _ => trivial⟩
  | notifyClock now => trivial
  | notifyPacket buffer len =>
    intro long short
    have brought := segment _ ⟨buffer, len, rfl, long, short, rfl⟩
    exact {
      options := fun t => (brought t).1
      ack := fun t => (brought t).2.1
      data := fun t => (brought t).2.2
      adjust := fun _ _ => trivial
      room := fun _ _ roomy => roomy.elim }
  | setSndBuf size => trivial
  | setRcvBuf bytes => exact size bytes rfl
  | disableWindowScale => trivial

/-- A property that moves keep, and that does not depend on the environment,
holds along a run whose calls are granted. -/
theorem Runs.keeps {Ok : PseudoTcp → Environment → ApiCall → Prop} {P : PseudoTcp → Prop}
    (run : Runs Ok s t) (policy : Admission)
    (grants : ∀ {t environment call}, Ok t environment call → P t →
      Quiet policy (t.meet environment) ∧ GrantsCall policy (t.meet environment) call)
    (meets : ∀ {t} environment, P t → P (t.meet environment))
    (move : ∀ {s t}, Move policy s t → P s → P t) (start : P s) : P t := by
  induction run with
  | start => exact start
  | step _ environment call permitted ok ih =>
    obtain ⟨quiet, granted⟩ := grants ok ih
    exact (run_moves _ call quiet permitted granted).keeps move (meets environment ih)

/-! ## The life of a connection -/

/-- How far a connection in a state has come. -/
def TcpState.stage : TcpState → Nat
  | .listen => 0
  | .synSent | .synReceived => 1
  | .established => 2
  | .closed => 3

/-- The connection is in the same state, or it has come further. -/
def Onward (s t : PseudoTcp) : Prop :=
  t.state = s.state ∨ s.state.stage < t.state.stage

theorem Onward.trans (first : Onward s t) (second : Onward t u) : Onward s u := by
  rcases first with same | further
  · rw [Onward, ← same]
    exact second
  · rcases second with same | later
    · exact .inr (same ▸ further)
    · exact .inr (Nat.lt_trans further later)

theorem Move.onward (move : Move policy s t) : Onward s t := by
  cases move with
  | keep same => exact .inl same.state
  | congested change => exact .inl change.frame.state
  | acked spec => exact .inl spec.state
  | refused _ spec _ => exact .inl spec.state
  | transmitted _ spec _ => exact .inl spec.state
  | began listening opening =>
    refine .inr ?_
    rw [listening]
    rcases opening with rfl | rfl <;> exact Nat.one_pos
  | established opening =>
    refine .inr ?_
    rcases opening with waits | waits <;> rw [waits] <;> exact Nat.one_lt_two
  | closed =>
    have last : s.state = .closed ∨ s.state.stage < TcpState.stage .closed := by
      cases s.state <;> decide
    exact last.imp Eq.symm id
  | @acknowledged seg now _ _ => exact .inl (updateRtt_same s seg now).state
  | @optioned seg _ =>
    obtain ⟨scale, result⟩ | ⟨_, result⟩ :=
      parseOptions_spec s (fun index => seg.data (index + 1)) (seg.len - 1) <;>
      rw [result] <;> exact .inl rfl
  | _ => exact .inl rfl

/-- A closed connection neither moves any bytes nor calls back. -/
structure Silent (s t : PseudoTcp) : Prop where
  state : t.state = .closed
  history : t.history = s.history
  notified : t.notify.notified = s.notify.notified

theorem process_closed (closed : s.state = .closed) (seg : Segment) :
    Silent s (s.process seg).2 := by
  have clock : Silent s s.now.2 := by
    unfold now
    split <;> exact ⟨closed, rfl, rfl⟩
  unfold process processHeader
  by_cases other : seg.conv ≠ s.conv
  · rw [if_pos other]
    exact ⟨closed, rfl, rfl⟩
  · rw [if_neg other]
    dsimp only
    rw [if_pos (show (s.now.2.noteReceipt s.now.1).state = .closed from clock.state)]
    exact ⟨clock.state, clock.history, clock.notified⟩

theorem run_closed (closed : s.state = .closed) (call : ApiCall) (permitted : s.Permits call) :
    Silent s (s.run call) := by
  have shut : s.state ≠ .established := by
    rw [closed]
    decide
  have started : s.state ≠ .listen := by
    rw [closed]
    decide
  cases call with
  | app call =>
    cases call with
    | send data =>
      simp only [run, appCall, send, if_pos shut]
      exact ⟨closed, rfl, rfl⟩
    | recv len =>
      simp only [run, appCall, recv, if_pos shut]
      exact ⟨closed, rfl, rfl⟩
    | close force => exact ⟨closed, rfl, rfl⟩
    | setOption opt value => cases opt <;> exact ⟨closed, rfl, rfl⟩
  | connect =>
    rw [run, connect, if_pos started]
    exact ⟨closed, rfl, rfl⟩
  | notifyMTU mtu =>
    unfold run notifyMTU
    dsimp only
    rw [if_neg shut]
    exact ⟨closed, rfl, rfl⟩
  | notifyClock now =>
    rw [run, notifyClock, if_pos closed]
    exact ⟨closed, rfl, rfl⟩
  | notifyPacket buffer len =>
    unfold run notifyPacket parse
    dsimp only
    split
    · exact ⟨closed, rfl, rfl⟩
    split
    · exact ⟨closed, rfl, rfl⟩
    · exact process_closed closed _
  | setSndBuf _ | setRcvBuf _ => exact absurd permitted started
  | disableWindowScale => exact ⟨closed, rfl, rfl⟩

/-- In every run a connection only comes further, and after it is closed no call sends a packet,
takes or returns bytes, or calls back. -/
theorem lifecycle {Ok : PseudoTcp → Environment → ApiCall → Prop} (run : Runs Ok s t) :
    Onward s t ∧ (s.state = .closed → Silent s t) := by
  induction run with
  | start => exact ⟨.inl rfl, fun closed => ⟨closed, rfl, rfl⟩⟩
  | @step t run environment call permitted ok ih =>
    obtain ⟨quiet, grants⟩ := @grants_incoming (t.meet environment) (fun _ _ => True)
      (fun _ _ => True) (fun _ _ => True) (fun _ _ => True) call
      (fun _ _ _ => ⟨fun _ => trivial, fun _ => trivial, fun _ => trivial⟩) (fun _ _ => trivial)
    have moves := run_moves (t.meet environment) call quiet permitted grants
    refine ⟨ih.1.trans ?_, fun closed => ?_⟩
    · exact moves.keeps (P := Onward (t.meet environment)) (fun move before => before.trans move.onward)
        (.inl rfl)
    · have silent := ih.2 closed
      have last := run_closed (s := t.meet environment) silent.state call permitted
      exact ⟨last.state, last.history.trans silent.history, last.notified.trans silent.notified⟩

/-- The opening comes further than the state in which it begins. -/
theorem lifecycle_opening : Onward fresh (fresh.runAll opening) ∧
    (fresh.state = .closed → Silent fresh (fresh.runAll opening)) := by
  have ok : AllOk (fun _ _ _ => True) fresh opening := ⟨trivial, trivial, trivial, trivial, trivial⟩
  exact lifecycle ok.runs

end Libjingle.PseudoTcp

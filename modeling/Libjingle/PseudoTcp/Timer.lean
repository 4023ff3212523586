import Libjingle.PseudoTcp.Moves

/-!
# The retransmission timer

`Timer` is what the code keeps about retransmission: the sequence numbers between which bytes are
in flight, the time from which the timeout is counted, zero when the timer is off, and the timeout.
Every call takes it through `Timer.Step`s. The times that a step brings in are readings of the
clock, or the time given to `NotifyClock`; `P` is what is known about them.
-/

namespace Libjingle.PseudoTcp

open Libjingle.Std

/-! ## The timer alone -/

structure Timer where
  una : Nat
  next : Nat
  base : Nat
  rto : Nat

namespace Timer

/-- What can happen to the timer. -/
inductive Step (P : Nat → Prop) (timer : Timer) : Timer → Prop where
  /-- A segment is transmitted. -/
  | sent {now next : Nat} (reading : timer.base = 0 → P now) :
      Step P timer
        { timer with next := next, base := if timer.base = 0 then now else timer.base }
  /-- Bytes in flight are acknowledged. -/
  | acked {now ack : Nat} (reading : ack ≠ timer.next → P now) :
      Step P timer { timer with una := ack, base := if ack = timer.next then 0 else now }
  /-- A round trip is measured. -/
  | measured {rto : Nat} (low : minRto ≤ rto) (high : rto ≤ maxRto) :
      Step P timer { timer with rto := rto }
  /-- The timer goes off. -/
  | backedOff {now limit : Nat} (reading : P now) (either : limit = defRto ∨ limit = maxRto) :
      Step P timer { timer with base := now, rto := min limit (mul32 timer.rto 2) }
  /-- A closed window is probed. -/
  | probed : Step P timer { timer with rto := min maxRto (mul32 timer.rto 2) }

abbrev Steps (P : Nat → Prop) : Timer → Timer → Prop :=
  Relation.ReflTransGen (Step P)

/-- The timer runs while bytes are in flight. -/
def Armed (timer : Timer) : Prop :=
  timer.una ≠ timer.next → timer.base ≠ 0

theorem Step.armed {timer timer' : Timer} (step : Step (· ≠ 0) timer timer')
    (armed : timer.Armed) : timer'.Armed := by
  cases step with
  | @sent now next reading =>
    intro _
    change (if timer.base = 0 then now else timer.base) ≠ 0
    split
    · next off => exact reading off
    · next on => exact on
  | @acked now ack reading =>
    intro inFlight
    have left : ack ≠ timer.next := inFlight
    change (if ack = timer.next then 0 else now) ≠ 0
    rw [if_neg left]
    exact reading left
  | measured _ _ => exact armed
  | backedOff reading _ => exact fun _ => reading
  | probed => exact armed

/-- The base is a word, and the timeout within its bounds. -/
structure Sound (timer : Timer) : Prop where
  word : timer.base < 2 ^ 32
  low : minRto ≤ timer.rto
  high : timer.rto ≤ maxRto

/-- Doubling within the bounds does not wrap. -/
theorem Sound.doubled {timer : Timer} (sound : timer.Sound) :
    mul32 timer.rto 2 = timer.rto * 2 := by
  have high := sound.high
  refine mul32_of_lt ?_
  unfold maxRto at high
  omega

theorem Step.sound {timer timer' : Timer} (step : Step (· < 2 ^ 32) timer timer')
    (sound : timer.Sound) : timer'.Sound := by
  have word := sound.word
  have low := sound.low
  cases step with
  | @sent now next reading =>
    refine ⟨?_, sound.low, sound.high⟩
    change (if timer.base = 0 then now else timer.base) < 2 ^ 32
    split
    · next off => exact reading off
    · exact word
  | @acked now ack reading =>
    refine ⟨?_, sound.low, sound.high⟩
    change (if ack = timer.next then 0 else now) < 2 ^ 32
    split
    · exact Nat.two_pow_pos 32
    · next left => exact reading left
  | measured low high => exact ⟨word, low, high⟩
  | @backedOff now limit reading either =>
    have bounds : defRto ≤ maxRto ∧ minRto ≤ defRto ∧ minRto ≤ maxRto := by decide
    refine ⟨reading, ?_, ?_⟩
    · change minRto ≤ min limit (mul32 timer.rto 2)
      rw [sound.doubled]
      omega
    · change min limit (mul32 timer.rto 2) ≤ maxRto
      omega
  | probed =>
    have bounds : minRto ≤ maxRto := by decide
    refine ⟨word, ?_, Nat.min_le_left _ _⟩
    change minRto ≤ min maxRto (mul32 timer.rto 2)
    rw [sound.doubled]
    omega

/-- What every step keeps is kept by any number of steps. -/
theorem Steps.keeps {P : Nat → Prop} {I : Timer → Prop} {timer timer' : Timer}
    (steps : Steps P timer timer') (step : ∀ {a b}, Step P a b → I a → I b) (start : I timer) :
    I timer' := by
  induction steps with
  | refl => exact start
  | tail _ last ih => exact step last ih

end Timer

/-! ## What a function does to the timer and to the clock -/

variable {P : Nat → Prop} {s t u : PseudoTcp}

def timer (s : PseudoTcp) : Timer :=
  ⟨s.sndUna, s.sndNxt, s.rtoBase, s.rxRto⟩

/-- The timer makes steps, and the clock is read at most. -/
structure Advances (P : Nat → Prop) (s t : PseudoTcp) : Prop where
  clock : t.notify.clock <:+ s.notify.clock
  steps : Timer.Steps P s.timer t.timer

namespace Advances

theorem refl (s : PseudoTcp) : Advances P s s :=
  ⟨List.suffix_rfl, .refl⟩

theorem trans (first : Advances P s t) (second : Advances P t u) : Advances P s u :=
  ⟨second.clock.trans first.clock, first.steps.trans second.steps⟩

theorem of_same (clock : t.notify.clock = s.notify.clock) (timer : t.timer = s.timer) :
    Advances P s t :=
  ⟨clock ▸ List.suffix_rfl, timer ▸ .refl⟩

theorem of_step (clock : t.notify.clock = s.notify.clock) (step : Timer.Step P s.timer t.timer) :
    Advances P s t :=
  ⟨clock ▸ List.suffix_rfl, .single step⟩

end Advances

/-- The readings to come are as `P` says. -/
def Fed (P : Nat → Prop) (s : PseudoTcp) : Prop :=
  ∀ time ∈ s.notify.clock, P time.toNat

/-- The timer makes steps if the readings are as `P` says. A clock that has run out reads zero. -/
structure Ticks (P : Nat → Prop) (s t : PseudoTcp) : Prop where
  clock : t.notify.clock <:+ s.notify.clock
  steps : s.Fed P → (t.notify.clock = [] → P 0) → Timer.Steps P s.timer t.timer

theorem Advances.ticks (advances : Advances P s t) : Ticks P s t :=
  ⟨advances.clock, fun _ _ => advances.steps⟩

namespace Ticks

theorem refl (s : PseudoTcp) : Ticks P s s :=
  (Advances.refl s).ticks

theorem trans (first : Ticks P s t) (second : Ticks P t u) : Ticks P s u := by
  refine ⟨second.clock.trans first.clock, fun fed left => ?_⟩
  have before : t.notify.clock = [] → P 0 := fun empty =>
    left (List.suffix_nil.mp (empty ▸ second.clock))
  have still : t.Fed P := fun time mem => fed time (first.clock.subset mem)
  exact (first.steps fed before).trans (second.steps still left)

theorem of_same (clock : t.notify.clock = s.notify.clock) (timer : t.timer = s.timer) :
    Ticks P s t :=
  (Advances.of_same clock timer).ticks

/-- A function that starts from a state with the same timer and clock. -/
theorem after (later : Ticks P t u) (clock : t.notify.clock = s.notify.clock)
    (timer : t.timer = s.timer) : Ticks P s u :=
  (of_same clock timer).trans later

end Ticks

theorem now_advances (s : PseudoTcp) : Advances P s s.now.2 := by
  unfold now
  split
  · exact .refl s
  · next time rest clock => exact ⟨clock ▸ List.suffix_cons time rest, .refl⟩

/-- What the clock shows. -/
theorem now_reading (fed : s.Fed P) (left : s.now.2.notify.clock = [] → P 0) : P s.now.1 := by
  unfold now at left ⊢
  split
  · next empty =>
    rw [empty] at left
    exact left empty
  · next time rest clock => exact fed time (by simp [clock])

/-- A function that uses one reading of the clock. -/
theorem Ticks.of_reading {f : Nat → PseudoTcp → PseudoTcp}
    (steps : ∀ {P : Nat → Prop} {now}, P now → Advances P s.now.2 (f now s.now.2)) :
    Ticks P s (f s.now.1 s.now.2) := by
  have read := now_advances (P := P) s
  have clock : (f s.now.1 s.now.2).notify.clock <:+ s.now.2.notify.clock :=
    (steps (P := fun _ => True) trivial).clock
  refine ⟨clock.trans read.clock, fun fed left => ?_⟩
  have before : s.now.2.notify.clock = [] → P 0 := fun empty =>
    left (List.suffix_nil.mp (empty ▸ clock))
  exact read.steps.trans (steps (now_reading fed before)).steps

theorem nextResult_advances (s : PseudoTcp) : Advances P s s.nextResult.2 := by
  unfold nextResult
  split
  · exact .refl s
  · exact .of_same rfl rfl

theorem packet_advances (s : PseudoTcp) (seq flags offset len : Nat) :
    Advances P s (s.packet seq flags offset len).2 := by
  have read := now_advances (P := P) s
  unfold packet
  dsimp only
  generalize s.now = reading at read ⊢
  obtain ⟨now, clocked⟩ := reading
  have stamped : Advances P s { clocked with tsLastAck := clocked.rcvNxt } :=
    read.trans (.of_same rfl rfl)
  have answered := stamped.trans (nextResult_advances _)
  generalize nextResult { clocked with tsLastAck := clocked.rcvNxt } = answer at answered ⊢
  split
  · exact answered.trans (.of_same rfl rfl)
  · exact answered.trans (.of_same rfl rfl)

/-! ## Transmitting -/

theorem lowerMss_advances (s : PseudoTcp) : Advances P s s.lowerMss := by
  rcases s with ⟨_, _, _, ⟨⟩, _, _, _⟩
  exact .of_same (by simp only [lowerMss]) (by simp only [lowerMss, timer])

theorem reduceMss_advances (fuel : Nat) (s : PseudoTcp) (nTransmit : Nat) :
    Advances P s (s.reduceMss fuel nTransmit).2 := by
  induction fuel generalizing s with
  | zero => exact .refl s
  | succ fuel ih =>
    have lower := lowerMss_advances (P := P) s
    simp only [reduceMss]
    split
    · exact .refl s
    · split
      · exact lower
      · exact lower.trans (ih s.lowerMss)

theorem transmitLoop_advances (fuel : Nat) (s : PseudoTcp) (seg : SSegment) (nTransmit : Nat) :
    Advances P s (s.transmitLoop fuel seg nTransmit).2 := by
  induction fuel generalizing s nTransmit with
  | zero => exact .refl s
  | succ fuel ih =>
    have written : Advances P s (s.packetOf seg nTransmit).2 := packet_advances s _ _ _ _
    simp only [transmitLoop]
    generalize s.packetOf seg nTransmit = answer at written ⊢
    obtain ⟨result, t⟩ := answer
    cases result with
    | success => exact written
    | fail => exact written
    | tooLarge =>
      have reduced := reduceMss_advances (P := P) packetMaximums.length t nTransmit
      simp only
      generalize t.reduceMss packetMaximums.length nTransmit = lowered at reduced ⊢
      obtain ⟨_ | _, u⟩ := lowered
      · exact written.trans reduced
      · exact (written.trans reduced).trans (ih u u.mss)

theorem mark_una (o : Outgoing) (index nTransmit : Nat) :
    (o.mark index nTransmit).sndUna = o.sndUna := by
  unfold Outgoing.mark
  split
  · simp only
    split <;> split <;> rfl
  · rfl

/-- The timer is set to the time of a transmission if it is off. -/
theorem transmit_advances (s : PseudoTcp) (index : Nat) {now : Nat} (reading : P now) :
    Advances P s (s.transmit index now).2 := by
  unfold transmit
  split
  · exact .refl s
  · next seg found =>
    by_cases often : (if s.state = .established then 15 else 30) ≤ seg.xmit
    · simp only [often, if_true]
      exact .refl s
    · simp only [often, if_false]
      have looped := transmitLoop_advances (P := P) packetMaximums.length s seg (min seg.len s.mss)
      generalize s.transmitLoop packetMaximums.length seg (min seg.len s.mss) = result
        at looped ⊢
      obtain ⟨_ | n, t⟩ := result
      · exact looped
      · have shape : (t.markTransmitted index n now).timer =
            { t.timer with
              next := (t.toOutgoing.mark index n).sndNxt
              base := if t.timer.base = 0 then now else t.timer.base } := by
          simp only [timer, markTransmitted, mark_una]
          rfl
        exact looped.trans (.of_step rfl (shape ▸ .sent fun _ => reading))

theorem sendAck_advances (s : PseudoTcp) (sflags : SendFlags) :
    Advances P s (s.sendAck sflags) := by
  cases sflags with
  | none => exact .refl s
  | immediateAck => exact packet_advances s _ _ _ _
  | delayedAck =>
    simp only [sendAck]
    split
    · exact packet_advances s _ _ _ _
    · exact (now_advances s).trans (.of_same rfl rfl)

theorem carve_timer (o : Outgoing) (index n : Nat) :
    (o.carve index n).sndUna = o.sndUna ∧ (o.carve index n).sndNxt = o.sndNxt := by
  unfold Outgoing.carve
  split
  · split <;> exact ⟨rfl, rfl⟩
  · exact ⟨rfl, rfl⟩

theorem attemptSendLoop_advances (fuel : Nat) (s : PseudoTcp) (sflags : SendFlags) {now : Nat}
    (reading : P now) : Advances P s (s.attemptSendLoop fuel sflags now) := by
  induction fuel generalizing s sflags with
  | zero => exact .refl s
  | succ fuel ih =>
    simp only [attemptSendLoop]
    split
    · exact sendAck_advances s sflags
    · split
      · exact .refl s
      · split
        · exact .refl s
        · next index first =>
          have carved : Advances P s
              { s with toOutgoing := s.toOutgoing.carve index s.sendable } :=
            .of_same rfl (by simp only [timer, carve_timer])
          have sent := carved.trans (transmit_advances _ index reading)
          generalize transmit { s with toOutgoing := s.toOutgoing.carve index s.sendable } index
            now = result at sent ⊢
          obtain ⟨_ | _, t⟩ := result
          · exact sent
          · exact sent.trans (ih t .none)

theorem attemptSend_ticks (s : PseudoTcp) (sflags : SendFlags) :
    Ticks P s (s.attemptSend sflags) := by
  refine Ticks.of_reading (f := fun now s =>
    let s := if (s.rxRto : Int) < timeDiff now s.lastSend then { s with cwnd := s.mss } else s
    s.attemptSendLoop (s.sbuf.getBuffered + s.slist.length + 1) sflags now) fun reading => ?_
  dsimp only
  split
  · refine Advances.trans (t := { s.now.2 with cwnd := s.now.2.mss }) (.of_same rfl rfl) ?_
    exact attemptSendLoop_advances _ _ _ reading
  · exact attemptSendLoop_advances _ _ _ reading

/-! ## The application -/

theorem recv_ticks (s : PseudoTcp) (len : Nat) : Ticks P s (s.recv len).2 := by
  simp only [recv]
  split
  · exact .of_same rfl rfl
  · split
    · exact .of_same rfl rfl
    · next result data rbuf notBlocked reads =>
      have taken : Ticks P s ({ s with rbuf := rbuf }.record (.received data)) := .of_same rfl rfl
      generalize { s with rbuf := rbuf }.record (.received data) = t at taken ⊢
      have opened : Ticks P s { t with toIncoming := t.toIncoming.openWindow } :=
        taken.trans (.of_same rfl rfl)
      generalize { t with toIncoming := t.toIncoming.openWindow } = wide at opened ⊢
      dsimp only
      split
      · split
        · exact opened.trans (attemptSend_ticks _ _)
        · exact opened
      · exact taken

theorem append_timer (o : Outgoing) (len : Nat) (bCtrl : Bool) :
    (o.append len bCtrl).sndUna = o.sndUna ∧ (o.append len bCtrl).sndNxt = o.sndNxt := by
  unfold Outgoing.append
  dsimp only
  split
  · split <;> exact ⟨rfl, rfl⟩
  · exact ⟨rfl, rfl⟩

theorem queue_ticks (s : PseudoTcp) (data : List UInt8) (len : Nat) (bCtrl : Bool) :
    Ticks P s (s.queue data len bCtrl).2 :=
  .of_same rfl (by simp only [timer, queue, record, append_timer])

theorem send_ticks (s : PseudoTcp) (data : List UInt8) : Ticks P s (s.send data).2 := by
  simp only [send]
  split
  · exact .of_same rfl rfl
  · split
    · exact .of_same rfl rfl
    · have queued := queue_ticks (P := P) s data (toWord data.length) false
      generalize s.queue data (toWord data.length) false = result at queued ⊢
      obtain ⟨written, t⟩ := result
      dsimp only
      exact queued.trans (attemptSend_ticks t .none)

theorem appCall_ticks (s : PseudoTcp) (call : AppCall) : Ticks P s (s.appCall call) := by
  cases call with
  | send data => exact send_ticks s data
  | recv len => exact recv_ticks s len
  | close force => exact .of_same rfl rfl
  | setOption opt value => cases opt <;> exact .of_same rfl rfl

theorem callback_ticks (s : PseudoTcp) (notification : Notification) (calls : List AppCall) :
    Ticks P s (s.callback notification calls) := by
  have notified : Ticks P s (s.notified notification) := .of_same rfl rfl
  refine notified.trans ?_
  unfold callback
  generalize s.notified notification = t
  induction calls generalizing t with
  | nil => exact .refl t
  | cons first rest ih => exact (appCall_ticks t first).trans (ih _)

/-! ## Processing a segment -/

theorem adjustMTU_advances (s : PseudoTcp) : Advances P s s.adjustMTU := by
  rcases s with ⟨_, _, _, ⟨⟩, _, _, _⟩
  exact .of_same (by simp only [adjustMTU]) (by simp only [adjustMTU, timer])

/-- The end of the handshake. -/
theorem established_ticks (s : PseudoTcp) :
    Ticks P s ({ s with state := .established }).adjustMTU.onTcpOpen := by
  have adjusted : Ticks P s ({ s with state := .established }).adjustMTU :=
    (adjustMTU_advances _).ticks.after rfl rfl
  exact adjusted.trans (callback_ticks _ _ _)

theorem parseOptions_ticks (s : PseudoTcp) (data : Memory UInt8) (len : Nat) :
    Ticks P s (s.parseOptions data len) := by
  obtain ⟨scale, result⟩ | ⟨-, result⟩ := parseOptions_spec s data len
  · rw [result]
    exact .of_same rfl rfl
  · rw [result]
    exact .of_same rfl rfl

theorem queueConnectMessage_ticks (s : PseudoTcp) (state : TcpState) :
    Ticks P s { s with state := state }.queueConnectMessage :=
  (queue_ticks _ _ _ _).after rfl rfl

theorem processControl_ticks (s : PseudoTcp) (seg : Segment) :
    Ticks P s (s.processControl seg).2 := by
  have options := parseOptions_ticks (P := P) s (fun index => seg.data (index + 1)) (seg.len - 1)
  simp only [processControl]
  split
  · exact .refl s
  · split
    · exact .refl s
    · split
      · generalize s.parseOptions (fun index => seg.data (index + 1)) (seg.len - 1) = t
          at options ⊢
        split
        · exact options.trans (queueConnectMessage_ticks t _)
        · split
          · exact options.trans (established_ticks t)
          · exact options
      · exact .refl s

theorem closedown_advances (s : PseudoTcp) (err : Errno) : Advances P s (s.closedown err) :=
  .of_same rfl rfl

/-- The first reading is the time of arrival. -/
theorem processHeader_ticks (s : PseudoTcp) (seg : Segment) :
    Ticks P s (s.processHeader seg).2 ∧
      ∀ bConnect now, (s.processHeader seg).1 = some (bConnect, now) → s.Fed P →
        ((s.processHeader seg).2.notify.clock = [] → P 0) → P now := by
  have read := now_advances (P := P) s
  have shown := now_reading (P := P) (s := s)
  unfold processHeader
  dsimp only
  generalize s.now = reading at read shown ⊢
  obtain ⟨time, clocked⟩ := reading
  have noted : Ticks P s (clocked.noteReceipt time) := read.ticks.trans (.of_same rfl rfl)
  split
  · exact ⟨.refl s, fun _ _ is => nomatch is⟩
  · split
    · exact ⟨noted, fun _ _ is => nomatch is⟩
    · split
      · exact ⟨noted.trans (closedown_advances _ _).ticks, fun _ _ is => nomatch is⟩
      · have control := processControl_ticks (P := P) (clocked.noteReceipt time) seg
        generalize processControl (clocked.noteReceipt time) seg = result at control ⊢
        obtain ⟨_ | bConnect, t⟩ := result
        · exact ⟨noted.trans control, fun _ _ is => nomatch is⟩
        · have stamped : Ticks P t (t.updateTimestamp seg) := by
            unfold updateTimestamp
            split <;> exact .of_same rfl rfl
          refine ⟨(noted.trans control).trans stamped, fun _ now is fed left => ?_⟩
          obtain ⟨-, rfl⟩ := Prod.mk.inj (Option.some.inj is)
          refine shown fed fun empty => left ?_
          exact List.suffix_nil.mp (empty ▸ (control.trans stamped).clock)

theorem bound_range (middle : Nat) :
    minRto ≤ bound minRto middle maxRto ∧ bound minRto middle maxRto ≤ maxRto := by
  have bounds : minRto ≤ maxRto := by decide
  unfold bound
  omega

theorem updateRtt_advances (s : PseudoTcp) (seg : Segment) (now : Nat) :
    Advances P s (s.updateRtt seg now) := by
  cases s
  simp only [updateRtt]
  split
  · refine .of_step ?_ ?_
    · split <;> rfl
    · split <;> exact .measured (bound_range _).1 (bound_range _).2
  · exact .refl _

theorem acknowledge_advances (s : PseudoTcp) (seg : Segment) {now : Nat} (reading : P now) :
    Advances P s (s.acknowledge seg now) :=
  .of_step rfl (.acked fun _ => reading)

theorem processNewAck_advances (s : PseudoTcp) (seg : Segment) {now : Nat} (reading : P now) :
    Advances P s (s.processNewAck seg now).2 := by
  have acked := (updateRtt_advances (P := P) s seg now).trans
    (acknowledge_advances _ seg reading)
  simp only [processNewAck]
  generalize (s.updateRtt seg now).acknowledge seg now = t at acked ⊢
  split
  · split
    · exact acked.trans (.of_same rfl rfl)
    · have sent := transmit_advances t 0 reading
      generalize t.transmit 0 now = result at sent ⊢
      obtain ⟨_ | _, u⟩ := result
      · exact (acked.trans sent).trans (closedown_advances u _)
      · exact (acked.trans sent).trans (.of_same rfl rfl)
  · exact acked.trans (.of_same rfl rfl)

theorem processDupAck_advances (s : PseudoTcp) (seg : Segment) {now : Nat} (reading : P now) :
    Advances P s (s.processDupAck seg now).2 := by
  have windowed : Advances P s { s with sndWnd := s.window seg } := .of_same rfl rfl
  unfold processDupAck
  generalize ({ s with sndWnd := s.window seg } : PseudoTcp) = t at windowed ⊢
  dsimp only
  split
  · exact windowed
  · split
    · have counted : Advances P s t.countDupAck := windowed.trans (.of_same rfl rfl)
      split
      · have sent := transmit_advances t.countDupAck 0 reading
        generalize t.countDupAck.transmit 0 now = result at sent ⊢
        obtain ⟨_ | _, u⟩ := result
        · exact (counted.trans sent).trans (closedown_advances u _)
        · exact (counted.trans sent).trans (.of_same rfl rfl)
      · split
        · exact counted.trans (.of_same rfl rfl)
        · exact counted
    · exact windowed.trans (.of_same rfl rfl)

theorem processAck_advances (s : PseudoTcp) (seg : Segment) {now : Nat} (reading : P now) :
    Advances P s (s.processAck seg now).2 := by
  unfold processAck
  split
  · exact processNewAck_advances s seg reading
  · split
    · exact processDupAck_advances s seg reading
    · exact .refl s

theorem afterAck_ticks (s : PseudoTcp) (bConnect : Bool) (seg : Segment) :
    Ticks P s ((s.finishHandshake bConnect).notifyWriteable.processData seg) := by
  have handshake : Ticks P s (s.finishHandshake bConnect) := by
    simp only [finishHandshake]
    split
    · exact established_ticks s
    · exact .refl s
  have writeable : ∀ t : PseudoTcp, Ticks P t t.notifyWriteable := fun t => by
    simp only [notifyWriteable]
    split
    · exact (callback_ticks _ _ _).after rfl rfl
    · exact .refl t
  have data : ∀ t : PseudoTcp, Ticks P t (t.processData seg) := fun t => by
    simp only [processData]
    generalize t.toIncoming.receive (t.adjust seg) (t.ignoresData seg) = received
    have sent : Ticks P t _ :=
      (attemptSend_ticks { t with toIncoming := received.incoming }
        (if received.recovered = true then .immediateAck else t.ackFlags seg)).after rfl rfl
    generalize attemptSend { t with toIncoming := received.incoming }
      (if received.recovered = true then .immediateAck else t.ackFlags seg) = u at sent ⊢
    split
    · have told : Ticks P u ({ u with bReadEnable := false }).onTcpReadable :=
        (callback_ticks _ _ _).after rfl rfl
      exact sent.trans told
    · exact sent
  exact (handshake.trans (writeable _)).trans (data _)

theorem process_ticks (s : PseudoTcp) (seg : Segment) : Ticks P s (s.process seg).2 := by
  unfold process
  have header := processHeader_ticks (P := P) s seg
  generalize s.processHeader seg = result at header ⊢
  obtain ⟨_ | ⟨bConnect, now⟩, t⟩ := result
  · exact header.1
  obtain ⟨before, arrival⟩ := header
  have arrival := arrival bConnect now rfl
  -- What comes after the header uses the time of arrival.
  have rest : ∀ {u}, Ticks P (t.processAck seg now).2 u → Ticks P s u := by
    intro u later
    have clock := (@processAck_advances (fun _ => True) t seg now trivial).clock
    refine ⟨(later.clock.trans clock).trans before.clock, fun fed left => ?_⟩
    have empty : t.notify.clock = [] → u.notify.clock = [] := fun empty =>
      List.suffix_nil.mp (empty ▸ later.clock.trans clock)
    have acked := processAck_advances t seg (arrival fed fun none => left (empty none))
    exact (before.trans (acked.ticks.trans later)).steps fed left
  simp only
  generalize t.processAck seg now = result at rest ⊢
  obtain ⟨_ | _, u⟩ := result
  · exact rest (.refl u)
  · exact rest (afterAck_ticks u bConnect seg)

/-! ## The public calls -/

/-- `NotifyClock` finds that a retransmission is due. -/
def RetransmitDue (s : PseudoTcp) (now : Nat) : Prop :=
  s.rtoBase ≠ 0 ∧ timeDiff (add32 s.rtoBase s.rxRto) now ≤ 0

theorem backOff_advances (s : PseudoTcp) {now : Nat} (reading : P now) :
    Advances P s (s.backOff now) := by
  rcases s with ⟨_, _, _, ⟨⟩, _, _, _⟩
  refine .of_step rfl (.backedOff reading ?_)
  split
  · exact .inr rfl
  · exact .inl rfl

theorem retransmitClock_advances (s : PseudoTcp) {now : Nat}
    (reading : s.RetransmitDue now → P now) : Advances P s (s.retransmitClock now).2 := by
  unfold retransmitClock
  split
  · next due =>
    have reading := reading ⟨due.1, due.2.1⟩
    have sent := transmit_advances s 0 reading
    generalize s.transmit 0 now = result at sent ⊢
    obtain ⟨_ | _, t⟩ := result
    · exact sent.trans (closedown_advances t _)
    · exact sent.trans (backOff_advances t reading)
  · exact .refl s

theorem probeClock_advances (s : PseudoTcp) (now : Nat) : Advances P s (s.probeClock now).2 := by
  unfold probeClock
  split
  · split
    · exact closedown_advances s _
    · have sent := packet_advances (P := P) s (sub32 s.sndNxt 1) 0 0 0
      generalize s.packet (sub32 s.sndNxt 1) 0 0 0 = result at sent ⊢
      exact sent.trans (.of_step rfl .probed)
  · exact .refl s

theorem ackClock_advances (s : PseudoTcp) (now : Nat) : Advances P s (s.ackClock now) := by
  unfold ackClock
  split
  · exact packet_advances s _ _ _ _
  · exact .refl s

theorem notifyClock_advances (s : PseudoTcp) {now : UInt32}
    (reading : s.RetransmitDue now.toNat → P now.toNat) : Advances P s (s.notifyClock now) := by
  unfold notifyClock
  split
  · exact .refl s
  · have first := retransmitClock_advances s reading
    generalize s.retransmitClock now.toNat = result at first ⊢
    obtain ⟨_ | _, t⟩ := result
    · exact first
    · have second := probeClock_advances (P := P) t now.toNat
      simp only
      generalize t.probeClock now.toNat = result at second ⊢
      obtain ⟨_ | _, u⟩ := result
      · exact first.trans second
      · exact (first.trans second).trans (ackClock_advances u _)

theorem connect_ticks (s : PseudoTcp) : Ticks P s s.connect := by
  unfold connect
  split
  · exact .of_same rfl rfl
  · exact (queueConnectMessage_ticks s .synSent).trans (attemptSend_ticks _ _)

theorem run_ticks (s : PseudoTcp) (call : ApiCall)
    (reading : ∀ now, call = .notifyClock now → s.RetransmitDue now.toNat → P now.toNat) :
    Ticks P s (s.run call) := by
  cases call with
  | app call => exact appCall_ticks s call
  | connect => exact connect_ticks s
  | notifyMTU mtu =>
    simp only [run, notifyMTU]
    split
    · exact (adjustMTU_advances _).ticks.after rfl rfl
    · exact .of_same rfl rfl
  | notifyClock now => exact (notifyClock_advances s (reading now rfl)).ticks
  | notifyPacket buffer len =>
    simp only [run, notifyPacket, parse]
    split
    · exact .refl s
    · split
      · exact .refl s
      · exact process_ticks s _
  | setSndBuf size => exact .of_same rfl rfl
  | setRcvBuf size => exact .of_same rfl rfl
  | disableWindowScale => exact .of_same rfl rfl

/-- The timer keeps within its bounds in every run. -/
theorem timer_sound {Ok : PseudoTcp → Environment → ApiCall → Prop} (reached : Reachable Ok s) :
    s.timer.Sound := by
  obtain ⟨conv, now, environment, rcvMemory, sndMemory, run⟩ := reached
  induction run with
  | start =>
    have bounds : 0 < 2 ^ 32 ∧ minRto ≤ defRto ∧ defRto ≤ maxRto := by decide
    exact ⟨bounds.1, bounds.2.1, bounds.2.2⟩
  | @step t _ environment call _ _ ih =>
    have ticks : Ticks (· < 2 ^ 32) (t.meet environment) (t.step environment call) :=
      run_ticks _ call fun now _ _ => now.toNat_lt
    have steps := ticks.steps (fun time _ => time.toNat_lt) fun _ => Nat.two_pow_pos 32
    exact steps.keeps (fun step => step.sound) ih

end Libjingle.PseudoTcp

import Libjingle.PseudoTcp.Retransmission

/-!
# The next call of the clock lies ahead

`NotifyClock` looks at three timers, one after the other, and each branch may move the time stamps
and the timeout that the others use. After the call every deadline of a timer that still runs is
later than the time of the call, so that who waits as `GetNextClock` says does not turn in a loop.
-/

namespace Libjingle.PseudoTcp

open Libjingle.Std

variable {s t : PseudoTcp} {now : Nat}

/-! ## Time on the circular clock -/

theorem timeDiff_add32 {time n : Nat} (word : time < 2 ^ 32) (near : n < 2 ^ 31) :
    timeDiff (add32 time n) time = n := by
  rw [timeDiff, sub32_add32 word (by omega), toInt32, if_pos near]

/-- The timer's deadline is ahead, and its base is not. -/
def Timer.Ahead (timer : Timer) (now : Nat) : Prop :=
  timer.base ≠ 0 → 0 ≤ timeDiff now timer.base ∧ 0 < timeDiff (add32 timer.base timer.rto) now

/-- A timer that starts now has its deadline ahead. -/
theorem Timer.ahead_of_base {timer : Timer} (sound : timer.Sound) (base : timer.base = now) :
    timer.Ahead now := by
  have word := sound.word
  have low := sound.low
  have high := sound.high
  subst base
  unfold minRto at low
  unfold maxRto at high
  intro _
  rw [timeDiff_add32 word (by omega)]
  refine ⟨?_, by omega⟩
  simp only [timeDiff, sub32, toInt32]
  omega

/-- A longer timeout puts the deadline further ahead. -/
theorem Timer.Ahead.longer {timer : Timer} {rto : Nat} (ahead : timer.Ahead now)
    (word : now < 2 ^ 32) (sound : timer.Sound) (longer : timer.rto ≤ rto) (high : rto ≤ maxRto) :
    Timer.Ahead { timer with rto := rto } now := by
  have base := sound.word
  unfold maxRto at high
  intro on
  obtain ⟨behind, front⟩ := ahead on
  refine ⟨behind, ?_⟩
  simp only [timeDiff, sub32, add32, toInt32] at behind front ⊢
  omega

/-! ## What the three checks leave -/

/-- The timer, the peer's window and the time of the last data are as before. -/
structure Untouched (s t : PseudoTcp) : Prop where
  timer : t.timer = s.timer
  sndWnd : t.sndWnd = s.sndWnd
  lastSend : t.lastSend = s.lastSend

theorem now_untouched (s : PseudoTcp) : Untouched s s.now.2 := by
  unfold PseudoTcp.now
  split <;> exact ⟨rfl, rfl, rfl⟩

theorem nextResult_untouched (s : PseudoTcp) : Untouched s s.nextResult.2 := by
  unfold nextResult
  split <;> exact ⟨rfl, rfl, rfl⟩

/-- A packet without data takes the delayed acknowledgement with it. -/
theorem packet_bare (s : PseudoTcp) (seq : Nat) :
    Untouched s (s.packet seq 0 0 0).2 ∧ (s.packet seq 0 0 0).2.tAck = 0 := by
  have read := now_untouched s
  unfold packet
  dsimp only
  generalize s.now = reading at read ⊢
  obtain ⟨time, clocked⟩ := reading
  have answered := nextResult_untouched { clocked with tsLastAck := clocked.rcvNxt }
  generalize nextResult { clocked with tsLastAck := clocked.rcvNxt } = answer at answered ⊢
  rw [if_neg fun refused => refused.2 rfl]
  refine ⟨⟨?_, ?_, ?_⟩, rfl⟩
  · exact answered.timer.trans read.timer
  · exact answered.sndWnd.trans read.sndWnd
  · exact answered.lastSend.trans read.lastSend

/-- After the check of the retransmission its deadline is ahead. -/
theorem retransmitClock_ahead {now : UInt32} (sound : s.timer.Sound) (begun : s.Begun)
    (later : s.rtoBase ≠ 0 → 0 ≤ timeDiff now.toNat s.rtoBase)
    (answer : s.retransmitClock now.toNat = (true, t)) :
    t.timer.Sound ∧ t.timer.Ahead now.toNat := by
  have advances := @retransmitClock_advances (· < 2 ^ 32) s now.toNat fun _ => now.toNat_lt
  rw [answer] at advances
  have still : t.timer.Sound := advances.steps.keeps (fun step => step.sound) sound
  refine ⟨still, ?_⟩
  unfold retransmitClock at answer
  split at answer
  · split at answer
    · cases answer
    · obtain ⟨-, rfl⟩ := Prod.mk.inj answer
      exact Timer.ahead_of_base still rfl
  · next waits =>
    obtain ⟨-, rfl⟩ := Prod.mk.inj answer
    intro on
    refine ⟨later on, ?_⟩
    by_contra due
    obtain ⟨seg, rest, front, -⟩ := begun on
    exact waits ⟨on, Int.not_lt.mp due, by rw [front]; exact List.cons_ne_nil _ _⟩

/-- After the check of a closed window its probe is ahead too. -/
theorem probeClock_ahead {now : UInt32} (sound : s.timer.Sound) (ahead : s.timer.Ahead now.toNat)
    (answer : s.probeClock now.toNat = (true, t)) :
    t.timer.Ahead now.toNat ∧
      (t.sndWnd = 0 → 0 < timeDiff (add32 t.lastSend t.rxRto) now.toNat) := by
  have word := now.toNat_lt
  have low := sound.low
  have high := sound.high
  unfold probeClock at answer
  split at answer
  · split at answer
    · cases answer
    · obtain ⟨-, rfl⟩ := Prod.mk.inj answer
      obtain ⟨untouched, -⟩ := packet_bare s (sub32 s.sndNxt 1)
      have doubled := sound.doubled
      have same := untouched.timer
      have rto : (s.packet (sub32 s.sndNxt 1) 0 0 0).2.rxRto = s.timer.rto :=
        congrArg Timer.rto same
      have grown : min maxRto (mul32 (s.packet (sub32 s.sndNxt 1) 0 0 0).2.rxRto 2) =
          min maxRto (s.timer.rto * 2) := by rw [rto, doubled]
      have bounds : minRto = 250 ∧ maxRto = 60000 := ⟨rfl, rfl⟩
      refine ⟨?_, fun _ => ?_⟩
      · have longer := @Timer.Ahead.longer _ _ (min maxRto (s.timer.rto * 2)) ahead word sound
          (by omega) (Nat.min_le_left _ _)
        rw [← grown, ← same] at longer
        exact longer
      · change 0 < timeDiff (add32 now.toNat (min maxRto (mul32 _ 2))) now.toNat
        rw [grown, timeDiff_add32 word (by omega)]
        omega
  · next waits =>
    obtain ⟨-, rfl⟩ := Prod.mk.inj answer
    refine ⟨ahead, fun shut => ?_⟩
    by_contra due
    exact waits ⟨shut, Int.not_lt.mp due⟩

/-- After the check of the delayed acknowledgement all deadlines are ahead. -/
theorem ackClock_ahead {now deadline : Nat} (ahead : s.timer.Ahead now)
    (probe : s.sndWnd = 0 → 0 < timeDiff (add32 s.lastSend s.rxRto) now)
    (pending : (s.ackClock now).Pending deadline) : 0 < timeDiff deadline now := by
  have kept : Untouched s (s.ackClock now) ∧
      ((s.ackClock now).tAck ≠ 0 →
        0 < timeDiff (add32 (s.ackClock now).tAck (s.ackClock now).ackDelay) now) := by
    unfold ackClock
    split
    · obtain ⟨untouched, none⟩ := packet_bare s s.sndNxt
      exact ⟨untouched, fun delayed => absurd none delayed⟩
    · next waits =>
      refine ⟨⟨rfl, rfl, rfl⟩, fun delayed => ?_⟩
      by_contra due
      exact waits ⟨delayed, Int.not_lt.mp due⟩
  obtain ⟨untouched, ack⟩ := kept
  generalize s.ackClock now = t at pending untouched ack
  have base : t.rtoBase = s.rtoBase := congrArg Timer.base untouched.timer
  have rto : t.rxRto = s.rxRto := congrArg Timer.rto untouched.timer
  cases pending with
  | ack delayed => exact ack delayed
  | retransmission on =>
    rw [base] at on ⊢
    rw [rto]
    exact (ahead on).2
  | probe shut =>
    rw [untouched.sndWnd] at shut
    rw [untouched.lastSend, rto]
    exact probe shut

/-! ## The call -/

theorem closed_of_retransmitClock {now : Nat} (answer : s.retransmitClock now = (false, t)) :
    t.state = .closed := by
  unfold retransmitClock at answer
  split at answer
  · split at answer
    · obtain ⟨-, rfl⟩ := Prod.mk.inj answer
      rfl
    · cases answer
  · cases answer

theorem closed_of_probeClock {now : Nat} (answer : s.probeClock now = (false, t)) :
    t.state = .closed := by
  unfold probeClock at answer
  split at answer
  · split at answer
    · obtain ⟨-, rfl⟩ := Prod.mk.inj answer
      rfl
    · cases answer
  · cases answer

/-- In any run, after `NotifyClock` at a time that is not before the one from which the timeout is
counted, `GetNextClock` at that time reports nothing or a time ahead, whatever the clock reads
during the call. -/
theorem getNextClock_ahead {Ok : PseudoTcp → Environment → ApiCall → Prop}
    (reached : Reachable Ok s) (environment : Environment) (now : UInt32)
    (later : s.rtoBase ≠ 0 → 0 ≤ timeDiff now.toNat s.rtoBase)
    (isOpen : (s.step environment (.notifyClock now)).state ≠ .closed) :
    (s.step environment (.notifyClock now)).getNextClock now.toNat = none ∨
      ∃ timeout, (s.step environment (.notifyClock now)).getNextClock now.toNat = some timeout ∧
        0 < timeout ∧ timeout ≤ 4000 := by
  have sound : (s.meet environment).timer.Sound :=
    show s.timer.Sound from timer_sound reached
  have begun : (s.meet environment).Begun :=
    show s.Begun from (begun_of_reachable reached).2
  have later : (s.meet environment).rtoBase ≠ 0 →
      0 ≤ timeDiff now.toNat (s.meet environment).rtoBase := later
  have deadlines : ∀ deadline, (s.step environment (.notifyClock now)).Pending deadline →
      0 < timeDiff deadline now.toNat := by
    change ((s.meet environment).notifyClock now).state ≠ .closed at isOpen
    change ∀ deadline, ((s.meet environment).notifyClock now).Pending deadline → _
    generalize s.meet environment = u at sound begun later isOpen ⊢
    unfold notifyClock at isOpen ⊢
    split at isOpen
    · next closed => exact absurd closed isOpen
    · next wasOpen =>
      rw [if_neg wasOpen]
      rcases first : u.retransmitClock now.toNat with ⟨_ | _, v⟩
      · rw [first] at isOpen
        exact absurd (closed_of_retransmitClock first) isOpen
      obtain ⟨still, ahead⟩ := retransmitClock_ahead sound begun later first
      rw [first] at isOpen
      rcases second : v.probeClock now.toNat with ⟨_ | _, w⟩
      · simp only [second] at isOpen
        exact absurd (closed_of_probeClock second) isOpen
      obtain ⟨ahead, probe⟩ := probeClock_ahead still ahead second
      simp only [second]
      exact fun deadline pending => ackClock_ahead ahead probe pending
  by_cases discarded : (s.step environment (.notifyClock now)).Discarded
  · exact .inl (getNextClock_discarded discarded _)
  · obtain ⟨timeout, answer, high, -, set⟩ := getNextClock_spec discarded isOpen now.toNat
    refine .inr ⟨timeout, answer, ?_, high⟩
    rcases set with rfl | ⟨deadline, pending, rfl⟩
    · decide
    · exact deadlines deadline pending

/-- A connect message sent at time seven. -/
private def waiting : PseudoTcp :=
  fresh.step { Environment.silent with clock := [7, 7] } .connect

/-- The connect message is retransmitted. -/
theorem getNextClock_ahead_retransmission :
    (waiting.step .silent (.notifyClock 5000)).getNextClock 5000 = none ∨
      ∃ timeout, (waiting.step .silent (.notifyClock 5000)).getNextClock 5000 = some timeout ∧
        0 < timeout ∧ timeout ≤ 4000 := by
  have reached : Reachable (fun _ _ _ => True) waiting :=
    ⟨_, _, _, _, _, Runs.start.step _ .connect trivial trivial⟩
  exact getNextClock_ahead reached .silent 5000 (fun _ => by decide +kernel) (by decide +kernel)

end Libjingle.PseudoTcp

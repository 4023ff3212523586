import Libjingle.PseudoTcp.SendTiling
import Libjingle.PseudoTcp.Timer

/-!
# Bytes in flight have a retransmission timer

`m_rto_base` is zero when the timer is off. A time that is zero therefore turns the timer off where
the code means to turn it on, and then nothing retransmits the bytes in flight.
-/

namespace Libjingle.PseudoTcp

open Libjingle.Std

variable {s t : PseudoTcp}

/-! ## The timer belongs to a transmitted segment -/

/-- A timer that runs belongs to a segment at the front that has been transmitted. -/
def Begun (s : PseudoTcp) : Prop :=
  s.rtoBase ≠ 0 → ∃ seg rest, s.slist = seg :: rest ∧ 0 < seg.xmit

theorem Begun.of_same (begun : s.Begun) (base : t.rtoBase = s.rtoBase)
    (slist : t.slist = s.slist) : t.Begun := by
  unfold Begun
  rw [base, slist]
  exact begun

/-- Something in flight is at the front. -/
theorem Queue.front {o : Outgoing} {sent unsent : List SSegment} (queue : Queue o sent unsent)
    (inFlight : o.sndNxt ≠ o.sndUna) : ∃ seg rest, o.slist = seg :: rest ∧ 0 < seg.xmit := by
  cases sent with
  | nil =>
    refine absurd ?_ inFlight
    rw [queue.next, total_nil, add32_of_lt (by have := queue.una; omega), Nat.add_zero]
  | cons seg rest =>
    exact ⟨seg, rest ++ unsent, by simp [queue.list], queue.transmitted seg (by simp)⟩

theorem mark_front (o : Outgoing) {index : Nat} {before after : List SSegment} {seg : SSegment}
    (list : o.slist = before ++ seg :: after) (length : before.length = index)
    (earlier : ∀ g ∈ before, 0 < g.xmit) (few : seg.xmit < 30) (n : Nat) :
    ∃ seg rest, (o.mark index n).slist = seg :: rest ∧ 0 < seg.xmit := by
  subst length
  rw [Outgoing.mark_eq list]
  cases before with
  | nil =>
    refine ⟨_, _, rfl, ?_⟩
    change 0 < add8 seg.xmit 1
    rw [add8_of_lt (by omega)]
    omega
  | cons first rest => exact ⟨first, _, rfl, earlier first (by simp)⟩

theorem append_front (o : Outgoing) (len : Nat) (bCtrl : Bool) {seg : SSegment}
    {rest : List SSegment} (front : o.slist = seg :: rest) (sent : 0 < seg.xmit) :
    ∃ rest, (o.append len bCtrl).slist = seg :: rest := by
  rcases o.append_eq len bCtrl with ⟨before, last, list, -, waits, shape⟩ | ⟨-, shape⟩
  · rw [shape]
    cases before with
    | nil =>
      obtain rfl : seg = last := by
        have parts := front.symm.trans list
        exact (List.cons.inj parts).1
      omega
    | cons first before =>
      obtain rfl : seg = first := by
        have parts := front.symm.trans list
        exact (List.cons.inj parts).1
      exact ⟨_, rfl⟩
  · rw [shape, front]
    exact ⟨_, rfl⟩

theorem CongestionMove.base {policy : Admission} (change : CongestionMove policy s t) :
    t.rtoBase = s.rtoBase ∨ s.rtoBase ≠ 0 := by
  rcases s with ⟨_, _, _, ⟨⟩, _, _, _⟩
  cases change with
  | backedOff now armed => exact .inr armed
  | lowered _ => exact .inl (by simp only [lowerMss])
  | adjusted _ => exact .inl (by simp only [adjustMTU])
  | _ => exact .inl rfl

theorem Move.begun {policy : Admission} (move : Move policy s t) (invariant : SendInvariant s)
    (begun : s.Begun) : t.Begun := by
  cases move with
  | keep same =>
    exact begun.of_same (congrArg Congestion.rtoBase same.congestion)
      (congrArg Outgoing.slist same.outgoing)
  | congested change =>
    have slist : t.slist = s.slist := congrArg Outgoing.slist change.frame.outgoing
    rcases change.base with base | on
    · exact begun.of_same base slist
    · intro _
      rw [slist]
      exact begun on
  | acked spec =>
    exact begun.of_same (congrArg Congestion.rtoBase spec.congestion)
      (congrArg Outgoing.slist spec.outgoing)
  | refused _ spec _ =>
    exact begun.of_same (congrArg Congestion.rtoBase spec.congestion)
      (congrArg Outgoing.slist spec.outgoing)
  | @transmitted index now seg call u attempt spec _ =>
    intro _
    obtain ⟨before, after, list, length, earlier⟩ := attempt.split
    simp only [markTransmitted, spec.outgoing]
    exact mark_front _ list length earlier attempt.few _
  | @carved index n first _ =>
    intro on
    obtain ⟨seg, rest, front, sent⟩ := begun on
    obtain ⟨before, waiting, after, list, rfl, unsent, -⟩ := findIdx?_unsent.mp first
    cases before with
    | nil =>
      obtain rfl : seg = waiting := (List.cons.inj (front.symm.trans list)).1
      omega
    | cons g before =>
      obtain rfl : seg = g := (List.cons.inj (front.symm.trans list)).1
      rw [Outgoing.carve_eq list]
      exact ⟨seg, _, rfl, sent⟩
  | queued data _ =>
    intro on
    obtain ⟨seg, rest, front, sent⟩ := begun on
    obtain ⟨sbuf, shape, -⟩ := queue_spec invariant.queue.choose_spec.choose_spec.sound data
      (toWord data.length) false
    rw [shape]
    obtain ⟨rest, front⟩ := append_front s.toOutgoing _ false front sent
    exact ⟨seg, rest, front, sent⟩
  | @began state listening _ =>
    intro on
    obtain ⟨seg, rest, front, -⟩ := begun on
    rw [invariant.listening listening] at front
    cases front
  | @acknowledged seg now valuable _ =>
    have same := updateRtt_same s seg now
    intro on
    obtain ⟨sent, unsent, queue⟩ := invariant.queue
    obtain ⟨-, -, acknowledged⟩ := queue.acknowledge valuable.1 valuable.2 0
    simp only [acknowledge, same.outgoing] at on ⊢
    refine acknowledged.front ?_
    intro all
    exact on (if_pos (show seg.ack = s.sndNxt from all.symm))
  | @optioned seg _ =>
    obtain ⟨scale, result⟩ | ⟨-, result⟩ :=
      parseOptions_spec s (fun index => seg.data (index + 1)) (seg.len - 1)
    · rw [result]; exact begun
    · rw [result]; exact begun
  | _ => exact begun

/-! ## Runs -/

/-- What the code means by its timer. -/
structure TimerKept (s : PseudoTcp) : Prop where
  armed : s.sndNxt ≠ s.sndUna → s.rtoBase ≠ 0
  begun : s.Begun
  /-- `NotifyClock` does not come to its `ASSERT(false)`. -/
  fires : ∀ now, s.RetransmitDue now → s.slist ≠ []

/-- Bytes in flight have a deadline, which `GetNextClock` reports. -/
def Reported (s : PseudoTcp) : Prop :=
  s.sndNxt ≠ s.sndUna → s.rtoBase ≠ 0 ∧ ∀ now, ∃ timeout, s.getNextClock now = some timeout ∧
    timeout ≤ timeDiff (add32 s.rtoBase s.rxRto) now

/-- No time that may start the timer is zero: neither the time of a retransmission that is due, nor
a reading of the clock. The clock has a reading left after the call, so that it has not run out. -/
def NonzeroTimes (s : PseudoTcp) (environment : Environment) : ApiCall → Prop
  | .notifyClock now => s.RetransmitDue now.toNat → now ≠ 0
  | call =>
      (∀ time ∈ environment.clock, time ≠ 0) ∧ (s.step environment call).notify.clock ≠ []

/-- In every run the timer belongs to a segment that has been transmitted. -/
theorem begun_of_reachable {Ok : PseudoTcp → Environment → ApiCall → Prop}
    (reached : Reachable Ok s) : SendInvariant s ∧ s.Begun := by
  obtain ⟨conv, now, environment, rcvMemory, sndMemory, run⟩ := reached
  exact run.keeps (P := fun s => SendInvariant s ∧ s.Begun)
    (.incoming (fun _ _ => True) (fun _ _ => True) (fun _ _ => True) (fun _ _ => True))
    (fun _ _ => grants_incoming
      (fun _ _ _ => ⟨fun _ => trivial, fun _ => trivial, fun _ => trivial⟩) fun _ _ => trivial)
    (fun _ kept => ⟨⟨kept.1.queue, kept.1.listening⟩, kept.2⟩)
    (fun move kept => ⟨kept.1.move move, move.begun kept.1 kept.2⟩)
    ⟨.new _ _ _ _ _, fun on => absurd rfl on⟩

theorem NonzeroTimes.armed {environment : Environment} {call : ApiCall}
    (nonzero : NonzeroTimes s environment call) (armed : s.timer.Armed) :
    (s.step environment call).timer.Armed := by
  have keeps : ∀ {t}, Timer.Steps (· ≠ 0) s.timer t → t.Armed := fun steps =>
    steps.keeps (fun step => step.armed) armed
  -- Calls other than `NotifyClock` start the timer with readings only.
  have read : (∀ now, call ≠ .notifyClock now) → (∀ time ∈ environment.clock, time ≠ 0) ∧
      (s.step environment call).notify.clock ≠ [] → (s.step environment call).timer.Armed := by
    intro other both
    have ticks : Ticks (· ≠ 0) (s.meet environment) (s.step environment call) :=
      run_ticks _ call fun now is => absurd is (other now)
    refine keeps (ticks.steps (fun time mem zero => both.1 time mem ?_) fun empty => ?_)
    · exact UInt32.toNat.inj zero
    · exact absurd empty both.2
  cases call with
  | notifyClock now =>
    have given : (s.meet environment).RetransmitDue now.toNat → now.toNat ≠ 0 :=
      fun due zero => nonzero due (UInt32.toNat.inj zero)
    have advances : Advances (· ≠ 0) (s.meet environment) (s.step environment (.notifyClock now)) :=
      notifyClock_advances _ given
    exact keeps advances.steps
  | _ => exact read (fun _ is => nomatch is) nonzero

theorem armed_of_reachable (reached : Reachable NonzeroTimes s) : s.timer.Armed := by
  obtain ⟨conv, now, environment, rcvMemory, sndMemory, run⟩ := reached
  induction run with
  | start => exact fun inFlight => absurd rfl inFlight
  | step _ environment call _ nonzero ih => exact nonzero.armed ih

/-- While no time is zero the timer is as the code means it, and its deadline is reported unless
the application has given the connection up. -/
theorem retransmission_kept (reached : Reachable NonzeroTimes s) (isOpen : s.state ≠ .closed) :
    TimerKept s ∧ (s.Reported ↔ (s.sndNxt = s.sndUna ∨ ¬ s.Discarded)) := by
  have armed := armed_of_reachable reached
  obtain ⟨-, begun⟩ := begun_of_reachable reached
  have on : s.sndNxt ≠ s.sndUna → s.rtoBase ≠ 0 := fun inFlight => armed inFlight.symm
  refine ⟨⟨on, begun, ?_⟩, ?_, ?_⟩
  · intro now due
    obtain ⟨seg, rest, front, -⟩ := begun due.1
    rw [front]
    exact List.cons_ne_nil _ _
  · intro reported
    by_cases inFlight : s.sndNxt = s.sndUna
    · exact .inl inFlight
    · refine .inr fun discarded => ?_
      obtain ⟨timeout, answer, -⟩ := (reported inFlight).2 0
      rw [getNextClock_discarded discarded] at answer
      cases answer
  · rintro (none | wanted) inFlight
    · exact absurd none inFlight
    · refine ⟨on inFlight, fun now => ?_⟩
      obtain ⟨timeout, answer, -, least, -⟩ := getNextClock_spec wanted isOpen now
      exact ⟨timeout, answer, least _ (.retransmission (on inFlight))⟩

/-- An environment whose clock reads one. -/
private def atOne : Environment :=
  { Environment.silent with clock := [1, 1, 1, 1] }

/-- The connect message is on its way. -/
theorem retransmission_kept_connecting : TimerKept (fresh.step atOne .connect) ∧
    (Reported (fresh.step atOne .connect) ↔
      ((fresh.step atOne .connect).sndNxt = (fresh.step atOne .connect).sndUna ∨
        ¬ Discarded (fresh.step atOne .connect))) := by
  refine retransmission_kept ⟨_, _, _, _, _, Runs.start.step atOne .connect trivial ?_⟩ ?_
  · refine ⟨fun time read => ?_, by decide +kernel⟩
    have one : time = 1 := by simpa [atOne] using read
    rw [one]
    decide
  · decide +kernel

/-- The connect message is sent at time zero, and no timer runs for it. -/
theorem unarmed_at_zero :
    ¬ ∀ s, Reachable (fun _ _ _ => True) s → s.state ≠ .closed →
      TimerKept s ∧ s.Reported := by
  intro kept
  have reached : Reachable (fun _ _ _ => True) (fresh.runAll [.connect]) :=
    AllOk.reachable ⟨trivial, trivial, trivial⟩
  have isOpen : (fresh.runAll [.connect]).state ≠ .closed := by decide +kernel
  have next : (fresh.runAll [.connect]).sndNxt = 4 := by decide +kernel
  have una : (fresh.runAll [.connect]).sndUna = 0 := by decide +kernel
  have off : (fresh.runAll [.connect]).rtoBase = 0 := by decide +kernel
  refine (kept _ reached isOpen).1.armed ?_ off
  rw [next, una]
  decide

end Libjingle.PseudoTcp

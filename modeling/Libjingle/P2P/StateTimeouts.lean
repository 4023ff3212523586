import Libjingle.P2P.Connection
import Libjingle.Std.Clock
import Libjingle.Std.Trace

/-!
# Timeouts of the connection states

`UpdateState` adds a timeout to a time stamp and compares the sum with the clock, all in 32 bits.
A connection is followed here together with the true times of its stamps: where a deadline lies
in the round of the clock in which it is tested, the states time out when they should.
-/

namespace Libjingle.P2P

open Libjingle.Std

variable {ρ : Type}

namespace Connection

theorem setReadState_readState (c : Connection ρ) (value : ReadState) :
    (c.setReadState value).readState = value := by
  unfold setReadState checkTimeout
  split
  · split <;> rfl
  · next same => exact (not_ne_iff.mp same).symm

theorem setWriteState_writeState (c : Connection ρ) (value : WriteState) :
    (c.setWriteState value).writeState = value := by
  unfold setWriteState checkTimeout
  split
  · split <;> rfl
  · next same => exact (not_ne_iff.mp same).symm

/-- What the setters of the states leave alone. -/
structure SameStamps (c c' : Connection ρ) : Prop where
  received : c'.lastPingReceived = c.lastPingReceived
  pings : c'.pingsSinceLastResponse = c.pingsSinceLastResponse
  rtt : c'.rtt = c.rtt

theorem SameStamps.trans {c c' c'' : Connection ρ} (first : SameStamps c c')
    (second : SameStamps c' c'') : SameStamps c c'' :=
  ⟨second.received.trans first.received, second.pings.trans first.pings,
    second.rtt.trans first.rtt⟩

theorem sameStamps_setReadState (c : Connection ρ) (value : ReadState) :
    SameStamps c (c.setReadState value) := by
  unfold setReadState checkTimeout
  split
  · split <;> exact ⟨rfl, rfl, rfl⟩
  · exact ⟨rfl, rfl, rfl⟩

theorem sameStamps_setWriteState (c : Connection ρ) (value : WriteState) :
    SameStamps c (c.setWriteState value) := by
  unfold setWriteState checkTimeout
  split
  · split <;> exact ⟨rfl, rfl, rfl⟩
  · exact ⟨rfl, rfl, rfl⟩

theorem setReadState_writeState (c : Connection ρ) (value : ReadState) :
    (c.setReadState value).writeState = c.writeState := by
  unfold setReadState checkTimeout
  split
  · split <;> rfl
  · rfl

theorem setWriteState_readState (c : Connection ρ) (value : WriteState) :
    (c.setWriteState value).readState = c.readState := by
  unfold setWriteState checkTimeout
  split
  · split <;> rfl
  · rfl

/-- The three tests of `UpdateState`. -/
def readTimesOut (c : Connection ρ) (now : UInt32) : Bool :=
  c.readState = .readable ∧ c.lastPingReceived + connectionReadTimeout ≤ now

def becomesUnwritable (c : Connection ρ) (now : UInt32) : Bool :=
  c.writeState = .writable ∧
    tooManyFailures c.pingsSinceLastResponse connectionWriteConnectFailures
      (conservativeRttEstimate c.rtt) now ∧
    tooLongWithoutResponse c.pingsSinceLastResponse connectionWriteConnectTimeout now

def writeTimesOut (c : Connection ρ) (now : UInt32) : Bool :=
  (c.writeState = .writeConnect ∨ c.becomesUnwritable now) ∧
    tooLongWithoutResponse c.pingsSinceLastResponse connectionWriteTimeout now

/-- The first of the three tests, with what it does. -/
def afterReadTest (c : Connection ρ) (now : UInt32) : Connection ρ :=
  if c.readTimesOut now then c.setReadState .readTimeout else c

theorem afterReadTest_spec (c : Connection ρ) (now : UInt32) :
    (c.afterReadTest now).readState = (if c.readTimesOut now then .readTimeout else c.readState) ∧
    (c.afterReadTest now).writeState = c.writeState ∧ SameStamps c (c.afterReadTest now) := by
  unfold afterReadTest
  split
  · exact ⟨setReadState_readState c _, setReadState_writeState c _, sameStamps_setReadState c _⟩
  · exact ⟨rfl, rfl, rfl, rfl, rfl⟩

/-- The second one. -/
def afterConnectTest (c : Connection ρ) (now : UInt32) : Connection ρ :=
  if c.becomesUnwritable now then c.setWriteState .writeConnect else c

theorem afterConnectTest_spec (c : Connection ρ) (now : UInt32) :
    (c.afterConnectTest now).readState = c.readState ∧
    (c.afterConnectTest now).writeState =
      (if c.becomesUnwritable now then .writeConnect else c.writeState) ∧
    SameStamps c (c.afterConnectTest now) := by
  unfold afterConnectTest
  split
  · exact ⟨setWriteState_readState c _, setWriteState_writeState c _, sameStamps_setWriteState c _⟩
  · exact ⟨rfl, rfl, rfl, rfl, rfl⟩

/-- The last one. -/
def afterWriteTest (c : Connection ρ) (now : UInt32) : Connection ρ :=
  if c.writeState = .writeConnect ∧
      tooLongWithoutResponse c.pingsSinceLastResponse connectionWriteTimeout now then
    c.setWriteState .writeTimeout
  else c

theorem afterWriteTest_spec (c : Connection ρ) (now : UInt32) :
    (c.afterWriteTest now).readState = c.readState ∧
    (c.afterWriteTest now).writeState =
      (if c.writeState = .writeConnect ∧
          tooLongWithoutResponse c.pingsSinceLastResponse connectionWriteTimeout now then
        .writeTimeout
      else c.writeState) ∧
    SameStamps c (c.afterWriteTest now) := by
  unfold afterWriteTest
  split
  · exact ⟨setWriteState_readState c _, setWriteState_writeState c _, sameStamps_setWriteState c _⟩
  · exact ⟨rfl, rfl, rfl, rfl, rfl⟩

theorem updateState_eq (c : Connection ρ) (now : UInt32) :
    c.updateState now = ((c.afterReadTest now).afterConnectTest now).afterWriteTest now := by
  have read := (c.afterReadTest_spec now).2.2
  unfold afterConnectTest becomesUnwritable
  rw [read.rtt]
  unfold updateState afterWriteTest afterReadTest readTimesOut
  simp only [decide_eq_true_eq]

theorem becomesUnwritable_congr {c c' : Connection ρ} (state : c'.writeState = c.writeState)
    (stamps : SameStamps c c') (now : UInt32) : c'.becomesUnwritable now = c.becomesUnwritable now := by
  unfold becomesUnwritable
  rw [state, stamps.pings, stamps.rtt]

/-- `UpdateState` changes the states as the tests say, and nothing that they look at. -/
theorem updateState_spec (c : Connection ρ) (now : UInt32) :
    (c.updateState now).readState = (if c.readTimesOut now then .readTimeout else c.readState) ∧
    (c.updateState now).writeState =
      (if c.writeTimesOut now then .writeTimeout
       else if c.becomesUnwritable now then .writeConnect else c.writeState) ∧
    SameStamps c (c.updateState now) := by
  obtain ⟨readState, writeState, stamps⟩ := c.afterReadTest_spec now
  obtain ⟨readState', writeState', stamps'⟩ := (c.afterReadTest now).afterConnectTest_spec now
  obtain ⟨readState'', writeState'', stamps''⟩ :=
    ((c.afterReadTest now).afterConnectTest now).afterWriteTest_spec now
  rw [becomesUnwritable_congr writeState stamps, writeState] at writeState'
  rw [updateState_eq]
  refine ⟨by rw [readState'', readState', readState], ?_, (stamps.trans stamps').trans stamps''⟩
  rw [writeState'', writeState', stamps'.pings, stamps.pings]
  unfold writeTimesOut
  cases unwritable : c.becomesUnwritable now <;> simp

end Connection

/-! ## A connection in time -/

/-- A connection, with the time that has passed on the clock and the times of its stamps. -/
structure Timed (ρ : Type) where
  connection : Connection ρ
  clock : Nat
  /-- When the last ping was received. -/
  pinged : Nat
  /-- When the pings since the last response were sent. -/
  pings : List Nat

inductive Call where
  | ping (request : Nat)
  | receivedPing
  | response (r : ConnectionRequest)
  | updateState

/-- A call, some milliseconds after the one before. -/
structure TimedCall where
  after : Nat
  call : Call

namespace Timed

def step (t : Timed ρ) (timed : TimedCall) : Timed ρ :=
  let now := t.clock + timed.after
  match timed.call with
  | .ping request =>
      { t with
        connection := t.connection.ping request (reading now)
        clock := now
        pings := t.pings ++ [now] }
  | .receivedPing =>
      { t with connection := t.connection.receivedPing (reading now), clock := now, pinged := now }
  | .response r =>
      { t with
        connection := t.connection.onConnectionRequestResponse r (reading now)
        clock := now
        pings := [] }
  | .updateState =>
      { t with connection := t.connection.updateState (reading now), clock := now }

/-- The stamps of the connection are what the clock showed. -/
structure Stamped (t : Timed ρ) : Prop where
  received : t.connection.readState = .readable → t.connection.lastPingReceived = reading t.pinged
  pings : t.connection.pingsSinceLastResponse = t.pings.map reading

theorem Stamped.step {t : Timed ρ} (stamped : t.Stamped) (timed : TimedCall) :
    (t.step timed).Stamped := by
  obtain ⟨after, call⟩ := timed
  cases call with
  | ping request =>
    refine ⟨stamped.received, ?_⟩
    simp [Timed.step, Connection.ping, stamped.pings]
  | receivedPing =>
    have stamps := Connection.sameStamps_setReadState
      { t.connection with lastPingReceived := reading (t.clock + after) } .readable
    exact ⟨fun _ => stamps.received, stamps.pings.trans stamped.pings⟩
  | response r =>
    have stamps := Connection.sameStamps_setWriteState t.connection .writable
    refine ⟨fun readable => ?_, rfl⟩
    have before : t.connection.readState = .readable :=
      (Connection.setWriteState_readState t.connection .writable).symm.trans readable
    exact stamps.received.trans (stamped.received before)
  | updateState =>
    obtain ⟨readState, -, stamps⟩ :=
      Connection.updateState_spec t.connection (reading (t.clock + after))
    refine ⟨fun readable => ?_, stamps.pings.trans stamped.pings⟩
    have before : t.connection.readState = .readable := by
      rw [show (t.step ⟨after, .updateState⟩).connection =
        t.connection.updateState (reading (t.clock + after)) from rfl, readState] at readable
      split at readable
      · exact nomatch readable
      · exact readable
    exact stamps.received.trans (stamped.received before)

/-! ## What time has passed -/

/-- As many pings as it takes are unanswered: a response to the last of them had the time to get
back. -/
def Failed (t : Timed ρ) (now : Nat) : Prop :=
  ∃ ping, t.pings[connectionWriteConnectFailures - 1]? = some ping ∧
    ping + (conservativeRttEstimate t.connection.rtt).toNat < now

/-- More than some time has passed since the first ping without a response. -/
def Silent (t : Timed ρ) (time : UInt32) (now : Nat) : Prop :=
  ∃ ping, t.pings.head? = some ping ∧ ping + time.toNat < now

/-- `UpdateState` changes the states if and only if the time for it has passed. -/
structure RespectsTime (t : Timed ρ) (now : Nat) : Prop where
  unreadable : t.connection.readState = .readable →
    ((t.connection.updateState (reading now)).readState = .readTimeout ↔
      t.pinged + connectionReadTimeout.toNat ≤ now)
  unwritable : t.connection.writeState = .writable →
    ((t.connection.updateState (reading now)).writeState ≠ .writable ↔
      t.Failed now ∧ t.Silent connectionWriteConnectTimeout now)
  timedOut : t.connection.writeState ≠ .writeTimeout →
    ((t.connection.updateState (reading now)).writeState = .writeTimeout ↔
      (t.connection.writeState = .writable →
        t.Failed now ∧ t.Silent connectionWriteConnectTimeout now) ∧
      t.Silent connectionWriteTimeout now)

/-- The deadlines that come to be tested lie in the round in which the clock is. -/
structure InRound (t : Timed ρ) (now : Nat) : Prop where
  read : t.connection.readState = .readable →
    SameRound (t.pinged + connectionReadTimeout.toNat) now
  failures : t.connection.writeState = .writable →
    ∀ ping, t.pings[connectionWriteConnectFailures - 1]? = some ping →
      SameRound (ping + (conservativeRttEstimate t.connection.rtt).toNat) now
  connect : t.connection.writeState = .writable → t.Failed now →
    ∀ ping, t.pings.head? = some ping →
      SameRound (ping + connectionWriteConnectTimeout.toNat) now
  write : t.connection.writeState ≠ .writeTimeout →
    (t.connection.writeState = .writable →
      t.Failed now ∧ t.Silent connectionWriteConnectTimeout now) →
    ∀ ping, t.pings.head? = some ping → SameRound (ping + connectionWriteTimeout.toNat) now

variable {t : Timed ρ} {now : Nat}

theorem tooManyFailures_iff (stamped : t.Stamped)
    (inRound : ∀ ping, t.pings[connectionWriteConnectFailures - 1]? = some ping →
      SameRound (ping + (conservativeRttEstimate t.connection.rtt).toNat) now) :
    tooManyFailures t.connection.pingsSinceLastResponse connectionWriteConnectFailures
      (conservativeRttEstimate t.connection.rtt) (reading now) = true ↔ t.Failed now := by
  unfold tooManyFailures Failed
  rw [stamped.pings, List.getElem?_map]
  cases is : t.pings[connectionWriteConnectFailures - 1]? with
  | none => simp
  | some ping =>
    simp only [Option.map_some, decide_eq_true_eq, Option.some.injEq, exists_eq_left']
    rw [reading_add, reading_lt_iff (inRound ping is)]

theorem tooLongWithoutResponse_iff (stamped : t.Stamped) {time : UInt32}
    (inRound : ∀ ping, t.pings.head? = some ping → SameRound (ping + time.toNat) now) :
    tooLongWithoutResponse t.connection.pingsSinceLastResponse time (reading now) = true ↔
      t.Silent time now := by
  unfold tooLongWithoutResponse Silent
  rw [stamped.pings]
  cases is : t.pings with
  | nil => simp
  | cons ping rest =>
    have first := inRound ping (by rw [is]; rfl)
    simp only [List.map_cons, decide_eq_true_eq, List.head?_cons, Option.some.injEq, exists_eq_left']
    rw [reading_add, reading_lt_iff first]

theorem becomesUnwritable_iff (stamped : t.Stamped) (inRound : t.InRound now) :
    t.connection.becomesUnwritable (reading now) = true ↔
      t.connection.writeState = .writable ∧
        t.Failed now ∧ t.Silent connectionWriteConnectTimeout now := by
  unfold Connection.becomesUnwritable
  rw [decide_eq_true_eq]
  refine and_congr_right fun writable => ?_
  rw [tooManyFailures_iff stamped (inRound.failures writable)]
  exact and_congr_right fun failed =>
    tooLongWithoutResponse_iff stamped (inRound.connect writable failed)

theorem writeTimesOut_iff (stamped : t.Stamped) (inRound : t.InRound now)
    (live : t.connection.writeState ≠ .writeTimeout) :
    t.connection.writeTimesOut (reading now) = true ↔
      (t.connection.writeState = .writable →
        t.Failed now ∧ t.Silent connectionWriteConnectTimeout now) ∧
      t.Silent connectionWriteTimeout now := by
  have due : (t.connection.writeState = .writeConnect ∨
      t.connection.becomesUnwritable (reading now) = true) ↔
      (t.connection.writeState = .writable →
        t.Failed now ∧ t.Silent connectionWriteConnectTimeout now) := by
    rw [becomesUnwritable_iff stamped inRound]
    cases state : t.connection.writeState with
    | writable => simp
    | writeConnect => simp
    | writeTimeout => exact absurd state live
  unfold Connection.writeTimesOut
  rw [decide_eq_true_eq, due]
  exact and_congr_right fun due => tooLongWithoutResponse_iff stamped (inRound.write live due)

theorem respectsTime_of_inRound (stamped : t.Stamped) (inRound : t.InRound now) :
    t.RespectsTime now := by
  obtain ⟨readState, writeState, -⟩ := t.connection.updateState_spec (reading now)
  refine ⟨fun readable => ?_, fun writable => ?_, fun live => ?_⟩
  · have timesOut : t.connection.readTimesOut (reading now) = true ↔
        t.pinged + connectionReadTimeout.toNat ≤ now := by
      unfold Connection.readTimesOut
      rw [decide_eq_true_eq, stamped.received readable, reading_add,
        reading_le_iff (inRound.read readable)]
      exact and_iff_right readable
    rw [readState, ← timesOut, readable]
    simp
  · have unwritable := becomesUnwritable_iff stamped inRound
    simp only [writable, true_and] at unwritable
    rw [writeState, ← unwritable, writable]
    have first : t.connection.writeTimesOut (reading now) = true →
        t.connection.becomesUnwritable (reading now) = true := by
      intro timesOut
      unfold Connection.writeTimesOut at timesOut
      rw [decide_eq_true_eq, writable] at timesOut
      exact timesOut.1.resolve_left (fun same => nomatch same)
    cases timesOut : t.connection.writeTimesOut (reading now) with
    | true => simp [first timesOut]
    | false => cases t.connection.becomesUnwritable (reading now) <;> simp
  · rw [writeState, ← writeTimesOut_iff stamped inRound live]
    cases t.connection.writeTimesOut (reading now) with
    | true => simp
    | false => cases t.connection.becomesUnwritable (reading now) <;> simp [live]

/-! ## Runs -/

/-- In every run whose deadlines lie in the rounds in which they are tested, the states time out
if and only if the time for it has passed. -/
theorem states_respect_time {t : Timed ρ} (stamped : t.Stamped) (calls : List TimedCall)
    (inRound : Along step (fun t timed => timed.call = .updateState →
      t.InRound (t.clock + timed.after)) t calls) :
    Along step (fun t timed => timed.call = .updateState →
      t.RespectsTime (t.clock + timed.after)) t calls :=
  inRound.of_invariant (fun _ timed _ stamped => stamped.step timed)
    (fun _ _ inRound stamped updates => respectsTime_of_inRound stamped (inRound updates)) stamped

/-- A connection as it is made, with some time on the clock. -/
def start (clock : Nat) : Timed Nat where
  connection := .new 0 ⟨0, 0, 1, 0, fun _ _ => some true⟩
    ⟨"rtp", "udp", .nil, 1, "", "", "local", 0⟩ true
  clock := clock
  pinged := 0
  pings := []

theorem stamped_start (clock : Nat) : (start clock).Stamped where
  received readable := nomatch readable
  pings := rfl

theorem states_respect_time_40_seconds :
    Along step (fun t timed => timed.call = .updateState → t.RespectsTime (t.clock + timed.after))
      (start 0) [⟨0, .receivedPing⟩, ⟨40000, .updateState⟩] := by
  refine states_respect_time (stamped_start 0) _ ⟨nofun, fun _ => ⟨fun _ => ?_, ?_, ?_, ?_⟩, trivial⟩
  · decide
  · exact nofun
  · exact nofun
  · exact nofun

/-- A ping is received shortly before the clock wraps, and 5 milliseconds later the connection
is not readable any more. -/
theorem unreadable_at_once :
    ¬Along step (fun t timed => timed.call = .updateState → t.RespectsTime (t.clock + timed.after))
      (start 4294967280) [⟨0, .receivedPing⟩, ⟨5, .updateState⟩] := by
  rintro ⟨-, respects, -⟩
  have early := ((respects rfl).unreadable rfl).mp (by decide)
  exact absurd early (by decide)

end Timed

end Libjingle.P2P

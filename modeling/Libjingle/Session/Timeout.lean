import Libjingle.Session.Messages
import Libjingle.Std.Trace

/-!
# The connectivity timeout

One timer watches all transports of a session. Every signal of a transport
clears it and starts it again for that transport alone, so after a signal it is
pending exactly when this transport waits. `Armed` asks for more: that it is
pending while any transport that has begun to connect waits.
-/

namespace Libjingle.Session

open Libjingle.Std

/-- A session and the transports that have signalled connecting. -/
structure Watch where
  session : Session
  connecting : List Nat

/-- A transport waits: it has channels and is not writable. -/
def Waits (s : Session) (transport : Nat) : Prop :=
  ∃ t, s.transports[transport]? = some t ∧ t.hasChannels = true ∧ t.writable = false

namespace Watch

def step (w : Watch) (stimulus : Stimulus) : Watch where
  session := w.session.step stimulus
  connecting :=
    match stimulus.input with
    | .connecting transport => transport :: w.connecting
    | _ => w.connecting

/-- While a transport that has signalled connecting waits, the timer is pending. -/
def Armed (w : Watch) : Prop :=
  ∀ transport ∈ w.connecting, w.session.Waits transport → .timeout ∈ w.session.posted

/-- The input is a signal of a transport, `SignalConnecting` or
`SignalWritableState`; the flag tells whether the transport is writable then. -/
inductive Signals (w : Watch) : Input → Nat → Transport → Bool → Prop where
  | connecting {transport : Nat} {t : Transport}
      (found : w.session.transports[transport]? = some t) :
      Signals w (.connecting transport) transport t t.writable
  | writable {transport : Nat} {t : Transport} {writable : Bool}
      (found : w.session.transports[transport]? = some t) (changes : t.writable ≠ writable) :
      Signals w (.writable transport writable) transport t writable

/-- The transport that signals waits itself, or no other one does that has
signalled connecting. -/
def Covers (w : Watch) (stimulus : Stimulus) : Prop :=
  ∀ transport t writable, w.Signals stimulus.input transport t writable →
    (t.hasChannels = true ∧ writable = false) ∨
      ∀ other ∈ w.connecting, other ≠ transport → ¬ w.session.Waits other

/-- After a signal of a transport the timer is armed. -/
def ArmedAfter (w : Watch) (stimulus : Stimulus) : Prop :=
  ∀ transport t writable, w.Signals stimulus.input transport t writable → (w.step stimulus).Armed

end Watch

/-! ## One signal -/

theorem mem_posted_onTransportWritable (s : Session) (transport : Nat) :
    .timeout ∈ (s.onTransportWritable transport).posted ↔ s.Waits transport := by
  have cleared : MessageId.timeout ∉ (s.clear .timeout).posted := by simp [clear]
  have same : (s.clear .timeout).transports = s.transports := rfl
  simp only [onTransportWritable, same, Waits]
  cases s.transports[transport]? with
  | none => simpa using cleared
  | some t =>
    by_cases waits : t.hasChannels = true ∧ ¬ t.writable = true
    · simp only [if_pos waits]
      simpa [post] using waits
    · simp only [if_neg waits]
      refine ⟨fun pending => absurd pending cleared, ?_⟩
      rintro ⟨_, ⟨⟩, channels, blocked⟩
      exact absurd ⟨channels, by simp [blocked]⟩ waits

theorem transports_onTransportWritable (s : Session) (transport : Nat) :
    (s.onTransportWritable transport).transports = s.transports := by
  simp only [onTransportWritable]
  split
  · split <;> rfl
  · rfl

/-- What a signal leaves behind: the timer watches the transport that signalled,
and the other transports are as before. -/
theorem Watch.Signals.after {w : Watch} {stimulus : Stimulus} {transport : Nat} {t : Transport}
    {writable : Bool} (signals : w.Signals stimulus.input transport t writable) :
    (.timeout ∈ (w.step stimulus).session.posted ↔ (t.hasChannels = true ∧ writable = false)) ∧
      ((w.step stimulus).session.Waits transport ↔ (t.hasChannels = true ∧ writable = false)) ∧
      (∀ other, other ≠ transport →
        ((w.step stimulus).session.Waits other ↔ w.session.Waits other)) ∧
      ∀ other ∈ (w.step stimulus).connecting, other ∈ w.connecting ∨ other = transport := by
  rcases stimulus with ⟨input, listeners⟩
  dsimp only at signals
  cases signals with
  | connecting found =>
    have waits : w.session.Waits transport ↔ (t.hasChannels = true ∧ t.writable = false) := by
      simp [Waits, found]
    have kept : ∀ other, ((w.session.onTransportWritable transport).Waits other ↔
        w.session.Waits other) := by
      intro other
      simp only [Waits, transports_onTransportWritable]
    refine ⟨(mem_posted_onTransportWritable _ _).trans waits, (kept transport).trans waits,
      fun other _ => kept other, ?_⟩
    intro other member
    exact (List.mem_cons.mp member).symm
  | writable found changes =>
    let changed := w.session.rewire (w.session.toWiring.modifyTransport transport fun t =>
      { t with writable := writable })
    have shape : w.session.step ⟨.writable transport writable, listeners⟩ =
        changed.onTransportWritable transport := by
      simp only [Session.step, onChannelWritableState, found, changes, if_false, changed]
    have transports : changed.transports =
        w.session.transports.modify transport fun t => { t with writable := writable } := rfl
    have waits : changed.Waits transport ↔ (t.hasChannels = true ∧ writable = false) := by
      simp [Waits, transports, found, Transport.hasChannels]
    have kept : ∀ other, (changed.onTransportWritable transport).Waits other ↔
        changed.Waits other := by
      intro other
      simp only [Waits, transports_onTransportWritable]
    simp only [Watch.step, shape]
    refine ⟨(mem_posted_onTransportWritable _ _).trans waits, (kept transport).trans waits, ?_,
      fun other => .inl⟩
    intro other different
    rw [kept]
    simp only [Waits, transports, List.getElem?_modify]
    simp [different.symm]

/-- A signal leaves the timer armed exactly when it covers the others. -/
theorem Watch.armedAfter_iff (w : Watch) (stimulus : Stimulus) :
    w.ArmedAfter stimulus ↔ w.Covers stimulus := by
  refine forall_congr' fun transport => forall_congr' fun t => forall_congr' fun writable =>
    forall_congr' fun signals => ?_
  obtain ⟨pending, waits, others, connecting⟩ := signals.after
  constructor
  · intro armed
    by_cases itself : t.hasChannels = true ∧ writable = false
    · exact .inl itself
    · refine .inr fun other member different waiting => itself (pending.mp ?_)
      have begun : other ∈ (w.step stimulus).connecting := by
        simp only [Watch.step]
        split
        · exact List.mem_cons_of_mem _ member
        · exact member
      exact armed other begun ((others other different).mpr waiting)
  · rintro (itself | none) other begun waiting
    · exact pending.mpr itself
    · rcases connecting other begun with old | rfl
      · by_cases same : other = transport
        · exact pending.mpr (waits.mp (same ▸ waiting))
        · exact absurd ((others other same).mp waiting) (none other old same)
      · exact pending.mpr (waits.mp waiting)

/-! ## Runs -/

/-- In every run, the timer is armed after each signal of a transport if and only
if each signal comes from a transport that waits itself, or at a time when no
other transport that has begun to connect waits. -/
theorem timeout_armed_iff (w : Watch) (stimuli : List Stimulus) :
    Along Watch.step Watch.ArmedAfter w stimuli ↔ Along Watch.step Watch.Covers w stimuli :=
  along_congr Watch.armedAfter_iff w stimuli

/-- Two contents connect; the transport of the second becomes writable and stops
the timer that watches the first. -/
theorem timeout_disarmed :
    ¬ ∀ session stimuli, Along Watch.step Watch.ArmedAfter ⟨session, []⟩ stimuli := by
  intro claim
  let sdesc : SessionDescription := ⟨["audio", "video"], []⟩
  let stimuli : List Stimulus :=
    [⟨.localCall (.createChannel "audio" "rtp"), {}⟩, ⟨.localCall (.createChannel "video" "rtp"), {}⟩,
      ⟨.localCall (.initiate "juliet" sdesc), {}⟩, ⟨.connecting 0, {}⟩, ⟨.connecting 1, {}⟩]
  have after := (claim outgoing (stimuli ++ [⟨.writable 1 true, {}⟩])).last
  obtain ⟨w, reached⟩ : ∃ w, w = runInputs Watch.step ⟨outgoing, []⟩ stimuli := ⟨_, rfl⟩
  rw [← reached] at after
  let first : Transport := ⟨["rtp"], true, false, false, []⟩
  have found : w.session.transports[1]? = some first := by rw [reached]; decide +kernel
  have waits : (w.step ⟨.writable 1 true, {}⟩).session.transports[0]? = some first := by
    rw [reached]; decide +kernel
  have begun : 0 ∈ (w.step ⟨.writable 1 true, {}⟩).connecting := by rw [reached]; decide +kernel
  have stopped : .timeout ∉ (w.step ⟨.writable 1 true, {}⟩).session.posted := by
    rw [reached]; decide +kernel
  exact stopped (after 1 first true (.writable found (by decide)) 0 begun ⟨first, waits, rfl, rfl⟩)

end Libjingle.Session

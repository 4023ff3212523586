import Libjingle.Base.BufferedReadAdapter

/-!
# The tunnel of a proxy adapter

What `Recv` reports once the handshake is over, for every subclass that takes its
handshake from the front of its buffer.
-/

namespace Libjingle.Base

open Libjingle.Std

variable {σ ω : Type} {P : ProxyProtocol σ} {reader : Reader σ UInt8 ω} {Sound : σ → Prop}

/-- What is left of a stream once the handshake at its front has brought the tunnel up. -/
def afterReply (reader : Reader σ UInt8 ω) (up : σ → Bool) (s : σ) (stream : List UInt8) :
    Option (List UInt8) :=
  let (_, t, rest) := reader.drain stream.length s stream
  if up t then some rest else none

theorem afterReply_of_reads {up : σ → Bool} {s t : σ} {stream rest : List UInt8} {items : List ω}
    (stuck : ∀ buf, reader.read t buf = none) (isUp : up t)
    (reads : reader.Reads s stream items t rest) : afterReply reader up s stream = some rest := by
  obtain ⟨-, state, left⟩ := (reader.drain_reads stream.length s stream).unique
    (reader.drain_stuck (Nat.le_refl _)) reads (stuck rest)
  simp only [afterReply, state, left, isUp, if_true]

/-- A subclass reads its input item by item as long as it is sound; when it gives up,
it stops buffering and closes the socket. -/
structure ReadsItems (P : ProxyProtocol σ) (reader : Reader σ UInt8 ω) (Sound : σ → Prop) :
    Prop where
  connects : ∀ s, Sound s → Sound (P.onConnectEvent s).1
  processes : ∀ s data, Sound s → Sound (P.processInput s data).state →
    ∃ items, reader.Reads s data items (P.processInput s data).state (P.processInput s data).left
  givesUp : ∀ s data, Sound s → ¬ Sound (P.processInput s data).state →
    (P.processInput s data).calls.foldl BufferedReadAdapter.buffers true = false ∧
      ∀ u, ((P.processInput s data).calls.foldl UnderlyingSocket.apply u).state = .closed

namespace UnderlyingSocket

variable {u v : UnderlyingSocket} {cb limit : Nat}

theorem of_recv_none (failed : u.recv cb limit = (none, v)) : u.pending = [] ∧ v = u := by
  unfold recv at failed
  split at failed
  · next nothing =>
    cases failed
    exact ⟨nothing, rfl⟩
  · cases failed

theorem of_recv_some {bytes : List UInt8} (read : u.recv cb limit = (some bytes, v)) :
    u.pending = bytes ++ v.pending ∧ v.state = u.state ∧ bytes.length ≤ cb ∧ u.pending ≠ [] := by
  unfold recv at read
  split at read
  · cases read
  · next something =>
    cases read
    refine ⟨(List.take_append_drop _ _).symm, rfl, ?_, something⟩
    rw [List.length_take]
    omega

end UnderlyingSocket

namespace ProxiedSocket

/-- No byte is lost: what `Recv` has reported and what is still in the buffer is the
stream behind the items of the handshake. -/
structure Intact (reader : Reader σ UInt8 ω) (Sound : σ → Prop) (c : ProxiedSocket σ) : Prop where
  reads : Sound c.adapter.state → ∃ items, reader.Reads c.origin c.received items c.adapter.state
    (c.delivered ++ c.adapter.buffer)
  quiet : c.adapter.buffering = true → c.delivered = []
  gaveUp : ¬ Sound c.adapter.state → c.adapter.buffering = false ∧ c.socket.state = .closed

/-- With the tunnel up, `Recv` has reported a front part of the stream after the reply,
and the rest of it is all there. -/
def KeepsTunnelData (reader : Reader σ UInt8 ω) (up : σ → Bool) (c : ProxiedSocket σ) : Prop :=
  up c.adapter.state → ∃ rest, afterReply reader up c.origin c.stream = some rest ∧
    c.delivered <+: rest ∧ c.delivered ++ c.adapter.buffer ++ c.socket.pending = rest

/-- A call of `Recv` that has bytes of the buffer to report finds bytes in the socket. -/
def Served (c : ProxiedSocket σ) : ProxyStep → Prop
  | .recv cb _ =>
    c.adapter.buffering = true ∨ c.adapter.buffer = [] ∨ cb = 0 ∨ c.socket.pending ≠ []
  | _ => True

/-- A read event of the handshake finds room in the buffer. -/
def Roomy (c : ProxiedSocket σ) : ProxyStep → Prop
  | .readEvent _ => c.adapter.buffering = true → c.adapter.buffer.length < handshakeBufferSize
  | _ => True

instance (c : ProxiedSocket σ) : (step : ProxyStep) → Decidable (c.Served step)
  | .recv _ _ => inferInstanceAs (Decidable (_ ∨ _ ∨ _ ∨ _))
  | .connectEvent | .arrive _ | .readEvent _ => .isTrue trivial

instance (c : ProxiedSocket σ) : (step : ProxyStep) → Decidable (c.Roomy step)
  | .readEvent _ => inferInstanceAs (Decidable (_ → _))
  | .connectEvent | .arrive _ | .recv _ _ => .isTrue trivial

variable {c : ProxiedSocket σ}

namespace Intact

theorem start {state : σ} {buffering : Bool} (sound : Sound state) :
    Intact reader Sound (ProxiedSocket.start state buffering) where
  reads _ := ⟨[], .refl _ _⟩
  quiet _ := rfl
  gaveUp unsound := absurd sound unsound

theorem connectEvent (intact : Intact reader Sound c) (items : ReadsItems P reader Sound) :
    Intact reader Sound (c.step P .connectEvent) := by
  simp only [step]
  split
  · exact intact
  next connecting =>
  have connecting : c.socket.state = .connecting := not_not.mp connecting
  have sound : Sound c.adapter.state := by
    by_contra unsound
    rw [(intact.gaveUp unsound).2] at connecting
    cases connecting
  exact {
    reads := fun _ => ⟨[], .refl _ _⟩
    quiet := fun _ => rfl
    gaveUp := fun unsound => absurd (items.connects _ sound) unsound }

theorem arrive (intact : Intact reader Sound c) (bytes : List UInt8) :
    Intact reader Sound (c.step P (.arrive bytes)) := by
  simp only [step]
  split
  · exact intact
  · exact { intact with }

/-- The subclass gets what is in the buffer and what was read. -/
theorem process (intact : Intact reader Sound c) (items : ReadsItems P reader Sound)
    (buffering : c.adapter.buffering = true) (bytes : List UInt8) (u : UnderlyingSocket) :
    let out := P.processInput c.adapter.state (c.adapter.buffer ++ bytes)
    Intact reader Sound
      { c with
        adapter :=
          { state := out.state, buffer := out.left,
            buffering := out.calls.foldl BufferedReadAdapter.buffers c.adapter.buffering }
        socket := out.calls.foldl UnderlyingSocket.apply u
        received := c.received ++ bytes } := by
  have quiet := intact.quiet buffering
  have sound : Sound c.adapter.state := by
    by_contra unsound
    rw [(intact.gaveUp unsound).1] at buffering
    cases buffering
  constructor
  · intro later
    obtain ⟨before, reads⟩ := intact.reads sound
    obtain ⟨now, processed⟩ := items.processes _ _ sound later
    rw [quiet, List.nil_append] at reads
    refine ⟨before ++ now, ?_⟩
    rw [quiet, List.nil_append]
    exact (reads.more bytes).trans processed
  · exact fun _ => quiet
  · intro unsound
    obtain ⟨stopped, closed⟩ := items.givesUp _ _ sound unsound
    rw [buffering]
    exact ⟨stopped, closed u⟩

theorem readEvent (intact : Intact reader Sound c) (items : ReadsItems P reader Sound)
    (limit : Nat) (room : c.Roomy (.readEvent limit)) :
    Intact reader Sound (c.step P (.readEvent limit)) := by
  simp only [step]
  split
  · exact intact
  next connected =>
  simp only [BufferedReadAdapter.onReadEvent]
  split
  · simpa using intact
  next buffering =>
  have buffering : c.adapter.buffering = true := not_not.mp buffering
  rw [if_neg (Nat.not_le_of_lt (room buffering))]
  split
  · next failed =>
    obtain ⟨-, rfl⟩ := UnderlyingSocket.of_recv_none failed
    simpa using intact
  · exact intact.process items buffering _ _

theorem recv (intact : Intact reader Sound c) {cb limit : Nat}
    (served : c.Served (.recv cb limit)) : Intact reader Sound (c.step P (.recv cb limit)) := by
  simp only [step, BufferedReadAdapter.recv]
  split
  · simpa using intact
  next buffering =>
  have kept : c.socket.pending = [] → c.adapter.buffer.drop cb = c.adapter.buffer := by
    intro nothing
    rcases served with still | empty | none | some
    · exact absurd still buffering
    · rw [empty, List.drop_nil]
    · rw [none, List.drop_zero]
    · exact absurd nothing some
  split
  · next failed =>
    obtain ⟨nothing, rfl⟩ := UnderlyingSocket.of_recv_none failed
    simpa [nothing, kept nothing] using intact
  next read =>
  rename_i bytes u
  obtain ⟨arrived, same, atMost, -⟩ := UnderlyingSocket.of_recv_some read
  -- The socket is asked only for what the buffer cannot give.
  have behind : c.adapter.buffer.take cb ++ bytes ++ c.adapter.buffer.drop cb =
      c.adapter.buffer ++ bytes := by
    by_cases all : c.adapter.buffer.length ≤ cb
    · rw [List.take_of_length_le all, List.drop_of_length_le all, List.append_nil]
    · rw [List.length_take, Nat.min_eq_left (by omega), Nat.sub_self, Nat.le_zero] at atMost
      obtain rfl := List.eq_nil_of_length_eq_zero atMost
      rw [List.append_nil, List.append_nil, List.take_append_drop]
  refine { reads := fun sound => ?_, quiet := fun on => absurd on buffering, gaveUp := ?_ }
  · obtain ⟨items, reads⟩ := intact.reads sound
    refine ⟨items, ?_⟩
    have reads := reads.more bytes
    rw [List.append_assoc, ← behind, ← List.append_assoc] at reads
    simpa [arrived] using reads
  · intro unsound
    exact ⟨(intact.gaveUp unsound).1, same.trans (intact.gaveUp unsound).2⟩

theorem step (intact : Intact reader Sound c) (items : ReadsItems P reader Sound) :
    (step : ProxyStep) → c.Served step → c.Roomy step → Intact reader Sound (c.step P step)
  | .connectEvent, _, _ => intact.connectEvent items
  | .arrive bytes, _, _ => intact.arrive bytes
  | .readEvent limit, _, room => intact.readEvent items limit room
  | .recv _ _, served, _ => intact.recv served

theorem keepsTunnelData (intact : Intact reader Sound c) {up : σ → Bool}
    (stuck : ∀ s buf, up s → reader.read s buf = none) (sound : ∀ s, up s → Sound s) :
    KeepsTunnelData reader up c := by
  intro isUp
  obtain ⟨items, reads⟩ := intact.reads (sound _ isUp)
  refine ⟨_, afterReply_of_reads (stuck _ · isUp) isUp (reads.more c.socket.pending), ?_, rfl⟩
  exact ⟨c.adapter.buffer ++ c.socket.pending, by rw [List.append_assoc]⟩

end Intact

end ProxiedSocket

end Libjingle.Base

import Libjingle.Relay.Connections

/-!
# Who the relay server sends to

An external connection is locked by packets from its address alone: by the one that
makes it, or by the first that finds it. A SEND request makes one that is not locked.
-/

namespace Libjingle.Relay

open Libjingle.Stun Libjingle.Std

namespace RelayServer

/-- A locked external connection has had a packet from its address. -/
def Heard (externalSocket : SocketAddress) (past : List Input) (c : RelayServerConnection) :
    Prop :=
  c.locked = true → c.addrPair.destination = externalSocket →
    ∃ bytes now, Input.packet c.addrPair bytes now ∈ past

theorem Heard.mono {externalSocket : SocketAddress} {past : List Input}
    {c : RelayServerConnection} (heard : Heard externalSocket past c) (input : Input) :
    Heard externalSocket (past ++ [input]) c := by
  intro locked outside
  obtain ⟨bytes, now, mem⟩ := heard locked outside
  exact ⟨bytes, now, List.mem_append_left [input] mem⟩

/-- The input that locks an external connection is a packet from its address. -/
theorem keeps_heard (externalSocket : SocketAddress) (past : List Input) (input : Input) :
    Keeps externalSocket (Heard externalSocket (past ++ [input])) input where
  fresh _ _ locked := absurd locked Bool.false_ne_true
  accepted ap bytes now username same _ _ _ := by
    subst same
    exact ⟨bytes, now, List.mem_append_right past (List.mem_singleton_self _)⟩
  heard ap bytes now c same _ pair _ _ _ := by
    subst same pair
    exact ⟨bytes, now, List.mem_append_right past (List.mem_singleton_self _)⟩
  lockedTo ap bytes now extAddr c _ inside _ pair _ _ outside := by
    rw [← pair] at inside
    exact absurd outside inside

/-- In every run the locked external connections have been heard of. -/
theorem guarded_run (externalSocket : SocketAddress) (inputs : List Input) :
    (runInputs next (new externalSocket) inputs).Guarded externalSocket
      (Heard externalSocket inputs) := by
  refine history_invariant (P := fun past s => Guarded externalSocket
    (Heard externalSocket past) s) (.new _ _) (fun past s input guarded => ?_) inputs
  exact ((guarded.mono fun _ heard => heard.mono input).step
    (keeps_heard externalSocket past input)).guarded

/-- The server sends from its external socket only to an address that has sent something
to that socket before. -/
theorem heard_before_sent (externalSocket : SocketAddress) (inputs : List Input) (input : Input)
    (sent : Datagram) (mem : sent ∈ ((runInputs next (new externalSocket) inputs).step input).2)
    (outside : sent.socket = externalSocket) :
    ∃ bytes now, Input.packet ⟨sent.destination, externalSocket⟩ bytes now ∈ inputs := by
  have guarded := (guarded_run externalSocket inputs).mono fun _ heard => heard.mono input
  have sends := (guarded.step (keeps_heard externalSocket inputs input)).sends sent mem
  -- A packet that makes the server send to the outside is not from there itself.
  have earlier {ap : AddressPair} {bytes : List UInt8} {now : UInt32}
      (inside : ap.destination ≠ externalSocket) {ext : RelayServerConnection} (side : ext.addrPair.destination = externalSocket)
      (locked : ext.locked = true)
      (heard : Heard externalSocket (inputs ++ [.packet ap bytes now]) ext) :
      ∃ bytes now, Input.packet ⟨ext.addrPair.source, externalSocket⟩ bytes now ∈ inputs := by
    obtain ⟨bytes', now', packet⟩ := heard locked side
    rw [← side]
    refine ⟨bytes', now', (List.mem_append.mp packet).resolve_right fun last => ?_⟩
    cases List.mem_singleton.mp last
    exact inside side
  cases sends with
  | answer inside => exact absurd outside inside
  | wrapped inside _ _ _ _ _ side locked heard => exact earlier inside side locked heard
  | unwrapped inside _ _ _ _ _ side locked heard => exact earlier inside side locked heard
  | @forwarded ap bytes now int _ inside =>
    have pair := congrArg AddressPair.destination (sendFrom_socket int bytes ap.source)
    exact absurd (pair.symm.trans outside) inside

/-- A client has data for a peer, which is dropped until the peer has sent something. -/
theorem heard_before_sent_peer :
    ∃ bytes now, Input.packet ⟨sampleAddress 9, ⟨.v4 1, 3479⟩⟩ bytes now ∈
      [sampleAllocate 2 [0x41], sampleSend 2 [0x41],
        .packet ⟨sampleAddress 9, ⟨.v4 1, 3479⟩⟩ [0x3f] 0] :=
  heard_before_sent ⟨.v4 1, 3479⟩ _ (sampleSend 2 [0x41]) ⟨⟨.v4 1, 3479⟩, sampleAddress 9, [0x21]⟩
    (by decide +kernel) rfl

end RelayServer

end Libjingle.Relay

import Libjingle.Relay.Entries
import Libjingle.Relay.Wire

/-!
# A relay port and a relay server

The port and the server, and the network between them. The network keeps what it is
given and may deliver any of it at any time, again, or never. What is sent is noted with
its cause, which is the `SendTo` call of the client that it goes back to on the way out,
and the packet of a peer on the way in.
-/

namespace Libjingle.Relay

open Libjingle.Stun Libjingle.Std

structure Caused (α : Type) where
  value : α
  cause : Option Nat
  deriving DecidableEq, Repr

structure Network where
  port : RelayPort
  server : RelayServer
  toServer : List (Caused Datagram)
  toPort : List (Caused Datagram)
  /-- What `SendTo` was called with. -/
  calls : List Payload
  peerPackets : List Payload
  /-- What the server has sent from its external socket. -/
  transmitted : List (Caused Datagram)
  /-- What the port has passed on. -/
  delivered : List (Caused Payload)

/-- A payload for an IPv4 address, or from one, that cannot be taken for a message of the
relay. -/
structure Payload.Plain (payload : Payload) : Prop where
  length : payload.bytes.length ≤ 60000
  cookie : hasMagicCookie payload.bytes = false
  addr : payload.addr.ip.isV4 = true

instance (payload : Payload) : Decidable payload.Plain :=
  decidable_of_iff (payload.bytes.length ≤ 60000 ∧ hasMagicCookie payload.bytes = false ∧
      payload.addr.ip.isV4 = true)
    ⟨fun ⟨length, cookie, addr⟩ => ⟨length, cookie, addr⟩,
      fun plain => ⟨plain.length, plain.cookie, plain.addr⟩⟩

namespace Network

def new (username : List UInt8) (serverAddr : List SocketAddress)
    (externalSocket : SocketAddress) : Network where
  port := .new username serverAddr
  server := .new externalSocket
  toServer := []
  toPort := []
  calls := []
  peerPackets := []
  transmitted := []
  delivered := []

inductive Event where
  /-- A call of `SendTo`, whose last argument is `payload`. -/
  | sendTo (call : Payload) (payload : Bool) (env : Env)
  | port (input : RelayPort.Input) (env : Env)
  /-- A packet that the port has sent arrives, or one that the server has sent. -/
  | toServer (packet : Nat) (now : UInt32)
  | toPort (packet : Nat) (env : Env)
  /-- A packet of a peer arrives at the external socket. -/
  | peer (packet : Payload) (now : UInt32)
  | timer (username : List UInt8) (now : UInt32)
  | dispose (username : List UInt8)

def portSends (s : Network) (result : RelayPort × List Datagram) (cause : Option Nat) : Network :=
  { s with
    port := result.1
    toServer := s.toServer ++ result.2.map fun sent => ⟨sent, cause⟩ }

/-- The server handles an input, and what it sends goes out or to the port. -/
def serverSends (s : Network) (input : RelayServer.Input) (outside inside : Option Nat) :
    Network :=
  let result := s.server.step input
  let out := result.2.filter fun d => d.socket = s.server.externalSocket
  let back := result.2.filter fun d => d.socket ≠ s.server.externalSocket
  { s with
    server := result.1
    transmitted := s.transmitted ++ out.map fun d => ⟨d, outside⟩
    toPort := s.toPort ++ back.map fun d => ⟨d, inside⟩ }

def step (s : Network) : Event → Network
  | .sendTo call payload env =>
      { s.portSends (s.port.sendTo call.bytes call.addr payload env) (some s.calls.length) with
        calls := s.calls ++ [call] }
  | .port input env => s.portSends (s.port.step input env) none
  | .toServer packet now =>
      match s.toServer[packet]? with
      | none => s
      | some ⟨d, cause⟩ =>
          s.serverSends (.packet ⟨d.socket, d.destination⟩ d.bytes now) cause none
  | .toPort packet env =>
      match s.toPort[packet]? with
      | none => s
      | some ⟨d, cause⟩ =>
          let (port, payload) := s.port.onReadPacket d.destination d.bytes env
          { s with
            port
            delivered := s.delivered ++ payload.toList.map fun payload => ⟨payload, cause⟩ }
  | .peer packet now =>
      { s.serverSends (.packet ⟨packet.addr, s.server.externalSocket⟩ packet.bytes now) none
          (some s.peerPackets.length) with
        peerPackets := s.peerPackets ++ [packet] }
  | .timer username now => s.serverSends (.timer username now) none none
  | .dispose username => s.serverSends (.dispose username) none none

/-- The factory does not give an address that is in use. -/
def FreshSocket (s : Network) (env : Env) : Prop :=
  ∀ e ∈ s.port.entries, ∀ c ∈ e.connection, env.socket ≠ some c.socket

instance (s : Network) (env : Env) : Decidable (s.FreshSocket env) :=
  inferInstanceAs (Decidable (∀ e ∈ s.port.entries, ∀ c ∈ e.connection,
    env.socket ≠ some c.socket))

/-- Payloads are plain, and those of peers do not come from the address that stands for any. -/
def Admitted (s : Network) : Event → Prop
  | .sendTo call _ env => call.Plain ∧ s.FreshSocket env
  | .port _ env => s.FreshSocket env
  | .toPort _ env => s.FreshSocket env
  | .peer packet _ => packet.Plain ∧ packet.addr.isAny = false
  | .toServer _ _ => True
  | .timer _ _ => True
  | .dispose _ => True

instance (s : Network) (event : Event) : Decidable (s.Admitted event) := by
  cases event <;> unfold Admitted <;> infer_instance

/-- What is transmitted is what the client called `SendTo` with, and what is delivered is
what came from a peer. -/
structure Agrees (s : Network) : Prop where
  transmitted : ∀ t ∈ s.transmitted, ∃ call, t.cause = some call ∧
    s.calls[call]? = some ⟨t.value.bytes, t.value.destination⟩
  delivered : ∀ d ∈ s.delivered, ∃ packet, d.cause = some packet ∧
    s.peerPackets[packet]? = some d.value

end Network

end Libjingle.Relay

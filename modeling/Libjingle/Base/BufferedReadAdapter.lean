import Libjingle.Std.Incremental
import Libjingle.Std.Trace

/-!
# `BufferedReadAdapter`

`talk/base/socketadapters.cc`: an adapter that keeps what it reads in a buffer and
hands it to its subclass until the handshake is over. A subclass is given by its
handlers; the calls they make on the base class and the signals they send are
listed in order.
-/

namespace Libjingle.Base

open Libjingle.Std

/-- The size that both proxy adapters give to their buffer. -/
def handshakeBufferSize : Nat := 1024

/-- A call of a subclass on its base class, or a signal. -/
inductive BaseCall
  | bufferInput (on : Bool)
  | directSend (bytes : List UInt8)
  | connect
  | close
  | signalConnectEvent
  | signalReadEvent
  | signalCloseEvent (error : Int)
  deriving DecidableEq, Repr

inductive ConnState
  | closed
  | connecting
  | connected
  deriving DecidableEq, Repr

/-- The socket under the adapter, with the bytes that have arrived. -/
structure UnderlyingSocket where
  state : ConnState
  pending : List UInt8 := []
  deriving DecidableEq, Repr

namespace UnderlyingSocket

/-- `Recv` takes what has arrived, up to `cb` bytes and to what the socket hands out
this time. It fails when there is nothing. -/
def recv (u : UnderlyingSocket) (cb limit : Nat) : Option (List UInt8) × UnderlyingSocket :=
  if u.pending = [] then (none, u)
  else (some (u.pending.take (min cb limit)), { u with pending := u.pending.drop (min cb limit) })

/-- Closing forgets what has arrived. -/
def apply (u : UnderlyingSocket) : BaseCall → UnderlyingSocket
  | .connect => { u with state := .connecting }
  | .close => { state := .closed, pending := [] }
  | _ => u

end UnderlyingSocket

/-- What `ProcessInput` leaves: the state of the subclass, the rest of the buffer and
the calls it has made. -/
structure ProcessedInput (σ : Type) where
  state : σ
  left : List UInt8
  calls : List BaseCall
  deriving DecidableEq, Repr

structure ProxyProtocol (σ : Type) where
  onConnectEvent : σ → σ × List BaseCall
  processInput : σ → List UInt8 → ProcessedInput σ

structure BufferedReadAdapter (σ : Type) where
  state : σ
  buffer : List UInt8 := []
  buffering : Bool
  deriving DecidableEq, Repr

namespace BufferedReadAdapter

variable {σ : Type}

/-- `buffering_` after a call. -/
def buffers (buffering : Bool) : BaseCall → Bool
  | .bufferInput on => on
  | _ => buffering

/-- `Recv` returns the bytes it stores, or nothing when it fails. -/
def recv (a : BufferedReadAdapter σ) (u : UnderlyingSocket) (cb limit : Nat) :
    Option (List UInt8) × BufferedReadAdapter σ × UnderlyingSocket :=
  if a.buffering then (none, a, u)
  else
    let read := a.buffer.take cb
    let a := { a with buffer := a.buffer.drop cb }
    match u.recv (cb - read.length) limit with
    | (none, u) => (none, a, u)
    | (some bytes, u) => (some (read ++ bytes), a, u)

/-- `OnReadEvent`, with what was read from the socket. -/
def onReadEvent (P : ProxyProtocol σ) (a : BufferedReadAdapter σ) (u : UnderlyingSocket)
    (limit : Nat) : List UInt8 × BufferedReadAdapter σ × UnderlyingSocket × List BaseCall :=
  if ¬ a.buffering then ([], a, u, [.signalReadEvent])
  else
    -- Input buffer overflow
    let buffer := if handshakeBufferSize ≤ a.buffer.length then [] else a.buffer
    match u.recv (handshakeBufferSize - buffer.length) limit with
    | (none, u) => ([], { a with buffer }, u, [])
    | (some bytes, u) =>
      let out := P.processInput a.state (buffer ++ bytes)
      (bytes,
        { state := out.state, buffer := out.left, buffering := out.calls.foldl buffers a.buffering },
        out.calls.foldl UnderlyingSocket.apply u, out.calls)

def onConnectEvent (P : ProxyProtocol σ) (a : BufferedReadAdapter σ) (u : UnderlyingSocket) :
    BufferedReadAdapter σ × UnderlyingSocket × List BaseCall :=
  let (state, calls) := P.onConnectEvent a.state
  ({ a with state, buffering := calls.foldl buffers a.buffering },
    calls.foldl UnderlyingSocket.apply u, calls)

end BufferedReadAdapter

/-! ## An adapter at work -/

/-- An adapter over its socket. Since the socket connected last, the subclass started
in `origin`, the stream so far is `received` and the bytes that have arrived, and
`delivered` are the bytes that successful calls of `Recv` have reported. -/
structure ProxiedSocket (σ : Type) where
  adapter : BufferedReadAdapter σ
  socket : UnderlyingSocket
  origin : σ
  received : List UInt8 := []
  delivered : List UInt8 := []
  deriving DecidableEq, Repr

inductive ProxyStep
  | connectEvent
  | arrive (bytes : List UInt8)
  | readEvent (limit : Nat)
  | recv (cb limit : Nat)
  deriving DecidableEq, Repr

namespace ProxiedSocket

variable {σ : Type} (P : ProxyProtocol σ)

/-- Before the connection is made. -/
def start (state : σ) (buffering : Bool) : ProxiedSocket σ where
  adapter := { state, buffering }
  socket := { state := .connecting }
  origin := state

/-- What the socket has delivered since it connected, and what it has yet to. -/
def stream (c : ProxiedSocket σ) : List UInt8 :=
  c.received ++ c.socket.pending

def step (c : ProxiedSocket σ) : ProxyStep → ProxiedSocket σ
  | .connectEvent =>
    if c.socket.state ≠ .connecting then c
    else
      let u := { c.socket with state := .connected }
      let (adapter, socket, _) := c.adapter.onConnectEvent P u
      { adapter, socket, origin := adapter.state, received := adapter.buffer, delivered := [] }
  | .arrive bytes =>
    if c.socket.state ≠ .connected then c
    else { c with socket := { c.socket with pending := c.socket.pending ++ bytes } }
  | .readEvent limit =>
    if c.socket.state ≠ .connected then c
    else
      let (bytes, adapter, socket, _) := c.adapter.onReadEvent P c.socket limit
      { c with adapter, socket, received := c.received ++ bytes }
  | .recv cb limit =>
    let (result, adapter, socket) := c.adapter.recv c.socket cb limit
    let taken := c.socket.pending.take (c.socket.pending.length - socket.pending.length)
    { c with
      adapter, socket
      received := c.received ++ taken
      delivered := c.delivered ++ result.getD [] }

abbrev run (c : ProxiedSocket σ) (steps : List ProxyStep) : ProxiedSocket σ :=
  runInputs (step P) c steps

end ProxiedSocket

end Libjingle.Base

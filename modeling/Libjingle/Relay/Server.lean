import Libjingle.Relay.Messages
import Libjingle.Std.Registry

/-!
# `RelayServer`

`talk/p2p/base/relayserver.cc`, with one external socket. A connection is one remote
address on one of the sockets of the server; it belongs to a binding, which lists it
as internal or external, and it is registered under its pair of addresses.

A packet comes with the time of its arrival, of the 32-bit clock. The server answers
with the datagrams that it sends.
-/

namespace Libjingle.Relay

open Libjingle.Stun Libjingle.Std

/-- `SocketAddressPair`: a remote address, and that of the socket. -/
structure AddressPair where
  source : SocketAddress
  destination : SocketAddress
  deriving DecidableEq, Repr

structure RelayServerConnection where
  /-- The username of the binding. -/
  binding : List UInt8
  addrPair : AddressPair
  locked : Bool
  defaultDestination : SocketAddress
  deriving DecidableEq, Repr

structure RelayServerBinding where
  lifetime : UInt32
  lastUsed : UInt32
  internalConnections : List Nat
  externalConnections : List Nat
  /-- `SignalTimeout` was raised, and the disposal is pending. -/
  disposing : Bool
  deriving DecidableEq, Repr

structure RelayServer where
  externalSocket : SocketAddress
  bindings : List UInt8 → Option RelayServerBinding
  connections : Registry AddressPair RelayServerConnection

/-- `MAX_LIFETIME`, in milliseconds. -/
def maxLifetime : UInt32 := 15 * 60 * 1000

def usernameLength : Nat := 16

/-- To the remote address of a pair, through its socket. -/
def AddressPair.send (ap : AddressPair) (bytes : List UInt8) : Datagram :=
  ⟨ap.destination, ap.source, bytes⟩

/-- The `Send` of an internal connection, which wraps what is not from the address that
the client knows. -/
def RelayServerConnection.sendFrom (conn : RelayServerConnection) (bytes : List UInt8)
    (fromAddr : SocketAddress) : Datagram :=
  if conn.locked ∧ fromAddr = conn.defaultDestination then conn.addrPair.send bytes
  else conn.addrPair.send (dataIndication bytes fromAddr).write

/-- The static `HandleStun`: a message with a username, or the error that is sent. -/
def parseStun (bytes : List UInt8) : Except Message (List UInt8 × Message) :=
  match Message.new.read bytes with
  | (false, msg, _) => .error (stunError msg 400 "Bad Request")
  | (true, msg, _) =>
      match msg.getByteString AttributeType.username with
      | none => .error (stunError msg 432 "Missing Username")
      | some username => .ok (username, msg)

namespace RelayServer

def new (externalSocket : SocketAddress) : RelayServer where
  externalSocket := externalSocket
  bindings _ := none
  connections := .empty

def connection (s : RelayServer) (conn : Nat) : Option RelayServerConnection :=
  s.connections.objects conn

/-- `connections_.find`. -/
def find (s : RelayServer) (ap : AddressPair) : Option Nat :=
  s.connections.index ap

def modifyBinding (s : RelayServer) (username : List UInt8)
    (f : RelayServerBinding → RelayServerBinding) : RelayServer :=
  { s with bindings := Function.update s.bindings username ((s.bindings username).map f) }

def noteUsed (s : RelayServer) (username : List UInt8) (now : UInt32) : RelayServer :=
  s.modifyBinding username fun b => { b with lastUsed := now }

/-- A new connection, which is listed by its binding and registered. -/
def addConnection (s : RelayServer) (conn : RelayServerConnection)
    (list : RelayServerBinding → RelayServerBinding) (now : UInt32) : RelayServer :=
  { (s.noteUsed conn.binding now).modifyBinding conn.binding list with
    connections := s.connections.add (·.addrPair) conn }

def addInternalConnection (s : RelayServer) (username : List UInt8) (ap : AddressPair)
    (now : UInt32) : RelayServer :=
  s.addConnection ⟨username, ap, false, .nil⟩ (fun b =>
    { b with internalConnections := b.internalConnections ++ [s.connections.next] }) now

def addExternalConnection (s : RelayServer) (username : List UInt8) (ap : AddressPair)
    (locked : Bool) (now : UInt32) : RelayServer :=
  s.addConnection ⟨username, ap, locked, .nil⟩ (fun b =>
    { b with externalConnections := b.externalConnections ++ [s.connections.next] }) now

def modifyConnection (s : RelayServer) (conn : Nat)
    (f : RelayServerConnection → RelayServerConnection) : RelayServer :=
  { s with connections := s.connections.modify conn f }

def lock (s : RelayServer) (conn : Nat) : RelayServer :=
  s.modifyConnection conn fun c => { c with locked := true }

/-- `GetInternalConnection`: one that is locked to the address, or the first. -/
def getInternalConnection (s : RelayServer) (username : List UInt8) (extAddr : SocketAddress) :
    Option Nat :=
  match s.bindings username with
  | none => none
  | some b =>
      match b.internalConnections.find? (fun conn =>
        (s.connection conn).any fun c => c.locked && extAddr = c.defaultDestination) with
      | some conn => some conn
      | none => b.internalConnections.head?

/-- `GetExternalConnection`, of the binding. -/
def getExternalConnection (s : RelayServer) (username : List UInt8) (extAddr : SocketAddress) :
    Option Nat :=
  match s.bindings username with
  | none => none
  | some b =>
      b.externalConnections.find? fun conn =>
        (s.connection conn).any fun c => extAddr = c.addrPair.source

/-- A packet of an external address goes to the internal connection for it. -/
def forward (s : RelayServer) (username : List UInt8) (bytes : List UInt8)
    (extAddr : SocketAddress) (now : UInt32) : RelayServer × List Datagram :=
  match (s.getInternalConnection username extAddr).bind s.connection with
  | none => (s, [])
  | some intConn => (s.noteUsed username now, [intConn.sendFrom bytes extAddr])

/-! ## Requests of the clients -/

/-- `HandleStunAllocate` of a connection. -/
def answerAllocate (s : RelayServer) (username : List UInt8) (ap : AddressPair)
    (request : Message) (now : UInt32) : RelayServer × List Datagram :=
  match s.bindings username with
  | none => (s, [])
  | some b =>
      (s.noteUsed username now,
        [ap.send (allocateResponse request s.externalSocket b.lifetime).write])

/-- The lifetime that a request asks for; the product is a `uint32`. -/
def requestedLifetime (request : Message) : UInt32 :=
  match request.getUInt32 AttributeType.lifetime with
  | none => maxLifetime
  | some value => min maxLifetime (value * 1000)

def addBinding (s : RelayServer) (username : List UInt8) (lifetime now : UInt32) : RelayServer :=
  { s with
    bindings := Function.update s.bindings username (some ⟨lifetime, now, [], [], false⟩) }

/-- `HandleStunAllocate` of a packet from an address that has no connection. -/
def handleStunAllocate (s : RelayServer) (bytes : List UInt8) (ap : AddressPair)
    (now : UInt32) : RelayServer × List Datagram :=
  match parseStun bytes with
  | .error response => (s, [ap.send response.write])
  | .ok (username, request) =>
      if request.type ≠ MessageType.allocateRequest then
        (s, [ap.send (stunError request 600 "Operation Not Supported").write])
      else
        let s :=
          match s.bindings username with
          | some _ => s
          | none => s.addBinding username (requestedLifetime request) now
        (s.addInternalConnection username ap now).answerAllocate username ap request now

/-- The external connection of a binding for an address, made if there is none. Whether
another binding has one is not asked. -/
def ensureExternalConnection (s : RelayServer) (username : List UInt8)
    (extAddr : SocketAddress) (now : UInt32) : RelayServer :=
  match s.getExternalConnection username extAddr with
  | some _ => s
  | none => s.addExternalConnection username ⟨extAddr, s.externalSocket⟩ false now

/-- Data for an external address, if that has sent something before. -/
def sendExternal (s : RelayServer) (username : List UInt8) (extAddr : SocketAddress)
    (bytes : List UInt8) (now : UInt32) : RelayServer × List Datagram :=
  match (s.getExternalConnection username extAddr).bind s.connection with
  | none => (s, [])
  | some extConn =>
      if extConn.locked then (s.noteUsed username now, [extConn.addrPair.send bytes])
      else (s, [])

/-- Lock the connection to the address, and say so. -/
def lockTo (s : RelayServer) (conn : Nat) (c : RelayServerConnection) (extAddr : SocketAddress)
    (request : Message) (now : UInt32) : RelayServer × List Datagram :=
  let locked := s.modifyConnection conn fun c =>
    { c with defaultDestination := extAddr, locked := true }
  (locked.noteUsed c.binding now, [c.addrPair.send (sendResponse request).write])

def handleStunSend (s : RelayServer) (conn : Nat) (c : RelayServerConnection)
    (request : Message) (now : UInt32) : RelayServer × List Datagram :=
  match request.getAddress AttributeType.destinationAddress,
      request.getByteString AttributeType.data with
  | some extAddr, some data =>
      let s := s.ensureExternalConnection c.binding extAddr now
      let (s, sent) := s.sendExternal c.binding extAddr data now
      match request.getUInt32 AttributeType.options with
      | none => (s, sent)
      | some options =>
          if options &&& 0x01 = 0 then (s, sent)
          else
            let (s, response) := s.lockTo conn c extAddr request now
            (s, sent ++ response)
  | _, _ => (s, [c.addrPair.send (stunError request 400 "Bad Request").write])

/-- `HandleStun` of a connection. -/
def handleStun (s : RelayServer) (conn : Nat) (c : RelayServerConnection) (bytes : List UInt8)
    (now : UInt32) : RelayServer × List Datagram :=
  match parseStun bytes with
  | .error response => (s, [c.addrPair.send response.write])
  | .ok (username, request) =>
      if username ≠ c.binding then
        (s, [c.addrPair.send (stunError request 430 "Stale Credentials").write])
      else if request.type = MessageType.sendRequest then s.handleStunSend conn c request now
      else if request.type = MessageType.allocateRequest then
        s.answerAllocate c.binding c.addrPair request now
      else (s, [c.addrPair.send (stunError request 600 "Operation Not Supported").write])

/-! ## Packets -/

def onInternalPacket (s : RelayServer) (ap : AddressPair) (bytes : List UInt8) (now : UInt32) :
    RelayServer × List Datagram :=
  match s.find ap with
  | none => s.handleStunAllocate bytes ap now
  | some conn =>
      match s.connection conn with
      | none => (s, [])
      | some c =>
          if hasMagicCookie bytes then s.handleStun conn c bytes now
          else if c.locked then s.sendExternal c.binding c.defaultDestination bytes now
          else (s, [])

def onExternalPacket (s : RelayServer) (ap : AddressPair) (bytes : List UInt8) (now : UInt32) :
    RelayServer × List Datagram :=
  match s.find ap with
  | some conn =>
      match s.connection conn with
      | none => (s, [])
      | some c =>
          let (s, sent) := s.forward c.binding bytes ap.source now
          (s.lock conn, sent)
  | none =>
      -- The first packet is a STUN message whose username is that of a binding.
      match Message.new.read bytes with
      | (false, _, _) => (s, [])
      | (true, msg, _) =>
          match msg.getByteString AttributeType.username with
          | none => (s, [])
          | some username =>
              let username := username.take usernameLength
              match s.bindings username with
              | none => (s, [])
              | some _ =>
                  (s.addExternalConnection username ap true now).forward username bytes
                    ap.source now

/-! ## Lifetime -/

/-- `MSG_LIFETIME_TIMER` of a binding. -/
def onTimer (s : RelayServer) (username : List UInt8) (now : UInt32) : RelayServer :=
  s.modifyBinding username fun b =>
    if b.lastUsed + b.lifetime ≤ now then { b with disposing := true } else b

/-- `~RelayServerBinding`: its connections go, and what the map has under their pairs. -/
def destroyBinding (s : RelayServer) (username : List UInt8) (b : RelayServerBinding) :
    RelayServer :=
  { s with
    bindings := Function.update s.bindings username none
    connections := s.connections.removeAll (·.addrPair)
      (b.internalConnections ++ b.externalConnections) }

/-- The disposal of a binding is delivered. -/
def onDispose (s : RelayServer) (username : List UInt8) : RelayServer :=
  match s.bindings username with
  | none => s
  | some b => if b.disposing then s.destroyBinding username b else s

inductive Input where
  /-- From the source of the pair, to the socket of its destination. -/
  | packet (ap : AddressPair) (bytes : List UInt8) (now : UInt32)
  | timer (username : List UInt8) (now : UInt32)
  | dispose (username : List UInt8)

def step (s : RelayServer) (input : Input) : RelayServer × List Datagram :=
  match input with
  | .packet ap bytes now =>
      if ap.destination = s.externalSocket then s.onExternalPacket ap bytes now
      else s.onInternalPacket ap bytes now
  | .timer username now => (s.onTimer username now, [])
  | .dispose username => (s.onDispose username, [])

/-- The server after an input. -/
def next (s : RelayServer) (input : Input) : RelayServer :=
  (s.step input).1

end RelayServer

end Libjingle.Relay

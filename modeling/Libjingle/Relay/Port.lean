import Libjingle.Relay.Messages

/-!
# `RelayPort`

`talk/p2p/base/relayport.cc`, for servers over UDP. A port has an entry for each remote
address, with a socket of its own; an entry whose connection is locked sends what is for
its address without a wrapper. The old connection of an entry is disposed of at once, and
a socket takes what it is given.
-/

namespace Libjingle.Relay

open Libjingle.Stun

/-- A payload, and the remote address that it is for or comes from. -/
structure Payload where
  bytes : List UInt8
  addr : SocketAddress
  deriving DecidableEq, Repr

/-- Of `CreateRandomString`. -/
def TransactionId : Type :=
  { id : List UInt8 // id.length = transactionIdLength }

/-- What a call is given: the time, a socket of the factory under its local address, and the
random ids of a request and of a SEND message. -/
structure Env where
  now : UInt32
  socket : Option SocketAddress
  requestId : TransactionId
  messageId : TransactionId

structure AllocateRequest where
  id : List UInt8
  startTime : UInt32
  count : Nat
  timeout : Bool
  deriving DecidableEq, Repr

/-- `GetNextDelay`, which counts how often the request has been sent. -/
def AllocateRequest.sent (r : AllocateRequest) : AllocateRequest :=
  { r with count := r.count + 1, timeout := r.timeout || r.count + 1 = 5 }

/-- With the requests of its `StunRequestManager`. -/
structure RelayConnection where
  /-- The local address of the socket. -/
  socket : SocketAddress
  /-- That of the server. -/
  address : SocketAddress
  requests : List AllocateRequest
  deriving DecidableEq, Repr

structure RelayEntry where
  extAddr : SocketAddress
  serverIndex : Nat
  connected : Bool
  locked : Bool
  connection : Option RelayConnection
  deriving DecidableEq, Repr

inductive SocketError where
  | none
  | wouldBlock
  deriving DecidableEq, Repr

structure RelayPort where
  username : List UInt8
  serverAddr : List SocketAddress
  entries : List RelayEntry
  /-- The addresses of the candidates. -/
  candidates : List SocketAddress
  ready : Bool
  error : SocketError
  deriving DecidableEq, Repr

/-- `kRetryTimeout`, in milliseconds. -/
def retryTimeout : Int := 50 * 1000

namespace RelayConnection

def send (c : RelayConnection) (bytes : List UInt8) : Datagram :=
  ⟨c.socket, c.address, bytes⟩

def removeRequest (c : RelayConnection) (id : List UInt8) : RelayConnection :=
  { c with requests := c.requests.filter (·.id ≠ id) }

def sendAllocateRequest (c : RelayConnection) (env : Env) : RelayConnection :=
  let request : AllocateRequest := ⟨env.requestId.1, env.now, 0, false⟩
  { c with requests := (c.removeRequest request.id).requests ++ [request] }

def countRequest (c : RelayConnection) (id : List UInt8) : RelayConnection :=
  { c with requests := c.requests.map fun r => if r.id = id then r.sent else r }

end RelayConnection

namespace RelayEntry

def new (extAddr : SocketAddress) (serverIndex : Nat) : RelayEntry where
  extAddr := extAddr
  serverIndex := serverIndex
  connected := false
  locked := false
  connection := none

/-- Where there is no socket, `kMessageConnectTimeout` is posted. -/
def connect (e : RelayEntry) (serverAddr : List SocketAddress) (env : Env) : RelayEntry :=
  if e.connected then e
  else
    match serverAddr[e.serverIndex]? with
    | none => e
    | some address =>
        match env.socket with
        | none => { e with connection := none }
        | some socket =>
            { e with
              connection := some (RelayConnection.sendAllocateRequest ⟨socket, address, []⟩ env) }

/-- The next server is tried, if it is the current connection that has failed. -/
def handleConnectFailure (e : RelayEntry) (socket : Option SocketAddress)
    (serverAddr : List SocketAddress) (env : Env) : RelayEntry :=
  if socket = none ∨ socket = e.connection.map (·.socket) then
    { e with serverIndex := e.serverIndex + 1 }.connect serverAddr env
  else e

/-- `OnMessage`, of `kMessageConnectTimeout`. -/
def onMessage (e : RelayEntry) (serverAddr : List SocketAddress) (env : Env) : RelayEntry :=
  match e.connection with
  | some c => e.handleConnectFailure (some c.socket) serverAddr env
  | none => e.handleConnectFailure none serverAddr env

def removeRequest (e : RelayEntry) (id : List UInt8) : RelayEntry :=
  { e with connection := e.connection.map fun c => c.removeRequest id }

def countRequest (e : RelayEntry) (id : List UInt8) : RelayEntry :=
  { e with connection := e.connection.map fun c => c.countRequest id }

/-- An entry without an address gets that of a payload. -/
def setAddress (e : RelayEntry) (addr : SocketAddress) (payload : Bool) : RelayEntry :=
  if e.extAddr.isAny ∧ payload then { e with extAddr := addr } else e

def scheduleKeepAlive (e : RelayEntry) (env : Env) : RelayEntry :=
  { e with connection := e.connection.map fun c => c.sendAllocateRequest env }

def sendPacket (e : RelayEntry) (bytes : List UInt8) : List Datagram :=
  (e.connection.map fun c => c.send bytes).toList

/-- A wrapped packet for the address of the entry asks for a lock. -/
def sendTo (e : RelayEntry) (username data : List UInt8) (addr : SocketAddress) (env : Env) :
    List Datagram :=
  if e.locked ∧ e.extAddr = addr then e.sendPacket data
  else
    e.sendPacket (sendRequest env.messageId.1 username addr (e.extAddr = addr) data).write

end RelayEntry

namespace RelayPort

def new (username : List UInt8) (serverAddr : List SocketAddress) : RelayPort where
  username := username
  serverAddr := serverAddr
  entries := [.new .nil 0]
  candidates := []
  ready := false
  error := .none

def modifyEntry (s : RelayPort) (i : Nat) (f : RelayEntry → RelayEntry) : RelayPort :=
  { s with entries := s.entries.modify i f }

def addExternalAddress (s : RelayPort) (addr : SocketAddress) : RelayPort :=
  if addr ∈ s.candidates then s else { s with candidates := s.candidates ++ [addr] }

def setReady (s : RelayPort) : RelayPort :=
  { s with ready := true }

def prepareAddress (s : RelayPort) (env : Env) : RelayPort :=
  { s.modifyEntry 0 fun e => e.connect s.serverAddr env with ready := false }

/-- The entry for an address, which is the first without one for a payload. -/
def findEntry (s : RelayPort) (addr : SocketAddress) (payload : Bool) : Option Nat :=
  s.entries.findIdx? fun e => (e.extAddr.isAny && payload) || e.extAddr = addr

/-- The entry for an address; a payload makes a new one where there is none. -/
def entryFor (s : RelayPort) (addr : SocketAddress) (payload : Bool) (env : Env) :
    RelayPort × Option Nat :=
  match s.findEntry addr payload with
  | some i => (s.modifyEntry i fun e => e.setAddress addr payload, some i)
  | none =>
      if payload then
        let entry := RelayEntry.new addr ((s.entries.head?.map (·.serverIndex)).getD 0)
        ({ s with entries := s.entries ++ [entry.connect s.serverAddr env] },
          some s.entries.length)
      else (s, none)

/-- An entry if it is connected, or else the first. -/
def connectedEntry (s : RelayPort) (entry : Option Nat) : Option RelayEntry :=
  match (entry.bind fun i => s.entries[i]?).filter (·.connected) with
  | some e => some e
  | none => s.entries.head?.filter (·.connected)

def sendTo (s : RelayPort) (data : List UInt8) (addr : SocketAddress) (payload : Bool)
    (env : Env) : RelayPort × List Datagram :=
  let (s, entry) := s.entryFor addr payload env
  match s.connectedEntry entry with
  | none => ({ s with error := .wouldBlock }, [])
  | some e => (s, e.sendTo s.username data addr env)

/-! ## Requests -/

/-- `MSG_STUN_SEND` of a request of an entry. -/
def onStunSend (s : RelayPort) (i : Nat) (id : List UInt8) (env : Env) :
    RelayPort × List Datagram :=
  match (s.entries[i]?).bind (·.connection) with
  | none => (s, [])
  | some c =>
      match c.requests.find? (·.id = id) with
      | none => (s, [])
      | some r =>
          if r.timeout then
            (s.modifyEntry i fun e =>
              (e.removeRequest id).handleConnectFailure (some c.socket) s.serverAddr env, [])
          else
            (s.modifyEntry i fun e => e.countRequest id,
              [c.send (allocateRequest id s.username).write])

def onConnect (s : RelayPort) (i : Nat) (mapped : SocketAddress) : RelayPort :=
  ((s.modifyEntry i fun e => { e with connected := true }).addExternalAddress mapped).setReady

/-- `OnResponse`. A mapped address that is not of IPv4 does not connect the entry. -/
def onResponse (s : RelayPort) (i : Nat) (msg : Message) (env : Env) : RelayPort :=
  let s :=
    match msg.getAddress AttributeType.mappedAddress with
    | some ⟨.v4 addr, port⟩ => s.onConnect i ⟨.v4 addr, port⟩
    | _ => s
  s.modifyEntry i fun e => e.scheduleKeepAlive env

def onErrorResponse (s : RelayPort) (i : Nat) (r : AllocateRequest) (env : Env) : RelayPort :=
  if (env.now - r.startTime).toBitVec.toInt ≤ retryTimeout then
    s.modifyEntry i fun e => e.scheduleKeepAlive env
  else s

/-- `CheckResponse`, if the message is for a request of the connection. -/
def checkResponse (s : RelayPort) (i : Nat) (c : RelayConnection) (msg : Message) (env : Env) :
    Option RelayPort :=
  let delete (s : RelayPort) := s.modifyEntry i fun e => e.removeRequest msg.transactionId
  match c.requests.find? (·.id = msg.transactionId) with
  | none => none
  | some r =>
      if msg.type = responseType MessageType.allocateRequest then
        some (delete (s.onResponse i msg env))
      else if msg.type = errorResponseType MessageType.allocateRequest then
        some (delete (s.onErrorResponse i r env))
      else none

/-- What an entry makes of a message of the server. -/
def onMessageRead (s : RelayPort) (i : Nat) (c : RelayConnection) (msg : Message) (env : Env) :
    RelayPort × Option Payload :=
  match s.checkResponse i c msg env with
  | some s => (s, none)
  | none =>
      if msg.type = MessageType.sendResponse then
        match msg.getUInt32 AttributeType.options with
        | some options =>
            if options &&& 0x1 ≠ 0 then (s.modifyEntry i fun e => { e with locked := true }, none)
            else (s, none)
        | none => (s, none)
      else if msg.type ≠ MessageType.dataIndication then (s, none)
      else
        match msg.getAddress AttributeType.sourceAddress2,
            msg.getByteString AttributeType.data with
        | some ⟨.v4 addr, port⟩, some bytes => (s, some ⟨bytes, ⟨.v4 addr, port⟩⟩)
        | _, _ => (s, none)

/-- The entry that has a socket. -/
def entryOf (s : RelayPort) (socket : SocketAddress) : Option Nat :=
  s.entries.findIdx? fun e => e.connection.any fun c => c.socket = socket

/-- `RelayEntry::OnReadPacket`, with what it passes to that of the port. -/
def onReadPacket (s : RelayPort) (socket : SocketAddress) (bytes : List UInt8) (env : Env) :
    RelayPort × Option Payload :=
  match s.entryOf socket with
  | none => (s, none)
  | some i =>
      match s.entries[i]? with
      | none => (s, none)
      | some e =>
          match e.connection with
          | none => (s, none)
          | some c =>
              if ¬ hasMagicCookie bytes then
                if e.locked then (s, some ⟨bytes, e.extAddr⟩) else (s, none)
              else
                match Message.new.read bytes with
                | (false, _, _) => (s, none)
                | (true, msg, _) => s.onMessageRead i c msg env

/-- A call of the allocator, and the messages that the port posts to itself. -/
inductive Input where
  | prepareAddress
  | stunSend (entry : Nat) (id : List UInt8)
  | connectTimeout (entry : Nat)
  deriving DecidableEq, Repr

def step (s : RelayPort) (input : Input) (env : Env) : RelayPort × List Datagram :=
  match input with
  | .prepareAddress => (s.prepareAddress env, [])
  | .stunSend entry id => s.onStunSend entry id env
  | .connectTimeout entry => (s.modifyEntry entry fun e => e.onMessage s.serverAddr env, [])

end RelayPort

end Libjingle.Relay

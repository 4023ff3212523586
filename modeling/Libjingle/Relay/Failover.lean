import Libjingle.Relay.Port
import Libjingle.Std.Trace

/-!
# The servers of a relay entry

`RelayEntry` of `talk/p2p/base/relayport.cc`, with its attempts to reach the servers of a
list, one after another. An attempt fails when its socket cannot be created or closes,
when its allocate requests time out, or when the message that it has posted is
delivered; such a message is not taken back when the attempt is over.

A connection that is replaced is disposed of by a message, and its socket is still
heard of until then.
-/

namespace Libjingle.Relay.Failover

open Libjingle.Std Libjingle.Stun

inductive ProtocolType where
  | udp
  | tcp
  | ssltcp
  deriving DecidableEq, Repr

structure ProtocolAddress where
  address : SocketAddress
  proto : ProtocolType
  deriving DecidableEq, Repr

structure RelayConnection where
  /-- The attempt that has made it, which its socket is known by. -/
  socket : Nat
  protocolAddress : ProtocolAddress
  requests : List AllocateRequest
  /-- The socket has signalled that it is closed. -/
  closed : Bool
  deriving DecidableEq, Repr

inductive Signal where
  | connectFailure (ra : ProtocolAddress)
  | softTimeout (ra : ProtocolAddress)
  /-- An allocate request on a connection to this server has succeeded. -/
  | allocated (ra : ProtocolAddress)
  deriving DecidableEq, Repr

structure RelayEntry where
  serverAddr : List ProtocolAddress
  serverIndex : Nat
  connected : Bool
  currentConnection : Option RelayConnection
  /-- Disposed of, but not deleted yet. -/
  disposed : List RelayConnection
  /-- The attempts whose `kMessageConnectTimeout` is on its way. -/
  timeouts : List Nat
  /-- The server index of each attempt. -/
  attempts : List Nat
  /-- The attempts whose failure has come to notice. -/
  failed : List Nat
  signals : List Signal
  /-- A missing current connection has been looked at. -/
  crashed : Bool
  deriving DecidableEq, Repr

/-- What a call is given: the time, whether a socket can be created, and a random id. -/
structure Call where
  now : UInt32
  created : Bool
  requestId : TransactionId

namespace RelayConnection

def removeRequest (c : RelayConnection) (id : List UInt8) : RelayConnection :=
  { c with requests := c.requests.filter (·.id ≠ id) }

def sendAllocateRequest (c : RelayConnection) (call : Call) : RelayConnection :=
  let request : AllocateRequest := ⟨call.requestId.1, call.now, 0, false⟩
  { c with requests := (c.removeRequest request.id).requests ++ [request] }

def countRequest (c : RelayConnection) (id : List UInt8) : RelayConnection :=
  { c with requests := c.requests.map fun r => if r.id = id then r.sent else r }

def findRequest (c : RelayConnection) (id : List UInt8) : Option AllocateRequest :=
  c.requests.find? (·.id = id)

end RelayConnection

namespace RelayEntry

def new (serverAddr : List ProtocolAddress) (serverIndex : Nat) : RelayEntry where
  serverAddr := serverAddr
  serverIndex := serverIndex
  connected := false
  currentConnection := none
  disposed := []
  timeouts := []
  attempts := []
  failed := []
  signals := []
  crashed := false

def signal (e : RelayEntry) (s : Signal) : RelayEntry :=
  { e with signals := e.signals ++ [s] }

def connect (e : RelayEntry) (call : Call) : RelayEntry :=
  if e.connected then e
  else
    match e.serverAddr[e.serverIndex]? with
    | none => e
    | some ra =>
        let socket := e.attempts.length
        let e :=
          { e with
            disposed := e.disposed ++ e.currentConnection.toList
            currentConnection := none
            attempts := e.attempts ++ [e.serverIndex] }
        if ¬ call.created then { e with timeouts := e.timeouts ++ [socket] }
        else
          let c : RelayConnection := ⟨socket, ra, [], false⟩
          if ra.proto = .tcp ∨ ra.proto = .ssltcp then
            { e with currentConnection := some c, timeouts := e.timeouts ++ [socket] }
          else { e with currentConnection := some (c.sendAllocateRequest call) }

def onConnect (e : RelayEntry) (c : RelayConnection) : RelayEntry :=
  { e with connected := true }.signal (.allocated c.protocolAddress)

def scheduleKeepAlive (e : RelayEntry) (call : Call) : RelayEntry :=
  { e with currentConnection := e.currentConnection.map (·.sendAllocateRequest call) }

/-- A socket that is not current may not have been deleted yet. -/
def handleConnectFailure (e : RelayEntry) (socket : Option Nat) (call : Call) : RelayEntry :=
  match socket, e.currentConnection with
  | some _, none => { e with crashed := true }
  | some socket, some c =>
      if socket = c.socket then
        let e := e.signal (.connectFailure c.protocolAddress)
        { e with serverIndex := e.serverIndex + 1 }.connect call
      else e
  | none, current =>
      let e := match current with
        | some c => e.signal (.connectFailure c.protocolAddress)
        | none => e
      { e with serverIndex := e.serverIndex + 1 }.connect call

/-- `OnMessage`, of `kMessageConnectTimeout`. -/
def onMessage (e : RelayEntry) (call : Call) : RelayEntry :=
  match e.currentConnection with
  | some c =>
      (e.signal (.softTimeout c.protocolAddress)).handleConnectFailure (some c.socket) call
  | none => e.handleConnectFailure none call

def onSocketConnect (e : RelayEntry) (call : Call) : RelayEntry :=
  { e with currentConnection := e.currentConnection.map (·.sendAllocateRequest call) }

/-- `OnResponse` of a request of the current connection. -/
def onResponse (e : RelayEntry) (c : RelayConnection) (msg : Message) (call : Call) :
    RelayEntry :=
  let e :=
    match msg.getAddress AttributeType.mappedAddress with
    | some ⟨.v4 _, _⟩ => e.onConnect c
    | _ => e
  e.scheduleKeepAlive call

def onErrorResponse (e : RelayEntry) (r : AllocateRequest) (call : Call) : RelayEntry :=
  if (call.now - r.startTime).toBitVec.toInt ≤ retryTimeout then e.scheduleKeepAlive call else e

def checkResponse (e : RelayEntry) (c : RelayConnection) (msg : Message) (call : Call) :
    RelayEntry :=
  let delete (e : RelayEntry) :=
    { e with currentConnection := e.currentConnection.map (·.removeRequest msg.transactionId) }
  match c.findRequest msg.transactionId with
  | none => e
  | some r =>
      if msg.type = responseType MessageType.allocateRequest then
        delete (e.onResponse c msg call)
      else if msg.type = errorResponseType MessageType.allocateRequest then
        delete (e.onErrorResponse r call)
      else e

/-- `OnReadPacket`. Packets of other kinds are passed on. -/
def onReadPacket (e : RelayEntry) (socket : Nat) (bytes : List UInt8) (call : Call) :
    RelayEntry :=
  match e.currentConnection with
  | none => e
  | some c =>
      if socket ≠ c.socket ∨ c.closed then e
      else if ¬ hasMagicCookie bytes then e
      else
        match Message.new.read bytes with
        | (false, _, _) => e
        | (true, msg, _) => e.checkResponse c msg call

inductive Input where
  /-- A `kMessageConnectTimeout` that an attempt has posted is delivered. -/
  | connectTimeout (attempt : Nat)
  | socketConnect (socket : Nat)
  | socketClose (socket : Nat)
  | packet (socket : Nat) (bytes : List UInt8)
  /-- `MSG_STUN_SEND` of an allocate request. -/
  | stunSend (socket : Nat) (id : List UInt8)
  /-- The message that deletes a connection is delivered. -/
  | delete (socket : Nat)
  deriving DecidableEq, Repr

/-- The connections whose sockets are heard of. -/
def connections (e : RelayEntry) : List RelayConnection :=
  e.currentConnection.toList ++ e.disposed

def findConnection (e : RelayEntry) (socket : Nat) : Option RelayConnection :=
  e.connections.find? (·.socket = socket)

/-- A connection of the entry is acted on. -/
def modify (e : RelayEntry) (socket : Nat) (f : RelayConnection → RelayConnection) : RelayEntry :=
  let act c := if c.socket = socket then f c else c
  { e with
    currentConnection := e.currentConnection.map act
    disposed := e.disposed.map act }

/-- Only TCP sockets connect and close, and they close once. -/
def isOpen (c : RelayConnection) : Bool :=
  c.protocolAddress.proto ≠ .udp ∧ ¬ c.closed

/-- The attempt that an input reports as failed. -/
def reports (e : RelayEntry) : Input → Option Nat
  | .connectTimeout attempt => if attempt ∈ e.timeouts then some attempt else none
  | .socketClose socket =>
      if (e.findConnection socket).any isOpen then some socket else none
  | .stunSend socket id =>
      if ((e.findConnection socket).bind (·.findRequest id)).any (·.timeout) then some socket
      else none
  | _ => none

/-- The failure of an attempt comes to notice. -/
def note (e : RelayEntry) (attempt : Option Nat) : RelayEntry :=
  match attempt with
  | none => e
  | some attempt => { e with failed := e.failed ++ if attempt ∈ e.failed then [] else [attempt] }

def act (e : RelayEntry) (input : Input) (call : Call) : RelayEntry :=
  match input with
  | .connectTimeout attempt =>
      if attempt ∈ e.timeouts then
        { e with timeouts := e.timeouts.erase attempt }.onMessage call
      else e
  | .socketConnect socket =>
      if (e.findConnection socket).any isOpen then e.onSocketConnect call else e
  | .socketClose socket =>
      if (e.findConnection socket).any isOpen then
        (e.modify socket fun c => { c with closed := true }).handleConnectFailure (some socket) call
      else e
  | .packet socket bytes => e.onReadPacket socket bytes call
  | .stunSend socket id =>
      match (e.findConnection socket).bind (·.findRequest id) with
      | none => e
      | some r =>
          if r.timeout then
            (e.modify socket (·.removeRequest id)).handleConnectFailure (some socket) call
          else e.modify socket (·.countRequest id)
  | .delete socket => { e with disposed := e.disposed.filter (·.socket ≠ socket) }

/-- Nothing happens after a crash. -/
def step (e : RelayEntry) (input : Input × Call) : RelayEntry :=
  if e.crashed then e else (e.note (e.reports input.1)).act input.1 input.2

/-- An entry connects for the first time. -/
def start (serverAddr : List ProtocolAddress) (serverIndex : Nat) (call : Call) : RelayEntry :=
  (new serverAddr serverIndex).connect call

end RelayEntry

end Libjingle.Relay.Failover

import Libjingle.P2P.Channel
import Libjingle.P2P.PortMessages

/-!
# The endpoint of a channel

A channel with its ports: the packets that come in at a port go to the connection with
the address of the sender, or else to the port itself, which raises
`SignalUnknownAddress` for a valid request. What the ports send and what the connections
signal upwards is kept, and so are the pings that are made and the pings that are
counted as answered.
-/

namespace Libjingle.P2P

open Libjingle.Stun

/-- What happens to a channel apart from pings and packets. -/
inductive Internal (ρ : Type) where
  | connect
  | signalingReady
  | portReady (port : Port ρ)
  | portDestroyed (port : Nat)
  | candidate (remote : Candidate ρ)
  | connected (connection : Nat)
  | closed (connection : Nat)
  | destroyConnection (connection : Nat)
  | deleteConnection (connection : Nat)
  | sort
  | allocate
  | reset (connectRequested : Bool)

def Internal.event {ρ : Type} : Internal ρ → Channel.Event ρ
  | .connect => .connect
  | .signalingReady => .signalingReady
  | .portReady port => .portReady port
  | .portDestroyed port => .portDestroyed port
  | .candidate remote => .candidate remote
  | .connected connection => .connected connection
  | .closed connection => .closed connection
  | .destroyConnection connection => .destroyConnection connection
  | .deleteConnection connection => .deleteConnection connection
  | .sort => .sort
  | .allocate => .allocate
  | .reset connectRequested => .reset connectRequested

inductive Input (ρ : Type) where
  | internal (event : Internal ρ)
  /-- It is time for a ping, with the random id of the request. -/
  | ping (id : List UInt8)
  /-- The message of a ping request is delivered. -/
  | requestMessage (connection : Nat) (id : List UInt8)
  | receive (port : Port ρ) (address : SocketAddress) (data : List UInt8)

structure Endpoint (ρ : Type) where
  channel : Channel ρ
  /-- `username_frag_` of the ports. -/
  usernameFrag : Nat → List UInt8
  /-- A missing username has been looked at. -/
  crashed : Bool := false
  /-- What each port has sent, and where. -/
  sent : List (Nat × SocketAddress × List UInt8) := []
  /-- `SignalReadPacket` of the connections. -/
  payloads : List (Nat × List UInt8) := []
  /-- The connections that have been pinged, with the requests. -/
  pinged : List (Nat × Nat) := []
  /-- The requests whose responses have been counted. -/
  counted : List (Nat × Nat) := []

namespace Endpoint

variable {ρ : Type}

def new (incomingOnly : Bool) (usernameFrag : Nat → List UInt8) : Endpoint ρ where
  channel := .new incomingOnly
  usernameFrag := usernameFrag

def send (e : Endpoint ρ) (port : Nat) (addr : SocketAddress) (msg : Option Message) :
    Endpoint ρ :=
  { e with sent := e.sent ++ msg.toList.map fun msg => (port, addr, msg.write) }

section Steps

variable [Mul ρ] [LT ρ] [DecidableLT ρ]

def handle (e : Endpoint ρ) (event : Channel.Event ρ) (now : UInt32) : Endpoint ρ :=
  { e with channel := e.channel.step ⟨event, now⟩ }

/-- `StunRequestManager::CheckResponse`; all requests are binding requests. -/
def checkResponse (e : Endpoint ρ) (c : Connection ρ) (msg : Message) (now : UInt32) :
    Endpoint ρ :=
  let request := requestId msg.transactionId
  if msg.type = responseType MessageType.bindingRequest then
    let answered := (c.findRequest request).toList.map fun _ => (c.id, request)
    { e with counted := e.counted ++ answered }.handle (.packet c.id (.bindingResponse request)) now
  else if msg.type = errorResponseType MessageType.bindingRequest then
    e.handle (.packet c.id (.bindingErrorResponse request (getErrorCode msg))) now
  else e

/-- `Connection::OnReadPacket`, after `GetStunMessage`. -/
def onReadPacket (e : Endpoint ρ) (c : Connection ρ) (data : List UInt8) (received : Received)
    (now : UInt32) : Endpoint ρ :=
  match received with
  | .notStun =>
      let payload := if c.readState = .readable then [(c.id, data)] else []
      { e with payloads := e.payloads ++ payload }.handle (.packet c.id .data) now
  | .handled reply =>
      (e.send c.port.id c.remote.address reply).handle (.packet c.id .handled) now
  | .message msg remoteUsername =>
      if stdString remoteUsername ≠ c.remote.username then
        let reply := if msg.type = MessageType.bindingRequest then
            bindingErrorResponse msg stunErrorBadRequest stunErrorReasonBadRequest
          else none
        (e.send c.port.id c.remote.address reply).handle (.packet c.id .foreign) now
      else if msg.type = MessageType.bindingRequest then
        (e.send c.port.id c.remote.address (bindingResponse msg c.remote.address)).handle
          (.packet c.id .bindingRequest) now
      else e.checkResponse c msg now

/-- `OnUnknownAddress` with its reply. -/
def onUnknownAddress (e : Endpoint ρ) (port : Port ρ) (address : SocketAddress) (msg : Message)
    (remoteUsername : String) (now : UInt32) : Endpoint ρ :=
  let known := e.channel.remoteCandidates.any fun r => r.1.username = remoteUsername
  let reply :=
    if ¬ known then
      bindingErrorResponse msg stunErrorStaleCredentials stunErrorReasonStaleCredentials
    else if (e.channel.onUnknownAddress port address remoteUsername now).1 then
      bindingResponse msg address
    else bindingErrorResponse msg stunErrorServerError stunErrorReasonServerError
  (e.send port.id address reply).handle (.unknownAddress port address remoteUsername) now

/-- `Port::OnReadPacket`, after `GetStunMessage`. -/
def onReadUnknown (e : Endpoint ρ) (port : Port ρ) (address : SocketAddress) (received : Received)
    (now : UInt32) : Endpoint ρ :=
  match received with
  | .notStun => e
  | .handled reply => e.send port.id address reply
  | .message msg remoteUsername =>
      if msg.type = MessageType.bindingRequest then
        e.onUnknownAddress port address msg (stdString remoteUsername) now
      else e

def receive (e : Endpoint ρ) (port : Port ρ) (address : SocketAddress) (data : List UInt8)
    (now : UInt32) : Endpoint ρ :=
  match getStunMessage (e.usernameFrag port.id) data with
  | none => { e with crashed := true }
  | some received =>
      match e.channel.getConnection port.id address with
      | some c => e.onReadPacket c data received now
      | none => e.onReadUnknown port address received now

/-- The connection that `OnPing` chooses. -/
def nextPingable (e : Endpoint ρ) (now : UInt32) : Option Nat :=
  (e.channel.updateConnectionStates now).findNextPingableConnection now

def ping (e : Endpoint ρ) (id : List UInt8) (now : UInt32) : Endpoint ρ :=
  let request := requestId id
  let pinged := (e.nextPingable now).toList.map fun connection => (connection, request)
  { e with pinged := e.pinged ++ pinged }.handle (.ping request) now

/-- The ping that `StunRequest::OnMessage` sends, if it is the first time. -/
def pingToSend (e : Endpoint ρ) (connection : Nat) (id : List UInt8) :
    Option (Connection ρ × Message) := do
  let c ← e.channel.find connection
  let request ← c.findRequest (requestId id)
  if request.timeout then none
  else some (c, pingMessage c.remote.username (e.usernameFrag c.port.id) id)

def requestMessage (e : Endpoint ρ) (connection : Nat) (id : List UInt8) (now : UInt32) :
    Endpoint ρ :=
  let e := match e.pingToSend connection id with
    | none => e
    | some (c, msg) => e.send c.port.id c.remote.address (some msg)
  e.handle (.requestMessage connection (requestId id)) now

/-- An input at a time of the clock. Nothing happens after a crash. -/
def step (e : Endpoint ρ) (input : Input ρ × UInt32) : Endpoint ρ :=
  if e.crashed then e
  else
    match input.1 with
    | .internal event => e.handle event.event input.2
    | .ping id => e.ping id input.2
    | .requestMessage connection id => e.requestMessage connection id input.2
    | .receive port address data => e.receive port address data input.2

end Steps

end Endpoint

end Libjingle.P2P

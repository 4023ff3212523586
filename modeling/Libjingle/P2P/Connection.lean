import Libjingle.Base.SocketAddress

/-!
# Connections

`Connection` of `talk/p2p/base/port.cc` with its ping requests. A connection
signals every change of its state, which the channel takes note of, and posts
`MSG_DELETE` to itself when neither side can use it any more.

The clock is 32 bits wide. Preferences are of a type that can be multiplied and
compared; nothing is assumed of either, as the source uses floating point.
-/

namespace Libjingle.P2P

inductive ReadState where
  | readable
  | readTimeout
  deriving DecidableEq, Repr

inductive WriteState where
  | writable
  | writeConnect
  | writeTimeout
  deriving DecidableEq, Repr

/-- Better states have lower values. -/
def WriteState.value : WriteState → Nat
  | .writable => 0
  | .writeConnect => 1
  | .writeTimeout => 2

inductive CandidateOrigin where
  | thisPort
  | otherPort
  | message
  deriving DecidableEq, Repr

structure Candidate (ρ : Type) where
  name : String
  protocol : String
  address : SocketAddress
  preference : ρ
  username : String
  password : String
  type : String
  generation : UInt32

/-- The preference is not compared. -/
def Candidate.isEquivalent {ρ : Type} (a b : Candidate ρ) : Bool :=
  a.name = b.name ∧ a.protocol = b.protocol ∧ a.address = b.address ∧ a.username = b.username ∧
    a.password = b.password ∧ a.type = b.type ∧ a.generation = b.generation

/-- The candidates of a port have its preference. -/
structure Port (ρ : Type) where
  /-- Tells ports apart. -/
  id : Nat
  network : Nat
  preference : ρ
  generation : UInt32
  /-- Whether the `CreateConnection` of this kind of port makes a connection, and
  whether that is connected from the start. -/
  connects : Candidate ρ → CandidateOrigin → Option Bool

/-- `ConnectionRequest`, a ping that waits for its response. -/
structure ConnectionRequest where
  id : Nat
  timeout : Bool
  tstamp : UInt32
  deriving DecidableEq, Repr

structure Connection (ρ : Type) where
  /-- Tells connections apart. -/
  id : Nat
  port : Port ρ
  remote : Candidate ρ
  readState : ReadState
  writeState : WriteState
  connected : Bool
  pruned : Bool
  requests : List ConnectionRequest
  rtt : UInt32
  lastPingSent : UInt32
  lastPingReceived : UInt32
  lastDataReceived : UInt32
  pingsSinceLastResponse : List UInt32
  /-- `SignalStateChange` was raised, and the channel has not noticed yet. -/
  signalled : Bool
  /-- How often `MSG_DELETE` is posted. -/
  deletes : Nat

/-! ## Constants -/

def connectionReadTimeout : UInt32 := 30 * 1000

def connectionWriteTimeout : UInt32 := 15 * 1000

def connectionWriteConnectTimeout : UInt32 := 5 * 1000

def connectionWriteConnectFailures : Nat := 5

def minimumRtt : UInt32 := 100

def maximumRtt : UInt32 := 3000

def rttRatio : UInt32 := 3

def stunErrorUnauthorized : Nat := 401

def stunErrorUnknownAttribute : Nat := 420

def stunErrorStaleCredentials : Nat := 430

def stunErrorServerError : Nat := 500

def stunErrorGlobalFailure : Nat := 600

def tooManyFailures (pings : List UInt32) (maximumFailures : Nat) (rttEstimate now : UInt32) :
    Bool :=
  match pings[maximumFailures - 1]? with
  | none => false
  | some ping => ping + rttEstimate < now

def tooLongWithoutResponse (pings : List UInt32) (maximumTime now : UInt32) : Bool :=
  match pings with
  | [] => false
  | ping :: _ => ping + maximumTime < now

def conservativeRttEstimate (rtt : UInt32) : UInt32 :=
  max minimumRtt (min maximumRtt (2 * rtt))

namespace Connection

variable {ρ : Type}

def new (id : Nat) (port : Port ρ) (remote : Candidate ρ) (connected : Bool) : Connection ρ where
  id := id
  port := port
  remote := remote
  readState := .readTimeout
  writeState := .writeConnect
  connected := connected
  pruned := false
  requests := []
  rtt := maximumRtt
  lastPingSent := 0
  lastPingReceived := 0
  lastDataReceived := 0
  pingsSinceLastResponse := []
  signalled := false
  deletes := 0

/-- `CheckTimeout`. -/
def checkTimeout (c : Connection ρ) : Connection ρ :=
  if c.readState = .readTimeout ∧ c.writeState = .writeTimeout then
    { c with deletes := c.deletes + 1 }
  else c

def setReadState (c : Connection ρ) (value : ReadState) : Connection ρ :=
  if value ≠ c.readState then { c with readState := value, signalled := true }.checkTimeout else c

def setWriteState (c : Connection ρ) (value : WriteState) : Connection ρ :=
  if value ≠ c.writeState then { c with writeState := value, signalled := true }.checkTimeout
  else c

def receivedPing (c : Connection ρ) (now : UInt32) : Connection ρ :=
  { c with lastPingReceived := now }.setReadState .readable

/-- Only a connection that has not been pruned is. -/
def prune (c : Connection ρ) : Connection ρ :=
  if c.pruned then c
  else { c with pruned := true, requests := [] }.setWriteState .writeTimeout

def destroy (c : Connection ρ) : Connection ρ :=
  (c.setReadState .readTimeout).setWriteState .writeTimeout

def updateState (c : Connection ρ) (now : UInt32) : Connection ρ :=
  let rtt := conservativeRttEstimate c.rtt
  let c :=
    if c.readState = .readable ∧ c.lastPingReceived + connectionReadTimeout ≤ now then
      c.setReadState .readTimeout
    else c
  -- The order of the next two checks is important.
  let c :=
    if c.writeState = .writable ∧
        tooManyFailures c.pingsSinceLastResponse connectionWriteConnectFailures rtt now ∧
        tooLongWithoutResponse c.pingsSinceLastResponse connectionWriteConnectTimeout now then
      c.setWriteState .writeConnect
    else c
  if c.writeState = .writeConnect ∧
      tooLongWithoutResponse c.pingsSinceLastResponse connectionWriteTimeout now then
    c.setWriteState .writeTimeout
  else c

/-- A new request with a random id; it is sent when its message is delivered. -/
def ping (c : Connection ρ) (request : Nat) (now : UInt32) : Connection ρ :=
  { c with
    lastPingSent := now
    pingsSinceLastResponse := c.pingsSinceLastResponse ++ [now]
    requests := c.requests ++ [⟨request, false, 0⟩] }

def findRequest (c : Connection ρ) (request : Nat) : Option ConnectionRequest :=
  c.requests.find? fun r => r.id = request

/-- `StunRequestManager::Remove`. -/
def removeRequest (c : Connection ρ) (request : Nat) : Connection ρ :=
  { c with requests := c.requests.filter fun r => r.id ≠ request }

/-- `StunRequest::OnMessage`: a ping is sent once, and times out the second time. -/
def onRequestMessage (c : Connection ρ) (request : Nat) (now : UInt32) : Connection ρ :=
  match c.findRequest request with
  | none => c
  | some r =>
      if r.timeout then c.removeRequest request
      else
        { c with
          requests := c.requests.map fun r =>
            if r.id = request then { r with timeout := true, tstamp := now } else r }

def onConnectionRequestResponse (c : Connection ρ) (r : ConnectionRequest) (now : UInt32) :
    Connection ρ :=
  let rtt := now - r.tstamp
  let c := c.setWriteState .writable
  { c with
    pingsSinceLastResponse := []
    rtt := (rttRatio * c.rtt + rtt) / (rttRatio + 1) }

def onConnectionRequestErrorResponse (c : Connection ρ) (errorCode : Option Nat) : Connection ρ :=
  let code := errorCode.getD stunErrorGlobalFailure
  if code = stunErrorUnknownAttribute ∨ code = stunErrorServerError ∨
      code = stunErrorUnauthorized then c
  else if code = stunErrorStaleCredentials then c
  else c.setWriteState .writeTimeout

/-- What `GetStunMessage` makes of a packet. -/
inductive Packet where
  /-- No STUN message. -/
  | data
  /-- STUN, but handled by the port already. -/
  | handled
  /-- The remote username is not that of the remote candidate. -/
  | foreign
  | bindingRequest
  | bindingResponse (request : Nat)
  | bindingErrorResponse (request : Nat) (errorCode : Option Nat)

/-- If timed out sending writability checks, start up again. -/
def restart (c : Connection ρ) : Connection ρ :=
  if ¬ c.pruned ∧ c.writeState = .writeTimeout then c.setWriteState .writeConnect else c

def onReadPacket (c : Connection ρ) (packet : Packet) (now : UInt32) : Connection ρ :=
  match packet with
  | .data =>
      if c.readState = .readable then { c with lastDataReceived := now }.restart else c
  | .handled => c
  | .foreign => c
  -- `SendBindingResponse` makes the connection readable.
  | .bindingRequest => (c.receivedPing now).restart
  | .bindingResponse request =>
      match c.findRequest request with
      | none => c
      | some r => (c.onConnectionRequestResponse r now).removeRequest request
  | .bindingErrorResponse request errorCode =>
      match c.findRequest request with
      | none => c
      | some _ => (c.onConnectionRequestErrorResponse errorCode).removeRequest request

/-- `TCPConnection::OnConnect`. -/
def onConnect (c : Connection ρ) : Connection ρ :=
  { c with connected := true }

/-- `TCPConnection::OnClose`. -/
def onClose (c : Connection ρ) : Connection ρ :=
  { c with connected := false }.setWriteState .writeTimeout

end Connection

end Libjingle.P2P

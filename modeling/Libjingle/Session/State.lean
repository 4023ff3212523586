import Libjingle.Session.Wiring

/-!
# The state of a `Session`

The members of `BaseSession` and `Session` of `talk/p2p/base/session.h`, the
local calls, and the signals. `SetState` runs the listeners of `SignalState`
before it posts `MSG_STATE`, so it takes what they do as an argument. A
`Reaction` lists the calls that listeners make from inside a signal; every call
raises at most one signal itself, and carries the reaction to it.

Stanzas are written by the client and read by the parsers. `Client` says which
actions can be written and which names have the same bare JID; an incoming
message comes with what the parsers make of it.
-/

namespace Libjingle

namespace Session

inductive State where
  | init
  | sentInitiate
  | receivedInitiate
  | sentAccept
  | receivedAccept
  | sentModify
  | receivedModify
  | sentReject
  | receivedReject
  | sentRedirect
  | sentTerminate
  | receivedTerminate
  | inProgress
  | deinit
  deriving DecidableEq, Repr

inductive Error where
  | none
  | time
  | response
  | network
  | content
  deriving DecidableEq, Repr

inductive SignalingProtocol where
  | jingle
  | gingle
  | hybrid
  deriving DecidableEq, Repr

inductive ActionType where
  | unknown
  | sessionInitiate
  | sessionInfo
  | sessionAccept
  | sessionReject
  | sessionTerminate
  | transportInfo
  | transportAccept
  | descriptionInfo
  deriving DecidableEq, Repr

/-- The messages a session posts to itself. -/
inductive MessageId where
  | timeout
  | error
  | state
  deriving DecidableEq, Repr

/-- The names of stanza errors that a session answers with. -/
inductive StanzaError where
  | badRequest
  | notAllowed
  | notAcceptable
  deriving DecidableEq, Repr

/-- Without a type, an error is a parse error. -/
structure MessageError where
  type : StanzaError := .badRequest
  text : String
  deriving DecidableEq, Repr

/-- `SessionInitiate`, `SessionAccept` and `DescriptionInfo`. -/
structure ContentMessage where
  contents : List String
  transports : List TransportInfo
  groups : List ContentGroup
  deriving DecidableEq, Repr

/-- What a session writes into a stanza. -/
inductive Action where
  | initiate (content : ContentMessage)
  | accept (content : ContentMessage)
  | reject (reason : String)
  | terminate (reason : String)
  | transportInfo (tinfo : TransportInfo)
  | info
  deriving DecidableEq, Repr

/-- The stanzas a session sends. A stanza in the hybrid protocol holds both forms. -/
inductive Stanza where
  | message (protocol : SignalingProtocol) (recipient : String) (action : Action)
  | acknowledgement (recipient : String)
  | error (error : MessageError)
  deriving DecidableEq, Repr

/-- What happens to a session, as far as others see it. -/
inductive Entry where
  /-- `SignalOutgoingMessage` and `SignalErrorMessage`. -/
  | sent (stanza : Stanza)
  /-- `LogState`, which `SetState` calls before it signals the new state. -/
  | changed (oldState newState : State)
  /-- Candidates that the transport of a content reported. -/
  | reported (contentName : String) (candidates : List Candidate)
  /-- `SessionManager::DestroySession` was called. -/
  | destroyed
  deriving DecidableEq, Repr

/-- What a session relies on: the writers of the stanzas, and JIDs. -/
structure Client where
  writes : SignalingProtocol → Action → Bool
  bareJidsEqual : String → String → Bool

end Session

open Session in
structure Session extends Wiring where
  client : Client
  state : State
  error : Error
  sid : String
  initiator : Bool
  localDescription : Option SessionDescription
  remoteDescription : Option SessionDescription
  initiateAcked : Bool
  localName : String
  initiatorName : String
  remoteName : String
  currentProtocol : SignalingProtocol
  /-- The messages that wait in the queue of the signaling thread. -/
  posted : List MessageId
  /-- Newest first. -/
  history : List Entry

namespace Session

/-- `NS_GINGLE_P2P`, the transport type of every session. -/
def nsGingleP2P : String := "http://www.google.com/transport/p2p"

/-- The constructor. -/
def new (client : Client) (localName initiatorName sid : String) (allowLocalIps : Bool) :
    Session where
  transportType := nsGingleP2P
  allowLocalIps := allowLocalIps
  proxies := []
  transports := []
  client := client
  state := .init
  error := .none
  sid := sid
  initiator := initiatorName = localName
  localDescription := none
  remoteDescription := none
  initiateAcked := false
  localName := localName
  initiatorName := initiatorName
  remoteName := ""
  currentProtocol := .hybrid
  posted := []
  history := []

def record (s : Session) (entry : Entry) : Session :=
  { s with history := entry :: s.history }

def post (s : Session) (id : MessageId) : Session :=
  { s with posted := s.posted ++ [id] }

/-- Other transports, and everything else as before. -/
def rewire (s : Session) (wiring : Wiring) : Session :=
  { s with toWiring := wiring }

@[simp] theorem toWiring_rewire (s : Session) (wiring : Wiring) :
    (s.rewire wiring).toWiring = wiring := rfl

@[simp] theorem history_rewire (s : Session) (wiring : Wiring) :
    (s.rewire wiring).history = s.history := rfl

/-- `Clear`. -/
def clear (s : Session) (id : MessageId) : Session :=
  { s with posted := s.posted.filter (· ≠ id) }

/-! ## Sending -/

/-- `WriteActionMessage`: both protocols, while the session does not know which. -/
def writesAction (s : Session) (action : Action) : Bool :=
  match s.currentProtocol with
  | .hybrid => s.client.writes .jingle action && s.client.writes .gingle action
  | protocol => s.client.writes protocol action

/-- A stanza to the peer. -/
def send (s : Session) (action : Action) : Session :=
  s.record (.sent (.message s.currentProtocol s.remoteName action))

/-- `SendMessage` for an action that has to be written; false when it cannot. -/
def sendMessage (s : Session) (action : Action) : Bool × Session :=
  if s.writesAction action then (true, s.send action) else (false, s)

/-- `GetEmptyTransportInfos`. -/
def emptyTransportInfos (s : Session) (contents : List String) : List TransportInfo :=
  contents.map fun name => ⟨name, s.transportType, []⟩

/-- What `SendInitiateMessage` and `SendAcceptMessage` write. -/
def contentMessage (s : Session) (sdesc : SessionDescription) : ContentMessage where
  contents := sdesc.contents
  transports := s.emptyTransportInfos sdesc.contents
  groups := sdesc.groups

def sendInitiateMessage (s : Session) (sdesc : SessionDescription) : Bool × Session :=
  s.sendMessage (.initiate (s.contentMessage sdesc))

/-- An accept is written in the current protocol only. -/
def sendAcceptMessage (s : Session) (sdesc : SessionDescription) : Bool × Session :=
  if s.client.writes s.currentProtocol (.accept (s.contentMessage sdesc)) then
    (true, s.send (.accept (s.contentMessage sdesc)))
  else (false, s)

def sendTransportInfoMessage (s : Session) (contentName : String) (candidates : List Candidate) :
    Bool × Session :=
  s.sendMessage (.transportInfo ⟨contentName, s.transportType, candidates⟩)

/-! ## State and errors -/

/-- `SetState`. `signal` is what the listeners of `SignalState` do. -/
def setState (signal : Session → Session) (s : Session) (state : State) : Session :=
  if state ≠ s.state then
    (signal ({ s with state := state }.record (.changed s.state state))).post .state
  else s

/-- `SetError`. `signal` is what the listeners of `SignalError` do. -/
def setError (signal : Session → Session) (s : Session) (error : Error) : Session :=
  let s := if error ≠ s.error then signal { s with error := error } else s
  if error ≠ .none then s.post .error else s

/-! ## Local calls -/

def initiate (signal : Session → Session) (s : Session) (recipient : String)
    (sdesc : SessionDescription) : Bool × Session :=
  if s.state ≠ .init then
    (false, s)
  else
    let s := { s with remoteName := recipient, localDescription := some sdesc }
    match s.toWiring.createTransportProxies (s.emptyTransportInfos sdesc.contents) with
    | (false, wiring) => (false, s.rewire wiring)
    | (true, wiring) =>
        match (s.rewire wiring).sendInitiateMessage sdesc with
        | (false, s) => (false, s)
        | (true, s) =>
            let s := s.setState signal .sentInitiate
            (true, s.rewire s.toWiring.speculativelyConnectAll)

def enableMuxing (s : Session) : Session :=
  s.rewire (s.toWiring.maybeEnableMuxingSupport s.localDescription s.remoteDescription)

def accept (signal : Session → Session) (s : Session) (sdesc : SessionDescription) :
    Bool × Session :=
  -- Only if just received initiate.
  if s.state ≠ .receivedInitiate then
    (false, s)
  else
    match { s with localDescription := some sdesc }.sendAcceptMessage sdesc with
    | (false, s) => (false, s)
    | (true, s) => (true, s.enableMuxing.setState signal .sentAccept)

/-- The message of a reject or a terminate can always be written. -/
def reject (signal : Session → Session) (s : Session) (reason : String) : Bool × Session :=
  if s.state ≠ .receivedInitiate ∧ s.state ≠ .receivedModify then
    (false, s)
  else (true, (s.send (.reject reason)).setState signal .sentReject)

def terminateWithReason (signal : Session → Session) (s : Session) (reason : String) :
    Bool × Session :=
  match s.state with
  | .sentTerminate | .receivedTerminate => (false, s)
  -- After a reject, the terminate is implicit.
  | .sentReject | .receivedReject => (true, s.setState signal .sentTerminate)
  | _ => (true, (s.send (.terminate reason)).setState signal .sentTerminate)

/-- The calls an application may make at any time, also from inside a signal. -/
inductive LocalCall where
  | initiate (recipient : String) (sdesc : SessionDescription)
  | accept (sdesc : SessionDescription)
  | reject (reason : String)
  | terminateWithReason (reason : String)
  | sendInfoMessage
  | createChannel (contentName channelName : String)

def localCall (signal : Session → Session) (s : Session) : LocalCall → Session
  | .initiate recipient sdesc => (s.initiate signal recipient sdesc).2
  | .accept sdesc => (s.accept signal sdesc).2
  | .reject reason => (s.reject signal reason).2
  | .terminateWithReason reason => (s.terminateWithReason signal reason).2
  | .sendInfoMessage => s.send .info
  | .createChannel contentName channelName =>
      s.rewire (s.toWiring.createChannel contentName channelName)

/-- The calls that listeners make from inside a signal, one after another, each
with the reaction to the signal that the call raises. -/
inductive Reaction where
  | done
  | call (call : LocalCall) (inner rest : Reaction)

def react : Reaction → Session → Session
  | .done, s => s
  | .call call inner rest, s => react rest (s.localCall (react inner) call)

end Session

end Libjingle

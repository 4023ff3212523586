import Libjingle.Session.State

/-!
# Incoming messages

`OnIncomingMessage` with its handlers, responses and failed sends, the signals
of the transports, and the messages that a session posts to itself.
-/

namespace Libjingle

namespace Session

/-- An incoming message with what the parsers make of its action element. The
transport infos are parsed against the contents that the initiator offered. -/
structure SessionMessage where
  protocol : SignalingProtocol
  type : ActionType
  sid : String
  sender : String
  recipient : String
  initiator : String
  initiate : Except String ContentMessage
  accept : Except String ContentMessage
  terminate : Except String String
  transportInfos : List String → Except String (List TransportInfo)
  descriptionInfo : Except String ContentMessage

/-- What listeners do inside the signals that one input raises. -/
structure Listeners where
  onState : Reaction := .done
  onError : Reaction := .done

def Listeners.state (listeners : Listeners) : Session → Session :=
  react listeners.onState

def Listeners.error (listeners : Listeners) : Session → Session :=
  react listeners.onError

/-! ## The initiate is acknowledged -/

/-- Send a list of candidates of each proxy still to come in a transport-info of
its own, and clear the list. -/
def flush (select : TransportProxy → List Candidate) (clear : TransportProxy → TransportProxy)
    (s : Session) : List TransportProxy → Bool × Session
  | [] => (true, s)
  | p :: rest =>
      if select p = [] then flush select clear s rest
      else
        match s.sendTransportInfoMessage p.contentName (select p) with
        | (false, s) => (false, s)
        | (true, s) =>
            flush select clear (s.rewire (s.toWiring.modifyProxy p.contentName clear)) rest

def TransportProxy.clearSentCandidates (p : TransportProxy) : TransportProxy :=
  { p with sentCandidates := [] }

def TransportProxy.clearUnsentCandidates (p : TransportProxy) : TransportProxy :=
  { p with unsentCandidates := [] }

def resendAllTransportInfoMessages (s : Session) : Bool × Session :=
  s.flush (·.sentCandidates) TransportProxy.clearSentCandidates s.proxies

def sendAllUnsentTransportInfoMessages (s : Session) : Bool × Session :=
  s.flush (·.unsentCandidates) TransportProxy.clearUnsentCandidates s.proxies

def onInitiateAcked (s : Session) : Session :=
  if s.initiateAcked then s
  else
    { s with initiateAcked := true }.sendAllUnsentTransportInfoMessages.2

/-! ## Handlers -/

/-- The outcome of a handler: the error it answers with, if any. -/
abbrev Handled := Option MessageError × Session

/-- `CheckState`. -/
def checkState (s : Session) (expected : State) : Option MessageError :=
  if s.state = expected then none
  else some ⟨.notAllowed, "message not allowed in current state"⟩

/-- A parse error. -/
def badParse (text : String) : MessageError :=
  { text := text }

/-- `OnRemoteCandidates`. -/
def takeCandidates (s : Session) (tinfos : List TransportInfo) : Handled :=
  let (refused, wiring) := s.toWiring.onRemoteCandidates tinfos
  (refused.map badParse, s.rewire wiring)

/-- The candidates of an initiate or an accept, unless a listener has rejected
the session. -/
def unlessRejected (s : Session) (tinfos : List TransportInfo) : Handled :=
  if s.state ≠ .sentReject then s.takeCandidates tinfos else (none, s)

/-- The description that a content message brings. -/
def ContentMessage.description (content : ContentMessage) : SessionDescription :=
  ⟨content.contents, content.groups⟩

def onInitiateMessage (signal : Session → Session) (s : Session) (msg : SessionMessage) : Handled :=
  match s.checkState .init with
  | some error => (some error, s)
  | none =>
      match msg.initiate with
      | .error text => (some (badParse text), s)
      | .ok init =>
          match s.toWiring.createTransportProxies init.transports with
          | (false, wiring) =>
              (some ⟨.notAcceptable, "No supported transport in offer."⟩, s.rewire wiring)
          | (true, wiring) =>
              let s := { s.rewire wiring with
                remoteName := msg.sender
                remoteDescription := some init.description }
              (s.setState signal .receivedInitiate).unlessRejected init.transports

def onAcceptMessage (signal : Session → Session) (s : Session) (msg : SessionMessage) : Handled :=
  match s.checkState .sentInitiate with
  | some error => (some error, s)
  | none =>
      match msg.accept with
      | .error text => (some (badParse text), s)
      | .ok accept =>
          -- An accept shows that the initiate has been received.
          let s := { s.onInitiateAcked with remoteDescription := some accept.description }
          (s.enableMuxing.setState signal .receivedAccept).unlessRejected accept.transports

def onRejectMessage (signal : Session → Session) (s : Session) : Handled :=
  match s.checkState .sentInitiate with
  | some error => (some error, s)
  | none => (none, s.setState signal .receivedReject)

def onTerminateMessage (signal : Session → Session) (s : Session) (msg : SessionMessage) :
    Handled :=
  match msg.terminate with
  | .error text => (some (badParse text), s)
  | .ok _ => (none, s.setState signal .receivedTerminate)

/-- `initiator_description()->contents()`. -/
def offeredContents (s : Session) : List String :=
  ((if s.initiator then s.localDescription else s.remoteDescription).map (·.contents)).getD []

def onTransportInfoMessage (s : Session) (msg : SessionMessage) : Handled :=
  match msg.transportInfos s.offeredContents with
  | .error text => (some (badParse text), s)
  | .ok tinfos => s.takeCandidates tinfos

def onDescriptionInfoMessage (s : Session) (msg : SessionMessage) : Handled :=
  match s.checkState .inProgress with
  | some error => (some error, s)
  | none =>
      match msg.descriptionInfo with
      | .error text => (some (badParse text), s)
      | .ok _ => (none, s)

/-- A session that does not know its protocol learns it from the first message. -/
def settleProtocol (s : Session) (msg : SessionMessage) : Session :=
  if s.currentProtocol = .hybrid then
    { s with currentProtocol := if msg.protocol = .gingle then .gingle else .jingle }
  else s

/-- The handler that `OnIncomingMessage` chooses. -/
def handle (signal : Session → Session) (s : Session) (msg : SessionMessage) : Handled :=
  match msg.type with
  | .sessionInitiate => s.onInitiateMessage signal msg
  | .sessionInfo => (none, s)
  | .sessionAccept => s.onAcceptMessage signal msg
  | .sessionReject => s.onRejectMessage signal
  | .sessionTerminate => s.onTerminateMessage signal msg
  | .transportInfo => s.onTransportInfoMessage msg
  | .transportAccept => (none, s)
  | .descriptionInfo => s.onDescriptionInfoMessage msg
  | .unknown => (some ⟨.badRequest, "unknown session message type"⟩, s)

/-- `OnIncomingMessage`: the message is handled, and acknowledged or refused. -/
def onIncomingMessage (signal : Session → Session) (s : Session) (msg : SessionMessage) : Session :=
  match (s.settleProtocol msg).handle signal msg with
  | (none, s) => s.record (.sent (.acknowledgement s.remoteName))
  | (some error, s) => s.record (.sent (.error error))

def onIncomingResponse (s : Session) (type : ActionType) : Session :=
  if type = .sessionInitiate then s.onInitiateAcked else s

/-! ## Failed sends -/

/-- What `OnFailedSend` finds in the stanza that failed and in the error stanza. -/
inductive FailedSend where
  | redirect (target : String)
  | error (type : ActionType) (errorType : String)
  | noError

/-- `OnRedirectError`: point the session at the new JID and resend the candidates;
false when that is not possible. -/
def onRedirectError (s : Session) (target : String) : Bool × Session :=
  if s.state ≠ .sentInitiate then
    (false, s)
  else if ¬ s.client.bareJidsEqual s.remoteName target then
    (false, s)
  else
    let s := { s with remoteName := target }
    match s.localDescription with
    | none => (false, s)
    | some sdesc =>
        match s.sendInitiateMessage sdesc with
        | (false, s) => (false, s)
        | (true, s) => s.resendAllTransportInfoMessages

def onFailedSend (signalError : Session → Session) (s : Session) : FailedSend → Session
  | .redirect target =>
      match s.onRedirectError target with
      | (true, s) => s
      | (false, s) => s.setError signalError .response
  | .noError => s
  | .error type errorType =>
      -- Errors of transport messages are left to the transports.
      if type = .transportInfo then s
      else if errorType ≠ "continue" ∧ errorType ≠ "wait" then s.setError signalError .response
      else s

/-! ## Signals of the transports -/

/-- `OnTransportWritable`: one timer watches all transports. -/
def onTransportWritable (s : Session) (transport : Nat) : Session :=
  let s := s.clear .timeout
  match s.transports[transport]? with
  | some t => if t.hasChannels ∧ ¬ t.writable then s.post .timeout else s
  | none => s

def onTransportConnecting (s : Session) (transport : Nat) : Session :=
  s.onTransportWritable transport

def onTransportCandidatesReady (s : Session) (transport : Nat) (candidates : List Candidate) :
    Session :=
  match s.toWiring.getTransportProxyOf transport with
  | none => s
  | some p =>
      let s := s.record (.reported p.contentName candidates)
      if s.initiator ∧ ¬ s.initiateAcked then
        s.rewire (s.toWiring.modifyProxy p.contentName fun p =>
          { p with unsentCandidates := p.unsentCandidates ++ candidates })
      else
        let s :=
          if p.negotiated then s
          else
            s.rewire (s.toWiring.modifyProxy p.contentName fun p =>
              { p with sentCandidates := p.sentCandidates ++ candidates })
        (s.sendTransportInfoMessage p.contentName candidates).2

/-! ## Posted messages -/

/-- `OnMessage`. The state that decides is the one before `BaseSession::OnMessage`. -/
def onMessage (listeners : Listeners) (s : Session) : MessageId → Session
  | .timeout => s.setError listeners.error .time
  | .error => (s.terminateWithReason listeners.state "general-error").2
  | .state =>
      match s.state with
      | .sentAccept | .receivedAccept => s.setState listeners.state .inProgress
      | .sentReject | .receivedReject => (s.terminateWithReason listeners.state "success").2
      | .sentTerminate | .receivedTerminate => s.record .destroyed
      | _ => s

/-! ## Inputs -/

inductive Input where
  | localCall (call : LocalCall)
  | message (msg : SessionMessage)
  | response (type : ActionType)
  | failedSend (failed : FailedSend)
  /-- `SignalConnecting` of a transport. -/
  | connecting (transport : Nat)
  /-- A transport finds that it is writable, or not; it signals when that changes. -/
  | writable (transport : Nat) (writable : Bool)
  | candidatesReady (transport : Nat) (candidates : List Candidate)
  /-- A channel of a transport goes away. -/
  | destroyChannel (transport : Nat) (name : String)
  /-- A posted message is delivered. -/
  | deliver (id : MessageId)

/-- An input and what the listeners do. -/
structure Stimulus where
  input : Input
  listeners : Listeners := {}

/-- `OnChannelWritableState_s`. -/
def onChannelWritableState (s : Session) (transport : Nat) (writable : Bool) : Session :=
  match s.transports[transport]? with
  | none => s
  | some t =>
      if t.writable = writable then s
      else
        (s.rewire (s.toWiring.modifyTransport transport fun t =>
          { t with writable := writable })).onTransportWritable transport

def destroyChannel (s : Session) (transport : Nat) (name : String) : Session :=
  s.rewire (s.toWiring.modifyTransport transport fun t =>
    { t with channels := t.channels.erase name })

def step (s : Session) (stimulus : Stimulus) : Session :=
  let listeners := stimulus.listeners
  match stimulus.input with
  | .localCall call => s.localCall listeners.state call
  | .message msg => s.onIncomingMessage listeners.state msg
  | .response type => s.onIncomingResponse type
  | .failedSend failed => s.onFailedSend listeners.error failed
  | .connecting transport => s.onTransportConnecting transport
  | .writable transport writable => s.onChannelWritableState transport writable
  | .candidatesReady transport candidates => s.onTransportCandidatesReady transport candidates
  | .destroyChannel transport name => s.destroyChannel transport name
  | .deliver id => { s with posted := s.posted.erase id }.onMessage listeners id

/-- The inputs that can occur: a response answers a stanza that was sent, a
message is delivered that waits in the queue, and nothing happens to a session
that has been destroyed. -/
def Permits (s : Session) (stimulus : Stimulus) : Prop :=
  .destroyed ∉ s.history ∧
    match stimulus.input with
    | .response type => type = .sessionInitiate →
        ∃ protocol recipient content,
          .sent (.message protocol recipient (.initiate content)) ∈ s.history
    | .deliver id => id ∈ s.posted
    | _ => True

/-- A client that can write everything, and takes all JIDs for one. -/
def Client.lenient : Client where
  writes _ _ := true
  bareJidsEqual _ _ := true

/-- A new session on the side of the initiator. -/
def outgoing : Session :=
  new .lenient "romeo" "romeo" "1" false

/-- A new session on the side of the responder. -/
def incoming : Session :=
  new .lenient "juliet" "romeo" "1" false

end Session

end Libjingle

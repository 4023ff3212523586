import Libjingle.Xmpp.Constants

/-!
# The XMPP engine

`XmppEngineImpl` of `talk/xmpp/xmppengineimpl.cc`, with its login task. The handlers of the
engine are known by numbers. What the engine does with its output handler, its session
handler and the handlers of stanzas is kept in the order in which it happens.

A handler may call the engine while it handles a stanza. The delivery of a stanza waits
for it, with what is left of the input that the stanza is from.
-/

namespace Libjingle.Xmpp

open Libjingle.Xml

inductive State where
  | start
  | opening
  | opened
  | closed
  deriving DecidableEq, Repr

inductive Error where
  | none
  | xml
  | stream
  | version
  | unauthorized
  | tls
  | auth
  | bind
  | connectionClosed
  | documentClosed
  | socket
  deriving DecidableEq, Repr

inductive TlsOptions where
  | disabled
  | enabled
  | required
  deriving DecidableEq, Repr

inductive ReturnStatus where
  | ok
  | badArgument
  | badState
  deriving DecidableEq, Repr

inductive HandlerLevel where
  | peek
  | single
  | sender
  | type
  | all
  deriving DecidableEq, Repr

/-- What the stanza parser finds. -/
inductive ParseEvent where
  | startStream (stream : XmlElement)
  | stanza (stanza : XmlElement)
  | endStream
  | xmlError

inductive Sender where
  | login
  | application
  deriving DecidableEq, Repr

/-- A part of the output. -/
inductive Out where
  | streamStart (hostname lang : String)
  | stanza (sender : Sender) (element : XmlElement)
  | raw (text : String)
  | streamEnd

def Out.isEmpty : Out → Bool
  | .raw text => text = ""
  | _ => false

/-- A call of a handler. Those of stanzas are kept with the state of the engine at the time. -/
inductive Callback where
  | writeOutput (output : List Out)
  | startTls (domain : String)
  | closeConnection
  | stateChange (state : State)
  | handleStanza (state : State) (level : HandlerLevel) (handler : Nat) (stanza : XmlElement)
  | iqResponse (state : State) (handler cookie : Nat) (stanza : XmlElement)

structure IqEntry where
  cookie : Nat
  id : String
  recipient : String
  handler : Nat
  deriving DecidableEq, Repr

inductive LoginState where
  | init
  | streamStartSent
  | startedXmpp
  | tlsInit
  | authInit
  | bindInit
  | tlsRequested
  | saslRunning
  | bindRequested
  | sessionRequested
  | done
  deriving DecidableEq, Repr

structure LoginTask where
  authNeeded : Bool
  allowNonGoogleLogin : Bool
  state : LoginState
  stanza : Option XmlElement
  isStart : Bool
  iqId : String
  features : Option XmlElement
  fullJid : String
  streamId : String
  queuedStanzas : List XmlElement

def LoginTask.new : LoginTask where
  authNeeded := true
  allowNonGoogleLogin := true
  state := .init
  stanza := none
  isStart := false
  iqId := ""
  features := none
  fullJid := ""
  streamId := ""
  queuedStanzas := []

/-- A SASL handler with its mechanism. There may be no mechanism of a name, and a mechanism
may have nothing to say. -/
structure SaslHandler (σ : Type) where
  chooseBestSaslMechanism : σ → List String → Bool → String × σ
  createSaslMechanism : σ → String → Option σ
  startSaslAuth : σ → Option XmlElement × σ
  handleSaslChallenge : σ → XmlElement → Option XmlElement × σ

/-- What the engine is used with: a SASL handler, a parser of bytes, and whether the text of
a `Jid` is full. -/
structure Environment (σ τ : Type) where
  sasl : SaslHandler σ
  parse : τ → List UInt8 → List ParseEvent × τ
  newParser : τ
  isFullJid : String → Bool

/-- What is set before the engine connects. -/
structure Config where
  domain : String
  requestedResource : String
  tlsOption : TlsOptions
  tlsServerHostname : String
  tlsServerDomain : String
  lang : String
  outputHandler : Bool
  sessionHandler : Bool
  deriving DecidableEq, Repr

/-- Where the delivery of a stanza stands: a handler has been called and has not returned. -/
inductive Position where
  | handler (level : HandlerLevel) (index handler : Nat)
  | iqHandler

structure Delivery where
  position : Position
  stanza : XmlElement
  /-- The rest of the input. -/
  rest : List ParseEvent
  /-- The state when `HandleInput` was entered. -/
  entered : State

structure Engine (σ τ : Type) where
  config : Config
  tlsOption : TlsOptions
  engineEntered : Nat
  parser : τ
  sasl : σ
  loginTask : Option LoginTask
  nextId : Nat
  boundJid : String
  state : State
  encrypted : Bool
  errorCode : Error
  subcode : Int
  streamError : Option XmlElement
  raisedReset : Bool
  outputHandler : Bool
  stanzaHandlers : HandlerLevel → List Nat
  iqEntries : List IqEntry
  /-- Iq entries are told apart by their number. -/
  nextCookie : Nat
  output : List Out
  callbacks : List Callback
  /-- The stanzas that `SendStanza` has accepted. -/
  accepted : List XmlElement
  delivery : Option Delivery

namespace Engine

variable {σ τ : Type} (env : Environment σ τ)

def new (config : Config) (sasl : σ) : Engine σ τ where
  config := config
  tlsOption := config.tlsOption
  engineEntered := 0
  parser := env.newParser
  sasl := sasl
  loginTask := some .new
  nextId := 0
  boundJid := ""
  state := .start
  encrypted := false
  errorCode := .none
  subcode := 0
  streamError := none
  raisedReset := false
  outputHandler := config.outputHandler
  stanzaHandlers := fun _ => []
  iqEntries := []
  nextCookie := 0
  output := []
  callbacks := []
  accepted := []
  delivery := none

variable (e : Engine σ τ)

def call (callback : Callback) : Engine σ τ :=
  { e with callbacks := e.callbacks ++ [callback] }

def print (out : Out) : Engine σ τ :=
  { e with output := e.output ++ [out] }

/-! ## Entering and leaving -/

/-- Where an engine is closed, or nothing is under way any more, the output is written. -/
def flush (closing : Bool) : Engine σ τ :=
  if e.outputHandler ∧ (closing ∨ e.engineEntered = 0) then
    let e := if e.output.any (¬ ·.isEmpty) then e.call (.writeOutput e.output) else e
    let e := { e with output := [] }
    if closing then { e.call .closeConnection with outputHandler := false } else e
  else e

def reset : Engine σ τ :=
  if e.raisedReset then { e with parser := env.newParser, raisedReset := false } else e

def notifyState (entered : State) : Engine σ τ :=
  if e.config.sessionHandler ∧ e.state ≠ entered then e.call (.stateChange e.state) else e

def enter : Engine σ τ :=
  { e with engineEntered := e.engineEntered + 1 }

/-- The destructor of `EnterExit`. -/
def exit (entered : State) : Engine σ τ :=
  let e := { e with engineEntered := e.engineEntered - 1 }
  let e := e.flush (e.state ≠ entered ∧ e.state = .closed)
  if e.engineEntered ≠ 0 then e else (e.reset env).notifyState entered

/-! ## What the login task uses -/

def raiseReset : Engine σ τ :=
  { e with raisedReset := true }

def internalSendStart (recipient : String) : Engine σ τ :=
  let hostname := if e.config.tlsServerHostname = "" then recipient else e.config.tlsServerHostname
  let lang := if e.config.lang = "" then "*" else e.config.lang
  e.print (.streamStart hostname lang)

def internalSendStanza (sender : Sender) (element : XmlElement) : Engine σ τ :=
  e.print (.stanza sender element)

def signalBound (fullJid : String) : Engine σ τ :=
  if e.state = .opening then { e with boundJid := fullJid, state := .opened } else e

def signalError (errorCode : Error) (subcode : Int) : Engine σ τ :=
  if e.state ≠ .closed then
    { e with errorCode := errorCode, subcode := subcode, state := .closed }
  else e

def signalStreamError (streamError : XmlElement) : Engine σ τ :=
  if e.state ≠ .closed then
    { e with streamError := some streamError }.signalError .stream 0
  else e

def hasError : Bool :=
  e.errorCode ≠ .none

def startTls (domain : String) : Engine σ τ :=
  if e.outputHandler then
    let domain := if e.config.tlsServerDomain = "" then domain else e.config.tlsServerDomain
    { e.call (.startTls domain) with encrypted := true }
  else e

/-- `NextId`. -/
def takeId : String × Engine σ τ :=
  (toString e.nextId, { e with nextId := e.nextId + 1 })

end Engine

end Libjingle.Xmpp

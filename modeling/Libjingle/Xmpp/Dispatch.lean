import Libjingle.Xmpp.Login

/-!
# Input and calls of the engine

The functions of `XmppEngineImpl` that handle what comes in, and those that an application
calls, also from inside the handlers of stanzas. The loops over the handlers go by an index
into the lists as they are at the time.
-/

namespace Libjingle.Xmpp

open Libjingle.Xml

variable {σ τ : Type} (env : Environment σ τ)

namespace Engine

variable (e : Engine σ τ)

/-! ## Calls -/

def addStanzaHandler (handler : Nat) (level : HandlerLevel) : ReturnStatus × Engine σ τ :=
  if e.state = .closed then (.badState, e)
  else
    (.ok, { e with stanzaHandlers := fun l =>
      if l = level then e.stanzaHandlers l ++ [handler] else e.stanzaHandlers l })

def levels : List HandlerLevel := [.peek, .single, .sender, .type, .all]

/-- A handler is removed from every level. -/
def removeStanzaHandler (handler : Nat) : ReturnStatus × Engine σ τ :=
  let found := levels.any fun level => handler ∈ e.stanzaHandlers level
  (if found then .ok else .badArgument,
    { e with stanzaHandlers := fun level => (e.stanzaHandlers level).filter (· ≠ handler) })

def sendStanza (element : XmlElement) : ReturnStatus × Engine σ τ :=
  if e.state = .closed then (.badState, e)
  else
    let e' := { e.enter with accepted := e.accepted ++ [element] }
    let e' := match e.loginTask with
      | some task =>
          let queued := { task with queuedStanzas := task.queuedStanzas ++ [element] }
          { e' with loginTask := some queued }
      | none => e'.internalSendStanza .application element
    (.ok, e'.exit env e.state)

def sendRaw (text : String) : ReturnStatus × Engine σ τ :=
  if e.state = .closed ∨ e.loginTask.isSome then (.badState, e)
  else (.ok, (e.enter.print (.raw text)).exit env e.state)

def disconnect : Engine σ τ :=
  if e.state ≠ .closed then
    let e' := if e.state = .opened then e.enter.print .streamEnd else e.enter
    { e' with state := .closed }.exit env e.state
  else e

def connectionClosed (subcode : Int) : Engine σ τ :=
  if e.state ≠ .closed then
    let e' :=
      if subcode ≠ 0 then e.enter.signalError .socket subcode
      else e.enter.signalError .connectionClosed 0
    e'.exit env e.state
  else e

def sendIq (element : XmlElement) (handler : Nat) : ReturnStatus × Engine σ τ :=
  if e.state = .closed then (.badState, e)
  else if element.name ≠ qnIq then (.badArgument, e)
  else if element.attr qnType ≠ "get" ∧ element.attr qnType ≠ "set" then (.badArgument, e)
  else if ¬ element.hasAttr qnId then (.badArgument, e)
  else
    let entry : IqEntry := ⟨e.nextCookie, element.attr qnId, element.attr qnTo, handler⟩
    let e' := { e with iqEntries := e.iqEntries ++ [entry], nextCookie := e.nextCookie + 1 }
    (.ok, (e'.sendStanza env element).2)

def removeIqHandler (cookie : Nat) : ReturnStatus × Engine σ τ :=
  if e.iqEntries.any (·.cookie = cookie) then
    (.ok, { e with iqEntries := e.iqEntries.eraseP (·.cookie = cookie) })
  else (.badArgument, e)

def sendStanzaError (original : XmlElement) (code : XmppStanzaError) (text : String) :
    ReturnStatus × Engine σ τ :=
  if e.state = .closed then (.badState, e)
  else (.ok, (e.sendStanza env (stanzaError original code text)).2)

/-! ## Logging in -/

/-- The task takes a stanza, and is deleted when it is done. -/
def runLogin (task : LoginTask) (element : Option XmlElement) (isStart : Bool) : Engine σ τ :=
  let l := Login.advance env ⟨e, { task with stanza := element, isStart := isStart }⟩
  let task := { l.task with stanza := none, isStart := false }
  { l.engine with loginTask := if task.state = .done then none else some task }

def connect : ReturnStatus × Engine σ τ :=
  if e.state ≠ .start then (.badState, e)
  else
    let e' := { e.enter with state := .opening }
    let e' := match e.loginTask with
      | some task => e'.runLogin env task none false
      | none => e'
    (.ok, e'.exit env e.state)

/-! ## Delivering -/

/-- If nobody wants to handle a stanza, an iq is answered with an error. -/
def unhandled (stanza : XmlElement) : Engine σ τ :=
  let type := stanza.attr qnType
  if stanza.name = qnIq ∧ ¬ (type = "error" ∨ type = "result") then
    (e.sendStanzaError env stanza .featureNotImplemented "").2
  else e

/-- A handler is called, and the delivery waits for it. -/
def callHandler (d : Delivery) (level : HandlerLevel) (index handler : Nat) : Engine σ τ :=
  { e.call (.handleStanza e.state level handler d.stanza) with
    delivery := some { d with position := .handler level index handler } }

/-- The next handler, in the levels that are left, from an index of the first on. -/
def nextHandler : List (HandlerLevel × Nat) → Option (HandlerLevel × Nat × Nat)
  | [] => none
  | (level, index) :: later =>
      match (e.stanzaHandlers level)[index]? with
      | some handler => some (level, index, handler)
      | none => nextHandler later

/-- The levels from one on, with the index to go on from. -/
def levelsFrom (level : HandlerLevel) (index : Nat) : List (HandlerLevel × Nat) :=
  (level, index) ::
    match level with
    | .peek => [(.single, 0), (.sender, 0), (.type, 0), (.all, 0)]
    | .single => [(.sender, 0), (.type, 0), (.all, 0)]
    | .sender => [(.type, 0), (.all, 0)]
    | .type => [(.all, 0)]
    | .all => []

/-- The entry that a stanza answers. -/
def findIqEntry (stanza : XmlElement) : Option IqEntry :=
  let type := stanza.attr qnType
  if stanza.name ≠ qnIq then none
  else if type ≠ "result" ∧ type ≠ "error" then none
  else if ¬ stanza.hasAttr qnId then none
  else e.iqEntries.find? fun entry =>
    entry.id = stanza.attr qnId ∧ entry.recipient = stanza.attr qnFrom

/-- `IncomingStart`. -/
def incomingStart (stream : XmlElement) : Engine σ τ :=
  if e.hasError ∨ e.raisedReset then e
  else
    match e.loginTask with
    | some task => e.runLogin env task (some stream) true
    | none => e.signalError .xml 0

/-- `IncomingEnd`. -/
def incomingEnd (isError : Bool) : Engine σ τ :=
  if e.hasError ∨ e.raisedReset then e
  else e.signalError (if isError then .xml else .documentClosed) 0

/-- Where an engine that handles input stands. -/
inductive Progress (σ τ : Type) where
  /-- A handler has been called. -/
  | waiting (e : Engine σ τ)
  /-- The stanza is dealt with. -/
  | finished (e : Engine σ τ)

/-- The next handler is called, if there is one. -/
def deliver (d : Delivery) (levels : List (HandlerLevel × Nat)) : Progress σ τ :=
  match e.nextHandler levels with
  | some (level, index, handler) => .waiting (e.callHandler d level index handler)
  | none => .finished (e.unhandled env d.stanza)

/-- `IncomingStanza`, up to the first handler that is called. -/
def incomingStanza (d : Delivery) : Progress σ τ :=
  if e.hasError ∨ e.raisedReset then .finished e
  else if d.stanza.name = qnStreamError then .finished (e.signalStreamError d.stanza)
  else
    match e.loginTask with
    | some task => .finished (e.runLogin env task (some d.stanza) false)
    | none =>
        match e.findIqEntry d.stanza with
        | some entry =>
            let e' := { e with iqEntries := e.iqEntries.eraseP (·.cookie = entry.cookie) }
            .waiting { e'.call (.iqResponse e.state entry.handler entry.cookie d.stanza) with
              delivery := some { d with position := .iqHandler } }
        | none => e.deliver env d (levelsFrom .peek 0)

/-- The input is handled until a handler is called, or to its end. -/
def handleEvents (entered : State) : List ParseEvent → Engine σ τ → Engine σ τ
  | [], e => { e with delivery := none }.exit env entered
  | .startStream stream :: rest, e => handleEvents entered rest (e.incomingStart env stream)
  | .endStream :: rest, e => handleEvents entered rest (e.incomingEnd false)
  | .xmlError :: rest, e => handleEvents entered rest (e.incomingEnd true)
  | .stanza stanza :: rest, e =>
      match e.incomingStanza env ⟨.iqHandler, stanza, rest, entered⟩ with
      | .waiting e => e
      | .finished e => handleEvents entered rest e

def handleInput (bytes : List UInt8) : ReturnStatus × Engine σ τ :=
  if e.state = .start ∨ e.state = .closed then (.badState, e)
  else
    let (events, parser) := env.parse e.parser bytes
    (.ok, handleEvents env e.state events { e.enter with parser := parser })

/-- A handler that has been called returns, and perhaps another one is called. -/
def returned (d : Delivery) (handled : Bool) : Progress σ τ :=
  match d.position with
  | .iqHandler => .finished e
  | .handler level index _ =>
      if level ≠ .peek ∧ handled then .finished e
      else e.deliver env d (levelsFrom level (index + 1))

/-- The rest of the input is handled when the stanza has been dealt with. -/
def handlerReturns (d : Delivery) (handled : Bool) : Engine σ τ :=
  match e.returned env d handled with
  | .waiting e => e
  | .finished e => handleEvents env d.entered d.rest e

/-! ## Runs -/

/-- What an application can call at any time, also in a handler. -/
inductive Call where
  | addStanzaHandler (handler : Nat) (level : HandlerLevel)
  | removeStanzaHandler (handler : Nat)
  | sendStanza (element : XmlElement)
  | sendRaw (text : String)
  | sendIq (element : XmlElement) (handler : Nat)
  | removeIqHandler (cookie : Nat)
  | sendStanzaError (original : XmlElement) (code : XmppStanzaError) (text : String)
  | nextId
  | connect
  | disconnect
  | connectionClosed (subcode : Int)

inductive Input where
  | call (call : Call)
  | handleInput (bytes : List UInt8)
  /-- The handler that has been called returns whether it has handled the stanza. -/
  | handlerReturns (handled : Bool)

def perform : Call → Engine σ τ
  | .addStanzaHandler handler level => (e.addStanzaHandler handler level).2
  | .removeStanzaHandler handler => (e.removeStanzaHandler handler).2
  | .sendStanza element => (e.sendStanza env element).2
  | .sendRaw text => (e.sendRaw env text).2
  | .sendIq element handler => (e.sendIq env element handler).2
  | .removeIqHandler cookie => (e.removeIqHandler cookie).2
  | .sendStanzaError original code text => (e.sendStanzaError env original code text).2
  | .nextId => e.takeId.2
  | .connect => (e.connect env).2
  | .disconnect => e.disconnect env
  | .connectionClosed subcode => e.connectionClosed env subcode

/-- Input is handled when no handler is running, and only a handler that is running
returns. -/
def step (input : Input) : Engine σ τ :=
  match input, e.delivery with
  | .call call, _ => e.perform env call
  | .handleInput bytes, none => (e.handleInput env bytes).2
  | .handleInput _, some _ => e
  | .handlerReturns handled, some d => e.handlerReturns env d handled
  | .handlerReturns _, none => e

end Engine

end Libjingle.Xmpp

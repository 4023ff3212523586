import Libjingle.Http.Headers
import Libjingle.Std.OrderedMap
import Mathlib.Logic.Function.Basic

/-!
# An HTTP server

`HttpServer` of `talk/base/httpserver.cc` and its connections. A signal is handled by the
application, which can call the server from within; so a run goes from one signal to the next,
and the stack holds what is still to be done when the handlers of each signal return. A
connection reads and writes by itself: what its `HttpBase` comes to is an input, which can come
in the call that started it.

`requested`, `swept`, `awaited` and `closed` are not of the program: they keep what was asked of
the server and what it signaled.
-/

namespace Libjingle.Http

open Libjingle.Std CString

inductive HttpMode where
  | none
  | connect
  | recv
  | send
  deriving DecidableEq, Repr

inductive StreamState where
  | closed
  | opening
  | opened
  deriving DecidableEq, Repr

structure HttpServerTransaction where
  connectionId : Nat
  request : HttpRequestData
  requestHeaders : HeaderMap
  response : HttpResponseData
  responseHeaders : HeaderMap
  deriving DecidableEq, Repr

/-- `HC_INTERNAL_SERVER_ERROR`. -/
def hcInternalServerError : Nat := 500

def HttpServerTransaction.new (connectionId : Nat) : HttpServerTransaction :=
  ⟨connectionId, ⟨.v11, .get, []⟩, [], ⟨.v11, hcInternalServerError, []⟩, []⟩

/-- A connection, with the mode of its `HttpBase` and whether its stream is open. -/
structure Connection where
  mode : HttpMode
  isConnected : Bool
  current : Option HttpServerTransaction
  signalling : Bool
  close : Bool
  deriving DecidableEq, Repr

inductive ServerSignal where
  | connectionClosed (id : Nat)
  | httpRequestHeader (transaction : HttpServerTransaction)
  | httpRequest (transaction : HttpServerTransaction)
  | httpRequestComplete (transaction : HttpServerTransaction) (err : HttpError)
  | closeAllComplete
  deriving DecidableEq, Repr

/-- What is to be done when the handlers of a signal return, or the rest of the loop of
`CloseAll`. -/
inductive Frame where
  | connectionClosed (id : Nat)
  | httpRequestHeader (id : Nat)
  | httpRequest
  | httpRequestComplete (id : Nat) (err : HttpError)
  | closeAllComplete
  | closeAll (rest : List Nat) (force : Bool)
  deriving DecidableEq, Repr

structure HttpServer where
  connections : OrderedMap Nat Connection
  nextConnectionId : Nat
  closing : Bool
  stack : List Frame
  /-- The connections whose transaction the application has. -/
  held : Nat → Bool
  /-- A deleted connection was used. -/
  broken : Bool
  /-- A close was requested of the connection. -/
  requested : Nat → Bool
  /-- The connections before this one were there at the last `CloseAll`. -/
  swept : Nat
  /-- `CloseAll` was called and its completion not signaled yet. -/
  awaited : Bool
  /-- How often the connection was signaled as closed. -/
  closed : Nat → Nat

inductive ServerInput where
  | handleConnection (stream : StreamState)
  | respond (transaction : HttpServerTransaction)
  | close (id : Nat) (force : Bool)
  | closeAll (force : Bool)
  /-- The handlers of the last signal return. -/
  | returned
  | streamState (id : Nat) (isConnected : Bool)
  | headerComplete (id : Nat) (request : HttpRequestData) (headers : HeaderMap)
  | complete (id : Nat) (err : HttpError)
  /-- The stream is closed while nothing is sent or received. -/
  | streamClosed (id : Nat)

/-! ## Connections -/

namespace Connection

/-- `request_in_progress`. -/
def requestInProgress (c : Connection) : Bool :=
  c.mode = .send || c.current.isNone

/-- `InitiateClose` removes the connection. -/
def closesNow (c : Connection) (force : Bool) : Bool :=
  !c.signalling && (force || !c.requestInProgress)

/-- What `Respond` does to the transaction. -/
def prepareResponse (transaction : HttpServerTransaction) : HttpServerTransaction :=
  let transaction :=
    if transaction.responseHeaders.isEmpty then
      { transaction with
        response := { transaction.response with scode := hcInternalServerError, message := [] }
        responseHeaders :=
          HeaderMap.setNewHeader transaction.responseHeaders hhContentLength (ofString "0") }
    else transaction
  let keepAlive := httpShouldKeepAlive transaction.request.version transaction.requestHeaders
  { transaction with
    responseHeaders := HeaderMap.setNewHeader transaction.responseHeaders hhConnection
      (ofString (if keepAlive then "Keep-Alive" else "Close")) }

/-- `Respond`, up to the `send`. -/
def respond (c : Connection) (transaction : HttpServerTransaction) : Connection :=
  let transaction := prepareResponse transaction
  { c with
    current := some transaction
    close := !httpShouldKeepAlive transaction.response.version transaction.responseHeaders }

/-- The transaction is cleared for the next request. -/
def clearTransaction (c : Connection) : Connection :=
  { c with
    current := c.current.map fun t =>
      { t with
        request := { t.request with verb := .get, path := [] }
        requestHeaders := []
        response := { t.response with scode := hcInternalServerError, message := [] }
        responseHeaders := [] } }

end Connection

/-! ## The server -/

namespace HttpServer

def new : HttpServer where
  connections := .empty
  nextConnectionId := 1
  closing := false
  stack := []
  held := fun _ => false
  broken := false
  requested := fun _ => false
  swept := 0
  awaited := false
  closed := fun _ => 0

def set (s : HttpServer) (id : Nat) (c : Connection) : HttpServer :=
  { s with connections := s.connections.insert id c }

def push (s : HttpServer) (frame : Frame) : HttpServer :=
  { s with stack := frame :: s.stack }

def request (s : HttpServer) (id : Nat) : HttpServer :=
  { s with requested := Function.update s.requested id true }

/-- `Remove`, up to the signal. -/
def remove (s : HttpServer) (id : Nat) : HttpServer × Option ServerSignal :=
  ({ s with
      connections := s.connections.erase id
      closed := Function.update s.closed id (s.closed id + 1)
      stack := .connectionClosed id :: s.stack },
    some (.connectionClosed id))

/-- `recv` of `HttpBase`: a stream that is not connected is closed. -/
def recv (s : HttpServer) (id : Nat) (c : Connection) : HttpServer × Option ServerSignal :=
  if c.isConnected then (s.set id { c with mode := .recv }, none) else (s.set id c).remove id

def handleConnection (s : HttpServer) (stream : StreamState) : HttpServer × Option ServerSignal :=
  let id := s.nextConnectionId
  let c : Connection :=
    { mode := if stream = .opening then .connect else .none
      isConnected := stream = .opened
      current := some (.new id)
      signalling := false
      close := false }
  let s := { s with nextConnectionId := id + 1 }
  if c.mode = .connect then (s.set id c, none) else s.recv id c

/-- `Respond`, for a transaction that the application has. -/
def respond (s : HttpServer) (transaction : HttpServerTransaction) :
    HttpServer × Option ServerSignal :=
  let id := transaction.connectionId
  if s.held id then
    let s := { s with held := Function.update s.held id false }
    match s.connections.get id with
    | none => (s, none)
    | some c =>
        let c := c.respond transaction
        if c.isConnected then (s.set id { c with mode := .send }, none)
        else (s.set id c).remove id
  else (s, none)

def close (s : HttpServer) (id : Nat) (force : Bool) : HttpServer × Option ServerSignal :=
  match s.connections.get id with
  | none => (s, none)
  | some c =>
      let s := s.request id
      if c.closesNow force then s.remove id else (s.set id { c with close := true }, none)

/-- The loop of `CloseAll`, up to the first connection that is removed, with those behind it. -/
def visit (force : Bool) : HttpServer → List Nat → HttpServer × Option (Nat × List Nat)
  | s, [] => (s, none)
  | s, id :: rest =>
      match s.connections.get id with
      | none => ({ s with broken := true }, none)
      | some c =>
          let s := s.request id
          if c.closesNow force then (s, some (id, rest))
          else visit force (s.set id { c with close := true }) rest

/-- The loops of `CloseAll` that are next on the stack go on. -/
def unwind : HttpServer → List Frame → HttpServer × Option ServerSignal
  | s, .closeAll rest force :: frames =>
      match visit force s rest with
      | (s, some (id, rest)) => { s with stack := .closeAll rest force :: frames }.remove id
      | (s, none) => unwind s frames
  | s, frames => ({ s with stack := frames }, none)

def closeAll (s : HttpServer) (force : Bool) : HttpServer × Option ServerSignal :=
  if s.connections.isEmpty then
    -- The signal answers this call, and one before it that still waits.
    ({ s with swept := s.nextConnectionId, awaited := false }.push .closeAllComplete,
      some .closeAllComplete)
  else
    { s with closing := true, swept := s.nextConnectionId, awaited := true }.unwind
      (.closeAll s.connections.keys force :: s.stack)

/-- The rest of `Remove`, behind the signal. -/
def removed (s : HttpServer) (frames : List Frame) : HttpServer × Option ServerSignal :=
  if s.closing && s.connections.isEmpty then
    ({ s with closing := false, awaited := false, stack := .closeAllComplete :: frames },
      some .closeAllComplete)
  else s.unwind frames

/-- The rest of `onHttpComplete` for a response that was sent, behind the signal. -/
def requestCompleted (s : HttpServer) (id : Nat) (err : HttpError) (frames : List Frame) :
    HttpServer × Option ServerSignal :=
  match s.connections.get id with
  | none => ({ s with broken := true, stack := frames }, none)
  | some c =>
      let c := { c with signalling := false }
      let err := if c.close then .disconnected else err
      if err ≠ .none then ({ s with stack := frames }.set id c).remove id
      else if c.isConnected then (s.set id { c.clearTransaction with mode := .recv }).unwind frames
      else ({ s with stack := frames }.set id c.clearTransaction).remove id

/-- The handlers of the last signal return. -/
def returned (s : HttpServer) : HttpServer × Option ServerSignal :=
  match s.stack with
  | [] => (s, none)
  | .connectionClosed _ :: frames => s.removed frames
  | .httpRequestComplete id err :: frames => s.requestCompleted id err frames
  | .httpRequestHeader id :: frames =>
      if (s.connections.get id).isSome then s.unwind frames
      else ({ s with broken := true, stack := frames }, none)
  | .httpRequest :: frames => s.unwind frames
  | .closeAllComplete :: frames => s.unwind frames
  | .closeAll _ _ :: _ => (s, none)

/-- The parser of the connection waits for the handlers of `SignalHttpRequestHeader`. -/
def parsing (s : HttpServer) (id : Nat) : Bool :=
  .httpRequestHeader id ∈ s.stack

def headerComplete (s : HttpServer) (id : Nat) (request : HttpRequestData) (headers : HeaderMap) :
    HttpServer × Option ServerSignal :=
  match s.connections.get id with
  | some ⟨.recv, isConnected, some transaction, signalling, close⟩ =>
      if s.parsing id then (s, none)
      else
        let transaction := { transaction with request := request, requestHeaders := headers }
        ((s.set id ⟨.recv, isConnected, some transaction, signalling, close⟩).push
          (.httpRequestHeader id), some (.httpRequestHeader transaction))
  | _ => (s, none)

/-- `do_complete` and `onHttpComplete`. -/
def complete (s : HttpServer) (id : Nat) (err : HttpError) : HttpServer × Option ServerSignal :=
  match s.connections.get id with
  | none => (s, none)
  | some c =>
      if s.parsing id then (s, none)
      else
        match c.mode, c.current with
        | .send, some transaction =>
            ((s.set id { c with mode := .none, signalling := true }).push
              (.httpRequestComplete id err), some (.httpRequestComplete transaction err))
        | .connect, _ =>
            let c := { c with mode := .none }
            if err ≠ .none then (s.set id c).remove id else s.recv id c
        | .recv, some transaction =>
            if err ≠ .none then (s.set id { c with mode := .none }).remove id
            else
              (({ s with held := Function.update s.held id true }.set id
                { c with mode := .none, current := none }).push .httpRequest,
                some (.httpRequest transaction))
        | _, _ => (s, none)

/-- `onHttpClosed`. -/
def streamClosed (s : HttpServer) (id : Nat) : HttpServer × Option ServerSignal :=
  match s.connections.get id with
  | some ⟨.none, _, none, _, _⟩ => s.remove id
  | _ => (s, none)

def streamState (s : HttpServer) (id : Nat) (isConnected : Bool) : HttpServer :=
  { s with connections := s.connections.modify id fun c => { c with isConnected := isConnected } }

def input (s : HttpServer) : ServerInput → HttpServer × Option ServerSignal
  | .handleConnection stream => s.handleConnection stream
  | .respond transaction => s.respond transaction
  | .close id force => s.close id force
  | .closeAll force => s.closeAll force
  | .returned => s.returned
  | .streamState id isConnected => (s.streamState id isConnected, none)
  | .headerComplete id request headers => s.headerComplete id request headers
  | .complete id err => s.complete id err
  | .streamClosed id => s.streamClosed id

def step (s : HttpServer) (input : ServerInput) : HttpServer :=
  (s.input input).1

end HttpServer

end Libjingle.Http

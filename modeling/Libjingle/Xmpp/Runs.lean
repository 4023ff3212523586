import Libjingle.Xmpp.Calls

/-!
# Runs of an engine

A run takes one input after another. Inside of `HandleInput` the engine goes on from event
to event, and it stops where a handler has been called. Every engine on the way is reached,
and an invariant has to be shown for one such move at a time.
-/

namespace Libjingle.Xmpp

open Libjingle.Xml

variable {σ τ : Type} (env : Environment σ τ)

namespace Engine

def run (e : Engine σ τ) (inputs : List Input) : Engine σ τ :=
  inputs.foldl (fun e input => e.step env input) e

/-- What an engine is doing: nothing, handling input that it was given in a state, or waiting
for a handler. -/
inductive Phase where
  | idle
  | handling (entered : State) (events : List ParseEvent)
  | waiting (d : Delivery)

/-- The engines that a run goes through, where handlers return as they are allowed to. -/
inductive Reached (allowed : Engine σ τ → Bool → Prop) (config : Config) (sasl : σ) : Phase → Engine σ τ → Prop where
  | new : Reached allowed config sasl .idle (new env config sasl)
  | callIdle {e : Engine σ τ} (call : Call) (reached : Reached allowed config sasl .idle e) :
      Reached allowed config sasl .idle (e.perform env call)
  | callWaiting {d : Delivery} {e : Engine σ τ} (call : Call)
      (reached : Reached allowed config sasl (.waiting d) e) :
      Reached allowed config sasl (.waiting d) (e.perform env call)
  | handleInput {e : Engine σ τ} (bytes : List UInt8)
      (connected : ¬ (e.state = .start ∨ e.state = .closed))
      (reached : Reached allowed config sasl .idle e) :
      Reached allowed config sasl (.handling e.state (env.parse e.parser bytes).1)
        { e.enter with parser := (env.parse e.parser bytes).2 }
  | startStream {entered : State} {stream : XmlElement} {rest : List ParseEvent}
      {e : Engine σ τ}
      (reached : Reached allowed config sasl (.handling entered (.startStream stream :: rest)) e) :
      Reached allowed config sasl (.handling entered rest) (e.incomingStart env stream)
  | endStream {entered : State} {rest : List ParseEvent} {e : Engine σ τ}
      (reached : Reached allowed config sasl (.handling entered (.endStream :: rest)) e) :
      Reached allowed config sasl (.handling entered rest) (e.incomingEnd false)
  | xmlError {entered : State} {rest : List ParseEvent} {e : Engine σ τ}
      (reached : Reached allowed config sasl (.handling entered (.xmlError :: rest)) e) :
      Reached allowed config sasl (.handling entered rest) (e.incomingEnd true)
  | stanza {entered : State} {stanza : XmlElement} {rest : List ParseEvent}
      {e e' : Engine σ τ}
      (reached : Reached allowed config sasl (.handling entered (.stanza stanza :: rest)) e)
      (dealt : e.incomingStanza env ⟨.iqHandler, stanza, rest, entered⟩ = .finished e') :
      Reached allowed config sasl (.handling entered rest) e'
  | stanzaWaits {entered : State} {stanza : XmlElement} {rest : List ParseEvent}
      {e e' : Engine σ τ} {d : Delivery}
      (reached : Reached allowed config sasl (.handling entered (.stanza stanza :: rest)) e)
      (waits : e.incomingStanza env ⟨.iqHandler, stanza, rest, entered⟩ = .waiting e')
      (delivery : e'.delivery = some d) :
      Reached allowed config sasl (.waiting d) e'
  | returned {d : Delivery} {e e' : Engine σ τ} (handled : Bool)
      (reached : Reached allowed config sasl (.waiting d) e) (may : allowed e handled)
      (dealt : e.returned env d handled = .finished e') :
      Reached allowed config sasl (.handling d.entered d.rest) e'
  | returnedWaits {d d' : Delivery} {e e' : Engine σ τ} (handled : Bool)
      (reached : Reached allowed config sasl (.waiting d) e) (may : allowed e handled)
      (waits : e.returned env d handled = .waiting e')
      (delivery : e'.delivery = some d') :
      Reached allowed config sasl (.waiting d') e'
  | exit {entered : State} {e : Engine σ τ}
      (reached : Reached allowed config sasl (.handling entered []) e) :
      Reached allowed config sasl .idle ({ e with delivery := none }.exit env entered)

/-- The handlers of a run return as they are allowed to. -/
def Returns (allowed : Engine σ τ → Bool → Prop) : Engine σ τ → List Input → Prop
  | _, [] => True
  | e, input :: inputs =>
      (match input with | .handlerReturns handled => allowed e handled | _ => True) ∧
        Returns allowed (e.step env input) inputs

instance instDecidableReturns (allowed : Engine σ τ → Bool → Prop) [∀ e handled, Decidable (allowed e handled)]
    (e : Engine σ τ) (inputs : List Input) : Decidable (Returns env allowed e inputs) :=
  match inputs with
  | [] => isTrue trivial
  | input :: inputs =>
      have : Decidable (match input with | .handlerReturns handled => allowed e handled | _ => True) :=
        match input with
        | .handlerReturns handled => inferInstanceAs (Decidable (allowed e handled))
        | .call _ | .handleInput _ => isTrue trivial
      have : Decidable (Returns env allowed (e.step env input) inputs) :=
        instDecidableReturns allowed (e.step env input) inputs
      inferInstanceAs (Decidable (_ ∧ _))

/-- Where a run stands after an input. -/
def resting (e : Engine σ τ) : Phase :=
  match e.delivery with
  | none => .idle
  | some d => .waiting d

variable {env}

/-! ## What an event can do -/

theorem deliver_waiting {e e' : Engine σ τ} {d : Delivery}
    {levels : List (HandlerLevel × Nat)} (waits : e.deliver env d levels = .waiting e') :
    ∃ level index handler, e.nextHandler levels = some (level, index, handler) ∧
      e' = e.callHandler d level index handler := by
  unfold deliver at waits
  split at waits
  · next level index handler found =>
    cases waits
    exact ⟨level, index, handler, found, rfl⟩
  · cases waits

theorem deliver_finished {e e' : Engine σ τ} {d : Delivery}
    {levels : List (HandlerLevel × Nat)} (dealt : e.deliver env d levels = .finished e') :
    e.nextHandler levels = none ∧ e' = e.unhandled env d.stanza := by
  unfold deliver at dealt
  split at dealt
  · cases dealt
  · next found =>
    cases dealt
    exact ⟨found, rfl⟩

/-- A stanza that is dealt with at once is dropped, a stream error, one for the login task, or
one that no handler is there for. -/
theorem incomingStanza_finished {e e' : Engine σ τ} {d : Delivery}
    (dealt : e.incomingStanza env d = .finished e') :
    ((e.hasError ∨ e.raisedReset) ∧ e' = e) ∨
    (¬ (e.hasError ∨ e.raisedReset) ∧ d.stanza.name = qnStreamError ∧
      e' = e.signalStreamError d.stanza) ∨
    (¬ (e.hasError ∨ e.raisedReset) ∧ d.stanza.name ≠ qnStreamError ∧
      ∃ task, e.loginTask = some task ∧ e' = e.runLogin env task (some d.stanza) false) ∨
    (¬ (e.hasError ∨ e.raisedReset) ∧ d.stanza.name ≠ qnStreamError ∧ e.loginTask = none ∧
      e.findIqEntry d.stanza = none ∧ e.nextHandler (levelsFrom .peek 0) = none ∧
      e' = e.unhandled env d.stanza) := by
  unfold incomingStanza at dealt
  split at dealt
  · next dropped =>
    cases dealt
    exact .inl ⟨dropped, rfl⟩
  · next open_ =>
    refine .inr ?_
    split at dealt
    · next error =>
      cases dealt
      exact .inl ⟨open_, error, rfl⟩
    · next other =>
      refine .inr ?_
      split at dealt
      · next task logging =>
        cases dealt
        exact .inl ⟨open_, other, task, logging, rfl⟩
      · next finished =>
        split at dealt
        · cases dealt
        · next unasked =>
          obtain ⟨nobody, result⟩ := deliver_finished dealt
          exact .inr ⟨open_, other, finished, unasked, nobody, result⟩

/-- A stanza for which a handler is called. -/
theorem incomingStanza_waiting {e e' : Engine σ τ} {d : Delivery}
    (waits : e.incomingStanza env d = .waiting e') :
    ¬ (e.hasError ∨ e.raisedReset) ∧ d.stanza.name ≠ qnStreamError ∧ e.loginTask = none ∧
    ((∃ entry, e.findIqEntry d.stanza = some entry ∧
        e' = { { e with iqEntries := e.iqEntries.eraseP (·.cookie = entry.cookie) }.call
            (.iqResponse e.state entry.handler entry.cookie d.stanza) with
          delivery := some { d with position := .iqHandler } }) ∨
      (e.findIqEntry d.stanza = none ∧
        ∃ level index handler, e.nextHandler (levelsFrom .peek 0) = some (level, index, handler) ∧
          e' = e.callHandler d level index handler)) := by
  unfold incomingStanza at waits
  split at waits
  · cases waits
  · next open_ =>
    split at waits
    · cases waits
    · next other =>
      split at waits
      · cases waits
      · next finished =>
        refine ⟨open_, other, finished, ?_⟩
        split at waits
        · next entry found =>
          cases waits
          exact .inl ⟨entry, found, rfl⟩
        · next unasked => exact .inr ⟨unasked, deliver_waiting waits⟩

/-- After a handler has returned, another one is called. -/
theorem returned_waiting {e e' : Engine σ τ} {d : Delivery} {handled : Bool}
    (waits : e.returned env d handled = .waiting e') :
    ∃ level index handler, d.position = .handler level index handler ∧
      ¬ (level ≠ .peek ∧ handled) ∧
      ∃ level' index' handler',
        e.nextHandler (levelsFrom level (index + 1)) = some (level', index', handler') ∧
          e' = e.callHandler d level' index' handler' := by
  unfold returned at waits
  split at waits
  · cases waits
  · next level index handler position =>
    split at waits
    · cases waits
    · next unhandled =>
      exact ⟨level, index, handler, position, unhandled, deliver_waiting waits⟩

/-- After a handler has returned, the stanza is dealt with. -/
theorem returned_finished {e e' : Engine σ τ} {d : Delivery} {handled : Bool}
    (dealt : e.returned env d handled = .finished e') :
    (d.position = .iqHandler ∧ e' = e) ∨
    ∃ level index handler, d.position = .handler level index handler ∧
      ((level ≠ .peek ∧ handled ∧ e' = e) ∨
        (¬ (level ≠ .peek ∧ handled) ∧ e.nextHandler (levelsFrom level (index + 1)) = none ∧
          e' = e.unhandled env d.stanza)) := by
  unfold returned at dealt
  split at dealt
  · next position =>
    cases dealt
    exact .inl ⟨position, rfl⟩
  · next level index handler position =>
    refine .inr ⟨level, index, handler, position, ?_⟩
    split at dealt
    · next final =>
      cases dealt
      exact .inl ⟨final.1, final.2, rfl⟩
    · next unhandled =>
      obtain ⟨nobody, result⟩ := deliver_finished dealt
      exact .inr ⟨unhandled, nobody, result⟩

/-! ## Runs reach what they go through -/

theorem exit_delivery (e : Engine σ τ) (entered : State) :
    (e.exit env entered).delivery = e.delivery := by
  obtain ⟨_, _, _, _, _, _, shape⟩ := Leaves.exit env e entered
  rw [shape]

/-- An engine waits for the handler that it has called. -/
theorem Reached.delivery {allowed : Engine σ τ → Bool → Prop} {config : Config} {sasl : σ} {phase : Phase} {e : Engine σ τ}
    (reached : Reached env allowed config sasl phase e) :
    (phase = .idle → e.delivery = none) ∧ ∀ d, phase = .waiting d → e.delivery = some d := by
  induction reached with
  | new => exact ⟨fun _ => rfl, nofun⟩
  | callIdle call _ ih =>
    exact ⟨fun _ => (perform_handlers env _ call).2.trans (ih.1 rfl), nofun⟩
  | callWaiting call _ ih =>
    exact ⟨nofun, fun d same => (perform_handlers env _ call).2.trans (ih.2 d same)⟩
  | handleInput | startStream | endStream | xmlError | stanza | returned => exact ⟨nofun, nofun⟩
  | stanzaWaits _ _ delivery | returnedWaits _ _ _ _ delivery =>
    refine ⟨nofun, fun d same => ?_⟩
    cases same
    exact delivery
  | exit => exact ⟨fun _ => exit_delivery _ _, nofun⟩

variable {allowed : Engine σ τ → Bool → Prop} {config : Config} {sasl : σ}

theorem incomingStanza_delivery {e e' : Engine σ τ} {d : Delivery}
    (waits : e.incomingStanza env d = .waiting e') : ∃ d', e'.delivery = some d' := by
  obtain ⟨_, _, _, ⟨_, _, rfl⟩ | ⟨_, _, _, _, _, rfl⟩⟩ := incomingStanza_waiting waits
  · exact ⟨_, rfl⟩
  · exact ⟨_, rfl⟩

theorem returned_delivery {e e' : Engine σ τ} {d : Delivery} {handled : Bool}
    (waits : e.returned env d handled = .waiting e') : ∃ d', e'.delivery = some d' := by
  obtain ⟨_, _, _, _, _, _, _, _, _, rfl⟩ := returned_waiting waits
  exact ⟨_, rfl⟩

/-- The input is handled to its end or up to a handler. -/
theorem Reached.handleEvents {entered : State} {events : List ParseEvent} {e : Engine σ τ}
    (reached : Reached env allowed config sasl (.handling entered events) e) :
    Reached env allowed config sasl (resting (e.handleEvents env entered events))
      (e.handleEvents env entered events) := by
  induction events generalizing e with
  | nil =>
    have left := reached.exit
    rw [Engine.handleEvents, resting, left.delivery.1 rfl]
    exact left
  | cons event rest ih =>
    cases event with
    | startStream stream => exact ih reached.startStream
    | endStream => exact ih reached.endStream
    | xmlError => exact ih reached.xmlError
    | stanza stanza =>
      rw [Engine.handleEvents]
      cases outcome : e.incomingStanza env ⟨.iqHandler, stanza, rest, entered⟩ with
      | finished e' => exact ih (reached.stanza outcome)
      | waiting e' =>
        obtain ⟨d, delivery⟩ := incomingStanza_delivery outcome
        simp only [resting, delivery]
        exact reached.stanzaWaits outcome delivery

theorem Reached.step {e : Engine σ τ} (reached : Reached env allowed config sasl (resting e) e)
    (input : Input)
    (may : match input with | .handlerReturns handled => allowed e handled | _ => True) :
    Reached env allowed config sasl (resting (e.step env input)) (e.step env input) := by
  cases input with
  | call call =>
    have same : resting (e.perform env call) = resting e := by
      rw [resting, (perform_handlers env e call).2, resting]
    rw [Engine.step, same]
    cases delivery : e.delivery with
    | none =>
      simp only [resting, delivery] at reached ⊢
      exact reached.callIdle call
    | some d =>
      simp only [resting, delivery] at reached ⊢
      exact reached.callWaiting call
  | handleInput bytes =>
    cases delivery : e.delivery with
    | some d =>
      simp only [Engine.step, delivery]
      exact reached
    | none =>
      simp only [Engine.step, delivery]
      unfold Engine.handleInput
      split
      · exact reached
      · next connected =>
        simp only [resting, delivery] at reached
        exact (reached.handleInput bytes connected).handleEvents
  | handlerReturns handled =>
    cases delivery : e.delivery with
    | none =>
      simp only [Engine.step, delivery]
      exact reached
    | some d =>
      simp only [Engine.step, delivery, Engine.handlerReturns]
      simp only [resting, delivery] at reached
      cases outcome : e.returned env d handled with
      | finished e' => exact (reached.returned handled may outcome).handleEvents
      | waiting e' =>
        obtain ⟨d', delivery'⟩ := returned_delivery outcome
        simp only [resting, delivery']
        exact reached.returnedWaits handled may outcome delivery'

theorem Reached.run {e : Engine σ τ} (reached : Reached env allowed config sasl (resting e) e)
    (inputs : List Input) (returns : Returns env allowed e inputs) :
    Reached env allowed config sasl (resting (e.run env inputs)) (e.run env inputs) := by
  induction inputs generalizing e with
  | nil => exact reached
  | cons input inputs ih => exact ih (reached.step input returns.1) returns.2

/-- What a run comes to is reached. -/
theorem reached_run (inputs : List Input)
    (returns : Returns env allowed (Engine.new env config sasl) inputs) :
    Reached env allowed config sasl (resting ((Engine.new env config sasl).run env inputs))
      ((Engine.new env config sasl).run env inputs) :=
  Reached.run .new inputs returns

/-- Where handlers may return what they like, every run is one. -/
theorem returns_any (e : Engine σ τ) (inputs : List Input) :
    Returns env (fun _ _ => True) e inputs := by
  induction inputs generalizing e with
  | nil => trivial
  | cons input inputs ih =>
    refine ⟨?_, ih _⟩
    cases input <;> trivial

end Engine

/-! ## A server and its messages

The texts that a server sends to log a user in, with what the parser makes of them, and a
SASL handler for the PLAIN mechanism. -/

namespace Sample

/-- An element without children that declares the namespace it is in. -/
def leaf (name : QName) : XmlElement := .newDefaultNs name

def stream (id : String) : XmlElement :=
  .mk qnStreamStream [⟨qnId, id⟩, ⟨qnVersion, "1.0"⟩, ⟨⟨nsXmlns, "stream"⟩, nsStream⟩,
    ⟨qnXmlns, nsClient⟩] false []

def features (children : List XmlElement) : XmlElement :=
  .mk qnStreamFeatures [] false (children.map .element)

def mechanisms : XmlElement :=
  .mk qnSaslMechanisms [⟨qnXmlns, nsSasl⟩] false
    [.element (.mk qnSaslMechanism [] false [.text "PLAIN"])]

def result (id : String) (children : List XmlElement) : XmlElement :=
  .mk qnIq [⟨qnType, "result"⟩, ⟨qnId, id⟩] false (children.map .element)

def bound : XmlElement :=
  .mk qnBindBind [⟨qnXmlns, nsBind⟩] false
    [.element (.mk qnBindJid [] false [.text "david@my-server/test"])]

/-- A message without a body. -/
def message : XmlElement := .mk ⟨nsClient, "message"⟩ [] false []

def streamText (id : String) : String :=
  "<stream:stream id='" ++ id ++ "' version='1.0' " ++
    "xmlns:stream='http://etherx.jabber.org/streams' xmlns='jabber:client'>"

def tlsFeatures : String :=
  streamText "1" ++ "<stream:features><starttls xmlns='urn:ietf:params:xml:ns:xmpp-tls'/>" ++
    "</stream:features>"

def proceed : String := "<proceed xmlns='urn:ietf:params:xml:ns:xmpp-tls'/>"

def authFeatures : String :=
  streamText "2" ++ "<stream:features><mechanisms xmlns='urn:ietf:params:xml:ns:xmpp-sasl'>" ++
    "<mechanism>PLAIN</mechanism></mechanisms></stream:features>"

def success : String := "<success xmlns='urn:ietf:params:xml:ns:xmpp-sasl'/>"

def bindFeatures : String :=
  streamText "3" ++ "<stream:features><bind xmlns='urn:ietf:params:xml:ns:xmpp-bind'/>" ++
    "<session xmlns='urn:ietf:params:xml:ns:xmpp-session'/></stream:features>"

def bindResult : String :=
  "<iq type='result' id='0'><bind xmlns='urn:ietf:params:xml:ns:xmpp-bind'>" ++
    "<jid>david@my-server/test</jid></bind></iq>"

def sessionResult : String := "<iq type='result' id='1'/>"

def messageText : String := "<message/>"

/-- What the parser makes of each text. -/
def texts : List (String × List ParseEvent) :=
  [(tlsFeatures, [.startStream (stream "1"), .stanza (features [leaf qnTlsStarttls])]),
    (proceed, [.stanza (leaf qnTlsProceed)]),
    (authFeatures, [.startStream (stream "2"), .stanza (features [mechanisms])]),
    (success, [.stanza (leaf qnSaslSuccess)]),
    (bindFeatures, [.startStream (stream "3"),
      .stanza (features [leaf qnBindBind, leaf qnSessionSession])]),
    (bindResult, [.stanza (result "0" [bound])]),
    (sessionResult, [.stanza (result "1" [])]),
    (messageText, [.stanza message])]

def bytes (text : String) : List UInt8 :=
  text.toUTF8.data.toList

/-- PLAIN needs one message. -/
def sasl : SaslHandler Unit where
  chooseBestSaslMechanism s mechanisms _ := (if "PLAIN" ∈ mechanisms then "PLAIN" else "", s)
  createSaslMechanism s _ := some s
  startSaslAuth s :=
    (some (.mk ⟨nsSasl, "auth"⟩ [⟨qnXmlns, nsSasl⟩, ⟨⟨"", "mechanism"⟩, "PLAIN"⟩] false
      [.text "AGRhdmlkAGRhdmlk"]), s)
  handleSaslChallenge s _ := (none, s)

def server : Environment Unit Unit where
  sasl := sasl
  parse _ input := (((texts.find? (bytes ·.1 = input)).map (·.2)).getD [.xmlError], ())
  newParser := ()
  isFullJid jid := jid.toList.contains '/'

def config (tlsOption : TlsOptions) : Config where
  domain := "my-server"
  requestedResource := ""
  tlsOption := tlsOption
  tlsServerHostname := ""
  tlsServerDomain := ""
  lang := ""
  outputHandler := true
  sessionHandler := true

/-- The inputs of a login without TLS. -/
def login : List Engine.Input :=
  .call .connect :: [authFeatures, success, bindFeatures, bindResult, sessionResult].map
    (.handleInput ∘ bytes)

/-- An engine that takes some inputs. -/
def engine (tlsOption : TlsOptions) (inputs : List Engine.Input) : Engine Unit Unit :=
  (Engine.new server (config tlsOption) ()).run server inputs

end Sample

end Libjingle.Xmpp

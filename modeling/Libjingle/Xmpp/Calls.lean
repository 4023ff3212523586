import Libjingle.Xmpp.Proceeding

/-!
# What the calls of an application leave alone

Of the calls only `AddStanzaHandler` and `RemoveStanzaHandler` change the lists of stanza
handlers, and none changes what waits for a handler to return. A call that has an effect on
the session enters the engine, and leaves it when it is done.
-/

namespace Libjingle.Xmpp.Engine

open Libjingle.Xml

variable {σ τ : Type} (env : Environment σ τ) (e : Engine σ τ)

/-- Only what is to be written, what is called and what is reset has changed. -/
def Leaves (e e' : Engine σ τ) : Prop :=
  ∃ engineEntered parser raisedReset outputHandler output callbacks, e' = { e with
    engineEntered := engineEntered
    parser := parser
    raisedReset := raisedReset
    outputHandler := outputHandler
    output := output
    callbacks := callbacks }

namespace Leaves

variable {e} {e' e'' : Engine σ τ}

theorem refl (e : Engine σ τ) : Leaves e e := ⟨_, _, _, _, _, _, rfl⟩

theorem trans (first : Leaves e e') (second : Leaves e' e'') : Leaves e e'' := by
  obtain ⟨_, _, _, _, _, _, rfl⟩ := first
  obtain ⟨_, _, _, _, _, _, rfl⟩ := second
  exact ⟨_, _, _, _, _, _, rfl⟩

theorem call (e : Engine σ τ) (callback : Callback) : Leaves e (e.call callback) :=
  ⟨_, _, _, _, _, _, rfl⟩

theorem flush (e : Engine σ τ) (closing : Bool) : Leaves e (e.flush closing) := by
  have written : Leaves e
      (if e.output.any (¬ ·.isEmpty) then e.call (.writeOutput e.output) else e) := by
    split
    · exact call e _
    · exact refl e
  have emptied (e : Engine σ τ) : Leaves e { e with output := [] } := ⟨_, _, _, _, _, _, rfl⟩
  have closed (e : Engine σ τ) : Leaves e { e.call .closeConnection with outputHandler := false } :=
    ⟨_, _, _, _, _, _, rfl⟩
  unfold Engine.flush
  split
  · dsimp only
    split
    · exact written.trans ((emptied _).trans (closed _))
    · exact written.trans (emptied _)
  · exact refl e

theorem reset (e : Engine σ τ) : Leaves e (e.reset env) := by
  unfold Engine.reset
  split
  · exact ⟨_, _, _, _, _, _, rfl⟩
  · exact refl e

theorem notifyState (e : Engine σ τ) (entered : State) : Leaves e (e.notifyState entered) := by
  unfold Engine.notifyState
  split
  · exact call e _
  · exact refl e

/-- Leaving an engine. -/
theorem exit (e : Engine σ τ) (entered : State) : Leaves e (e.exit env entered) := by
  have left : Leaves e { e with engineEntered := e.engineEntered - 1 } := ⟨_, _, _, _, _, _, rfl⟩
  unfold Engine.exit
  dsimp only
  split
  · exact left.trans (flush _ _)
  · exact left.trans ((flush _ _).trans ((reset env _).trans (notifyState _ _)))

end Leaves

/-- The lists of handlers and the delivery are the same. -/
structure SameDelivery (e e' : Engine σ τ) : Prop where
  stanzaHandlers : e'.stanzaHandlers = e.stanzaHandlers
  delivery : e'.delivery = e.delivery

namespace SameDelivery

variable {e} {e' e'' : Engine σ τ}

theorem refl (e : Engine σ τ) : SameDelivery e e := ⟨rfl, rfl⟩

theorem trans (first : SameDelivery e e') (second : SameDelivery e' e'') : SameDelivery e e'' :=
  ⟨second.stanzaHandlers.trans first.stanzaHandlers, second.delivery.trans first.delivery⟩

theorem of_proceeds (proceeds : Proceeds e e') : SameDelivery e e' :=
  ⟨proceeds.stanzaHandlers, proceeds.delivery⟩

/-- Then the engine is left. -/
theorem exit (same : SameDelivery e e') (entered : State) :
    SameDelivery e (e'.exit env entered) := by
  obtain ⟨_, _, _, _, _, _, shape⟩ := Leaves.exit env e' entered
  rw [shape]
  exact ⟨same.stanzaHandlers, same.delivery⟩

theorem sendStanza (e : Engine σ τ) (element : XmlElement) :
    SameDelivery e (e.sendStanza env element).2 := by
  unfold Engine.sendStanza
  split
  · exact .refl e
  · dsimp only
    split
    · refine exit env ?_ _
      exact ⟨rfl, rfl⟩
    · refine exit env ?_ _
      exact ⟨rfl, rfl⟩

theorem sendStanzaError (e : Engine σ τ) (original : XmlElement) (code : XmppStanzaError)
    (text : String) : SameDelivery e (e.sendStanzaError env original code text).2 := by
  unfold Engine.sendStanzaError
  split
  · exact .refl e
  · exact sendStanza env e _

theorem unhandled (e : Engine σ τ) (stanza : XmlElement) :
    SameDelivery e (e.unhandled env stanza) := by
  unfold Engine.unhandled
  dsimp only
  split
  · exact sendStanzaError env e stanza _ _
  · exact .refl e

theorem runLogin (e : Engine σ τ) (task : LoginTask) (element : Option XmlElement)
    (isStart : Bool) : SameDelivery e (e.runLogin env task element isStart) :=
  ⟨(e.proceeds_runLogin env task element isStart).stanzaHandlers,
    (e.proceeds_runLogin env task element isStart).delivery⟩

end SameDelivery

/-- The effect of a call on the lists of handlers. -/
def handlersAfter : Call → HandlerLevel → List Nat
  | .addStanzaHandler handler level, l =>
      if e.state ≠ .closed ∧ l = level then e.stanzaHandlers l ++ [handler] else e.stanzaHandlers l
  | .removeStanzaHandler handler, l => (e.stanzaHandlers l).filter (· ≠ handler)
  | _, l => e.stanzaHandlers l

theorem perform_handlers (call : Call) :
    (e.perform env call).stanzaHandlers = e.handlersAfter call ∧
      (e.perform env call).delivery = e.delivery := by
  have of_same {e' : Engine σ τ} (same : SameDelivery e e')
      (quiet : e.handlersAfter call = e.stanzaHandlers) :
      e'.stanzaHandlers = e.handlersAfter call ∧ e'.delivery = e.delivery :=
    ⟨same.stanzaHandlers.trans quiet.symm, same.delivery⟩
  cases call with
  | addStanzaHandler handler level =>
    unfold perform addStanzaHandler
    dsimp only
    split
    · next closed =>
      refine ⟨funext fun l => ?_, rfl⟩
      rw [handlersAfter, if_neg fun both => both.1 closed]
    · next opened =>
      refine ⟨funext fun l => ?_, rfl⟩
      simp [handlersAfter, opened]
  | removeStanzaHandler handler => exact ⟨rfl, rfl⟩
  | sendStanza element => exact of_same (.sendStanza env e element) rfl
  | sendRaw text =>
    refine of_same ?_ rfl
    unfold perform sendRaw
    dsimp only
    split
    · exact .refl e
    · refine .exit env ?_ _
      exact ⟨rfl, rfl⟩
  | sendIq element handler =>
    refine of_same ?_ rfl
    unfold perform sendIq
    dsimp only
    split_ifs
    · exact .refl e
    · exact .refl e
    · exact .refl e
    · have entry (entry : IqEntry) : SameDelivery e { e with
          iqEntries := e.iqEntries ++ [entry], nextCookie := e.nextCookie + 1 } := ⟨rfl, rfl⟩
      exact (entry _).trans (.sendStanza env _ element)
    · exact .refl e
  | removeIqHandler cookie =>
    refine of_same ?_ rfl
    unfold perform removeIqHandler
    dsimp only
    split <;> exact ⟨rfl, rfl⟩
  | sendStanzaError original code text => exact of_same (.sendStanzaError env e original code text) rfl
  | nextId => exact of_same ⟨rfl, rfl⟩ rfl
  | connect =>
    refine of_same ?_ rfl
    unfold perform connect
    dsimp only
    split
    · exact .refl e
    · refine .exit env ?_ _
      split
      · have opening : SameDelivery e { e.enter with state := .opening } := ⟨rfl, rfl⟩
        exact opening.trans (.runLogin env _ _ none false)
      · exact ⟨rfl, rfl⟩
  | disconnect =>
    refine of_same ?_ rfl
    unfold perform disconnect
    dsimp only
    split
    · refine .exit env ?_ _
      split <;> exact ⟨rfl, rfl⟩
    · exact .refl e
  | connectionClosed subcode =>
    refine of_same ?_ rfl
    unfold perform connectionClosed
    dsimp only
    split
    · have entered : SameDelivery e e.enter := ⟨rfl, rfl⟩
      split
      · exact .exit env (entered.trans (.of_proceeds (.signalError _ (by decide) _))) _
      · exact .exit env (entered.trans (.of_proceeds (.signalError _ (by decide) _))) _
    · exact .refl e

/-! ## What a call can do -/

/-- The session is the same. -/
structure SameSession (e e' : Engine σ τ) : Prop where
  config : e'.config = e.config
  tlsOption : e'.tlsOption = e.tlsOption
  engineEntered : e'.engineEntered = e.engineEntered
  loginTask : e'.loginTask = e.loginTask
  state : e'.state = e.state
  errorCode : e'.errorCode = e.errorCode
  raisedReset : e'.raisedReset = e.raisedReset
  outputHandler : e'.outputHandler = e.outputHandler
  output : e'.output = e.output
  callbacks : e'.callbacks = e.callbacks
  accepted : e'.accepted = e.accepted

theorem SameSession.refl : SameSession e e :=
  ⟨rfl, rfl, rfl, rfl, rfl, rfl, rfl, rfl, rfl, rfl, rfl⟩

/-- The effect of a call on the session. -/
inductive Effect (e : Engine σ τ) : Engine σ τ → Prop where
  | quiet {e' : Engine σ τ} (same : SameSession e e') : Effect e e'
  | queues {e' : Engine σ τ} (same : SameSession e e') (opened : e'.state ≠ .closed)
      (task : LoginTask) (logging : e'.loginTask = some task) (element : XmlElement) :
      Effect e ({ e'.enter with
        accepted := e'.accepted ++ [element]
        loginTask := some { task with queuedStanzas := task.queuedStanzas ++ [element] } }.exit
          env e'.state)
  | sends {e' : Engine σ τ} (same : SameSession e e') (opened : e'.state ≠ .closed)
      (finished : e'.loginTask = none) (element : XmlElement) :
      Effect e ({ e'.enter with
        accepted := e'.accepted ++ [element]
        output := e'.output ++ [Out.stanza .application element] }.exit env e'.state)
  | raw (opened : e.state ≠ .closed) (finished : e.loginTask = none) (text : String) :
      Effect e ({ e.enter with output := e.output ++ [Out.raw text] }.exit env e.state)
  | connects (start : e.state = .start) (task : LoginTask) (logging : e.loginTask = some task) :
      Effect e (({ e.enter with state := .opening }.runLogin env task none false).exit env .start)
  | connectsDone (start : e.state = .start) (finished : e.loginTask = none) :
      Effect e ({ e.enter with state := .opening }.exit env .start)
  | disconnects (opened : e.state ≠ .closed) :
      Effect e ({ e.enter with
        state := .closed
        output := e.output ++ if e.state = State.opened then [Out.streamEnd] else [] }.exit env e.state)
  | fails (opened : e.state ≠ .closed) (errorCode : Error)
      (lost : errorCode = .socket ∨ errorCode = .connectionClosed) (subcode : Int) :
      Effect e ({ e.enter with
        state := .closed, errorCode := errorCode, subcode := subcode }.exit env e.state)

theorem effect_sendStanza {e e₀ : Engine σ τ} (same : SameSession e₀ e) (element : XmlElement) :
    Effect env e₀ (e.sendStanza env element).2 := by
  unfold sendStanza
  split
  · exact .quiet same
  · next opened =>
    dsimp only
    split
    · next task logging => exact .queues same opened task logging element
    · next finished => exact .sends same opened finished element

theorem effect_sendStanzaError (original : XmlElement) (code : XmppStanzaError)
    (text : String) : Effect env e (e.sendStanzaError env original code text).2 := by
  unfold sendStanzaError
  split
  · exact .quiet (.refl e)
  · exact effect_sendStanza env (.refl e) _

/-- Every call has one of the effects. -/
theorem effect_perform (call : Call) : Effect env e (e.perform env call) := by
  cases call with
  | addStanzaHandler handler level =>
    unfold perform addStanzaHandler
    dsimp only
    split
    · exact .quiet (.refl e)
    · exact .quiet ⟨rfl, rfl, rfl, rfl, rfl, rfl, rfl, rfl, rfl, rfl, rfl⟩
  | removeStanzaHandler handler =>
    exact .quiet ⟨rfl, rfl, rfl, rfl, rfl, rfl, rfl, rfl, rfl, rfl, rfl⟩
  | sendStanza element => exact effect_sendStanza env (.refl e) element
  | sendRaw text =>
    unfold perform sendRaw
    dsimp only
    split
    · exact .quiet (.refl e)
    · next able =>
      obtain ⟨opened, finished⟩ := not_or.mp able
      exact .raw opened (Option.not_isSome_iff_eq_none.mp finished) text
  | sendIq element handler =>
    unfold perform sendIq
    dsimp only
    split_ifs
    · exact .quiet (.refl e)
    · exact .quiet (.refl e)
    · exact .quiet (.refl e)
    · refine effect_sendStanza env ?_ element
      exact ⟨rfl, rfl, rfl, rfl, rfl, rfl, rfl, rfl, rfl, rfl, rfl⟩
    · exact .quiet (.refl e)
  | removeIqHandler cookie =>
    unfold perform removeIqHandler
    dsimp only
    split
    · exact .quiet ⟨rfl, rfl, rfl, rfl, rfl, rfl, rfl, rfl, rfl, rfl, rfl⟩
    · exact .quiet (.refl e)
  | sendStanzaError original code text => exact effect_sendStanzaError env e original code text
  | nextId => exact .quiet ⟨rfl, rfl, rfl, rfl, rfl, rfl, rfl, rfl, rfl, rfl, rfl⟩
  | connect =>
    unfold perform connect
    dsimp only
    split
    · exact .quiet (.refl e)
    · next idle =>
      have start := not_not.mp idle
      rw [start]
      split
      · next task logging => exact .connects start task logging
      · next finished => exact .connectsDone start finished
  | disconnect =>
    unfold perform disconnect
    dsimp only
    split
    · next opened =>
      have closed : Effect env e _ := .disconnects opened
      by_cases connected : e.state = .opened
      · rw [if_pos connected] at closed ⊢
        exact closed
      · rw [if_neg connected] at closed ⊢
        rw [List.append_nil] at closed
        exact closed
    · exact .quiet (.refl e)
  | connectionClosed subcode =>
    unfold perform connectionClosed
    dsimp only
    split
    · next opened =>
      have signals (errorCode : Error) (subcode : Int) : e.enter.signalError errorCode subcode =
          { e.enter with state := .closed, errorCode := errorCode, subcode := subcode } :=
        if_pos opened
      rw [signals, signals]
      split
      · exact .fails opened .socket (.inl rfl) _
      · exact .fails opened .connectionClosed (.inr rfl) _
    · exact .quiet (.refl e)

end Libjingle.Xmpp.Engine

import Libjingle.Xmpp.Bookkeeping

/-!
# Closed engines

The closing of an engine is told to the output handler and to the session handler, each of
them once, whatever the handlers do. A handler of stanzas that closes the engine does not
stop the delivery that it is called from: the handlers that are left for the stanza are called,
and so are those for what follows in the same input.
-/

namespace Libjingle.Xmpp

open Libjingle.Xml

variable {σ τ : Type} {env : Environment σ τ}

/-- The state in which a handler of stanzas is called. -/
def Callback.delivered : Callback → Option State
  | .handleStanza state _ _ _ => some state
  | .iqResponse state _ _ _ => some state
  | _ => none

namespace Engine

variable {e : Engine σ τ}

/-- The states in which the handlers of stanzas have been called. -/
def deliveredIn (e : Engine σ τ) : List State :=
  e.callbacks.filterMap Callback.delivered

/-- No handler is there for an event. -/
def undue (e : Engine σ τ) : ParseEvent → Bool
  | .stanza stanza => stanza.name = qnStreamError ∨
      (e.findIqEntry stanza = none ∧ e.nextHandler (levelsFrom .peek 0) = none)
  | _ => true

/-- A handler that returns is the last one for the stanza. -/
def last (e : Engine σ τ) (d : Delivery) (handled : Bool) : Bool :=
  match d.position with
  | .iqHandler => true
  | .handler level index _ =>
      (level ≠ .peek ∧ handled) ∨ e.nextHandler (levelsFrom level (index + 1)) = none

/-- When a handler returns in a closed engine, it is the last one for the stanza, and none is
there for the rest of the input, unless an error drops it. -/
def LastCall (e : Engine σ τ) (handled : Bool) : Prop :=
  e.state = .closed → ∀ d ∈ e.delivery,
    e.last d handled = true ∧ (e.hasError = true ∨ ∀ event ∈ d.rest, e.undue event = true)

instance (e : Engine σ τ) (handled : Bool) : Decidable (e.LastCall handled) :=
  inferInstanceAs (Decidable (_ → _))

theorem deliveredIn_exit (e : Engine σ τ) (entered : State) :
    (e.exit env entered).deliveredIn = e.deliveredIn := by
  have other : ∀ c ∈ e.leaving entered, c.delivered = none := by
    intro c member
    obtain rfl | rfl | ⟨_, rfl⟩ := mem_leaving e member <;> rfl
  rw [exit_eq]
  unfold deliveredIn
  rw [List.filterMap_append, List.filterMap_eq_nil_iff.mpr other, List.append_nil]

theorem deliveredIn_of_proceeds {e' : Engine σ τ} (proceeds : Proceeds e e') :
    e'.deliveredIn = e.deliveredIn := by
  obtain ⟨new, called, tls⟩ := proceeds.callbacks
  unfold deliveredIn
  rw [called, List.filterMap_append]
  have other : ∀ c ∈ new, c.delivered = none := by
    intro c member
    obtain ⟨domain, rfl⟩ := tls c member
    rfl
  rw [List.filterMap_eq_nil_iff.mpr other, List.append_nil]

theorem deliveredIn_runLogin (e : Engine σ τ) (task : LoginTask) (element : Option XmlElement)
    (isStart : Bool) : (e.runLogin env task element isStart).deliveredIn = e.deliveredIn :=
  (deliveredIn_of_proceeds (proceeds_runLogin env e task element isStart) :)

/-- No call of the application calls a handler of stanzas. -/
theorem deliveredIn_effect {e' : Engine σ τ} (effect : Effect env e e') :
    e'.deliveredIn = e.deliveredIn := by
  cases effect with
  | quiet same =>
    unfold deliveredIn
    rw [same.callbacks]
  | queues same | sends same =>
    rw [deliveredIn_exit]
    unfold deliveredIn
    rw [← same.callbacks]
    rfl
  | raw | connectsDone | disconnects | fails =>
    rw [deliveredIn_exit]
    rfl
  | connects =>
    rw [deliveredIn_exit, deliveredIn_runLogin]
    rfl

/-! ## What happens in a closed engine -/

theorem unhandled_state (e : Engine σ τ) (stanza : XmlElement) :
    (e.unhandled env stanza).state = e.state := by
  unfold unhandled sendStanzaError sendStanza
  dsimp only
  repeat' split
  all_goals first
    | rfl
    | rw [exit_eq]; rfl

theorem unhandled_closed (closed : e.state = .closed) (stanza : XmlElement) :
    e.unhandled env stanza = e := by
  unfold unhandled sendStanzaError
  simp only [closed, if_true, ite_self]

theorem signalError_closed (closed : e.state = .closed) (errorCode : Error) (subcode : Int) :
    e.signalError errorCode subcode = e :=
  if_neg (not_not.mpr closed)

variable {config : Config}

/-- No login task runs in a closed engine. -/
theorem Handling.finished (handling : Handling config e) (closed : e.state = .closed)
    (fine : ¬ e.hasError) : e.loginTask = none := by
  cases logging : e.loginTask with
  | none => rfl
  | some task =>
    have opening := (handling.login task logging).resolve_left fine
    cases closed.symm.trans opening

theorem Handling.incomingStart_closed (handling : Handling config e) (closed : e.state = .closed)
    (stream : XmlElement) : e.incomingStart env stream = e := by
  unfold Engine.incomingStart
  split
  · rfl
  · next able =>
    rw [handling.finished closed (not_or.mp able).1]
    exact signalError_closed closed _ _

theorem incomingEnd_closed (closed : e.state = .closed) (isError : Bool) :
    e.incomingEnd isError = e := by
  unfold Engine.incomingEnd
  split
  · rfl
  · exact signalError_closed closed _ _

theorem Handling.incomingStanza_closed (handling : Handling config e) (closed : e.state = .closed)
    {d : Delivery} {e' : Engine σ τ} (dealt : e.incomingStanza env d = .finished e') :
    e' = e := by
  obtain ⟨_, same⟩ | ⟨_, _, rfl⟩ | ⟨able, _, task, logging, rfl⟩ | ⟨_, _, _, _, _, rfl⟩ :=
    incomingStanza_finished dealt
  · exact same
  · unfold Engine.signalStreamError
    rw [if_neg (not_not.mpr closed)]
  · cases (handling.finished closed (not_or.mp able).1).symm.trans logging
  · exact unhandled_closed closed _

/-! ## Runs -/

/-- No handler has been called in a closed engine, and none is there for the rest of the input
of one. -/
def Phase.Silent (phase : Phase) (e : Engine σ τ) : Prop :=
  .closed ∉ e.deliveredIn ∧ ∀ entered events, phase = .handling entered events →
    e.state = .closed → e.hasError = true ∨ ∀ event ∈ events, e.undue event = true

/-- After an event that changes nothing in a closed engine. -/
theorem Phase.Silent.next {entered : State} {event : ParseEvent} {rest : List ParseEvent}
    {e' : Engine σ τ} (silent : Phase.Silent (.handling entered (event :: rest)) e)
    (delivered : e'.deliveredIn = e.deliveredIn)
    (closes : e'.state = .closed → e.state = .closed ∨ e'.hasError = true)
    (stays : e.state = .closed → e' = e) : Phase.Silent (.handling entered rest) e' := by
  refine ⟨delivered ▸ silent.1, fun _ _ same closed => ?_⟩
  cases same
  obtain before | error := closes closed
  · rw [stays before]
    exact (silent.2 _ _ rfl before).imp_right fun undue event member =>
      undue event (List.mem_cons_of_mem _ member)
  · exact .inl error

theorem deliveredIn_call (e : Engine σ τ) {callback : Callback} (state : State)
    (delivers : callback.delivered = some state) :
    (e.call callback).deliveredIn = e.deliveredIn ++ [state] := by
  unfold deliveredIn call
  rw [List.filterMap_append, List.filterMap_cons_some delivers, List.filterMap_nil]

theorem Phase.Silent.incomingEnd {entered : State} {event : ParseEvent} {rest : List ParseEvent}
    (silent : Phase.Silent (.handling entered (event :: rest)) e) (isError : Bool) :
    Phase.Silent (.handling entered rest) (e.incomingEnd isError) := by
  have proceeds : Proceeds e (e.incomingEnd isError) := by
    unfold Engine.incomingEnd
    split
    · exact .refl e
    · exact .signalError e (by split <;> decide) 0
  exact silent.next (deliveredIn_of_proceeds proceeds) proceeds.closes
    fun closed => incomingEnd_closed closed isError

variable {sasl : σ}

/-- What is delivered to a handler is delivered in an open engine. -/
theorem silent_call {e' : Engine σ τ} (silent : State.closed ∉ e.deliveredIn)
    (opened : e.state ≠ .closed) (delivered : e'.deliveredIn = e.deliveredIn ++ [e.state])
    (d : Delivery) : Phase.Silent (.waiting d) e' := by
  refine ⟨fun member => ?_, nofun⟩
  rw [delivered] at member
  obtain before | now := List.mem_append.mp member
  · exact silent before
  · exact opened (List.mem_singleton.mp now).symm

theorem Reached.silent {phase : Phase} (reached : Reached env LastCall config sasl phase e) :
    Phase.Silent phase e := by
  induction reached with
  | new => exact ⟨nofun, nofun⟩
  | @callIdle e call _ ih =>
    exact ⟨deliveredIn_effect (effect_perform env e call) ▸ ih.1, nofun⟩
  | @callWaiting d e call _ ih =>
    exact ⟨deliveredIn_effect (effect_perform env e call) ▸ ih.1, nofun⟩
  | handleInput bytes connected _ ih =>
    exact ⟨ih.1, fun _ _ _ closed => absurd closed (not_or.mp connected).2⟩
  | startStream reached ih =>
    have handling := reached.holds.1
    refine ih.next ?_ ?_ fun closed => handling.incomingStart_closed closed _
    all_goals unfold Engine.incomingStart
    all_goals split
    · rfl
    · split
      · exact deliveredIn_runLogin _ _ _ _
      · exact deliveredIn_of_proceeds (.signalError _ (by decide) _)
    · exact .inl
    · split
      · exact (proceeds_runLogin env _ _ _ _).closes
      · exact (Proceeds.signalError _ (by decide) _).closes
  | endStream _ ih => exact ih.incomingEnd false
  | xmlError _ ih => exact ih.incomingEnd true
  | stanza reached dealt ih =>
    have handling := reached.holds.1
    refine ih.next ?_ ?_ fun closed => handling.incomingStanza_closed closed dealt
    all_goals obtain ⟨_, rfl⟩ | ⟨_, _, rfl⟩ | ⟨_, _, task, _, rfl⟩ | ⟨_, _, _, _, _, rfl⟩ :=
      incomingStanza_finished dealt
    · rfl
    · exact deliveredIn_of_proceeds (.signalStreamError _ _)
    · exact deliveredIn_runLogin _ _ _ _
    · exact deliveredIn_effect (unhandled_effect _ _)
    · exact .inl
    · exact (Proceeds.signalStreamError _ _).closes
    · exact (proceeds_runLogin env _ _ _ _).closes
    · exact fun closed => .inl ((unhandled_state _ _).symm.trans closed)
  | @stanzaWaits entered stanza rest e e' d reached waits delivery ih =>
    obtain ⟨able, other, _, chosen⟩ := incomingStanza_waiting waits
    have opened : e.state ≠ .closed := fun closed => by
      obtain error | undue := ih.2 _ _ rfl closed
      · exact able (.inl error)
      · obtain error | ⟨unasked, nobody⟩ := of_decide_eq_true (undue _ (List.mem_cons_self ..))
        · exact other error
        · obtain ⟨_, found, _⟩ | ⟨_, _, _, _, found, _⟩ := chosen
          · cases unasked.symm.trans found
          · cases nobody.symm.trans found
    refine silent_call ih.1 opened ?_ d
    obtain ⟨entry, _, rfl⟩ | ⟨_, _, _, _, _, rfl⟩ := chosen
    · exact deliveredIn_call _ _ rfl
    · exact deliveredIn_call _ _ rfl
  | @returned d e e' handled reached may dealt ih =>
    have same : e'.deliveredIn = e.deliveredIn ∧ e'.state = e.state ∧
        (e.state = .closed → e' = e) := by
      obtain ⟨_, rfl⟩ | ⟨_, _, _, _, ⟨_, _, rfl⟩ | ⟨_, _, rfl⟩⟩ := returned_finished dealt
      · exact ⟨rfl, rfl, fun _ => rfl⟩
      · exact ⟨rfl, rfl, fun _ => rfl⟩
      · exact ⟨deliveredIn_effect (unhandled_effect _ _), unhandled_state _ _,
          fun closed => unhandled_closed closed _⟩
    refine ⟨same.1 ▸ ih.1, fun _ _ phase closed => ?_⟩
    cases phase
    have before := same.2.1.symm.trans closed
    rw [same.2.2 before]
    exact (may before d (reached.delivery.2 d rfl)).2
  | @returnedWaits d d' e e' handled reached may waits delivery ih =>
    obtain ⟨level, index, handler, position, unhandled, _, _, _, found, rfl⟩ :=
      returned_waiting waits
    have opened : e.state ≠ .closed := fun closed => by
      have last := (may closed d (reached.delivery.2 d rfl)).1
      unfold Engine.last at last
      rw [position] at last
      obtain handled | nobody := of_decide_eq_true last
      · exact unhandled handled
      · cases nobody.symm.trans found
    exact silent_call ih.1 opened (deliveredIn_call _ _ rfl) d'
  | exit _ ih =>
    refine ⟨?_, nofun⟩
    rw [deliveredIn_exit]
    exact ih.1

/-- How often the closing of an engine that has been left is told. -/
theorem AtRest.told {depth : Nat} (atRest : AtRest config depth e) :
    e.callbacks.countP isClose = (config.outputHandler && decide (e.state = .closed)).toNat := by
  have closings := atRest.closings
  by_cases closed : e.state = .closed
  · rw [atRest.closedDown closed] at closings
    rw [decide_eq_true closed, Bool.and_true]
    exact closings
  · have handler : e.outputHandler = config.outputHandler := by
      cases now : e.outputHandler
      · cases given : config.outputHandler
        · rfl
        · exact absurd (atRest.handler now given).1 closed
      · cases given : config.outputHandler
        · simp [now, given] at closings
        · rfl
    rw [handler] at closings
    rw [decide_eq_false closed, Bool.and_false]
    simpa using closings

/-- Where the last call of every delivery is the last one, no handler is called in a closed
engine. The closing is told once, to the session when the input has been handled. -/
theorem closed_once_and_silent (inputs : List Input)
    (returns : Returns env LastCall (Engine.new env config sasl) inputs) :
    let e := (Engine.new env config sasl).run env inputs
    State.closed ∉ e.deliveredIn ∧
      e.callbacks.countP isClose = (config.outputHandler && decide (e.state = .closed)).toNat ∧
      e.callbacks.countP isClosed =
        (e.delivery.isNone && config.sessionHandler && decide (e.state = .closed)).toNat := by
  have reached := reached_run inputs returns
  refine ⟨reached.silent.1, ?_⟩
  have holds := reached.holds
  unfold resting at holds
  generalize (Engine.new env config sasl).run env inputs = e at holds
  cases delivery : e.delivery with
  | none =>
    simp only [delivery] at holds
    exact ⟨AtRest.told holds, holds.changes⟩
  | some d =>
    simp only [delivery] at holds
    exact ⟨AtRest.told holds.1, holds.1.changes⟩

/-- The only handler disconnects. -/
theorem closed_once_and_silent_disconnected :
    let e := Sample.engine .disabled (Sample.login ++ [.call (.addStanzaHandler 1 .peek),
      .handleInput (Sample.bytes Sample.messageText), .call .disconnect, .handlerReturns false])
    e.state = .closed ∧ State.closed ∉ e.deliveredIn ∧
      e.callbacks.countP isClose = (true && decide (e.state = .closed)).toNat ∧
      e.callbacks.countP isClosed =
        (e.delivery.isNone && true && decide (e.state = .closed)).toNat :=
  ⟨by decide +kernel, closed_once_and_silent _ (by decide +kernel)⟩

/-- The first of two handlers disconnects. The other one is called in a closed engine. -/
theorem not_silent_after_disconnect :
    State.closed ∈ (Sample.engine .disabled (Sample.login ++
      [.call (.addStanzaHandler 1 .peek), .call (.addStanzaHandler 2 .peek),
        .handleInput (Sample.bytes Sample.messageText), .call .disconnect,
        .handlerReturns false])).deliveredIn := by
  decide +kernel

end Engine

end Libjingle.Xmpp

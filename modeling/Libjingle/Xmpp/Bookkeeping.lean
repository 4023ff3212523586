import Libjingle.Xmpp.Leaving
import Libjingle.Xmpp.Rounds

/-!
# What an engine keeps count of

In every run the engine knows how often it has been entered, whether it has told its output
handler and its session handler that it is closed, and whether it is still logging in.
-/

namespace Libjingle.Xmpp.Engine

open Libjingle.Xml

variable {σ τ : Type} {env : Environment σ τ}

/-- An engine that has been entered a number of times. -/
structure Counted (config : Config) (depth : Nat) (e : Engine σ τ) : Prop where
  configured : e.config = config
  entered : e.engineEntered = depth
  error : e.state ≠ .closed → e.errorCode = .none
  start : e.state = .start → e.raisedReset = false
  opened : e.state = .opened → e.loginTask = none ∧ e.raisedReset = false
  undone : ∀ task, e.loginTask = some task → task.state ≠ .done
  handler : e.outputHandler = false → config.outputHandler = true →
    e.state = .closed ∧ e.output = []
  closings : e.callbacks.countP isClose + e.outputHandler.toNat = config.outputHandler.toNat
  changes : e.callbacks.countP isClosed =
    (decide (depth = 0) && config.sessionHandler && decide (e.state = .closed)).toNat

/-- An engine that has been left. -/
structure AtRest (config : Config) (depth : Nat) (e : Engine σ τ) : Prop
    extends Counted config depth e where
  closedDown : e.state = .closed → e.outputHandler = false
  flushed : depth = 0 → e.outputHandler = true → e.output = []

/-- An engine that handles input. -/
structure Handling (config : Config) (e : Engine σ τ) : Prop extends Counted config 1 e where
  closedDown : e.state = .closed → e.hasError = true ∨ e.outputHandler = false
  login : ∀ task, e.loginTask = some task → e.hasError = true ∨ e.state = .opening

variable {config : Config} {depth : Nat} {e : Engine σ τ}

/-- Leaving the engine. -/
theorem Counted.exit (counted : Counted config (depth + 1) e) {entered : State}
    (opened : entered ≠ .closed) : AtRest config depth (e.exit env entered) := by
  have closing : e.closing entered = decide (e.state = .closed) := by
    by_cases closed : e.state = .closed <;> simp [Engine.closing, closed, opened.symm]
  have outermost : e.outermost = decide (depth = 0) := by
    simp [Engine.outermost, counted.entered]
  rw [exit_eq]
  refine {
    configured := counted.configured
    entered := by simp [counted.entered]
    error := counted.error
    start := fun start => by simp [counted.start start]
    opened := fun opened => ⟨(counted.opened opened).1, by simp [(counted.opened opened).2]⟩
    undone := counted.undone
    handler := fun gone given => ?_
    closings := ?_
    changes := ?_
    closedDown := fun closed => by simp [closing, show e.state = .closed from closed]
    flushed := fun last still => ?_ }
  · cases handler : e.outputHandler
    · obtain ⟨closed, output⟩ := counted.handler handler given
      exact ⟨closed, by simp [output]⟩
    · have closed : e.state = .closed := by simpa [handler, closing] using gone
      exact ⟨closed, by simp [closing, closed]⟩
  · have before := counted.closings
    rw [← before]
    dsimp only
    rw [List.countP_append, closings_leaving]
    cases e.outputHandler <;> cases e.closing entered <;> simp
  · have before := counted.changes
    dsimp only
    rw [List.countP_append, changes_leaving e entered opened, before, outermost, counted.configured]
    simp
  · have handler : e.outputHandler = true := (Bool.and_eq_true_iff.mp still).1
    simp [outermost, last, handler]

theorem Counted.of_same {e' : Engine σ τ} (counted : Counted config depth e)
    (same : SameSession e e') : Counted config depth e' where
  configured := same.config.trans counted.configured
  entered := same.engineEntered.trans counted.entered
  error := by
    rw [same.state, same.errorCode]
    exact counted.error
  start := by
    rw [same.state, same.raisedReset]
    exact counted.start
  opened := by
    rw [same.state, same.loginTask, same.raisedReset]
    exact counted.opened
  undone := by
    rw [same.loginTask]
    exact counted.undone
  handler := by
    rw [same.outputHandler, same.state, same.output]
    exact counted.handler
  closings := by
    rw [same.callbacks, same.outputHandler]
    exact counted.closings
  changes := by
    rw [same.callbacks, same.state]
    exact counted.changes

theorem AtRest.of_same {e' : Engine σ τ} (atRest : AtRest config depth e)
    (same : SameSession e e') : AtRest config depth e' where
  toCounted := atRest.toCounted.of_same same
  closedDown := by
    rw [same.state, same.outputHandler]
    exact atRest.closedDown
  flushed := by
    rw [same.outputHandler, same.output]
    exact atRest.flushed

/-- An engine that is not closed is entered, and prints. -/
theorem Counted.enter (counted : Counted config depth e) (opened : e.state ≠ .closed)
    (accepted : List XmlElement) (output : List Out) :
    Counted config (depth + 1) { e.enter with accepted := accepted, output := output } where
  configured := counted.configured
  entered := congrArg (· + 1) counted.entered
  error := counted.error
  start := counted.start
  opened := counted.opened
  undone := counted.undone
  handler gone given := absurd (counted.handler gone given).1 opened
  closings := counted.closings
  changes := by
    have before := counted.changes
    rw [decide_eq_false opened, Bool.and_false] at before
    exact before

/-- It starts to connect. -/
theorem Counted.open (counted : Counted config (depth + 1) e) (start : e.state = .start) :
    Counted config (depth + 1) { e with state := .opening } where
  configured := counted.configured
  entered := counted.entered
  error _ := counted.error (by simp [start])
  start := nofun
  opened := nofun
  undone := counted.undone
  handler gone given := nomatch start.symm.trans (counted.handler gone given).1
  closings := counted.closings
  changes := counted.changes

/-- It is closed while it is entered. -/
theorem Counted.close (counted : Counted config (depth + 1) e) (opened : e.state ≠ .closed)
    (errorCode : Error) (subcode : Int) (output : List Out) :
    Counted config (depth + 1) { e with
      state := .closed, errorCode := errorCode, subcode := subcode, output := output } where
  configured := counted.configured
  entered := counted.entered
  error closed := absurd rfl closed
  start := nofun
  opened := nofun
  undone := counted.undone
  handler gone given := absurd (counted.handler gone given).1 opened
  closings := counted.closings
  changes := counted.changes

theorem Counted.signalError (counted : Counted config (depth + 1) e) (errorCode : Error)
    (subcode : Int) : Counted config (depth + 1) (e.signalError errorCode subcode) := by
  unfold Engine.signalError
  split
  · next opened => exact counted.close opened errorCode subcode e.output
  · exact counted

theorem countP_startTls {new : List Callback} (p : Callback → Bool)
    (other : ∀ domain, p (.startTls domain) = false)
    (tls : ∀ c ∈ new, ∃ domain, c = .startTls domain) : new.countP p = 0 := by
  refine List.countP_eq_zero.mpr fun c member => ?_
  obtain ⟨domain, rfl⟩ := tls c member
  rw [other]
  exact Bool.false_ne_true

/-- The login task runs in an engine that connects. -/
theorem Counted.runLogin (counted : Counted config (depth + 1) e) {task : LoginTask}
    (logging : e.loginTask = some task) (opening : e.state = .opening)
    (fresh : e.raisedReset = false) (element : Option XmlElement) (isStart : Bool) :
    Counted config (depth + 1) (e.runLogin env task element isStart) := by
  have advances := runLogin_advances env e task (counted.undone task logging) element isStart
  have proceeds := proceeds_runLogin env e task element isStart
  obtain ⟨new, called, tls⟩ := proceeds.callbacks
  have opened : e.state ≠ .closed := fun closed => nomatch opening.symm.trans closed
  have same : ∀ p : Callback → Bool, (∀ domain, p (.startTls domain) = false) →
      (e.runLogin env task element isStart).callbacks.countP p = e.callbacks.countP p := by
    intro p other
    have after : (e.runLogin env task element isStart).callbacks = e.callbacks ++ new := called
    rw [after, List.countP_append, countP_startTls p other tls, Nat.add_zero]
  refine {
    configured := proceeds.config.trans counted.configured
    entered := proceeds.engineEntered.trans counted.entered
    error := fun open_ => ?_
    start := fun start => nomatch opening.symm.trans (proceeds.started start)
    opened := fun open_ => ?_
    undone := fun task' kept => ?_
    handler := fun gone given => ?_
    closings := ?_
    changes := ?_ }
  · have before := counted.error opened
    cases advances with
    | goes _ _ _ errorCode => exact errorCode.trans before
    | fails _ closed => exact absurd closed open_
    | succeeds _ _ errorCode => exact errorCode.trans before
  · cases advances with
    | goes _ _ state => cases opening.symm.trans (state.symm.trans open_)
    | fails _ closed => cases closed.symm.trans open_
    | succeeds deleted _ _ raisedReset => exact ⟨deleted, raisedReset.trans fresh⟩
  · -- A task that is done is deleted.
    unfold Engine.runLogin at kept
    dsimp only at kept
    split at kept
    · cases kept
    · next pending =>
      cases kept
      exact pending
  · have before : e.outputHandler = false := proceeds.outputHandler.symm.trans gone
    exact absurd (counted.handler before given).1 opened
  · rw [same isClose fun _ => rfl]
    have handler : (e.runLogin env task element isStart).outputHandler = e.outputHandler :=
      proceeds.outputHandler
    rw [handler]
    exact counted.closings
  · rw [same isClosed fun _ => rfl]
    exact counted.changes

/-- A call of the application. -/
theorem AtRest.effect (atRest : AtRest config depth e) {e' : Engine σ τ}
    (effect : Effect env e e') : AtRest config depth e' := by
  cases effect with
  | quiet same => exact atRest.of_same same
  | @queues e' same opened task logging element =>
    have counted := (atRest.toCounted.of_same same).enter opened (e'.accepted ++ [element]) e'.output
    refine Counted.exit ?_ opened
    exact { counted with
      opened := fun open_ => nomatch logging.symm.trans (counted.opened open_).1
      undone := fun task' kept => by
        cases kept
        exact counted.undone task logging }
  | sends same opened finished element =>
    exact ((atRest.toCounted.of_same same).enter opened _ _).exit opened
  | raw opened finished text => exact (atRest.toCounted.enter opened e.accepted _).exit opened
  | connects start task logging =>
    have counted := (atRest.toCounted.enter (by simp [start]) e.accepted e.output).open start
    refine Counted.exit (counted.runLogin logging rfl ?_ none false) (by decide)
    exact atRest.start start
  | connectsDone start finished =>
    exact ((atRest.toCounted.enter (by simp [start]) e.accepted e.output).open start).exit
      (by decide)
  | disconnects opened =>
    have closed := (atRest.toCounted.enter opened e.accepted e.output).close opened
    exact (closed e.errorCode e.subcode _).exit opened
  | fails opened errorCode real subcode =>
    have closed := (atRest.toCounted.enter opened e.accepted e.output).close opened
    exact (closed errorCode subcode e.output).exit opened

/-! ## Every phase -/

theorem Handling.runLogin (handling : Handling config e) {task : LoginTask}
    (logging : e.loginTask = some task) (fine : ¬ e.hasError) (settled : ¬ e.raisedReset)
    (element : Option XmlElement) (isStart : Bool) :
    Handling config (e.runLogin env task element isStart) := by
  have opening := (handling.login task logging).resolve_left fine
  have fresh := Bool.eq_false_iff.mpr settled
  have proceeds := proceeds_runLogin env e task element isStart
  have advances := runLogin_advances env e task (handling.undone task logging) element isStart
  refine ⟨handling.toCounted.runLogin logging opening fresh element isStart, fun closed => ?_,
    fun task' kept => ?_⟩
  · exact .inl ((proceeds.closes closed).resolve_left (by simp [opening]))
  · cases advances with
    | goes _ _ state => exact .inr (state.trans opening)
    | fails deleted => cases deleted.symm.trans kept
    | succeeds deleted => cases deleted.symm.trans kept

theorem Handling.signalError (handling : Handling config e) {errorCode : Error}
    (real : errorCode ≠ .none) (subcode : Int) :
    Handling config (e.signalError errorCode subcode) := by
  refine { handling.toCounted.signalError errorCode subcode with
    closedDown := ?_
    login := ?_ }
  all_goals unfold Engine.signalError
  all_goals split
  · exact fun _ => .inl (decide_eq_true real)
  · exact handling.closedDown
  · exact fun _ _ => .inl (decide_eq_true real)
  · exact handling.login

/-- What holds of an engine in a phase. -/
def Phase.Holds (config : Config) : Phase → Engine σ τ → Prop
  | .idle, e => AtRest config 0 e
  | .handling entered _, e => Handling config e ∧ entered ≠ .closed
  | .waiting d, e => AtRest config 1 e ∧ d.entered ≠ .closed ∧ e.loginTask = none

theorem Handling.incomingStart (handling : Handling config e) (stream : XmlElement) :
    Handling config (e.incomingStart env stream) := by
  unfold Engine.incomingStart
  split
  · exact handling
  · next able =>
    obtain ⟨fine, settled⟩ := not_or.mp able
    split
    · next task logging => exact handling.runLogin logging fine settled _ _
    · exact handling.signalError (by decide) _

theorem Handling.incomingEnd (handling : Handling config e) (isError : Bool) :
    Handling config (e.incomingEnd isError) := by
  unfold Engine.incomingEnd
  split
  · exact handling
  · exact handling.signalError (by split <;> decide) _

theorem Handling.signalStreamError (handling : Handling config e) (streamError : XmlElement) :
    Handling config (e.signalStreamError streamError) := by
  unfold Engine.signalStreamError
  split
  · have noted : Handling config { e with streamError := some streamError } :=
      ⟨handling.toCounted.of_same ⟨rfl, rfl, rfl, rfl, rfl, rfl, rfl, rfl, rfl, rfl, rfl⟩,
        handling.closedDown, handling.login⟩
    exact noted.signalError (by decide) 0
  · exact handling

theorem Handling.atRest (handling : Handling config e) (fine : ¬ e.hasError) :
    AtRest config 1 e :=
  ⟨handling.toCounted, fun closed => (handling.closedDown closed).resolve_left fine, nofun⟩

theorem AtRest.handling (atRest : AtRest config 1 e) (finished : e.loginTask = none) :
    Handling config e :=
  ⟨atRest.toCounted, fun closed => .inr (atRest.closedDown closed),
    fun _ logging => nomatch finished.symm.trans logging⟩

/-- No call starts the login anew. -/
theorem Effect.loginTask {e' : Engine σ τ} (effect : Effect env e e')
    (finished : e.loginTask = none) : e'.loginTask = none := by
  cases effect with
  | quiet same => exact same.loginTask.trans finished
  | queues same _ _ logging => cases (same.loginTask.trans finished).symm.trans logging
  | sends same _ finished' =>
    rw [exit_eq]
    exact finished'
  | connects _ _ logging => cases finished.symm.trans logging
  | raw | connectsDone | disconnects | fails =>
    rw [exit_eq]
    exact finished

theorem unhandled_effect (e : Engine σ τ) (stanza : XmlElement) :
    Effect env e (e.unhandled env stanza) := by
  unfold Engine.unhandled
  dsimp only
  split
  · exact effect_sendStanzaError env e stanza _ _
  · exact .quiet (.refl e)

/-- A handler of stanzas is called. -/
theorem AtRest.called (atRest : AtRest config depth e) (callback : Callback)
    (iqEntries : List IqEntry) (delivery : Option Delivery) (open_ : isClose callback = false)
    (quiet : isClosed callback = false) :
    AtRest config depth { e with
      callbacks := e.callbacks ++ [callback], iqEntries := iqEntries, delivery := delivery } :=
  { atRest with
    closings := by
      have before := atRest.closings
      simpa [open_] using before
    changes := by
      have before := atRest.changes
      simpa [quiet] using before }

variable {allowed : Engine σ τ → Bool → Prop} {sasl : σ}

theorem AtRest.new (env : Environment σ τ) (config : Config) (sasl : σ) :
    AtRest config 0 (Engine.new env config sasl) where
  configured := rfl
  entered := rfl
  error _ := rfl
  start _ := rfl
  opened := nofun
  undone task kept := by
    cases kept
    decide
  handler gone given := nomatch gone.symm.trans given
  closings := Nat.zero_add _
  changes := by simp [Engine.new]
  closedDown := nofun
  flushed _ _ := rfl

theorem AtRest.handleInput (atRest : AtRest config 0 e)
    (connected : ¬ (e.state = .start ∨ e.state = .closed)) (parser : τ) :
    Handling config { e.enter with parser := parser } := by
  obtain ⟨started, opened⟩ := not_or.mp connected
  have entered := atRest.toCounted.enter opened e.accepted e.output
  refine ⟨entered.of_same ⟨rfl, rfl, rfl, rfl, rfl, rfl, rfl, rfl, rfl, rfl, rfl⟩,
    fun closed => absurd closed opened, fun task logging => .inr ?_⟩
  cases state : e.state
  · exact absurd state started
  · exact state
  · cases (atRest.opened state).1.symm.trans logging
  · exact absurd state opened

/-- A stanza that nobody has handled. -/
theorem Handling.unhandled (handling : Handling config e) (finished : e.loginTask = none)
    (stanza : XmlElement) : Handling config (e.unhandled env stanza) := by
  have effect : Effect env e (e.unhandled env stanza) := unhandled_effect e stanza
  by_cases fine : e.hasError
  · -- A closed engine refuses the error.
    have closed : e.state = .closed := by
      by_contra opened
      simp [hasError, handling.error opened] at fine
    unfold Engine.unhandled sendStanzaError
    simp only [closed, if_true, ite_self]
    exact handling
  · exact ((handling.atRest fine).effect effect).handling (effect.loginTask finished)

/-- The books are kept in every run. -/
theorem Reached.holds {phase : Phase} (reached : Reached env allowed config sasl phase e) :
    phase.Holds config e := by
  induction reached with
  | new => exact .new env config sasl
  | callIdle call _ ih => exact ih.effect (effect_perform env _ call)
  | @callWaiting d e call _ ih =>
    have effect := effect_perform env e call
    exact ⟨ih.1.effect effect, ih.2.1, effect.loginTask ih.2.2⟩
  | handleInput bytes connected _ ih =>
    exact ⟨ih.handleInput connected _, (not_or.mp connected).2⟩
  | startStream _ ih => exact ⟨ih.1.incomingStart _, ih.2⟩
  | endStream _ ih => exact ⟨ih.1.incomingEnd _, ih.2⟩
  | xmlError _ ih => exact ⟨ih.1.incomingEnd _, ih.2⟩
  | stanza _ dealt ih =>
    obtain ⟨handling, opened⟩ := ih
    refine ⟨?_, opened⟩
    obtain ⟨_, rfl⟩ | ⟨_, _, rfl⟩ | ⟨able, _, task, logging, rfl⟩ | ⟨_, _, finished, _, _, rfl⟩ :=
      incomingStanza_finished dealt
    · exact handling
    · exact handling.signalStreamError _
    · obtain ⟨fine, settled⟩ := not_or.mp able
      exact handling.runLogin logging fine settled _ _
    · exact handling.unhandled finished _
  | stanzaWaits _ waits delivery ih =>
    obtain ⟨handling, opened⟩ := ih
    obtain ⟨able, _, finished, ⟨_, _, rfl⟩ | ⟨_, _, _, _, _, rfl⟩⟩ := incomingStanza_waiting waits
    · cases delivery
      have atRest := handling.atRest (not_or.mp able).1
      exact ⟨atRest.called _ _ _ rfl rfl, opened, finished⟩
    · cases delivery
      have atRest := handling.atRest (not_or.mp able).1
      exact ⟨atRest.called _ _ _ rfl rfl, opened, finished⟩
  | returned handled _ _ dealt ih =>
    obtain ⟨atRest, opened, finished⟩ := ih
    refine ⟨?_, opened⟩
    obtain ⟨_, rfl⟩ | ⟨_, _, _, _, ⟨_, _, rfl⟩ | ⟨_, _, rfl⟩⟩ := returned_finished dealt
    · exact atRest.handling finished
    · exact atRest.handling finished
    · exact (atRest.handling finished).unhandled finished _
  | returnedWaits handled _ _ waits delivery ih =>
    obtain ⟨atRest, opened, finished⟩ := ih
    obtain ⟨_, _, _, _, _, _, _, _, _, rfl⟩ := returned_waiting waits
    cases delivery
    exact ⟨atRest.called _ _ _ rfl rfl, opened, finished⟩
  | exit _ ih =>
    obtain ⟨handling, opened⟩ := ih
    refine Counted.exit ?_ opened
    exact handling.toCounted.of_same ⟨rfl, rfl, rfl, rfl, rfl, rfl, rfl, rfl, rfl, rfl, rfl⟩

/-- After every input of a run the engine has been left as often as entered, but for a handler that
runs. Only a closed engine has an error, and it is open only after the login. -/
theorem bookkeeping_run (env : Environment σ τ) (config : Config) (sasl : σ)
    (inputs : List Input) :
    let e := (Engine.new env config sasl).run env inputs
    e.engineEntered = e.delivery.isSome.toNat ∧ (e.state ≠ .closed → e.errorCode = .none) ∧
      (e.state = .opened → e.loginTask = none ∧ e.raisedReset = false) := by
  have holds := (reached_run inputs (returns_any (Engine.new env config sasl) inputs)).holds
  unfold resting at holds
  generalize (Engine.new env config sasl).run env inputs = e at holds
  cases delivery : e.delivery with
  | none =>
    simp only [delivery] at holds
    exact ⟨delivery ▸ holds.entered, holds.error, holds.opened⟩
  | some d =>
    simp only [delivery] at holds
    exact ⟨delivery ▸ holds.1.entered, holds.1.error, holds.1.opened⟩

end Libjingle.Xmpp.Engine

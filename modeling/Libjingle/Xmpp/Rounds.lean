import Libjingle.Xmpp.Proceeding

/-!
# What a round of the login comes to

The task goes on, it fails, or it succeeds. Until it succeeds it prints nothing of what the
application has sent.
-/

namespace Libjingle.Xmpp

open Libjingle.Xml

variable {σ τ : Type} (env : Environment σ τ)

/-- What the login task prints itself. -/
def Out.OfLogin (out : Out) : Prop :=
  (∃ hostname lang, out = .streamStart hostname lang) ∨ ∃ element, out = .stanza .login element

/-- The request for a session. -/
def Out.IsSessionRequest (out : Out) : Prop :=
  ∃ id, out = .stanza .login
    ((((XmlElement.new qnIq).addAttr qnType "set").addAttr qnId id).addElement
      (.newDefaultNs qnSessionSession))

namespace Login

/-- The task has gone on. A session is requested before it is waited for. -/
structure Progresses (l l' : Login σ τ) : Prop where
  state : l'.engine.state = l.engine.state
  errorCode : l'.engine.errorCode = l.engine.errorCode
  queued : l'.task.queuedStanzas = l.task.queuedStanzas
  undone : l'.task.state = .done → l.task.state = .done
  printed : ∃ new, l'.engine.output = l.engine.output ++ new ∧ (∀ out ∈ new, out.OfLogin) ∧
    (l'.task.state = .sessionRequested → l.task.state = .sessionRequested ∨
      ∃ out ∈ new, out.IsSessionRequest)

/-- A round after which the task goes on. A reset is raised only where a stream is started. -/
structure Goes (l l' : Login σ τ) : Prop extends Progresses l l' where
  reset : l'.engine.raisedReset = l.engine.raisedReset ∨ l'.task.state = .streamStartSent

/-- The errors of a login that fails. -/
def loginErrors : List Error := [.version, .tls, .auth, .unauthorized, .bind]

structure Fails (l l' : Login σ τ) : Prop where
  state : l'.engine.state = .closed
  error : l.engine.state ≠ .closed → l'.engine.errorCode ∈ loginErrors
  done : l'.task.state = .done
  output : l'.engine.output = l.engine.output
  queued : l'.task.queuedStanzas = l.task.queuedStanzas

structure Succeeds (l l' : Login σ τ) : Prop where
  requested : l.task.state = .sessionRequested
  state : l'.engine.state = if l.engine.state = .opening then .opened else l.engine.state
  done : l'.task.state = .done
  errorCode : l'.engine.errorCode = l.engine.errorCode
  raisedReset : l'.engine.raisedReset = l.engine.raisedReset
  output : l'.engine.output =
    l.engine.output ++ l.task.queuedStanzas.map (.stanza .application)

variable (l : Login σ τ)

theorem Progresses.refl : Progresses l l :=
  ⟨rfl, rfl, rfl, id, ⟨[], (List.append_nil _).symm, nofun, .inl⟩⟩

theorem Progresses.trans {l l' l'' : Login σ τ} (first : Progresses l l')
    (second : Progresses l' l'') : Progresses l l'' where
  state := second.state.trans first.state
  errorCode := second.errorCode.trans first.errorCode
  queued := second.queued.trans first.queued
  undone done := first.undone (second.undone done)
  printed := by
    obtain ⟨new, output, own, request⟩ := first.printed
    obtain ⟨later, output', own', request'⟩ := second.printed
    refine ⟨new ++ later, by rw [output', output, List.append_assoc], fun out member => ?_,
      fun asked => ?_⟩
    · exact (List.mem_append.mp member).elim (own out) (own' out)
    · obtain before | ⟨out, member, asks⟩ := request' asked
      · obtain before | ⟨out, member, asks⟩ := request before
        · exact .inl before
        · exact .inr ⟨out, List.mem_append_left _ member, asks⟩
      · exact .inr ⟨out, List.mem_append_right _ member, asks⟩

theorem Goes.refl : Goes l l := ⟨.refl l, .inl rfl⟩

/-- A step that prints nothing. -/
theorem Goes.quiet {l l' : Login σ τ} (state : LoginState) (engine : l'.engine = l.engine)
    (queued : l'.task.queuedStanzas = l.task.queuedStanzas)
    (next : l'.task.state = state) (undone : state ≠ .done) (unasked : state ≠ .sessionRequested) :
    Goes l l' where
  state := by rw [engine]
  errorCode := by rw [engine]
  queued := queued
  undone done := absurd (next.symm.trans done) undone
  printed := ⟨[], by rw [engine, List.append_nil], nofun,
    fun asked => absurd (next.symm.trans asked) unasked⟩
  reset := .inl (by rw [engine])

/-- A failure, after steps that print nothing. -/
theorem fails_failure {l l' : Login σ τ} (reason : Error)
    (state : l'.engine.state = l.engine.state) (output : l'.engine.output = l.engine.output)
    (queued : l'.task.queuedStanzas = l.task.queuedStanzas)
    (own : reason ∈ loginErrors := by decide) : Fails l (l'.failure reason) := by
  unfold failure Engine.signalError
  split
  · exact ⟨rfl, fun _ => own, rfl, output, queued⟩
  · next closed =>
    have before := not_not.mp closed
    exact ⟨before, fun opened => absurd (state.symm.trans before) opened, rfl, output, queued⟩

/-- An element is sent, and the task goes to a state that is not one of the last two. -/
theorem goes_send {l l' : Login σ τ} (element : XmlElement) (state : LoginState)
    (engine : l'.engine.state = l.engine.state ∧ l'.engine.errorCode = l.engine.errorCode ∧
      l'.engine.raisedReset = l.engine.raisedReset)
    (output : l'.engine.output = l.engine.output ++ [.stanza .login element])
    (queued : l'.task.queuedStanzas = l.task.queuedStanzas) (next : l'.task.state = state)
    (undone : state ≠ .done) (unasked : state ≠ .sessionRequested) : Goes l l' where
  state := engine.1
  errorCode := engine.2.1
  queued := queued
  undone done := absurd (next.symm.trans done) undone
  printed := ⟨_, output, fun _ member => .inr ⟨element, List.mem_singleton.mp member⟩,
    fun asked => absurd (next.symm.trans asked) unasked⟩
  reset := .inl engine.2.2

theorem flushQueuedStanzas_engine :
    l.flushQueuedStanzas.engine = { l.engine with
      output := l.engine.output ++ l.task.queuedStanzas.map (.stanza .application) } := by
  unfold flushQueuedStanzas
  dsimp only
  generalize l.task.queuedStanzas = queued
  generalize l.engine = e
  induction queued generalizing e with
  | nil => simp
  | cons element rest ih =>
    rw [List.foldl_cons, ih]
    simp [Engine.internalSendStanza, Engine.print]

/-- The answer to the request for a session. -/
theorem onSessionAnswer_outcome (element : XmlElement)
    (requested : l.task.state = .sessionRequested) :
    l.onSessionAnswer element = l ∨ Fails l (l.onSessionAnswer element) ∨
      Succeeds l (l.onSessionAnswer element) := by
  unfold onSessionAnswer
  split
  · exact .inl rfl
  · split
    · exact .inr (.inl (fails_failure _ rfl rfl rfl))
    · refine .inr (.inr ?_)
      have flushed := flushQueuedStanzas_engine
        { l with engine := l.engine.signalBound l.task.fullJid }
      refine ⟨requested, ?_, rfl, ?_, ?_, ?_⟩
      all_goals dsimp only [setState]
      all_goals rw [flushed]
      all_goals dsimp only
      all_goals unfold Engine.signalBound
      all_goals split <;> rfl

/-- What a round can come to. -/
theorem round_outcome :
    Goes l (l.round env).2 ∨
      (l.round env).1 = false ∧ (Fails l (l.round env).2 ∨ Succeeds l (l.round env).2) := by
  unfold round
  split
  · -- A stream is started.
    refine .inl ⟨⟨rfl, rfl, rfl, nofun, ⟨_, rfl, fun _ member => .inl ?_, nofun⟩⟩, .inr rfl⟩
    exact ⟨_, _, List.mem_singleton.mp member⟩
  · unfold onTlsInit
    split
    · exact .inr ⟨rfl, .inl (fails_failure _ rfl rfl rfl)⟩
    · exact .inl (goes_send _ .tlsRequested ⟨rfl, rfl, rfl⟩ rfl rfl rfl (by decide) (by decide))
  · unfold onAuthInit
    split
    · exact .inr ⟨rfl, .inl (fails_failure _ rfl rfl rfl)⟩
    · dsimp only
      split
      · exact .inr ⟨rfl, .inl (fails_failure _ rfl rfl rfl)⟩
      · split
        · exact .inr ⟨rfl, .inl (fails_failure _ rfl rfl rfl)⟩
        · split
          · exact .inr ⟨rfl, .inl (fails_failure _ rfl rfl rfl)⟩
          · exact .inl (goes_send _ .saslRunning ⟨rfl, rfl, rfl⟩ rfl rfl rfl (by decide) (by decide))
  · unfold onBindInit
    split
    · exact .inl (goes_send _ .bindRequested ⟨rfl, rfl, rfl⟩ rfl rfl rfl (by decide) (by decide))
    · exact .inr ⟨rfl, .inl (fails_failure _ rfl rfl rfl)⟩
  · exact .inl (.refl l)
  · split
    · exact .inl (.refl l)
    · unfold onStartStream
      split
      · exact .inr ⟨rfl, .inl (fails_failure _ rfl rfl rfl)⟩
      · exact .inl (.quiet .startedXmpp rfl rfl rfl (by decide) (by decide))
  · split
    · exact .inl (.refl l)
    · unfold onFeatures
      dsimp only
      split_ifs
      · exact .inr ⟨rfl, .inl (fails_failure _ rfl rfl rfl)⟩
      · exact .inr ⟨rfl, .inl (fails_failure _ rfl rfl rfl)⟩
      · exact .inl (.quiet .tlsInit rfl rfl rfl (by decide) (by decide))
      · exact .inl (.quiet .authInit rfl rfl rfl (by decide) (by decide))
      · exact .inl (.quiet .bindInit rfl rfl rfl (by decide) (by decide))
  · split
    · exact .inl (.refl l)
    · unfold onTlsAnswer
      split_ifs
      · exact .inr ⟨rfl, .inl (fails_failure _ rfl rfl rfl)⟩
      · refine .inl ?_
        dsimp only [takeStanza, setState]
        unfold Engine.startTls
        split
        all_goals
          exact ⟨⟨rfl, rfl, rfl, nofun, ⟨[], (List.append_nil _).symm, nofun, nofun⟩⟩, .inl rfl⟩
  · split
    · exact .inl (.refl l)
    · unfold onSasl
      dsimp only
      split_ifs
      · exact .inr ⟨rfl, .inl (fails_failure _ rfl rfl rfl)⟩
      · split
        · exact .inr ⟨rfl, .inl (fails_failure _ rfl rfl rfl)⟩
        · exact .inl (goes_send _ .saslRunning ⟨rfl, rfl, rfl⟩ rfl rfl rfl (by decide) (by decide))
      · exact .inr ⟨rfl, .inl (fails_failure _ rfl rfl rfl)⟩
      · exact .inl (.quiet .init rfl rfl rfl (by decide) (by decide))
  · split
    · exact .inl (.refl l)
    · next waiting _ element _ =>
      unfold onBindAnswer
      dsimp only
      split
      · exact .inl (.quiet .bindRequested rfl rfl waiting (by decide) (by decide))
      · split
        · exact .inr ⟨rfl, .inl (fails_failure _ rfl rfl rfl)⟩
        · split
          · exact .inr ⟨rfl, .inl (fails_failure _ rfl rfl rfl)⟩
          · -- The session is requested.
            refine .inl ⟨⟨rfl, rfl, rfl, nofun, ⟨_, rfl, ?_, fun _ => .inr ?_⟩⟩, .inl rfl⟩
            · exact fun _ member => .inr ⟨_, List.mem_singleton.mp member⟩
            · exact ⟨_, List.mem_singleton.mpr rfl, _, rfl⟩
  · split
    · exact .inl (.refl l)
    · next waiting _ element _ =>
      obtain same | fails | succeeds := onSessionAnswer_outcome l.takeStanza element waiting
      · dsimp only
        rw [same]
        exact .inl ⟨⟨rfl, rfl, rfl, id, ⟨[], (List.append_nil _).symm, nofun, .inl⟩⟩, .inl rfl⟩
      · exact .inr ⟨rfl, .inl ⟨fails.state, fails.error, fails.done, fails.output, fails.queued⟩⟩
      · obtain ⟨requested, state, done, errorCode, raisedReset, output⟩ := succeeds
        exact .inr ⟨rfl, .inr ⟨requested, state, done, errorCode, raisedReset, output⟩⟩

/-- Before the stream has been started there is nothing to go on with. -/
theorem round_streamStartSent (sent : l.task.state = .streamStartSent) :
    (l.round env).1 = false := by
  unfold round
  rw [sent]
  dsimp only
  split <;> rfl

/-- What the rounds of one stanza come to. A login does not succeed with a reset raised. -/
theorem rounds_outcome (n : Nat) : ∃ m, Progresses l m ∧
    (l.rounds env n = m ∨ Fails m (l.rounds env n) ∨ Succeeds m (l.rounds env n) ∧
      l.task.state ≠ .streamStartSent ∧
        (l.rounds env n).engine.raisedReset = l.engine.raisedReset) := by
  induction n generalizing l with
  | zero => exact ⟨l, .refl l, .inl rfl⟩
  | succ n ih =>
    have outcome := round_outcome env l
    rw [rounds]
    split
    · next l' result =>
      rw [result] at outcome
      obtain goes | ⟨stops, _⟩ := outcome
      · obtain ⟨m, progresses, same | fails | ⟨succeeds, started, raised⟩⟩ := ih l'
        · exact ⟨m, goes.toProgresses.trans progresses, .inl same⟩
        · exact ⟨m, goes.toProgresses.trans progresses, .inr (.inl fails)⟩
        · refine ⟨m, goes.toProgresses.trans progresses, .inr (.inr ⟨succeeds, ?_, ?_⟩)⟩
          · intro sent
            have stops := round_streamStartSent env l sent
            rw [result] at stops
            cases stops
          · exact raised.trans (goes.reset.resolve_right started)
      · cases stops
    · next l' result =>
      rw [result] at outcome
      obtain goes | ⟨_, fails | succeeds⟩ := outcome
      · exact ⟨l', goes.toProgresses, .inl rfl⟩
      · exact ⟨l, .refl l, .inr (.inl fails)⟩
      · refine ⟨l, .refl l, .inr (.inr ⟨succeeds, fun sent => ?_, succeeds.raisedReset⟩)⟩
        cases succeeds.requested.symm.trans sent

end Login

namespace Engine

variable (e : Engine σ τ)

/-- The login goes on, it has failed, or it has succeeded. -/
inductive Advances (task : LoginTask) (e' : Engine σ τ) : Prop where
  | goes (task' : LoginTask) (kept : e'.loginTask = some task') (state : e'.state = e.state)
      (errorCode : e'.errorCode = e.errorCode)
      (queued : task'.queuedStanzas = task.queuedStanzas)
      (new : List Out) (output : e'.output = e.output ++ new) (own : ∀ out ∈ new, out.OfLogin)
      (request : task'.state = .sessionRequested → task.state = .sessionRequested ∨
        ∃ out ∈ new, out.IsSessionRequest)
  | fails (deleted : e'.loginTask = none) (state : e'.state = .closed)
      (error : e.state ≠ .closed → e'.errorCode ∈ Login.loginErrors) (new : List Out) (output : e'.output = e.output ++ new) (own : ∀ out ∈ new, out.OfLogin)
  | succeeds (deleted : e'.loginTask = none)
      (state : e'.state = if e.state = .opening then .opened else e.state)
      (errorCode : e'.errorCode = e.errorCode) (raisedReset : e'.raisedReset = e.raisedReset)
      (new : List Out)
      (output : e'.output = e.output ++ new ++ task.queuedStanzas.map (.stanza .application))
      (own : ∀ out ∈ new, out.OfLogin)
      (request : task.state = .sessionRequested ∨ ∃ out ∈ new, out.IsSessionRequest)

/-- A login task that is not done advances. -/
theorem runLogin_advances (task : LoginTask) (undone : task.state ≠ .done)
    (element : Option XmlElement) (isStart : Bool) :
    e.Advances task (e.runLogin env task element isStart) := by
  obtain ⟨m, progresses, outcome⟩ := Login.rounds_outcome env
    ⟨e, { task with stanza := element, isStart := isStart }⟩ 4
  obtain ⟨new, output, own, request⟩ := progresses.printed
  have pending : m.task.state ≠ .done := fun done => undone (progresses.undone done)
  unfold runLogin Login.advance
  generalize Login.rounds env 4 ⟨e, { task with stanza := element, isStart := isStart }⟩ = l
    at outcome ⊢
  obtain same | fails | ⟨succeeds, _, raised⟩ := outcome
  · subst same
    exact .goes _ (if_neg pending) progresses.state progresses.errorCode progresses.queued new
      output own request
  · refine .fails (if_pos fails.done) fails.state (fun opened => ?_) new
      (fails.output.trans output) own
    exact fails.error fun closed => opened (progresses.state.symm.trans closed)
  · refine .succeeds (if_pos succeeds.done) ?_ (succeeds.errorCode.trans progresses.errorCode)
      raised new ?_ own (request succeeds.requested)
    · have state := succeeds.state
      rw [progresses.state] at state
      exact state
    · have printed := succeeds.output
      rw [progresses.queued, output] at printed
      exact printed

end Engine

end Libjingle.Xmpp

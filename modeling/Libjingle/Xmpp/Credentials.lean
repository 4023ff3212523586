import Libjingle.Xmpp.Bookkeeping
import Mathlib.Data.List.Basic

/-!
# Where TLS is required

Until `StartTls` has been called, an engine for which TLS is required writes nothing but the
headers of streams, the request for TLS and the end of a stream. What comes after `<proceed/>`
in the same input has no effect.
-/

namespace Libjingle.Xmpp

open Libjingle.Xml

variable {σ τ : Type} (env : Environment σ τ)

/-- What may be written in the clear. -/
inductive Out.Harmless : Out → Prop where
  | streamStart (hostname lang : String) : Harmless (.streamStart hostname lang)
  | starttls : Harmless (.stanza .login (.newDefaultNs qnTlsStarttls))
  | streamEnd : Harmless .streamEnd

def Callback.isStartTls : Callback → Bool
  | .startTls _ => true
  | _ => false

namespace Login

variable {l : Login σ τ}

/-! ## When TLS starts -/

/-- The login task calls `StartTls` where it starts anew. -/
theorem round_callbacks (l : Login σ τ) :
    (l.round env).2.engine.callbacks = l.engine.callbacks ∨
      ((l.round env).1 = true ∧ (l.round env).2.task.state = .init) := by
  have failed (l : Login σ τ) (reason : Error) :
      (l.failure reason).engine.callbacks = l.engine.callbacks := by
    unfold failure Engine.signalError
    split <;> rfl
  unfold round
  split
  · exact .inl rfl
  · unfold onTlsInit
    split
    · exact .inl (failed l _)
    · exact .inl rfl
  · unfold onAuthInit
    split
    · exact .inl (failed l _)
    · dsimp only
      split
      · exact .inl (failed _ _)
      · split
        · exact .inl (failed _ _)
        · split
          · exact .inl (failed _ _)
          · exact .inl rfl
  · unfold onBindInit
    split
    · exact .inl rfl
    · exact .inl (failed l _)
  · exact .inl rfl
  all_goals split
  all_goals try exact .inl rfl
  · unfold onStartStream
    split
    · exact .inl (failed _ _)
    · exact .inl rfl
  · unfold onFeatures
    dsimp only
    split_ifs
    · exact .inl (failed _ _)
    · exact .inl (failed _ _)
    all_goals exact .inl rfl
  · unfold onTlsAnswer
    split_ifs
    · exact .inl (failed _ _)
    · exact .inr ⟨rfl, rfl⟩
  · unfold onSasl
    dsimp only
    split_ifs
    · exact .inl (failed _ _)
    · split
      · exact .inl (failed _ _)
      · exact .inl rfl
    · exact .inl (failed _ _)
    · exact .inl rfl
  · unfold onBindAnswer
    dsimp only
    split
    · exact .inl rfl
    · split
      · exact .inl (failed _ _)
      · split
        · exact .inl (failed _ _)
        · exact .inl rfl
  · unfold onSessionAnswer
    dsimp only
    split
    · exact .inl rfl
    · split
      · exact .inl (failed _ _)
      · rw [show ∀ l : Login σ τ, (l.setState .done).engine = l.engine from fun _ => rfl,
          flushQueuedStanzas_engine]
        unfold Engine.signalBound
        split <;> exact .inl rfl

/-- A reset is raised when TLS has been started. -/
theorem rounds_startTls {n : Nat} (enough : l.remaining ≤ n)
    (called : (l.rounds env n).engine.callbacks ≠ l.engine.callbacks) :
    (l.rounds env n).engine.raisedReset = true := by
  induction n generalizing l with
  | zero => exact absurd rfl called
  | succ n ih =>
    have one := l.round_callbacks env
    rw [rounds] at called ⊢
    split at called
    · next l' result =>
      have fewer := round_remaining env result
      rw [result] at one
      dsimp only at one
      obtain same | ⟨_, anew⟩ := one
      · rw [← same] at called
        exact ih (by omega) called
      · -- The stream is started anew in the next round.
        have two : l'.remaining = 2 := by simp [remaining, anew]
        obtain ⟨m, rfl⟩ : ∃ m, n = m + 1 := ⟨n - 1, by omega⟩
        have start : l'.round env = (true, l'.onInit) := by
          unfold round
          rw [anew]
        rw [rounds, start]
        exact (proceeds_rounds env l'.onInit m).raisedReset rfl
    · next l' result =>
      rw [result] at one
      obtain same | ⟨goes, _⟩ := one
      · exact absurd same called
      · cases goes

/-! ## Before it has started -/

/-- The task has not come further than to TLS, which it goes for when the server has it. -/
structure Unsecured (l : Login σ τ) : Prop where
  required : l.engine.tlsOption = .required
  handler : l.engine.outputHandler = true
  early : l.task.state ∈ [.init, .streamStartSent, .startedXmpp, .tlsRequested] ∨
    l.task.state = .tlsInit ∧ (l.getFeature qnTlsStarttls).isSome ∨
    l.task.state = .done ∧ l.engine.state = .closed

theorem Unsecured.failure {l' : Login σ τ} (unsecured : Unsecured l) (reason : Error)
    (engine : l'.engine = l.engine) : Unsecured (l'.failure reason) := by
  unfold Login.failure Engine.signalError
  rw [engine]
  split
  · exact ⟨unsecured.required, unsecured.handler, .inr (.inr ⟨rfl, rfl⟩)⟩
  · next closed =>
    exact ⟨unsecured.required, unsecured.handler, .inr (.inr ⟨rfl, not_not.mp closed⟩)⟩

/-- A round that does not call `StartTls`. -/
theorem Unsecured.round (unsecured : Unsecured l)
    (quiet : (l.round env).2.engine.callbacks = l.engine.callbacks) :
    Unsecured (l.round env).2 ∧
      ((l.round env).1 = false → (l.round env).2.task.state ≠ .tlsInit) ∧
      ∃ new, (l.round env).2.engine.output = l.engine.output ++ new ∧
        ∀ out ∈ new, out.Harmless := by
  have silent : ∃ new, l.engine.output = l.engine.output ++ new ∧ ∀ out ∈ new, out.Harmless :=
    ⟨[], (List.append_nil _).symm, fun _ member => by cases member⟩
  have failed {l' : Login σ τ} (reason : Error) (engine : l'.engine = l.engine) :
      ∃ new, (l'.failure reason).engine.output = l.engine.output ++ new ∧
        ∀ out ∈ new, out.Harmless := by
    refine ⟨[], ?_, fun _ member => by cases member⟩
    unfold Login.failure Engine.signalError
    rw [engine, List.append_nil]
    split <;> rfl
  obtain early | ⟨tlsInit, present⟩ | ⟨done, closed⟩ := unsecured.early
  · simp only [List.mem_cons, List.not_mem_nil, or_false] at early
    obtain init | sent | started | requested := early
    · unfold Login.round
      rw [init]
      refine ⟨⟨unsecured.required, unsecured.handler, .inl (by simp [onInit, setState])⟩,
        fun ends => (by cases ends), ?_⟩
      refine ⟨[.streamStart _ _], rfl, fun out member => ?_⟩
      rw [List.mem_singleton.mp member]
      exact .streamStart _ _
    · unfold Login.round
      rw [sent]
      dsimp only
      split
      · exact ⟨unsecured, fun _ => by simp [sent], silent⟩
      · unfold onStartStream
        split
        · exact ⟨unsecured.failure _ rfl, fun _ ends => (by cases ends), failed _ rfl⟩
        · exact ⟨⟨unsecured.required, unsecured.handler, .inl (by simp [setState])⟩,
            fun _ ends => (by cases ends), silent⟩
    · unfold Login.round
      rw [started]
      dsimp only
      split
      · exact ⟨unsecured, fun _ => by simp [started], silent⟩
      · unfold onFeatures
        dsimp only
        split
        · exact ⟨unsecured.failure _ rfl, fun _ ends => (by cases ends), failed _ rfl⟩
        · -- TLS is gone for where the server has it, and nothing else is where it is required.
          have required : l.takeStanza.engine.tlsOption = .required := unsecured.required
          split_ifs with missing able
          · exact ⟨unsecured.failure _ rfl, fun _ ends => (by cases ends), failed _ rfl⟩
          · exact ⟨⟨unsecured.required, unsecured.handler, .inr (.inl ⟨rfl, able.2⟩)⟩,
              fun ends => (by cases ends), silent⟩
          all_goals
            have absent := fun present => able ⟨.inl required, present⟩
            exact absurd ⟨required, absent⟩ missing
    · unfold Login.round at quiet ⊢
      rw [requested] at quiet ⊢
      dsimp only at quiet ⊢
      split at quiet
      · exact ⟨unsecured, fun _ => by simp [requested], silent⟩
      · next element _ =>
        unfold onTlsAnswer at quiet ⊢
        split at quiet
        · next other =>
          rw [if_pos other]
          exact ⟨unsecured.failure _ rfl, fun _ ends => (by cases ends), failed _ rfl⟩
        · simp [Engine.startTls, unsecured.handler, Engine.call, takeStanza, setState] at quiet
  · unfold Login.round onTlsInit
    rw [tlsInit]
    dsimp only
    split
    · next absent =>
      rw [absent] at present
      cases present
    · refine ⟨⟨unsecured.required, unsecured.handler, .inl (by simp [send, setState])⟩,
        fun ends => (by cases ends), ?_⟩
      refine ⟨[.stanza .login (.newDefaultNs qnTlsStarttls)], rfl, fun out member => ?_⟩
      rw [List.mem_singleton.mp member]
      exact .starttls
  · unfold Login.round
    rw [done]
    exact ⟨unsecured, fun _ => by simp [done], silent⟩

/-- The rounds of one stanza, if they do not call `StartTls`. -/
theorem Unsecured.rounds {n : Nat} (unsecured : Unsecured l) (enough : l.remaining ≤ n)
    (quiet : (l.rounds env n).engine.callbacks = l.engine.callbacks) :
    Unsecured (l.rounds env n) ∧ (l.rounds env n).task.state ≠ .tlsInit ∧
      ∃ new, (l.rounds env n).engine.output = l.engine.output ++ new ∧
        ∀ out ∈ new, out.Harmless := by
  induction n generalizing l with
  | zero =>
    have positive : 0 < l.remaining := by
      unfold remaining
      split <;> decide
    omega
  | succ n ih =>
    have step := unsecured.round env
    have proceeds := l.proceeds_round env
    rw [Login.rounds] at quiet ⊢
    split at quiet
    · next l' result =>
      have fewer := round_remaining env result
      rw [result] at step proceeds
      dsimp only at step proceeds
      -- What has been called stays called.
      have same : l'.engine.callbacks = l.engine.callbacks := by
        obtain ⟨new, called, _⟩ := proceeds.callbacks
        obtain ⟨later, called', _⟩ := (proceeds_rounds env l' n).callbacks
        rw [called', called, List.append_assoc] at quiet
        have none := List.append_right_eq_self.mp quiet
        rw [called, (List.append_eq_nil_iff.mp none).1, List.append_nil]
      obtain ⟨unsecured', _, new, output, harmless⟩ := step same
      obtain ⟨unsecured'', stopped, later, output', harmless'⟩ :=
        ih unsecured' (by omega) (quiet.trans same.symm)
      refine ⟨unsecured'', stopped, new ++ later, ?_, fun out member => ?_⟩
      · rw [output', output, List.append_assoc]
      · exact (List.mem_append.mp member).elim (harmless out) (harmless' out)
    · next l' result =>
      rw [result] at step
      obtain ⟨unsecured', stopped, grown⟩ := step quiet
      exact ⟨unsecured', stopped rfl, grown⟩

end Login

namespace Engine

/-- What has been called before `StartTls`. -/
def beforeTls (e : Engine σ τ) : List Callback :=
  e.callbacks.takeWhile (¬ ·.isStartTls)

/-- Whether TLS is still to be started. -/
inductive Guarded (e : Engine σ τ) : Prop where
  | secured (started : ∃ c ∈ e.callbacks, c.isStartTls = true)
      (harmless : ∀ out ∈ e.beforeTls.flatMap parts, out.Harmless)
  | unsecured (quiet : ∀ c ∈ e.callbacks, c.isStartTls = false)
      (required : e.tlsOption = .required)
      (harmless : ∀ out ∈ e.written ++ e.output, out.Harmless)
      (early : ∀ task, e.loginTask = some task →
        task.state ∈ [.init, .streamStartSent, .startedXmpp, .tlsRequested])
      (gone : e.loginTask = none → e.state = .closed)

theorem takeWhile_quiet {callbacks : List Callback}
    (quiet : ∀ c ∈ callbacks, c.isStartTls = false) (rest : List Callback) :
    (callbacks ++ rest).takeWhile (¬ ·.isStartTls) =
      callbacks ++ rest.takeWhile (¬ ·.isStartTls) :=
  List.takeWhile_append_of_pos fun c member => by simp [quiet c member]

theorem takeWhile_started {callbacks : List Callback}
    (started : ∃ c ∈ callbacks, c.isStartTls = true) (rest : List Callback) :
    (callbacks ++ rest).takeWhile (¬ ·.isStartTls) = callbacks.takeWhile (¬ ·.isStartTls) := by
  induction callbacks with
  | nil =>
    obtain ⟨_, member, _⟩ := started
    cases member
  | cons c callbacks ih =>
    rw [List.cons_append, List.takeWhile_cons, List.takeWhile_cons]
    split
    · next other =>
      obtain ⟨c', member, tls⟩ := started
      obtain rfl | later := List.mem_cons.mp member
      · simp [tls] at other
      · rw [ih ⟨c', later, tls⟩]
    · rfl

/-- An output handler is there until the engine is closed. -/
theorem Counted.outputHandler {config : Config} {depth : Nat} {e : Engine σ τ}
    (counted : Counted config depth e) (given : config.outputHandler = true)
    (opened : e.state ≠ .closed) : e.outputHandler = true := by
  cases handler : e.outputHandler
  · exact absurd (counted.handler handler given).1 opened
  · rfl

namespace Guarded

variable {env} {e e' : Engine σ τ}

theorem harmless_before (guarded : Guarded e) : ∀ out ∈ e.beforeTls.flatMap parts, out.Harmless := by
  cases guarded with
  | secured _ harmless => exact harmless
  | unsecured quiet _ harmless =>
    have all : e.beforeTls = e.callbacks := by
      have whole := takeWhile_quiet quiet []
      rwa [List.append_nil, List.takeWhile_nil, List.append_nil] at whole
    rw [all]
    exact fun out member => harmless out (List.mem_append_left _ member)

/-- More is called, and before TLS nothing but what may be written. -/
theorem grow (guarded : Guarded e) {new : List Callback} (called : e'.callbacks = e.callbacks ++ new)
    (quiet : ∀ c ∈ new, c.isStartTls = false) (tlsOption : e'.tlsOption = e.tlsOption)
    (harmless : (e.loginTask = none → e.state = .closed) →
      (∀ out ∈ e.written ++ e.output, out.Harmless) →
        ∀ out ∈ e'.written ++ e'.output, out.Harmless)
    (login : ∀ task, e'.loginTask = some task → ∃ task', e.loginTask = some task' ∧
      task.state = task'.state)
    (gone : e'.loginTask = none → (e.loginTask = none → e.state = .closed) → e'.state = .closed) :
    Guarded e' := by
  cases guarded with
  | secured started before =>
    refine .secured ?_ ?_
    · obtain ⟨c, member, tls⟩ := started
      exact ⟨c, called ▸ List.mem_append_left _ member, tls⟩
    · unfold beforeTls at before ⊢
      rw [called, takeWhile_started started]
      exact before
  | unsecured quiet' required harmless' early gone' =>
    refine .unsecured (fun c member => ?_) (tlsOption.trans required) (harmless gone' harmless')
      (fun task kept => ?_) fun none => gone none gone'
    · rw [called] at member
      exact (List.mem_append.mp member).elim (quiet' c) (quiet c)
    · obtain ⟨task', kept', same⟩ := login task kept
      rw [same]
      exact early task' kept'

/-- Nothing is called or printed. -/
theorem of_same (guarded : Guarded e) (callbacks : e'.callbacks = e.callbacks)
    (tlsOption : e'.tlsOption = e.tlsOption) (output : e'.output = e.output)
    (loginTask : e'.loginTask = e.loginTask) (state : e.state = .closed → e'.state = .closed) :
    Guarded e' := by
  refine guarded.grow (callbacks.trans (List.append_nil _).symm) (fun _ member => nomatch member)
    tlsOption (fun _ harmless => ?_)
    (fun task kept => ⟨task, loginTask ▸ kept, rfl⟩)
    fun none gone => state (gone (loginTask.symm.trans none))
  unfold written at harmless ⊢
  rw [callbacks, output]
  exact harmless

theorem exit (guarded : Guarded e) (entered : State) : Guarded (e.exit env entered) := by
  have called : (e.exit env entered).callbacks = e.callbacks ++ e.leaving entered := by
    rw [exit_eq]
  refine guarded.grow called (fun c member => ?_) ?_ (fun _ harmless out member => ?_)
    (fun task kept => ⟨task, ?_, rfl⟩) fun none gone => ?_
  · obtain rfl | rfl | ⟨_, rfl⟩ := mem_leaving e member <;> rfl
  · rw [exit_eq]
  · refine harmless out ?_
    unfold written at member ⊢
    rw [called, List.flatMap_append, List.append_assoc] at member
    obtain before | now := List.mem_append.mp member
    · exact List.mem_append_left _ before
    · refine List.mem_append_right _ ?_
      obtain told | pending := List.mem_append.mp now
      · obtain ⟨c, member, part⟩ := List.mem_flatMap.mp told
        obtain rfl | rfl | ⟨_, rfl⟩ := mem_leaving e member
        · exact part
        · cases part
        · cases part
      · rw [exit_eq] at pending
        dsimp only at pending
        split at pending
        · cases pending
        · exact pending
  · rw [exit_eq] at kept
    exact kept
  · rw [exit_eq] at none ⊢
    exact gone none

/-- The login task runs while the engine connects. -/
theorem runLogin (guarded : Guarded e) {task : LoginTask} (logging : e.loginTask = some task)
    (handler : e.outputHandler = true) (element : Option XmlElement) (isStart : Bool) :
    Guarded (e.runLogin env task element isStart) := by
  have proceeds := proceeds_runLogin env e task element isStart
  obtain ⟨new, called, tls⟩ := proceeds.callbacks
  cases guarded with
  | secured started before =>
    refine .secured ?_ ?_
    · obtain ⟨c, member, tls⟩ := started
      exact ⟨c, called ▸ List.mem_append_left _ member, tls⟩
    · unfold beforeTls at before ⊢
      rw [show (e.runLogin env task element isStart).callbacks = _ from called,
        takeWhile_started started]
      exact before
  | unsecured quiet required harmless early gone =>
    cases new with
    | cons c new =>
      obtain ⟨domain, rfl⟩ := tls c (List.mem_cons_self ..)
      refine .secured ⟨.startTls domain, ?_, rfl⟩ ?_
      · rw [show (e.runLogin env task element isStart).callbacks = _ from called]
        exact List.mem_append_right _ (List.mem_cons_self ..)
      · unfold beforeTls
        rw [show (e.runLogin env task element isStart).callbacks = _ from called,
          takeWhile_quiet quiet, List.takeWhile_cons]
        simp only [Callback.isStartTls]
        intro out member
        refine harmless out (List.mem_append_left _ ?_)
        unfold written
        simpa using member
    | nil =>
      have same : (e.runLogin env task element isStart).callbacks = e.callbacks :=
        called.trans (List.append_nil _)
      have start : Login.Unsecured ⟨e, { task with stanza := element, isStart := isStart }⟩ :=
        ⟨required, handler, .inl (early task logging)⟩
      obtain ⟨after, stopped, new, output, harmless'⟩ := start.rounds env (Login.remaining_le _) same
      refine .unsecured (by rw [same]; exact quiet) after.required (fun out member => ?_) ?_ ?_
      · obtain earlier | pending := List.mem_append.mp member
        · unfold written at earlier harmless
          rw [same] at earlier
          exact harmless out (List.mem_append_left _ earlier)
        · rw [show (e.runLogin env task element isStart).output = _ from output] at pending
          obtain before | now := List.mem_append.mp pending
          · exact harmless out (List.mem_append_right _ before)
          · exact harmless' out now
      · intro task' kept
        unfold Engine.runLogin at kept
        dsimp only at kept
        split at kept
        · cases kept
        · next undone =>
          cases kept
          obtain early | ⟨tlsInit, _⟩ | ⟨done, _⟩ := after.early
          · exact early
          · exact absurd tlsInit stopped
          · exact absurd done undone
      · intro none
        unfold Engine.runLogin at none ⊢
        dsimp only at none ⊢
        split at none
        · next done =>
          obtain early | ⟨tlsInit, _⟩ | ⟨_, closed⟩ := after.early
          · have undone : (Login.rounds env 4 ⟨e, { task with
                stanza := element, isStart := isStart }⟩).task.state = .done := done
            rw [undone] at early
            simp at early
          · exact absurd tlsInit stopped
          · exact closed
        · cases none

theorem session (guarded : Guarded e) (same : SameSession e e') : Guarded e' :=
  guarded.of_same same.callbacks same.tlsOption same.output same.loginTask
    fun closed => same.state.trans closed

theorem signalError (guarded : Guarded e) (errorCode : Error) (subcode : Int) :
    Guarded (e.signalError errorCode subcode) := by
  unfold Engine.signalError
  split
  · exact guarded.of_same rfl rfl rfl rfl fun _ => rfl
  · exact guarded

variable {config : Config} {depth : Nat}

/-- A call of the application. -/
theorem effect (guarded : Guarded e) (counted : Counted config depth e)
    (given : config.outputHandler = true) (effect : Effect env e e') : Guarded e' := by
  cases effect with
  | quiet same => exact guarded.session same
  | @queues e₁ same opened task logging element =>
    refine Guarded.exit ?_ _
    have guarded := guarded.session same
    refine guarded.grow (List.append_nil _).symm (fun _ member => nomatch member) rfl
      (fun _ harmless => harmless) (fun task' kept => ⟨task, logging, ?_⟩) nofun
    cases kept
    rfl
  | @sends e₁ same opened finished element =>
    refine Guarded.exit ?_ _
    have guarded := guarded.session same
    exact guarded.grow (List.append_nil _).symm (fun _ member => nomatch member) rfl
      (fun gone => absurd (gone finished) opened) (fun task kept => ⟨task, kept, rfl⟩)
      fun none gone => gone none
  | raw opened finished text =>
    refine Guarded.exit ?_ _
    exact guarded.grow (List.append_nil _).symm (fun _ member => nomatch member) rfl
      (fun gone => absurd (gone finished) opened) (fun task kept => ⟨task, kept, rfl⟩)
      fun none gone => gone none
  | connects start task logging =>
    refine Guarded.exit ?_ _
    have opening : Guarded { e.enter with state := .opening } :=
      guarded.of_same rfl rfl rfl rfl fun closed => nomatch start.symm.trans closed
    exact opening.runLogin logging (counted.outputHandler given (by simp [start])) none false
  | connectsDone start finished =>
    refine Guarded.exit ?_ _
    exact guarded.of_same rfl rfl rfl rfl fun closed => nomatch start.symm.trans closed
  | disconnects opened =>
    refine Guarded.exit ?_ _
    refine guarded.grow (List.append_nil _).symm (fun _ member => nomatch member) rfl
      (fun _ harmless out member => ?_) (fun task kept => ⟨task, kept, rfl⟩) fun _ _ => rfl
    obtain before | pending := List.mem_append.mp member
    · exact harmless out (List.mem_append_left _ before)
    · obtain before | now := List.mem_append.mp pending
      · exact harmless out (List.mem_append_right _ before)
      · split at now
        · rw [List.mem_singleton.mp now]
          exact .streamEnd
        · cases now
  | fails opened errorCode lost subcode =>
    refine Guarded.exit ?_ _
    exact guarded.of_same rfl rfl rfl rfl fun _ => rfl

/-- A stanza that comes in and is dealt with at once. -/
theorem incomingStanza (guarded : Guarded e) (handling : Handling config e)
    (given : config.outputHandler = true) {d : Delivery}
    (dealt : e.incomingStanza env d = .finished e') : Guarded e' := by
  obtain ⟨_, rfl⟩ | ⟨_, _, rfl⟩ | ⟨able, _, task, logging, rfl⟩ | ⟨able, _, _, _, _, rfl⟩ :=
    incomingStanza_finished dealt
  · exact guarded
  · unfold Engine.signalStreamError
    split
    · have noted : Guarded { e with streamError := some d.stanza } :=
        guarded.of_same rfl rfl rfl rfl id
      exact noted.signalError _ _
    · exact guarded
  · have opening := (handling.login task logging).resolve_left (not_or.mp able).1
    exact guarded.runLogin logging (handling.outputHandler given (by simp [opening])) _ _
  · exact guarded.effect handling.toCounted given (unhandled_effect e _)

/-- A handler of stanzas is called. -/
theorem called (guarded : Guarded e) {callback : Callback} (quiet : callback.isStartTls = false)
    (silent : parts callback = []) (iqEntries : List IqEntry) (delivery : Option Delivery) :
    Guarded { e with
      callbacks := e.callbacks ++ [callback], iqEntries := iqEntries, delivery := delivery } := by
  refine guarded.grow rfl (fun c member => ?_) rfl (fun _ harmless => ?_)
    (fun task kept => ⟨task, kept, rfl⟩) fun none gone => gone none
  · rw [List.mem_singleton.mp member]
    exact quiet
  · unfold written at harmless ⊢
    rw [List.flatMap_append, List.flatMap_singleton, silent, List.append_nil]
    exact harmless

end Guarded

variable {env} {allowed : Engine σ τ → Bool → Prop} {config : Config} {sasl : σ} {e : Engine σ τ}

theorem Reached.guarded {phase : Phase} (reached : Reached env allowed config sasl phase e)
    (required : config.tlsOption = .required) (given : config.outputHandler = true) :
    Guarded e := by
  induction reached with
  | new =>
    refine .unsecured nofun required nofun (fun task kept => ?_) nofun
    cases kept
    decide
  | @callIdle e call reached ih =>
    exact ih.effect reached.holds.toCounted given (effect_perform env e call)
  | @callWaiting d e call reached ih =>
    exact ih.effect reached.holds.1.toCounted given (effect_perform env e call)
  | handleInput bytes connected _ ih => exact ih.of_same rfl rfl rfl rfl id
  | startStream reached ih =>
    have handling := reached.holds.1
    unfold Engine.incomingStart
    split
    · exact ih
    · next able =>
      split
      · next task logging =>
        have opening := (handling.login task logging).resolve_left (not_or.mp able).1
        exact ih.runLogin logging (handling.outputHandler given (by simp [opening])) _ _
      · exact ih.signalError _ _
  | endStream _ ih | xmlError _ ih =>
    unfold Engine.incomingEnd
    split
    · exact ih
    · exact ih.signalError _ _
  | stanza reached dealt ih => exact ih.incomingStanza reached.holds.1 given dealt
  | stanzaWaits _ waits _ ih =>
    obtain ⟨_, _, _, ⟨_, _, rfl⟩ | ⟨_, _, _, _, _, rfl⟩⟩ := incomingStanza_waiting waits
    · exact ih.called rfl rfl _ _
    · exact ih.called rfl rfl _ _
  | returned handled reached _ dealt ih =>
    obtain ⟨_, rfl⟩ | ⟨_, _, _, _, ⟨_, _, rfl⟩ | ⟨_, _, rfl⟩⟩ := returned_finished dealt
    · exact ih
    · exact ih
    · exact ih.effect reached.holds.1.toCounted given (unhandled_effect _ _)
  | returnedWaits handled _ _ waits _ ih =>
    obtain ⟨_, _, _, _, _, _, _, _, _, rfl⟩ := returned_waiting waits
    exact ih.called rfl rfl _ _
  | exit _ ih =>
    refine Guarded.exit ?_ _
    exact ih.of_same rfl rfl rfl rfl id

/-! ## What follows in the same input -/

/-- How often TLS has been started. -/
def tlsCalls (e : Engine σ τ) : Nat :=
  e.callbacks.countP Callback.isStartTls

theorem tlsCalls_exit (e : Engine σ τ) (entered : State) :
    (e.exit env entered).tlsCalls = e.tlsCalls := by
  have other : (e.leaving entered).countP Callback.isStartTls = 0 := by
    refine List.countP_eq_zero.mpr fun c member => ?_
    obtain rfl | rfl | ⟨_, rfl⟩ := mem_leaving e member <;> exact Bool.false_ne_true
  rw [exit_eq]
  unfold tlsCalls
  rw [List.countP_append, other, Nat.add_zero]

theorem tlsCalls_unhandled (e : Engine σ τ) (stanza : XmlElement) :
    (e.unhandled env stanza).tlsCalls = e.tlsCalls := by
  unfold unhandled sendStanzaError sendStanza
  dsimp only
  repeat' split
  all_goals first
    | rfl
    | rw [tlsCalls_exit]; rfl

theorem tlsCalls_signalError (e : Engine σ τ) (errorCode : Error) (subcode : Int) :
    (e.signalError errorCode subcode).tlsCalls = e.tlsCalls := by
  unfold signalError
  split <;> rfl

/-- The login task starts TLS with a reset. -/
theorem runLogin_startTls (e : Engine σ τ) (task : LoginTask) (element : Option XmlElement)
    (isStart : Bool) (called : (e.runLogin env task element isStart).tlsCalls ≠ e.tlsCalls) :
    (e.runLogin env task element isStart).raisedReset = true := by
  refine Login.rounds_startTls env (Login.remaining_le _) fun same => called ?_
  exact congrArg (List.countP Callback.isStartTls) same

theorem incomingStart_startTls (e : Engine σ τ) (stream : XmlElement)
    (called : (e.incomingStart env stream).tlsCalls ≠ e.tlsCalls) :
    (e.incomingStart env stream).raisedReset = true := by
  unfold incomingStart at called ⊢
  split
  · next dropped =>
    rw [if_pos dropped] at called
    exact absurd rfl called
  · next able =>
    rw [if_neg able] at called
    split at called
    · exact runLogin_startTls e _ _ _ called
    · exact absurd (tlsCalls_signalError ..) called

theorem incomingEnd_tlsCalls (e : Engine σ τ) (isError : Bool) :
    (e.incomingEnd isError).tlsCalls = e.tlsCalls := by
  unfold incomingEnd
  split
  · rfl
  · exact tlsCalls_signalError ..

theorem incomingStanza_startTls {e e' : Engine σ τ} {d : Delivery}
    (dealt : e.incomingStanza env d = .finished e') (called : e'.tlsCalls ≠ e.tlsCalls) :
    e'.raisedReset = true := by
  obtain ⟨_, rfl⟩ | ⟨_, _, rfl⟩ | ⟨_, _, task, _, rfl⟩ | ⟨_, _, _, _, _, rfl⟩ :=
    incomingStanza_finished dealt
  · exact absurd rfl called
  · refine absurd ?_ called
    unfold Engine.signalStreamError
    split
    · exact tlsCalls_signalError ..
    · rfl
  · exact runLogin_startTls e _ _ _ called
  · exact absurd (tlsCalls_unhandled ..) called

/-- A stanza that is dealt with at once is dealt with whatever follows. -/
theorem incomingStanza_rest {e e' : Engine σ τ} {stanza : XmlElement}
    {rest rest' : List ParseEvent} {entered : State}
    (dealt : e.incomingStanza env ⟨.iqHandler, stanza, rest, entered⟩ = .finished e') :
    e.incomingStanza env ⟨.iqHandler, stanza, rest', entered⟩ = .finished e' := by
  unfold incomingStanza at dealt ⊢
  split
  · next dropped => rwa [if_pos dropped] at dealt
  · next able =>
    rw [if_neg able] at dealt
    split
    · next error => rwa [if_pos error] at dealt
    · next other =>
      rw [if_neg other] at dealt
      split at dealt
      · exact dealt
      · split at dealt
        · cases dealt
        · next unasked =>
          have same : e.findIqEntry stanza = none := unasked
          obtain ⟨nobody, rfl⟩ := deliver_finished dealt
          unfold deliver
          simp only [same, nobody]

theorem incomingStanza_waiting_tlsCalls {e e' : Engine σ τ} {d : Delivery}
    (waits : e.incomingStanza env d = .waiting e') : e'.tlsCalls = e.tlsCalls := by
  have other (callback : Callback) (quiet : callback.isStartTls = false) :
      (e.callbacks ++ [callback]).countP Callback.isStartTls = e.tlsCalls := by
    rw [List.countP_append, List.countP_singleton, quiet]
    rfl
  obtain ⟨_, _, _, ⟨_, _, rfl⟩ | ⟨_, _, _, _, _, rfl⟩⟩ := incomingStanza_waiting waits
  · exact other _ rfl
  · exact other _ rfl

/-- With a reset raised, what is left of the input is dropped. -/
theorem handleEvents_reset {e : Engine σ τ} (raised : e.raisedReset = true) (entered : State)
    (events : List ParseEvent) :
    e.handleEvents env entered events = { e with delivery := none }.exit env entered := by
  induction events with
  | nil => rfl
  | cons event rest ih =>
    have dropped : e.hasError = true ∨ e.raisedReset = true := .inr raised
    cases event with
    | startStream stream =>
      rw [handleEvents, incomingStart, if_pos dropped]
      exact ih
    | endStream =>
      rw [handleEvents, incomingEnd, if_pos dropped]
      exact ih
    | xmlError =>
      rw [handleEvents, incomingEnd, if_pos dropped]
      exact ih
    | stanza stanza =>
      rw [handleEvents, incomingStanza, if_pos dropped]
      exact ih

/-- Nothing that follows the event that starts TLS has an effect, and the parser is a new one. -/
theorem Reached.handleEvents_startTls {entered : State} {events rest : List ParseEvent}
    (reached : Reached env allowed config sasl (.handling entered (events ++ rest)) e)
    (called : (e.handleEvents env entered events).tlsCalls ≠ e.tlsCalls) :
    e.handleEvents env entered (events ++ rest) = e.handleEvents env entered events ∧
      (e.handleEvents env entered events).parser = env.newParser := by
  -- After an event either TLS is still to be started, or all the rest is dropped.
  have follow (e e' : Engine σ τ) (events : List ParseEvent)
      (reached : Reached env allowed config sasl (.handling entered (events ++ rest)) e')
      (reset : e'.tlsCalls ≠ e.tlsCalls → e'.raisedReset = true)
      (called : (e'.handleEvents env entered events).tlsCalls ≠ e.tlsCalls)
      (ih : (e'.handleEvents env entered events).tlsCalls ≠ e'.tlsCalls →
        e'.handleEvents env entered (events ++ rest) = e'.handleEvents env entered events ∧
          (e'.handleEvents env entered events).parser = env.newParser) :
      e'.handleEvents env entered (events ++ rest) = e'.handleEvents env entered events ∧
        (e'.handleEvents env entered events).parser = env.newParser := by
    by_cases same : e'.tlsCalls = e.tlsCalls
    · exact ih (same ▸ called)
    · have raised := reset same
      rw [handleEvents_reset raised, handleEvents_reset raised]
      refine ⟨rfl, ?_⟩
      rw [exit_eq]
      have outermost : ({ e' with delivery := none } : Engine σ τ).outermost = true := by
        simp [Engine.outermost, reached.holds.1.entered]
      exact if_pos ⟨outermost, raised⟩
  induction events generalizing e with
  | nil => exact absurd (tlsCalls_exit _ _) called
  | cons event events ih =>
    cases event with
    | startStream stream =>
      have next := reached.startStream
      exact follow e _ events next (incomingStart_startTls e stream) called (ih next)
    | endStream =>
      have next := reached.endStream
      exact follow e _ events next (fun changed => absurd (incomingEnd_tlsCalls e false) changed)
        called (ih next)
    | xmlError =>
      have next := reached.xmlError
      exact follow e _ events next (fun changed => absurd (incomingEnd_tlsCalls e true) changed)
        called (ih next)
    | stanza stanza =>
      rw [Engine.handleEvents] at called
      rw [List.cons_append, Engine.handleEvents, Engine.handleEvents]
      cases outcome : e.incomingStanza env ⟨.iqHandler, stanza, events, entered⟩ with
      | waiting e' =>
        rw [outcome] at called
        exact absurd (incomingStanza_waiting_tlsCalls outcome) called
      | finished e' =>
        rw [outcome] at called
        have dealt : e.incomingStanza env ⟨.iqHandler, stanza, events ++ rest, entered⟩ =
            .finished e' := incomingStanza_rest outcome
        rw [dealt]
        have next := Reached.stanza reached dealt
        exact follow e e' events next (incomingStanza_startTls outcome) called (ih next)

/-- Where TLS is required, only stream headers, the request for TLS and the end of a stream are
written before `StartTls` is called. An input in which it is called is handled as if it ended
there, and the parser forgets the rest. -/
theorem no_credentials_before_tls (env : Environment σ τ) (config : Config) (sasl : σ)
    (required : config.tlsOption = .required) (given : config.outputHandler = true)
    (inputs : List Input) :
    let e := (Engine.new env config sasl).run env inputs
    (∀ out ∈ e.beforeTls.flatMap parts, out.Harmless) ∧
      ∀ bytes events rest, (env.parse e.parser bytes).1 = events ++ rest →
        e.delivery = none → ¬ (e.state = .start ∨ e.state = .closed) →
        let upTo := handleEvents env e.state events
          { e.enter with parser := (env.parse e.parser bytes).2 }
        upTo.tlsCalls ≠ e.tlsCalls →
          e.step env (.handleInput bytes) = upTo ∧ upTo.parser = env.newParser := by
  have reached := reached_run inputs (returns_any (Engine.new env config sasl) inputs)
  refine ⟨(reached.guarded required given).harmless_before, ?_⟩
  generalize (Engine.new env config sasl).run env inputs = e at reached
  intro bytes events rest parsed idle connected upTo called
  rw [resting, idle] at reached
  have handling := reached.handleInput bytes connected
  rw [parsed] at handling
  obtain ⟨same, parser⟩ := handling.handleEvents_startTls called
  refine ⟨?_, parser⟩
  rw [← show _ = upTo from same, ← parsed]
  simp only [Engine.step, idle]
  unfold Engine.handleInput
  rw [if_neg connected]

/-- A stanza is sent while the server offers TLS. -/
theorem no_credentials_before_tls_offered :
    let e := Sample.engine .required [.call .connect, .call (.sendStanza Sample.message),
      .handleInput (Sample.bytes Sample.tlsFeatures)]
    e.written.length = 2 ∧ ∀ out ∈ e.beforeTls.flatMap parts, out.Harmless :=
  ⟨by decide +kernel, (no_credentials_before_tls Sample.server (Sample.config .required) () rfl rfl
    _).1⟩

end Engine

end Libjingle.Xmpp

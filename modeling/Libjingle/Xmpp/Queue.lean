import Libjingle.Xmpp.Bookkeeping

/-!
# Stanzas that are sent during the login

The login task keeps the stanzas of the application until a session is established. They are
printed when it is, and those that are accepted later follow them.
-/

namespace Libjingle.Xmpp.Engine

open Libjingle.Xml

variable {σ τ : Type} {env : Environment σ τ}

/-! ## What is printed -/

theorem printed_append {e e' : Engine σ τ} (new : List Out) (written : e'.written = e.written)
    (output : e'.output = e.output ++ new) :
    e'.printed = e.printed ++ new.filter (¬ ·.isEmpty) := by
  unfold printed
  rw [written, output, ← List.append_assoc, List.filter_append]

theorem printed_same {e e' : Engine σ τ} (written : e'.written = e.written)
    (output : e'.output = e.output) : e'.printed = e.printed := by
  unfold printed
  rw [written, output]

/-- What the login task prints is not empty. -/
theorem filter_ofLogin {new : List Out} (own : ∀ out ∈ new, out.OfLogin) :
    new.filter (¬ ·.isEmpty) = new := by
  refine List.filter_eq_self.mpr fun out member => ?_
  obtain ⟨_, _, rfl⟩ | ⟨_, rfl⟩ := own out member <;> rfl

theorem filter_stanzas (stanzas : List XmlElement) :
    (stanzas.map (Out.stanza .application)).filter (¬ ·.isEmpty) =
      stanzas.map (Out.stanza .application) := by
  refine List.filter_eq_self.mpr fun out member => ?_
  obtain ⟨_, _, rfl⟩ := List.mem_map.mp member
  rfl

theorem applications_append (xs ys : List Out) :
    applications (xs ++ ys) = applications xs ++ applications ys :=
  List.filterMap_append

theorem applications_stanzas (stanzas : List XmlElement) :
    applications (stanzas.map (Out.stanza .application)) = stanzas := by
  induction stanzas with
  | nil => rfl
  | cons element rest ih => exact congrArg (element :: ·) ih

theorem applications_ofLogin {new : List Out} (own : ∀ out ∈ new, out.OfLogin) :
    applications new = [] := by
  refine List.filterMap_eq_nil_iff.mpr fun out member => ?_
  obtain ⟨_, _, rfl⟩ | ⟨_, rfl⟩ := own out member <;> rfl

theorem written_of_proceeds {e e' : Engine σ τ} (proceeds : Proceeds e e') :
    e'.written = e.written := by
  obtain ⟨new, called, tls⟩ := proceeds.callbacks
  have nothing : new.flatMap parts = [] := by
    refine List.flatMap_eq_nil_iff.mpr fun c member => ?_
    obtain ⟨domain, rfl⟩ := tls c member
    rfl
  unfold written
  rw [called, List.flatMap_append, nothing, List.append_nil]

/-! ## The account of the stanzas -/

/-- Where the stanzas of the application are. -/
inductive Queued (e : Engine σ τ) : Prop where
  /-- The task keeps them. -/
  | login (task : LoginTask) (logging : e.loginTask = some task)
      (queued : task.queuedStanzas = e.accepted) (own : ∀ out ∈ e.printed, out.OfLogin)
      (requested : task.state = .sessionRequested → ∃ out ∈ e.printed, out.IsSessionRequest)
  /-- They were deleted with the task. -/
  | failed (deleted : e.loginTask = none) (closed : e.state = .closed)
      (error : e.errorCode ∈ Login.loginErrors) (own : ∀ out ∈ e.printed, out.OfLogin)
  /-- They have been printed. -/
  | done (deleted : e.loginTask = none) (fine : e.errorCode ∉ Login.loginErrors)
      (before after : List Out) (printed : e.printed = before ++ after)
      (own : ∀ out ∈ before, out.OfLogin) (requested : ∃ out ∈ before, out.IsSessionRequest)
      (sent : applications after = e.accepted)

namespace Queued

variable {e e' : Engine σ τ}

/-- A change of what the account does not look at. -/
theorem of_same (queued : Queued e) (loginTask : e'.loginTask = e.loginTask)
    (printed : e'.printed = e.printed) (accepted : e'.accepted = e.accepted)
    (state : e.state = .closed → e'.state = .closed)
    (error : e'.errorCode = e.errorCode ∨
      e.state ≠ .closed ∧ e'.errorCode ∉ Login.loginErrors) : Queued e' := by
  cases queued with
  | login task logging queued own requested =>
    refine .login task (loginTask.trans logging) (queued.trans accepted.symm) ?_ ?_
    · rw [printed]
      exact own
    · rw [printed]
      exact requested
  | failed deleted closed wrong own =>
    refine .failed (loginTask.trans deleted) (state closed) ?_ ?_
    · obtain same | ⟨opened, _⟩ := error
      · rw [same]
        exact wrong
      · exact absurd closed opened
    · rw [printed]
      exact own
  | done deleted fine before after printed' own requested sent =>
    refine .done (loginTask.trans deleted) ?_ before after (printed.trans printed') own requested
      (sent.trans accepted.symm)
    obtain same | ⟨_, fine'⟩ := error
    · rw [same]
      exact fine
    · exact fine'

theorem exit (queued : Queued e) (entered : State) : Queued (e.exit env entered) := by
  refine queued.of_same ?_ (printed_exit env e entered) ?_ ?_ (.inl ?_)
  all_goals rw [exit_eq]
  exact id

/-- Something is printed that is not a stanza. -/
theorem print (queued : Queued e) (finished : e.loginTask = none) (opened : e.state ≠ .closed)
    (new : List Out) (other : applications new = []) (loginTask : e'.loginTask = e.loginTask)
    (written : e'.written = e.written) (output : e'.output = e.output ++ new)
    (accepted : e'.accepted = e.accepted) (error : e'.errorCode = e.errorCode) : Queued e' := by
  have printed := printed_append new written output
  have quiet : applications (new.filter (¬ ·.isEmpty)) = [] := by
    refine List.filterMap_eq_nil_iff.mpr fun out member => ?_
    exact List.filterMap_eq_nil_iff.mp other out (List.mem_filter.mp member).1
  cases queued with
  | login task logging => cases finished.symm.trans logging
  | failed _ closed => exact absurd closed opened
  | done deleted fine before after printed' own requested sent =>
    refine .done (loginTask.trans deleted) (error ▸ fine) before
      (after ++ new.filter (¬ ·.isEmpty)) ?_ own requested ?_
    · rw [printed, printed', List.append_assoc]
    · rw [applications_append, quiet, List.append_nil, sent, accepted]

/-- The login task runs while the engine connects. -/
theorem runLogin (queued : Queued e) {task : LoginTask} (logging : e.loginTask = some task)
    (undone : task.state ≠ .done) (opening : e.state = .opening) (fine : e.errorCode = .none)
    (element : Option XmlElement) (isStart : Bool) :
    Queued (e.runLogin env task element isStart) := by
  have proceeds := proceeds_runLogin env e task element isStart
  have advances := runLogin_advances env e task undone element isStart
  have written : (e.runLogin env task element isStart).written = e.written :=
    (written_of_proceeds proceeds :)
  have accepted : (e.runLogin env task element isStart).accepted = e.accepted := proceeds.accepted
  cases queued with
  | failed deleted => cases deleted.symm.trans logging
  | done deleted => cases deleted.symm.trans logging
  | login task' logging' queued own requested =>
    cases logging.symm.trans logging'
    cases advances with
    | goes task' kept state errorCode same new output ofLogin request =>
      have printed := printed_append new written output
      rw [filter_ofLogin ofLogin] at printed
      refine .login task' kept (same.trans (queued.trans accepted.symm)) ?_ fun waits => ?_
      · rw [printed]
        exact fun out member => (List.mem_append.mp member).elim (own out) (ofLogin out)
      · rw [printed]
        obtain before | ⟨out, member, asks⟩ := request waits
        · obtain ⟨out, member, asks⟩ := requested before
          exact ⟨out, List.mem_append_left _ member, asks⟩
        · exact ⟨out, List.mem_append_right _ member, asks⟩
    | fails deleted closed error new output ofLogin =>
      have printed := printed_append new written output
      rw [filter_ofLogin ofLogin] at printed
      refine .failed deleted closed (error (by simp [opening])) ?_
      rw [printed]
      exact fun out member => (List.mem_append.mp member).elim (own out) (ofLogin out)
    | succeeds deleted state errorCode raisedReset new output ofLogin request =>
      have printed := printed_append _ written (output.trans (List.append_assoc ..))
      rw [List.filter_append, filter_ofLogin ofLogin, filter_stanzas, ← List.append_assoc]
        at printed
      refine .done deleted ?_ (e.printed ++ new) _ printed ?_ ?_ ?_
      · rw [errorCode, fine]
        decide
      · exact fun out member => (List.mem_append.mp member).elim (own out) (ofLogin out)
      · obtain before | ⟨out, member, asks⟩ := request
        · obtain ⟨out, member, asks⟩ := requested before
          exact ⟨out, List.mem_append_left _ member, asks⟩
        · exact ⟨out, List.mem_append_right _ member, asks⟩
      · rw [applications_stanzas, queued, accepted]

theorem signalError (queued : Queued e) {errorCode : Error}
    (other : errorCode ∉ Login.loginErrors) (subcode : Int) :
    Queued (e.signalError errorCode subcode) := by
  unfold Engine.signalError
  split
  · next opened => exact queued.of_same rfl rfl rfl (fun _ => rfl) (.inr ⟨opened, other⟩)
  · exact queued

theorem session (queued : Queued e) (same : SameSession e e') : Queued e' := by
  refine queued.of_same same.loginTask (printed_same ?_ same.output) same.accepted
    (fun closed => same.state.trans closed) (.inl same.errorCode)
  unfold written
  rw [same.callbacks]

/-- A call of the application. -/
theorem effect {config : Config} {depth : Nat} (queued : Queued e) (atRest : AtRest config depth e)
    (effect : Effect env e e') : Queued e' := by
  cases effect with
  | quiet same => exact queued.session same
  | @queues e₁ same opened task logging element =>
    have queued := queued.session same
    refine Queued.exit ?_ _
    cases queued with
    | login task' logging' queued own requested =>
      cases logging.symm.trans logging'
      exact .login _ rfl (congrArg (· ++ [element]) queued) own requested
    | failed deleted => cases deleted.symm.trans logging
    | done deleted => cases deleted.symm.trans logging
  | @sends e₁ same opened finished element =>
    have queued := queued.session same
    refine Queued.exit ?_ _
    cases queued with
    | login task logging => cases finished.symm.trans logging
    | failed _ closed => exact absurd closed opened
    | done deleted fine before after printed own requested sent =>
      refine .done deleted fine before (after ++ [.stanza .application element]) ?_ own requested ?_
      · refine Eq.trans (printed_append (e := e₁) [.stanza .application element] ?_ ?_) ?_
        · rfl
        · rfl
        · rw [printed, List.append_assoc]
          rfl
      · rw [applications_append, sent]
        rfl
  | raw opened finished text =>
    refine Queued.exit ?_ _
    exact queued.print finished opened [.raw text] rfl rfl rfl rfl rfl rfl
  | connects start task logging =>
    refine Queued.exit ?_ _
    have opening : Queued { e.enter with state := .opening } :=
      queued.of_same rfl rfl rfl (fun closed => nomatch start.symm.trans closed) (.inl rfl)
    exact opening.runLogin logging (atRest.undone task logging) rfl
      (atRest.error (by simp [start])) none false
  | connectsDone start finished =>
    refine Queued.exit ?_ _
    exact queued.of_same rfl rfl rfl (fun closed => nomatch start.symm.trans closed) (.inl rfl)
  | disconnects opened =>
    refine Queued.exit ?_ _
    by_cases connected : e.state = .opened
    · rw [if_pos connected]
      exact queued.print (atRest.opened connected).1 opened [.streamEnd] rfl rfl rfl rfl rfl rfl
    · rw [if_neg connected, List.append_nil]
      exact queued.of_same rfl rfl rfl (fun _ => rfl) (.inl rfl)
  | fails opened errorCode lost subcode =>
    refine Queued.exit ?_ _
    have other : errorCode ∉ Login.loginErrors := by
      obtain rfl | rfl := lost <;> decide
    exact queued.of_same rfl rfl rfl (fun _ => rfl) (.inr ⟨opened, other⟩)

/-- A stanza that comes in and is dealt with at once. -/
theorem incomingStanza {config : Config} (queued : Queued e) (handling : Handling config e)
    {d : Delivery} (dealt : e.incomingStanza env d = .finished e') : Queued e' := by
  obtain ⟨_, rfl⟩ | ⟨_, _, rfl⟩ | ⟨able, _, task, logging, rfl⟩ | ⟨able, _, _, _, _, rfl⟩ :=
    incomingStanza_finished dealt
  · exact queued
  · unfold Engine.signalStreamError
    split
    · have noted : Queued { e with streamError := some d.stanza } :=
        queued.of_same rfl rfl rfl id (.inl rfl)
      exact noted.signalError (by decide) 0
    · exact queued
  · have opening := (handling.login task logging).resolve_left (not_or.mp able).1
    exact queued.runLogin logging (handling.undone task logging) opening
      (handling.error (by simp [opening])) _ _
  · exact queued.effect (handling.atRest (not_or.mp able).1) (unhandled_effect e _)

/-- A handler of stanzas is called. -/
theorem called (queued : Queued e) {callback : Callback} (quiet : parts callback = [])
    (iqEntries : List IqEntry) (delivery : Option Delivery) :
    Queued { e with
      callbacks := e.callbacks ++ [callback], iqEntries := iqEntries, delivery := delivery } := by
  refine queued.of_same rfl (printed_same ?_ rfl) rfl id (.inl rfl)
  unfold written
  rw [List.flatMap_append, List.flatMap_cons, quiet]
  simp

end Queued

variable {allowed : Engine σ τ → Bool → Prop} {config : Config} {sasl : σ} {e : Engine σ τ}

/-- The stanzas are accounted for in every run. -/
theorem Reached.queued {phase : Phase} (reached : Reached env allowed config sasl phase e) :
    Queued e := by
  induction reached with
  | new => exact .login .new rfl rfl nofun nofun
  | @callIdle e call reached ih => exact ih.effect reached.holds (effect_perform env e call)
  | @callWaiting d e call reached ih => exact ih.effect reached.holds.1 (effect_perform env e call)
  | handleInput bytes connected _ ih => exact ih.of_same rfl rfl rfl id (.inl rfl)
  | startStream reached ih =>
    have handling := reached.holds.1
    unfold Engine.incomingStart
    split
    · exact ih
    · next able =>
      split
      · next task logging =>
        have opening := (handling.login task logging).resolve_left (not_or.mp able).1
        exact ih.runLogin logging (handling.undone task logging) opening
          (handling.error (by simp [opening])) _ _
      · exact ih.signalError (by decide) _
  | endStream _ ih | xmlError _ ih =>
    unfold Engine.incomingEnd
    split
    · exact ih
    · exact ih.signalError (by decide) _
  | stanza reached dealt ih => exact ih.incomingStanza reached.holds.1 dealt
  | stanzaWaits _ waits _ ih =>
    obtain ⟨_, _, _, ⟨_, _, rfl⟩ | ⟨_, _, _, _, _, rfl⟩⟩ := incomingStanza_waiting waits
    · exact ih.called rfl _ _
    · exact ih.called rfl _ _
  | returned handled reached _ dealt ih =>
    obtain ⟨_, rfl⟩ | ⟨_, _, _, _, ⟨_, _, rfl⟩ | ⟨_, _, rfl⟩⟩ := returned_finished dealt
    · exact ih
    · exact ih
    · exact ih.effect reached.holds.1 (unhandled_effect _ _)
  | returnedWaits handled _ _ waits _ ih =>
    obtain ⟨_, _, _, _, _, _, _, _, _, rfl⟩ := returned_waiting waits
    exact ih.called rfl _ _
  | exit _ ih =>
    refine Queued.exit ?_ _
    exact ih.of_same rfl rfl rfl id (.inl rfl)

/-- The login has succeeded when its task is gone without one of its errors. -/
def loginSucceeded (e : Engine σ τ) : Bool :=
  e.loginTask.isNone ∧ e.errorCode ∉ Login.loginErrors

end Libjingle.Xmpp.Engine

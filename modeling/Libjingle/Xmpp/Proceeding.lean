import Libjingle.Xmpp.Dispatch
import Mathlib.Data.List.Basic

/-!
# What the engine leaves alone while it logs in

The login task calls `StartTls` of the output handler and no other handler. It closes the
engine only with an error, and a closed engine stays closed.
-/

namespace Libjingle.Xmpp

open Libjingle.Xml

variable {σ τ : Type}

/-- What the login task and the signals of an engine do to it. -/
structure Engine.Proceeds (e e' : Engine σ τ) : Prop where
  config : e'.config = e.config
  engineEntered : e'.engineEntered = e.engineEntered
  parser : e'.parser = e.parser
  outputHandler : e'.outputHandler = e.outputHandler
  stanzaHandlers : e'.stanzaHandlers = e.stanzaHandlers
  iqEntries : e'.iqEntries = e.iqEntries
  accepted : e'.accepted = e.accepted
  delivery : e'.delivery = e.delivery
  loginTask : e'.loginTask = e.loginTask
  callbacks : ∃ new, e'.callbacks = e.callbacks ++ new ∧ ∀ c ∈ new, ∃ domain, c = .startTls domain
  closes : e'.state = .closed → e.state = .closed ∨ e'.hasError = true
  closed : e.state = .closed → e'.state = .closed
  started : e'.state = .start → e.state = .start
  hasError : e.hasError = true → e'.hasError = true
  raisedReset : e.raisedReset = true → e'.raisedReset = true

namespace Engine.Proceeds

variable {e e' e'' : Engine σ τ}

theorem refl (e : Engine σ τ) : Proceeds e e where
  config := rfl
  engineEntered := rfl
  parser := rfl
  outputHandler := rfl
  stanzaHandlers := rfl
  iqEntries := rfl
  accepted := rfl
  delivery := rfl
  loginTask := rfl
  callbacks := ⟨[], (List.append_nil _).symm, nofun⟩
  closes := .inl
  closed := id
  started := id
  hasError := id
  raisedReset := id

theorem trans (first : Proceeds e e') (second : Proceeds e' e'') : Proceeds e e'' where
  config := second.config.trans first.config
  engineEntered := second.engineEntered.trans first.engineEntered
  parser := second.parser.trans first.parser
  outputHandler := second.outputHandler.trans first.outputHandler
  stanzaHandlers := second.stanzaHandlers.trans first.stanzaHandlers
  iqEntries := second.iqEntries.trans first.iqEntries
  accepted := second.accepted.trans first.accepted
  delivery := second.delivery.trans first.delivery
  loginTask := second.loginTask.trans first.loginTask
  callbacks := by
    obtain ⟨new, called, tls⟩ := first.callbacks
    obtain ⟨later, called', tls'⟩ := second.callbacks
    refine ⟨new ++ later, by rw [called', called, List.append_assoc], fun c member => ?_⟩
    exact (List.mem_append.mp member).elim (tls c) (tls' c)
  closes closed := (second.closes closed).elim
    (fun closed => (first.closes closed).imp_right second.hasError) .inr
  closed closed := second.closed (first.closed closed)
  started start := first.started (second.started start)
  hasError error := second.hasError (first.hasError error)
  raisedReset raised := second.raisedReset (first.raisedReset raised)

/-- A change of fields that no handler sees. -/
theorem of_same (config : e'.config = e.config) (engineEntered : e'.engineEntered = e.engineEntered)
    (parser : e'.parser = e.parser) (outputHandler : e'.outputHandler = e.outputHandler)
    (stanzaHandlers : e'.stanzaHandlers = e.stanzaHandlers) (iqEntries : e'.iqEntries = e.iqEntries)
    (accepted : e'.accepted = e.accepted) (delivery : e'.delivery = e.delivery)
    (loginTask : e'.loginTask = e.loginTask) (callbacks : e'.callbacks = e.callbacks)
    (state : e'.state = e.state) (error : e'.errorCode = e.errorCode)
    (raisedReset : e.raisedReset = true → e'.raisedReset = true) : Proceeds e e' where
  config := config
  engineEntered := engineEntered
  parser := parser
  outputHandler := outputHandler
  stanzaHandlers := stanzaHandlers
  iqEntries := iqEntries
  accepted := accepted
  delivery := delivery
  loginTask := loginTask
  callbacks := ⟨[], by rw [callbacks, List.append_nil], nofun⟩
  closes closed := .inl (state ▸ closed)
  closed closed := state ▸ closed
  started start := state ▸ start
  hasError has := by
    rw [Engine.hasError, error]
    exact has
  raisedReset := raisedReset

theorem print (e : Engine σ τ) (out : Out) : Proceeds e (e.print out) :=
  .of_same rfl rfl rfl rfl rfl rfl rfl rfl rfl rfl rfl rfl id

theorem signalError (e : Engine σ τ) {errorCode : Error} (real : errorCode ≠ .none)
    (subcode : Int) : Proceeds e (e.signalError errorCode subcode) := by
  unfold Engine.signalError
  split
  · next opened =>
    have error : Engine.hasError { e with
        errorCode := errorCode, subcode := subcode, state := .closed } = true :=
      decide_eq_true real
    exact ⟨rfl, rfl, rfl, rfl, rfl, rfl, rfl, rfl, rfl, ⟨[], (List.append_nil _).symm, nofun⟩,
      fun _ => .inr error, fun _ => rfl, nofun, fun _ => error, id⟩
  · exact .refl e

theorem signalStreamError (e : Engine σ τ) (streamError : XmlElement) :
    Proceeds e (e.signalStreamError streamError) := by
  unfold Engine.signalStreamError
  split
  · have noted : Proceeds e { e with streamError := some streamError } :=
      .of_same rfl rfl rfl rfl rfl rfl rfl rfl rfl rfl rfl rfl id
    exact noted.trans (signalError _ (by decide) 0)
  · exact .refl e

theorem signalBound (e : Engine σ τ) (fullJid : String) : Proceeds e (e.signalBound fullJid) := by
  unfold Engine.signalBound
  split
  · next opening =>
    exact ⟨rfl, rfl, rfl, rfl, rfl, rfl, rfl, rfl, rfl, ⟨[], (List.append_nil _).symm, nofun⟩,
      nofun, fun closed => absurd (opening.symm.trans closed) nofun, nofun, id, id⟩
  · exact .refl e

theorem startTls (e : Engine σ τ) (domain : String) : Proceeds e (e.startTls domain) := by
  unfold Engine.startTls
  split
  · refine ⟨rfl, rfl, rfl, rfl, rfl, rfl, rfl, rfl, rfl, ⟨_, rfl, fun c member => ?_⟩,
      .inl, id, id, id, id⟩
    exact ⟨_, List.mem_singleton.mp member⟩
  · exact .refl e

end Engine.Proceeds

namespace Login

open Engine

variable (env : Environment σ τ) (l : Login σ τ)

theorem proceeds_failure {reason : Error} (real : reason ≠ .none) :
    Proceeds l.engine (l.failure reason).engine :=
  .signalError _ real 0

theorem proceeds_sasl (sasl : σ) : Proceeds l.engine { l.engine with sasl := sasl } :=
  .of_same rfl rfl rfl rfl rfl rfl rfl rfl rfl rfl rfl rfl id

theorem proceeds_sendIq (child : XmlElement) : Proceeds l.engine (l.sendIq child).engine :=
  .of_same rfl rfl rfl rfl rfl rfl rfl rfl rfl rfl rfl rfl id

theorem proceeds_flush : Proceeds l.engine l.flushQueuedStanzas.engine := by
  unfold flushQueuedStanzas
  dsimp only
  generalize l.task.queuedStanzas = queued
  generalize l.engine = e
  induction queued generalizing e with
  | nil => exact .refl e
  | cons element rest ih => exact (Proceeds.print e _).trans (ih _)

/-- No round disturbs the engine. -/
theorem proceeds_round : Proceeds l.engine (l.round env).2.engine := by
  unfold round
  split
  · exact .of_same rfl rfl rfl rfl rfl rfl rfl rfl rfl rfl rfl rfl fun _ => rfl
  · unfold onTlsInit
    split
    · exact proceeds_failure l (by decide)
    · exact .print _ _
  · unfold onAuthInit
    split
    · exact proceeds_failure l (by decide)
    · dsimp only
      split
      · exact (proceeds_sasl l _).trans (.signalError _ (by decide) 0)
      · split
        · exact (proceeds_sasl l _).trans (.signalError _ (by decide) 0)
        · next sasl _ =>
          split
          · exact (proceeds_sasl l _).trans (.signalError _ (by decide) 0)
          · exact (proceeds_sasl l _).trans (.print _ _)
  · unfold onBindInit
    split
    · exact proceeds_sendIq l _
    · exact proceeds_failure l (by decide)
  · exact .refl _
  all_goals split
  all_goals try exact .refl _
  · unfold onStartStream
    split
    · exact proceeds_failure _ (by decide)
    · exact .refl _
  · unfold onFeatures
    dsimp only
    split_ifs
    · exact proceeds_failure _ (by decide)
    · exact proceeds_failure _ (by decide)
    all_goals exact .refl _
  · unfold onTlsAnswer
    split_ifs
    · exact proceeds_failure _ (by decide)
    · have enabled (e : Engine σ τ) : Proceeds e { e with tlsOption := .enabled } :=
        .of_same rfl rfl rfl rfl rfl rfl rfl rfl rfl rfl rfl rfl id
      exact (Proceeds.startTls _ _).trans (enabled _)
  · unfold onSasl
    dsimp only
    split_ifs
    · exact proceeds_failure _ (by decide)
    · split
      · exact (proceeds_sasl _ _).trans (.signalError _ (by decide) 0)
      · exact (proceeds_sasl _ _).trans (.print _ _)
    · exact proceeds_failure _ (by decide)
    · exact .refl _
  · unfold onBindAnswer
    dsimp only
    split
    · exact .refl _
    · split
      · exact proceeds_failure _ (by decide)
      · split
        · exact proceeds_failure _ (by decide)
        · exact proceeds_sendIq _ _
  · unfold onSessionAnswer
    dsimp only
    split
    · exact .refl _
    · split
      · exact proceeds_failure _ (by decide)
      · have bound := Proceeds.signalBound l.engine l.task.fullJid
        exact bound.trans (proceeds_flush ⟨l.engine.signalBound l.task.fullJid, l.takeStanza.task⟩)

theorem proceeds_rounds (n : Nat) : Proceeds l.engine (l.rounds env n).engine := by
  induction n generalizing l with
  | zero => exact .refl _
  | succ n ih =>
    have once := l.proceeds_round env
    rw [rounds]
    split
    · next l' result =>
      rw [result] at once
      exact once.trans (ih l')
    · next l' result =>
      rw [result] at once
      exact once

end Login

namespace Engine

variable (env : Environment σ τ) (e : Engine σ τ)

/-- The login task runs, and is kept or deleted. -/
theorem proceeds_runLogin (task : LoginTask) (element : Option XmlElement) (isStart : Bool) :
    Proceeds e { e.runLogin env task element isStart with loginTask := e.loginTask } := by
  have rounds := Login.proceeds_rounds env
    ⟨e, { task with stanza := element, isStart := isStart }⟩ 4
  exact ⟨rounds.config, rounds.engineEntered, rounds.parser, rounds.outputHandler,
    rounds.stanzaHandlers, rounds.iqEntries, rounds.accepted, rounds.delivery, rfl,
    rounds.callbacks, rounds.closes, rounds.closed, rounds.started, rounds.hasError,
    rounds.raisedReset⟩

end Engine

end Libjingle.Xmpp

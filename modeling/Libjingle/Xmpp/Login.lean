import Libjingle.Xmpp.Engine

/-!
# The login task

`XmppLoginTask::Advance` of `talk/xmpp/xmpplogintask.cc`. The loop goes on until it needs
another stanza, or the task is done.
-/

namespace Libjingle.Xmpp

open Libjingle.Xml

variable {σ τ : Type} (env : Environment σ τ)

/-- An engine and its login task while it runs. -/
structure Login (σ τ : Type) where
  engine : Engine σ τ
  task : LoginTask

namespace Login

/-- `NextStanza`. A stanza is taken once. -/
def takeStanza (l : Login σ τ) : Login σ τ :=
  { l with task := { l.task with stanza := none } }

def setState (l : Login σ τ) (state : LoginState) : Login σ τ :=
  { l with task := { l.task with state := state } }

def send (l : Login σ τ) (element : XmlElement) : Login σ τ :=
  { l with engine := l.engine.internalSendStanza .login element }

def failure (l : Login σ τ) (reason : Error) : Login σ τ :=
  { l.setState .done with engine := l.engine.signalError reason 0 }

def getFeature (l : Login σ τ) (name : QName) : Option XmlElement :=
  l.task.features.bind fun features => features.firstNamed name

/-- An iq with a new id, which the task remembers. -/
def sendIq (l : Login σ τ) (child : XmlElement) : Login σ τ :=
  let (id, engine) := l.engine.takeId
  { engine := engine, task := { l.task with iqId := id } : Login σ τ }.send
    ((((XmlElement.new qnIq).addAttr qnType "set").addAttr qnId id).addElement child)

/-- The answer to the iq that was sent. -/
def isAnswer (l : Login σ τ) (element : XmlElement) : Bool :=
  ¬ (element.name ≠ qnIq ∨ element.attr qnId ≠ l.task.iqId ∨ element.attr qnType = "get" ∨
    element.attr qnType = "set")

/-- `HandleStartStream`. -/
def isStartStream (element : XmlElement) : Bool :=
  element.name = qnStreamStream ∧ element.attr qnXmlns = "jabber:client" ∧
    element.attr qnVersion = "1.0" ∧ element.hasAttr qnId

def flushQueuedStanzas (l : Login σ τ) : Login σ τ where
  engine := l.task.queuedStanzas.foldl (fun e element => e.internalSendStanza .application element)
    l.engine
  task := { l.task with queuedStanzas := [] }

def setGoogleAttrs (l : Login σ τ) (auth : XmlElement) : XmlElement :=
  if l.task.allowNonGoogleLogin then
    (auth.setAttr qnGoogleAllowNonGoogleIdXmppLogin "true").setAttr
      qnGoogleAuthClientUsesFullBindResult "true"
  else auth

def onInit (l : Login σ τ) : Login σ τ :=
  { engine := l.engine.raiseReset.internalSendStart l.engine.config.domain
    task := { l.task with features := none } : Login σ τ }.setState .streamStartSent

def onStartStream (l : Login σ τ) (element : XmlElement) : Login σ τ :=
  if ¬ l.task.isStart ∨ ¬ isStartStream element then l.failure .version
  else { l with task := { l.task with streamId := element.attr qnId } }.setState .startedXmpp

/-- The flag tells whether the loop goes on. -/
def onFeatures (l : Login σ τ) (element : XmlElement) : Bool × Login σ τ :=
  if element.name ≠ qnStreamFeatures then (false, l.failure .version)
  else
    let l := { l with task := { l.task with features := some element } }
    let tlsPresent := (l.getFeature qnTlsStarttls).isSome
    if l.engine.tlsOption = .required ∧ ¬ tlsPresent then (false, l.failure .tls)
    else if (l.engine.tlsOption = .required ∨ l.engine.tlsOption = .enabled) ∧ tlsPresent then
      (true, l.setState .tlsInit)
    else if l.task.authNeeded then (true, l.setState .authInit)
    else (true, l.setState .bindInit)

def onTlsInit (l : Login σ τ) : Bool × Login σ τ :=
  match l.getFeature qnTlsStarttls with
  | none => (false, l.failure .tls)
  | some _ => (true, (l.send (.newDefaultNs qnTlsStarttls)).setState .tlsRequested)

def onTlsAnswer (l : Login σ τ) (element : XmlElement) : Bool × Login σ τ :=
  if element.name ≠ qnTlsProceed then (false, l.failure .tls)
  else
    let engine := { l.engine.startTls l.engine.config.domain with tlsOption := .enabled }
    (true, { l with engine := engine }.setState .init)

def onAuthInit (l : Login σ τ) : Bool × Login σ τ :=
  match l.getFeature qnSaslMechanisms with
  | none => (false, l.failure .auth)
  | some saslAuth =>
      let mechanisms := (saslAuth.allNamed qnSaslMechanism).map XmlElement.bodyText
      let (choice, sasl) :=
        env.sasl.chooseBestSaslMechanism l.engine.sasl mechanisms l.engine.encrypted
      let l := { l with engine := { l.engine with sasl := sasl } }
      if choice = "" then (false, l.failure .auth)
      else
        match env.sasl.createSaslMechanism sasl choice with
        | none => (false, l.failure .auth)
        | some sasl =>
            let (auth, sasl) := env.sasl.startSaslAuth sasl
            let l := { l with engine := { l.engine with sasl := sasl } }
            match auth with
            | none => (false, l.failure .auth)
            | some auth => (true, (l.send (l.setGoogleAttrs auth)).setState .saslRunning)

def onSasl (l : Login σ τ) (element : XmlElement) : Bool × Login σ τ :=
  if element.name.ns ≠ nsSasl then (false, l.failure .auth)
  else if element.name = qnSaslChallenge then
    let (response, sasl) := env.sasl.handleSaslChallenge l.engine.sasl element
    let l := { l with engine := { l.engine with sasl := sasl } }
    match response with
    | none => (false, l.failure .auth)
    | some response => (true, (l.send response).setState .saslRunning)
  else if element.name ≠ qnSaslSuccess then (false, l.failure .unauthorized)
  else (true, { l with task := { l.task with authNeeded := false } }.setState .init)

def onBindInit (l : Login σ τ) : Bool × Login σ τ :=
  match l.getFeature qnBindBind, l.getFeature qnSessionSession with
  | some _, some _ =>
      let resource := l.engine.config.requestedResource
      let bind : XmlElement := .newDefaultNs qnBindBind
      let bind :=
        if resource ≠ "" then bind.addElement ((XmlElement.new qnBindResource).addText resource)
        else bind
      (true, (l.sendIq bind).setState .bindRequested)
  | _, _ => (false, l.failure .bind)

def onBindAnswer (l : Login σ τ) (element : XmlElement) : Bool × Login σ τ :=
  if ¬ l.isAnswer element then (false, l)
  else if element.attr qnType ≠ "result" ∨
      element.firstElement.map XmlElement.name ≠ some qnBindBind then (false, l.failure .bind)
  else
    let fullJid := (element.firstElement.map fun bind => bind.textNamed qnBindJid).getD ""
    let l := { l with task := { l.task with fullJid := fullJid } }
    if ¬ env.isFullJid fullJid then (false, l.failure .bind)
    else (true, (l.sendIq (.newDefaultNs qnSessionSession)).setState .sessionRequested)

def onSessionAnswer (l : Login σ τ) (element : XmlElement) : Login σ τ :=
  if ¬ l.isAnswer element then l
  else if element.attr qnType ≠ "result" then l.failure .bind
  else
    let l := { l with engine := l.engine.signalBound l.task.fullJid }
    l.flushQueuedStanzas.setState .done

/-- One round of the loop. -/
def round (l : Login σ τ) : Bool × Login σ τ :=
  match l.task.state with
  | .init => (true, l.onInit)
  | .tlsInit => l.onTlsInit
  | .authInit => l.onAuthInit env
  | .bindInit => l.onBindInit
  | .done => (false, l)
  | .streamStartSent =>
      match l.task.stanza with
      | none => (false, l)
      | some element => (false, l.takeStanza.onStartStream element)
  | .startedXmpp =>
      match l.task.stanza with
      | none => (false, l)
      | some element => l.takeStanza.onFeatures element
  | .tlsRequested =>
      match l.task.stanza with
      | none => (false, l)
      | some element => l.takeStanza.onTlsAnswer element
  | .saslRunning =>
      match l.task.stanza with
      | none => (false, l)
      | some element => l.takeStanza.onSasl env element
  | .bindRequested =>
      match l.task.stanza with
      | none => (false, l)
      | some element => l.takeStanza.onBindAnswer env element
  | .sessionRequested =>
      match l.task.stanza with
      | none => (false, l)
      | some element => (false, l.takeStanza.onSessionAnswer element)

def rounds : Nat → Login σ τ → Login σ τ
  | 0, l => l
  | n + 1, l =>
      match l.round env with
      | (true, l) => rounds n l
      | (false, l) => l

/-- `Advance`. Four rounds are enough. -/
def advance (l : Login σ τ) : Login σ τ :=
  rounds env 4 l

/-- How many rounds there can still be, with and without a stanza. -/
def remaining (l : Login σ τ) : Nat :=
  match l.task.state, l.task.stanza with
  | .init, _ => 2
  | .streamStartSent, _ => 1
  | .startedXmpp, none => 1
  | .startedXmpp, some _ => 3
  | .tlsInit, none => 2
  | .tlsInit, some _ => 4
  | .authInit, none => 2
  | .authInit, some _ => 4
  | .bindInit, none => 2
  | .bindInit, some _ => 3
  | .tlsRequested, none => 1
  | .tlsRequested, some _ => 3
  | .saslRunning, none => 1
  | .saslRunning, some _ => 3
  | .bindRequested, none => 1
  | .bindRequested, some _ => 2
  | .sessionRequested, _ => 1
  | .done, _ => 1

/-- Every round that goes on leaves fewer. -/
theorem round_remaining {l l' : Login σ τ} (goes : l.round env = (true, l')) :
    l'.remaining < l.remaining := by
  unfold round at goes
  cases state : l.task.state <;> cases stanza : l.task.stanza <;>
    simp only [state, stanza, onTlsInit, onAuthInit, onBindInit, onFeatures, onTlsAnswer, onSasl,
      onBindAnswer] at goes
  all_goals repeat' split at goes
  all_goals cases goes
  all_goals simp [remaining, state, stanza, setState, takeStanza, send, sendIq, onInit]

theorem remaining_le (l : Login σ τ) : l.remaining ≤ 4 := by
  unfold remaining
  split <;> decide

end Login

end Libjingle.Xmpp

import Libjingle.Session.Messages
import Libjingle.Std.Registry

/-!
# `SessionManager`

`talk/p2p/base/sessionmanager.cc`: sessions are registered under their ids alone,
and a stanza finds its session by the id and the name of the other party. The
manager passes stanzas on to sessions, creates a session for an initiate that
finds none, and destroys sessions.
-/

namespace Libjingle

open Libjingle.Session Libjingle.Std

structure SessionManager where
  client : Session.Client
  /-- Comparison of `Jid`s. -/
  jidsEqual : String → String → Bool
  /-- The content types of `client_map_`. -/
  contentTypes : List String
  /-- Of new sessions. -/
  allowLocalIps : Bool
  /-- The sessions that exist, and `session_map_`. -/
  sessions : Registry String Session
  /-- The errors the manager itself has answered with, newest first. -/
  refused : List MessageError

namespace SessionManager

/-- What the manager reads in a stanza that a session has sent. -/
structure Original where
  sid : String
  recipient : String
  type : ActionType
  deriving DecidableEq, Repr

inductive Input where
  /-- An incoming stanza, with what the parsers make of it. -/
  | message (msg : Except String SessionMessage) (contentType : Except String String)
      (listeners : Listeners)
  /-- A response, with the stanza it answers. -/
  | response (orig : Option Original) (listeners : Listeners)
  /-- A send that failed; without an error stanza, the recipient did not respond. -/
  | failedSend (orig : Option Original) (error : Option FailedSend) (listeners : Listeners)
  /-- The local `CreateSession`, with the random id. -/
  | createSession (localName sid : String)
  | destroySession (session : Nat)
  /-- Anything else that happens to a session. -/
  | session (session : Nat) (stimulus : Stimulus)

/-- The session an object is registered under. -/
def getSession (m : SessionManager) (sid : String) : Option Nat :=
  m.sessions.index sid

def findSession (m : SessionManager) (sid remoteName : String) : Option Nat :=
  match m.sessions.index sid with
  | none => none
  | some session =>
      match m.sessions.objects session with
      | none => none
      | some s => if m.jidsEqual remoteName s.remoteName then some session else none

/-- `CreateSession` with all its arguments. -/
def addSession (m : SessionManager) (localName initiatorName sid : String) : SessionManager :=
  { m with
    sessions := m.sessions.add (·.sid)
      (Session.new m.client localName initiatorName sid m.allowLocalIps) }

/-- Only a session whose id is registered is destroyed. -/
def destroySession (m : SessionManager) (session : Nat) : SessionManager :=
  match m.sessions.objects session with
  | none => m
  | some s =>
      match m.sessions.index s.sid with
      | none => m
      | some _ => { m with sessions := m.sessions.remove (·.sid) session }

/-- A session takes a stimulus. In a terminate state it may ask to be destroyed. -/
def stepSession (m : SessionManager) (session : Nat) (stimulus : Stimulus) : SessionManager :=
  match m.sessions.objects session with
  | none => m
  | some s =>
      let m := { m with sessions := m.sessions.modify session (·.step stimulus) }
      if s.history.count .destroyed < (s.step stimulus).history.count .destroyed then
        m.destroySession session
      else m

/-- `SendErrorMessage`. -/
def refuse (m : SessionManager) (text : String) : SessionManager :=
  { m with refused := badParse text :: m.refused }

def onIncomingMessage (m : SessionManager) (msg : SessionMessage)
    (contentType : Except String String) (listeners : Listeners) : SessionManager :=
  match m.findSession msg.sid msg.sender with
  | some session => m.stepSession session ⟨.message msg, listeners⟩
  | none =>
      if msg.type ≠ .sessionInitiate then m.refuse "unknown session"
      else
        match contentType with
        | .error text => m.refuse text
        | .ok type =>
            if type ∉ m.contentTypes then m.refuse ("unknown content type: " ++ type)
            else
              (m.addSession msg.recipient msg.initiator msg.sid).stepSession m.sessions.next
                ⟨.message msg, listeners⟩

def onIncomingResponse (m : SessionManager) (orig : Original) (listeners : Listeners) :
    SessionManager :=
  match m.findSession orig.sid orig.recipient with
  | some session => m.stepSession session ⟨.response orig.type, listeners⟩
  | none => m

def onFailedSend (m : SessionManager) (orig : Original) (error : Option FailedSend)
    (listeners : Listeners) : SessionManager :=
  match m.findSession orig.sid orig.recipient with
  | some session =>
      m.stepSession session ⟨.failedSend (error.getD (.error orig.type "cancel")), listeners⟩
  | none => m

def step (m : SessionManager) : Input → SessionManager
  | .message (.error text) _ _ => m.refuse text
  | .message (.ok msg) contentType listeners => m.onIncomingMessage msg contentType listeners
  | .response none _ => m
  | .response (some orig) listeners => m.onIncomingResponse orig listeners
  | .failedSend none _ _ => m
  | .failedSend (some orig) error listeners => m.onFailedSend orig error listeners
  | .createSession localName sid => m.addSession localName localName sid
  | .destroySession session => m.destroySession session
  | .session session stimulus => m.stepSession session stimulus

/-- A manager without sessions. -/
def new (client : Session.Client) (jidsEqual : String → String → Bool) (contentTypes : List String)
    (allowLocalIps : Bool) : SessionManager where
  client := client
  jidsEqual := jidsEqual
  contentTypes := contentTypes
  allowLocalIps := allowLocalIps
  sessions := .empty
  refused := []

end SessionManager

end Libjingle

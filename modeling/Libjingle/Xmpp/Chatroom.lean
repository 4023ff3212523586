import Libjingle.Std.CString
import Libjingle.Std.Trace
import Libjingle.Xmpp.Constants
import Mathlib.Logic.Function.Basic

/-!
# A chatroom

`XmppChatroomModuleImpl` of `talk/xmpp/chatroommoduleimpl.cc` enters and leaves a room by
the table of its transitions, which the user's own presence drives, and keeps the other
occupants in a map that their presence changes in every state. The rows that no server should
take are only asserted, and nothing empties the map between two stays.
-/

namespace Libjingle.Xmpp

open Libjingle.Std
open Libjingle.Xml

def nsMuc : String := "http://jabber.org/protocol/muc"

def qnPresence : QName := ⟨nsClient, "presence"⟩
def qnMessage : QName := ⟨nsClient, "message"⟩
def qnMucX : QName := ⟨nsMuc, "x"⟩

inductive XmppReturnStatus where
  | ok
  | badArgument
  | badState
  | pending
  | unexpected
  | notYetImplemented
  deriving DecidableEq, Repr

inductive XmppPresenceAvailable where
  | unavailable
  | available
  | error
  deriving DecidableEq, Repr

inductive XmppChatroomState where
  | notInRoom
  | requestedEnter
  | inRoom
  | requestedExit
  deriving DecidableEq, Repr

inductive XmppChatroomEnteredStatus where
  | success
  | failureNicknameConflict
  | failurePasswordRequired
  | failurePasswordIncorrect
  | failureNotAMember
  | failureMemberBanned
  | failureMaxUsers
  | failureRoomLocked
  | failureUnspecified
  deriving DecidableEq, Repr

inductive XmppChatroomExitedStatus where
  | requested
  | banned
  | kicked
  | notAMember
  | systemShutdown
  | unspecified
  deriving DecidableEq, Repr

inductive TransitionType where
  | none
  | enterSuccess
  | enterFailure
  | exitVoluntarily
  | exitInvoluntarily
  deriving DecidableEq, Repr

structure StateTransitionDescription where
  oldState : XmppChatroomState
  newState : XmppChatroomState
  isValidServerTransition : Bool
  isValidClientTransition : Bool
  transitionType : TransitionType

def transitions : List StateTransitionDescription :=
  [⟨.notInRoom, .requestedEnter, false, true, .none⟩,
   ⟨.notInRoom, .inRoom, false, false, .enterSuccess⟩,
   ⟨.notInRoom, .requestedExit, false, false, .none⟩,
   ⟨.requestedEnter, .notInRoom, true, false, .enterFailure⟩,
   ⟨.requestedEnter, .inRoom, true, false, .enterSuccess⟩,
   ⟨.requestedEnter, .requestedExit, false, false, .none⟩,
   ⟨.inRoom, .notInRoom, true, false, .exitInvoluntarily⟩,
   ⟨.inRoom, .requestedEnter, false, false, .none⟩,
   ⟨.inRoom, .requestedExit, false, true, .none⟩,
   ⟨.requestedExit, .notInRoom, true, false, .exitVoluntarily⟩,
   ⟨.requestedExit, .requestedEnter, false, false, .none⟩,
   ⟨.requestedExit, .inRoom, false, false, .none⟩]

/-- What the handler is told. A member is its presence. -/
inductive ChatroomEvent where
  | chatroomEnteredStatus (status : XmppChatroomEnteredStatus)
  | chatroomExitedStatus (status : XmppChatroomExitedStatus)
  | memberEntered (member : XmlElement)
  | memberExited (member : XmlElement)
  | messageReceived (message : XmlElement)

/-- What the module does with a `Jid`. `member` has the node and the domain of a `Jid`, and a
resource. -/
structure JidFunctions (J : Type) where
  parse : String → J
  str : J → String
  isValid : J → Bool
  bareJid : J → J
  member : J → String → J

/-- `atoi`, where the number fits. -/
def atoi (text : String) : Int :=
  let (negative, digits, _) := CString.takeNumber 10 (CString.ofString text)
  if negative then -(CString.digitsValue 10 digits : Int) else CString.digitsValue 10 digits

/-! ## Presence -/

/-- The stanzas that `set_raw_xml` takes. -/
def isRawPresence (xml : XmlElement) : Bool :=
  xml.name = qnPresence ∧ (xml.attr qnType = "" ∨ xml.attr qnType = "unavailable")

/-- `available` of a presence. -/
def presenceAvailable (xml : XmlElement) : XmppPresenceAvailable :=
  if xml.attr qnType = "unavailable" then .unavailable
  else if xml.attr qnType = "error" then .error
  else .available

/-- Who is there by a presence. -/
def occupant (presence : XmlElement) : Option XmlElement :=
  if presenceAvailable presence = .available then some presence else none

/-- The code of the error in a presence. -/
def presenceErrorCode (presence : XmlElement) : Option Int :=
  match presence.firstNamed qnError with
  | none => none
  | some error => if error.hasAttr qnCode then some (atoi (error.attr qnCode)) else none

def getEnterFailureFromXml (presence : XmlElement) : XmppChatroomEnteredStatus :=
  match presenceErrorCode presence with
  | some 401 => .failurePasswordRequired
  | some 403 => .failureMemberBanned
  | some 405 => .failureMaxUsers
  | some 407 => .failureNotAMember
  | some 409 => .failureNicknameConflict
  | _ => .failureUnspecified

def getExitFailureFromXml (presence : XmlElement) : XmppChatroomExitedStatus :=
  match presenceErrorCode presence with
  | some 307 => .kicked
  | some 322 => .notAMember
  | some 332 => .systemShutdown
  | _ => .unspecified

/-! ## The module -/

/-- The members are those of `chatroom_jid_members_`. -/
structure ChatroomModule (J : Type) where
  chatroomJid : J
  nickname : String
  state : XmppChatroomState
  members : J → Option XmlElement
  membersVersion : Nat

/-- What `SendStanza` returns, where there is an engine. -/
abbrev StanzaSender := Option (XmlElement → XmppReturnStatus)

inductive ChatroomInput (J : Type) where
  | setChatroomJid (chatroomJid : J)
  | setNickname (nickname : String)
  | requestEnterChatroom (password : String) (engine : StanzaSender)
  | requestExitChatroom (engine : StanzaSender)
  | handleStanza (stanza : XmlElement)

variable {J : Type} [DecidableEq J]

namespace ChatroomModule

def new (jids : JidFunctions J) : ChatroomModule J :=
  ⟨jids.parse "", "", .notInRoom, fun _ => none, 0⟩

def memberJid (jids : JidFunctions J) (m : ChatroomModule J) : J :=
  jids.member m.chatroomJid m.nickname

def setChatroomJid (jids : JidFunctions J) (m : ChatroomModule J) (chatroomJid : J) :
    ChatroomModule J × XmppReturnStatus :=
  if m.state ≠ .notInRoom then (m, .badState)
  else if chatroomJid ≠ jids.bareJid chatroomJid then (m, .badArgument)
  else ({ m with chatroomJid := chatroomJid }, .ok)

def setNickname (m : ChatroomModule J) (nickname : String) : ChatroomModule J × XmppReturnStatus :=
  if m.state ≠ .notInRoom then (m, .badState)
  else ({ m with nickname := nickname }, .ok)

/-- `ChangePresence`; a change comes with a presence exactly if it is the server's. -/
def changePresence (m : ChatroomModule J) (newState : XmppChatroomState)
    (presence : Option XmlElement) :
    ChatroomModule J × XmppReturnStatus × Option ChatroomEvent :=
  if m.state = newState then (m, .ok, none)
  else
    match transitions.find? fun t => t.oldState = m.state && t.newState = newState with
    | none => (m, .badState, none)
    | some transition =>
        -- A server transition that is not valid is only asserted.
        if presence.isNone && !transition.isValidClientTransition then (m, .badArgument, none)
        else
          let m := { m with state := newState }
          match transition.transitionType, presence with
          | .enterSuccess, _ => (m, .ok, some (.chatroomEnteredStatus .success))
          | .enterFailure, some presence =>
              (m, .ok, some (.chatroomEnteredStatus (getEnterFailureFromXml presence)))
          | .exitInvoluntarily, some presence =>
              (m, .ok, some (.chatroomExitedStatus (getExitFailureFromXml presence)))
          | .exitVoluntarily, _ => (m, .ok, some (.chatroomExitedStatus .requested))
          | _, _ => (m, .ok, none)

def checkEnterChatroomStateOk (jids : JidFunctions J) (m : ChatroomModule J) : Bool :=
  jids.isValid m.chatroomJid && m.nickname ≠ ""

/-- The presence that asks for entrance. -/
def enterPresence (jids : JidFunctions J) (m : ChatroomModule J) : XmlElement :=
  ((XmlElement.new qnPresence).addAttr qnTo (jids.str (m.memberJid jids))).addElement (.new qnMucX)

def exitPresence (jids : JidFunctions J) (m : ChatroomModule J) : XmlElement :=
  ((XmlElement.new qnPresence).addAttr qnTo (jids.str (m.memberJid jids))).addAttr qnType
    "unavailable"

def requestEnterChatroom (jids : JidFunctions J) (m : ChatroomModule J) (_password : String) :
    StanzaSender → ChatroomModule J × XmppReturnStatus × Option ChatroomEvent
  | none => (m, .badState, none)
  | some sendStanza =>
      if m.state ≠ .notInRoom then (m, .badState, none)
      else if !m.checkEnterChatroomStateOk jids then (m, .badState, none)
      else
        match sendStanza (m.enterPresence jids) with
        | .ok => m.changePresence .requestedEnter none
        | status => (m, status, none)

def requestExitChatroom (jids : JidFunctions J) (m : ChatroomModule J) :
    StanzaSender → ChatroomModule J × XmppReturnStatus × Option ChatroomEvent
  | none => (m, .badState, none)
  | some sendStanza =>
      if m.state ≠ .inRoom then (m, .badState, none)
      else
        match sendStanza (m.exitPresence jids) with
        | .ok => m.changePresence .requestedExit none
        | status => (m, status, none)

def serverChangeMyPresence (m : ChatroomModule J) (presence : XmlElement) :
    ChatroomModule J × XmppReturnStatus × Option ChatroomEvent :=
  m.changePresence (if presence.hasAttr qnType then .notInRoom else .inRoom) (some presence)

/-- Members are announced only in the room. -/
def whileInRoom (m : ChatroomModule J) (event : ChatroomEvent) : Option ChatroomEvent :=
  if m.state = .inRoom then some event else none

def setMember (m : ChatroomModule J) (jid : J) (member : Option XmlElement) : ChatroomModule J :=
  { m with
    members := Function.update m.members jid member
    membersVersion := m.membersVersion + 1 }

def serverChangedOtherPresence (jids : JidFunctions J) (m : ChatroomModule J)
    (presence : XmlElement) : ChatroomModule J × XmppReturnStatus × Option ChatroomEvent :=
  if !isRawPresence presence then (m, .badArgument, none)
  else
    let jid := jids.parse (presence.attr qnFrom)
    match m.members jid, presenceAvailable presence with
    | none, .available =>
        (m.setMember jid (some presence), .ok, m.whileInRoom (.memberEntered presence))
    | some _, .available => (m.setMember jid (some presence), .ok, none)
    | some member, .unavailable =>
        (m.setMember jid none, .ok, m.whileInRoom (.memberExited member))
    | _, _ => (m, .ok, none)

/-- `HandleStanza`; the flag tells whether the stanza is for this chatroom. -/
def handleStanza (jids : JidFunctions J) (m : ChatroomModule J) (stanza : XmlElement) :
    ChatroomModule J × Bool × Option ChatroomEvent :=
  let fromJid := jids.parse (stanza.attr qnFrom)
  if m.chatroomJid ≠ jids.bareJid fromJid then (m, false, none)
  else if stanza.name = qnPresence then
    let (m, _, event) :=
      if fromJid = m.memberJid jids then m.serverChangeMyPresence stanza
      else m.serverChangedOtherPresence jids stanza
    (m, true, event)
  else if stanza.name = qnMessage then (m, true, some (.messageReceived stanza))
  else (m, true, none)

/-- The module after an input, with what the handler is told. -/
def input (jids : JidFunctions J) (m : ChatroomModule J) :
    ChatroomInput J → ChatroomModule J × Option ChatroomEvent
  | .setChatroomJid chatroomJid => ((m.setChatroomJid jids chatroomJid).1, none)
  | .setNickname nickname => ((m.setNickname nickname).1, none)
  | .requestEnterChatroom password engine =>
      let (m, _, event) := m.requestEnterChatroom jids password engine
      (m, event)
  | .requestExitChatroom engine =>
      let (m, _, event) := m.requestExitChatroom jids engine
      (m, event)
  | .handleStanza stanza =>
      let (m, _, event) := m.handleStanza jids stanza
      (m, event)

end ChatroomModule

/-! ## Stays -/

/-- How far the current stay is: an enter request was made, and own available presence came
after it. -/
inductive Progress where
  | away
  | asked
  | present
  deriving DecidableEq, Repr

/-- A module with the history that its state should follow. -/
structure Stay (J : Type) where
  module : ChatroomModule J
  progress : Progress
  /-- The handler saw the last enter after the last exit. -/
  inside : Bool
  /-- An exit was requested since the last enter or exit. -/
  exitRequested : Bool
  /-- The latest presence of others since the last enter request. -/
  latest : J → Option XmlElement

namespace Stay

variable (jids : JidFunctions J)

def new : Stay J := ⟨.new jids, .away, false, false, fun _ => none⟩

/-- A request that was sent. -/
def Accepts (s : Stay J) : ChatroomInput J → Prop
  | .requestEnterChatroom password engine =>
      (s.module.requestEnterChatroom jids password engine).2.1 = .ok
  | .requestExitChatroom engine => (s.module.requestExitChatroom jids engine).2.1 = .ok
  | _ => False

instance (s : Stay J) (input : ChatroomInput J) : Decidable (s.Accepts jids input) := by
  cases input <;> unfold Accepts <;> infer_instance

/-- The stanza is a presence of the user in the room. -/
def Own (s : Stay J) (stanza : XmlElement) : Prop :=
  stanza.name = qnPresence ∧ jids.bareJid (jids.parse (stanza.attr qnFrom)) = s.module.chatroomJid ∧
    jids.parse (stanza.attr qnFrom) = s.module.memberJid jids

/-- The stanza is a presence of somebody else in the room, which is there or is not. -/
def Others (s : Stay J) (stanza : XmlElement) : Prop :=
  isRawPresence stanza ∧ jids.bareJid (jids.parse (stanza.attr qnFrom)) = s.module.chatroomJid ∧
    jids.parse (stanza.attr qnFrom) ≠ s.module.memberJid jids

instance (s : Stay J) (stanza : XmlElement) : Decidable (s.Own jids stanza) :=
  inferInstanceAs (Decidable (_ ∧ _))

instance (s : Stay J) (stanza : XmlElement) : Decidable (s.Others jids stanza) :=
  inferInstanceAs (Decidable (_ ∧ _))

def progressAfter (s : Stay J) : ChatroomInput J → Progress
  | .requestEnterChatroom password engine =>
      if s.Accepts jids (.requestEnterChatroom password engine) then .asked else s.progress
  | .handleStanza stanza =>
      if s.Own jids stanza then
        if stanza.hasAttr qnType ∨ s.progress = .away then .away else .present
      else s.progress
  | _ => s.progress

def latestAfter (s : Stay J) : ChatroomInput J → J → Option XmlElement
  | .requestEnterChatroom password engine =>
      if s.Accepts jids (.requestEnterChatroom password engine) then fun _ => none else s.latest
  | .handleStanza stanza =>
      if s.Others jids stanza then
        Function.update s.latest (jids.parse (stanza.attr qnFrom)) (some stanza)
      else s.latest
  | _ => s.latest

def insideAfter (s : Stay J) : Option ChatroomEvent → Bool
  | some (.chatroomEnteredStatus .success) => true
  | some (.chatroomExitedStatus _) => false
  | _ => s.inside

def exitRequestedAfter (s : Stay J) (input : ChatroomInput J) (event : Option ChatroomEvent) :
    Bool :=
  match input, event with
  | _, some (.chatroomEnteredStatus .success) => false
  | _, some (.chatroomExitedStatus _) => false
  | .requestExitChatroom engine, _ =>
      s.exitRequested || s.Accepts jids (.requestExitChatroom engine)
  | _, _ => s.exitRequested

def step (s : Stay J) (input : ChatroomInput J) : Stay J where
  module := (s.module.input jids input).1
  progress := s.progressAfter jids input
  inside := s.insideAfter (s.module.input jids input).2
  exitRequested := s.exitRequestedAfter jids input (s.module.input jids input).2
  latest := s.latestAfter jids input

/-- The others that are there by their latest presence. -/
def occupants (s : Stay J) (jid : J) : Option XmlElement :=
  (s.latest jid).bind occupant

/-- After an input, the state and the members are those of the stay, and what the handler is
told is in turn. -/
structure Follows (s : Stay J) (input : ChatroomInput J) : Prop where
  entered : (s.step jids input).module.state = .inRoom → (s.step jids input).progress = .present
  enters : (s.module.input jids input).2 = some (.chatroomEnteredStatus .success) →
    s.inside = false
  exits : ∀ status, (s.module.input jids input).2 = some (.chatroomExitedStatus status) →
    s.inside = true
  requested : ∀ status, (s.module.input jids input).2 = some (.chatroomExitedStatus status) →
    s.exitRequested = true → status = .requested
  members : (s.step jids input).module.state = .inRoom →
    (s.step jids input).module.members = (s.step jids input).occupants
  others : (s.step jids input).module.state = .inRoom → ∀ jid,
    ((s.step jids input).module.members jid).isSome →
      jids.bareJid jid = (s.step jids input).module.chatroomJid ∧
        jid ≠ (s.step jids input).module.memberJid jids

/-- Own available presence comes only after a request, and not before those who are members
from earlier have sent a presence since that; and no other own presence comes in the room
after a request to leave it. -/
def InOrder (s : Stay J) : ChatroomInput J → Prop
  | .handleStanza stanza =>
      s.Own jids stanza →
        if stanza.hasAttr qnType then s.module.state = .inRoom → s.exitRequested = false
        else s.module.state ≠ .notInRoom ∧
          (s.module.state = .requestedEnter →
            ∀ jid, (s.module.members jid).isSome → (s.latest jid).isSome)
  | _ => True

end Stay

/-! ## Changes of state -/

namespace ChatroomModule

variable {jids : JidFunctions J} {m : ChatroomModule J}

omit [DecidableEq J] in
theorem changePresence_requestedEnter (away : m.state = .notInRoom) :
    m.changePresence .requestedEnter none = ({ m with state := .requestedEnter }, .ok, none) := by
  simp [changePresence, away, transitions]

omit [DecidableEq J] in
theorem changePresence_requestedExit (inRoom : m.state = .inRoom) :
    m.changePresence .requestedExit none = ({ m with state := .requestedExit }, .ok, none) := by
  simp [changePresence, inRoom, transitions]

/-- What is told when the user is seen in the room. -/
def arrivalEvent : XmppChatroomState → Option ChatroomEvent
  | .notInRoom | .requestedEnter => some (.chatroomEnteredStatus .success)
  | .inRoom | .requestedExit => none

/-- What is told when a presence says that the user is not in the room. -/
def departureEvent (presence : XmlElement) : XmppChatroomState → Option ChatroomEvent
  | .notInRoom => none
  | .requestedEnter => some (.chatroomEnteredStatus (getEnterFailureFromXml presence))
  | .inRoom => some (.chatroomExitedStatus (getExitFailureFromXml presence))
  | .requestedExit => some (.chatroomExitedStatus .requested)

omit [DecidableEq J] in
theorem serverChangeMyPresence_available {presence : XmlElement}
    (available : presence.hasAttr qnType = false) :
    m.serverChangeMyPresence presence =
      ({ m with state := .inRoom }, .ok, arrivalEvent m.state) := by
  obtain ⟨chatroomJid, nickname, state, members, membersVersion⟩ := m
  cases state <;> simp [serverChangeMyPresence, changePresence, available, transitions, arrivalEvent]

omit [DecidableEq J] in
theorem serverChangeMyPresence_typed {presence : XmlElement}
    (typed : presence.hasAttr qnType = true) :
    m.serverChangeMyPresence presence =
      ({ m with state := .notInRoom }, .ok, departureEvent presence m.state) := by
  obtain ⟨chatroomJid, nickname, state, members, membersVersion⟩ := m
  cases state <;> simp [serverChangeMyPresence, changePresence, typed, transitions, departureEvent]

/-- A failure to enter is no success, and only a requested exit is reported as one. -/
theorem getEnterFailureFromXml_ne (presence : XmlElement) :
    getEnterFailureFromXml presence ≠ .success := by
  unfold getEnterFailureFromXml
  split <;> simp

theorem getExitFailureFromXml_ne (presence : XmlElement) :
    getExitFailureFromXml presence ≠ .requested := by
  unfold getExitFailureFromXml
  split <;> simp

end ChatroomModule

namespace Stay

open ChatroomModule

variable {jids : JidFunctions J} {s : Stay J} {stanza : XmlElement}

/-! ## What one input does -/

theorem input_own (own : s.Own jids stanza) :
    s.module.input jids (.handleStanza stanza) =
      if stanza.hasAttr qnType then
        ({ s.module with state := .notInRoom }, departureEvent stanza s.module.state)
      else ({ s.module with state := .inRoom }, arrivalEvent s.module.state) := by
  obtain ⟨presence, room, mine⟩ := own
  simp only [ChatroomModule.input, handleStanza]
  rw [if_neg (not_not_intro room.symm), if_pos presence, if_pos mine]
  split
  · next typed => rw [serverChangeMyPresence_typed typed]
  · next available => rw [serverChangeMyPresence_available (Bool.eq_false_iff.mpr available)]

theorem input_others (others : s.Others jids stanza) :
    s.module.input jids (.handleStanza stanza) =
      ((s.module.serverChangedOtherPresence jids stanza).1,
        (s.module.serverChangedOtherPresence jids stanza).2.2) := by
  obtain ⟨raw, room, other⟩ := others
  have presence : stanza.name = qnPresence := by
    simp only [isRawPresence, decide_eq_true_eq] at raw
    exact raw.1
  simp only [ChatroomModule.input, handleStanza]
  rw [if_neg (not_not_intro room.symm), if_pos presence, if_neg other]

/-- Other stanzas change nothing, and at most a message is told. -/
theorem input_neither (own : ¬ s.Own jids stanza) (others : ¬ s.Others jids stanza) :
    s.module.input jids (.handleStanza stanza) = (s.module, none) ∨
    s.module.input jids (.handleStanza stanza) = (s.module, some (.messageReceived stanza)) := by
  simp only [ChatroomModule.input, handleStanza]
  by_cases room : s.module.chatroomJid = jids.bareJid (jids.parse (stanza.attr qnFrom))
  · rw [if_neg (not_not_intro room)]
    by_cases presence : stanza.name = qnPresence
    · have other : jids.parse (stanza.attr qnFrom) ≠ s.module.memberJid jids :=
        fun mine => own ⟨presence, room.symm, mine⟩
      have refused : isRawPresence stanza = false :=
        Bool.eq_false_iff.mpr fun raw => others ⟨raw, room.symm, other⟩
      simp [presence, other, serverChangedOtherPresence, refused]
    · rw [if_neg presence]
      split
      · exact .inr rfl
      · exact .inl rfl
  · rw [if_pos room]
    exact .inl rfl

/-- Whoever sends a presence is a member afterwards exactly if it is available. -/
theorem serverChangedOtherPresence_spec (m : ChatroomModule J) (raw : isRawPresence stanza) :
    let jid := jids.parse (stanza.attr qnFrom)
    let after := (m.serverChangedOtherPresence jids stanza).1
    after.state = m.state ∧ after.chatroomJid = m.chatroomJid ∧ after.nickname = m.nickname ∧
    after.members = Function.update m.members jid (occupant stanza) ∧
    ∀ event ∈ (m.serverChangedOtherPresence jids stanza).2.2,
      (∃ member, event = .memberEntered member) ∨ ∃ member, event = .memberExited member := by
  have kind : presenceAvailable stanza = .available ∨ presenceAvailable stanza = .unavailable := by
    simp only [isRawPresence, decide_eq_true_eq] at raw
    rcases raw.2 with type | type <;> simp [presenceAvailable, type]
  unfold serverChangedOtherPresence occupant
  rw [if_neg (by simp [raw])]
  dsimp only
  cases before : m.members (jids.parse (stanza.attr qnFrom)) with
  | none =>
    rcases kind with available | unavailable
    · simp [available, setMember, whileInRoom]
    · have same : Function.update m.members (jids.parse (stanza.attr qnFrom)) none = m.members := by
        rw [← before, Function.update_eq_self]
      simp [unavailable, same]
  | some member =>
    rcases kind with available | unavailable
    · simp [available, setMember]
    · simp [unavailable, setMember, whileInRoom]

theorem input_requestEnter (jids : JidFunctions J) (s : Stay J) (password : String)
    (engine : StanzaSender) :
    (s.Accepts jids (.requestEnterChatroom password engine) ∧ s.module.state = .notInRoom ∧
      s.module.input jids (.requestEnterChatroom password engine) =
        ({ s.module with state := .requestedEnter }, none)) ∨
    (¬ s.Accepts jids (.requestEnterChatroom password engine) ∧
      s.module.input jids (.requestEnterChatroom password engine) = (s.module, none)) := by
  simp only [Accepts, ChatroomModule.input]
  cases engine with
  | none => simp [requestEnterChatroom]
  | some sendStanza =>
    simp only [requestEnterChatroom]
    by_cases away : s.module.state = .notInRoom
    · rw [if_neg (not_not_intro away)]
      split
      · simp
      · split
        · exact .inl (by simp [changePresence_requestedEnter away, away])
        · next status failed => exact .inr (by simpa using failed)
    · simp [away]

theorem input_requestExit (jids : JidFunctions J) (s : Stay J) (engine : StanzaSender) :
    (s.Accepts jids (.requestExitChatroom engine) ∧ s.module.state = .inRoom ∧
      s.module.input jids (.requestExitChatroom engine) =
        ({ s.module with state := .requestedExit }, none)) ∨
    (¬ s.Accepts jids (.requestExitChatroom engine) ∧
      s.module.input jids (.requestExitChatroom engine) = (s.module, none)) := by
  simp only [Accepts, ChatroomModule.input]
  cases engine with
  | none => simp [requestExitChatroom]
  | some sendStanza =>
    simp only [requestExitChatroom]
    by_cases inRoom : s.module.state = .inRoom
    · rw [if_neg (not_not_intro inRoom)]
      split
      · exact .inl (by simp [changePresence_requestedExit inRoom, inRoom])
      · next status failed => exact .inr (by simpa using failed)
    · simp [inRoom]

/-! ## The invariant -/

/-- The progress that a state stands for. -/
def progressOf : XmppChatroomState → Progress
  | .notInRoom => .away
  | .requestedEnter => .asked
  | .inRoom | .requestedExit => .present

def insideOf : XmppChatroomState → Bool
  | .notInRoom | .requestedEnter => false
  | .inRoom | .requestedExit => true

/-- The state is that of the stay, and of those who sent a presence since the enter request
the members are the occupants; nobody else is a member while the user is in the room. -/
structure Kept (jids : JidFunctions J) (s : Stay J) : Prop where
  progress : s.progress = progressOf s.module.state
  inside : s.inside = insideOf s.module.state
  known : ∀ jid, (s.latest jid).isSome → s.module.members jid = s.occupants jid
  fresh : insideOf s.module.state → ∀ jid, (s.module.members jid).isSome → (s.latest jid).isSome
  others : s.module.state ≠ .notInRoom → ∀ jid, (s.latest jid).isSome →
    jids.bareJid jid = s.module.chatroomJid ∧ jid ≠ s.module.memberJid jids

omit [DecidableEq J] in
theorem Kept.new : (Stay.new jids).Kept jids where
  progress := rfl
  inside := rfl
  known := by simp [Stay.new]
  fresh := by simp [Stay.new, ChatroomModule.new]
  others := by simp [Stay.new]

omit [DecidableEq J] in
/-- Nothing is said about a room that the user is not in. -/
theorem Kept.settings {t : Stay J} (kept : s.Kept jids) (away : s.module.state = .notInRoom)
    (state : t.module.state = s.module.state) (members : t.module.members = s.module.members)
    (progress : t.progress = s.progress) (inside : t.inside = s.inside)
    (latest : t.latest = s.latest) : t.Kept jids where
  progress := by rw [progress, state, kept.progress]
  inside := by rw [inside, state, kept.inside]
  known := by
    unfold occupants
    rw [latest, members]
    exact kept.known
  fresh := by
    rw [state, away]
    intro inside
    cases inside
  others := fun present => absurd (state.trans away) present

theorem step_unheeded {input : ChatroomInput J} (kept : s.Kept jids)
    (module : (s.step jids input).module = s.module)
    (progress : (s.step jids input).progress = s.progress)
    (inside : (s.step jids input).inside = s.inside)
    (latest : (s.step jids input).latest = s.latest) : (s.step jids input).Kept jids where
  progress := by rw [progress, module, kept.progress]
  inside := by rw [inside, module, kept.inside]
  known := by
    unfold occupants
    rw [latest, module]
    exact kept.known
  fresh := by
    rw [latest, module]
    exact kept.fresh
  others := by
    rw [latest, module]
    exact kept.others

theorem kept_setChatroomJid (kept : s.Kept jids) (chatroomJid : J) :
    (s.step jids (.setChatroomJid chatroomJid)).Kept jids := by
  by_cases away : s.module.state = .notInRoom
  · refine kept.settings away ?_ ?_ rfl rfl rfl
    all_goals
      simp only [step, ChatroomModule.input, setChatroomJid]
      rw [if_neg (not_not_intro away)]
      split <;> rfl
  · refine step_unheeded kept ?_ rfl rfl rfl
    simp only [step, ChatroomModule.input, setChatroomJid]
    rw [if_pos away]

theorem kept_setNickname (kept : s.Kept jids) (nickname : String) :
    (s.step jids (.setNickname nickname)).Kept jids := by
  by_cases away : s.module.state = .notInRoom
  · refine kept.settings away ?_ ?_ rfl rfl rfl
    all_goals
      simp only [step, ChatroomModule.input, setNickname]
      rw [if_neg (not_not_intro away)]
  · refine step_unheeded kept ?_ rfl rfl rfl
    simp only [step, ChatroomModule.input, setNickname]
    rw [if_pos away]

theorem kept_requestEnter (kept : s.Kept jids) (password : String) (engine : StanzaSender) :
    (s.step jids (.requestEnterChatroom password engine)).Kept jids := by
  rcases input_requestEnter jids s password engine with
    ⟨accepts, away, input⟩ | ⟨refused, input⟩
  · have latest : (s.step jids (.requestEnterChatroom password engine)).latest = fun _ => none := by
      simp [step, latestAfter, accepts]
    have progress : (s.step jids (.requestEnterChatroom password engine)).progress = .asked := by
      simp [step, progressAfter, accepts]
    have inside := kept.inside
    rw [away] at inside
    constructor
    · rw [progress, step, input]
      rfl
    · simp only [step, input]
      exact inside
    · simp [latest]
    · simp [step, input, insideOf]
    · simp [latest]
  · exact step_unheeded kept (by simp [step, input]) (by simp [step, progressAfter, refused])
      (by simp [step, input, insideAfter]) (by simp [step, latestAfter, refused])

theorem kept_requestExit (kept : s.Kept jids) (engine : StanzaSender) :
    (s.step jids (.requestExitChatroom engine)).Kept jids := by
  rcases input_requestExit jids s engine with ⟨-, inRoom, input⟩ | ⟨-, input⟩
  · obtain ⟨progress, inside, known, fresh, others⟩ := kept
    rw [inRoom] at progress inside fresh others
    constructor
    · simp only [step, input]
      exact progress
    · simp only [step, input]
      exact inside
    · simp only [step, input]
      exact known
    · simp only [step, input]
      exact fun _ => fresh rfl
    · simp only [step, input]
      exact fun _ => others (by simp)
  · exact step_unheeded kept (by simp [step, input]) rfl (by simp [step, input, insideAfter]) rfl

theorem kept_own (kept : s.Kept jids) (own : s.Own jids stanza)
    (inOrder : s.InOrder jids (.handleStanza stanza)) :
    (s.step jids (.handleStanza stanza)).Kept jids := by
  have latest : (s.step jids (.handleStanza stanza)).latest = s.latest := by
    have notOthers : ¬ s.Others jids stanza := fun others => others.2.2 own.2.2
    simp [step, latestAfter, notOthers]
  have input := input_own own
  have ordered := inOrder own
  cases typed : stanza.hasAttr qnType with
  | true =>
    rw [typed, if_pos rfl] at input
    have progress : (s.step jids (.handleStanza stanza)).progress = .away := by
      simp [step, progressAfter, own, typed]
    constructor
    · rw [progress, step, input]
      rfl
    · have inside := kept.inside
      simp only [step, input]
      cases state : s.module.state <;> rw [state] at inside <;>
        simp [insideAfter, departureEvent, insideOf, inside, getEnterFailureFromXml_ne]
    · unfold occupants
      rw [latest, step, input]
      exact kept.known
    · simp [step, input, insideOf]
    · simp [step, input]
  | false =>
    rw [typed, if_neg Bool.false_ne_true] at input ordered
    obtain ⟨entered, fresh⟩ := ordered
    have asked : s.progress ≠ .away := by
      rw [kept.progress]
      cases state : s.module.state <;> simp [progressOf, state] at entered ⊢
    have progress : (s.step jids (.handleStanza stanza)).progress = .present := by
      simp [step, progressAfter, own, typed, asked]
    constructor
    · rw [progress, step, input]
      rfl
    · have inside := kept.inside
      simp only [step, input]
      cases state : s.module.state <;> rw [state] at inside <;>
        simp [insideAfter, arrivalEvent, insideOf, inside]
    · unfold occupants
      rw [latest, step, input]
      exact kept.known
    · rw [latest, step, input]
      intro _
      cases state : s.module.state with
      | notInRoom => exact absurd state entered
      | requestedEnter => exact fresh state
      | inRoom => exact kept.fresh (by rw [state]; rfl)
      | requestedExit => exact kept.fresh (by rw [state]; rfl)
    · rw [latest, step, input]
      exact fun _ => kept.others entered

theorem kept_others (kept : s.Kept jids) (others : s.Others jids stanza) :
    (s.step jids (.handleStanza stanza)).Kept jids := by
  have notOwn : ¬ s.Own jids stanza := fun own => others.2.2 own.2.2
  have latest : (s.step jids (.handleStanza stanza)).latest =
      Function.update s.latest (jids.parse (stanza.attr qnFrom)) (some stanza) := by
    simp [step, latestAfter, others]
  have progress : (s.step jids (.handleStanza stanza)).progress = s.progress := by
    simp [step, progressAfter, notOwn]
  obtain ⟨state, chatroomJid, nickname, members, event⟩ :=
    serverChangedOtherPresence_spec s.module others.1
  have module : (s.step jids (.handleStanza stanza)).module =
      (s.module.serverChangedOtherPresence jids stanza).1 := by
    simp only [step, input_others others]
  have inside : (s.step jids (.handleStanza stanza)).inside = s.inside := by
    simp only [step, input_others others]
    cases told : (s.module.serverChangedOtherPresence jids stanza).2.2 with
    | none => rfl
    | some one =>
      rcases event one told with ⟨member, rfl⟩ | ⟨member, rfl⟩ <;> rfl
  constructor
  · rw [progress, module, state, kept.progress]
  · rw [inside, module, state, kept.inside]
  · intro jid
    unfold occupants
    rw [latest, module, members]
    by_cases same : jid = jids.parse (stanza.attr qnFrom)
    · subst same
      simp
    · rw [Function.update_of_ne same, Function.update_of_ne same]
      exact kept.known jid
  · intro inside jid
    rw [latest, module, members]
    rw [module, state] at inside
    by_cases same : jid = jids.parse (stanza.attr qnFrom)
    · subst same
      simp
    · rw [Function.update_of_ne same, Function.update_of_ne same]
      exact kept.fresh inside jid
  · intro present jid
    rw [module, state] at present
    rw [latest, module, chatroomJid, memberJid, chatroomJid, nickname]
    by_cases same : jid = jids.parse (stanza.attr qnFrom)
    · intro _
      rw [same]
      exact others.2
    · rw [Function.update_of_ne same]
      exact kept.others present jid

theorem kept_neither (kept : s.Kept jids) (own : ¬ s.Own jids stanza)
    (others : ¬ s.Others jids stanza) : (s.step jids (.handleStanza stanza)).Kept jids := by
  have progress : (s.step jids (.handleStanza stanza)).progress = s.progress := by
    simp [step, progressAfter, own]
  have latest : (s.step jids (.handleStanza stanza)).latest = s.latest := by
    simp [step, latestAfter, others]
  rcases input_neither own others with input | input
  · exact step_unheeded kept (by simp [step, input]) progress (by simp [step, input, insideAfter])
      latest
  · exact step_unheeded kept (by simp [step, input]) progress (by simp [step, input, insideAfter])
      latest

theorem kept_step (kept : s.Kept jids) (input : ChatroomInput J) (inOrder : s.InOrder jids input) :
    (s.step jids input).Kept jids := by
  cases input with
  | setChatroomJid chatroomJid => exact kept_setChatroomJid kept chatroomJid
  | setNickname nickname => exact kept_setNickname kept nickname
  | requestEnterChatroom password engine => exact kept_requestEnter kept password engine
  | requestExitChatroom engine => exact kept_requestExit kept engine
  | handleStanza stanza =>
    by_cases own : s.Own jids stanza
    · exact kept_own kept own inOrder
    · by_cases others : s.Others jids stanza
      · exact kept_others kept others
      · exact kept_neither kept own others

/-! ## What the handler is told -/

/-- Enters and exits are told by own presence only. -/
theorem told_own {input : ChatroomInput J} {event : ChatroomEvent}
    (told : (s.module.input jids input).2 = some event)
    (status : event = .chatroomEnteredStatus .success ∨ ∃ status, event = .chatroomExitedStatus status) :
    ∃ stanza, input = .handleStanza stanza ∧ s.Own jids stanza := by
  have silent : ∀ module : ChatroomModule J, s.module.input jids input ≠ (module, none) :=
    fun module same => by
      rw [same] at told
      cases told
  cases input with
  | setChatroomJid chatroomJid => cases told
  | setNickname nickname => cases told
  | requestEnterChatroom password engine =>
    rcases input_requestEnter jids s password engine with ⟨-, -, input⟩ | ⟨-, input⟩ <;>
      exact absurd input (silent _)
  | requestExitChatroom engine =>
    rcases input_requestExit jids s engine with ⟨-, -, input⟩ | ⟨-, input⟩ <;>
      exact absurd input (silent _)
  | handleStanza stanza =>
    refine ⟨stanza, rfl, ?_⟩
    by_contra own
    by_cases others : s.Others jids stanza
    · rw [input_others others] at told
      rcases (serverChangedOtherPresence_spec s.module others.1).2.2.2.2 event told with
        ⟨member, rfl⟩ | ⟨member, rfl⟩ <;> simp at status
    · rcases input_neither own others with input | input
      · exact silent _ input
      · rw [input] at told
        cases told
        simp at status

theorem enters_outside (kept : s.Kept jids) {input : ChatroomInput J}
    (told : (s.module.input jids input).2 = some (.chatroomEnteredStatus .success)) :
    s.inside = false := by
  obtain ⟨stanza, rfl, own⟩ := told_own told (.inl rfl)
  rw [input_own own] at told
  rw [kept.inside]
  split at told <;> cases state : s.module.state <;>
    simp [state, departureEvent, arrivalEvent, insideOf] at told ⊢

theorem exits_inside (kept : s.Kept jids) {input : ChatroomInput J}
    {status : XmppChatroomExitedStatus}
    (told : (s.module.input jids input).2 = some (.chatroomExitedStatus status)) :
    s.inside = true := by
  obtain ⟨stanza, rfl, own⟩ := told_own told (.inr ⟨status, rfl⟩)
  rw [input_own own] at told
  rw [kept.inside]
  split at told <;> cases state : s.module.state <;>
    simp [state, departureEvent, arrivalEvent, insideOf] at told ⊢

/-- An exit is told as requested unless the presence came in the room. -/
theorem exits_requested {input : ChatroomInput J} (inOrder : s.InOrder jids input)
    {status : XmppChatroomExitedStatus}
    (told : (s.module.input jids input).2 = some (.chatroomExitedStatus status))
    (asked : s.exitRequested = true) : status = .requested := by
  obtain ⟨stanza, rfl, own⟩ := told_own told (.inr ⟨status, rfl⟩)
  have ordered := inOrder own
  rw [input_own own] at told
  cases typed : stanza.hasAttr qnType with
  | true =>
    rw [typed, if_pos rfl] at told ordered
    cases state : s.module.state with
    | inRoom =>
      rw [ordered state] at asked
      cases asked
    | notInRoom => simp [state, departureEvent] at told
    | requestedEnter => simp [state, departureEvent] at told
    | requestedExit => simpa [state, departureEvent] using told.symm
  | false =>
    rw [typed, if_neg Bool.false_ne_true] at told
    cases state : s.module.state <;> simp [state, arrivalEvent] at told

omit [DecidableEq J] in
theorem Kept.members (kept : s.Kept jids) (inRoom : s.module.state = .inRoom) :
    s.module.members = s.occupants := by
  funext jid
  cases latest : s.latest jid with
  | some presence => exact kept.known jid (by rw [latest]; rfl)
  | none =>
    cases member : s.module.members jid with
    | none => simp [occupants, latest]
    | some one =>
      have sent := kept.fresh (by rw [inRoom]; rfl) jid (by rw [member]; rfl)
      rw [latest] at sent
      cases sent

theorem follows_of_inOrder (kept : s.Kept jids) (input : ChatroomInput J)
    (inOrder : s.InOrder jids input) : s.Follows jids input := by
  have after := kept_step kept input inOrder
  refine ⟨fun inRoom => ?_, enters_outside kept, fun _ => exits_inside kept,
    fun _ => exits_requested inOrder, after.members, fun inRoom jid member => ?_⟩
  · rw [after.progress, inRoom]
    rfl
  · exact after.others (by rw [inRoom]; simp) jid (after.fresh (by rw [inRoom]; rfl) jid member)

theorem inOrder_of_follows (kept : s.Kept jids) (input : ChatroomInput J)
    (follows : s.Follows jids input) : s.InOrder jids input := by
  cases input with
  | setChatroomJid | setNickname | requestEnterChatroom | requestExitChatroom => trivial
  | handleStanza stanza =>
    intro own
    have input := input_own own
    split
    · next typed =>
      intro inRoom
      rw [if_pos typed, inRoom] at input
      have told := congrArg Prod.snd input
      cases asked : s.exitRequested with
      | false => rfl
      | true => exact absurd (follows.requested _ told asked) (getExitFailureFromXml_ne stanza)
    · next available =>
      rw [if_neg available] at input
      have arrived : (s.step jids (.handleStanza stanza)).module.state = .inRoom := by
        simp only [step, input]
      refine ⟨fun away => ?_, fun _ jid member => ?_⟩
      · have present := follows.entered arrived
        have progress := kept.progress
        rw [away] at progress
        simp [step, progressAfter, own, progress, progressOf] at present
      · have notOthers : ¬ s.Others jids stanza := fun others => others.2.2 own.2.2
        have members := congrFun (follows.members arrived) jid
        simp only [step, occupants, latestAfter, if_neg notOthers, input] at members
        cases latest : s.latest jid with
        | some presence => rfl
        | none =>
          rw [members, latest] at member
          cases member

/-- The state, the members and what the handler is told follow the stays exactly if own
presence comes in order. -/
theorem stays_followed (jids : JidFunctions J) (inputs : List (ChatroomInput J)) :
    Along (step jids) (Follows jids) (.new jids) inputs ↔
      Along (step jids) (InOrder jids) (.new jids) inputs :=
  along_congr_of_invariant (P := Kept jids)
    (fun _ input kept follows => kept_step kept input (inOrder_of_follows kept input follows))
    (fun _ input kept => ⟨inOrder_of_follows kept input, follows_of_inOrder kept input⟩)
    Kept.new inputs

/-! ## A member of an earlier stay -/

/-- `Jid`s as a bare part and a resource. -/
private def plainJids : JidFunctions (String × String) where
  parse := fun text =>
    (.ofList (text.toList.takeWhile (· ≠ '/')), .ofList ((text.toList.dropWhile (· ≠ '/')).drop 1))
  str := fun jid => if jid.2 = "" then jid.1 else jid.1 ++ "/" ++ jid.2
  isValid := fun jid => jid.1 ≠ ""
  bareJid := fun jid => (jid.1, "")
  member := fun jid resource => (jid.1, resource)

private def presenceFrom (jid : String) (attrs : List XmlAttr) : ChatroomInput (String × String) :=
  .handleStanza (.mk qnPresence (⟨qnFrom, jid⟩ :: attrs) false [])

private def leave : List XmlAttr := [⟨qnType, "unavailable"⟩]

/-- A stay in which somebody else is there, and the request to enter again. -/
private def firstStay : List (ChatroomInput (String × String)) :=
  [.setChatroomJid ("cave@rooms", ""), .setNickname "me",
   .requestEnterChatroom "" (some fun _ => .ok), presenceFrom "cave@rooms/ann" [],
   presenceFrom "cave@rooms/me" [], .requestExitChatroom (some fun _ => .ok),
   presenceFrom "cave@rooms/me" leave, .requestEnterChatroom "" (some fun _ => .ok)]

/-- On the second stay the first one's other occupant is still a member. -/
theorem member_left_over :
    ¬ ∀ inputs, Along (step plainJids) (Follows plainJids) (.new plainJids) inputs := by
  intro claim
  have follows := (claim (firstStay ++ [presenceFrom "cave@rooms/me" []])).last
  have inRoom : ((runInputs (step plainJids) (.new plainJids) firstStay).step plainJids
      (presenceFrom "cave@rooms/me" [])).module.state = .inRoom := by
    decide +kernel
  have members := congrFun (follows.members inRoom) ("cave@rooms", "ann")
  have member : (((runInputs (step plainJids) (.new plainJids) firstStay).step plainJids
      (presenceFrom "cave@rooms/me" [])).module.members ("cave@rooms", "ann")).isSome = true := by
    decide +kernel
  have silent : (((runInputs (step plainJids) (.new plainJids) firstStay).step plainJids
      (presenceFrom "cave@rooms/me" [])).occupants ("cave@rooms", "ann")).isSome = false := by
    decide +kernel
  rw [members, silent] at member
  cases member

end Stay

end Libjingle.Xmpp

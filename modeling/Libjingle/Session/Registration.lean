import Libjingle.Session.Manager
import Libjingle.Session.Transitions
import Libjingle.Std.Trace

/-!
# Sessions stay registered

`session_map_` leads to every session as long as no initiate creates a session
under an id that is in use. The id is chosen by the sender of the initiate, and
`FindSession` compares the sender too, so an initiate from another party that
reuses the id of a session finds none, and the new session takes its entry.
-/

namespace Libjingle.SessionManager

open Libjingle.Session Libjingle.Std

variable {m : SessionManager} {session : Nat} {s : Session}

/-- `session_map_` leads to every session and to nothing else. -/
def Indexed (m : SessionManager) : Prop :=
  m.sessions.Indexed (·.sid)

/-! ## One operation after the other -/

theorem Indexed.destroySession (indexed : m.Indexed) (session : Nat) :
    (m.destroySession session).Indexed := by
  rw [SessionManager.destroySession]
  split
  · exact indexed
  · split
    · exact indexed
    · exact Registry.Indexed.remove indexed

/-- Exactly the entry of the session goes. -/
theorem sessions_destroySession (indexed : m.Indexed)
    (found : m.sessions.objects session = some s) :
    (m.destroySession session).sessions = m.sessions.remove (·.sid) session := by
  have registered := indexed.reachable session s found
  simp only [SessionManager.destroySession, found, registered]

theorem Indexed.modify (indexed : m.Indexed) (session : Nat) (stimulus : Stimulus) :
    ({ m with sessions := m.sessions.modify session (·.step stimulus) } : SessionManager).Indexed :=
  Registry.Indexed.modify indexed fun s _ => sid_step s stimulus

theorem Indexed.stepSession (indexed : m.Indexed) (session : Nat) (stimulus : Stimulus) :
    (m.stepSession session stimulus).Indexed := by
  rw [SessionManager.stepSession]
  split
  · exact indexed
  · dsimp only
    split
    · exact (indexed.modify session stimulus).destroySession session
    · exact indexed.modify session stimulus

theorem Indexed.addSession (indexed : m.Indexed) (localName initiatorName : String) {sid : String}
    (free : m.getSession sid = none) : (m.addSession localName initiatorName sid).Indexed :=
  Registry.Indexed.add indexed free

/-! ## Other sessions -/

/-- A session is as it was, and registered. -/
def Untouched (m : SessionManager) (session : Nat) (s : Session) : Prop :=
  m.sessions.objects session = some s ∧ m.getSession s.sid = some session

theorem Indexed.untouched (indexed : m.Indexed) (found : m.sessions.objects session = some s) :
    m.Untouched session s :=
  ⟨found, indexed.reachable session s found⟩

theorem objects_destroySession {other : Nat} (different : session ≠ other) :
    (m.destroySession other).sessions.objects session = m.sessions.objects session := by
  rw [destroySession]
  split
  · rfl
  next found =>
  split
  · rfl
  · exact (Registry.objects_remove found session).trans (if_neg different)

theorem objects_stepSession {other : Nat} (different : session ≠ other) (stimulus : Stimulus) :
    (m.stepSession other stimulus).sessions.objects session = m.sessions.objects session := by
  have modified : (m.sessions.modify other (·.step stimulus)).objects session =
      m.sessions.objects session :=
    (Registry.objects_modify _ _ _).trans (if_neg different)
  rw [stepSession]
  split
  · rfl
  · dsimp only
    split
    · exact (objects_destroySession different).trans modified
    · exact modified

theorem Indexed.untouched_stepSession (indexed : m.Indexed)
    (found : m.sessions.objects session = some s) {other : Nat} (different : session ≠ other)
    (stimulus : Stimulus) : (m.stepSession other stimulus).Untouched session s :=
  (indexed.stepSession other stimulus).untouched ((objects_stepSession different stimulus).trans found)

/-- A stanza finds a session of the party it comes from. -/
theorem findSession_some {sid remoteName : String}
    (found : m.findSession sid remoteName = some session) :
    ∃ s, m.sessions.objects session = some s ∧ m.jidsEqual remoteName s.remoteName = true := by
  rw [findSession] at found
  split at found
  · cases found
  · split at found
    · cases found
    · next s there =>
      split at found
      · next equal =>
        cases found
        exact ⟨s, there, equal⟩
      · cases found

theorem findSession_foreign {sid party : String} (found : m.sessions.objects session = some s)
    (foreign : m.jidsEqual party s.remoteName = false) {other : Nat}
    (finds : m.findSession sid party = some other) : session ≠ other := by
  rintro rfl
  obtain ⟨s', there, equal⟩ := findSession_some finds
  rw [found] at there
  cases there
  exact absurd (foreign.symm.trans equal) (by decide)

/-! ## Inputs -/

/-- The party that a stanza comes from; a response and a failed send come from
where the stanza went. -/
def Input.party : Input → Option String
  | .message (.ok msg) _ _ => some msg.sender
  | .response (some orig) _ | .failedSend (some orig) _ _ => some orig.recipient
  | _ => none

/-- The random ids of local sessions are fresh. -/
def Permits (m : SessionManager) (input : Input) : Prop :=
  ∀ localName sid, input = .createSession localName sid → m.getSession sid = none

/-- An initiate that creates a session carries an id that no session is registered under. -/
def Unused (m : SessionManager) (input : Input) : Prop :=
  ∀ msg type listeners, input = .message (.ok msg) (.ok type) listeners →
    m.findSession msg.sid msg.sender = none → msg.type = .sessionInitiate →
    type ∈ m.contentTypes → m.getSession msg.sid = none

/-- What one input leaves in order. -/
structure InOrder (m : SessionManager) (input : Input) : Prop where
  /-- Every session is registered under its own id. -/
  reachable : ∀ session s, (m.step input).sessions.objects session = some s →
    (m.step input).getSession s.sid = some session
  /-- Destroying a session removes exactly its entry. -/
  destroyed : ∀ session s, input = .destroySession session →
    m.sessions.objects session = some s → m.getSession s.sid = some session ∧
      ∀ sid, (m.step input).getSession sid = if sid = s.sid then none else m.getSession sid
  /-- A stanza from another party does nothing to a session. -/
  foreign : ∀ party session s, input.party = some party → m.sessions.objects session = some s →
    m.jidsEqual party s.remoteName = false → (m.step input).Untouched session s

theorem Indexed.onIncomingMessage (indexed : m.Indexed) {msg : SessionMessage}
    {contentType : Except String String} {listeners : Listeners}
    (unused : m.Unused (.message (.ok msg) contentType listeners)) :
    (m.onIncomingMessage msg contentType listeners).Indexed := by
  unfold SessionManager.onIncomingMessage
  split
  · exact indexed.stepSession _ _
  next none =>
  split
  · exact indexed
  next initiate =>
  split
  · exact indexed
  split
  · exact indexed
  next known =>
  have free := unused _ _ _ rfl none (not_not.mp initiate) (not_not.mp known)
  exact (indexed.addSession _ _ free).stepSession _ _

theorem Indexed.step (indexed : m.Indexed) {input : Input} (permitted : m.Permits input)
    (unused : m.Unused input) : (m.step input).Indexed := by
  cases input with
  | message msg contentType listeners =>
    cases msg with
    | error text => exact indexed
    | ok msg => exact indexed.onIncomingMessage unused
  | response orig listeners =>
    cases orig with
    | none => exact indexed
    | some orig =>
      simp only [SessionManager.step, onIncomingResponse]
      split
      · exact indexed.stepSession _ _
      · exact indexed
  | failedSend orig error listeners =>
    cases orig with
    | none => exact indexed
    | some orig =>
      simp only [SessionManager.step, onFailedSend]
      split
      · exact indexed.stepSession _ _
      · exact indexed
  | createSession localName sid => exact indexed.addSession _ _ (permitted _ _ rfl)
  | destroySession session => exact indexed.destroySession session
  | session session stimulus => exact indexed.stepSession session stimulus

theorem Indexed.foreign_message (indexed : m.Indexed) {msg : SessionMessage}
    {contentType : Except String String} {listeners : Listeners}
    (unused : m.Unused (.message (.ok msg) contentType listeners))
    (found : m.sessions.objects session = some s)
    (foreign : m.jidsEqual msg.sender s.remoteName = false) :
    (m.onIncomingMessage msg contentType listeners).Untouched session s := by
  have untouched := indexed.untouched found
  unfold SessionManager.onIncomingMessage
  split
  · next finds =>
    exact indexed.untouched_stepSession found (findSession_foreign found foreign finds) _
  next none =>
  split
  · exact untouched
  next initiate =>
  split
  · exact untouched
  split
  · exact untouched
  next known =>
  have free := unused _ _ _ rfl none (not_not.mp initiate) (not_not.mp known)
  have different : session ≠ m.sessions.next := by
    rintro rfl
    exact absurd (found.symm.trans (indexed.fresh _ (Nat.le_refl _))) (by simp)
  have kept : (m.addSession msg.recipient msg.initiator msg.sid).sessions.objects session = some s :=
    (Registry.objects_add _).trans ((if_neg different).trans found)
  exact (indexed.addSession _ _ free).untouched_stepSession kept different _

theorem Indexed.foreign (indexed : m.Indexed) {input : Input} (unused : m.Unused input)
    {party : String} (comes : input.party = some party)
    (found : m.sessions.objects session = some s)
    (foreign : m.jidsEqual party s.remoteName = false) : (m.step input).Untouched session s := by
  have untouched := indexed.untouched found
  cases input with
  | message msg contentType listeners =>
    cases msg with
    | error text => cases comes
    | ok msg =>
      cases comes
      exact indexed.foreign_message unused found foreign
  | response orig listeners =>
    cases orig with
    | none => cases comes
    | some orig =>
      cases comes
      simp only [SessionManager.step, onIncomingResponse]
      split
      · next finds =>
        exact indexed.untouched_stepSession found (findSession_foreign found foreign finds) _
      · exact untouched
  | failedSend orig error listeners =>
    cases orig with
    | none => cases comes
    | some orig =>
      cases comes
      simp only [SessionManager.step, onFailedSend]
      split
      · next finds =>
        exact indexed.untouched_stepSession found (findSession_foreign found foreign finds) _
      · exact untouched
  | createSession | destroySession | session => cases comes

/-- A message changes a session and destroys none. -/
theorem sessions_stepSession_message (session : Nat) (msg : SessionMessage)
    (listeners : Listeners) : (m.stepSession session ⟨.message msg, listeners⟩).sessions =
      m.sessions.modify session (·.step ⟨.message msg, listeners⟩) := by
  rw [stepSession]
  split
  · next none => exact (Registry.modify_none none _).symm
  · next s _ =>
    have call := step_call s ⟨.message msg, listeners⟩ nofun
    rw [call.count_destroyed]
    simp

/-- An initiate under an id that is in use hides the session that uses it. -/
theorem Indexed.unused_of_reachable (indexed : m.Indexed) {input : Input}
    (reachable : (m.step input).sessions.Reachable (·.sid)) : m.Unused input := by
  rintro msg type listeners rfl none initiate known
  cases used : m.getSession msg.sid with
  | none => rfl
  | some other =>
    have hidden : ¬ (m.addSession msg.recipient msg.initiator msg.sid).sessions.Reachable (·.sid) :=
      Registry.Indexed.not_reachable_add indexed used
    refine absurd ?_ hidden
    have stepped : m.step (.message (.ok msg) (.ok type) listeners) =
        (m.addSession msg.recipient msg.initiator msg.sid).stepSession m.sessions.next
          ⟨.message msg, listeners⟩ := by
      rw [SessionManager.step]
      unfold SessionManager.onIncomingMessage
      simp [none, initiate, known]
    rw [stepped, sessions_stepSession_message] at reachable
    exact reachable.of_modify fun s _ => sid_step s _

theorem Indexed.inOrder_iff (indexed : m.Indexed) {input : Input} (permitted : m.Permits input) :
    m.InOrder input ↔ m.Unused input := by
  constructor
  · exact fun inOrder => indexed.unused_of_reachable inOrder.reachable
  · intro unused
    refine ⟨(indexed.step permitted unused).reachable, ?_, ?_⟩
    · rintro session s rfl found
      refine ⟨indexed.reachable session s found, fun sid => ?_⟩
      simp only [getSession, SessionManager.step, sessions_destroySession indexed found]
      exact Registry.index_remove found sid
    · exact fun party session s comes found foreign =>
        indexed.foreign unused comes found foreign

/-- Induction on the run, with the index in order so far. -/
theorem Indexed.run_iff (indexed : m.Indexed) {inputs : List Input}
    (permitted : Along SessionManager.step Permits m inputs) :
    Along SessionManager.step InOrder m inputs ↔ Along SessionManager.step Unused m inputs := by
  induction inputs generalizing m with
  | nil => exact Iff.rfl
  | cons input rest ih =>
    refine and_congr_right_iff.mpr ?_ |>.trans (and_congr_left_iff.mpr fun _ =>
      indexed.inOrder_iff permitted.1)
    intro inOrder
    have unused := (indexed.inOrder_iff permitted.1).mp inOrder
    exact ih (indexed.step permitted.1 unused) permitted.2

/-- A client for calls, without sessions. -/
def switchboard : SessionManager :=
  new .lenient (· == ·) ["phone"] false

/-- An initiate with the session id `1`. -/
def call (sender : String) : Input :=
  let content : ContentMessage := ⟨["audio"], [], []⟩
  .message (.ok
    { protocol := .jingle
      type := .sessionInitiate
      sid := "1"
      sender := sender
      recipient := "juliet@capulet"
      initiator := sender
      initiate := .ok content
      accept := .ok content
      terminate := .ok ""
      transportInfos := fun _ => .ok []
      descriptionInfo := .ok content }) (.ok "phone") {}

end Libjingle.SessionManager

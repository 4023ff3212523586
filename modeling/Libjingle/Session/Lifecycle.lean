import Libjingle.Session.Transitions
import Libjingle.Std.Trace

/-!
# The life of a session

What may follow what in the history of a session: a terminate state is left
only for the other one, `STATE_INPROGRESS` comes after an accept, an offer is
answered once, and a terminate goes out once and never after a reject. A session
that has entered a terminate state has been destroyed or waits for the
`MSG_STATE` that destroys it.
-/

namespace Libjingle.Session

open Libjingle.Std

/-! ## Lawful histories -/

def State.terminal : State → Bool
  | .sentTerminate | .receivedTerminate => true
  | _ => false

/-- The offer has not been answered. -/
def State.unanswered : State → Bool
  | .init | .sentInitiate | .receivedInitiate => true
  | _ => false

/-- No reject has ended the negotiation, and nothing the session. -/
def State.alive : State → Bool
  | .sentReject | .receivedReject | .sentTerminate | .receivedTerminate => false
  | _ => true

/-- An accept or a reject is sent. -/
def Entry.answers : Entry → Bool
  | .sent (.message _ _ (.accept _)) | .sent (.message _ _ (.reject _)) => true
  | _ => false

def Entry.terminates : Entry → Bool
  | .sent (.message _ _ (.terminate _)) => true
  | _ => false

/-- A reject is sent, or received in answer to the initiate. -/
def Entry.rejects : Entry → Bool
  | .sent (.message _ _ (.reject _)) | .changed _ .receivedReject => true
  | _ => false

/-- A terminate state is entered. -/
def Entry.ends : Entry → Bool
  | .changed _ state => state.terminal
  | _ => false

/-- The state after a history, newest entry first. -/
def lastState : List Entry → State
  | [] => .init
  | .changed _ state :: _ => state
  | _ :: before => lastState before

/-- What an entry demands of the entries before it. -/
structure Entry.Lawful (entry : Entry) (before : List Entry) : Prop where
  answersOnce : entry.answers = true → ∀ e ∈ before, e.answers = false
  terminatesOnce : entry.terminates = true → ∀ e ∈ before, e.terminates = false
  notRejected : entry.terminates = true → ∀ e ∈ before, e.rejects = false
  leaves : ∀ old new, entry = .changed old new → old = lastState before
  stays : ∀ old new, entry = .changed old new → old.terminal = true → new.terminal = true
  accepted : ∀ old, entry = .changed old .inProgress → old = .sentAccept ∨ old = .receivedAccept
  destroyed : entry = .destroyed → ∃ e ∈ before, e.ends = true

def Lawful : List Entry → Prop
  | [] => True
  | entry :: before => entry.Lawful before ∧ Lawful before

/-- A quiet entry is none of those that the laws speak of. -/
structure Entry.Calm (entry : Entry) : Prop where
  answers : entry.answers = false
  terminates : entry.terminates = false
  rejects : entry.rejects = false
  changed : ∀ old new, entry ≠ .changed old new
  destroyed : entry ≠ .destroyed

theorem Entry.calm {entry : Entry} (quiet : entry.quiet = true) : entry.Calm := by
  cases entry with
  | sent stanza =>
    cases stanza with
    | message protocol recipient action =>
      cases action with
      | accept | reject | terminate => cases quiet
      | _ => exact ⟨rfl, rfl, rfl, nofun, nofun⟩
    | _ => exact ⟨rfl, rfl, rfl, nofun, nofun⟩
  | reported => exact ⟨rfl, rfl, rfl, nofun, nofun⟩
  | changed => cases quiet
  | destroyed => cases quiet

namespace Entry.Calm

variable {entry : Entry} (calm : entry.Calm) (before : List Entry)

include calm

/-- A quiet entry demands nothing. -/
theorem lawful : entry.Lawful before where
  answersOnce answers := absurd answers (by simp [calm.answers])
  terminatesOnce terminates := absurd terminates (by simp [calm.terminates])
  notRejected terminates := absurd terminates (by simp [calm.terminates])
  leaves old new same := absurd same (calm.changed old new)
  stays old new same := absurd same (calm.changed old new)
  accepted old same := absurd same (calm.changed old _)
  destroyed same := absurd same calm.destroyed

theorem lastState_cons : lastState (entry :: before) = lastState before := by
  cases entry with
  | changed old new => exact absurd rfl (calm.changed old new)
  | _ => rfl

end Entry.Calm

/-- The first terminate state is never left for another state. -/
theorem Lawful.terminal_of_ends {history : List Entry} (lawful : Lawful history)
    (ended : ∃ e ∈ history, e.ends = true) : (lastState history).terminal = true := by
  induction history with
  | nil => simp at ended
  | cons entry before ih =>
    obtain ⟨e, member, ends⟩ := ended
    have earlier : e ∈ before → (lastState before).terminal = true :=
      fun old => ih lawful.2 ⟨e, old, ends⟩
    cases entry with
    | changed old new =>
      rcases List.mem_cons.mp member with rfl | before
      · exact ends
      · exact lawful.1.stays old new rfl (lawful.1.leaves old new rfl ▸ earlier before)
    | _ =>
      rcases List.mem_cons.mp member with rfl | before
      · cases ends
      · exact earlier before

theorem Lawful.ends_of_terminal {history : List Entry} (terminal : (lastState history).terminal = true) :
    ∃ e ∈ history, e.ends = true := by
  induction history with
  | nil => cases terminal
  | cons entry before ih =>
    cases entry with
    | changed old new => exact ⟨_, List.mem_cons_self, terminal⟩
    | _ =>
      obtain ⟨e, member, ends⟩ := ih terminal
      exact ⟨e, List.mem_cons_of_mem _ member, ends⟩

/-! ## The invariant -/

/-- A lawful history together with the state it has led to. -/
structure Sound (history : List Entry) (state : State) : Prop where
  lawful : Lawful history
  current : lastState history = state
  /-- Nothing modifies a session. -/
  unmodified : state ≠ .receivedModify
  unanswered : state.unanswered = true → ∀ e ∈ history, e.answers = false
  unrejected : state.alive = true → ∀ e ∈ history, e.rejects = false
  unterminated : state.terminal = false → ∀ e ∈ history, e.terminates = false

namespace Sound

variable {history : List Entry} {old new : State}

theorem record_quiet (sound : Sound history old) {entry : Entry} (quiet : entry.quiet = true) :
    Sound (entry :: history) old :=
  have calm := Entry.calm quiet
  { lawful := ⟨calm.lawful _, sound.lawful⟩
    current := (calm.lastState_cons _).trans sound.current
    unmodified := sound.unmodified
    unanswered := fun state => List.forall_mem_cons.mpr ⟨calm.answers, sound.unanswered state⟩
    unrejected := fun state => List.forall_mem_cons.mpr ⟨calm.rejects, sound.unrejected state⟩
    unterminated := fun state =>
      List.forall_mem_cons.mpr ⟨calm.terminates, sound.unterminated state⟩ }

theorem append_quiet (sound : Sound history old) {more : List Entry}
    (quiet : ∀ entry ∈ more, entry.quiet = true) : Sound (more ++ history) old := by
  induction more with
  | nil => exact sound
  | cons entry rest ih =>
    obtain ⟨head, tail⟩ := List.forall_mem_cons.mp quiet
    exact (ih tail).record_quiet head

/-- A change of the state for which nothing is sent. -/
theorem changed (sound : Sound history old) (unmodified : new ≠ .receivedModify)
    (stays : old.terminal = true → new.terminal = true)
    (accepted : new = .inProgress → old = .sentAccept ∨ old = .receivedAccept)
    (unanswered : new.unanswered = true → old.unanswered = true)
    (alive : new.alive = true → old.alive = true) :
    Sound (.changed old new :: history) new where
  lawful := by
    refine ⟨⟨nofun, nofun, nofun, ?_, ?_, ?_, nofun⟩, sound.lawful⟩
    · rintro _ _ ⟨⟩
      exact sound.current.symm
    · rintro _ _ ⟨⟩
      exact stays
    · rintro _ ⟨⟩
      exact accepted rfl
  current := rfl
  unmodified := unmodified
  unanswered state := List.forall_mem_cons.mpr ⟨rfl, sound.unanswered (unanswered state)⟩
  unrejected state := by
    refine List.forall_mem_cons.mpr ⟨?_, sound.unrejected (alive state)⟩
    cases new with
    | receivedReject => cases state
    | _ => rfl
  unterminated state := by
    refine List.forall_mem_cons.mpr ⟨rfl, sound.unterminated ?_⟩
    by_contra before
    exact absurd (stays (by simpa using before)) (by simp [state])

/-- A change of the state for which something is sent. -/
theorem sent_changed (sound : Sound history old) {stanza : Stanza}
    (lawful : (Entry.sent stanza).Lawful history) (unmodified : new ≠ .receivedModify)
    (stays : old.terminal = true → new.terminal = true) (progress : new ≠ .inProgress)
    (answered : new.unanswered = false)
    (alive : new.alive = true → old.alive = true ∧ (Entry.sent stanza).rejects = false ∧
      (Entry.sent stanza).terminates = false)
    (rejected : new.alive = false → new.terminal = true ∨ (Entry.sent stanza).terminates = false) :
    Sound (.changed old new :: .sent stanza :: history) new where
  lawful := by
    refine ⟨⟨nofun, nofun, nofun, ?_, ?_, ?_, nofun⟩, lawful, sound.lawful⟩
    · rintro _ _ ⟨⟩
      exact sound.current.symm
    · rintro _ _ ⟨⟩
      exact stays
    · rintro _ ⟨⟩
      exact absurd rfl progress
  current := rfl
  unmodified := unmodified
  unanswered state := absurd state (by simp [answered])
  unrejected state := by
    obtain ⟨before, quiet, -⟩ := alive state
    refine List.forall_mem_cons.mpr ⟨?_, List.forall_mem_cons.mpr ⟨quiet, sound.unrejected before⟩⟩
    cases new with
    | receivedReject => cases state
    | _ => rfl
  unterminated state := by
    have quiet : (Entry.sent stanza).terminates = false := by
      cases life : new.alive with
      | true => exact (alive life).2.2
      | false => exact (rejected life).resolve_left (by simp [state])
    refine List.forall_mem_cons.mpr ⟨rfl, List.forall_mem_cons.mpr ⟨quiet, ?_⟩⟩
    refine sound.unterminated ?_
    by_contra before
    exact absurd (stays (by simpa using before)) (by simp [state])

/-- An accept or a reject answers an offer that has not been answered. -/
theorem answers_lawful (sound : Sound history old) (unanswered : old.unanswered = true)
    {stanza : Stanza} (quiet : (Entry.sent stanza).terminates = false) :
    (Entry.sent stanza).Lawful history where
  answersOnce _ := sound.unanswered unanswered
  terminatesOnce terminates := absurd terminates (by simp [quiet])
  notRejected terminates := absurd terminates (by simp [quiet])
  leaves := nofun
  stays := nofun
  accepted := nofun
  destroyed := nofun

/-- A terminate ends a session that no reject or terminate has ended. -/
theorem terminates_lawful (sound : Sound history old) (alive : old.alive = true)
    (running : old.terminal = false) {stanza : Stanza}
    (quiet : (Entry.sent stanza).answers = false) : (Entry.sent stanza).Lawful history where
  answersOnce answers := absurd answers (by simp [quiet])
  terminatesOnce _ := sound.unterminated running
  notRejected _ := sound.unrejected alive
  leaves := nofun
  stays := nofun
  accepted := nofun
  destroyed := nofun

/-- One row of the table after the other. -/
theorem enter (sound : Sound history old) {actions : List Action}
    (transition : Transition old actions new) (protocol : SignalingProtocol) (recipient : String) :
    Sound (.changed old new ::
      ((actions.map fun action => .sent (.message protocol recipient action)).reverse ++ history))
      new := by
  cases transition with
  | initiate | receiveInitiate | receiveAccept | receiveReject =>
    exact sound.changed (by decide) (by decide) (by decide) (by decide) (by decide)
  | progressSent | progressReceived =>
    exact sound.changed (by decide) (by decide) (by decide) (by decide) (by decide)
  | terminateSentReject | terminateReceivedReject =>
    exact sound.changed (by decide) (by decide) (by decide) (by decide) (by decide)
  | receiveTerminate notReceived =>
    exact sound.changed (by decide) (fun _ => rfl) nofun nofun nofun
  | accept content =>
    exact sound.sent_changed (sound.answers_lawful rfl rfl) (by decide) (by decide) (by decide) rfl
      (fun _ => ⟨rfl, rfl, rfl⟩) nofun
  | reject reason =>
    exact sound.sent_changed (sound.answers_lawful rfl rfl) (by decide) (by decide) (by decide) rfl
      nofun fun _ => .inr rfl
  | rejectModify reason => exact absurd rfl sound.unmodified
  | terminate reason notSentReject notReceivedReject notSent notReceived =>
    have alive : old.alive = true := by
      cases old <;> first | rfl | contradiction
    have running : old.terminal = false := by
      cases old <;> first | rfl | contradiction
    exact sound.sent_changed (sound.terminates_lawful alive running rfl) (by decide)
      (fun _ => rfl) (by decide) rfl nofun fun _ => .inl rfl

end Sound

theorem history_sends (actions : List Action) (s : Session) :
    (actions.foldl Session.send s).history =
      (actions.map fun action => .sent (.message s.currentProtocol s.remoteName action)).reverse ++
        s.history := by
  induction actions generalizing s with
  | nil => rfl
  | cons action rest ih =>
    refine (ih (s.send action)).trans ?_
    simp [Session.send, Session.record]

theorem history_enter (s : Session) (actions : List Action) (state : State) :
    (s.enter actions state).history = .changed s.state state ::
      ((actions.map fun action => .sent (.message s.currentProtocol s.remoteName action)).reverse ++
        s.history) :=
  congrArg _ (history_sends actions s)

/-- The history of the session is sound for its state. -/
def Safe (s : Session) : Prop :=
  Sound s.history s.state

namespace Safe

variable {s s' : Session}

theorem quiet (safe : Safe s) (quiet : Quiet s s') : Safe s' := by
  obtain ⟨more, longer, calm⟩ := quiet.history
  have appended : Sound (more ++ s.history) s.state := Sound.append_quiet safe calm
  rwa [← longer, ← quiet.state] at appended

theorem enter (safe : Safe s) {actions : List Action} {state : State}
    (transition : Transition s.state actions state) : Safe (s.enter actions state) := by
  rw [Safe, history_enter]
  exact Sound.enter safe transition s.currentProtocol s.remoteName

/-- Induction on the call: a transition keeps the invariant, whatever the
listeners do inside it. -/
theorem call (safe : Safe s) (call : Call s s') : Safe s' := by
  induction call with
  | quiet quiet => exact safe.quiet quiet
  | trans _ _ first second => exact second (first safe)
  | change transition _ inner => exact (inner (safe.enter transition)).quiet (.post _ _)

/-- The session ends in a terminate state. -/
theorem destroyed (safe : Safe s) (ended : s.state.terminal = true) :
    Safe (s.record .destroyed) := by
  have sound : Sound s.history s.state := safe
  have entered := Lawful.ends_of_terminal (sound.current.symm ▸ ended)
  exact
    { lawful := ⟨⟨nofun, nofun, nofun, nofun, nofun, nofun, fun _ => entered⟩, sound.lawful⟩
      current := sound.current
      unmodified := sound.unmodified
      unanswered := fun state => List.forall_mem_cons.mpr ⟨rfl, sound.unanswered state⟩
      unrejected := fun state => List.forall_mem_cons.mpr ⟨rfl, sound.unrejected state⟩
      unterminated := fun state => List.forall_mem_cons.mpr ⟨rfl, sound.unterminated state⟩ }

end Safe

/-! ## The end -/

/-- The `MSG_STATE` that destroys the session waits. -/
def Scheduled (s : Session) : Prop :=
  s.state.terminal = true ∧ .state ∈ s.posted

/-- A terminate state is left for the other one only. -/
theorem Transition.terminal {old new : State} {actions : List Action}
    (transition : Transition old actions new) (ended : old.terminal = true) :
    new.terminal = true := by
  cases transition with
  | terminate | receiveTerminate | terminateSentReject | terminateReceivedReject => rfl
  | _ => cases ended

namespace Call

variable {s s' : Session}

theorem terminal (call : Call s s') (ended : s.state.terminal = true) :
    s'.state.terminal = true := by
  induction call with
  | quiet quiet => exact quiet.state ▸ ended
  | trans _ _ first second => exact second (first ended)
  | change transition _ inner => exact inner (transition.terminal ended)

theorem posted (call : Call s s') (pending : .state ∈ s.posted) : .state ∈ s'.posted := by
  induction call with
  | quiet quiet => exact quiet.posted pending
  | trans _ _ first second => exact second (first pending)
  | change => exact List.mem_append_right _ List.mem_cons_self

/-- A change of the state leaves a `MSG_STATE` behind. -/
theorem posted_of_ne (call : Call s s') (changed : s'.state ≠ s.state) : .state ∈ s'.posted := by
  induction call with
  | quiet quiet => exact absurd quiet.state changed
  | @trans s t s' _ later first second =>
    by_cases unchanged : t.state = s.state
    · exact second (unchanged ▸ changed)
    · exact later.posted (first unchanged)
  | change => exact List.mem_append_right _ List.mem_cons_self

end Call

theorem State.terminal_iff (state : State) :
    state.terminal = true ↔ state = .sentTerminate ∨ state = .receivedTerminate := by
  cases state <;> simp [State.terminal]

/-- A step is a call, after a posted message has been taken from the queue, or it
destroys a session in a terminate state. -/
theorem step_cases (s : Session) (stimulus : Stimulus) :
    ((∀ id, stimulus.input ≠ .deliver id) ∧ Call s (s.step stimulus)) ∨
    ∃ id, stimulus.input = .deliver id ∧
      (¬ (id = .state ∧ s.state.terminal = true) ∧
          Call { s with posted := s.posted.erase id } (s.step stimulus) ∨
        (id = .state ∧ s.state.terminal = true) ∧
          s.step stimulus = { s with posted := s.posted.erase id }.record .destroyed) := by
  by_cases delivers : ∃ id, stimulus.input = .deliver id
  · obtain ⟨id, same⟩ := delivers
    have delivered : s.step stimulus =
        { s with posted := s.posted.erase id }.onMessage stimulus.listeners id := by
      simp only [step, same]
    rw [delivered, State.terminal_iff]
    exact .inr ⟨id, same, onMessage_call stimulus.listeners
      { s with posted := s.posted.erase id } id⟩
  · have other (id : MessageId) : stimulus.input ≠ .deliver id :=
      fun same => delivers ⟨id, same⟩
    exact .inl ⟨other, step_call s stimulus other⟩

/-- A session in a terminate state has been destroyed or waits for it. -/
structure Watched (s : Session) : Prop where
  safe : Safe s
  ends : s.state.terminal = true → .destroyed ∈ s.history ∨ .state ∈ s.posted

namespace Watched

variable {s : Session}

theorem step (watched : Watched s) {stimulus : Stimulus} (permitted : s.Permits stimulus) :
    Watched (s.step stimulus) := by
  -- The state changes, or the message that waited before still does.
  have pending {t : Session} (call : Call t (s.step stimulus)) (same : t.state = s.state)
      (kept : s.state.terminal = true → .state ∈ t.posted) : .state ∈ (s.step stimulus).posted ∨
        (s.step stimulus).state.terminal = false := by
    by_cases unchanged : (s.step stimulus).state = t.state
    · cases ended : s.state.terminal with
      | true => exact .inl (call.posted (kept ended))
      | false => exact .inr (by rw [unchanged, same, ended])
    · exact .inl (call.posted_of_ne unchanged)
  have waits (ended : s.state.terminal = true) : .state ∈ s.posted :=
    (watched.ends ended).resolve_left permitted.1
  rcases step_cases s stimulus with ⟨_, call⟩ | ⟨id, _, ⟨other, call⟩ | ⟨⟨rfl, terminal⟩, ended⟩⟩
  · refine ⟨watched.safe.call call, fun terminal => .inr ?_⟩
    exact (pending call rfl waits).resolve_right (by simp [terminal])
  · have taken : Safe { s with posted := s.posted.erase id } := watched.safe
    refine ⟨taken.call call, fun terminal => .inr ?_⟩
    refine (pending call rfl fun ended => ?_).resolve_right (by simp [terminal])
    have different : .state ≠ id := fun same => other ⟨same.symm, ended⟩
    exact (List.mem_erase_of_ne different).mpr (waits ended)
  · have taken : Safe { s with posted := s.posted.erase .state } := watched.safe
    rw [ended]
    exact ⟨taken.destroyed terminal, fun _ => .inl List.mem_cons_self⟩

theorem run (watched : Watched s) {stimuli : List Stimulus}
    (permitted : Along Session.step Permits s stimuli) :
    Watched (runInputs Session.step s stimuli) :=
  permitted.invariant (fun _ _ allowed kept => kept.step allowed) watched

theorem new (client : Client) (localName initiatorName sid : String) (allowLocalIps : Bool) :
    Watched (new client localName initiatorName sid allowLocalIps) where
  safe := ⟨trivial, rfl, nofun, nofun, nofun, nofun⟩
  ends := nofun

end Watched

theorem terminal_step {s : Session} {stimulus : Stimulus} (ended : s.state.terminal = true) :
    (s.step stimulus).state.terminal = true := by
  rcases step_cases s stimulus with ⟨_, call⟩ | ⟨id, _, ⟨_, call⟩ | ⟨_, destroyed⟩⟩
  · exact call.terminal ended
  · exact call.terminal ended
  · rw [destroyed]
    exact ended

/-- Delivered in a terminate state, `MSG_STATE` destroys the session. -/
theorem destroyed_step {s : Session} (ended : s.state.terminal = true) (listeners : Listeners) :
    .destroyed ∈ (s.step ⟨.deliver .state, listeners⟩).history := by
  rcases step_cases s ⟨.deliver .state, listeners⟩ with
    ⟨other, _⟩ | ⟨id, same, ⟨other, _⟩ | ⟨_, destroyed⟩⟩
  · exact absurd rfl (other .state)
  · cases same
    exact absurd ⟨rfl, ended⟩ other
  · rw [destroyed]
    exact List.mem_cons_self

/-- Induction on the run: the session stays in a terminate state until the
message is delivered, and nothing happens to it afterwards. -/
theorem destroyed_of_deliver {s : Session} (ended : s.state.terminal = true)
    {listeners : Listeners} {stimuli : List Stimulus}
    (permitted : Along Session.step Permits s stimuli)
    (delivered : ⟨.deliver .state, listeners⟩ ∈ stimuli) :
    .destroyed ∈ (runInputs Session.step s stimuli).history := by
  induction stimuli generalizing s with
  | nil => cases delivered
  | cons stimulus rest ih =>
    rcases List.mem_cons.mp delivered with rfl | later
    · have destroyed := destroyed_step ended listeners
      cases rest with
      | nil => exact destroyed
      | cons next rest => exact absurd destroyed permitted.2.1.1
    · exact ih (terminal_step ended) permitted.2 later

theorem Lawful.ends_of_destroyed {history : List Entry} (lawful : Lawful history)
    (destroyed : .destroyed ∈ history) : ∃ e ∈ history, e.ends = true := by
  induction history with
  | nil => cases destroyed
  | cons entry before ih =>
    have earlier : (∃ e ∈ before, e.ends = true) → ∃ e ∈ entry :: before, e.ends = true :=
      fun ⟨e, member, ends⟩ => ⟨e, List.mem_cons_of_mem _ member, ends⟩
    rcases List.mem_cons.mp destroyed with rfl | old
    · exact earlier (lawful.1.destroyed rfl)
    · exact earlier (ih lawful.2 old)

/-- In every run of a session the history obeys the laws and leads to the state;
a terminate state has been entered exactly when the session has been destroyed or
that is scheduled; then it stays in the terminate states, and the `MSG_STATE`
that waits destroys it. -/
theorem state_machine_safe (client : Client) (localName initiatorName sid : String)
    (allowLocalIps : Bool) (stimuli : List Stimulus) (s : Session)
    (permitted : Along Session.step Permits (new client localName initiatorName sid allowLocalIps)
      stimuli)
    (reached : s = runInputs Session.step (new client localName initiatorName sid allowLocalIps)
      stimuli) :
    Lawful s.history ∧ lastState s.history = s.state ∧
      ((∃ e ∈ s.history, e.ends = true) ↔ .destroyed ∈ s.history ∨ s.Scheduled) ∧
      ∀ later, Along Session.step Permits s later → s.state.terminal = true →
        (runInputs Session.step s later).state.terminal = true ∧
          ∀ listeners, ⟨.deliver .state, listeners⟩ ∈ later →
            .destroyed ∈ (runInputs Session.step s later).history := by
  have watched : Watched s := reached ▸ (Watched.new _ _ _ _ _).run permitted
  have sound : Sound s.history s.state := watched.safe
  refine ⟨sound.lawful, sound.current, ⟨fun ended => ?_, ?_⟩, fun later allowed ended => ⟨?_, ?_⟩⟩
  · have terminal := sound.current ▸ sound.lawful.terminal_of_ends ended
    exact (watched.ends terminal).imp id fun pending => ⟨terminal, pending⟩
  · rintro (destroyed | scheduled)
    · exact sound.lawful.ends_of_destroyed destroyed
    · exact Lawful.ends_of_terminal (sound.current.symm ▸ scheduled.1)
  · exact allowed.invariant (P := fun s => s.state.terminal = true) (fun _ _ _ => terminal_step) ended
  · exact fun listeners delivered => destroyed_of_deliver ended allowed delivered

/-- The listener hangs up while the state changes to `STATE_SENTINITIATE`. -/
theorem state_machine_safe_hangup :
    let hangup : Listeners := { onState := .call (.terminateWithReason "success") .done .done }
    let stimuli : List Stimulus := [⟨.localCall (.initiate "juliet" ⟨["audio"], []⟩), hangup⟩]
    (runInputs Session.step outgoing stimuli).Scheduled ∧
      Lawful (runInputs Session.step outgoing stimuli).history := by
  intro hangup stimuli
  have spec := state_machine_safe .lenient "romeo" "romeo" "1" false stimuli _
    ⟨⟨nofun, trivial⟩, trivial⟩ rfl
  have undestroyed : .destroyed ∉ (runInputs Session.step outgoing stimuli).history := by
    decide +kernel
  have ended : ∃ e ∈ (runInputs Session.step outgoing stimuli).history, e.ends = true := by
    decide +kernel
  exact ⟨(spec.2.2.1.mp ended).resolve_left undestroyed, spec.1⟩

end Libjingle.Session

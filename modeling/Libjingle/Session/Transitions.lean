import Libjingle.Session.Messages

/-!
# The state machine of a session

`Transition` is the table of state changes, each with what is sent for it. Every
function of a session is a `Call`: quiet work that leaves the state alone,
and transitions, each followed by what the listeners do and then by
`MSG_STATE`. Listeners make calls of the same kind from inside a transition.
-/

namespace Libjingle.Session

/-! ## The table -/

/-- From a state, with what is sent, to a state. -/
inductive Transition : State → List Action → State → Prop where
  | initiate : Transition .init [] .sentInitiate
  | receiveInitiate : Transition .init [] .receivedInitiate
  | accept (content : ContentMessage) :
      Transition .receivedInitiate [.accept content] .sentAccept
  | reject (reason : String) : Transition .receivedInitiate [.reject reason] .sentReject
  | rejectModify (reason : String) : Transition .receivedModify [.reject reason] .sentReject
  | receiveAccept : Transition .sentInitiate [] .receivedAccept
  | receiveReject : Transition .sentInitiate [] .receivedReject
  | progressSent : Transition .sentAccept [] .inProgress
  | progressReceived : Transition .receivedAccept [] .inProgress
  /-- After a reject, the terminate is implicit. -/
  | terminateSentReject : Transition .sentReject [] .sentTerminate
  | terminateReceivedReject : Transition .receivedReject [] .sentTerminate
  | terminate {state : State} (reason : String) (notSentReject : state ≠ .sentReject)
      (notReceivedReject : state ≠ .receivedReject) (notSent : state ≠ .sentTerminate)
      (notReceived : state ≠ .receivedTerminate) :
      Transition state [.terminate reason] .sentTerminate
  | receiveTerminate {state : State} (notReceived : state ≠ .receivedTerminate) :
      Transition state [] .receivedTerminate

theorem Transition.ne {old new : State} {actions : List Action}
    (transition : Transition old actions new) : new ≠ old := by
  cases transition with
  | terminate _ _ _ notSent _ => exact notSent.symm
  | receiveTerminate notReceived => exact notReceived.symm
  | _ => decide

/-! ## Calls -/

/-- Neither a state change nor the end of the session, and no answer or terminate. -/
def Entry.quiet : Entry → Bool
  | .sent (.message _ _ (.accept _)) | .sent (.message _ _ (.reject _))
  | .sent (.message _ _ (.terminate _)) | .changed _ _ | .destroyed => false
  | _ => true

/-- Work that leaves the state and the id alone and keeps a posted `MSG_STATE`. -/
structure Quiet (s s' : Session) : Prop where
  sid : s'.sid = s.sid
  state : s'.state = s.state
  history : ∃ more, s'.history = more ++ s.history ∧ ∀ entry ∈ more, entry.quiet = true
  posted : .state ∈ s.posted → .state ∈ s'.posted

/-- A state is entered: what belongs to the transition is sent, and the change noted. -/
def enter (s : Session) (actions : List Action) (state : State) : Session :=
  { actions.foldl Session.send s with state := state }.record (.changed s.state state)

inductive Call : Session → Session → Prop where
  | quiet {s s' : Session} (quiet : Quiet s s') : Call s s'
  | trans {s s' s'' : Session} (first : Call s s') (second : Call s' s'') : Call s s''
  | change {s s' : Session} {actions : List Action} {state : State}
      (transition : Transition s.state actions state) (inner : Call (s.enter actions state) s') :
      Call s (s'.post .state)

theorem Quiet.of_same {s s' : Session} (sid : s'.sid = s.sid) (state : s'.state = s.state)
    (history : s'.history = s.history) (posted : s'.posted = s.posted) : Quiet s s' :=
  ⟨sid, state, ⟨[], history, by simp⟩, fun pending => posted ▸ pending⟩

theorem Quiet.trans {s s' s'' : Session} (first : Quiet s s') (second : Quiet s' s'') :
    Quiet s s'' := by
  obtain ⟨more, longer, quiet⟩ := first.history
  obtain ⟨later, longest, calm⟩ := second.history
  refine ⟨second.sid.trans first.sid, second.state.trans first.state, ⟨later ++ more, ?_, ?_⟩,
    fun pending => second.posted (first.posted pending)⟩
  · rw [longest, longer, List.append_assoc]
  · intro entry member
    exact (List.mem_append.mp member).elim (calm entry) (quiet entry)

theorem Quiet.record {s : Session} {entry : Entry} (quiet : entry.quiet = true) :
    Quiet s (s.record entry) :=
  ⟨rfl, rfl, ⟨[entry], rfl, by simpa using quiet⟩, id⟩

theorem Quiet.rewire (s : Session) (wiring : Wiring) : Quiet s (s.rewire wiring) :=
  .of_same rfl rfl rfl rfl

theorem Quiet.refl (s : Session) : Quiet s s :=
  .of_same rfl rfl rfl rfl

theorem Quiet.post (s : Session) (id : MessageId) : Quiet s (s.post id) :=
  ⟨rfl, rfl, ⟨[], rfl, by simp⟩, fun pending => List.mem_append_left _ pending⟩

theorem Call.refl (s : Session) : Call s s :=
  .quiet (.refl s)

/-- What listeners do is a call. -/
def Calls (signal : Session → Session) : Prop :=
  ∀ s, Call s (signal s)

/-! ## Local calls -/

theorem state_sends (actions : List Action) (s : Session) :
    (actions.foldl Session.send s).state = s.state := by
  induction actions generalizing s with
  | nil => rfl
  | cons action rest ih => exact ih _

theorem sid_sends (actions : List Action) (s : Session) :
    (actions.foldl Session.send s).sid = s.sid := by
  induction actions generalizing s with
  | nil => rfl
  | cons action rest ih => exact ih _

/-- A session keeps its id. -/
theorem Call.sid {s s' : Session} (call : Call s s') : s'.sid = s.sid := by
  induction call with
  | quiet quiet => exact quiet.sid
  | trans _ _ first second => exact second.trans first
  | change _ _ inner => exact inner.trans (sid_sends _ _)

theorem count_destroyed_record (s : Session) {entry : Entry} (other : entry ≠ .destroyed) :
    (s.record entry).history.count .destroyed = s.history.count .destroyed :=
  List.count_cons_of_ne other

theorem count_destroyed_sends (actions : List Action) (s : Session) :
    (actions.foldl Session.send s).history.count .destroyed = s.history.count .destroyed := by
  induction actions generalizing s with
  | nil => rfl
  | cons action rest ih => exact (ih _).trans (count_destroyed_record s Entry.noConfusion)

/-- No call destroys the session. -/
theorem Call.count_destroyed {s s' : Session} (call : Call s s') :
    s'.history.count .destroyed = s.history.count .destroyed := by
  induction call with
  | quiet quiet =>
    obtain ⟨more, longer, calm⟩ := quiet.history
    have none : more.count .destroyed = 0 :=
      List.count_eq_zero.mpr fun member => Bool.noConfusion (calm _ member)
    rw [longer, List.count_append, none, Nat.zero_add]
  | trans _ _ first second => exact second.trans first
  | change _ _ inner =>
    exact inner.trans ((count_destroyed_record _ Entry.noConfusion).trans
      (count_destroyed_sends _ _))

section Functions

variable {s : Session} {signal : Session → Session}

/-- Quiet work up to `t`, then a transition. -/
theorem Call.setState (signals : Calls signal) {t : Session} (ready : Quiet s t) {old new : State}
    (here : s.state = old) {actions : List Action} (transition : Transition old actions new) :
    Call s ((actions.foldl Session.send t).setState signal new) := by
  have found : Transition t.state actions new := (ready.state.trans here).symm ▸ transition
  rw [Session.setState, state_sends, if_pos found.ne]
  exact (Call.quiet ready).trans (.change found (signals _))

theorem Call.sendMessage {action : Action} (quiet : ∀ protocol recipient,
    (Entry.sent (.message protocol recipient action)).quiet = true) :
    Call s (s.sendMessage action).2 := by
  rw [Session.sendMessage]
  split
  · exact .quiet (.record (quiet _ _))
  · exact .refl s

theorem initiate_call (signals : Calls signal) (recipient : String) (sdesc : SessionDescription) :
    Call s (s.initiate signal recipient sdesc).2 := by
  rw [initiate]
  split
  · exact .refl s
  next init =>
  have fresh : s.state = .init := not_not.mp init
  have named : Quiet s { s with remoteName := recipient, localDescription := some sdesc } :=
    .of_same rfl rfl rfl rfl
  dsimp only
  split
  · exact .quiet (named.trans (.rewire _ _))
  next wiring _ =>
  have rewired := named.trans (.rewire _ wiring)
  generalize Session.rewire _ wiring = t at rewired ⊢
  have sent : Quiet t (t.sendInitiateMessage sdesc).2 := by
    rw [sendInitiateMessage, sendMessage]
    split
    · exact .record rfl
    · exact .refl t
  split
  · next u result => exact .quiet (rewired.trans (by rw [result] at sent; exact sent))
  next u result =>
  rw [result] at sent
  have ready := rewired.trans sent
  exact (Call.setState signals ready fresh .initiate).trans (.quiet (.rewire _ _))

theorem accept_call (signals : Calls signal) (sdesc : SessionDescription) :
    Call s (s.accept signal sdesc).2 := by
  rw [accept]
  split
  · exact .refl s
  next received =>
  have here : s.state = .receivedInitiate := not_not.mp received
  have described : Quiet s { s with localDescription := some sdesc } := .of_same rfl rfl rfl rfl
  rw [sendAcceptMessage]
  split
  · next unsent =>
    split at unsent
    · cases unsent
    · cases unsent
      exact .quiet described
  next sent =>
  split at sent
  · cases sent
    have muxed := described.trans
      (.rewire _ { s with localDescription := some sdesc }.enableMuxing.toWiring)
    exact Call.setState signals muxed here (.accept _)
  · cases sent

theorem reject_call (signals : Calls signal) (reason : String) :
    Call s (s.reject signal reason).2 := by
  rw [reject]
  split
  · exact .refl s
  next received =>
  by_cases initiated : s.state = .receivedInitiate
  · exact Call.setState signals (.refl s) initiated (.reject reason)
  · have modified : s.state = .receivedModify := by
      by_contra other
      exact received ⟨initiated, other⟩
    exact Call.setState signals (.refl s) modified (.rejectModify reason)

theorem terminateWithReason_call (signals : Calls signal) (reason : String) :
    Call s (s.terminateWithReason signal reason).2 := by
  rw [terminateWithReason]
  split
  · exact .refl s
  · exact .refl s
  · next here => exact Call.setState signals (.refl s) here .terminateSentReject
  · next here => exact Call.setState signals (.refl s) here .terminateReceivedReject
  · next notSent notReceived notSentReject notReceivedReject =>
    exact Call.setState signals (.refl s) rfl
      (.terminate reason notSentReject notReceivedReject notSent notReceived)

theorem localCall_call (signals : Calls signal) (call : LocalCall) :
    Call s (s.localCall signal call) := by
  cases call with
  | initiate recipient sdesc => exact initiate_call signals recipient sdesc
  | accept sdesc => exact accept_call signals sdesc
  | reject reason => exact reject_call signals reason
  | terminateWithReason reason => exact terminateWithReason_call signals reason
  | sendInfoMessage => exact .quiet (.record rfl)
  | createChannel contentName channelName => exact .quiet (.rewire _ _)

/-- Induction on the reaction: a call with its inner reaction, then the rest. -/
theorem react_calls (reaction : Reaction) : Calls (react reaction) := by
  induction reaction with
  | done => exact fun s => .refl s
  | call call inner rest innerCalls restCalls =>
    exact fun s => (localCall_call innerCalls call).trans (restCalls _)

/-! ## Incoming messages -/

theorem flush_quiet (select : TransportProxy → List Candidate)
    (clear : TransportProxy → TransportProxy) (proxies : List TransportProxy) (s : Session) :
    Quiet s (s.flush select clear proxies).2 := by
  induction proxies generalizing s with
  | nil => exact .refl s
  | cons p rest ih =>
    rw [flush]
    split
    · exact ih s
    · rw [sendTransportInfoMessage, sendMessage]
      by_cases writes : s.writesAction (.transportInfo ⟨p.contentName, s.transportType, select p⟩)
      · simp only [writes, if_true]
        have sent : Quiet s (s.send (.transportInfo ⟨p.contentName, s.transportType, select p⟩)) :=
          .record rfl
        exact (sent.trans (.rewire _ _)).trans (ih _)
      · simp only [writes, if_false, Bool.false_eq_true]
        exact .refl s

theorem onInitiateAcked_quiet (s : Session) : Quiet s s.onInitiateAcked := by
  rw [onInitiateAcked]
  split
  · exact .refl s
  · have acked : Quiet s { s with initiateAcked := true } := .of_same rfl rfl rfl rfl
    exact acked.trans (flush_quiet _ _ _ _)

theorem takeCandidates_quiet (s : Session) (tinfos : List TransportInfo) :
    Quiet s (s.takeCandidates tinfos).2 :=
  .rewire _ _

theorem unlessRejected_quiet (s : Session) (tinfos : List TransportInfo) :
    Quiet s (s.unlessRejected tinfos).2 := by
  rw [unlessRejected]
  split
  · exact takeCandidates_quiet s tinfos
  · exact .refl s

theorem checkState_none {expected : State} (passed : s.checkState expected = none) :
    s.state = expected := by
  rw [checkState] at passed
  split at passed
  · assumption
  · cases passed

theorem onInitiateMessage_call (signals : Calls signal) (msg : SessionMessage) :
    Call s (s.onInitiateMessage signal msg).2 := by
  rw [onInitiateMessage]
  split
  · exact .refl s
  next passed =>
  have here := checkState_none passed
  split
  · exact .refl s
  next init _ =>
  split
  · exact .quiet (.rewire _ _)
  next wiring _ =>
  have ready : Quiet s { s.rewire wiring with
      remoteName := msg.sender
      remoteDescription := some init.description } := .of_same rfl rfl rfl rfl
  exact (Call.setState signals ready here .receiveInitiate).trans
    (.quiet (unlessRejected_quiet _ _))

theorem onAcceptMessage_call (signals : Calls signal) (msg : SessionMessage) :
    Call s (s.onAcceptMessage signal msg).2 := by
  rw [onAcceptMessage]
  split
  · exact .refl s
  next passed =>
  have here := checkState_none passed
  split
  · exact .refl s
  next accept _ =>
  have described : Quiet s.onInitiateAcked
      { s.onInitiateAcked with remoteDescription := some accept.description } :=
    .of_same rfl rfl rfl rfl
  have ready := ((onInitiateAcked_quiet s).trans described).trans (.rewire _
    { s.onInitiateAcked with remoteDescription := some accept.description }.enableMuxing.toWiring)
  exact (Call.setState signals ready here .receiveAccept).trans
    (.quiet (unlessRejected_quiet _ _))

theorem onRejectMessage_call (signals : Calls signal) : Call s (s.onRejectMessage signal).2 := by
  rw [onRejectMessage]
  split
  · exact .refl s
  · next passed => exact Call.setState signals (.refl s) (checkState_none passed) .receiveReject

theorem onTerminateMessage_call (signals : Calls signal) (msg : SessionMessage) :
    Call s (s.onTerminateMessage signal msg).2 := by
  rw [onTerminateMessage]
  split
  · exact .refl s
  · by_cases again : s.state = .receivedTerminate
    · rw [Session.setState, if_neg (not_not.mpr again.symm)]
      exact .refl s
    · exact Call.setState signals (.refl s) rfl (.receiveTerminate again)

theorem onTransportInfoMessage_quiet (s : Session) (msg : SessionMessage) :
    Quiet s (s.onTransportInfoMessage msg).2 := by
  rw [onTransportInfoMessage]
  split
  · exact .refl s
  · exact takeCandidates_quiet s _

theorem onDescriptionInfoMessage_quiet (s : Session) (msg : SessionMessage) :
    Quiet s (s.onDescriptionInfoMessage msg).2 := by
  rw [onDescriptionInfoMessage]
  split
  · exact .refl s
  · split <;> exact .refl s

theorem handle_call (signals : Calls signal) (msg : SessionMessage) :
    Call s (s.handle signal msg).2 := by
  rw [handle]
  split
  · exact onInitiateMessage_call signals msg
  · exact .refl s
  · exact onAcceptMessage_call signals msg
  · exact onRejectMessage_call signals
  · exact onTerminateMessage_call signals msg
  · exact .quiet (onTransportInfoMessage_quiet s msg)
  · exact .refl s
  · exact .quiet (onDescriptionInfoMessage_quiet s msg)
  · exact .refl s

theorem settleProtocol_quiet (s : Session) (msg : SessionMessage) :
    Quiet s (s.settleProtocol msg) := by
  rw [settleProtocol]
  split
  · exact .of_same rfl rfl rfl rfl
  · exact .refl s

theorem onIncomingMessage_call (signals : Calls signal) (msg : SessionMessage) :
    Call s (s.onIncomingMessage signal msg) := by
  have handled : Call s ((s.settleProtocol msg).handle signal msg).2 :=
    (Call.quiet (settleProtocol_quiet s msg)).trans (handle_call signals msg)
  rw [onIncomingMessage]
  split <;> next result => exact (result ▸ handled).trans (.quiet (.record rfl))

/-! ## Everything else -/

theorem setError_call (signals : Calls signal) (error : Error) :
    Call s (s.setError signal error) := by
  have failed : Call s (if error ≠ s.error then signal { s with error := error } else s) := by
    split
    · have noted : Quiet s { s with error := error } := .of_same rfl rfl rfl rfl
      exact (Call.quiet noted).trans (signals _)
    · exact .refl s
  rw [setError]
  split
  · exact failed.trans (.quiet (.post _ _))
  · exact failed

theorem onRedirectError_quiet (s : Session) (target : String) :
    Quiet s (s.onRedirectError target).2 := by
  rw [onRedirectError]
  split
  · exact .refl s
  split
  · exact .refl s
  have pointed : Quiet s { s with remoteName := target } := .of_same rfl rfl rfl rfl
  dsimp only
  split
  · exact pointed
  next sdesc _ =>
  generalize ({ s with remoteName := target } : Session) = t at pointed ⊢
  have sent : Quiet t (t.sendInitiateMessage sdesc).2 := by
    rw [sendInitiateMessage, sendMessage]
    split
    · exact .record rfl
    · exact .refl t
  split
  · next result => exact pointed.trans (by rw [result] at sent; exact sent)
  · next result =>
    rw [result] at sent
    exact (pointed.trans sent).trans (flush_quiet _ _ _ _)

theorem onFailedSend_call (signals : Calls signal) (failed : FailedSend) :
    Call s (s.onFailedSend signal failed) := by
  cases failed with
  | redirect target =>
    have redirected := onRedirectError_quiet s target
    rw [onFailedSend]
    split
    · next result => exact .quiet (by rw [result] at redirected; exact redirected)
    · next result =>
      rw [result] at redirected
      exact (Call.quiet redirected).trans (setError_call signals _)
  | noError => exact .refl s
  | error type errorType =>
    rw [onFailedSend]
    split
    · exact .refl s
    · split
      · exact setError_call signals _
      · exact .refl s

theorem onTransportWritable_quiet (s : Session) (transport : Nat) :
    Quiet s (s.onTransportWritable transport) := by
  have cleared : Quiet s (s.clear .timeout) :=
    ⟨rfl, rfl, ⟨[], rfl, by simp⟩, fun pending => List.mem_filter.mpr ⟨pending, by decide⟩⟩
  simp only [onTransportWritable]
  split
  · split
    · exact cleared.trans (.post _ _)
    · exact cleared
  · exact cleared

theorem onChannelWritableState_quiet (s : Session) (transport : Nat) (writable : Bool) :
    Quiet s (s.onChannelWritableState transport writable) := by
  rw [onChannelWritableState]
  split
  · exact .refl s
  · split
    · exact .refl s
    · exact (Quiet.rewire s _).trans (onTransportWritable_quiet _ transport)

theorem onTransportCandidatesReady_quiet (s : Session) (transport : Nat)
    (candidates : List Candidate) :
    Quiet s (s.onTransportCandidatesReady transport candidates) := by
  rw [onTransportCandidatesReady]
  split
  · exact .refl s
  next p _ =>
  have reported : Quiet s (s.record (.reported p.contentName candidates)) := .record rfl
  dsimp only
  split
  · exact reported.trans (.rewire _ _)
  · have sent (t : Session) : Quiet t (t.sendTransportInfoMessage p.contentName candidates).2 := by
      rw [sendTransportInfoMessage, sendMessage]
      split
      · exact .record rfl
      · exact .refl t
    refine Quiet.trans ?_ (sent _)
    split
    · exact reported
    · exact reported.trans (.rewire _ _)

/-- A posted message is a call, or the end of a session in a terminate state. -/
theorem onMessage_call (listeners : Listeners) (s : Session) (id : MessageId) :
    (¬ (id = .state ∧ (s.state = .sentTerminate ∨ s.state = .receivedTerminate)) ∧
      Call s (s.onMessage listeners id)) ∨
    (id = .state ∧ (s.state = .sentTerminate ∨ s.state = .receivedTerminate)) ∧
      s.onMessage listeners id = s.record .destroyed := by
  cases id with
  | timeout => exact .inl ⟨nofun, setError_call (react_calls listeners.onError) .time⟩
  | error =>
    exact .inl ⟨nofun, terminateWithReason_call (react_calls listeners.onState) "general-error"⟩
  | state =>
    simp only [onMessage]
    split
    · next here =>
      exact .inl ⟨by simp [here], Call.setState (react_calls _) (.refl s) here .progressSent⟩
    · next here =>
      exact .inl ⟨by simp [here], Call.setState (react_calls _) (.refl s) here .progressReceived⟩
    · next here => exact .inl ⟨by simp [here], terminateWithReason_call (react_calls _) _⟩
    · next here => exact .inl ⟨by simp [here], terminateWithReason_call (react_calls _) _⟩
    · next here => exact .inr ⟨⟨trivial, .inl here⟩, rfl⟩
    · next here => exact .inr ⟨⟨trivial, .inr here⟩, rfl⟩
    · exact .inl ⟨by simp_all, .refl s⟩

/-- Every input but a posted message is a call. -/
theorem step_call (s : Session) (stimulus : Stimulus)
    (other : ∀ id, stimulus.input ≠ .deliver id) : Call s (s.step stimulus) := by
  obtain ⟨input, listeners⟩ := stimulus
  cases input with
  | localCall call => exact localCall_call (react_calls _) call
  | message msg => exact onIncomingMessage_call (react_calls _) msg
  | response type =>
    simp only [step, onIncomingResponse]
    split
    · exact .quiet (onInitiateAcked_quiet s)
    · exact .refl s
  | failedSend failed => exact onFailedSend_call (react_calls _) failed
  | connecting transport => exact .quiet (onTransportWritable_quiet s transport)
  | writable transport writable => exact .quiet (onChannelWritableState_quiet s transport writable)
  | candidatesReady transport candidates =>
    exact .quiet (onTransportCandidatesReady_quiet s transport candidates)
  | destroyChannel transport name => exact .quiet (.rewire _ _)
  | deliver id => exact absurd rfl (other id)

theorem sid_step (s : Session) (stimulus : Stimulus) : (s.step stimulus).sid = s.sid := by
  by_cases delivers : ∃ id, stimulus.input = .deliver id
  · obtain ⟨id, same⟩ := delivers
    simp only [step, same]
    rcases onMessage_call stimulus.listeners { s with posted := s.posted.erase id } id with
      ⟨_, call⟩ | ⟨_, ended⟩
    · exact call.sid
    · rw [ended]
      rfl
  · exact (step_call s stimulus fun id same => delivers ⟨id, same⟩).sid

end Functions

end Libjingle.Session

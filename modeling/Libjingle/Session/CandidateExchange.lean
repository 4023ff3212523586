import Libjingle.Session.Messages
import Libjingle.Std.Trace

/-!
# Candidates on their way to the peer

Until the session-initiate is acknowledged, the candidates of a transport wait in
the unsent list of its proxy; then they go out, and what goes out before the
proxy is negotiated is remembered in its sent list, which a redirect replays and
clears. Every call and every listener keeps a candidate that was reported either
sent to the current remote name or unsent; only a redirect can lose one, and it
does so exactly for a candidate that the sent list does not hold and the new name
has not been sent.
-/

namespace Libjingle.Session

open Libjingle.Std

/-! ## Where a candidate is -/

/-- The candidate went out to `recipient` in a transport-info. -/
def SentTo (s : Session) (recipient contentName : String) (cand : Candidate) : Prop :=
  ∃ protocol transportType candidates, cand ∈ candidates ∧
    .sent (.message protocol recipient (.transportInfo ⟨contentName, transportType, candidates⟩)) ∈
      s.history

/-- The transport of the content reported the candidate. -/
def Reported (s : Session) (contentName : String) (cand : Candidate) : Prop :=
  ∃ candidates, cand ∈ candidates ∧ .reported contentName candidates ∈ s.history

/-- The candidate is in a list of the proxy of the content. -/
def Wiring.Holds (w : Wiring) (select : TransportProxy → List Candidate) (contentName : String)
    (cand : Candidate) : Prop :=
  ∃ p ∈ w.proxies, p.contentName = contentName ∧ cand ∈ select p

/-- Every reported candidate has been sent to the current remote name or is still
in the unsent list. -/
def NoneLost (s : Session) : Prop :=
  ∀ contentName cand, s.Reported contentName cand →
    s.SentTo s.remoteName contentName cand ∨
      s.toWiring.Holds (·.unsentCandidates) contentName cand

/-- Every reported candidate has been sent to `target`, or is in the sent list
that a redirect replays, or is still in the unsent list. -/
def Covered (s : Session) (target : String) : Prop :=
  ∀ contentName cand, s.Reported contentName cand →
    s.SentTo target contentName cand ∨ s.toWiring.Holds (·.sentCandidates) contentName cand ∨
      s.toWiring.Holds (·.unsentCandidates) contentName cand

/-- A session-initiate has gone out. -/
def InitiateSent (s : Session) : Prop :=
  ∃ protocol recipient content, .sent (.message protocol recipient (.initiate content)) ∈ s.history

/-! ## Wiring -/

/-- The proxies' unsent candidates stay where they are. -/
structure Wiring.KeepsUnsent (w w' : Wiring) : Prop where
  transportType : w'.transportType = w.transportType
  unsent : ∀ contentName cand, w.Holds (·.unsentCandidates) contentName cand →
    w'.Holds (·.unsentCandidates) contentName cand

namespace Wiring.KeepsUnsent

variable {w w' w'' : Wiring}

theorem refl (w : Wiring) : w.KeepsUnsent w :=
  ⟨rfl, fun _ _ => id⟩

theorem trans (first : w.KeepsUnsent w') (second : w'.KeepsUnsent w'') : w.KeepsUnsent w'' :=
  ⟨second.transportType.trans first.transportType,
    fun contentName cand held => second.unsent contentName cand (first.unsent contentName cand held)⟩

/-- A change of the transports alone. -/
theorem transports (w : Wiring) (transports : List Transport) :
    w.KeepsUnsent { w with transports := transports } :=
  ⟨rfl, fun _ _ => id⟩

/-- A change of every proxy that leaves its name and keeps its unsent list. -/
theorem map (w : Wiring) (f : TransportProxy → TransportProxy)
    (name : ∀ p, (f p).contentName = p.contentName)
    (unsent : ∀ p, ∀ cand ∈ p.unsentCandidates, cand ∈ (f p).unsentCandidates) :
    w.KeepsUnsent { w with proxies := w.proxies.map f } := by
  refine ⟨rfl, ?_⟩
  rintro contentName cand ⟨p, member, same, held⟩
  exact ⟨f p, List.mem_map_of_mem member, (name p).trans same, unsent p cand held⟩

theorem modifyProxy (w : Wiring) (contentName : String) (f : TransportProxy → TransportProxy)
    (name : ∀ p, (f p).contentName = p.contentName)
    (unsent : ∀ p, ∀ cand ∈ p.unsentCandidates, cand ∈ (f p).unsentCandidates) :
    w.KeepsUnsent (w.modifyProxy contentName f) := by
  refine map w _ ?_ ?_
  · intro p
    split
    · exact name p
    · rfl
  · intro p cand held
    split
    · exact unsent p cand held
    · exact held

theorem modifyTransport (w : Wiring) (transport : Nat) (f : Transport → Transport) :
    w.KeepsUnsent (w.modifyTransport transport f) :=
  transports w _

theorem mem_insertProxy {proxy p : TransportProxy} {proxies : List TransportProxy}
    (member : p ∈ proxies) : p ∈ insertProxy proxy proxies := by
  induction proxies with
  | nil => cases member
  | cons head tail ih =>
    rw [insertProxy]
    split
    · rcases List.mem_cons.mp member with rfl | old
      · exact List.mem_cons_self
      · exact List.mem_cons_of_mem _ (ih old)
    · exact List.mem_cons_of_mem _ member

theorem getOrCreateTransportProxy (w : Wiring) (contentName : String) :
    w.KeepsUnsent (w.getOrCreateTransportProxy contentName) := by
  rw [Wiring.getOrCreateTransportProxy]
  split
  · exact refl w
  · refine ⟨rfl, ?_⟩
    rintro name cand ⟨p, member, same, held⟩
    exact ⟨p, mem_insertProxy member, same, held⟩

theorem createTransportProxies (w : Wiring) (tinfos : List TransportInfo) :
    w.KeepsUnsent (w.createTransportProxies tinfos).2 := by
  induction tinfos generalizing w with
  | nil => exact refl w
  | cons tinfo rest ih =>
    rw [Wiring.createTransportProxies]
    split
    · exact refl w
    · exact (getOrCreateTransportProxy w _).trans (ih _)

theorem createChannel (w : Wiring) (contentName channelName : String) :
    w.KeepsUnsent (w.createChannel contentName channelName) := by
  have created := getOrCreateTransportProxy w contentName
  have added : ∀ p : TransportProxy, (p.addChannel channelName).contentName = p.contentName ∧
      (p.addChannel channelName).unsentCandidates = p.unsentCandidates := by
    intro p
    rw [TransportProxy.addChannel]
    split <;> exact ⟨rfl, rfl⟩
  simp only [Wiring.createChannel]
  split
  · exact created
  · have grown := created.trans (modifyProxy _ contentName (·.addChannel channelName)
      (fun p => (added p).1) fun p cand held => (added p).2 ▸ held)
    split
    · exact grown
    · exact grown.trans (modifyTransport _ _ _)

theorem speculativelyConnectAll (w : Wiring) : w.KeepsUnsent w.speculativelyConnectAll := by
  have connected : ∀ (proxies : List TransportProxy) (w : Wiring),
      w.KeepsUnsent (proxies.foldl (fun w p => w.modifyTransport p.transport p.connect) w) := by
    intro proxies
    induction proxies with
    | nil => exact refl
    | cons p rest ih => exact fun w => (modifyTransport w _ _).trans (ih _)
  rw [Wiring.speculativelyConnectAll]
  exact (connected w.proxies w).trans (map _ _ (fun _ => rfl) fun _ _ => id)

theorem completeNegotiation (w : Wiring) (contentName : String) :
    w.KeepsUnsent (w.completeNegotiation contentName) := by
  rw [Wiring.completeNegotiation]
  split
  · exact refl w
  · split
    · exact refl w
    · have negotiated := modifyProxy w contentName (fun p => { p with state := .negotiated })
        (fun _ => rfl) fun _ _ => id
      exact negotiated.trans (modifyTransport _ _ _)

theorem onRemoteCandidates (w : Wiring) (tinfos : List TransportInfo) :
    w.KeepsUnsent (w.onRemoteCandidates tinfos).2 := by
  induction tinfos generalizing w with
  | nil => exact refl w
  | cons tinfo rest ih =>
    rw [Wiring.onRemoteCandidates]
    split
    · exact refl w
    · have completed := completeNegotiation w tinfo.contentName
      dsimp only
      split
      · exact completed
      · exact (completed.trans (modifyTransport _ _ _)).trans (ih _)

theorem maybeEnableMuxingSupport (w : Wiring) (here there : Option SessionDescription) :
    w.KeepsUnsent (w.maybeEnableMuxingSupport here there) := by
  have selected : ∀ contentName group, w.KeepsUnsent (w.setSelectedProxy contentName group) := by
    intro contentName group
    rw [setSelectedProxy]
    split
    · exact refl w
    · refine map w _ (fun p => ?_) fun p cand held => ?_
      · split <;> rfl
      · split <;> exact held
  simp only [Wiring.maybeEnableMuxingSupport]
  repeat' split
  all_goals first | exact selected _ _ | exact refl w

end Wiring.KeepsUnsent

/-! ## The invariant -/

/-- What a session on the side of the initiator keeps about its candidates. -/
structure Exchange (s : Session) : Prop where
  initiator : s.initiator = true
  writes : ∀ protocol tinfo, s.client.writes protocol (.transportInfo tinfo) = true
  /-- Before the initiate, everything that was reported waits. -/
  early : s.state = .init → s.initiateAcked = false ∧ ¬ s.InitiateSent ∧
    ∀ contentName cand, s.Reported contentName cand →
      s.toWiring.Holds (·.unsentCandidates) contentName cand
  waiting : s.state = .sentInitiate → s.NoneLost
  /-- The initiate can be written again. -/
  offer : s.state = .sentInitiate → ∃ sdesc, s.localDescription = some sdesc ∧
    s.writesAction (.initiate (s.contentMessage sdesc)) = true

theorem writesAction_transportInfo {s : Session}
    (writes : ∀ protocol tinfo, s.client.writes protocol (.transportInfo tinfo) = true)
    (tinfo : TransportInfo) : s.writesAction (.transportInfo tinfo) = true := by
  rw [writesAction]
  split <;> simp [writes]

theorem sendTransportInfoMessage_writes {s : Session}
    (writes : ∀ protocol tinfo, s.client.writes protocol (.transportInfo tinfo) = true)
    (contentName : String) (candidates : List Candidate) :
    s.sendTransportInfoMessage contentName candidates =
      (true, s.send (.transportInfo ⟨contentName, s.transportType, candidates⟩)) :=
  if_pos (writesAction_transportInfo writes _)

namespace Exchange

variable {s : Session}

theorem rewire (kept : Exchange s) {w : Wiring} (keeps : s.toWiring.KeepsUnsent w) :
    Exchange (s.rewire w) where
  initiator := kept.initiator
  writes := kept.writes
  early init := by
    obtain ⟨unacked, unsent, waits⟩ := kept.early init
    exact ⟨unacked, unsent, fun contentName cand reported =>
      keeps.unsent contentName cand (waits contentName cand reported)⟩
  waiting state contentName cand reported :=
    (kept.waiting state contentName cand reported).imp id (keeps.unsent contentName cand)
  offer state := by
    obtain ⟨sdesc, description, writes⟩ := kept.offer state
    have same : (s.rewire w).contentMessage sdesc = s.contentMessage sdesc := by
      simp only [contentMessage, emptyTransportInfos, toWiring_rewire, keeps.transportType]
    exact ⟨sdesc, description, same ▸ writes⟩

/-- Entries that neither report a candidate nor send an initiate. -/
theorem record (kept : Exchange s) {entry : Entry}
    (notReported : ∀ contentName candidates, entry ≠ .reported contentName candidates)
    (notInitiate : ∀ protocol recipient content, s.state = .init →
      entry ≠ .sent (.message protocol recipient (.initiate content))) :
    Exchange (s.record entry) := by
  have reported : ∀ contentName cand, (s.record entry).Reported contentName cand →
      s.Reported contentName cand := by
    rintro contentName cand ⟨candidates, member, more⟩
    rcases List.mem_cons.mp more with same | old
    · exact absurd same.symm (notReported _ _)
    · exact ⟨candidates, member, old⟩
  refine ⟨kept.initiator, kept.writes, fun init => ?_, fun state contentName cand more => ?_,
    kept.offer⟩
  · obtain ⟨unacked, unsent, waits⟩ := kept.early init
    refine ⟨unacked, ?_, fun contentName cand more => waits _ _ (reported _ _ more)⟩
    rintro ⟨protocol, recipient, content, member⟩
    rcases List.mem_cons.mp member with same | old
    · exact notInitiate _ _ _ init same.symm
    · exact unsent ⟨_, _, _, old⟩
  · rcases kept.waiting state contentName cand (reported _ _ more) with
      ⟨protocol, type, candidates, member, sent⟩ | unsent
    · exact .inl ⟨protocol, type, candidates, member, List.mem_cons_of_mem _ sent⟩
    · exact .inr unsent

theorem send (kept : Exchange s) {action : Action} (other : ∀ content, action ≠ .initiate content) :
    Exchange (s.send action) :=
  kept.record (by simp) (by simp_all)

theorem post (kept : Exchange s) (id : MessageId) : Exchange (s.post id) :=
  { kept with }

theorem clear (kept : Exchange s) (id : MessageId) : Exchange (s.clear id) :=
  { kept with }

/-- A state that is neither the first one nor that of waiting for an accept. -/
theorem enter (kept : Exchange s) {state : State} (notInit : state ≠ .init)
    (notWaiting : state ≠ .sentInitiate) (entry : Entry) :
    Exchange ({ s with state := state }.record entry) where
  initiator := kept.initiator
  writes := kept.writes
  early init := absurd init notInit
  waiting same := absurd same notWaiting
  offer same := absurd same notWaiting

/-- What listeners do keeps the invariant. -/
def KeptBy (signal : Session → Session) : Prop :=
  ∀ s, Exchange s → Exchange (signal s)

variable {signal : Session → Session}

theorem setState (keeps : KeptBy signal) (kept : Exchange s) {state : State}
    (notInit : state ≠ .init) (notWaiting : state ≠ .sentInitiate) :
    Exchange (s.setState signal state) := by
  rw [Session.setState]
  split
  · exact (keeps _ (kept.enter notInit notWaiting _)).post _
  · exact kept

/-! ## Local calls -/

/-- The initiate goes out, and the session waits for an accept. -/
theorem initiate (keeps : KeptBy signal) (kept : Exchange s) (recipient : String)
    (sdesc : SessionDescription) : Exchange (s.initiate signal recipient sdesc).2 := by
  rw [Session.initiate]
  split
  · exact kept
  next init =>
  have fresh : s.state = .init := not_not.mp init
  have named : Exchange { s with remoteName := recipient, localDescription := some sdesc } :=
    ⟨kept.initiator, kept.writes, fun _ => kept.early fresh,
      fun waits => absurd (fresh.symm.trans waits) (by decide),
      fun waits => absurd (fresh.symm.trans waits) (by decide)⟩
  have described : ({ s with remoteName := recipient, localDescription := some sdesc } :
      Session).localDescription = some sdesc := rfl
  have first : ({ s with remoteName := recipient, localDescription := some sdesc } :
      Session).state = .init := fresh
  have unwired : ({ s with remoteName := recipient, localDescription := some sdesc } :
      Session).toWiring = s.toWiring := rfl
  have wired := Wiring.KeepsUnsent.createTransportProxies s.toWiring
    (s.emptyTransportInfos sdesc.contents)
  dsimp only [emptyTransportInfos] at wired ⊢
  generalize ({ s with remoteName := recipient, localDescription := some sdesc } : Session) = t
    at named described first unwired ⊢
  rw [← unwired] at wired ⊢
  split
  · next wiring created => exact named.rewire (by rw [created] at wired; exact wired)
  next wiring created =>
  rw [created] at wired
  have rewired := named.rewire (w := wiring) wired
  have fresh : (t.rewire wiring).state = .init := first
  have described : (t.rewire wiring).localDescription = some sdesc := described
  generalize t.rewire wiring = t at rewired fresh described
  simp only [sendInitiateMessage, sendMessage]
  by_cases writes : t.writesAction (.initiate (t.contentMessage sdesc)) = true
  · simp only [writes, if_true]
    obtain ⟨_, _, waits⟩ := rewired.early fresh
    refine Exchange.rewire ?_ (.speculativelyConnectAll _)
    have entered (old : State) : Exchange
        ({ t.send (.initiate (t.contentMessage sdesc)) with state := .sentInitiate }.record
          (.changed old .sentInitiate)) := by
      refine ⟨rewired.initiator, rewired.writes, fun init => State.noConfusion init,
        fun _ => ?_, fun _ => ⟨sdesc, described, writes⟩⟩
      rintro contentName cand ⟨candidates, member, reported⟩
      refine .inr (waits contentName cand ⟨candidates, member, ?_⟩)
      simpa [Session.record, Session.send] using reported
    rw [Session.setState]
    split
    · exact (keeps _ (entered _)).post _
    next same =>
      have here : (t.send (.initiate (t.contentMessage sdesc))).state = .init := fresh
      exact State.noConfusion ((not_not.mp same).trans here)
  · simp only [writes, if_false, Bool.false_eq_true]
    exact rewired

theorem accept (keeps : KeptBy signal) (kept : Exchange s) (sdesc : SessionDescription) :
    Exchange (s.accept signal sdesc).2 := by
  rw [Session.accept]
  split
  · exact kept
  next received =>
  have here : s.state = .receivedInitiate := not_not.mp received
  have described : Exchange { s with localDescription := some sdesc } :=
    ⟨kept.initiator, kept.writes, kept.early, kept.waiting,
      fun waits => absurd (here.symm.trans waits) (by decide)⟩
  generalize ({ s with localDescription := some sdesc } : Session) = t at described ⊢
  simp only [sendAcceptMessage]
  by_cases writes : t.client.writes t.currentProtocol (.accept (t.contentMessage sdesc)) = true
  · simp only [writes, if_true]
    have answered : Exchange (t.send (.accept (t.contentMessage sdesc))) :=
      described.send (by simp)
    exact setState keeps (answered.rewire (.maybeEnableMuxingSupport _ _ _)) (by decide)
      (by decide)
  · simp only [writes, if_false, Bool.false_eq_true]
    exact described

theorem reject (keeps : KeptBy signal) (kept : Exchange s) (reason : String) :
    Exchange (s.reject signal reason).2 := by
  rw [Session.reject]
  split
  · exact kept
  · exact setState keeps (kept.send (by simp)) (by decide) (by decide)

theorem terminateWithReason (keeps : KeptBy signal) (kept : Exchange s) (reason : String) :
    Exchange (s.terminateWithReason signal reason).2 := by
  rw [Session.terminateWithReason]
  split
  · exact kept
  · exact kept
  · exact setState keeps kept (by decide) (by decide)
  · exact setState keeps kept (by decide) (by decide)
  · exact setState keeps (kept.send (by simp)) (by decide) (by decide)

theorem localCall (keeps : KeptBy signal) (kept : Exchange s) (call : LocalCall) :
    Exchange (s.localCall signal call) := by
  cases call with
  | initiate recipient sdesc => exact initiate keeps kept recipient sdesc
  | accept sdesc => exact accept keeps kept sdesc
  | reject reason => exact reject keeps kept reason
  | terminateWithReason reason => exact terminateWithReason keeps kept reason
  | sendInfoMessage => exact kept.send (by simp)
  | createChannel contentName channelName => exact kept.rewire (.createChannel _ _ _)

/-- Induction on the reaction: a call with its inner reaction, then the rest. -/
theorem react (reaction : Reaction) : KeptBy (Session.react reaction) := by
  induction reaction with
  | done => exact fun _ kept => kept
  | call call inner rest innerKeeps restKeeps =>
    exact fun s kept => restKeeps _ (localCall innerKeeps kept call)

/-! ## Flushing a list -/

end Exchange

/-- The transport-info that `flush` sends for a proxy. -/
def infoOf (s : Session) (select : TransportProxy → List Candidate) (p : TransportProxy) : Entry :=
  .sent (.message s.currentProtocol s.remoteName
    (.transportInfo ⟨p.contentName, s.transportType, select p⟩))

/-- When transport-infos can be written, `flush` sends the selected list of every
proxy, and changes only proxies, by clearing the list. -/
theorem flush_spec (select : TransportProxy → List Candidate)
    (clear : TransportProxy → TransportProxy) (idem : ∀ p, clear (clear p) = clear p)
    (proxies : List TransportProxy) (s : Session)
    (writes : ∀ protocol tinfo, s.client.writes protocol (.transportInfo tinfo) = true) :
    ∃ g history, s.flush select clear proxies =
        (true, { s with proxies := s.proxies.map g, history := history }) ∧
      (∀ p, g p = p ∨ g p = clear p) ∧
      ∀ entry, entry ∈ history ↔ entry ∈ s.history ∨
        ∃ p ∈ proxies, select p ≠ [] ∧ entry = s.infoOf select p := by
  induction proxies generalizing s with
  | nil => exact ⟨id, s.history, by simp [flush], fun p => .inl rfl, by simp⟩
  | cons p rest ih =>
    rw [flush]
    split
    · next empty =>
      obtain ⟨g, history, flushed, clears, sent⟩ := ih s writes
      exact ⟨g, history, flushed, clears, by simp [sent, empty]⟩
    next occupied =>
    simp only [sendTransportInfoMessage_writes writes]
    obtain ⟨g, history, flushed, clears, sent⟩ := ih
      ((s.send (.transportInfo ⟨p.contentName, s.transportType, select p⟩)).rewire
        (s.toWiring.modifyProxy p.contentName clear)) writes
    refine ⟨fun q => g (if q.contentName = p.contentName then clear q else q), history, ?_, ?_, ?_⟩
    · refine flushed.trans ?_
      simp [Session.send, Session.record, Session.rewire, Wiring.modifyProxy, Function.comp_def]
    · intro q
      dsimp only
      split
      · rcases clears (clear q) with kept | cleared
        · exact .inr kept
        · exact .inr (cleared.trans (idem q))
      · exact clears q
    · intro entry
      refine (sent entry).trans ?_
      simp only [history_rewire, Session.send, Session.record, List.mem_cons, exists_eq_or_imp]
      constructor
      · rintro ((here | old) | ⟨q, member, some, later⟩)
        · exact .inr (.inl ⟨occupied, here⟩)
        · exact .inl old
        · exact .inr (.inr ⟨q, member, some, later⟩)
      · rintro (old | ⟨-, here⟩ | ⟨q, member, some, later⟩)
        · exact .inl (.inr old)
        · exact .inl (.inl here)
        · exact .inr ⟨q, member, some, later⟩

section Flushed

variable {s t : Session} {select : TransportProxy → List Candidate}

/-- A flush reports nothing. -/
theorem reported_flushed (sent : ∀ entry, entry ∈ t.history ↔ entry ∈ s.history ∨
      ∃ p ∈ s.proxies, select p ≠ [] ∧ entry = s.infoOf select p)
    (contentName : String) (cand : Candidate) :
    t.Reported contentName cand ↔ s.Reported contentName cand := by
  simp [Reported, sent, infoOf]

/-- A flush sends the selected candidates to the current remote name. -/
theorem sentTo_flushed (sent : ∀ entry, entry ∈ t.history ↔ entry ∈ s.history ∨
      ∃ p ∈ s.proxies, select p ≠ [] ∧ entry = s.infoOf select p)
    (recipient contentName : String) (cand : Candidate) :
    t.SentTo recipient contentName cand ↔ s.SentTo recipient contentName cand ∨
      recipient = s.remoteName ∧ s.toWiring.Holds select contentName cand := by
  constructor
  · rintro ⟨protocol, type, candidates, member, out⟩
    rcases (sent _).mp out with old | ⟨p, held, -, same⟩
    · exact .inl ⟨protocol, type, candidates, member, old⟩
    · simp only [infoOf, Entry.sent.injEq, Stanza.message.injEq, Action.transportInfo.injEq,
        TransportInfo.mk.injEq] at same
      obtain ⟨-, named, content, -, rfl⟩ := same
      exact .inr ⟨named, p, held, content.symm, member⟩
  · rintro (⟨protocol, type, candidates, member, old⟩ | ⟨rfl, p, held, rfl, member⟩)
    · exact ⟨protocol, type, candidates, member, (sent _).mpr (.inl old)⟩
    · exact ⟨s.currentProtocol, s.transportType, select p, member,
        (sent _).mpr (.inr ⟨p, held, List.ne_nil_of_mem member, rfl⟩)⟩

end Flushed

namespace Exchange

variable {s : Session} {signal : Session → Session}

/-! ## Incoming messages -/

/-- The acknowledgement of the initiate sends everything that waits. -/
theorem onInitiateAcked (kept : Exchange s) (notInit : s.state ≠ .init) :
    Exchange s.onInitiateAcked := by
  rw [Session.onInitiateAcked]
  split
  · exact kept
  obtain ⟨g, history, flushed, -, sent⟩ := flush_spec (·.unsentCandidates)
    TransportProxy.clearUnsentCandidates (fun _ => rfl) s.proxies { s with initiateAcked := true }
    kept.writes
  rw [show sendAllUnsentTransportInfoMessages _ = _ from flushed]
  refine ⟨kept.initiator, kept.writes, fun init => absurd init notInit, ?_, kept.offer⟩
  intro waits contentName cand reported
  have reported := (reported_flushed (s := { s with initiateAcked := true }) sent _ _).mp reported
  refine .inl ((sentTo_flushed (s := { s with initiateAcked := true }) sent _ _ _).mpr ?_)
  exact (kept.waiting waits contentName cand reported).imp id fun unsent => ⟨rfl, unsent⟩

theorem takeCandidates (kept : Exchange s) (tinfos : List TransportInfo) :
    Exchange (s.takeCandidates tinfos).2 :=
  kept.rewire (.onRemoteCandidates _ _)

theorem unlessRejected (kept : Exchange s) (tinfos : List TransportInfo) :
    Exchange (s.unlessRejected tinfos).2 := by
  rw [Session.unlessRejected]
  split
  · exact takeCandidates kept tinfos
  · exact kept

theorem onInitiateMessage (keeps : KeptBy signal) (kept : Exchange s) (msg : SessionMessage) :
    Exchange (s.onInitiateMessage signal msg).2 := by
  rw [Session.onInitiateMessage]
  split
  · exact kept
  split
  · exact kept
  next init _ =>
  have wired := Wiring.KeepsUnsent.createTransportProxies s.toWiring init.transports
  split
  · next wiring created => exact kept.rewire (by rw [created] at wired; exact wired)
  next wiring created =>
  rw [created] at wired
  have created := kept.rewire (w := wiring) wired
  refine unlessRejected ?_ _
  rw [Session.setState]
  split
  · refine (keeps _ ?_).post _
    exact ⟨created.initiator, created.writes, fun init => State.noConfusion init,
      fun waits => State.noConfusion waits, fun waits => State.noConfusion waits⟩
  · next same =>
    have here : s.state = .receivedInitiate := (not_not.mp same).symm
    exact ⟨created.initiator, created.writes,
      fun init => State.noConfusion (here.symm.trans init),
      fun waits => State.noConfusion (here.symm.trans waits),
      fun waits => State.noConfusion (here.symm.trans waits)⟩

theorem onAcceptMessage (keeps : KeptBy signal) (kept : Exchange s) (msg : SessionMessage) :
    Exchange (s.onAcceptMessage signal msg).2 := by
  rw [Session.onAcceptMessage, checkState]
  by_cases waits : s.state = .sentInitiate
  · simp only [waits, if_true]
    split
    · exact kept
    · have acked := onInitiateAcked kept (by simp [waits])
      refine unlessRejected (setState keeps ?_ (by decide) (by decide)) _
      have described (remote : Option SessionDescription) :
          Exchange { s.onInitiateAcked with remoteDescription := remote } :=
        ⟨acked.initiator, acked.writes, acked.early, acked.waiting, acked.offer⟩
      exact (described _).rewire (.maybeEnableMuxingSupport _ _ _)
  · simp only [waits, if_false]
    exact kept

theorem onRejectMessage (keeps : KeptBy signal) (kept : Exchange s) :
    Exchange (s.onRejectMessage signal).2 := by
  rw [Session.onRejectMessage]
  split
  · exact kept
  · exact setState keeps kept (by decide) (by decide)

theorem onTerminateMessage (keeps : KeptBy signal) (kept : Exchange s) (msg : SessionMessage) :
    Exchange (s.onTerminateMessage signal msg).2 := by
  rw [Session.onTerminateMessage]
  split
  · exact kept
  · exact setState keeps kept (by decide) (by decide)

theorem onTransportInfoMessage (kept : Exchange s) (msg : SessionMessage) :
    Exchange (s.onTransportInfoMessage msg).2 := by
  rw [Session.onTransportInfoMessage]
  split
  · exact kept
  · exact takeCandidates kept _

/-- What both protocols can carry, each of them can. -/
theorem settleProtocol (kept : Exchange s) (msg : SessionMessage) :
    Exchange (s.settleProtocol msg) := by
  rw [Session.settleProtocol]
  split
  · next hybrid =>
    refine ⟨kept.initiator, kept.writes, kept.early, kept.waiting, fun waits => ?_⟩
    obtain ⟨sdesc, description, writes⟩ := kept.offer waits
    refine ⟨sdesc, description, ?_⟩
    simp only [writesAction, hybrid, Bool.and_eq_true] at writes
    simp only [writesAction]
    split
    · exact Bool.and_eq_true _ _ ▸ writes
    · split
      · exact writes.2
      · exact writes.1
  · exact kept

theorem handle (keeps : KeptBy signal) (kept : Exchange s) (msg : SessionMessage) :
    Exchange (s.handle signal msg).2 := by
  rw [Session.handle]
  split
  · exact onInitiateMessage keeps kept msg
  · exact kept
  · exact onAcceptMessage keeps kept msg
  · exact onRejectMessage keeps kept
  · exact onTerminateMessage keeps kept msg
  · exact onTransportInfoMessage kept msg
  · exact kept
  · rw [onDescriptionInfoMessage]
    repeat' split
    all_goals exact kept
  · exact kept

theorem onIncomingMessage (keeps : KeptBy signal) (kept : Exchange s) (msg : SessionMessage) :
    Exchange (s.onIncomingMessage signal msg) := by
  have handled := handle keeps (settleProtocol kept msg) msg
  rw [Session.onIncomingMessage]
  split <;> next result => exact (result ▸ handled).record (by simp) (by simp)

/-- The initiate has been sent when it is answered. -/
theorem onIncomingResponse (kept : Exchange s) {type : ActionType}
    (answers : type = .sessionInitiate → s.InitiateSent) : Exchange (s.onIncomingResponse type) := by
  rw [Session.onIncomingResponse]
  split
  · next same => exact onInitiateAcked kept fun init => (kept.early init).2.1 (answers same)
  · exact kept

end Exchange

/-! ## Redirects -/

/-- The session follows a redirect to another resource of its peer. -/
def Follows (s : Session) (target : String) : Prop :=
  s.state = .sentInitiate ∧ s.client.bareJidsEqual s.remoteName target = true

/-- The session as it is pointed at `target`, with the initiate sent again. -/
def pointAt (s : Session) (target : String) (sdesc : SessionDescription) : Session :=
  { s with remoteName := target }.send (.initiate (s.contentMessage sdesc))

/-- Following a redirect comes down to the replay of the sent lists. -/
theorem onRedirectError_eq {s : Session} {target : String} (follows : s.Follows target)
    {sdesc : SessionDescription} (description : s.localDescription = some sdesc)
    (writes : s.writesAction (.initiate (s.contentMessage sdesc)) = true) :
    s.onRedirectError target = (s.pointAt target sdesc).resendAllTransportInfoMessages := by
  have initiated : { s with remoteName := target }.sendInitiateMessage sdesc =
      (true, s.pointAt target sdesc) := by
    have same : { s with remoteName := target }.writesAction
        (.initiate ({ s with remoteName := target }.contentMessage sdesc)) = true := writes
    rw [sendInitiateMessage, sendMessage, if_pos same]
    rfl
  rw [onRedirectError, if_neg (by simp [follows.1]), if_neg (by simp [follows.2])]
  dsimp only
  split
  · next undescribed => exact absurd (description.symm.trans undescribed) (by simp)
  next sdesc' described =>
  obtain rfl : sdesc = sdesc' := Option.some.inj (description.symm.trans described)
  rw [initiated]

/-- A redirect replays the sent lists to the new name, and nothing else. -/
theorem onRedirectError_follows {s : Session} (kept : Exchange s) {target : String}
    (follows : s.Follows target) :
    ∃ s', s.onRedirectError target = (true, s') ∧ s'.state = .sentInitiate ∧
      (s'.NoneLost ↔ s.Covered target) ∧ (s'.NoneLost → Exchange s') := by
  obtain ⟨sdesc, description, writes⟩ := kept.offer follows.1
  obtain ⟨g, history, flushed, clears, sent⟩ := flush_spec (·.sentCandidates)
    TransportProxy.clearSentCandidates (fun _ => rfl) s.proxies (s.pointAt target sdesc) kept.writes
  have replayed : (s.pointAt target sdesc).resendAllTransportInfoMessages =
      (true, { s with remoteName := target, proxies := s.proxies.map g, history := history }) :=
    flushed
  refine ⟨_, (onRedirectError_eq follows description writes).trans replayed, follows.1, ?_, ?_⟩
  · have same (p : TransportProxy) : (g p).contentName = p.contentName ∧
        (g p).unsentCandidates = p.unsentCandidates := by
      rcases clears p with kept | cleared
      · rw [kept]
        exact ⟨rfl, rfl⟩
      · rw [cleared]
        exact ⟨rfl, rfl⟩
    have unsent (contentName : String) (cand : Candidate) :
        Wiring.Holds { s.toWiring with proxies := s.proxies.map g } (·.unsentCandidates)
          contentName cand ↔ s.toWiring.Holds (·.unsentCandidates) contentName cand := by
      simp [Wiring.Holds, same]
    have old : ∀ contentName cand, (s.pointAt target sdesc).Reported contentName cand ↔
        s.Reported contentName cand := by
      simp [Reported, pointAt, Session.send, Session.record]
    have before : ∀ contentName cand, (s.pointAt target sdesc).SentTo target contentName cand ↔
        s.SentTo target contentName cand := by
      simp [SentTo, pointAt, Session.send, Session.record]
    refine forall₂_congr fun contentName cand => ?_
    refine imp_congr (Iff.trans (reported_flushed sent _ _) (old _ _)) ?_
    refine Iff.trans (or_congr (Iff.trans (sentTo_flushed sent _ _ _)
      (or_congr (before _ _) (and_iff_right rfl))) (unsent _ _)) or_assoc
  · intro none
    exact ⟨kept.initiator, kept.writes,
      fun init => State.noConfusion (follows.1.symm.trans init), fun _ => none, kept.offer⟩

namespace Exchange

variable {s : Session} {signal : Session → Session}

/-! ## Everything else -/

theorem setError (keeps : KeptBy signal) (kept : Exchange s) (error : Error) :
    Exchange (s.setError signal error) := by
  have failed : Exchange (if error ≠ s.error then signal { s with error := error } else s) := by
    split
    · exact keeps _ ⟨kept.initiator, kept.writes, kept.early, kept.waiting, kept.offer⟩
    · exact kept
  rw [Session.setError]
  split
  · exact failed.post _
  · exact failed

/-- A redirect that the session does not follow is an error. -/
theorem onRedirectError_ignored {target : String} (ignored : ¬ s.Follows target) :
    s.onRedirectError target = (false, s) := by
  rw [onRedirectError]
  split
  · rfl
  · next waits =>
    rw [if_pos fun equal => ignored ⟨not_not.mp waits, equal⟩]

theorem onFailedSend (keeps : KeptBy signal) (kept : Exchange s) (failed : FailedSend)
    (ignored : ∀ target, failed = .redirect target → ¬ s.Follows target) :
    Exchange (s.onFailedSend signal failed) := by
  cases failed with
  | redirect target =>
    rw [Session.onFailedSend, onRedirectError_ignored (ignored target rfl)]
    exact setError keeps kept .response
  | noError => exact kept
  | error type errorType =>
    rw [Session.onFailedSend]
    repeat' split
    · exact kept
    · exact setError keeps kept .response
    · exact kept

theorem onTransportWritable (kept : Exchange s) (transport : Nat) :
    Exchange (s.onTransportWritable transport) := by
  simp only [Session.onTransportWritable]
  split
  · split
    · exact (kept.clear _).post _
    · exact kept.clear _
  · exact kept.clear _

theorem onChannelWritableState (kept : Exchange s) (transport : Nat) (writable : Bool) :
    Exchange (s.onChannelWritableState transport writable) := by
  rw [Session.onChannelWritableState]
  split
  · exact kept
  · split
    · exact kept
    · exact onTransportWritable (kept.rewire (.modifyTransport _ _ _)) transport

theorem reported_record {contentName name : String} {candidates : List Candidate} {cand : Candidate}
    (more : (s.record (.reported contentName candidates)).Reported name cand) :
    (name = contentName ∧ cand ∈ candidates) ∨ s.Reported name cand := by
  obtain ⟨batch, held, now⟩ := more
  rcases List.mem_cons.mp now with same | old
  · obtain ⟨rfl, rfl⟩ := Entry.reported.inj same
    exact .inl ⟨rfl, held⟩
  · exact .inr ⟨batch, held, old⟩

/-- The candidates of a report are kept for later. -/
theorem report_keep (kept : Exchange s) {contentName : String} {candidates : List Candidate}
    (held : ∀ cand ∈ candidates, s.toWiring.Holds (·.unsentCandidates) contentName cand) :
    Exchange (s.record (.reported contentName candidates)) := by
  refine ⟨kept.initiator, kept.writes, fun init => ?_, fun waits name cand more => ?_, kept.offer⟩
  · obtain ⟨unacked, unsent, waits⟩ := kept.early init
    refine ⟨unacked, ?_, fun name cand more => ?_⟩
    · rintro ⟨protocol, recipient, content, member⟩
      rcases List.mem_cons.mp member with same | old
      · exact Entry.noConfusion same
      · exact unsent ⟨protocol, recipient, content, old⟩
    · rcases reported_record more with ⟨rfl, new⟩ | old
      · exact held cand new
      · exact waits name cand old
  · rcases reported_record more with ⟨rfl, new⟩ | old
    · exact .inr (held cand new)
    · rcases kept.waiting waits name cand old with ⟨protocol, type, batch, member, sent⟩ | unsent
      · exact .inl ⟨protocol, type, batch, member, List.mem_cons_of_mem _ sent⟩
      · exact .inr unsent

/-- The candidates of a report go out. -/
theorem report_send (kept : Exchange s) (notInit : s.state ≠ .init) (contentName : String)
    (candidates : List Candidate) :
    Exchange ((s.record (.reported contentName candidates)).send
      (.transportInfo ⟨contentName, s.transportType, candidates⟩)) := by
  refine ⟨kept.initiator, kept.writes, fun init => absurd init notInit,
    fun waits name cand ⟨batch, held, now⟩ => ?_, kept.offer⟩
  have now : .reported name batch ∈ (s.record (.reported contentName candidates)).history :=
    (List.mem_cons.mp now).resolve_left Entry.noConfusion
  rcases reported_record ⟨batch, held, now⟩ with ⟨rfl, new⟩ | old
  · exact .inl ⟨s.currentProtocol, s.transportType, candidates, new, List.mem_cons_self⟩
  · rcases kept.waiting waits name cand old with ⟨protocol, type, earlier, member, sent⟩ | unsent
    · exact .inl ⟨protocol, type, earlier, member,
        List.mem_cons_of_mem _ (List.mem_cons_of_mem _ sent)⟩
    · exact .inr unsent

/-- Candidates wait until the initiate is acknowledged, and go out afterwards. -/
theorem onTransportCandidatesReady (kept : Exchange s) (transport : Nat)
    (candidates : List Candidate) :
    Exchange (s.onTransportCandidatesReady transport candidates) := by
  rw [Session.onTransportCandidatesReady]
  split
  · exact kept
  next p found =>
  have member : p ∈ s.proxies := List.mem_of_find?_eq_some found
  dsimp only
  split
  · have rewired := kept.rewire (.modifyProxy s.toWiring p.contentName
      (fun p => { p with unsentCandidates := p.unsentCandidates ++ candidates })
      (fun _ => rfl) fun _ _ => List.mem_append_left _)
    refine rewired.report_keep fun cand new => ?_
    refine ⟨{ p with unsentCandidates := p.unsentCandidates ++ candidates }, ?_, rfl,
      List.mem_append_right _ new⟩
    exact List.mem_map.mpr ⟨p, member, if_pos rfl⟩
  · next acked =>
    have notInit : s.state ≠ .init := by
      intro init
      exact acked ⟨kept.initiator, by simp [Session.record, (kept.early init).1]⟩
    split
    · rw [sendTransportInfoMessage_writes]
      · exact report_send kept notInit _ _
      · exact kept.writes
    · rw [sendTransportInfoMessage_writes]
      · have rewired := kept.rewire (.modifyProxy s.toWiring p.contentName
          (fun p => { p with sentCandidates := p.sentCandidates ++ candidates })
          (fun _ => rfl) fun _ _ => id)
        exact report_send rewired notInit _ _
      · exact kept.writes

theorem onMessage (listeners : Listeners) (kept : Exchange s) (id : MessageId) :
    Exchange (s.onMessage listeners id) := by
  cases id with
  | timeout => exact setError (react _) kept .time
  | error => exact terminateWithReason (react _) kept _
  | state =>
    simp only [Session.onMessage]
    split
    · exact setState (react _) kept (by decide) (by decide)
    · exact setState (react _) kept (by decide) (by decide)
    · exact terminateWithReason (react _) kept _
    · exact terminateWithReason (react _) kept _
    · exact kept.record (by simp) (by simp)
    · exact kept.record (by simp) (by simp)
    · exact kept

/-- Any input but a redirect that the session follows. -/
theorem step (kept : Exchange s) {stimulus : Stimulus} (permitted : s.Permits stimulus)
    (ignored : ∀ target, stimulus.input = .failedSend (.redirect target) → ¬ s.Follows target) :
    Exchange (s.step stimulus) := by
  obtain ⟨input, listeners⟩ := stimulus
  cases input with
  | localCall call => exact localCall (react _) kept call
  | message msg => exact onIncomingMessage (react _) kept msg
  | response type => exact onIncomingResponse kept permitted.2
  | failedSend failed =>
    exact onFailedSend (react _) kept failed fun target same => ignored target (by rw [same])
  | connecting transport => exact onTransportWritable kept transport
  | writable transport writable => exact onChannelWritableState kept transport writable
  | candidatesReady transport candidates =>
    exact onTransportCandidatesReady kept transport candidates
  | destroyChannel transport name => exact kept.rewire (.modifyTransport _ _ _)
  | deliver id =>
    have taken : Exchange { s with posted := s.posted.erase id } := { kept with }
    exact onMessage listeners taken id

end Exchange

/-! ## Runs -/

/-- A session that waits for an accept after an input has lost no candidate. -/
def LosesNone (s : Session) (stimulus : Stimulus) : Prop :=
  (s.step stimulus).state = .sentInitiate → (s.step stimulus).NoneLost

/-- A redirect that the session follows finds every candidate in a list, or
already sent to the new name. -/
def Recovers (s : Session) (stimulus : Stimulus) : Prop :=
  ∀ target, stimulus.input = .failedSend (.redirect target) → s.Follows target → s.Covered target

theorem Exchange.recovers_of {s : Session} (kept : Exchange s) {stimulus : Stimulus}
    (losesNone : s.LosesNone stimulus) : s.Recovers stimulus := by
  obtain ⟨input, listeners⟩ := stimulus
  rintro target rfl follows
  obtain ⟨s', redirected, waits, none, -⟩ := onRedirectError_follows kept follows
  have reached : s.step ⟨.failedSend (.redirect target), listeners⟩ = s' := by
    simp only [Session.step, Session.onFailedSend, redirected]
  rw [LosesNone, reached] at losesNone
  exact none.mp (losesNone waits)

theorem Exchange.step_recovers {s : Session} (kept : Exchange s) {stimulus : Stimulus}
    (permitted : s.Permits stimulus) (recovers : s.Recovers stimulus) :
    Exchange (s.step stimulus) := by
  by_cases redirect : ∃ target, stimulus.input = .failedSend (.redirect target) ∧ s.Follows target
  · obtain ⟨target, same, follows⟩ := redirect
    obtain ⟨s', redirected, -, none, exchange⟩ := onRedirectError_follows kept follows
    have reached : s.step stimulus = s' := by
      simp only [Session.step, same, Session.onFailedSend, redirected]
    rw [reached]
    exact exchange (none.mpr (recovers target same follows))
  · exact kept.step permitted fun target same follows => redirect ⟨target, same, follows⟩

theorem Exchange.losesNone_of {s : Session} (kept : Exchange s) {stimulus : Stimulus}
    (permitted : s.Permits stimulus) (recovers : s.Recovers stimulus) : s.LosesNone stimulus :=
  (kept.step_recovers permitted recovers).waiting

theorem exchange_new {client : Client} {localName sid : String} {allowLocalIps : Bool}
    (writes : ∀ protocol tinfo, client.writes protocol (.transportInfo tinfo) = true) :
    Exchange (new client localName localName sid allowLocalIps) where
  initiator := decide_eq_true rfl
  writes := writes
  early _ := ⟨rfl, by simp [InitiateSent, new], by simp [Reported, new]⟩
  waiting waits := State.noConfusion waits
  offer waits := State.noConfusion waits

/-- Induction on the run: while no candidate is lost, the invariant carries over,
and in a state with the invariant only a redirect decides. -/
theorem Exchange.losesNone_iff {s : Session} (kept : Exchange s) {stimuli : List Stimulus}
    (permitted : Along Session.step Permits s stimuli) :
    Along Session.step LosesNone s stimuli ↔ Along Session.step Recovers s stimuli := by
  induction stimuli generalizing s with
  | nil => exact Iff.rfl
  | cons stimulus rest ih =>
    constructor
    · rintro ⟨now, later⟩
      have recovers := kept.recovers_of now
      exact ⟨recovers, (ih (kept.step_recovers permitted.1 recovers) permitted.2).mp later⟩
    · rintro ⟨now, later⟩
      exact ⟨kept.losesNone_of permitted.1 now,
        (ih (kept.step_recovers permitted.1 now) permitted.2).mpr later⟩

/-- In a run of a new session on the side of the initiator whose transport-infos
can be written, no candidate is ever lost while the session waits for an accept
exactly when every redirect it follows finds all candidates covered. -/
theorem candidates_kept_iff (client : Client) (localName sid : String) (allowLocalIps : Bool)
    (writes : ∀ protocol tinfo, client.writes protocol (.transportInfo tinfo) = true)
    (stimuli : List Stimulus)
    (permitted : Along Session.step Permits (new client localName localName sid allowLocalIps)
      stimuli) :
    Along Session.step LosesNone (new client localName localName sid allowLocalIps) stimuli ↔
      Along Session.step Recovers (new client localName localName sid allowLocalIps) stimuli :=
  (exchange_new writes).losesNone_iff permitted

/-- An offer with one content. -/
def audioOffer : SessionDescription := ⟨["audio"], []⟩

def hostCandidate : Candidate := ⟨"rtp", ⟨false, false, false, 5000⟩⟩

/-- The channel is created, the initiate goes out, and a candidate turns up. -/
def offering : List Stimulus :=
  [⟨.localCall (.createChannel "audio" "rtp"), {}⟩,
    ⟨.localCall (.initiate "juliet@capulet/garden" audioOffer), {}⟩,
    ⟨.candidatesReady 0 [hostCandidate], {}⟩]

/-- The peer answers from another resource. -/
def redirect : Stimulus :=
  ⟨.failedSend (.redirect "juliet@capulet/balcony"), {}⟩

theorem candidates_kept_iff_redirected :
    Along Session.step Permits outgoing (offering ++ [redirect]) ∧
      (Along Session.step LosesNone outgoing (offering ++ [redirect]) ↔
        Along Session.step Recovers outgoing (offering ++ [redirect])) := by
  have permitted : Along Session.step Permits outgoing (offering ++ [redirect]) :=
    ⟨⟨by decide +kernel, trivial⟩, ⟨by decide +kernel, trivial⟩, ⟨by decide +kernel, trivial⟩,
      ⟨by decide +kernel, trivial⟩, trivial⟩
  exact ⟨permitted, candidates_kept_iff .lenient "romeo" "1" false (fun _ _ => rfl) _ permitted⟩

/-- A candidate that went out with the acknowledgement is not in the sent list,
so a redirect to another resource does not replay it. -/
theorem redirected_candidate_lost :
    ¬ ∀ stimuli, Along Session.step Permits outgoing stimuli →
      Along Session.step LosesNone outgoing stimuli := by
  intro claim
  have permitted : Along Session.step Permits outgoing
      (offering ++ [⟨.response .sessionInitiate, {}⟩] ++ [redirect]) := by
    refine ⟨⟨by decide +kernel, trivial⟩, ⟨by decide +kernel, trivial⟩,
      ⟨by decide +kernel, trivial⟩, ⟨by decide +kernel, fun _ => ?_⟩,
      ⟨by decide +kernel, trivial⟩, trivial⟩
    exact ⟨.hybrid, "juliet@capulet/garden", ⟨["audio"], [⟨"audio", nsGingleP2P, []⟩], []⟩,
      by decide +kernel⟩
  have last := (claim _ permitted).last
  obtain ⟨s, reached⟩ : ∃ s, s = (runInputs Session.step outgoing
    (offering ++ [⟨.response .sessionInitiate, {}⟩])).step redirect := ⟨_, rfl⟩
  rw [LosesNone, ← reached] at last
  have waits : s.state = .sentInitiate := by rw [reached]; decide +kernel
  have named : s.remoteName = "juliet@capulet/balcony" := by rw [reached]; decide +kernel
  have reported : .reported "audio" [hostCandidate] ∈ s.history := by rw [reached]; decide +kernel
  have unsent : ∀ p ∈ s.proxies, p.unsentCandidates = [] := by rw [reached]; decide +kernel
  have sent : ∀ entry ∈ s.history, entry = .reported "audio" [hostCandidate] ∨
      entry = .changed .init .sentInitiate ∨
      entry = .sent (.message .hybrid "juliet@capulet/garden"
        (.transportInfo ⟨"audio", nsGingleP2P, [hostCandidate]⟩)) ∨
      ∃ recipient ∈ ["juliet@capulet/garden", "juliet@capulet/balcony"],
        entry = .sent (.message .hybrid recipient
          (.initiate ⟨["audio"], [⟨"audio", nsGingleP2P, []⟩], []⟩)) := by
    rw [reached]
    decide +kernel
  rcases last waits "audio" hostCandidate ⟨_, List.mem_singleton.mpr rfl, reported⟩ with
    ⟨_, _, _, _, out⟩ | ⟨p, member, _, held⟩
  · rw [named] at out
    simpa using sent _ out
  · have held : hostCandidate ∈ p.unsentCandidates := held
    exact List.not_mem_nil (unsent p member ▸ held)

end Libjingle.Session

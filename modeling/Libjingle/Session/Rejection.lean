import Libjingle.Session.Messages

/-!
# What a refused message leaves behind

A handler that answers with an error has no way to take back what it did before.
`Refused` lists the states it can leave: nothing was done, or some contents of an
offer got proxies before one with an unsupported transport, or the candidates of
a message were refused, after the contents before the refused one had theirs
handed over.
-/

namespace Libjingle.Session

variable {signal : Session → Session} {s t : Session} {msg : SessionMessage}

/-! ## Candidates -/

/-- The candidates handed to each transport. -/
def Wiring.handed (w : Wiring) : List (List Candidate) :=
  w.transports.map (·.remoteCandidates)

/-- The content has no proxy, or one of its candidates is refused. -/
def Wiring.Refuses (w : Wiring) (tinfo : TransportInfo) : Prop :=
  w.getTransportProxy tinfo.contentName = none ∨
    ∃ p text, w.getTransportProxy tinfo.contentName = some p ∧
      refusedCandidate ((w.completeNegotiation tinfo.contentName).transportOf p)
        tinfo.contentName tinfo.candidates = some text

/-- Refused candidates stop the walk over the contents: those before have theirs,
and the refused content has completed its negotiation if it exists. -/
theorem Wiring.onRemoteCandidates_refused {w w' : Wiring} {tinfos : List TransportInfo}
    {text : String} (refused : w.onRemoteCandidates tinfos = (some text, w')) :
    ∃ before tinfo after v, tinfos = before ++ tinfo :: after ∧
      w.onRemoteCandidates before = (none, v) ∧ v.Refuses tinfo ∧
      w' = v.completeNegotiation tinfo.contentName := by
  induction tinfos generalizing w with
  | nil => simp [onRemoteCandidates] at refused
  | cons tinfo rest ih =>
    rw [onRemoteCandidates] at refused
    split at refused
    · next missing =>
      obtain ⟨-, rfl⟩ := Prod.mk.inj refused
      refine ⟨[], tinfo, rest, w, rfl, rfl, .inl missing, ?_⟩
      simp only [completeNegotiation, missing]
    · next p found =>
      dsimp only at refused
      split at refused
      · next why bad =>
        obtain ⟨-, rfl⟩ := Prod.mk.inj refused
        exact ⟨[], tinfo, rest, w, rfl, rfl, .inr ⟨p, why, found, bad⟩, rfl⟩
      · next fine =>
        obtain ⟨before, stop, after, v, list, taken, refuses, result⟩ := ih refused
        refine ⟨tinfo :: before, stop, after, v, by rw [list]; rfl, ?_, refuses, result⟩
        rw [onRemoteCandidates, found]
        simp only [fine]
        exact taken

theorem remoteCandidates_connect (p : TransportProxy) (t : Transport) :
    (p.connect t).remoteCandidates = t.remoteCandidates := by
  have channels : ∀ names : List String, ∀ t : Transport,
      (names.foldl Transport.getOrCreateImpl t).remoteCandidates = t.remoteCandidates := by
    intro names
    induction names with
    | nil => exact fun _ => rfl
    | cons name rest ih =>
      intro t
      rw [List.foldl_cons, ih, Transport.getOrCreateImpl]
      split <;> rfl
  rw [TransportProxy.connect, Transport.connectChannels]
  split <;> exact channels _ _

/-- Completing a negotiation hands nothing over. -/
theorem Wiring.handed_completeNegotiation (w : Wiring) (contentName : String) :
    (w.completeNegotiation contentName).handed = w.handed := by
  simp only [completeNegotiation]
  split
  · rfl
  · split
    · rfl
    · next p _ _ =>
      simp only [handed, modifyTransport, modifyProxy]
      apply List.ext_getElem?
      intro index
      simp only [List.getElem?_map, List.getElem?_modify]
      split
      · cases w.transports[index]? <;> simp [remoteCandidates_connect]
      · simp

/-! ## Offers -/

/-- An offer with an unsupported transport has got the proxies of the contents
before it. -/
theorem Wiring.createTransportProxies_refused {w w' : Wiring} {tinfos : List TransportInfo}
    (refused : w.createTransportProxies tinfos = (false, w')) :
    ∃ before tinfo after, tinfos = before ++ tinfo :: after ∧
      tinfo.transportType ≠ w.transportType ∧
      w' = (before.map (·.contentName)).foldl getOrCreateTransportProxy w := by
  induction tinfos generalizing w with
  | nil => simp [createTransportProxies] at refused
  | cons tinfo rest ih =>
    rw [createTransportProxies] at refused
    split at refused
    · next unsupported =>
      obtain ⟨-, rfl⟩ := Prod.mk.inj refused
      exact ⟨[], tinfo, rest, rfl, unsupported, rfl⟩
    · have same : (w.getOrCreateTransportProxy tinfo.contentName).transportType =
          w.transportType := by
        rw [getOrCreateTransportProxy]
        split <;> rfl
      obtain ⟨before, stop, after, list, unsupported, result⟩ := ih refused
      exact ⟨tinfo :: before, stop, after, by rw [list]; rfl, same ▸ unsupported, result⟩

/-! ## Messages -/

/-- The state in which the candidates of a message are looked at, and these
candidates. -/
inductive ComesToCandidates (signal : Session → Session) (s : Session) (msg : SessionMessage) :
    Session → List TransportInfo → Prop where
  | transportInfo {tinfos : List TransportInfo} (type : msg.type = .transportInfo)
      (parsed : msg.transportInfos s.offeredContents = .ok tinfos) :
      ComesToCandidates signal s msg s tinfos
  | initiate {init : ContentMessage} {wiring : Wiring} (type : msg.type = .sessionInitiate)
      (fresh : s.state = .init) (parsed : msg.initiate = .ok init)
      (created : s.toWiring.createTransportProxies init.transports = (true, wiring)) :
      ComesToCandidates signal s msg
        ({ s.rewire wiring with
          remoteName := msg.sender
          remoteDescription := some init.description }.setState signal .receivedInitiate)
        init.transports
  | accept {accept : ContentMessage} (type : msg.type = .sessionAccept)
      (waiting : s.state = .sentInitiate) (parsed : msg.accept = .ok accept) :
      ComesToCandidates signal s msg
        (({ s.onInitiateAcked with
          remoteDescription := some accept.description }).enableMuxing.setState signal
            .receivedAccept)
        accept.transports

/-- The states a refused message can leave. -/
inductive Refused (signal : Session → Session) (s : Session) (msg : SessionMessage) :
    Session → Prop where
  | untouched : Refused signal s msg s
  | unsupported {init : ContentMessage} {before after : List TransportInfo} {tinfo : TransportInfo}
      (type : msg.type = .sessionInitiate) (fresh : s.state = .init)
      (parsed : msg.initiate = .ok init) (list : init.transports = before ++ tinfo :: after)
      (other : tinfo.transportType ≠ s.transportType) :
      Refused signal s msg
        (s.rewire ((before.map (·.contentName)).foldl Wiring.getOrCreateTransportProxy s.toWiring))
  | candidates {u : Session} {tinfos before after : List TransportInfo} {tinfo : TransportInfo}
      {v : Wiring} (comes : ComesToCandidates signal s msg u tinfos)
      (list : tinfos = before ++ tinfo :: after)
      (taken : u.toWiring.onRemoteCandidates before = (none, v)) (refuses : v.Refuses tinfo)
      (handed : (v.completeNegotiation tinfo.contentName).handed = v.handed) :
      Refused signal s msg (u.rewire (v.completeNegotiation tinfo.contentName))

theorem takeCandidates_refused {u : Session} {tinfos : List TransportInfo} {error : MessageError}
    (comes : ComesToCandidates signal s msg u tinfos)
    (refused : u.takeCandidates tinfos = (some error, t)) : Refused signal s msg t := by
  rcases walked : u.toWiring.onRemoteCandidates tinfos with ⟨_ | text, w⟩
  · simp [takeCandidates, walked] at refused
  · simp only [takeCandidates, walked, Option.map_some, Prod.mk.injEq] at refused
    obtain ⟨before, tinfo, after, v, list, taken, refuses, result⟩ :=
      Wiring.onRemoteCandidates_refused walked
    rw [← refused.2, result]
    exact .candidates comes list taken refuses (Wiring.handed_completeNegotiation _ _)

theorem unlessRejected_refused {u : Session} {tinfos : List TransportInfo} {error : MessageError}
    (comes : ComesToCandidates signal s msg u tinfos)
    (refused : u.unlessRejected tinfos = (some error, t)) : Refused signal s msg t := by
  rw [unlessRejected] at refused
  split at refused
  · exact takeCandidates_refused comes refused
  · cases refused

/-- A handler that answers with an error leaves one of these states. -/
theorem handle_refused {error : MessageError} (refused : s.handle signal msg = (some error, t)) :
    Refused signal s msg t := by
  rw [handle] at refused
  split at refused
  · next type =>
    rw [onInitiateMessage] at refused
    split at refused
    · cases refused
      exact .untouched
    next allowed =>
    split at refused
    · cases refused
      exact .untouched
    next init parsed =>
    have fresh : s.state = .init := by
      rw [checkState] at allowed
      split at allowed
      · assumption
      · cases allowed
    split at refused
    · next wiring stopped =>
      obtain ⟨before, tinfo, after, list, other, result⟩ :=
        Wiring.createTransportProxies_refused stopped
      cases refused
      rw [result]
      exact .unsupported type fresh parsed list other
    · next wiring created =>
      exact unlessRejected_refused (.initiate type fresh parsed created) refused
  · cases refused
  · next type =>
    rw [onAcceptMessage] at refused
    split at refused
    · cases refused
      exact .untouched
    next allowed =>
    split at refused
    · cases refused
      exact .untouched
    next accept parsed =>
    have waiting : s.state = .sentInitiate := by
      rw [checkState] at allowed
      split at allowed
      · assumption
      · cases allowed
    exact unlessRejected_refused (.accept type waiting parsed) refused
  · rw [onRejectMessage] at refused
    split at refused
    · cases refused
      exact .untouched
    · cases refused
  · rw [onTerminateMessage] at refused
    split at refused
    · cases refused
      exact .untouched
    · cases refused
  · next type =>
    rw [onTransportInfoMessage] at refused
    split at refused
    · cases refused
      exact .untouched
    · next tinfos parsed => exact takeCandidates_refused (.transportInfo type parsed) refused
  · cases refused
  · rw [onDescriptionInfoMessage] at refused
    split at refused
    · cases refused
      exact .untouched
    · split at refused
      · cases refused
        exact .untouched
      · cases refused
  · cases refused
    exact .untouched

/-- An offer of one content whose only candidate has a port that is not allowed. -/
private def badOffer : SessionMessage :=
  let content : ContentMessage :=
    ⟨["audio"], [⟨"audio", nsGingleP2P, [⟨"rtp", ⟨false, false, false, 22⟩⟩]⟩], []⟩
  { protocol := .jingle
    type := .sessionInitiate
    sid := "1"
    sender := "romeo"
    recipient := "juliet"
    initiator := "romeo"
    initiate := .ok content
    accept := .ok content
    terminate := .ok ""
    transportInfos := fun _ => .ok []
    descriptionInfo := .ok content }

private theorem badOffer_refused :
    ((incoming.settleProtocol badOffer).handle id badOffer).1 =
      some ⟨.badRequest, "candidate has port below 1024, but not 80 or 443"⟩ := by
  decide +kernel

/-- What a refused message would leave as it was. -/
structure Unchanged (s t : Session) : Prop where
  state : t.state = s.state
  remoteDescription : t.remoteDescription = s.remoteDescription
  remoteName : t.remoteName = s.remoteName
  proxies : t.proxies.map (fun p => (p.contentName, p.state)) =
    s.proxies.map fun p => (p.contentName, p.state)
  protocol : t.currentProtocol = s.currentProtocol
  handed : t.toWiring.handed = s.toWiring.handed

end Libjingle.Session

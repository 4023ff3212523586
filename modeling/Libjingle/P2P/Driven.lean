import Libjingle.P2P.Endpoint
import Libjingle.P2P.Members

/-!
# What makes a connection readable or writable

No operation of a channel makes a connection readable, refreshes its last ping, makes it
writable or adds to its requests, apart from a packet that comes in and a ping that is
made. Every connection of a channel after an event is followed back to the connection
that it was, or to a new one.
-/

namespace Libjingle.P2P

variable {ρ : Type}

namespace Connection

/-- How many requests with an id wait for their response. -/
def outstanding (c : Connection ρ) (request : Nat) : Nat :=
  c.requests.countP fun r => r.id = request

/-- From `c` to `c'`, readability is gained only by `read`, and writability by `write`. -/
structure Driven (read write : Prop) (c c' : Connection ρ) : Prop where
  identity : c'.identity = c.identity
  readable : c'.readState = .readable → c.readState = .readable ∨ read
  pinged : c'.lastPingReceived = c.lastPingReceived ∨ read
  writable : c'.writeState = .writable → c.writeState = .writable ∨ write
  requests : ∀ request, c'.outstanding request ≤ c.outstanding request

/-- Nothing is gained. -/
abbrev Calm (c c' : Connection ρ) : Prop := Driven False False c c'

namespace Driven

variable {read write read' write' : Prop} {c c' c'' : Connection ρ}

theorem refl (c : Connection ρ) : Driven read write c c :=
  ⟨rfl, .inl, .inl rfl, .inl, fun _ => Nat.le_refl _⟩

theorem trans (first : Driven read write c c') (second : Driven read write c' c'') :
    Driven read write c c'' where
  identity := second.identity.trans first.identity
  readable is := (second.readable is).elim first.readable .inr
  pinged := by
    obtain same | gained := second.pinged
    · exact first.pinged.imp_left same.trans
    · exact .inr gained
  writable is := (second.writable is).elim first.writable .inr
  requests request := Nat.le_trans (second.requests request) (first.requests request)

theorem mono (driven : Driven read write c c') (reads : read → read') (writes : write → write') :
    Driven read' write' c c' where
  identity := driven.identity
  readable is := (driven.readable is).imp_right reads
  pinged := driven.pinged.imp_right reads
  writable is := (driven.writable is).imp_right writes
  requests := driven.requests

end Driven

namespace Calm

variable {read write : Prop} {c c' : Connection ρ}

theorem driven (calm : Calm c c') : Driven read write c c' := calm.mono False.elim False.elim

/-- A change of other fields. -/
theorem of_same (identity : c'.identity = c.identity) (readState : c'.readState = c.readState)
    (pinged : c'.lastPingReceived = c.lastPingReceived) (writeState : c'.writeState = c.writeState)
    (requests : c'.requests = c.requests) : Calm c c' where
  identity := identity
  readable is := .inl (readState ▸ is)
  pinged := .inl pinged
  writable is := .inl (writeState ▸ is)
  requests request := by rw [outstanding, outstanding, requests]

theorem checkTimeout (c : Connection ρ) : Calm c c.checkTimeout := by
  unfold Connection.checkTimeout
  split
  · exact .of_same rfl rfl rfl rfl rfl
  · exact .refl c

theorem setReadState (c : Connection ρ) : Calm c (c.setReadState .readTimeout) := by
  unfold Connection.setReadState
  split
  · have timed : Calm c { c with readState := .readTimeout, signalled := true } :=
      ⟨rfl, fun is => (nomatch is), .inl rfl, .inl, fun _ => Nat.le_refl _⟩
    exact timed.trans (checkTimeout _)
  · exact .refl c

theorem setWriteState (c : Connection ρ) {value : WriteState} (other : value ≠ .writable) :
    Calm c (c.setWriteState value) := by
  unfold Connection.setWriteState
  split
  · have set : Calm c { c with writeState := value, signalled := true } :=
      ⟨rfl, .inl, .inl rfl, fun is => absurd is other, fun _ => Nat.le_refl _⟩
    exact set.trans (checkTimeout _)
  · exact .refl c

theorem removeRequest (c : Connection ρ) (request : Nat) : Calm c (c.removeRequest request) where
  identity := rfl
  readable := .inl
  pinged := .inl rfl
  writable := .inl
  requests _ := List.filter_sublist.countP_le

theorem prune (c : Connection ρ) : Calm c c.prune := by
  unfold Connection.prune
  split
  · exact .refl c
  · have cleared : Calm c { c with pruned := true, requests := [] } :=
      ⟨rfl, .inl, .inl rfl, .inl, fun _ => Nat.zero_le _⟩
    exact cleared.trans (setWriteState _ nofun)

theorem destroy (c : Connection ρ) : Calm c c.destroy :=
  (setReadState c).trans (setWriteState _ nofun)

/-- A step that is made under a condition. -/
theorem ite {p : Prop} [Decidable p] (calm : Calm c c') : Calm c (if p then c' else c) := by
  split
  · exact calm
  · exact .refl c

theorem updateState (c : Connection ρ) (now : UInt32) : Calm c (c.updateState now) := by
  have connect : WriteState.writeConnect ≠ .writable := nofun
  have timeout : WriteState.writeTimeout ≠ .writable := nofun
  unfold Connection.updateState
  exact (setReadState c).ite.trans ((setWriteState _ connect).ite.trans
    (setWriteState _ timeout).ite)

theorem onRequestMessage (c : Connection ρ) (request : Nat) (now : UInt32) :
    Calm c (c.onRequestMessage request now) := by
  unfold Connection.onRequestMessage
  split
  · exact .refl c
  · split
    · exact removeRequest c request
    · refine ⟨rfl, .inl, .inl rfl, .inl, fun id => Nat.le_of_eq ?_⟩
      rw [outstanding, outstanding, List.countP_map]
      refine List.countP_congr fun r _ => ?_
      dsimp only [Function.comp]
      split <;> exact Iff.rfl

theorem restart (c : Connection ρ) : Calm c c.restart := by
  have connect : WriteState.writeConnect ≠ .writable := nofun
  exact (setWriteState c connect).ite

theorem onClose (c : Connection ρ) : Calm c c.onClose := by
  have disconnected : Calm c { c with connected := false } := .of_same rfl rfl rfl rfl rfl
  exact disconnected.trans (setWriteState _ nofun)

theorem onConnectionRequestErrorResponse (c : Connection ρ) (errorCode : Option Nat) :
    Calm c (c.onConnectionRequestErrorResponse errorCode) := by
  unfold Connection.onConnectionRequestErrorResponse
  dsimp only
  split
  · exact .refl c
  · split
    · exact .refl c
    · exact setWriteState c nofun

/-- A packet that is neither a request nor the response to one. -/
theorem onReadPacket (c : Connection ρ) {packet : Packet} (now : UInt32)
    (request : packet ≠ .bindingRequest) (response : ∀ request, packet ≠ .bindingResponse request) :
    Calm c (c.onReadPacket packet now) := by
  cases packet with
  | data =>
    have noted : Calm c { c with lastDataReceived := now } := .of_same rfl rfl rfl rfl rfl
    have resumed : Calm c ({ c with lastDataReceived := now }.restart) := noted.trans (restart _)
    exact resumed.ite
  | handled | foreign => exact .refl c
  | bindingRequest => exact absurd rfl request
  | bindingResponse id => exact absurd rfl (response id)
  | bindingErrorResponse id errorCode =>
    unfold Connection.onReadPacket
    dsimp only
    split
    · exact .refl c
    · exact (onConnectionRequestErrorResponse c errorCode).trans (removeRequest _ id)

end Calm

/-- A ping that comes in. -/
theorem Driven.receivedPing (c : Connection ρ) (now : UInt32) :
    Driven True False c (c.receivedPing now) := by
  unfold Connection.receivedPing Connection.setReadState
  split
  · have set : Driven True False c
        { c with lastPingReceived := now, readState := .readable, signalled := true } :=
      ⟨rfl, fun _ => .inr trivial, .inr trivial, .inl, fun _ => Nat.le_refl _⟩
    exact set.trans (Calm.checkTimeout _).driven
  · exact ⟨rfl, .inl, .inr trivial, .inl, fun _ => Nat.le_refl _⟩

theorem outstanding_removeRequest (c : Connection ρ) (request : Nat) :
    (c.removeRequest request).outstanding request = 0 := by
  rw [outstanding, removeRequest, List.countP_eq_zero]
  intro r member
  simpa using (List.mem_filter.mp member).2

theorem outstanding_pos_of_findRequest {c : Connection ρ} {request : Nat} {r : ConnectionRequest}
    (found : c.findRequest request = some r) : 0 < c.outstanding request := by
  have named := List.find?_some found
  exact List.countP_pos_iff.mpr ⟨r, List.mem_of_find?_eq_some found, named⟩

theorem outstanding_ping (c : Connection ρ) (request : Nat) (now : UInt32) (id : Nat) :
    (c.ping request now).outstanding id = c.outstanding id + if request = id then 1 else 0 := by
  rw [outstanding, ping, List.countP_append, List.countP_singleton]
  simp [outstanding]

/-- A response that is counted takes its request away. -/
theorem Driven.onConnectionRequestResponse (c : Connection ρ) (r : ConnectionRequest)
    (now : UInt32) : Driven False True c (c.onConnectionRequestResponse r now) := by
  have written : Driven False True c (c.setWriteState .writable) := by
    unfold Connection.setWriteState
    split
    · have set : Driven False True c { c with writeState := .writable, signalled := true } :=
        ⟨rfl, .inl, .inl rfl, fun _ => .inr trivial, fun _ => Nat.le_refl _⟩
      exact set.trans (Calm.checkTimeout _).driven
    · exact .refl c
  have noted : Calm (c.setWriteState .writable) (c.onConnectionRequestResponse r now) :=
    .of_same rfl rfl rfl rfl rfl
  exact written.trans noted.driven

end Connection

namespace Channel

open Connection

/-- A connection of the channel, or one that it has yet to make. -/
def Earlier (ch : Channel ρ) (c : Connection ρ) : Prop :=
  c ∈ ch.connections ∨
    ch.nextConnection ≤ c.id ∧ ∃ port remote connected, c = .new c.id port remote connected

/-- Every connection of `ch'` comes from an earlier one. -/
structure Related (rel : Connection ρ → Connection ρ → Prop) (ch ch' : Channel ρ) : Prop where
  next : ch.nextConnection ≤ ch'.nextConnection
  earlier : ∀ c' ∈ ch'.connections, ∃ c, ch.Earlier c ∧ rel c c'

namespace Related

variable {rel rel' : Connection ρ → Connection ρ → Prop} {ch ch' ch'' : Channel ρ}

theorem mono (related : Related rel ch ch') (weaker : ∀ c c', rel c c' → rel' c c') :
    Related rel' ch ch' where
  next := related.next
  earlier c' member := by
    obtain ⟨c, earlier, rel⟩ := related.earlier c' member
    exact ⟨c, earlier, weaker c c' rel⟩

theorem trans (first : Related rel ch ch') (second : Related rel' ch' ch'') (refl : ∀ c, rel c c) :
    Related (fun c c'' => ∃ c', rel c c' ∧ rel' c' c'') ch ch'' where
  next := Nat.le_trans first.next second.next
  earlier c'' member := by
    obtain ⟨c', live | ⟨unused, shape⟩, rel'⟩ := second.earlier c'' member
    · obtain ⟨c, earlier, rel⟩ := first.earlier c' live
      exact ⟨c, earlier, c', rel, rel'⟩
    · exact ⟨c', .inr ⟨Nat.le_trans first.next unused, shape⟩, c', refl c', rel'⟩

theorem driven_trans {read write : Prop} (first : Related (Driven read write) ch ch')
    (second : Related (Driven read write) ch' ch'') : Related (Driven read write) ch ch'' :=
  (first.trans second .refl).mono fun _ _ ⟨_, first, second⟩ => first.trans second

/-- The connections are among those of before. -/
theorem of_subset (next : ch'.nextConnection = ch.nextConnection)
    (subset : ch'.connections ⊆ ch.connections) : Related Calm ch ch' where
  next := Nat.le_of_eq next.symm
  earlier c member := ⟨c, .inl (subset member), .refl c⟩

theorem map {f : Connection ρ → Connection ρ} (acts : ∀ c ∈ ch.connections, rel c (f c)) :
    Related rel ch { ch with connections := ch.connections.map f } where
  next := Nat.le_refl _
  earlier c' member := by
    obtain ⟨c, live, rfl⟩ := List.mem_map.mp member
    exact ⟨c, .inl live, acts c live⟩

end Related

theorem related_requestSort (ch : Channel ρ) : Related Calm ch ch.requestSort := by
  unfold requestSort
  split <;> exact .of_subset rfl (List.Subset.refl _)

theorem related_noticeStateChanges (ch : Channel ρ) : Related Calm ch ch.noticeStateChanges := by
  have noticed : Related Calm ch
      { ch with connections := ch.connections.map fun c => { c with signalled := false } } :=
    .map fun c _ => .of_same rfl rfl rfl rfl rfl
  unfold noticeStateChanges
  dsimp only
  split
  · exact noticed.driven_trans (related_requestSort _)
  · exact noticed

theorem related_updateConnectionStates (ch : Channel ρ) (now : UInt32) :
    Related Calm ch (ch.updateConnectionStates now) :=
  Related.driven_trans (.map fun c _ => Calm.updateState c now) (related_noticeStateChanges _)

/-- The connection with an id is acted on. -/
theorem related_modify (ch : Channel ρ) (id : Nat) {f : Connection ρ → Connection ρ}
    {rel : Connection ρ → Connection ρ → Prop} (refl : ∀ c, rel c c)
    (acts : ∀ c ∈ ch.connections, c.id = id → rel c (f c)) : Related rel ch (ch.modify id f) := by
  refine .map fun c live => ?_
  split
  · next here => exact acts c live here
  · exact refl c

/-- A relation that does not see what is calm. -/
def Absorbs (rel : Connection ρ → Connection ρ → Prop) : Prop :=
  ∀ c c' c'', rel c c' → Calm c' c'' → rel c c''

theorem Related.then_calm {rel : Connection ρ → Connection ρ → Prop} {ch ch' ch'' : Channel ρ}
    (related : Related rel ch ch') (calm : Related Calm ch' ch'') (refl : ∀ c, rel c c)
    (absorbs : Absorbs rel) : Related rel ch ch'' :=
  (related.trans calm refl).mono fun c c'' ⟨c', first, second⟩ => absorbs c c' c'' first second

theorem related_stepConnection (ch : Channel ρ) (id : Nat) {f : Connection ρ → Connection ρ}
    {rel : Connection ρ → Connection ρ → Prop} (refl : ∀ c, rel c c) (absorbs : Absorbs rel)
    (acts : ∀ c ∈ ch.connections, c.id = id → rel c (f c)) :
    Related rel ch (ch.stepConnection id f) :=
  (related_modify ch id refl acts).then_calm (related_noticeStateChanges _) refl absorbs

theorem absorbs_calm : Absorbs (Calm : Connection ρ → Connection ρ → Prop) :=
  fun _ _ _ => Driven.trans

theorem related_calm_stepConnection (ch : Channel ρ) (id : Nat)
    {f : Connection ρ → Connection ρ} (acts : ∀ c, Calm c (f c)) :
    Related Calm ch (ch.stepConnection id f) :=
  related_stepConnection ch id .refl absorbs_calm fun c _ _ => acts c

section Sorting

variable [Mul ρ] [LT ρ] [DecidableLT ρ]

theorem related_chooseBest (ch : Channel ρ) (now : UInt32) : Related Calm ch (ch.chooseBest now) := by
  have clean : Related Calm (ch.updateConnectionStates now)
      { ch.updateConnectionStates now with sortDirty := false } :=
    .of_subset rfl (List.Subset.refl _)
  have sorted (ch : Channel ρ) : Related Calm ch ch.sorted :=
    .of_subset rfl (List.perm_insertionSort _ _).subset
  have switched (ch : Channel ρ) : Related Calm ch ch.switchBestConnection := by
    unfold switchBestConnection
    split <;> exact .of_subset rfl (List.Subset.refl _)
  exact (related_updateConnectionStates ch now).driven_trans
    (clean.driven_trans ((sorted _).driven_trans (switched _)))

theorem related_pruneNetwork (ch : Channel ρ) (network : Nat) :
    Related Calm ch (ch.pruneNetwork network) := by
  have same : Related Calm ch ch := .of_subset rfl (List.Subset.refl _)
  unfold pruneNetwork
  split
  · exact same
  · split
    · exact same
    · refine .map fun c _ => ?_
      exact (Calm.prune c).ite

theorem related_pruneConnections (ch : Channel ρ) : Related Calm ch ch.pruneConnections := by
  have networks (networks : List Nat) (ch : Channel ρ) :
      Related Calm ch (networks.foldl pruneNetwork ch) := by
    induction networks generalizing ch with
    | nil => exact .of_subset rfl (List.Subset.refl _)
    | cons network rest ih => exact (related_pruneNetwork ch network).driven_trans (ih _)
  exact (networks _ ch).driven_trans (related_noticeStateChanges _)

theorem related_sortConnections (ch : Channel ρ) (now : UInt32) :
    Related Calm ch (ch.sortConnections now) := by
  have counted (ch : Channel ρ) : Related Calm ch ch.countStates := by
    unfold countStates handleWritable handleNotWritable handleAllTimedOut allocate
    split_ifs <;> exact .of_subset rfl (List.Subset.refl _)
  have updated (ch : Channel ρ) : Related Calm ch ch.updateChannelState :=
    .of_subset rfl (List.Subset.refl _)
  exact (related_chooseBest ch now).driven_trans
    ((related_pruneConnections _).driven_trans ((counted _).driven_trans (updated _)))

theorem Related.step {rel : Connection ρ → Connection ρ → Prop} {ch : Channel ρ}
    {event : Event ρ} {now : UInt32} (handled : Related rel ch (ch.handle event now).2)
    (refl : ∀ c, rel c c) (absorbs : Absorbs rel) : Related rel ch (ch.step ⟨event, now⟩) := by
  unfold Channel.step
  dsimp only
  split
  · next ch' result =>
    rw [result] at handled
    exact handled.then_calm (related_sortConnections _ now) refl absorbs
  · next ch' result =>
    rw [result] at handled
    exact handled

end Sorting

/-! ## Making connections -/

theorem related_same (ch : Channel ρ) : Related Calm ch ch :=
  .of_subset rfl (List.Subset.refl _)

/-- A new connection is as it is made. -/
theorem related_append {rel : Connection ρ → Connection ρ → Prop} (refl : ∀ c, rel c c)
    (ch : Channel ρ) (port : Port ρ) (remote : Candidate ρ) (connected : Bool) :
    Related rel ch { ch with
      connections := ch.connections ++ [.new ch.nextConnection port remote connected]
      nextConnection := ch.nextConnection + 1 } where
  next := Nat.le_succ _
  earlier c member := by
    obtain old | new := List.mem_append.mp member
    · exact ⟨c, .inl old, refl c⟩
    · obtain rfl := List.mem_singleton.mp new
      exact ⟨_, .inr ⟨Nat.le_refl _, port, remote, connected, rfl⟩, refl _⟩

theorem related_createConnection (ch : Channel ρ) (port : Port ρ) (remote : Candidate ρ)
    (originPort : Option Nat) :
    Related Calm ch (ch.createConnection port remote originPort none).2 := by
  unfold createConnection
  split
  · split <;> exact related_same ch
  · dsimp only
    split
    · exact related_same ch
    · split
      · exact related_same ch
      · exact related_append .refl ch port remote _

theorem related_rememberRemoteCandidate (ch : Channel ρ) (remote : Candidate ρ)
    (originPort : Option Nat) : Related Calm ch (ch.rememberRemoteCandidate remote originPort) := by
  unfold rememberRemoteCandidate
  dsimp only
  split <;> exact .of_subset rfl (List.Subset.refl _)

theorem related_createConnections (ch : Channel ρ) (remote : Candidate ρ) :
    Related Calm ch (ch.createConnections remote none none).2 := by
  have made (ports : List (Port ρ)) (ch : Channel ρ) :
      Related Calm ch (createFrom remote none none ports ch).2 := by
    induction ports generalizing ch with
    | nil => exact related_same ch
    | cons port rest ih =>
      exact (related_createConnection ch port remote none).driven_trans (ih _)
  exact (made _ ch).driven_trans (related_rememberRemoteCandidate _ remote none)

theorem related_onPortReady (ch : Channel ρ) (port : Port ρ) :
    Related Calm ch (ch.onPortReady port) := by
  have added : Related Calm ch { ch with ports := ch.ports ++ [port] } :=
    .of_subset rfl (List.Subset.refl _)
  have made (remotes : List (Candidate ρ × Option Nat)) (ch : Channel ρ) :
      Related Calm ch (remotes.foldl
        (fun ch r => (ch.createConnection port r.1 r.2 none).2) ch) := by
    induction remotes generalizing ch with
    | nil => exact related_same ch
    | cons r rest ih => exact (related_createConnection ch port r.1 r.2).driven_trans (ih _)
  exact added.driven_trans (made _ _)

/-- Nothing but pings and packets makes a difference. -/
theorem related_internal (ch : Channel ρ) (event : Internal ρ) (now : UInt32) :
    Related Calm ch (ch.handle event.event now).2 := by
  have subset {ch' : Channel ρ} (next : ch'.nextConnection = ch.nextConnection)
      (subset : ch'.connections ⊆ ch.connections) : Related Calm ch ch' := .of_subset next subset
  cases event with
  | connect | portDestroyed | sort | allocate => exact subset rfl (List.Subset.refl _)
  | signalingReady =>
    unfold Internal.event handle
    dsimp only
    split <;> exact subset rfl (List.Subset.refl _)
  | portReady port => exact related_onPortReady ch port
  | candidate remote => exact related_createConnections ch remote
  | connected id =>
    exact related_calm_stepConnection ch id fun c => .of_same rfl rfl rfl rfl rfl
  | closed id => exact related_calm_stepConnection ch id Calm.onClose
  | destroyConnection id => exact related_calm_stepConnection ch id Calm.destroy
  | deleteConnection id =>
    unfold Internal.event handle
    dsimp only
    split
    · exact related_same ch
    · dsimp only
      split
      · exact related_same ch
      · have removed : Related Calm ch
            { ch with connections := ch.connections.filter fun c => c.id ≠ id } :=
          subset rfl List.filter_sublist.subset
        unfold onConnectionDestroyed
        dsimp only
        split
        · have cleared : Related Calm ch { ch with
              connections := ch.connections.filter fun c => c.id ≠ id
              bestConnection := none } := subset rfl List.filter_sublist.subset
          exact cleared.driven_trans (related_requestSort _)
        · exact removed
  | reset connectRequested =>
    unfold Internal.event handle reset
    dsimp only
    split <;> exact subset rfl (List.nil_subset _)

end Channel

end Libjingle.P2P

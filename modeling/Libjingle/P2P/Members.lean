import Libjingle.P2P.Channel
import Libjingle.Std.Trace

/-!
# The connections of a channel

Ids tell connections apart, they are never used twice, and `best_connection_` is
always one of the connections. No operation on a connection changes its id, its
port or its remote candidate.
-/

namespace Libjingle.P2P

open Libjingle.Std

variable {ρ : Type}

namespace Connection

/-- What stays the same for as long as a connection lives. -/
def identity (c : Connection ρ) : Nat × Port ρ × Candidate ρ :=
  (c.id, c.port, c.remote)

theorem id_eq {c c' : Connection ρ} (same : c.identity = c'.identity) : c.id = c'.id :=
  congrArg Prod.fst same

theorem port_eq {c c' : Connection ρ} (same : c.identity = c'.identity) : c.port = c'.port :=
  congrArg (·.2.1) same

theorem remote_eq {c c' : Connection ρ} (same : c.identity = c'.identity) :
    c.remote = c'.remote :=
  congrArg (·.2.2) same

@[simp] theorem checkTimeout_identity (c : Connection ρ) :
    c.checkTimeout.identity = c.identity := by
  unfold checkTimeout
  split <;> rfl

@[simp] theorem setReadState_identity (c : Connection ρ) (value : ReadState) :
    (c.setReadState value).identity = c.identity := by
  unfold setReadState
  split
  · exact checkTimeout_identity _
  · rfl

@[simp] theorem setWriteState_identity (c : Connection ρ) (value : WriteState) :
    (c.setWriteState value).identity = c.identity := by
  unfold setWriteState
  split
  · exact checkTimeout_identity _
  · rfl

@[simp] theorem receivedPing_identity (c : Connection ρ) (now : UInt32) :
    (c.receivedPing now).identity = c.identity :=
  setReadState_identity _ _

@[simp] theorem prune_identity (c : Connection ρ) : c.prune.identity = c.identity := by
  unfold prune
  split
  · rfl
  · exact setWriteState_identity _ _

@[simp] theorem destroy_identity (c : Connection ρ) : c.destroy.identity = c.identity := by
  simp [destroy]

@[simp] theorem updateState_identity (c : Connection ρ) (now : UInt32) :
    (c.updateState now).identity = c.identity := by
  unfold updateState
  simp only [apply_ite identity, setReadState_identity, setWriteState_identity, ite_self]

@[simp] theorem ping_identity (c : Connection ρ) (request : Nat) (now : UInt32) :
    (c.ping request now).identity = c.identity := rfl

@[simp] theorem onRequestMessage_identity (c : Connection ρ) (request : Nat) (now : UInt32) :
    (c.onRequestMessage request now).identity = c.identity := by
  unfold onRequestMessage
  split
  · rfl
  · split <;> rfl

theorem onConnectionRequestResponse_identity (c : Connection ρ) (r : ConnectionRequest)
    (now : UInt32) : (c.onConnectionRequestResponse r now).identity = c.identity :=
  setWriteState_identity c .writable

theorem onConnectionRequestErrorResponse_identity (c : Connection ρ) (errorCode : Option Nat) :
    (c.onConnectionRequestErrorResponse errorCode).identity = c.identity := by
  unfold onConnectionRequestErrorResponse
  simp only [apply_ite identity, setWriteState_identity, ite_self]

@[simp] theorem restart_identity (c : Connection ρ) : c.restart.identity = c.identity := by
  unfold restart
  split
  · exact setWriteState_identity _ _
  · rfl

@[simp] theorem onReadPacket_identity (c : Connection ρ) (packet : Packet) (now : UInt32) :
    (c.onReadPacket packet now).identity = c.identity := by
  cases packet with
  | data =>
    simp only [onReadPacket]
    split
    · exact restart_identity _
    · rfl
  | handled => rfl
  | foreign => rfl
  | bindingRequest => simp [onReadPacket]
  | bindingResponse request =>
    simp only [onReadPacket]
    split
    · rfl
    · next r found => exact onConnectionRequestResponse_identity c r now
  | bindingErrorResponse request errorCode =>
    simp only [onReadPacket]
    split
    · rfl
    · exact onConnectionRequestErrorResponse_identity c errorCode

@[simp] theorem onConnect_identity (c : Connection ρ) : c.onConnect.identity = c.identity := rfl

@[simp] theorem onClose_identity (c : Connection ρ) : c.onClose.identity = c.identity :=
  setWriteState_identity _ _

end Connection

namespace Channel

def ids (ch : Channel ρ) : List Nat :=
  ch.connections.map (·.id)

theorem find_eq_some_iff {ch : Channel ρ} (nodup : ch.ids.Nodup) {id : Nat} {c : Connection ρ} :
    ch.find id = some c ↔ c ∈ ch.connections ∧ c.id = id := by
  unfold ids at nodup
  unfold find
  generalize ch.connections = l at nodup ⊢
  induction l with
  | nil => simp
  | cons first rest ih =>
    obtain ⟨unlisted, nodup⟩ := List.nodup_cons.mp nodup
    by_cases found : first.id = id
    · rw [List.find?_cons_of_pos (by simpa using found), Option.some.injEq]
      constructor
      · rintro rfl
        exact ⟨List.mem_cons_self, found⟩
      · rintro ⟨mem, named⟩
        rcases List.mem_cons.mp mem with rfl | later
        · rfl
        · exact absurd (List.mem_map.mpr ⟨c, later, named.trans found.symm⟩) unlisted
    · rw [List.find?_cons_of_neg (by simpa using found), ih nodup]
      constructor
      · exact fun ⟨mem, named⟩ => ⟨List.mem_cons_of_mem _ mem, named⟩
      · rintro ⟨mem, named⟩
        rcases List.mem_cons.mp mem with rfl | later
        · exact absurd named found
        · exact ⟨later, named⟩

/-- A connection is found wherever it stands. -/
theorem find_perm {ch ch' : Channel ρ} (nodup : ch.ids.Nodup)
    (same : ch'.connections.Perm ch.connections) (id : Nat) : ch'.find id = ch.find id := by
  have nodup' : ch'.ids.Nodup := (same.map _).nodup_iff.mpr nodup
  ext c
  rw [find_eq_some_iff nodup, find_eq_some_iff nodup', same.mem_iff]

/-- What holds of the connections of a channel at all times. -/
structure Valid (ch : Channel ρ) : Prop where
  nodup : ch.ids.Nodup
  fresh : ∀ id ∈ ch.ids, id < ch.nextConnection
  best : ∀ id, ch.bestConnection = some id → id ∈ ch.ids

/-- Two channels with the same members, which may be in another order and state. -/
structure SameMembers (ch ch' : Channel ρ) : Prop where
  ids : ch'.ids.Perm ch.ids
  best : ch'.bestConnection = ch.bestConnection
  next : ch'.nextConnection = ch.nextConnection

theorem valid_new (incomingOnly : Bool) : (new incomingOnly : Channel ρ).Valid where
  nodup := List.nodup_nil
  fresh _ mem := absurd mem List.not_mem_nil
  best _ best := nomatch best

namespace SameMembers

theorem refl (ch : Channel ρ) : SameMembers ch ch :=
  ⟨List.Perm.refl _, rfl, rfl⟩

theorem trans {ch ch' ch'' : Channel ρ} (first : SameMembers ch ch')
    (second : SameMembers ch' ch'') : SameMembers ch ch'' :=
  ⟨second.ids.trans first.ids, second.best.trans first.best, second.next.trans first.next⟩

theorem valid {ch ch' : Channel ρ} (same : SameMembers ch ch') (valid : ch.Valid) :
    ch'.Valid where
  nodup := same.ids.nodup_iff.mpr valid.nodup
  fresh id mem := by
    rw [same.next]
    exact valid.fresh id (same.ids.mem_iff.mp mem)
  best id best := same.ids.mem_iff.mpr (valid.best id (same.best ▸ best))

end SameMembers

/-- The connections change, but not which they are. -/
theorem sameMembers_map (ch : Channel ρ) (f : Connection ρ → Connection ρ)
    (keeps : ∀ c, (f c).identity = c.identity) :
    SameMembers ch { ch with connections := ch.connections.map f } where
  ids := by
    have same : (·.id) ∘ f = (·.id : Connection ρ → Nat) :=
      funext fun c => Connection.id_eq (keeps c)
    simp [ids, same]
  best := rfl
  next := rfl

theorem sameMembers_modify (ch : Channel ρ) (id : Nat) (f : Connection ρ → Connection ρ)
    (keeps : ∀ c, (f c).identity = c.identity) : SameMembers ch (ch.modify id f) := by
  refine sameMembers_map ch _ fun c => ?_
  split
  · exact keeps c
  · rfl

theorem sameMembers_requestSort (ch : Channel ρ) : SameMembers ch ch.requestSort := by
  unfold requestSort
  split
  · exact .refl _
  · exact ⟨List.Perm.refl _, rfl, rfl⟩

theorem sameMembers_noticeStateChanges (ch : Channel ρ) :
    SameMembers ch ch.noticeStateChanges := by
  have noticed := sameMembers_map ch (fun c => { c with signalled := false }) fun _ => rfl
  unfold noticeStateChanges
  split
  · exact noticed.trans (sameMembers_requestSort _)
  · exact noticed

theorem sameMembers_updateConnectionStates (ch : Channel ρ) (now : UInt32) :
    SameMembers ch (ch.updateConnectionStates now) :=
  (sameMembers_map ch _ fun c => c.updateState_identity now).trans
    (sameMembers_noticeStateChanges _)

theorem sameMembers_stepConnection (ch : Channel ρ) (id : Nat)
    (f : Connection ρ → Connection ρ) (keeps : ∀ c, (f c).identity = c.identity) :
    SameMembers ch (ch.stepConnection id f) :=
  (sameMembers_modify ch id f keeps).trans (sameMembers_noticeStateChanges _)

theorem sameMembers_receivedPing (ch : Channel ρ) (id : Nat) (readable : Option UInt32) :
    SameMembers ch (ch.receivedPing id readable) := by
  cases readable with
  | none => exact .refl _
  | some now => exact sameMembers_modify ch id _ fun c => c.receivedPing_identity now

theorem sameMembers_countStates (ch : Channel ρ) : SameMembers ch ch.countStates := by
  unfold countStates handleWritable handleNotWritable handleAllTimedOut allocate
  split_ifs <;> exact ⟨List.Perm.refl _, rfl, rfl⟩

theorem sameMembers_updateChannelState (ch : Channel ρ) :
    SameMembers ch ch.updateChannelState :=
  ⟨List.Perm.refl _, rfl, rfl⟩

/-! ## Sorting -/

section Sorting

variable [Mul ρ] [LT ρ] [DecidableLT ρ]

theorem sameMembers_sorted (ch : Channel ρ) : SameMembers ch ch.sorted where
  ids := (List.perm_insertionSort _ ch.connections).map _
  best := rfl
  next := rfl

theorem Valid.switchBestConnection {ch : Channel ρ} (valid : ch.Valid) :
    ch.switchBestConnection.Valid := by
  unfold Channel.switchBestConnection
  split
  · refine ⟨valid.nodup, valid.fresh, fun id best => ?_⟩
    obtain ⟨c, head, rfl⟩ := Option.map_eq_some_iff.mp best
    exact List.mem_map_of_mem (List.mem_of_head? head)
  · exact valid

theorem Valid.chooseBest {ch : Channel ρ} (valid : ch.Valid) (now : UInt32) :
    (ch.chooseBest now).Valid := by
  have updated := (sameMembers_updateConnectionStates ch now).valid valid
  have clean : { ch.updateConnectionStates now with sortDirty := false }.Valid :=
    ⟨updated.nodup, updated.fresh, updated.best⟩
  exact ((sameMembers_sorted _).valid clean).switchBestConnection

theorem sameMembers_pruneNetwork (ch : Channel ρ) (network : Nat) :
    SameMembers ch (ch.pruneNetwork network) := by
  unfold pruneNetwork
  split
  · exact .refl _
  · split
    · exact .refl _
    · refine sameMembers_map ch _ fun c => ?_
      split
      · exact c.prune_identity
      · rfl

theorem sameMembers_pruneNetworks (ch : Channel ρ) (networks : List Nat) :
    SameMembers ch (networks.foldl pruneNetwork ch) := by
  induction networks generalizing ch with
  | nil => exact .refl _
  | cons network rest ih => exact (sameMembers_pruneNetwork ch network).trans (ih _)

theorem sameMembers_pruneConnections (ch : Channel ρ) :
    SameMembers ch ch.pruneConnections :=
  (sameMembers_pruneNetworks ch _).trans (sameMembers_noticeStateChanges _)

theorem Valid.sortConnections {ch : Channel ρ} (valid : ch.Valid) (now : UInt32) :
    (ch.sortConnections now).Valid := by
  have pruned := (sameMembers_pruneConnections (ch.chooseBest now)).trans
    (sameMembers_countStates _)
  exact (sameMembers_updateChannelState _).valid (pruned.valid (valid.chooseBest now))

end Sorting

/-! ## Events -/

/-- A new connection has an id that none had before. -/
theorem Valid.append {ch : Channel ρ} (valid : ch.Valid) (port : Port ρ)
    (remote : Candidate ρ) (connected : Bool) :
    { ch with
      connections := ch.connections ++ [Connection.new ch.nextConnection port remote connected]
      nextConnection := ch.nextConnection + 1 }.Valid := by
  have unused : ch.nextConnection ∉ ch.ids := fun mem => lt_irrefl _ (valid.fresh _ mem)
  refine ⟨?_, fun id mem => ?_, fun id best => ?_⟩
  · simp only [ids, List.map_append, List.map_cons, List.map_nil]
    exact List.nodup_append.mpr ⟨valid.nodup, List.nodup_singleton _, fun a old b new same => by
      rw [same, List.mem_singleton.mp new] at old
      exact unused old⟩
  · simp only [ids, List.map_append, List.mem_append, List.map_cons, List.map_nil,
      List.mem_singleton] at mem
    rcases mem with old | rfl
    · exact Nat.lt_succ_of_lt (valid.fresh id old)
    · exact Nat.lt_succ_self _
  · simp only [ids, List.map_append, List.mem_append]
    exact Or.inl (valid.best id best)

theorem Valid.createConnection {ch : Channel ρ} (valid : ch.Valid) (port : Port ρ)
    (remote : Candidate ρ) (originPort : Option Nat) (readable : Option UInt32) :
    (ch.createConnection port remote originPort readable).2.Valid := by
  unfold Channel.createConnection
  split
  · split
    · exact (sameMembers_receivedPing ch _ readable).valid valid
    · exact valid
  · simp only
    split
    · exact valid
    · split
      · exact valid
      · exact (sameMembers_receivedPing _ _ readable).valid (valid.append port remote _)

theorem sameMembers_rememberRemoteCandidate (ch : Channel ρ) (remote : Candidate ρ)
    (originPort : Option Nat) : SameMembers ch (ch.rememberRemoteCandidate remote originPort) := by
  unfold rememberRemoteCandidate
  simp only
  split <;> exact ⟨List.Perm.refl _, rfl, rfl⟩

theorem Valid.createFrom {ch : Channel ρ} (valid : ch.Valid) (remote : Candidate ρ)
    (originPort : Option Nat) (readable : Option UInt32) (ports : List (Port ρ)) :
    (createFrom remote originPort readable ports ch).2.Valid := by
  induction ports generalizing ch with
  | nil => exact valid
  | cons port rest ih => exact ih (valid.createConnection port remote originPort readable)

theorem Valid.createConnections {ch : Channel ρ} (valid : ch.Valid) (remote : Candidate ρ)
    (originPort : Option (Port ρ)) (readable : Option UInt32) :
    (ch.createConnections remote originPort readable).2.Valid :=
  (sameMembers_rememberRemoteCandidate _ _ _).valid (valid.createFrom _ _ _ _)

theorem Valid.onPortReady {ch : Channel ρ} (valid : ch.Valid) (port : Port ρ) :
    (ch.onPortReady port).Valid := by
  unfold Channel.onPortReady
  have added : { ch with ports := ch.ports ++ [port] }.Valid :=
    ⟨valid.nodup, valid.fresh, valid.best⟩
  generalize { ch with ports := ch.ports ++ [port] } = grown at added ⊢
  induction ch.remoteCandidates generalizing grown with
  | nil => exact added
  | cons r rest ih => exact ih _ (added.createConnection port r.1 r.2 none)

theorem Valid.onUnknownAddress {ch : Channel ρ} (valid : ch.Valid) (port : Port ρ)
    (address : SocketAddress) (remoteUsername : String) (now : UInt32) :
    (ch.onUnknownAddress port address remoteUsername now).2.Valid := by
  unfold Channel.onUnknownAddress
  split
  · exact valid
  · next r found =>
    have created := valid.createConnections { r.1 with address := address } (some port)
      (some now)
    split
    · next ch' result =>
      rw [result] at created
      exact (sameMembers_noticeStateChanges _).valid created
    · next ch' result =>
      rw [result] at created
      split
      · exact (sameMembers_noticeStateChanges _).valid created
      · exact (sameMembers_stepConnection _ _ _ fun c => c.receivedPing_identity now).valid
          created

theorem Valid.onPing {ch : Channel ρ} (valid : ch.Valid) (request : Nat) (now : UInt32) :
    (ch.onPing request now).Valid := by
  have updated := (sameMembers_updateConnectionStates ch now).valid valid
  unfold Channel.onPing
  simp only
  split
  · exact updated
  · exact (sameMembers_modify _ _ _ fun c => c.ping_identity request now).valid updated

/-- A destroyed connection is not the best one any more. -/
theorem Valid.onConnectionDestroyed {ch : Channel ρ} (valid : ch.Valid) (id : Nat) :
    (ch.onConnectionDestroyed id).Valid := by
  have removed : List.Sublist
      ((ch.connections.filter fun c => c.id ≠ id).map (·.id)) ch.ids :=
    List.filter_sublist.map _
  unfold Channel.onConnectionDestroyed
  simp only
  split
  · refine (sameMembers_requestSort _).valid ⟨valid.nodup.sublist removed, ?_, ?_⟩
    · exact fun id mem => valid.fresh id (removed.subset mem)
    · exact fun id best => nomatch best
  · next other =>
    refine ⟨valid.nodup.sublist removed, fun id mem => valid.fresh id (removed.subset mem), ?_⟩
    intro best isBest
    obtain ⟨c, mem, rfl⟩ := List.mem_map.mp (valid.best best isBest)
    refine List.mem_map_of_mem (List.mem_filter.mpr ⟨mem, decide_eq_true ?_⟩)
    rintro rfl
    exact other isBest

theorem Valid.handle {ch : Channel ρ} (valid : ch.Valid) (event : Event ρ) (now : UInt32) :
    (ch.handle event now).2.Valid := by
  cases event with
  | connect => exact ⟨valid.nodup, valid.fresh, valid.best⟩
  | signalingReady =>
    simp only [Channel.handle]
    split <;> exact ⟨valid.nodup, valid.fresh, valid.best⟩
  | portReady port => exact valid.onPortReady port
  | portDestroyed port => exact ⟨valid.nodup, valid.fresh, valid.best⟩
  | candidate remote => exact valid.createConnections remote none none
  | unknownAddress port address remoteUsername =>
    exact valid.onUnknownAddress port address remoteUsername now
  | packet id packet =>
    exact (sameMembers_stepConnection ch id _ fun c => c.onReadPacket_identity packet now).valid
      valid
  | requestMessage id request =>
    exact (sameMembers_stepConnection ch id _ fun c =>
      c.onRequestMessage_identity request now).valid valid
  | connected id =>
    exact (sameMembers_stepConnection ch id _ fun c => c.onConnect_identity).valid valid
  | closed id =>
    exact (sameMembers_stepConnection ch id _ fun c => c.onClose_identity).valid valid
  | destroyConnection id =>
    exact (sameMembers_stepConnection ch id _ fun c => c.destroy_identity).valid valid
  | deleteConnection id =>
    simp only [Channel.handle]
    split
    · exact valid
    · simp only
      split
      · exact valid
      · exact valid.onConnectionDestroyed id
  | ping request => exact valid.onPing request now
  | sort => exact ⟨valid.nodup, valid.fresh, valid.best⟩
  | allocate => exact ⟨valid.nodup, valid.fresh, valid.best⟩
  | reset connectRequested =>
    simp only [Channel.handle, Channel.reset]
    split <;> exact ⟨List.nodup_nil, fun _ mem => absurd mem List.not_mem_nil,
      fun _ best => nomatch best⟩

variable [Mul ρ] [LT ρ] [DecidableLT ρ]

theorem Valid.step {ch : Channel ρ} (valid : ch.Valid) (stimulus : Stimulus ρ) :
    (ch.step stimulus).Valid := by
  have handled := valid.handle stimulus.event stimulus.now
  unfold Channel.step
  split
  · next ch' result =>
    rw [result] at handled
    exact handled.sortConnections stimulus.now
  · next ch' result =>
    rw [result] at handled
    exact handled

/-- Every reachable channel is valid. -/
theorem valid_of_run (incomingOnly : Bool) (stimuli : List (Stimulus ρ)) :
    (runInputs Channel.step (new incomingOnly) stimuli).Valid := by
  suffices ∀ ch : Channel ρ, ch.Valid → (runInputs Channel.step ch stimuli).Valid from
    this _ (valid_new incomingOnly)
  induction stimuli with
  | nil => exact fun _ valid => valid
  | cons stimulus rest ih => exact fun ch valid => ih _ (valid.step stimulus)

end Channel

end Libjingle.P2P

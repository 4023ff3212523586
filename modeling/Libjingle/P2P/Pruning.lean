import Libjingle.P2P.Members

/-!
# Pruning

The loop over the networks prunes each connection at most once: a connection on
one network does not change who is the primier of another. So the whole loop is
one pass over the connections, and the primiers themselves come out unchanged.
-/

namespace Libjingle.P2P

open Libjingle.Std

variable {ρ : Type}

namespace Connection

/-- `Prune` leaves a connection in `STATE_WRITE_TIMEOUT`, unless it was pruned before. -/
theorem prune_writeState (c : Connection ρ) :
    c.prune.writeState = if c.pruned then c.writeState else .writeTimeout := by
  unfold prune
  split
  · rfl
  · unfold setWriteState
    split
    · unfold checkTimeout
      split <;> rfl
    · next same => exact (not_not.mp same).symm

end Connection

namespace Channel

/-! ## Lookups after a change of the connections -/

theorem find_map (ch : Channel ρ) (f : Connection ρ → Connection ρ)
    (keeps : ∀ c, (f c).identity = c.identity) (id : Nat) :
    { ch with connections := ch.connections.map f }.find id = (ch.find id).map f := by
  have same : (fun c : Connection ρ => decide (c.id = id)) ∘ f = fun c => decide (c.id = id) :=
    funext fun c => by simp [Connection.id_eq (keeps c)]
  simp only [find, List.find?_map, same]

theorem best_map (ch : Channel ρ) (f : Connection ρ → Connection ρ)
    (keeps : ∀ c, (f c).identity = c.identity) :
    { ch with connections := ch.connections.map f }.best = ch.best.map f := by
  unfold best
  cases ch.bestConnection with
  | none => rfl
  | some id => exact find_map ch f keeps id

theorem getBestConnectionOnNetwork_map (ch : Channel ρ) (f : Connection ρ → Connection ρ)
    (keeps : ∀ c, (f c).identity = c.identity) (network : Nat) :
    { ch with connections := ch.connections.map f }.getBestConnectionOnNetwork network =
      (ch.getBestConnectionOnNetwork network).map f := by
  have on : (fun c : Connection ρ => decide (c.port.network = network)) ∘ f =
      fun c => decide (c.port.network = network) :=
    funext fun c => by simp [Connection.port_eq (keeps c)]
  unfold getBestConnectionOnNetwork
  rw [best_map ch f keeps]
  cases ch.best with
  | none => simp only [Option.map_none, List.find?_map, on]
  | some b =>
    simp only [Option.map_some, Connection.port_eq (keeps b), List.find?_map, on]
    split <;> rfl

theorem network_of_getBestConnectionOnNetwork {ch : Channel ρ} {network : Nat}
    {primier : Connection ρ} (is : ch.getBestConnectionOnNetwork network = some primier) :
    primier.port.network = network := by
  unfold getBestConnectionOnNetwork at is
  split at is
  · next b _ =>
    split at is
    · next on => exact Option.some.inj is ▸ on
    · simpa using List.find?_some is
  · simpa using List.find?_some is

theorem mem_of_best {ch : Channel ρ} {b : Connection ρ} (is : ch.best = some b) :
    b ∈ ch.connections := by
  obtain ⟨id, -, found⟩ := Option.bind_eq_some_iff.mp is
  exact List.mem_of_find?_eq_some found

/-- The best connection is the primier of its network. -/
theorem primier_of_best {ch : Channel ρ} {b : Connection ρ} (is : ch.best = some b) :
    ch.getBestConnectionOnNetwork b.port.network = some b := by
  unfold getBestConnectionOnNetwork
  rw [is]
  exact if_pos rfl

@[simp] theorem requestSort_connections (ch : Channel ρ) :
    ch.requestSort.connections = ch.connections := by
  unfold requestSort
  split <;> rfl

@[simp] theorem noticeStateChanges_connections (ch : Channel ρ) :
    ch.noticeStateChanges.connections =
      ch.connections.map fun c => { c with signalled := false } := by
  unfold noticeStateChanges
  split
  · exact requestSort_connections _
  · rfl

@[simp] theorem countStates_connections (ch : Channel ρ) :
    ch.countStates.connections = ch.connections := by
  unfold countStates handleWritable handleNotWritable handleAllTimedOut allocate
  split_ifs <;> rfl

@[simp] theorem countStates_bestConnection (ch : Channel ρ) :
    ch.countStates.bestConnection = ch.bestConnection :=
  (sameMembers_countStates ch).best

@[simp] theorem updateChannelState_connections (ch : Channel ρ) :
    ch.updateChannelState.connections = ch.connections := rfl

@[simp] theorem updateChannelState_bestConnection (ch : Channel ρ) :
    ch.updateChannelState.bestConnection = ch.bestConnection := rfl

/-- Lookups read the connections and `best_connection_` only. -/
theorem getBestConnectionOnNetwork_congr {ch ch' : Channel ρ}
    (connections : ch.connections = ch'.connections)
    (best : ch.bestConnection = ch'.bestConnection) (network : Nat) :
    ch.getBestConnectionOnNetwork network = ch'.getBestConnectionOnNetwork network := by
  have find : ch.find = ch'.find := funext fun id => by simp [Channel.find, connections]
  simp [getBestConnectionOnNetwork, Channel.best, find, connections, best]

/-! ## The loop -/

section Loop

variable [Mul ρ] [LT ρ] [DecidableLT ρ]

/-- The loop calls `Prune` on `c`: the primier of its network is writable, and `c`
cannot become better. -/
def outranked (ch : Channel ρ) (c : Connection ρ) : Bool :=
  match ch.getBestConnectionOnNetwork c.port.network with
  | none => false
  | some primier =>
      primier.writeState = .writable ∧ c.id ≠ primier.id ∧
        0 ≤ compareConnectionCandidates primier c

theorem outranked_iff {ch : Channel ρ} {c : Connection ρ} :
    ch.outranked c = true ↔ ∃ primier,
      ch.getBestConnectionOnNetwork c.port.network = some primier ∧
        primier.writeState = .writable ∧ c.id ≠ primier.id ∧
        0 ≤ compareConnectionCandidates primier c := by
  unfold outranked
  cases ch.getBestConnectionOnNetwork c.port.network with
  | none => simp
  | some primier => simp

theorem primier_not_outranked {ch : Channel ρ} {network : Nat} {primier : Connection ρ}
    (is : ch.getBestConnectionOnNetwork network = some primier) :
    ch.outranked primier = false := by
  rw [← network_of_getBestConnectionOnNetwork is] at is
  simp [outranked, is]

/-- A connection when the loop has passed it. -/
def passed (ch : Channel ρ) (c : Connection ρ) : Connection ρ :=
  if ch.outranked c then c.prune else c

@[simp] theorem passed_identity (ch : Channel ρ) (c : Connection ρ) :
    (ch.passed c).identity = c.identity := by
  unfold passed
  split
  · exact c.prune_identity
  · rfl

theorem passed_primier {ch : Channel ρ} {network : Nat} {primier : Connection ρ}
    (is : ch.getBestConnectionOnNetwork network = some primier) :
    ch.passed primier = primier := by
  simp [passed, primier_not_outranked is]

/-- One round of the loop passes the connections on its network. -/
theorem pruneNetwork_eq (ch : Channel ρ) (network : Nat) :
    ch.pruneNetwork network = { ch with
      connections := ch.connections.map fun c =>
        if c.port.network = network then ch.passed c else c } := by
  have all (f : Connection ρ → Connection ρ) (same : ∀ c, f c = c) :
      ch = { ch with connections := ch.connections.map f } := by
    simp [funext same]
  unfold pruneNetwork
  split
  · next missing =>
    refine all _ fun c => ?_
    split
    · next on => simp [passed, outranked, on, missing]
    · rfl
  · next primier is =>
    split
    · next unwritable =>
      refine all _ fun c => ?_
      split
      · next on => simp [passed, outranked, on, is, unwritable]
      · rfl
    · next writable =>
      congr 1
      refine List.map_congr_left fun c _ => ?_
      by_cases on : c.port.network = network
      · simp [passed, outranked, on, is, not_not.mp writable]
      · simp [on]

/-- A round on one network changes nothing for the connections on another. -/
theorem passed_pruneNetwork (ch : Channel ρ) {network : Nat} {c : Connection ρ}
    (other : c.port.network ≠ network) : (ch.pruneNetwork network).passed c = ch.passed c := by
  have same : (ch.pruneNetwork network).getBestConnectionOnNetwork c.port.network =
      ch.getBestConnectionOnNetwork c.port.network := by
    rw [pruneNetwork_eq, getBestConnectionOnNetwork_map]
    · cases is : ch.getBestConnectionOnNetwork c.port.network with
      | none => rfl
      | some primier => simp [network_of_getBestConnectionOnNetwork is, other]
    · intro c
      split
      · exact ch.passed_identity c
      · rfl
  simp [passed, outranked, same]

theorem pruneNetworks_eq (ch : Channel ρ) {networks : List Nat} (nodup : networks.Nodup) :
    networks.foldl pruneNetwork ch = { ch with
      connections := ch.connections.map fun c =>
        if c.port.network ∈ networks then ch.passed c else c } := by
  induction networks generalizing ch with
  | nil => simp
  | cons network rest ih =>
    obtain ⟨fresh, nodup⟩ := List.nodup_cons.mp nodup
    have rest_eq (connections : List (Connection ρ)) :
        { ch.pruneNetwork network with connections } = { ch with connections } := by
      rw [pruneNetwork_eq]
    rw [List.foldl_cons, ih _ nodup, rest_eq]
    congr 1
    rw [congrArg connections (ch.pruneNetwork_eq network), List.map_map]
    refine List.map_congr_left fun c _ => ?_
    by_cases on : c.port.network = network
    · have port : (ch.passed c).port = c.port := Connection.port_eq (ch.passed_identity c)
      simp [on, port, fresh]
    · simp [on, ch.passed_pruneNetwork on]

/-- A connection when the sort has passed it, and the channel has noticed. -/
def settled (ch : Channel ρ) (c : Connection ρ) : Connection ρ :=
  { ch.passed c with signalled := false }

@[simp] theorem settled_identity (ch : Channel ρ) (c : Connection ρ) :
    (ch.settled c).identity = c.identity :=
  ch.passed_identity c

@[simp] theorem settled_writeState (ch : Channel ρ) (c : Connection ρ) :
    (ch.settled c).writeState = (ch.passed c).writeState := rfl

theorem pruneConnections_connections (ch : Channel ρ) :
    ch.pruneConnections.connections =
      ch.connections.map ch.settled := by
  have all (c : Connection ρ) (mem : c ∈ ch.connections) : c.port.network ∈ ch.networks :=
    List.mem_dedup.mpr (List.mem_map_of_mem mem)
  have nodup : ch.networks.Nodup := List.nodup_dedup _
  unfold pruneConnections
  rw [pruneNetworks_eq ch nodup, noticeStateChanges_connections, List.map_map]
  refine List.map_congr_left fun c mem => ?_
  simp [all c mem, settled]

theorem pruneConnections_bestConnection (ch : Channel ρ) :
    ch.pruneConnections.bestConnection = ch.bestConnection :=
  (sameMembers_pruneConnections ch).best

theorem sortConnections_connections (ch : Channel ρ) (now : UInt32) :
    (ch.sortConnections now).connections =
      (ch.chooseBest now).connections.map (ch.chooseBest now).settled := by
  rw [← pruneConnections_connections, sortConnections, updateChannelState_connections,
    countStates_connections]

theorem sortConnections_bestConnection (ch : Channel ρ) (now : UInt32) :
    (ch.sortConnections now).bestConnection = (ch.chooseBest now).bestConnection := by
  rw [sortConnections, updateChannelState_bestConnection, countStates_bestConnection,
    pruneConnections_bestConnection]

/-- The primiers of the sorted channel are those that the loop went by. -/
theorem sortConnections_primier (ch : Channel ρ) (now : UInt32) (network : Nat) :
    (ch.sortConnections now).getBestConnectionOnNetwork network =
      ((ch.chooseBest now).getBestConnectionOnNetwork network).map fun primier =>
        { primier with signalled := false } := by
  have same : (ch.sortConnections now).getBestConnectionOnNetwork network =
      { ch.chooseBest now with
        connections := (ch.chooseBest now).connections.map
          (ch.chooseBest now).settled }.getBestConnectionOnNetwork network := by
    apply getBestConnectionOnNetwork_congr
    · exact sortConnections_connections ch now
    · exact sortConnections_bestConnection ch now
  rw [same, getBestConnectionOnNetwork_map _ _ (ch.chooseBest now).settled_identity]
  cases is : (ch.chooseBest now).getBestConnectionOnNetwork network with
  | none => rfl
  | some primier => simp [settled, passed_primier is]

/-! ## What the loop achieves -/

/-- Of the connections on a network with a writable primier, those that cannot become
better are in `STATE_WRITE_TIMEOUT`. -/
def Pruned (ch : Channel ρ) : Prop :=
  ∀ network primier, ch.getBestConnectionOnNetwork network = some primier →
    primier.writeState = .writable → ∀ c ∈ ch.connections, c.port.network = network →
    c.id ≠ primier.id → 0 ≤ compareConnectionCandidates primier c →
    c.writeState = .writeTimeout

/-- The connections that the loop calls `Prune` on a second time are in
`STATE_WRITE_TIMEOUT` still. -/
def NoneRevived (ch : Channel ρ) : Prop :=
  ∀ c ∈ ch.connections, ch.outranked c → c.pruned → c.writeState = .writeTimeout

theorem passed_writeState (ch : Channel ρ) (c : Connection ρ) :
    (ch.passed c).writeState =
      if ch.outranked c ∧ c.pruned = false then .writeTimeout else c.writeState := by
  unfold passed
  by_cases outranked : ch.outranked c
  · rw [if_pos outranked, c.prune_writeState]
    cases c.pruned <;> simp [outranked]
  · simp [outranked]

theorem compareConnectionCandidates_congr {a a' b b' : Connection ρ}
    (left : a.identity = a'.identity) (right : b.identity = b'.identity) :
    compareConnectionCandidates a b = compareConnectionCandidates a' b' := by
  simp [compareConnectionCandidates, Connection.port_eq left, Connection.port_eq right,
    Connection.remote_eq left, Connection.remote_eq right]

/-- Who is outranked is the same before and after the loop. -/
theorem outranked_settled (ch : Channel ρ) (now : UInt32) (c : Connection ρ) :
    (ch.sortConnections now).outranked ((ch.chooseBest now).settled c) =
      (ch.chooseBest now).outranked c := by
  have same := (ch.chooseBest now).settled_identity c
  unfold outranked
  rw [Connection.port_eq same, sortConnections_primier, Connection.id_eq same]
  cases (ch.chooseBest now).getBestConnectionOnNetwork c.port.network with
  | none => rfl
  | some primier =>
    have compare : compareConnectionCandidates { primier with signalled := false }
        ((ch.chooseBest now).settled c) = compareConnectionCandidates primier c :=
      compareConnectionCandidates_congr rfl same
    simp only [Option.map_some, compare]

theorem pruned_iff (ch : Channel ρ) :
    ch.Pruned ↔ ∀ c ∈ ch.connections, ch.outranked c → c.writeState = .writeTimeout := by
  constructor
  · intro pruned c mem outranked
    obtain ⟨primier, is, writable, other, better⟩ := outranked_iff.mp outranked
    exact pruned _ primier is writable c mem rfl other better
  · rintro timedOut network primier is writable c mem rfl other better
    exact timedOut c mem (outranked_iff.mpr ⟨primier, is, writable, other, better⟩)

/-- The sort prunes what it should exactly when it finds nothing revived. -/
theorem sortConnections_pruned_iff (ch : Channel ρ) (now : UInt32) :
    (ch.sortConnections now).Pruned ↔ (ch.chooseBest now).NoneRevived := by
  rw [pruned_iff, sortConnections_connections]
  constructor
  · intro timedOut c mem outranked pruned
    have after := timedOut _ (List.mem_map_of_mem mem)
      ((outranked_settled ch now c).trans outranked)
    rw [settled_writeState, passed_writeState] at after
    simpa [pruned] using after
  · intro noneRevived passed after outranked
    obtain ⟨c, mem, rfl⟩ := List.mem_map.mp after
    rw [outranked_settled] at outranked
    rw [settled_writeState, passed_writeState]
    cases pruned : c.pruned with
    | false => simp [outranked]
    | true => simpa [pruned] using noneRevived c mem outranked pruned

/-- The claim about one step: if it sorts, what should be pruned is. -/
def PrunesAll (ch : Channel ρ) (stimulus : Stimulus ρ) : Prop :=
  (ch.handle stimulus.event stimulus.now).1 = true → (ch.step stimulus).Pruned

/-- If the step sorts, none of the connections that the loop has pruned before, and
calls `Prune` on again, has left `STATE_WRITE_TIMEOUT` since. -/
def FindsNoneRevived (ch : Channel ρ) (stimulus : Stimulus ρ) : Prop :=
  (ch.handle stimulus.event stimulus.now).1 = true →
    ((ch.handle stimulus.event stimulus.now).2.chooseBest stimulus.now).NoneRevived

theorem prunesAll_iff (ch : Channel ρ) (stimulus : Stimulus ρ) :
    ch.PrunesAll stimulus ↔ ch.FindsNoneRevived stimulus := by
  unfold PrunesAll FindsNoneRevived step
  rcases ch.handle stimulus.event stimulus.now with ⟨sorts, ch'⟩
  cases sorts with
  | false => simp
  | true => simpa using sortConnections_pruned_iff ch' stimulus.now

/-- In a run every sort prunes all it should exactly when no sort finds a connection
that was pruned before and has been revived since. -/
theorem prunes_all_iff (incomingOnly : Bool) (stimuli : List (Stimulus ρ)) :
    Along step PrunesAll (new incomingOnly : Channel ρ) stimuli ↔
      Along step FindsNoneRevived (new incomingOnly : Channel ρ) stimuli :=
  along_congr prunesAll_iff _ _

end Loop

section Revival

def revivalPort : Port Nat where
  id := 0
  network := 0
  preference := 1
  generation := 0
  connects _ _ := some true

def revivalCandidate (port : BitVec 16) (preference : Nat) : Candidate Nat where
  name := "rtp"
  protocol := "udp"
  address := ⟨.v4 1, port⟩
  preference := preference
  username := "user"
  password := ""
  type := "local"
  generation := 0

/-- The better connection becomes writable and has the other one pruned. Its next ping
is refused, so the other one is pinged as well, and answers. -/
def revival : List (Event Nat × UInt32) :=
  [(.portReady revivalPort, 0), (.candidate (revivalCandidate 1 2), 0),
    (.candidate (revivalCandidate 2 1), 0), (.packet 0 .bindingRequest, 0),
    (.packet 1 .bindingRequest, 0), (.sort, 0),
    (.ping 10, 5000), (.requestMessage 0 10, 5000), (.packet 0 (.bindingResponse 10), 5100),
    (.sort, 5100), (.sort, 5100),
    (.ping 11, 15000), (.requestMessage 0 11, 15000),
    (.packet 0 (.bindingErrorResponse 11 none), 15100), (.sort, 15100),
    (.ping 20, 25000), (.requestMessage 1 20, 25000), (.packet 1 (.bindingResponse 20), 25100),
    (.sort, 25100),
    -- The better connection is heard of once more, and pinged after the clock has wrapped.
    (.packet 0 .bindingRequest, 31000), (.sort, 31000),
    (.ping 30, 35000), (.requestMessage 0 30, 35000), (.packet 0 (.bindingResponse 30), 35100)]

/-- A run that starts half a minute before the clock wraps. -/
def revivalRun : List (Stimulus Nat) :=
  revival.map fun (event, time) => ⟨event, time - 30500⟩

/-- Both connections are writable after the sort at the end. -/
theorem revived_connection_not_pruned :
    ¬ Along step PrunesAll (new false) (revivalRun ++ [⟨.sort, 35100 - 30500⟩]) := by
  intro along
  have pruned := (pruned_iff _).mp (along.last rfl)
  revert pruned
  decide +kernel

end Revival

end Channel

end Libjingle.P2P

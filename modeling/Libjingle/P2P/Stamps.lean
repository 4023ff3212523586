import Libjingle.P2P.Members

/-!
# When a connection was pinged last

Only `Ping` sets `last_ping_sent_`, and only `OnPing` calls it. What any other event leaves of the
connections of a channel was pinged when it was before, and what it adds has an id of its own.
-/

namespace Libjingle.P2P

open Libjingle.Std

variable {ρ : Type}

namespace Connection

/-- Which connection was pinged when. -/
def sent (c : Connection ρ) : Nat × UInt32 :=
  (c.id, c.lastPingSent)

@[simp] theorem checkTimeout_sent (c : Connection ρ) : c.checkTimeout.sent = c.sent := by
  unfold checkTimeout
  split <;> rfl

@[simp] theorem setReadState_sent (c : Connection ρ) (value : ReadState) :
    (c.setReadState value).sent = c.sent := by
  unfold setReadState
  split
  · exact checkTimeout_sent _
  · rfl

@[simp] theorem setWriteState_sent (c : Connection ρ) (value : WriteState) :
    (c.setWriteState value).sent = c.sent := by
  unfold setWriteState
  split
  · exact checkTimeout_sent _
  · rfl

@[simp] theorem receivedPing_sent (c : Connection ρ) (now : UInt32) :
    (c.receivedPing now).sent = c.sent :=
  setReadState_sent _ _

@[simp] theorem prune_sent (c : Connection ρ) : c.prune.sent = c.sent := by
  unfold prune
  split
  · rfl
  · exact setWriteState_sent _ _

@[simp] theorem destroy_sent (c : Connection ρ) : c.destroy.sent = c.sent := by
  simp [destroy]

@[simp] theorem updateState_sent (c : Connection ρ) (now : UInt32) :
    (c.updateState now).sent = c.sent := by
  unfold updateState
  simp only [apply_ite sent, setReadState_sent, setWriteState_sent, ite_self]

@[simp] theorem onRequestMessage_sent (c : Connection ρ) (request : Nat) (now : UInt32) :
    (c.onRequestMessage request now).sent = c.sent := by
  unfold onRequestMessage
  split
  · rfl
  · split <;> rfl

theorem onConnectionRequestResponse_sent (c : Connection ρ) (r : ConnectionRequest)
    (now : UInt32) : (c.onConnectionRequestResponse r now).sent = c.sent :=
  setWriteState_sent c .writable

theorem onConnectionRequestErrorResponse_sent (c : Connection ρ) (errorCode : Option Nat) :
    (c.onConnectionRequestErrorResponse errorCode).sent = c.sent := by
  unfold onConnectionRequestErrorResponse
  simp only [apply_ite sent, setWriteState_sent, ite_self]

@[simp] theorem restart_sent (c : Connection ρ) : c.restart.sent = c.sent := by
  unfold restart
  split
  · exact setWriteState_sent _ _
  · rfl

@[simp] theorem onReadPacket_sent (c : Connection ρ) (packet : Packet) (now : UInt32) :
    (c.onReadPacket packet now).sent = c.sent := by
  cases packet with
  | data =>
    simp only [onReadPacket]
    split
    · exact restart_sent _
    · rfl
  | handled => rfl
  | foreign => rfl
  | bindingRequest => simp [onReadPacket]
  | bindingResponse request =>
    simp only [onReadPacket]
    split
    · rfl
    · next r found => exact onConnectionRequestResponse_sent c r now
  | bindingErrorResponse request errorCode =>
    simp only [onReadPacket]
    split
    · rfl
    · exact onConnectionRequestErrorResponse_sent c errorCode

@[simp] theorem onClose_sent (c : Connection ρ) : c.onClose.sent = c.sent :=
  setWriteState_sent _ _

end Connection

namespace Channel

/-- Whether an event is the timer of `OnPing`. -/
def isPing : Event ρ → Bool
  | .ping _ => true
  | _ => false

/-- What was there was pinged when it was before, and what is new has a new id. -/
structure Keeps (ch ch' : Channel ρ) : Prop where
  next : ch.nextConnection ≤ ch'.nextConnection
  sent : ∀ c' ∈ ch'.connections,
    (∃ c ∈ ch.connections, c'.sent = c.sent) ∨ ch.nextConnection ≤ c'.id

namespace Keeps

variable {ch ch' ch'' : Channel ρ}

theorem trans (first : Keeps ch ch') (second : Keeps ch' ch'') : Keeps ch ch'' where
  next := first.next.trans second.next
  sent c'' mem := by
    rcases second.sent c'' mem with ⟨c', mem, same⟩ | fresh
    · rcases first.sent c' mem with ⟨c, mem, same'⟩ | fresh
      · exact .inl ⟨c, mem, same.trans same'⟩
      · exact .inr (fresh.trans_eq (congrArg Prod.fst same).symm)
    · exact .inr (first.next.trans fresh)

theorem of_subset (next : ch'.nextConnection = ch.nextConnection)
    (subset : ch'.connections ⊆ ch.connections) : Keeps ch ch' where
  next := next.ge
  sent c mem := .inl ⟨c, subset mem, rfl⟩

theorem same (next : ch'.nextConnection = ch.nextConnection)
    (connections : ch'.connections = ch.connections) : Keeps ch ch' :=
  of_subset next (connections ▸ List.Subset.refl _)

theorem refl (ch : Channel ρ) : Keeps ch ch :=
  same rfl rfl

theorem map {f : Connection ρ → Connection ρ} (acts : ∀ c, (f c).sent = c.sent) :
    Keeps ch { ch with connections := ch.connections.map f } where
  next := le_rfl
  sent c' mem := by
    obtain ⟨c, listed, rfl⟩ := List.mem_map.mp mem
    exact .inl ⟨c, listed, acts c⟩

theorem modify (id : Nat) {f : Connection ρ → Connection ρ} (acts : ∀ c, (f c).sent = c.sent) :
    Keeps ch (ch.modify id f) := by
  refine map fun c => ?_
  split
  · exact acts c
  · rfl

theorem requestSort (ch : Channel ρ) : Keeps ch ch.requestSort := by
  unfold Channel.requestSort
  split <;> exact same rfl rfl

theorem noticeStateChanges (ch : Channel ρ) : Keeps ch ch.noticeStateChanges := by
  have noticed : Keeps ch
      { ch with connections := ch.connections.map fun c => { c with signalled := false } } :=
    map fun _ => rfl
  unfold Channel.noticeStateChanges
  simp only
  split
  · exact noticed.trans (requestSort _)
  · exact noticed

theorem updateConnectionStates (ch : Channel ρ) (now : UInt32) :
    Keeps ch (ch.updateConnectionStates now) :=
  (map fun c => c.updateState_sent now).trans (noticeStateChanges _)

theorem stepConnection (id : Nat) {f : Connection ρ → Connection ρ}
    (acts : ∀ c, (f c).sent = c.sent) : Keeps ch (ch.stepConnection id f) :=
  (modify id acts).trans (noticeStateChanges _)

theorem receivedPing (ch : Channel ρ) (id : Nat) (readable : Option UInt32) :
    Keeps ch (ch.receivedPing id readable) := by
  cases readable with
  | none => exact refl ch
  | some now => exact modify id fun c => c.receivedPing_sent now

/-! ## Making connections -/

theorem append (ch : Channel ρ) (port : Port ρ) (remote : Candidate ρ) (connected : Bool) :
    Keeps ch { ch with
      connections := ch.connections ++ [.new ch.nextConnection port remote connected]
      nextConnection := ch.nextConnection + 1 } where
  next := Nat.le_succ _
  sent c mem := by
    rcases List.mem_append.mp mem with old | new
    · exact .inl ⟨c, old, rfl⟩
    · rw [List.mem_singleton.mp new]
      exact .inr le_rfl

theorem createConnection (ch : Channel ρ) (port : Port ρ) (remote : Candidate ρ)
    (originPort : Option Nat) (readable : Option UInt32) :
    Keeps ch (ch.createConnection port remote originPort readable).2 := by
  unfold Channel.createConnection
  split
  · split
    · exact receivedPing ch _ readable
    · exact refl ch
  · simp only
    split
    · exact refl ch
    · split
      · exact refl ch
      · exact (append ch port remote _).trans (receivedPing _ _ readable)

theorem createFrom (remote : Candidate ρ) (originPort : Option Nat) (readable : Option UInt32)
    (ports : List (Port ρ)) (ch : Channel ρ) :
    Keeps ch (createFrom remote originPort readable ports ch).2 := by
  induction ports generalizing ch with
  | nil => exact refl ch
  | cons port rest ih => exact (createConnection ch port remote _ _).trans (ih _)

theorem createConnections (ch : Channel ρ) (remote : Candidate ρ) (originPort : Option (Port ρ))
    (readable : Option UInt32) : Keeps ch (ch.createConnections remote originPort readable).2 := by
  have remembered : ∀ ch : Channel ρ,
      Keeps ch (ch.rememberRemoteCandidate remote (originPort.map (·.id))) := by
    intro ch
    unfold rememberRemoteCandidate
    simp only
    split <;> exact same rfl rfl
  exact (createFrom remote _ readable _ ch).trans (remembered _)

theorem onPortReady (ch : Channel ρ) (port : Port ρ) : Keeps ch (ch.onPortReady port) := by
  have made : ∀ (known : List (Candidate ρ × Option Nat)) (ch : Channel ρ),
      Keeps ch (known.foldl (fun ch r => (ch.createConnection port r.1 r.2 none).2) ch) := by
    intro known
    induction known with
    | nil => exact refl
    | cons r rest ih => exact fun ch => (createConnection ch port r.1 r.2 none).trans (ih _)
  have added : Keeps ch { ch with ports := ch.ports ++ [port] } := same rfl rfl
  exact added.trans (made _ _)

theorem onUnknownAddress (ch : Channel ρ) (port : Port ρ) (address : SocketAddress)
    (remoteUsername : String) (now : UInt32) :
    Keeps ch (ch.onUnknownAddress port address remoteUsername now).2 := by
  unfold Channel.onUnknownAddress
  split
  · exact refl ch
  · next r found =>
    have created := createConnections ch { r.1 with address := address } (some port) (some now)
    split
    · next ch' result =>
      rw [result] at created
      exact created.trans (noticeStateChanges ch')
    · next ch' result =>
      rw [result] at created
      split
      · exact created.trans (noticeStateChanges ch')
      · exact created.trans (stepConnection _ fun c => c.receivedPing_sent now)

theorem onConnectionDestroyed (ch : Channel ρ) (id : Nat) :
    Keeps ch (ch.onConnectionDestroyed id) := by
  unfold Channel.onConnectionDestroyed
  simp only
  split
  · have removed : Keeps ch { ch with
        connections := ch.connections.filter fun c => c.id ≠ id
        bestConnection := none } := of_subset rfl List.filter_sublist.subset
    exact removed.trans (requestSort _)
  · exact of_subset rfl List.filter_sublist.subset

theorem reset (ch : Channel ρ) (connectRequested : Bool) : Keeps ch (ch.reset connectRequested) := by
  unfold Channel.reset
  simp only
  split <;> exact of_subset rfl (List.nil_subset _)

/-! ## Events -/

theorem handle (ch : Channel ρ) {event : Event ρ} (other : isPing event = false) (now : UInt32) :
    Keeps ch (ch.handle event now).2 := by
  cases event with
  | connect | allocate | portDestroyed | sort => exact same rfl rfl
  | signalingReady =>
    unfold Channel.handle
    simp only
    split <;> exact same rfl rfl
  | portReady port => exact onPortReady ch port
  | candidate remote => exact createConnections ch remote none none
  | unknownAddress port address remoteUsername =>
    exact onUnknownAddress ch port address remoteUsername now
  | packet id packet => exact stepConnection id fun c => c.onReadPacket_sent packet now
  | requestMessage id request => exact stepConnection id fun c => c.onRequestMessage_sent request now
  | connected id => exact stepConnection id fun _ => rfl
  | closed id => exact stepConnection id fun c => c.onClose_sent
  | destroyConnection id => exact stepConnection id fun c => c.destroy_sent
  | deleteConnection id =>
    unfold Channel.handle
    simp only
    split
    · exact refl ch
    · simp only
      split
      · exact refl ch
      · exact onConnectionDestroyed ch id
  | reset connectRequested => exact reset ch connectRequested
  | ping request => exact nomatch other

section Sorting

variable [Mul ρ] [LT ρ] [DecidableLT ρ]

theorem chooseBest (ch : Channel ρ) (now : UInt32) : Keeps ch (ch.chooseBest now) := by
  have updated := updateConnectionStates ch now
  have sorted : Keeps (ch.updateConnectionStates now)
      { ch.updateConnectionStates now with sortDirty := false }.sorted :=
    of_subset rfl (List.perm_insertionSort _ _).subset
  unfold Channel.chooseBest switchBestConnection
  split
  · exact (updated.trans sorted).trans (same rfl rfl)
  · exact updated.trans sorted

theorem pruneConnections (ch : Channel ρ) : Keeps ch ch.pruneConnections := by
  have networks : ∀ (networks : List Nat) (ch : Channel ρ),
      Keeps ch (networks.foldl pruneNetwork ch) := by
    intro networks
    induction networks with
    | nil => exact refl
    | cons network rest ih =>
      intro ch
      refine trans ?_ (ih (ch.pruneNetwork network))
      unfold pruneNetwork
      split
      · exact refl ch
      · split
        · exact refl ch
        · refine map fun c => ?_
          split
          · exact c.prune_sent
          · rfl
  exact (networks _ ch).trans (noticeStateChanges _)

theorem sortConnections (ch : Channel ρ) (now : UInt32) : Keeps ch (ch.sortConnections now) := by
  have counted : ∀ ch : Channel ρ, Keeps ch ch.countStates := by
    intro ch
    unfold countStates handleWritable handleNotWritable handleAllTimedOut allocate
    simp only
    split_ifs <;> exact same rfl rfl
  have updated : ∀ ch : Channel ρ, Keeps ch ch.updateChannelState := fun _ => same rfl rfl
  exact (chooseBest ch now).trans ((pruneConnections _).trans ((counted _).trans (updated _)))

theorem step (ch : Channel ρ) {stimulus : Stimulus ρ} (other : isPing stimulus.event = false) :
    Keeps ch (ch.step stimulus) := by
  have handled := handle ch other stimulus.now
  unfold Channel.step
  split
  · next ch' result =>
    rw [result] at handled
    exact handled.trans (sortConnections ch' stimulus.now)
  · next ch' result =>
    rw [result] at handled
    exact handled

theorem run (ch : Channel ρ) {stimuli : List (Stimulus ρ)}
    (other : ∀ stimulus ∈ stimuli, isPing stimulus.event = false) :
    Keeps ch (runInputs Channel.step ch stimuli) := by
  induction stimuli generalizing ch with
  | nil => exact refl ch
  | cons stimulus rest ih =>
    obtain ⟨here, later⟩ := List.forall_mem_cons.mp other
    exact (step ch here).trans (ih _ later)

end Sorting

end Keeps

end Channel

end Libjingle.P2P

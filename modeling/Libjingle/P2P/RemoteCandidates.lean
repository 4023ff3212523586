import Libjingle.P2P.Channel
import Libjingle.Std.Trace

/-!
# The remote candidates of a channel

`RememberRemoteCandidate` looks at the new candidate only: it drops what is of an older
generation, and adds the candidate if no equivalent one is left. So the list has no
duplicates, but a late candidate of an older generation goes into it.
-/

namespace Libjingle.P2P

open Libjingle.Std

variable {ρ : Type}

namespace Channel

/-! ## What changes the list -/

@[simp] theorem requestSort_remoteCandidates (ch : Channel ρ) :
    ch.requestSort.remoteCandidates = ch.remoteCandidates := by
  unfold requestSort
  split <;> rfl

@[simp] theorem noticeStateChanges_remoteCandidates (ch : Channel ρ) :
    ch.noticeStateChanges.remoteCandidates = ch.remoteCandidates := by
  unfold noticeStateChanges
  simp only
  split
  · exact requestSort_remoteCandidates _
  · rfl

@[simp] theorem updateConnectionStates_remoteCandidates (ch : Channel ρ) (now : UInt32) :
    (ch.updateConnectionStates now).remoteCandidates = ch.remoteCandidates :=
  noticeStateChanges_remoteCandidates _

@[simp] theorem stepConnection_remoteCandidates (ch : Channel ρ) (id : Nat)
    (f : Connection ρ → Connection ρ) :
    (ch.stepConnection id f).remoteCandidates = ch.remoteCandidates :=
  noticeStateChanges_remoteCandidates _

theorem receivedPing_remoteCandidates (ch : Channel ρ) (id : Nat) (readable : Option UInt32) :
    (ch.receivedPing id readable).remoteCandidates = ch.remoteCandidates := by
  cases readable <;> rfl

@[simp] theorem createConnection_remoteCandidates (ch : Channel ρ) (port : Port ρ)
    (remote : Candidate ρ) (originPort : Option Nat) (readable : Option UInt32) :
    (ch.createConnection port remote originPort readable).2.remoteCandidates =
      ch.remoteCandidates := by
  unfold createConnection
  split
  · split
    · exact receivedPing_remoteCandidates _ _ _
    · rfl
  · simp only
    split
    · rfl
    · split
      · rfl
      · exact receivedPing_remoteCandidates _ _ _

@[simp] theorem createFrom_remoteCandidates (remote : Candidate ρ) (originPort : Option Nat)
    (readable : Option UInt32) (ports : List (Port ρ)) (ch : Channel ρ) :
    (createFrom remote originPort readable ports ch).2.remoteCandidates = ch.remoteCandidates := by
  induction ports generalizing ch with
  | nil => rfl
  | cons port rest ih => exact (ih _).trans (createConnection_remoteCandidates ch port remote _ _)

@[simp] theorem onPortReady_remoteCandidates (ch : Channel ρ) (port : Port ρ) :
    (ch.onPortReady port).remoteCandidates = ch.remoteCandidates := by
  unfold onPortReady
  suffices ∀ (known : List (Candidate ρ × Option Nat)) (grown : Channel ρ),
      (known.foldl (fun ch r => (ch.createConnection port r.1 r.2 none).2) grown).remoteCandidates =
        grown.remoteCandidates from this _ _
  intro known
  induction known with
  | nil => exact fun _ => rfl
  | cons r rest ih =>
    exact fun grown => (ih _).trans (createConnection_remoteCandidates grown port r.1 r.2 none)

@[simp] theorem onPing_remoteCandidates (ch : Channel ρ) (request : Nat) (now : UInt32) :
    (ch.onPing request now).remoteCandidates = ch.remoteCandidates := by
  unfold onPing
  simp only
  split
  · exact updateConnectionStates_remoteCandidates ch now
  · exact updateConnectionStates_remoteCandidates ch now

@[simp] theorem onConnectionDestroyed_remoteCandidates (ch : Channel ρ) (id : Nat) :
    (ch.onConnectionDestroyed id).remoteCandidates = ch.remoteCandidates := by
  unfold onConnectionDestroyed
  simp only
  split
  · exact requestSort_remoteCandidates _
  · rfl

@[simp] theorem countStates_remoteCandidates (ch : Channel ρ) :
    ch.countStates.remoteCandidates = ch.remoteCandidates := by
  unfold countStates handleWritable handleNotWritable handleAllTimedOut allocate
  simp only
  split_ifs <;> rfl

@[simp] theorem reset_remoteCandidates (ch : Channel ρ) (connectRequested : Bool) :
    (ch.reset connectRequested).remoteCandidates = [] := by
  unfold reset
  simp only
  split <;> rfl

section Sorting

variable [Mul ρ] [LT ρ] [DecidableLT ρ]

@[simp] theorem pruneConnections_remoteCandidates (ch : Channel ρ) :
    ch.pruneConnections.remoteCandidates = ch.remoteCandidates := by
  unfold pruneConnections
  rw [noticeStateChanges_remoteCandidates]
  induction ch.networks generalizing ch with
  | nil => rfl
  | cons network rest ih =>
    refine (ih (ch.pruneNetwork network)).trans ?_
    unfold pruneNetwork
    split
    · rfl
    · split <;> rfl

@[simp] theorem chooseBest_remoteCandidates (ch : Channel ρ) (now : UInt32) :
    (ch.chooseBest now).remoteCandidates = ch.remoteCandidates := by
  unfold chooseBest switchBestConnection
  split
  · exact updateConnectionStates_remoteCandidates ch now
  · exact updateConnectionStates_remoteCandidates ch now

@[simp] theorem sortConnections_remoteCandidates (ch : Channel ρ) (now : UInt32) :
    (ch.sortConnections now).remoteCandidates = ch.remoteCandidates := by
  unfold sortConnections updateChannelState
  simp

end Sorting

/-- The list after a candidate is remembered. -/
def remembered (known : List (Candidate ρ × Option Nat)) (remote : Candidate ρ)
    (originPort : Option Nat) : List (Candidate ρ × Option Nat) :=
  let kept := known.filter fun r => ¬ r.1.generation < remote.generation
  if kept.any fun r => r.1.isEquivalent remote then kept else kept ++ [(remote, originPort)]

theorem rememberRemoteCandidate_remoteCandidates (ch : Channel ρ) (remote : Candidate ρ)
    (originPort : Option Nat) :
    (ch.rememberRemoteCandidate remote originPort).remoteCandidates =
      remembered ch.remoteCandidates remote originPort := by
  unfold rememberRemoteCandidate remembered
  simp only
  split <;> rfl

theorem createConnections_remoteCandidates (ch : Channel ρ) (remote : Candidate ρ)
    (originPort : Option (Port ρ)) (readable : Option UInt32) :
    (ch.createConnections remote originPort readable).2.remoteCandidates =
      remembered ch.remoteCandidates remote (originPort.map (·.id)) := by
  unfold createConnections
  simp only [rememberRemoteCandidate_remoteCandidates, createFrom_remoteCandidates]

/-- A ping from an unknown address is remembered with a copy of a candidate that is known. -/
theorem onUnknownAddress_remoteCandidates (ch : Channel ρ) (port : Port ρ)
    (address : SocketAddress) (remoteUsername : String) (now : UInt32) :
    (ch.onUnknownAddress port address remoteUsername now).2.remoteCandidates =
        ch.remoteCandidates ∨
      ∃ r ∈ ch.remoteCandidates,
        (ch.onUnknownAddress port address remoteUsername now).2.remoteCandidates =
          remembered ch.remoteCandidates { r.1 with address := address } (some port.id) := by
  unfold onUnknownAddress
  split
  · exact .inl rfl
  · next r found =>
    refine .inr ⟨r, List.mem_of_find?_eq_some found, ?_⟩
    have created := createConnections_remoteCandidates ch { r.1 with address := address }
      (some port) (some now)
    split
    · next ch' result =>
      rw [result] at created
      exact (noticeStateChanges_remoteCandidates ch').trans created
    · next ch' result =>
      rw [result] at created
      split
      · exact (noticeStateChanges_remoteCandidates ch').trans created
      · exact (stepConnection_remoteCandidates ch' _ _).trans created

/-- What an event does to the list. -/
def Changes (known known' : List (Candidate ρ × Option Nat)) : Event ρ → Prop
  | .candidate remote => known' = remembered known remote none
  | .unknownAddress port address _ =>
      known' = known ∨
        ∃ r ∈ known, known' = remembered known { r.1 with address := address } (some port.id)
  | .reset _ => known' = []
  | _ => known' = known

theorem handle_changes (ch : Channel ρ) (event : Event ρ) (now : UInt32) :
    Changes ch.remoteCandidates (ch.handle event now).2.remoteCandidates event := by
  cases event with
  | candidate remote => exact createConnections_remoteCandidates ch remote none none
  | unknownAddress port address remoteUsername =>
    exact onUnknownAddress_remoteCandidates ch port address remoteUsername now
  | reset connectRequested => exact reset_remoteCandidates ch connectRequested
  | connect => rfl
  | allocate => rfl
  | portDestroyed port => rfl
  | sort => rfl
  | signalingReady =>
    unfold Changes handle
    simp only
    split <;> rfl
  | deleteConnection id =>
    unfold Changes handle
    simp only
    split
    · rfl
    · simp only
      split
      · rfl
      · exact onConnectionDestroyed_remoteCandidates ch id
  | portReady port => exact onPortReady_remoteCandidates ch port
  | packet id packet => exact stepConnection_remoteCandidates ch id _
  | requestMessage id request => exact stepConnection_remoteCandidates ch id _
  | connected id => exact stepConnection_remoteCandidates ch id _
  | closed id => exact stepConnection_remoteCandidates ch id _
  | destroyConnection id => exact stepConnection_remoteCandidates ch id _
  | ping request => exact onPing_remoteCandidates ch request now

/-! ## Duplicates -/

/-- No two candidates of a list are equivalent. -/
def Distinct (known : List (Candidate ρ × Option Nat)) : Prop :=
  known.Pairwise fun a b => a.1.isEquivalent b.1 = false

theorem Distinct.remembered {known : List (Candidate ρ × Option Nat)} (distinct : Distinct known)
    (remote : Candidate ρ) (originPort : Option Nat) :
    Distinct (remembered known remote originPort) := by
  unfold Channel.remembered
  simp only
  split
  · exact distinct.filter _
  · next none =>
    refine List.pairwise_append.mpr ⟨distinct.filter _, List.pairwise_singleton _ _, ?_⟩
    intro a mem b new
    rw [List.mem_singleton.mp new]
    rw [Bool.not_eq_true, List.any_eq_false] at none
    simpa using none a mem

theorem Distinct.of_changes {known known' : List (Candidate ρ × Option Nat)} {event : Event ρ}
    (distinct : Distinct known) (changes : Changes known known' event) : Distinct known' := by
  cases event with
  | candidate remote =>
    obtain rfl : known' = _ := changes
    exact distinct.remembered remote none
  | unknownAddress port address remoteUsername =>
    rcases changes with rfl | ⟨r, -, rfl⟩
    · exact distinct
    · exact distinct.remembered _ _
  | reset connectRequested =>
    obtain rfl : known' = [] := changes
    exact List.Pairwise.nil
  | _ =>
    obtain rfl : known' = known := changes
    exact distinct

/-! ## Generations -/

/-- The highest generation received since the list was empty last. -/
def received (highest : Nat) : Event ρ → Nat
  | .candidate remote => max highest remote.generation.toNat
  | .reset _ => 0
  | _ => highest

/-- Every candidate has the highest generation received. -/
def Newest (known : List (Candidate ρ × Option Nat)) (highest : Nat) : Prop :=
  ∀ r ∈ known, r.1.generation.toNat = highest

/-- A candidate is of no older generation than those received before. -/
def InOrder (highest : Nat) : Event ρ → Prop
  | .candidate remote => highest ≤ remote.generation.toNat
  | _ => True

theorem mem_remembered {known : List (Candidate ρ × Option Nat)} {remote : Candidate ρ}
    {originPort : Option Nat} {r : Candidate ρ × Option Nat}
    (mem : r ∈ remembered known remote originPort) :
    r ∈ known ∧ remote.generation.toNat ≤ r.1.generation.toNat ∨ r = (remote, originPort) := by
  have kept : ∀ r, r ∈ known.filter (fun r => ¬ r.1.generation < remote.generation) →
      r ∈ known ∧ remote.generation.toNat ≤ r.1.generation.toNat := by
    intro r mem
    obtain ⟨listed, younger⟩ := List.mem_filter.mp mem
    rw [decide_eq_true_eq, UInt32.lt_iff_toNat_lt, not_lt] at younger
    exact ⟨listed, younger⟩
  unfold remembered at mem
  simp only at mem
  split at mem
  · exact .inl (kept r mem)
  · rcases List.mem_append.mp mem with old | new
    · exact .inl (kept r old)
    · exact .inr (List.mem_singleton.mp new)

/-- A candidate without an equivalent one in the list is added. -/
theorem mem_remembered_self {known : List (Candidate ρ × Option Nat)} {remote : Candidate ρ}
    {originPort : Option Nat} (other : ∀ r ∈ known, r.1.generation ≠ remote.generation) :
    (remote, originPort) ∈ remembered known remote originPort := by
  unfold remembered
  simp only
  split
  · next some =>
    obtain ⟨r, mem, equivalent⟩ := List.any_eq_true.mp some
    simp only [Candidate.isEquivalent, decide_eq_true_eq] at equivalent
    exact absurd equivalent.2.2.2.2.2.2 (other r (List.mem_of_mem_filter mem))
  · simp

theorem newest_remembered {known : List (Candidate ρ × Option Nat)} {highest : Nat}
    (newest : Newest known highest) {remote : Candidate ρ} (originPort : Option Nat)
    (inOrder : highest ≤ remote.generation.toNat) :
    Newest (remembered known remote originPort) remote.generation.toNat := by
  intro r mem
  rcases mem_remembered mem with ⟨old, younger⟩ | rfl
  · have highest := newest r old
    omega
  · rfl

/-- The list keeps to the highest generation if and only if what comes in does. -/
theorem newest_iff_inOrder {known known' : List (Candidate ρ × Option Nat)} {highest : Nat}
    {event : Event ρ} (newest : Newest known highest) (changes : Changes known known' event) :
    Newest known' (received highest event) ↔ InOrder highest event := by
  cases event with
  | candidate remote =>
    obtain rfl : known' = _ := changes
    constructor
    · intro later
      by_contra late
      have late : remote.generation.toNat < highest := not_le.mp late
      have offered := later (remote, none) (mem_remembered_self fun r mem same => by
        have highest := newest r mem
        rw [same] at highest
        omega)
      exact absurd (offered.trans (max_eq_left late.le)) late.ne
    · intro inOrder
      have isMax : received highest (Event.candidate remote) = remote.generation.toNat :=
        max_eq_right inOrder
      rw [isMax]
      exact newest_remembered newest none inOrder
  | unknownAddress port address remoteUsername =>
    refine ⟨fun _ => trivial, fun _ => ?_⟩
    rcases changes with rfl | ⟨r, mem, rfl⟩
    · exact newest
    · have copied := @newest_remembered _ _ _ newest { r.1 with address := address } (some port.id)
        (newest r mem).ge
      rw [show received highest (Event.unknownAddress port address remoteUsername) = highest from rfl,
        ← newest r mem]
      exact copied
  | reset connectRequested =>
    obtain rfl : known' = [] := changes
    exact ⟨fun _ => trivial, fun _ _ mem => absurd mem List.not_mem_nil⟩
  | _ =>
    obtain rfl : known' = known := changes
    exact ⟨fun _ => trivial, fun _ => newest⟩

/-! ## Runs -/

variable [Mul ρ] [LT ρ] [DecidableLT ρ]

theorem step_changes (ch : Channel ρ) (stimulus : Stimulus ρ) :
    Changes ch.remoteCandidates (ch.step stimulus).remoteCandidates stimulus.event := by
  have handled := handle_changes ch stimulus.event stimulus.now
  unfold step
  split
  · next ch' result =>
    rw [result] at handled
    rw [sortConnections_remoteCandidates]
    exact handled
  · next ch' result =>
    rw [result] at handled
    exact handled

/-- A channel with the highest generation that it has received. -/
def stepReceived (s : Channel ρ × Nat) (stimulus : Stimulus ρ) : Channel ρ × Nat :=
  (s.1.step stimulus, received s.2 stimulus.event)

/-- The remote candidates are never equivalent to each other. They have the highest generation
received so far throughout a run if and only if no candidate of the run comes later than one
of a younger generation. -/
theorem remote_candidates_newest (incomingOnly : Bool) (stimuli : List (Stimulus ρ)) :
    Distinct (runInputs step (new incomingOnly : Channel ρ) stimuli).remoteCandidates ∧
    (Along stepReceived (fun (s : Channel ρ × Nat) stimulus =>
        Newest (stepReceived s stimulus).1.remoteCandidates (stepReceived s stimulus).2)
        ((new incomingOnly : Channel ρ), 0) stimuli ↔
      Along stepReceived (fun s stimulus => InOrder s.2 stimulus.event)
        ((new incomingOnly : Channel ρ), 0) stimuli) := by
  constructor
  · have start : Distinct (new incomingOnly : Channel ρ).remoteCandidates := List.Pairwise.nil
    exact history_invariant (P := fun _ (ch : Channel ρ) => Distinct ch.remoteCandidates) start
      (fun _ ch stimulus distinct => distinct.of_changes (step_changes ch stimulus)) stimuli
  · have start : Newest (new incomingOnly : Channel ρ).remoteCandidates 0 :=
      fun _ mem => absurd mem List.not_mem_nil
    exact along_congr_of_invariant (P := fun s : Channel ρ × Nat => Newest s.1.remoteCandidates s.2)
      (fun _ _ _ later => later)
      (fun s stimulus newest => newest_iff_inOrder newest (step_changes s.1 stimulus)) start stimuli

def lateCandidate (generation : UInt32) : Candidate Nat :=
  ⟨"rtp", "udp", .nil, 1, "", "", "local", generation⟩

/-- One of generation 1 and then one of generation 0. -/
def lateRun : Channel Nat × Nat :=
  runInputs stepReceived (new false, 0)
    [⟨.candidate (lateCandidate 1), 0⟩, ⟨.candidate (lateCandidate 0), 0⟩]

/-- A late candidate of an older generation is remembered beside the younger one. -/
theorem late_candidate_remembered : ¬Newest lateRun.1.remoteCandidates lateRun.2 := by
  intro newest
  have known : lateRun.1.remoteCandidates =
      [(lateCandidate 1, none), (lateCandidate 0, none)] := rfl
  have late := newest (lateCandidate 0, none) (by rw [known]; simp)
  exact absurd late (by decide)

end Channel

end Libjingle.P2P

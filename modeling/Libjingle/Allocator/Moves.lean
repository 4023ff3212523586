import Libjingle.Allocator.Session
import Libjingle.Std.Trace
import Mathlib.Logic.Relation

/-!
# What a step of the session consists of

A session is driven by the calls of its owner and by events: its own messages, the
networks, its ports. Whatever a step does to ports and candidates is a sequence of
moves: a port is added, gets a candidate or becomes ready, or a sequence enables a
protocol. Invariants are proved of the moves.
-/

namespace Libjingle.Allocator

open Libjingle.Std Relation

variable {α : Type}

/-- What the owner of a session calls. -/
inductive Call where
  | getInitialPorts
  | startGetAllPorts
  | stopGetAllPorts
deriving DecidableEq

/-- What happens to a session apart from the calls of its owner. -/
inductive Event (α : Type) where
  | networksChanged (networks : List (Network α × Outcome α))
  /-- `ConfigReady`, which a subclass calls with its own configuration. -/
  | configReady (config : PortConfiguration α)
  | handle (index : Nat) (networks : List (Network α × Outcome α)) (outcome : Outcome α)
  | addressReady (serial : Nat)
  | addAddress (serial : Nat) (address : α) (protocol : String) (final : Bool)
  | addExternalAddress (serial : Nat) (addr : ProtocolAddress α)
  | relayConnect (serial : Nat) (mappedAddr : α)
  | portDestroyed (serial : Nat)
  | writablePhase (phase : Nat)

inductive Step (α : Type) where
  | call (call : Call)
  | event (event : Event α)

/-- If a session is getting all ports after a call. -/
def Call.getting (before : Bool) : Call → Bool
  | .getInitialPorts => before
  | .startGetAllPorts => true
  | .stopGetAllPorts => false

namespace Session

/-- A session that nobody has called yet. -/
def start (name : String) (flags : Flags) (allocator : BasicPortAllocator α) : Session α where
  name := name
  flags := flags
  allocator := allocator

def call [DecidableEq α] (s : Session α) : Call → Session α
  | .getInitialPorts => s.getInitialPorts
  | .startGetAllPorts => s.startGetAllPorts
  | .stopGetAllPorts => s.stopGetAllPorts

def event [DecidableEq α] (s : Session α) : Event α → Session α
  | .networksChanged networks => s.onNetworksChanged networks
  | .configReady config => s.post (.configReady config)
  | .handle index networks outcome => s.handle index networks outcome
  | .addressReady serial => s.onAddressReady serial
  | .addAddress serial address protocol final => s.addAddress serial address protocol final
  | .addExternalAddress serial addr => s.addExternalAddress serial addr
  | .relayConnect serial mappedAddr => s.onRelayConnect serial mappedAddr
  | .portDestroyed serial => s.onPortDestroyed serial
  | .writablePhase phase => { s with allocator := s.allocator.addWritablePhase phase }

def step [DecidableEq α] (s : Session α) : Step α → Session α
  | .call call => s.call call
  | .event event => s.event event

/-- The port has not become ready, or its sequence has not enabled the protocol. -/
def Closed (s : Session α) (serial : Nat) (protocol : String) : Prop :=
  ∀ pd ∈ s.ports, pd.port.serial = serial → ¬ (pd.ready ∧ s.enables pd.sequence protocol)

instance (s : Session α) (serial : Nat) (protocol : String) :
    Decidable (s.Closed serial protocol) :=
  inferInstanceAs (Decidable (∀ pd ∈ s.ports, pd.port.serial = serial →
    ¬ (pd.ready ∧ s.enables pd.sequence protocol)))

/-- Two sessions that differ in nothing that matters to ports and candidates. -/
structure Quiet (s t : Session α) : Prop where
  ports : t.ports = s.ports
  portsAdded : t.portsAdded = s.portsAdded
  running : t.running = s.running
  portReady : t.portReady = s.portReady
  candidatesReady : t.candidatesReady = s.candidatesReady
  enables : ∀ seq protocol, t.enables seq protocol = s.enables seq protocol
  sequences : s.sequences.length ≤ t.sequences.length

/-- What a step does, one thing at a time. In a strict move no candidate comes too late. -/
inductive Move (strict : Prop) : Session α → Session α → Prop where
  | quiet {s t : Session α} (quiet : Quiet s t) : Move strict s t
  | relayReady (s : Session α) (serial : Nat) :
      Move strict s (s.modifyPort serial fun pd => { pd with port.relayReady := true })
  | port (s : Session α) (seq : Nat) : Move strict s (s.addAllocatedPort seq)
  | candidate (s : Session α) {serial : Nat} (address : α) {protocol : String}
      (closed : strict → s.Closed serial protocol) :
      Move strict s (s.addAddress serial address protocol false)
  | ready (s : Session α) (serial : Nat) : Move strict s (s.onAddressReady serial)
  | enable (s : Session α) {seq : Nat} (proto : ProtocolType) (made : seq < s.sequences.length) :
      Move strict s (s.enableProtocol seq proto)

abbrev Moves (strict : Prop) : Session α → Session α → Prop := ReflTransGen (Move strict)

namespace Quiet

variable {s t u : Session α}

theorem of_sequences (same : t.sequences = s.sequences) (ports : t.ports = s.ports)
    (portsAdded : t.portsAdded = s.portsAdded) (running : t.running = s.running)
    (portReady : t.portReady = s.portReady)
    (candidatesReady : t.candidatesReady = s.candidatesReady) : Quiet s t where
  ports := ports
  portsAdded := portsAdded
  running := running
  portReady := portReady
  candidatesReady := candidatesReady
  enables seq protocol := by rw [Session.enables, same, Session.enables]
  sequences := Nat.le_of_eq (congrArg List.length same.symm)

theorem trans (first : Quiet s t) (second : Quiet t u) : Quiet s u where
  ports := second.ports.trans first.ports
  portsAdded := second.portsAdded.trans first.portsAdded
  running := second.running.trans first.running
  portReady := second.portReady.trans first.portReady
  candidatesReady := second.candidatesReady.trans first.candidatesReady
  enables seq protocol := (second.enables seq protocol).trans (first.enables seq protocol)
  sequences := Nat.le_trans first.sequences second.sequences

theorem post (s : Session α) (message : SessionMessage α) : Quiet s (s.post message) :=
  .of_sequences rfl rfl rfl rfl rfl rfl

/-- A change of a sequence that keeps its protocols. -/
theorem modifySequence (s : Session α) (seq : Nat)
    {f : AllocationSequence α → AllocationSequence α}
    (keeps : ∀ q, (f q).protocols = q.protocols) : Quiet s (s.modifySequence seq f) where
  ports := rfl
  portsAdded := rfl
  running := rfl
  portReady := rfl
  candidatesReady := rfl
  enables seq' protocol := by
    simp only [Session.enables, Session.modifySequence, List.getElem?_modify]
    cases s.sequences[seq']? with
    | none => rfl
    | some q => by_cases here : seq = seq' <;>
        simp [here, AllocationSequence.protocolEnabled, keeps]
  sequences := Nat.le_of_eq (List.length_modify ..).symm

/-- A new sequence has enabled nothing. -/
theorem pushSequence (s : Session α) {q : AllocationSequence α} (fresh : q.protocols = []) :
    Quiet s { s with sequences := s.sequences ++ [q] } where
  ports := rfl
  portsAdded := rfl
  running := rfl
  portReady := rfl
  candidatesReady := rfl
  enables seq protocol := by
    simp only [Session.enables, List.getElem?_append]
    split
    · rfl
    · next beyond =>
      rw [List.getElem?_eq_none (Nat.not_lt.mp beyond)]
      cases seq - s.sequences.length with
      | zero => simp [AllocationSequence.protocolEnabled, fresh]
      | succ n => rfl
  sequences := by simp

theorem startSequence (s : Session α) (seq : Nat) : Quiet s (s.startSequence seq) :=
  (modifySequence s seq (f := fun q => { q with running := true }) fun _ => rfl).trans (post _ _)

theorem stopSequence [DecidableEq α] (s : Session α) (seq : Nat) :
    Quiet s (s.stopSequence seq) :=
  (modifySequence s seq (f := fun q => { q with running := false }) fun _ => rfl).trans
    (.of_sequences rfl rfl rfl rfl rfl rfl)

end Quiet

@[simp] theorem sequences_signalCandidatesReady (s : Session α)
    (candidates : List (Announcement α)) :
    (s.signalCandidatesReady candidates).sequences = s.sequences := by
  unfold signalCandidatesReady
  split <;> rfl

@[simp] theorem ports_signalCandidatesReady (s : Session α) (candidates : List (Announcement α)) :
    (s.signalCandidatesReady candidates).ports = s.ports := by
  unfold signalCandidatesReady
  split <;> rfl

@[simp] theorem portsAdded_signalCandidatesReady (s : Session α)
    (candidates : List (Announcement α)) :
    (s.signalCandidatesReady candidates).portsAdded = s.portsAdded := by
  unfold signalCandidatesReady
  split <;> rfl

@[simp] theorem portReady_signalCandidatesReady (s : Session α)
    (candidates : List (Announcement α)) :
    (s.signalCandidatesReady candidates).portReady = s.portReady := by
  unfold signalCandidatesReady
  split <;> rfl

@[simp] theorem running_signalCandidatesReady (s : Session α)
    (candidates : List (Announcement α)) :
    (s.signalCandidatesReady candidates).running = s.running := by
  unfold signalCandidatesReady
  split <;> rfl

/-- The numbers of the live ports. -/
def serials (s : Session α) : List Nat := s.ports.map fun pd => pd.port.serial

theorem serials_modifyPort (s : Session α) (serial : Nat) {f : PortData α → PortData α}
    (keeps : ∀ pd, (f pd).port.serial = pd.port.serial) :
    (s.modifyPort serial f).serials = s.serials := by
  unfold serials modifyPort
  rw [List.map_map]
  refine List.map_congr_left fun pd _ => ?_
  dsimp only [Function.comp]
  split
  · exact keeps pd
  · rfl

/-- Every port has a number that has been given out. -/
def Numbered (s : Session α) : Prop := ∀ serial ∈ s.serials, serial < s.portsAdded

theorem findPort_eq_some {s : Session α} {serial : Nat} {pd : PortData α}
    (found : s.findPort serial = some pd) : pd ∈ s.ports ∧ pd.port.serial = serial :=
  ⟨List.mem_of_find?_eq_some found, by simpa using List.find?_some found⟩

/-- What `OnAddressReady` does: nothing, or the port becomes ready and its candidates with an
enabled protocol are announced. -/
theorem onAddressReady_cases (s : Session α) (serial : Nat) :
    s.onAddressReady serial = s ∨
      ∃ pd, s.findPort serial = some pd ∧ pd.ready = false ∧
        s.onAddressReady serial = signalCandidatesReady
          { s.modifyPort serial fun pd => { pd with ready := true } with
            portReady := s.portReady ++ [serial] }
          (pd.picked fun c => s.enables pd.sequence c.protocol) := by
  unfold onAddressReady
  split
  · exact .inl rfl
  · next pd found =>
    split
    · exact .inl rfl
    · next unready => exact .inr ⟨pd, found, by simpa using unready, rfl⟩

/-- What `EnableProtocol` does: nothing, or the sequence lists the protocol and the candidates of
its ready ports with this protocol are announced. -/
theorem enableProtocol_cases (s : Session α) (seq : Nat) (proto : ProtocolType) :
    s.enableProtocol seq proto = s ∨
      (s.sequences[seq]?.any fun q => q.protocolEnabled proto) = false ∧
        s.enableProtocol seq proto = signalCandidatesReady
          (s.modifySequence seq fun q => { q with protocols := q.protocols ++ [proto] })
          (s.candidatesOf seq proto) := by
  unfold enableProtocol
  split
  · exact .inl rfl
  · next disabled => exact .inr ⟨by simpa using disabled, rfl⟩

namespace Move

variable {strict : Prop} {s t : Session α}

theorem sequences (move : Move strict s t) : s.sequences.length ≤ t.sequences.length := by
  cases move with
  | quiet quiet => exact quiet.sequences
  | relayReady | port | candidate => exact Nat.le_refl _
  | ready serial =>
    obtain same | ⟨pd, _, _, same⟩ := onAddressReady_cases s serial
    · exact Nat.le_of_eq (by rw [same])
    · rw [same, sequences_signalCandidatesReady]
      exact Nat.le_refl _
  | @enable seq proto made =>
    obtain same | ⟨_, same⟩ := enableProtocol_cases s seq proto
    · exact Nat.le_of_eq (by rw [same])
    · rw [same, sequences_signalCandidatesReady]
      exact Nat.le_of_eq (List.length_modify ..).symm

/-- No move starts or stops the session. -/
theorem running (move : Move strict s t) : t.running = s.running := by
  cases move with
  | quiet quiet => exact quiet.running
  | relayReady | port | candidate => rfl
  | ready serial =>
    obtain same | ⟨pd, _, _, same⟩ := onAddressReady_cases s serial
    · rw [same]
    · rw [same, running_signalCandidatesReady]
      rfl
  | @enable seq proto made =>
    obtain same | ⟨_, same⟩ := enableProtocol_cases s seq proto
    · rw [same]
    · rw [same, running_signalCandidatesReady]
      rfl

/-- A move adds one port at most, with the next number. -/
theorem serials (move : Move strict s t) :
    t.serials = s.serials ∧ t.portsAdded = s.portsAdded ∨
      t.serials = s.serials ++ [s.portsAdded] ∧ t.portsAdded = s.portsAdded + 1 := by
  cases move with
  | quiet quiet => exact .inl ⟨congrArg (List.map _) quiet.ports, quiet.portsAdded⟩
  | relayReady => exact .inl ⟨serials_modifyPort s _ fun _ => rfl, rfl⟩
  | candidate => exact .inl ⟨serials_modifyPort s _ fun _ => rfl, rfl⟩
  | port seq =>
    right
    constructor
    · exact List.map_append
    · rfl
  | ready serial =>
    left
    obtain same | ⟨pd, _, _, same⟩ := onAddressReady_cases s serial
    · rw [same]
      exact ⟨rfl, rfl⟩
    · rw [same, Session.serials, ports_signalCandidatesReady, portsAdded_signalCandidatesReady]
      exact ⟨serials_modifyPort s serial fun _ => rfl, rfl⟩
  | @enable seq proto made =>
    left
    obtain same | ⟨_, same⟩ := enableProtocol_cases s seq proto
    · rw [same]
      exact ⟨rfl, rfl⟩
    · rw [same, Session.serials, ports_signalCandidatesReady, portsAdded_signalCandidatesReady]
      exact ⟨rfl, rfl⟩

theorem numbered (move : Move strict s t) (numbered : s.Numbered) : t.Numbered := by
  intro serial member
  obtain ⟨ports, added⟩ | ⟨ports, added⟩ := move.serials
  · rw [ports] at member
    exact added ▸ numbered serial member
  · rw [ports, List.mem_append, List.mem_singleton] at member
    rw [added]
    obtain old | new := member
    · exact Nat.lt_succ_of_lt (numbered serial old)
    · exact new ▸ Nat.lt_succ_self _

end Move

namespace Moves

variable {strict : Prop} {s t u : Session α}

theorem sequences (moves : Moves strict s t) : s.sequences.length ≤ t.sequences.length := by
  induction moves with
  | refl => exact Nat.le_refl _
  | tail _ move ih => exact Nat.le_trans ih move.sequences

theorem running (moves : Moves strict s t) : t.running = s.running := by
  induction moves with
  | refl => rfl
  | tail _ move ih => exact move.running.trans ih

theorem quiet (quiet : Quiet s t) : Moves strict s t := .single (.quiet quiet)

theorem numbered (moves : Moves strict s t) (numbered : s.Numbered) : t.Numbered := by
  induction moves with
  | refl => exact numbered
  | tail _ move ih => exact move.numbered ih

end Moves

/-- From a session with numbered ports and `n` sequences, `t` is reached by moves. -/
def Leads (strict : Prop) (n : Nat) (s t : Session α) : Prop :=
  s.Numbered → n ≤ s.sequences.length → Moves strict s t

namespace Leads

variable {strict : Prop} {n : Nat} {s t u : Session α}

theorem refl (s : Session α) : Leads strict n s s := fun _ _ => .refl

theorem of_moves (moves : Moves strict s t) : Leads strict n s t := fun _ _ => moves

theorem quiet (quiet : Quiet s t) : Leads strict n s t := of_moves (.quiet quiet)

theorem move (move : Move strict s t) : Leads strict n s t := of_moves (.single move)

theorem trans (first : Leads strict n s t) (second : Leads strict n t u) : Leads strict n s u := by
  intro numbered enough
  have before := first numbered enough
  exact before.trans (second (before.numbered numbered) (Nat.le_trans enough before.sequences))

/-- Moves made for one element of a list after the other. -/
theorem foldl {ε : Type} {f : Session α → ε → Session α} (each : ∀ s e, Leads strict n s (f s e))
    (s : Session α) (list : List ε) : Leads strict n s (list.foldl f s) := by
  induction list generalizing s with
  | nil => exact .refl s
  | cons e rest ih => exact (each s e).trans (ih (f s e))

theorem startGetAllPorts (s : Session α) :
    Leads strict n { s with running := true } s.startGetAllPorts := by
  have posted (s : Session α) :
      Quiet s (if s.allocationStarted then s.post .allocate else s) := by
    split
    · exact .post s _
    · exact .of_sequences rfl rfl rfl rfl rfl rfl
  exact (quiet (posted _)).trans (foldl (fun s seq => quiet (.startSequence s seq)) _ _)

theorem stopGetAllPorts [DecidableEq α] (s : Session α) :
    Leads strict n { s with running := false } s.stopGetAllPorts := by
  have cleared : Quiet { s with running := false } { s with
      running := false, posted := s.posted.filter fun message => message ≠ .allocate } :=
    .of_sequences rfl rfl rfl rfl rfl rfl
  exact (quiet cleared).trans (foldl (fun s seq => quiet (.stopSequence s seq)) _ _)

theorem getInitialPorts (s : Session α) : Leads strict n s s.getInitialPorts := by
  refine (quiet (.post s .configStart)).trans (quiet ?_)
  show Quiet _ (if _ then _ else _)
  split
  · exact .post _ _
  · exact .of_sequences rfl rfl rfl rfl rfl rfl

end Leads

section Ports

variable (s : Session α)

/-- No port of this number is ready. -/
def Unready (serial : Nat) : Prop := ∀ pd ∈ s.ports, pd.port.serial = serial → pd.ready = false

variable {s}

theorem Unready.closed {serial : Nat} (unready : s.Unready serial) (protocol : String) :
    s.Closed serial protocol := by
  rintro pd member same ⟨ready, -⟩
  rw [unready pd member same] at ready
  cases ready

theorem Unready.addAddress {serial : Nat} (unready : s.Unready serial) (other : Nat) (address : α)
    (protocol : String) : (s.addAddress other address protocol false).Unready serial := by
  intro pd member same
  obtain ⟨old, live, rfl⟩ := List.mem_map.mp member
  dsimp only at same ⊢
  split at same
  · next here =>
    rw [if_pos here]
    exact unready old live same
  · next elsewhere =>
    rw [if_neg elsewhere]
    exact unready old live same

theorem Numbered.unready_new (numbered : s.Numbered) (seq : Nat) :
    (s.addAllocatedPort seq).Unready s.portsAdded := by
  intro pd member same
  rw [addAllocatedPort, List.mem_append, List.mem_singleton] at member
  obtain old | rfl := member
  · have := numbered _ (List.mem_map_of_mem (f := fun pd => pd.port.serial) old)
    omega
  · rfl

end Ports

namespace Leads

variable {strict : Prop} {n : Nat}

/-- The addresses that a relay port has from its configuration. -/
theorem addExternalAddresses [DecidableEq α] {serial : Nat} (relay : List (ProtocolAddress α))
    (s : Session α) (unready : s.Unready serial) :
    Moves strict s (relay.foldl (fun t addr => t.addExternalAddress serial addr) s) := by
  induction relay generalizing s with
  | nil => exact .refl
  | cons addr rest ih =>
    rw [List.foldl_cons, addExternalAddress]
    split
    · exact ih s unready
    · exact .head (.candidate s addr.address fun _ => unready.closed _)
        (ih _ (unready.addAddress serial addr.address _))

theorem createRelayPort [DecidableEq α] (s : Session α) (seq : Nat)
    (relay : List (ProtocolAddress α)) : Leads strict n s (s.createRelayPort seq relay) := by
  intro numbered _
  exact .head (.port s seq) (addExternalAddresses relay _ (numbered.unready_new seq))

theorem addBoundPort (s : Session α) (seq : Nat) (protocol : String)
    (bound : Option (Option α)) : Leads strict n s (s.addBoundPort seq protocol bound) := by
  intro numbered _
  match bound with
  | none => exact .refl
  | some none => exact .single (.port s seq)
  | some (some address) =>
    have closed := (numbered.unready_new seq).closed protocol
    exact .head (.port s seq) (.head (.candidate _ address fun _ => closed) (.single (.ready _ _)))

section Phases

variable (s : Session α) (seq : Nat) (q : AllocationSequence α) (outcome : Outcome α)

theorem createUDPPorts : Leads strict n s (s.createUDPPorts seq q outcome) := by
  unfold Session.createUDPPorts
  split
  · exact .refl s
  · exact .addBoundPort s seq _ _

theorem createTCPPorts : Leads strict n s (s.createTCPPorts seq q outcome) := by
  unfold Session.createTCPPorts
  split
  · exact .refl s
  · exact .addBoundPort s seq _ _

theorem createStunPorts : Leads strict n s (s.createStunPorts seq q outcome) := by
  unfold Session.createStunPorts
  split
  · exact .refl s
  · split
    · exact .move (.port s seq)
    · exact .refl s

theorem createRelayPorts [DecidableEq α] : Leads strict n s (s.createRelayPorts seq q outcome) := by
  unfold Session.createRelayPorts
  split
  · exact .refl s
  · refine .foldl (fun s relay => ?_) s _
    split
    · exact .createRelayPort s seq relay.1
    · exact .refl s

theorem enableProtocol (proto : ProtocolType) :
    Leads strict (seq + 1) s (s.enableProtocol seq proto) :=
  fun _ made => .single (.enable s proto made)

theorem performPhase [DecidableEq α] (phase : Phase) :
    Leads strict (seq + 1) s (s.performPhase seq q outcome phase) := by
  cases phase with
  | udp =>
    exact ((createUDPPorts s seq q outcome).trans (createStunPorts _ seq q outcome)).trans
      (enableProtocol _ seq _)
  | relay => exact createRelayPorts s seq q outcome
  | tcp => exact (createTCPPorts s seq q outcome).trans (enableProtocol _ seq _)
  | ssltcp => exact enableProtocol s seq _

end Phases

variable [DecidableEq α]

theorem performStep (s : Session α) (seq : Nat) (outcome : Outcome α) :
    Leads strict n s (s.performStep seq outcome) := by
  unfold Session.performStep
  split
  · exact .refl s
  · next q found =>
    have made : seq + 1 ≤ s.sequences.length := (List.getElem?_eq_some_iff.mp found).1
    have phases : Leads strict (seq + 1) s ((phases.filter fun phase => q.stepOfPhase phase = q.step).foldl
        (fun s phase => s.performPhase seq q outcome phase) s) :=
      .foldl (fun s phase => performPhase s seq q outcome phase) s _
    have counted := phases.trans (.quiet (.modifySequence _ seq
      (f := fun q => { q with step := q.step + 1 }) fun _ => rfl))
    refine fun numbered _ => (counted numbered made).trans (Moves.quiet ?_)
    show Quiet _ (if _ then _ else _)
    split
    · exact .post _ _
    · exact .of_sequences rfl rfl rfl rfl rfl rfl

theorem newSequence (s : Session α) (network : Network α) (config : Option (PortConfiguration α))
    (flags : Flags) (outcome : Outcome α) :
    Leads strict n s (s.newSequence network config flags outcome) := by
  have pushed := Quiet.pushSequence s (q := {
    network := network, config := config, flags := flags
    lastPhaseInStepZero := s.allocator.bestWritablePhase.getD 0 }) rfl
  refine (quiet pushed).trans ((performStep _ s.sequences.length outcome).trans (quiet ?_))
  show Quiet _ (if _ then _ else _)
  split
  · exact .startSequence _ _
  · exact .of_sequences rfl rfl rfl rfl rfl rfl

theorem doAllocate (s : Session α) (networks : List (Network α × Outcome α)) :
    Leads strict n s (s.doAllocate networks) := by
  refine .foldl (fun s network => ?_) s networks
  show Leads strict n s (if _ then _ else _)
  split
  · exact .refl s
  · exact .newSequence s _ _ _ _

theorem onAllocate (s : Session α) (networks : List (Network α × Outcome α)) :
    Leads strict n s (s.onAllocate networks) := by
  have started (t : Session α) : Quiet t { t with allocationStarted := true } :=
    .of_sequences rfl rfl rfl rfl rfl rfl
  unfold Session.onAllocate
  split
  · exact (doAllocate s networks).trans (quiet (started _))
  · exact quiet (started s)

theorem onNetworksChanged (s : Session α) (networks : List (Network α × Outcome α)) :
    Leads strict n s (s.onNetworksChanged networks) := by
  have started : Quiet s { s with networkManagerStarted := true } :=
    .of_sequences rfl rfl rfl rfl rfl rfl
  unfold Session.onNetworksChanged
  dsimp only
  split
  · exact (quiet started).trans (doAllocate _ networks)
  · exact quiet started

theorem onMessage (s : Session α) (networks : List (Network α × Outcome α)) (outcome : Outcome α)
    (message : SessionMessage α) : Leads strict n s (s.onMessage networks outcome message) := by
  cases message with
  | configStart => exact .quiet (.post _ _)
  | configReady config =>
    have pushed : Quiet s { s with configs := s.configs ++ [config] } :=
      .of_sequences rfl rfl rfl rfl rfl rfl
    exact .quiet (pushed.trans (.post _ _))
  | allocate => exact .onAllocate s networks
  | shake =>
    show Leads strict n s (if _ then _ else _)
    split
    · exact .quiet (.post _ _)
    · exact .refl s
  | allocationPhase seq => exact .performStep s seq outcome

theorem handle (s : Session α) (index : Nat) (networks : List (Network α × Outcome α))
    (outcome : Outcome α) : Leads strict n s (s.handle index networks outcome) := by
  unfold Session.handle
  split
  · exact .refl s
  · have taken : Quiet s { s with posted := s.posted.eraseIdx index } :=
      .of_sequences rfl rfl rfl rfl rfl rfl
    exact (quiet taken).trans (onMessage _ networks outcome _)

end Leads

section Steps

variable [DecidableEq α] {strict : Prop}

/-- A port gets no candidate after both of its gates have opened. -/
def Timely (s : Session α) : Step α → Prop
  | .event (.addAddress serial _ protocol _) => s.Closed serial protocol
  | .event (.addExternalAddress serial addr) =>
      ¬ s.redundant serial addr → s.Closed serial (protoToString addr.proto)
  | .event (.relayConnect serial mappedAddr) =>
      ¬ s.redundant serial ⟨mappedAddr, .udp⟩ → s.Closed serial (protoToString .udp)
  | _ => True

instance (s : Session α) : DecidablePred s.Timely := fun step => by
  unfold Timely
  split <;> infer_instance

theorem moves_addExternalAddress {s : Session α} {serial : Nat} {addr : ProtocolAddress α}
    (timely : strict → ¬ s.redundant serial addr → s.Closed serial (protoToString addr.proto)) :
    Moves strict s (s.addExternalAddress serial addr) := by
  unfold addExternalAddress
  split
  · exact .refl
  · next new => exact .single (.candidate s addr.address fun strict => timely strict new)

omit [DecidableEq α] in
theorem moves_setReady (s : Session α) (serial : Nat) : Moves strict s (s.setReady serial) := by
  unfold setReady
  split
  · exact .refl
  · split
    · exact .refl
    · exact .head (.relayReady s serial) (.single (.ready _ serial))

/-- A call starts or stops the session, and makes moves then. -/
theorem call_moves (strict : Prop) {s : Session α} (numbered : s.Numbered) (call : Call) :
    Moves strict { s with running := call.getting s.running } (s.call call) := by
  cases call with
  | getInitialPorts => exact Leads.getInitialPorts s numbered (Nat.zero_le _)
  | startGetAllPorts => exact Leads.startGetAllPorts s numbered (Nat.zero_le _)
  | stopGetAllPorts => exact Leads.stopGetAllPorts s numbered (Nat.zero_le _)

/-- An event ends a port, or it makes moves, which are strict if it is timely. -/
theorem event_cases (strict : Prop) {s : Session α} {event : Event α} (numbered : s.Numbered)
    (timely : strict → s.Timely (.event event)) :
    (∃ serial, event = .portDestroyed serial) ∨ Moves strict s (s.event event) := by
  have leads {t : Session α} (leads : Leads strict 0 s t) : Moves strict s t :=
    leads numbered (Nat.zero_le _)
  cases event with
  | portDestroyed serial => exact .inl ⟨serial, rfl⟩
  | networksChanged networks => exact .inr (leads (.onNetworksChanged s networks))
  | configReady config => exact .inr (.quiet (.post s _))
  | handle index networks outcome => exact .inr (leads (.handle s index networks outcome))
  | addressReady serial => exact .inr (.single (.ready s serial))
  | addAddress serial address protocol final =>
    right
    have added : Moves strict s (s.addAddress serial address protocol false) :=
      .single (.candidate s address timely)
    cases final with
    | false => exact added
    | true => exact added.tail (.ready _ serial)
  | addExternalAddress serial addr => exact .inr (moves_addExternalAddress timely)
  | relayConnect serial mappedAddr =>
    right
    exact (moves_addExternalAddress timely).trans (moves_setReady _ serial)
  | writablePhase phase => exact .inr (.quiet (.of_sequences rfl rfl rfl rfl rfl rfl))

end Steps

end Session

end Libjingle.Allocator

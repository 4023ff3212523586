import Mathlib.Algebra.Order.Ring.Nat
import Mathlib.Data.List.Basic

/-!
# A session of the port allocator

`BasicPortAllocatorSession` allocates ports on every network in the phases of an
`AllocationSequence`, and announces the candidates of a port once the port is ready
and the sequence has enabled the protocol of the candidate. The messages that it posts
to itself are handled in any order, since some of them are delayed.

Addresses are of any type `α`. What the network answers is given with a step: which
ports could be created, and which of their sockets are bound at once.
-/

namespace Libjingle.Allocator

inductive ProtocolType where
  | udp
  | tcp
  | ssltcp
deriving DecidableEq

def protoToString : ProtocolType → String
  | .udp => "udp"
  | .tcp => "tcp"
  | .ssltcp => "ssltcp"

def stringToProto (value : String) : Option ProtocolType :=
  [.udp, .tcp, .ssltcp].find? fun proto => protoToString proto = value

variable {α : Type}

structure Candidate (α : Type) where
  name : String
  protocol : String
  address : α
deriving DecidableEq

structure ProtocolAddress (α : Type) where
  address : α
  proto : ProtocolType
deriving DecidableEq

/-- `PortConfiguration`, with a list of addresses for each relay. -/
structure PortConfiguration (α : Type) where
  stunAddress : Option α
  relays : List (List (ProtocolAddress α))
deriving DecidableEq

/-- The flags of a session and of a sequence. -/
structure Flags where
  disableUdp : Bool := false
  disableStun : Bool := false
  disableRelay : Bool := false
  disableTcp : Bool := false
  enableShaker : Bool := false
  enableBundle : Bool := false
deriving DecidableEq

def Flags.disableAllPhases (flags : Flags) : Bool :=
  flags.disableUdp && flags.disableTcp && flags.disableStun && flags.disableRelay

inductive Phase where
  | udp
  | relay
  | tcp
  | ssltcp
deriving DecidableEq

def Phase.number : Phase → Nat
  | .udp => 0
  | .relay => 1
  | .tcp => 2
  | .ssltcp => 3

def phases : List Phase := [.udp, .relay, .tcp, .ssltcp]

/-- What `BasicPortAllocator` has been set up with. -/
structure BasicPortAllocator (α : Type) where
  stunAddress : Option α := none
  relayAddressUdp : Option α := none
  relayAddressTcp : Option α := none
  relayAddressSsl : Option α := none
  /-- `PROXY_HTTPS` or `PROXY_UNKNOWN`. -/
  httpProxy : Bool := false
  bestWritable : Option Nat := none

namespace BasicPortAllocator

variable (a : BasicPortAllocator α)

/-- With an HTTP proxy the best bet is the relay. -/
def bestWritablePhase : Option Nat :=
  if a.bestWritable = none ∧ a.httpProxy then some Phase.relay.number else a.bestWritable

def addWritablePhase (phase : Nat) : BasicPortAllocator α :=
  if a.bestWritable.all fun best => phase < best then { a with bestWritable := some phase } else a

/-- The configuration of `GetPortConfigurations`. -/
def portConfiguration : PortConfiguration α where
  stunAddress := a.stunAddress
  relays := [(a.relayAddressUdp.map (⟨·, .udp⟩)).toList ++
    (a.relayAddressTcp.map (⟨·, .tcp⟩)).toList ++ (a.relayAddressSsl.map (⟨·, .ssltcp⟩)).toList]

end BasicPortAllocator

structure Network (α : Type) where
  id : Nat
  ip : α
deriving DecidableEq

structure AllocationSequence (α : Type) where
  network : Network α
  config : Option (PortConfiguration α)
  flags : Flags
  /-- All phases up to this one run in the first step. -/
  lastPhaseInStepZero : Nat
  running : Bool := false
  step : Nat := 0
  protocols : List ProtocolType := []

namespace AllocationSequence

variable (q : AllocationSequence α)

def stepOfPhase (phase : Phase) : Nat := phase.number - q.lastPhaseInStepZero

def protocolEnabled (proto : ProtocolType) : Bool := proto ∈ q.protocols

/-- Turns off what this sequence covers already. -/
def disableEquivalentPhases [DecidableEq α] (network : Network α)
    (config : Option (PortConfiguration α)) (flags : Flags) : Flags :=
  if network ≠ q.network then flags
  else
    let flags := { flags with disableUdp := true, disableTcp := true }
    match q.config, config with
    | some own, some config =>
      { flags with
        disableStun := flags.disableStun || own.stunAddress = config.stunAddress
        disableRelay := flags.disableRelay || own.relays ≠ [] }
    | _, _ => flags

end AllocationSequence

structure Port (α : Type) where
  /-- Tells the port from all others. -/
  serial : Nat
  name : String
  candidates : List (Candidate α) := []
  /-- `ready_` of a `RelayPort`. -/
  relayReady : Bool := false
deriving DecidableEq

structure PortData (α : Type) where
  port : Port α
  /-- The index of the sequence that has created the port. -/
  sequence : Nat
  ready : Bool := false
deriving DecidableEq

/-- A candidate in `SignalCandidatesReady`, with the place it was taken from. -/
structure Announcement (α : Type) where
  port : Nat
  index : Nat
  candidate : Candidate α
deriving DecidableEq

/-- The candidates of a port that a scan picks. -/
def PortData.picked (pd : PortData α) (pick : Candidate α → Bool) : List (Announcement α) :=
  (pd.port.candidates.zipIdx.filter fun c => pick c.1).map fun c => ⟨pd.port.serial, c.2, c.1⟩

inductive SessionMessage (α : Type) where
  | configStart
  | configReady (config : PortConfiguration α)
  | allocate
  | shake
  | allocationPhase (sequence : Nat)
deriving DecidableEq

/-- Which ports a phase can create: for UDP and TCP with the address, if the socket is bound at
once, and for the relays one after the other. -/
structure Outcome (α : Type) where
  udp : Option (Option α) := none
  stun : Bool := false
  relays : List Bool := []
  tcp : Option (Option α) := none

structure Session (α : Type) where
  name : String
  flags : Flags := {}
  allocator : BasicPortAllocator α := {}
  configs : List (PortConfiguration α) := []
  sequences : List (AllocationSequence α) := []
  ports : List (PortData α) := []
  /-- How many ports have been added. -/
  portsAdded : Nat := 0
  running : Bool := false
  allocationStarted : Bool := false
  networkManagerStarted : Bool := false
  posted : List (SessionMessage α) := []
  /-- The ports of `SignalPortReady`, in order. -/
  portReady : List Nat := []
  /-- The candidates of `SignalCandidatesReady`, in order. -/
  candidatesReady : List (List (Announcement α)) := []

namespace Session

variable (s : Session α)

def post (message : SessionMessage α) : Session α := { s with posted := s.posted ++ [message] }

def findPort (serial : Nat) : Option (PortData α) :=
  s.ports.find? fun pd => pd.port.serial = serial

def modifyPort (serial : Nat) (f : PortData α → PortData α) : Session α :=
  { s with ports := s.ports.map fun pd => if pd.port.serial = serial then f pd else pd }

def modifySequence (seq : Nat) (f : AllocationSequence α → AllocationSequence α) : Session α :=
  { s with sequences := s.sequences.modify seq f }

/-- `ProtocolEnabled` of a sequence, for a protocol as a candidate names it. -/
def enables (seq : Nat) (protocol : String) : Bool :=
  (stringToProto protocol).any fun proto =>
    s.sequences[seq]?.any fun q => q.protocolEnabled proto

def signalCandidatesReady (candidates : List (Announcement α)) : Session α :=
  if candidates = [] then s else { s with candidatesReady := s.candidatesReady ++ [candidates] }

def onAddressReady (serial : Nat) : Session α :=
  match s.findPort serial with
  | none => s
  | some pd =>
    if pd.ready then s
    else
      let s := s.modifyPort serial fun pd => { pd with ready := true }
      let s := { s with portReady := s.portReady ++ [serial] }
      s.signalCandidatesReady (pd.picked fun c => s.enables pd.sequence c.protocol)

/-- The candidates of a protocol that the ready ports of a sequence have. -/
def candidatesOf (seq : Nat) (proto : ProtocolType) : List (Announcement α) :=
  s.ports.flatMap fun pd =>
    if !pd.ready || pd.sequence ≠ seq then []
    else pd.picked fun c => stringToProto c.protocol = some proto

def onProtocolEnabled (seq : Nat) (proto : ProtocolType) : Session α :=
  s.signalCandidatesReady (s.candidatesOf seq proto)

def enableProtocol (seq : Nat) (proto : ProtocolType) : Session α :=
  if s.sequences[seq]?.any fun q => q.protocolEnabled proto then s
  else
    let s := s.modifySequence seq fun q => { q with protocols := q.protocols ++ [proto] }
    s.onProtocolEnabled seq proto

/-- `Port::AddAddress`. -/
def addAddress (serial : Nat) (address : α) (protocol : String) (final : Bool) : Session α :=
  let s := s.modifyPort serial fun pd =>
    { pd with port.candidates := pd.port.candidates ++ [⟨pd.port.name, protocol, address⟩] }
  if final then s.onAddressReady serial else s

/-- A candidate of the port has the address already. -/
def redundant [DecidableEq α] (serial : Nat) (addr : ProtocolAddress α) : Bool :=
  (s.findPort serial).any fun pd => pd.port.candidates.any fun c =>
    c.address = addr.address ∧ c.protocol = protoToString addr.proto

/-- `RelayPort::AddExternalAddress`. -/
def addExternalAddress [DecidableEq α] (serial : Nat) (addr : ProtocolAddress α) : Session α :=
  if s.redundant serial addr then s
  else s.addAddress serial addr.address (protoToString addr.proto) false

/-- `RelayPort::SetReady`. -/
def setReady (serial : Nat) : Session α :=
  match s.findPort serial with
  | none => s
  | some pd =>
    if pd.port.relayReady then s
    else (s.modifyPort serial fun pd => { pd with port.relayReady := true }).onAddressReady serial

/-- `RelayEntry::OnConnect`. -/
def onRelayConnect [DecidableEq α] (serial : Nat) (mappedAddr : α) : Session α :=
  (s.addExternalAddress serial ⟨mappedAddr, .udp⟩).setReady serial

/-- `AddAllocatedPort`; the new port has the number `portsAdded`. -/
def addAllocatedPort (seq : Nat) : Session α :=
  { s with
    ports := s.ports ++ [{ port := { serial := s.portsAdded, name := s.name }, sequence := seq }]
    portsAdded := s.portsAdded + 1 }

/-- A port whose socket is bound has an address at once. -/
def addBoundPort (seq : Nat) (protocol : String) : Option (Option α) → Session α
  | none => s
  | some none => s.addAllocatedPort seq
  | some (some address) => (s.addAllocatedPort seq).addAddress s.portsAdded address protocol true

section Phases

variable (seq : Nat) (q : AllocationSequence α) (outcome : Outcome α)

def createUDPPorts : Session α :=
  if q.flags.disableUdp then s else s.addBoundPort seq "udp" outcome.udp

def createTCPPorts : Session α :=
  if q.flags.disableTcp then s else s.addBoundPort seq "tcp" outcome.tcp

def createStunPorts : Session α :=
  if q.flags.disableStun ∨ q.config.all fun config => config.stunAddress = none then s
  else if outcome.stun then s.addAllocatedPort seq else s

/-- A relay port, with the addresses of its server as candidates. -/
def createRelayPort [DecidableEq α] (relay : List (ProtocolAddress α)) : Session α :=
  relay.foldl (fun t addr => t.addExternalAddress s.portsAdded addr) (s.addAllocatedPort seq)

def createRelayPorts [DecidableEq α] : Session α :=
  if q.flags.disableRelay then s
  else
    ((q.config.elim [] fun config => config.relays).zip outcome.relays).foldl
      (fun s relay => if relay.2 then s.createRelayPort seq relay.1 else s) s

def performPhase [DecidableEq α] : Phase → Session α
  | .udp =>
    (((s.createUDPPorts seq q outcome).createStunPorts seq q outcome).enableProtocol seq .udp)
  | .relay => s.createRelayPorts seq q outcome
  | .tcp => (s.createTCPPorts seq q outcome).enableProtocol seq .tcp
  | .ssltcp => s.enableProtocol seq .ssltcp

end Phases

variable [DecidableEq α]

/-- `AllocationSequence::OnMessage`: all phases of the current step. -/
def performStep (seq : Nat) (outcome : Outcome α) : Session α :=
  match s.sequences[seq]? with
  | none => s
  | some q =>
    let s := (phases.filter fun phase => q.stepOfPhase phase = q.step).foldl
      (fun s phase => s.performPhase seq q outcome phase) s
    let s := s.modifySequence seq fun q => { q with step := q.step + 1 }
    if q.running then s.post (.allocationPhase seq) else s

def startSequence (seq : Nat) : Session α :=
  (s.modifySequence seq fun q => { q with running := true }).post (.allocationPhase seq)

def stopSequence (seq : Nat) : Session α :=
  let s := s.modifySequence seq fun q => { q with running := false }
  { s with posted := s.posted.filter fun message => message ≠ .allocationPhase seq }

/-- A new `AllocationSequence`, which performs its first step when it is made. -/
def newSequence (network : Network α) (config : Option (PortConfiguration α)) (flags : Flags)
    (outcome : Outcome α) : Session α :=
  let seq := s.sequences.length
  let q : AllocationSequence α :=
    { network := network, config := config, flags := flags
      lastPhaseInStepZero := s.allocator.bestWritablePhase.getD 0 }
  let s := { s with sequences := s.sequences ++ [q] }
  let s := s.performStep seq outcome
  if s.running then s.startSequence seq else s

/-- The flags of a new sequence: what the configuration has not, and what is covered already, is
turned off. -/
def sequenceFlags (network : Network α) (config : Option (PortConfiguration α)) : Flags :=
  let flags := { s.flags with
    disableStun := s.flags.disableStun || config.all fun config => config.stunAddress = none
    disableRelay := s.flags.disableRelay || config.all fun config => config.relays = [] }
  s.sequences.foldl (fun flags q => q.disableEquivalentPhases network config flags) flags

def allocateOn (network : Network α) (outcome : Outcome α) : Session α :=
  let config := s.configs.getLast?
  let flags := s.sequenceFlags network config
  if flags.disableAllPhases then s else s.newSequence network config flags outcome

def doAllocate (networks : List (Network α × Outcome α)) : Session α :=
  networks.foldl (fun s network => s.allocateOn network.1 network.2) s

def onAllocate (networks : List (Network α × Outcome α)) : Session α :=
  let s := if s.networkManagerStarted then s.doAllocate networks else s
  { s with allocationStarted := true }

def onNetworksChanged (networks : List (Network α × Outcome α)) : Session α :=
  let s := { s with networkManagerStarted := true }
  if s.allocationStarted then s.doAllocate networks else s

/-- `OnShake`; the connections that it destroys are not part of the session. -/
def onShake : Session α :=
  if s.running ∨ s.ports.any PortData.ready then s.post .shake else s

def onMessage (networks : List (Network α × Outcome α)) (outcome : Outcome α) :
    SessionMessage α → Session α
  | .configStart => s.post (.configReady s.allocator.portConfiguration)
  | .configReady config =>
    let s := { s with configs := s.configs ++ [config] }
    s.post .allocate
  | .allocate => s.onAllocate networks
  | .shake => s.onShake
  | .allocationPhase seq => s.performStep seq outcome

/-- One of the posted messages is handled. -/
def handle (index : Nat) (networks : List (Network α × Outcome α)) (outcome : Outcome α) :
    Session α :=
  match s.posted[index]? with
  | none => s
  | some message =>
    let s := { s with posted := s.posted.eraseIdx index }
    s.onMessage networks outcome message

def getInitialPorts : Session α :=
  let s := s.post .configStart
  if s.flags.enableShaker then s.post .shake else s

def startGetAllPorts : Session α :=
  let s := { s with running := true }
  let s := if s.allocationStarted then s.post .allocate else s
  (List.range s.sequences.length).foldl (fun s seq => s.startSequence seq) s

def stopGetAllPorts : Session α :=
  let s := { s with running := false, posted := s.posted.filter fun message => message ≠ .allocate }
  (List.range s.sequences.length).foldl (fun s seq => s.stopSequence seq) s

def isGettingAllPorts : Bool := s.running

def onPortDestroyed (serial : Nat) : Session α :=
  { s with ports := s.ports.filter fun pd => pd.port.serial ≠ serial }

end Session

end Libjingle.Allocator

import Libjingle.P2P.Connection
import Mathlib.Data.List.Sort
import Mathlib.Data.List.Dedup

/-!
# `P2PTransportChannel`

`talk/p2p/base/p2ptransportchannel.cc`: a channel makes connections from its
ports to the remote candidates, keeps them sorted, uses the best one, and prunes
those that cannot become better than a writable one on the same network.
-/

namespace Libjingle.P2P

structure Channel (ρ : Type) where
  incomingOnly : Bool
  ports : List (Port ρ)
  /-- Best first, after a sort. -/
  connections : List (Connection ρ)
  bestConnection : Option Nat
  /-- With the port that found the candidate, if one did. -/
  remoteCandidates : List (Candidate ρ × Option Nat)
  allocatorSessions : Nat
  waitingForSignaling : Bool
  pingingStarted : Bool
  sortDirty : Bool
  /-- How often `MSG_SORT` is posted. -/
  sorts : Nat
  /-- `MSG_ALLOCATE` is posted. -/
  allocatePending : Bool
  wasWritable : Bool
  wasTimedOut : Bool
  writable : Bool
  readable : Bool
  nextConnection : Nat

section Compare

variable {ρ : Type} [Mul ρ] [LT ρ] [DecidableLT ρ]

/-- The difference of two 32-bit numbers as a signed one. -/
def signedDifference (a b : UInt32) : Int :=
  (a - b).toBitVec.toInt

/-- `CompareConnectionCandidates`. -/
def compareConnectionCandidates (a b : Connection ρ) : Int :=
  let aPref := a.port.preference * a.remote.preference
  let bPref := b.port.preference * b.remote.preference
  if bPref < aPref then 1
  else if aPref < bPref then -1
  -- Prefer a younger generation.
  else signedDifference (a.remote.generation + a.port.generation)
    (b.remote.generation + b.port.generation)

/-- `CompareConnections`. -/
def compareConnections (a b : Connection ρ) : Int :=
  if a.writeState.value < b.writeState.value then 1
  else if b.writeState.value < a.writeState.value then -1
  else compareConnectionCandidates a b

/-- `ConnectionCompare`: `a` comes first. -/
def connectionCompare (a b : Connection ρ) : Bool :=
  let cmp := compareConnections a b
  if 0 < cmp then true
  else if cmp < 0 then false
  else a.rtt < b.rtt

/-- `kMinImprovement`, the improvement in RTT that justifies a switch. -/
def minImprovement : Nat := 10

/-- `ShouldSwitch`. -/
def shouldSwitch (a b : Option (Connection ρ)) : Bool :=
  match a, b with
  | none, none => false
  | some a, some b =>
      if a.id = b.id then false
      else
        let prefsCmp := compareConnections a b
        if prefsCmp < 0 then true
        else if 0 < prefsCmp then false
        else b.rtt.toNat ≤ a.rtt.toNat + minImprovement
  | _, _ => true

end Compare

namespace Channel

variable {ρ : Type}

def new (incomingOnly : Bool) : Channel ρ where
  incomingOnly := incomingOnly
  ports := []
  connections := []
  bestConnection := none
  remoteCandidates := []
  allocatorSessions := 0
  waitingForSignaling := false
  pingingStarted := false
  sortDirty := false
  sorts := 0
  allocatePending := false
  wasWritable := false
  wasTimedOut := true
  writable := false
  readable := false
  nextConnection := 0

def find (ch : Channel ρ) (id : Nat) : Option (Connection ρ) :=
  ch.connections.find? fun c => c.id = id

/-- The connection that `best_connection_` points to. -/
def best (ch : Channel ρ) : Option (Connection ρ) :=
  ch.bestConnection.bind ch.find

def requestSort (ch : Channel ρ) : Channel ρ :=
  if ch.sortDirty then ch else { ch with sorts := ch.sorts + 1, sortDirty := true }

/-- `OnConnectionStateChange`, once for all connections that have signalled. -/
def noticeStateChanges (ch : Channel ρ) : Channel ρ :=
  let noticed :=
    { ch with connections := ch.connections.map fun c => { c with signalled := false } }
  if ch.connections.any (·.signalled) then noticed.requestSort else noticed

/-! ## Sorting -/

def updateConnectionStates (ch : Channel ρ) (now : UInt32) : Channel ρ :=
  { ch with
    connections := ch.connections.map fun c => Connection.updateState c now }.noticeStateChanges

/-- `Allocate`. -/
def allocate (ch : Channel ρ) : Channel ρ :=
  { ch with allocatePending := false, waitingForSignaling := true }

/-- `GetBestConnectionOnNetwork`. -/
def getBestConnectionOnNetwork (ch : Channel ρ) (network : Nat) : Option (Connection ρ) :=
  match ch.best with
  | some best =>
      if best.port.network = network then some best
      else ch.connections.find? fun c => c.port.network = network
  | none => ch.connections.find? fun c => c.port.network = network

def handleWritable (ch : Channel ρ) : Channel ρ :=
  let ch := if ch.writable then ch else { ch with allocatePending := false }
  { ch with wasWritable := true, wasTimedOut := false, writable := true }

def handleNotWritable (ch : Channel ρ) : Channel ρ :=
  let ch := if ch.wasWritable then { ch with wasWritable := false }.allocate else ch
  { ch with wasTimedOut := false, writable := false }

def handleAllTimedOut (ch : Channel ρ) : Channel ρ :=
  let ch := if ch.wasTimedOut then ch else ch.allocate
  { ch with wasTimedOut := true, wasWritable := false, writable := false }

/-- `UpdateChannelState`. -/
def updateChannelState (ch : Channel ρ) : Channel ρ :=
  { ch with readable := ch.connections.any fun c => c.readState = .readable }

/-- The second half of `SortConnections`: the number of connections in the various
states decides which handler runs. -/
def countStates (ch : Channel ρ) : Channel ρ :=
  if ch.connections.any (fun c => c.writeState = .writable) then ch.handleWritable
  else if ch.connections.any (fun c => c.writeState = .writeConnect) then ch.handleNotWritable
  else ch.handleAllTimedOut

section Sorting

variable [Mul ρ] [LT ρ] [DecidableLT ρ]

/-- The stable sort by `ConnectionCompare`. -/
def sorted (ch : Channel ρ) : Channel ρ :=
  { ch with
    connections := ch.connections.insertionSort fun a b => connectionCompare b a = false }

def switchBestConnection (ch : Channel ρ) : Channel ρ :=
  if shouldSwitch ch.best ch.connections.head? then
    { ch with bestConnection := ch.connections.head?.map (·.id) }
  else ch

/-- The first half of `SortConnections`. -/
def chooseBest (ch : Channel ρ) (now : UInt32) : Channel ρ :=
  { ch.updateConnectionStates now with sortDirty := false }.sorted.switchBestConnection

/-- Prune what cannot become better than the writable primier of a network. -/
def pruneNetwork (ch : Channel ρ) (network : Nat) : Channel ρ :=
  match ch.getBestConnectionOnNetwork network with
  | none => ch
  | some primier =>
      if primier.writeState ≠ .writable then ch
      else
        { ch with
          connections := ch.connections.map fun c =>
            if c.id ≠ primier.id ∧ c.port.network = network ∧
                0 ≤ compareConnectionCandidates primier c then
              c.prune
            else c }

/-- The networks in use. -/
def networks (ch : Channel ρ) : List Nat :=
  (ch.connections.map (·.port.network)).dedup

def pruneConnections (ch : Channel ρ) : Channel ρ :=
  (ch.networks.foldl pruneNetwork ch).noticeStateChanges

def sortConnections (ch : Channel ρ) (now : UInt32) : Channel ρ :=
  (ch.chooseBest now).pruneConnections.countStates.updateChannelState

end Sorting

/-! ## Creating connections -/

/-- `GetConnection` of a port. -/
def getConnection (ch : Channel ρ) (port : Nat) (address : SocketAddress) :
    Option (Connection ρ) :=
  ch.connections.find? fun c => c.port.id = port ∧ c.remote.address = address

/-- `GetOrigin`. -/
def getOrigin (port : Nat) (originPort : Option Nat) : CandidateOrigin :=
  match originPort with
  | none => .message
  | some origin => if port = origin then .thisPort else .otherPort

def modify (ch : Channel ρ) (id : Nat) (f : Connection ρ → Connection ρ) : Channel ρ :=
  { ch with connections := ch.connections.map fun c => if c.id = id then f c else c }

/-- A connection that a ping creates is readable. -/
def receivedPing (ch : Channel ρ) (id : Nat) (readable : Option UInt32) : Channel ρ :=
  match readable with
  | none => ch
  | some now => ch.modify id (·.receivedPing now)

/-- `CreateConnection`. -/
def createConnection (ch : Channel ρ) (port : Port ρ) (remote : Candidate ρ)
    (originPort : Option Nat) (readable : Option UInt32) : Bool × Channel ρ :=
  match ch.getConnection port.id remote.address with
  | some c =>
      if remote.isEquivalent c.remote then (true, ch.receivedPing c.id readable) else (false, ch)
  | none =>
      let origin := getOrigin port.id originPort
      if origin = .message ∧ ch.incomingOnly then (false, ch)
      else
        match port.connects remote origin with
        | none => (false, ch)
        | some connected =>
            let c := Connection.new ch.nextConnection port remote connected
            let ch :=
              { ch with
                connections := ch.connections ++ [c]
                nextConnection := ch.nextConnection + 1 }
            (true, ch.receivedPing c.id readable)

/-- `RememberRemoteCandidate`. -/
def rememberRemoteCandidate (ch : Channel ρ) (remote : Candidate ρ) (originPort : Option Nat) :
    Channel ρ :=
  let kept := ch.remoteCandidates.filter fun r => ¬ r.1.generation < remote.generation
  if kept.any fun r => r.1.isEquivalent remote then { ch with remoteCandidates := kept }
  else
    { ch with remoteCandidates := kept ++ [(remote, originPort)], pingingStarted := true }

/-- A connection from each port; the flag tells whether the origin port made one. -/
def createFrom (remote : Candidate ρ) (originPort : Option Nat) (readable : Option UInt32) :
    List (Port ρ) → Channel ρ → Bool × Channel ρ
  | [], ch => (false, ch)
  | port :: rest, ch =>
      let (made, ch) := ch.createConnection port remote originPort readable
      let (created, ch) := createFrom remote originPort readable rest ch
      (created || (made && originPort = some port.id), ch)

/-- `CreateConnections`: from the newest port to the oldest, and from the origin
port also when it is not among them. -/
def createConnections (ch : Channel ρ) (remote : Candidate ρ) (originPort : Option (Port ρ))
    (readable : Option UInt32) : Bool × Channel ρ :=
  let origin := originPort.map (·.id)
  let pruned := originPort.toList.filter fun port => ch.ports.all fun p => p.id ≠ port.id
  let (created, ch) := createFrom remote origin readable (ch.ports.reverse ++ pruned) ch
  (created, ch.rememberRemoteCandidate remote origin)

/-! ## Pinging -/

/-- `MAX_CURRENT_WRITABLE_DELAY`. -/
def maxCurrentWritableDelay : UInt32 := 900

def isPingable (ch : Channel ρ) (c : Connection ρ) : Bool :=
  if ¬ c.connected then false
  else if ch.writable then c.writeState ≠ .writeTimeout
  else c.writeState ≠ .writeTimeout ∨ c.readState ≠ .readTimeout

/-- The pingable connection that was pinged longest ago, and the time of that. -/
def oldestPingable (ch : Channel ρ) : List (Connection ρ) → Option Nat → UInt32 → Option Nat
  | [], oldest, _ => oldest
  | c :: rest, oldest, time =>
      if ch.isPingable c ∧ c.lastPingSent < time then
        ch.oldestPingable rest (some c.id) c.lastPingSent
      else ch.oldestPingable rest oldest time

def findNextPingableConnection (ch : Channel ρ) (now : UInt32) : Option Nat :=
  match ch.best with
  | some best =>
      if best.writeState = .writable ∧ best.lastPingSent + maxCurrentWritableDelay ≤ now then
        some best.id
      else ch.oldestPingable ch.connections none 0xFFFFFFFF
  | none => ch.oldestPingable ch.connections none 0xFFFFFFFF

/-- `OnPing`, with the random id of the request. -/
def onPing (ch : Channel ρ) (request : Nat) (now : UInt32) : Channel ρ :=
  let ch := ch.updateConnectionStates now
  match ch.findNextPingableConnection now with
  | none => ch
  | some id => ch.modify id (·.ping request now)

/-! ## Events -/

inductive Event (ρ : Type) where
  /-- The transport connects its channels. -/
  | connect
  | signalingReady
  | portReady (port : Port ρ)
  | portDestroyed (port : Nat)
  | candidate (remote : Candidate ρ)
  /-- A valid ping from an address that no connection has. -/
  | unknownAddress (port : Port ρ) (address : SocketAddress) (remoteUsername : String)
  | packet (connection : Nat) (packet : Connection.Packet)
  /-- The message of a ping request is delivered. -/
  | requestMessage (connection request : Nat)
  | connected (connection : Nat)
  | closed (connection : Nat)
  | destroyConnection (connection : Nat)
  /-- `MSG_DELETE` is delivered. -/
  | deleteConnection (connection : Nat)
  | ping (request : Nat)
  | sort
  | allocate
  | reset (connectRequested : Bool)

/-- `OnConnectionDestroyed`. -/
def onConnectionDestroyed (ch : Channel ρ) (id : Nat) : Channel ρ :=
  let ch := { ch with connections := ch.connections.filter fun c => c.id ≠ id }
  if ch.bestConnection = some id then { ch with bestConnection := none }.requestSort else ch

/-- Something happens to a connection, and the channel notices. -/
def stepConnection (ch : Channel ρ) (id : Nat) (f : Connection ρ → Connection ρ) : Channel ρ :=
  (ch.modify id f).noticeStateChanges

def onPortReady (ch : Channel ρ) (port : Port ρ) : Channel ρ :=
  ch.remoteCandidates.foldl (fun ch r => (ch.createConnection port r.1 r.2 none).2)
    { ch with ports := ch.ports ++ [port] }

/-- `OnUnknownAddress`; the flag tells whether the connections are sorted. -/
def onUnknownAddress (ch : Channel ρ) (port : Port ρ) (address : SocketAddress)
    (remoteUsername : String) (now : UInt32) : Bool × Channel ρ :=
  match ch.remoteCandidates.find? fun r => r.1.username = remoteUsername with
  | none => (false, ch)
  | some r =>
      match ch.createConnections { r.1 with address := address } (some port) (some now) with
      | (false, ch) => (false, ch.noticeStateChanges)
      | (true, ch) =>
          -- `SendBindingResponse` makes the connection readable once more.
          match ch.getConnection port.id address with
          | none => (true, ch.noticeStateChanges)
          | some c => (true, ch.stepConnection c.id (·.receivedPing now))

/-- `Reset`: the allocator sessions take their ports and connections with them. -/
def reset (ch : Channel ρ) (connectRequested : Bool) : Channel ρ :=
  let ch :=
    { ch with
      allocatorSessions := 0
      ports := []
      connections := []
      bestConnection := none
      remoteCandidates := []
      readable := false
      writable := false
      waitingForSignaling := false
      pingingStarted := false
      sortDirty := false
      wasWritable := false
      wasTimedOut := true }
  let ch := if connectRequested then ch.allocate else ch
  { ch with sorts := 0, allocatePending := false }

/-- The work of an event up to `SortConnections`, and whether that comes next. -/
def handle (ch : Channel ρ) (event : Event ρ) (now : UInt32) : Bool × Channel ρ :=
  match event with
  | .connect => (false, ch.allocate)
  | .signalingReady =>
      (false, if ch.waitingForSignaling then
        { ch with
          waitingForSignaling := false
          allocatorSessions := ch.allocatorSessions + 1
          ports := []
          allocatePending := true }
      else ch)
  | .portReady port => (true, ch.onPortReady port)
  | .portDestroyed port => (false, { ch with ports := ch.ports.filter fun p => p.id ≠ port })
  | .candidate remote => (true, (ch.createConnections remote none none).2)
  | .unknownAddress port address remoteUsername =>
      ch.onUnknownAddress port address remoteUsername now
  | .packet id packet => (false, ch.stepConnection id (·.onReadPacket packet now))
  | .requestMessage id request => (false, ch.stepConnection id (·.onRequestMessage request now))
  | .connected id => (false, ch.stepConnection id (·.onConnect))
  | .closed id => (false, ch.stepConnection id (·.onClose))
  | .destroyConnection id => (false, ch.stepConnection id (·.destroy))
  | .deleteConnection id =>
      match ch.find id with
      | none => (false, ch)
      | some c => (false, if c.deletes = 0 then ch else ch.onConnectionDestroyed id)
  | .ping request => (false, ch.onPing request now)
  | .sort => (true, { ch with sorts := ch.sorts - 1 })
  | .allocate => (false, ch.allocate)
  | .reset connectRequested => (false, ch.reset connectRequested)

/-- An event at a time of the clock. -/
structure Stimulus (ρ : Type) where
  event : Event ρ
  now : UInt32

def step [Mul ρ] [LT ρ] [DecidableLT ρ] (ch : Channel ρ) (stimulus : Stimulus ρ) : Channel ρ :=
  match ch.handle stimulus.event stimulus.now with
  | (true, ch) => ch.sortConnections stimulus.now
  | (false, ch) => ch

end Channel

end Libjingle.P2P

import Libjingle.Base.MessageQueue
import Libjingle.Base.SocketAddress
import Libjingle.Std.Trace
import Mathlib.Logic.Function.Basic

/-!
# `VirtualSocketServer`

Stream sockets of `talk/base/virtualsocketserver.cc`. Sockets are numbered as they are made. A
listening socket is found by its address, and an accepted socket only by the pair of addresses. The
clock is read for each packet, and the transit delay of each is given from outside.
-/

namespace Libjingle.VirtualSockets

open Libjingle.Std Libjingle.Base

/-- `TimeIsLaterOrEqual`. -/
def timeIsLaterOrEqual (earlier later : Nat) : Prop :=
  0 ≤ timeDiff later earlier ∧ sub32 later earlier < half

instance decidableTimeIsLaterOrEqual (earlier later : Nat) :
    Decidable (timeIsLaterOrEqual earlier later) :=
  inferInstanceAs (Decidable (_ ∧ _))

/-- `TimeMax`. -/
def timeMax (ts1 ts2 : Nat) : Nat :=
  if timeIsLaterOrEqual ts1 ts2 then ts2 else ts1

def tcpHeaderSize : Nat := 40

def tcpMss : Nat := 1400

def msgIdPacket : Nat := 0

def msgIdConnect : Nat := 1

def msgIdDisconnect : Nat := 2

/-- What has not been consumed of a packet, and where it comes from. -/
structure Packet where
  data : List UInt8
  sender : SocketAddress
  deriving DecidableEq, Repr

inductive MessageData
  | packet (packet : Packet)
  | address (addr : SocketAddress)
  | null
  deriving DecidableEq, Repr

structure NetworkEntry where
  size : Nat
  doneTime : Nat
  deriving DecidableEq, Repr

inductive ConnState
  | closed | connecting | connected
  deriving DecidableEq, Repr

structure VirtualSocket where
  state : ConnState := .closed
  localAddr : SocketAddress := .nil
  remoteAddr : SocketAddress := .nil
  listenQueue : Option (List SocketAddress) := none
  sendBuffer : List UInt8 := []
  writeEnabled : Bool := false
  network : List NetworkEntry := []
  networkSize : Nat := 0
  recvBuffer : List Packet := []
  recvBufferSize : Nat := 0
  wasAny : Bool := false
  v6Only : Bool := false
  deriving DecidableEq, Repr

structure VirtualSocketServer where
  sockets : Nat → VirtualSocket := fun _ => {}
  nextSocket : Nat := 0
  bindings : SocketAddress → Option Nat := fun _ => none
  connections : SocketAddress × SocketAddress → Option Nat := fun _ => none
  msgQueue : MessageQueue MessageData := {}
  networkDelay : Nat
  bandwidth : Nat
  sendBufferCapacity : Nat
  recvBufferCapacity : Nat

/-- What is read from the clock and drawn from the distribution for a packet. -/
structure Tick where
  time : Nat
  transitDelay : Nat
  deriving DecidableEq, Repr

/-- The map of the bindings, and of the connections, has normalized addresses for keys. -/
def normalized (addr : SocketAddress) : SocketAddress :=
  { addr with ip := addr.ip.normalized }

namespace VirtualSocketServer

variable (heap : DelayHeap MessageData) (m : VirtualSocketServer)

def modify (socket : Nat) (change : VirtualSocket → VirtualSocket) : VirtualSocketServer :=
  { m with sockets := Function.update m.sockets socket (change (m.sockets socket)) }

def lookupBinding (addr : SocketAddress) : Option Nat :=
  m.bindings (normalized addr)

def lookupConnection (localAddr remoteAddr : SocketAddress) : Option Nat :=
  m.connections (normalized localAddr, normalized remoteAddr)

/-- A pair that is there already keeps its socket. -/
def addConnection (localAddr remoteAddr : SocketAddress) (remoteSocket : Nat) : VirtualSocketServer :=
  let pair := (normalized localAddr, normalized remoteAddr)
  match m.connections pair with
  | some _ => m
  | none => { m with connections := Function.update m.connections pair (some remoteSocket) }

/-! ## Sending -/

/-- The entries that are left, and the sum of their sizes. -/
def purged (curTime : Nat) : List NetworkEntry → Nat → List NetworkEntry × Nat
  | [], networkSize => ([], networkSize)
  | entry :: network, networkSize =>
      if entry.doneTime ≤ curTime then purged curTime network (sub32 networkSize entry.size)
      else (entry :: network, networkSize)

def purgeNetworkPackets (socket curTime : Nat) : VirtualSocketServer :=
  m.modify socket fun s =>
    let (network, networkSize) := purged curTime s.network s.networkSize
    { s with network, networkSize }

def sendDelay (size : Nat) : Nat :=
  if m.bandwidth = 0 then 0 else mul32 1000 size / m.bandwidth

def addPacketToNetwork (sender recipient curTime : Nat) (tick : Tick) (data : List UInt8)
    (headerSize : Nat) (ordered : Bool) : VirtualSocketServer :=
  let size := toWord (data.length + headerSize)
  let networkSize := add32 (m.sockets sender).networkSize size
  let sendDelay := m.sendDelay networkSize
  let entry : NetworkEntry := { size, doneTime := add32 curTime sendDelay }
  let p : Packet := { data, sender := (m.sockets sender).localAddr }
  let ts := add32 tick.time (add32 sendDelay tick.transitDelay)
  let ts := if ordered then timeMax ts m.networkDelay else ts
  let m := m.modify sender fun s => { s with networkSize, network := s.network ++ [entry] }
  { m with
    msgQueue := m.msgQueue.postAt heap tick.time ts (some recipient) msgIdPacket (.packet p)
    networkDelay := timeMax ts m.networkDelay }

/-- How much the next packet takes of what there is to send. -/
def dataSize (socket recipient : Nat) : Nat :=
  let available := sub32 m.recvBufferCapacity (m.sockets recipient).recvBufferSize
  let maxDataSize := min available (tcpMss - tcpHeaderSize)
  min (m.sockets socket).sendBuffer.length maxDataSize

/-- A turn of the loop in `SendTcp`, which ends where there is nothing more to be sent. -/
def sendPacket (socket recipient curTime : Nat) (tick : Tick) : VirtualSocketServer :=
  let dataSize := m.dataSize socket recipient
  if dataSize = 0 then m
  else
    let data := (m.sockets socket).sendBuffer.take dataSize
    let m := m.addPacketToNetwork heap socket recipient curTime tick data tcpHeaderSize true
    let m := m.modify recipient fun s =>
      { s with recvBufferSize := add32 s.recvBufferSize dataSize }
    m.modify socket fun s => { s with sendBuffer := s.sendBuffer.drop dataSize }

/-- The loop. A packet takes a byte at least, so that no more turns than bytes do something. -/
def sendPackets (socket recipient curTime : Nat) (clock : Nat → Tick) : VirtualSocketServer :=
  runInputs (fun m tick => m.sendPacket heap socket recipient curTime tick) m
    ((List.range (m.sockets socket).sendBuffer.length).map clock)

/-- `VirtualSocketServer::SendTcp`. -/
def sendTcp (socket curTime : Nat) (clock : Nat → Tick) : VirtualSocketServer :=
  match m.lookupConnection (m.sockets socket).localAddr (m.sockets socket).remoteAddr with
  | none => m
  | some recipient =>
      let m := m.purgeNetworkPackets socket curTime
      let m := m.sendPackets heap socket recipient curTime clock
      m.modify socket fun s =>
        if s.writeEnabled ∧ s.sendBuffer.length < m.sendBufferCapacity then
          { s with writeEnabled := false }
        else s

/-- How many bytes of a text `Send` takes, if it takes it. -/
def consumed (socket cb : Nat) : Option Nat :=
  let s := m.sockets socket
  if s.state ≠ .connected then none
  else
    let capacity := sub32 m.sendBufferCapacity s.sendBuffer.length
    if capacity = 0 then none else some (min cb capacity)

/-- What `Send` leaves for `SendTcp` of the server. -/
def buffered (socket : Nat) (pv : List UInt8) : VirtualSocketServer :=
  m.modify socket fun s => { s with sendBuffer := s.sendBuffer ++ pv }

/-- `VirtualSocket::Send`, of a stream socket. -/
def send (socket : Nat) (pv : List UInt8) (curTime : Nat) (clock : Nat → Tick) :
    VirtualSocketServer :=
  match m.consumed socket pv.length with
  | some consumed => (m.buffered socket (pv.take consumed)).sendTcp heap socket curTime clock
  | none =>
      if (m.sockets socket).state = .connected then
        m.modify socket fun s => { s with writeEnabled := true }
      else m

/-! ## Receiving -/

/-- The bytes that `RecvFrom` reads, if a packet is there. -/
def dataRead (socket cb : Nat) : Option (List UInt8) :=
  (m.sockets socket).recvBuffer.head?.map fun packet => packet.data.take cb

/-- What the reader has left. -/
def unread (socket cb : Nat) : VirtualSocketServer :=
  m.modify socket fun s =>
    match s.recvBuffer with
    | [] => s
    | packet :: rest =>
        let dataRead := min cb packet.data.length
        { s with
          recvBuffer :=
            if dataRead < packet.data.length then
              { packet with data := packet.data.drop dataRead } :: rest
            else rest
          recvBufferSize := sub32 s.recvBufferSize dataRead }

def wasFull (socket : Nat) : Prop :=
  (m.sockets socket).recvBufferSize = m.recvBufferCapacity

instance decidableWasFull (socket : Nat) : Decidable (m.wasFull socket) :=
  inferInstanceAs (Decidable (_ = _))

/-- The socket that a reader takes for the sender. -/
def resumed (socket : Nat) : Option Nat :=
  m.lookupBinding (m.sockets socket).remoteAddr

/-- `RecvFrom`, of a stream socket. -/
def recvFrom (socket cb curTime : Nat) (clock : Nat → Tick) : VirtualSocketServer :=
  match (m.sockets socket).recvBuffer with
  | [] => m
  | _ :: _ =>
      if m.wasFull socket then
        match m.resumed socket with
        | some sender => (m.unread socket cb).sendTcp heap sender curTime clock
        -- An assertion excludes this.
        | none => m.unread socket cb
      else m.unread socket cb

/-! ## Connecting -/

/-- `new VirtualSocket`. -/
def create (socket : VirtualSocket) : Nat × VirtualSocketServer :=
  (m.nextSocket,
    { m with
      sockets := Function.update m.sockets m.nextSocket socket
      nextSocket := m.nextSocket + 1 })

/-- `Bind` to an address that is given in full. -/
def bind (socket : Nat) (addr : SocketAddress) : Bool × VirtualSocketServer :=
  if ¬ (m.sockets socket).localAddr.isAny then (false, m)
  else
    match m.lookupBinding addr with
    | some _ => (false, m)
    | none =>
        let m := m.modify socket fun s => { s with localAddr := normalized addr }
        (true, { m with bindings := Function.update m.bindings (normalized addr) (some socket) })

def listen (socket : Nat) : Bool × VirtualSocketServer :=
  if (m.sockets socket).localAddr.isAny then (false, m)
  else (true, m.modify socket fun s => { s with listenQueue := some [], state := .connecting })

def sameFamily (a b : IPAddress) : Bool :=
  match a, b with
  | .v4 _, .v4 _ => true
  | .v6 _, .v6 _ => true
  | .unspec, .unspec => true
  | _, _ => false

def isV6 (a : IPAddress) : Bool :=
  match a with
  | .v6 _ => true
  | _ => false

/-- `CanInteractWith`, of sockets that are there. -/
def canInteractWith (a b : VirtualSocket) : Bool :=
  let localIp := a.localAddr.ip
  let remoteIp := b.localAddr.ip
  sameFamily localIp.normalized remoteIp.normalized ∨
    (localIp.isV4 ∧ ¬ b.v6Only ∧ remoteIp.isAny) ∨ (remoteIp.isV4 ∧ ¬ a.v6Only ∧ localIp.isAny) ∨
    (isV6 localIp ∧ a.wasAny) ∨ (isV6 remoteIp ∧ b.wasAny)

/-- `VirtualSocketServer::Connect`. Nobody can be reached where nothing is bound. -/
def connect (socket : Nat) (remoteAddr : SocketAddress) (delay time : Nat) :
    Bool × VirtualSocketServer :=
  match m.lookupBinding remoteAddr with
  | none => (false, m)
  | some remote =>
      if canInteractWith (m.sockets socket) (m.sockets remote) then
        (true, { m with
          msgQueue := m.msgQueue.postDelayed heap time delay (some remote) msgIdConnect
            (.address (m.sockets socket).localAddr) })
      else (false, m)

/-- `InitiateConnect`, of a stream socket that has an address. -/
def initiateConnect (socket : Nat) (addr : SocketAddress) (delay time : Nat) :
    Bool × VirtualSocketServer :=
  if ¬ (m.sockets socket).remoteAddr.isAny then (false, m)
  else
    match m.connect heap socket addr delay time with
    | (true, m) => (true, m.modify socket fun s => { s with state := .connecting })
    | (false, m) => (false, m)

def completeConnect (socket : Nat) (addr : SocketAddress) : VirtualSocketServer :=
  let m := m.modify socket fun s => { s with remoteAddr := addr, state := .connected }
  m.addConnection addr (m.sockets socket).localAddr socket

/-- `Accept`: an address that cannot be reached is passed over. -/
def acceptFrom (socket time : Nat) :
    List SocketAddress → VirtualSocketServer → Option Nat × VirtualSocketServer
  | [], m => (none, m)
  | remoteAddr :: waiting, m =>
      let listening := m.sockets socket
      let (accepted, m) := m.create { localAddr := listening.localAddr, wasAny := listening.wasAny }
      let (result, m) := m.initiateConnect heap accepted remoteAddr 0 time
      let m := m.modify socket fun s => { s with listenQueue := some waiting }
      if result then (some accepted, m.completeConnect accepted remoteAddr)
      else acceptFrom socket time waiting m

def accept (socket time : Nat) : Option Nat × VirtualSocketServer :=
  match (m.sockets socket).listenQueue with
  | none => (none, m)
  | some waiting => acceptFrom heap socket time waiting m

def disconnect (socket : Option Nat) : VirtualSocketServer :=
  match socket with
  | some socket =>
      { m with msgQueue := m.msgQueue.post (some socket) msgIdDisconnect .null }
  | none => m

/-! ## Messages -/

/-- `OnMessage` of a stream socket. -/
def onMessage (socket messageId : Nat) (pdata : MessageData) : VirtualSocketServer :=
  if messageId = msgIdPacket then
    match pdata with
    | .packet packet => m.modify socket fun s => { s with recvBuffer := s.recvBuffer ++ [packet] }
    | _ => m
  else if messageId = msgIdConnect then
    match pdata with
    | .address addr =>
        match (m.sockets socket).listenQueue with
        | some waiting => m.modify socket fun s => { s with listenQueue := some (waiting ++ [addr]) }
        | none =>
            if (m.sockets socket).state = .connecting then m.completeConnect socket addr
            else m.disconnect (m.lookupBinding addr)
    | _ => m
  else if messageId = msgIdDisconnect then
    if (m.sockets socket).state ≠ .closed then
      m.modify socket fun s => { s with state := .closed, remoteAddr := .nil }
    else m
  else m

/-- The message that `Get` finds, if it finds one, is dispatched. -/
def deliver (time : Nat) : VirtualSocketServer :=
  match m.msgQueue.get heap kForever time with
  | (.returns msg, msgQueue) =>
      match msg.phandler with
      | some socket => { m with msgQueue }.onMessage socket msg.messageId msg.pdata
      | none => { m with msgQueue }
  | (_, msgQueue) => { m with msgQueue }

end VirtualSocketServer

/-! ## Traffic -/

/-- The server with the bytes that each socket has accepted from `Send`, and has handed out. -/
structure Traffic where
  server : VirtualSocketServer
  accepted : Nat → List UInt8 := fun _ => []
  received : Nat → List UInt8 := fun _ => []

inductive Input
  | send (socket : Nat) (pv : List UInt8) (curTime : Nat) (clock : Nat → Tick)
  | recv (socket cb : Nat) (curTime : Nat) (clock : Nat → Tick)
  | deliver (time : Nat)

namespace Traffic

variable (heap : DelayHeap MessageData) (t : Traffic)

def step : Input → Traffic
  | .send socket pv curTime clock =>
      { t with
        server := t.server.send heap socket pv curTime clock
        accepted := Function.update t.accepted socket
          (t.accepted socket ++ pv.take ((t.server.consumed socket pv.length).getD 0)) }
  | .recv socket cb curTime clock =>
      { t with
        server := t.server.recvFrom heap socket cb curTime clock
        received := Function.update t.received socket
          (t.received socket ++ (t.server.dataRead socket cb).getD []) }
  | .deliver time => { t with server := t.server.deliver heap time }

end Traffic

end Libjingle.VirtualSockets

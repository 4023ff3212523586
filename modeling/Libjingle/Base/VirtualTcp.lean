import Libjingle.Base.PostedInOrder
import Libjingle.Base.VirtualSocketServer

/-!
# Flow control between virtual sockets

The window of a receiver counts the bytes in flight to it and those it has yet to read. A sender
stops at a full window, and is to be resumed by the read that opens it.
-/

namespace Libjingle.VirtualSockets

open Libjingle.Std Libjingle.Base

def MessageData.bytes : MessageData → List UInt8
  | .packet p => p.data
  | _ => []

/-- The bytes of the messages for a socket. -/
def bytesFor (socket : Nat) (messages : List (Message MessageData)) : List UInt8 :=
  messages.flatMap fun msg => if msg.phandler = some socket then msg.pdata.bytes else []

namespace VirtualSocketServer

def messages (m : VirtualSocketServer) : List (Message MessageData) :=
  m.msgQueue.msgq ++ m.msgQueue.dmsgq.map DelayedMessage.msg

/-- The bytes that a socket has been delivered and not read. -/
def unreadBytes (m : VirtualSocketServer) (socket : Nat) : List UInt8 :=
  (m.sockets socket).recvBuffer.flatMap Packet.data

/-- Where the packets of a socket go. -/
def recipient (m : VirtualSocketServer) (socket : Nat) : Option Nat :=
  m.lookupConnection (m.sockets socket).localAddr (m.sockets socket).remoteAddr

/-- What a sender has left to send waits for the window. -/
def Waits (m : VirtualSocketServer) (s r : Nat) : Prop :=
  (m.sockets s).sendBuffer ≠ [] → m.wasFull r

/-- Pairs of sockets that send to each other. What a reader takes for its sender is that one, or a
socket that sends nothing. -/
structure Wired (m : VirtualSocketServer) (ends : List (Nat × Nat)) : Prop where
  both : ∀ {s r}, (s, r) ∈ ends → (r, s) ∈ ends
  apart : ∀ {s r}, (s, r) ∈ ends → s ≠ r
  connected : ∀ {s r}, (s, r) ∈ ends → (m.sockets s).state = .connected
  recipient : ∀ {s r}, (s, r) ∈ ends → m.recipient s = some r
  resumed : ∀ {s r}, (s, r) ∈ ends → ∃ sender, m.resumed r = some sender ∧
    (sender = s ∨ m.recipient sender = none)
  others : ∀ x, (∀ r, (x, r) ∉ ends) → (m.sockets x).state ≠ .connected

end VirtualSocketServer

/-- What is to hold of the bytes from one socket to another. -/
structure Delivers (t : Traffic) (s r : Nat) : Prop where
  ordered : t.received r <+: t.accepted s
  counted : (t.server.sockets r).recvBufferSize =
    (bytesFor r t.server.messages).length + (t.server.unreadBytes r).length
  fits : (t.server.sockets r).recvBufferSize ≤ t.server.recvBufferCapacity
  waits : t.server.Waits s r

/-! ## The condition -/

section

variable (heap : DelayHeap MessageData)

/-- Neither the time of the last packet nor the number of the messages has wrapped, which matters
while a packet is on its way. -/
def Onward (m later : VirtualSocketServer) : Prop :=
  (m.msgQueue.dmsgq = [] ∨ m.networkDelay ≤ later.networkDelay) ∧
    m.msgQueue.dmsgqNextNum ≤ later.msgQueue.dmsgqNextNum

instance decidableOnward (m later : VirtualSocketServer) : Decidable (Onward m later) :=
  inferInstanceAs (Decidable (_ ∧ _))

namespace VirtualSocketServer

variable (m : VirtualSocketServer)

/-- Nothing wraps between the packets that `SendTcp` sends. -/
def SendsOnward (socket curTime : Nat) (clock : Nat → Tick) : Prop :=
  ∀ recipient ∈ m.recipient socket,
    let m := m.purgeNetworkPackets socket curTime
    Along (fun m tick => m.sendPacket heap socket recipient curTime tick)
      (fun m tick => Onward m (m.sendPacket heap socket recipient curTime tick)) m
      ((List.range (m.sockets socket).sendBuffer.length).map clock)

/-- A read that opens the window finds the sender, if that has something left to send. -/
def Resumes (socket cb : Nat) : Prop :=
  m.wasFull socket → (m.dataRead socket cb).getD [] ≠ [] →
    ∀ sender ∈ m.recipient socket, (m.sockets sender).sendBuffer ≠ [] →
      m.resumed socket = some sender

instance decidableSendsOnward (socket curTime : Nat) (clock : Nat → Tick) :
    Decidable (m.SendsOnward heap socket curTime clock) :=
  inferInstanceAs (Decidable (∀ recipient ∈ m.recipient socket, _))

instance decidableResumes (socket cb : Nat) : Decidable (m.Resumes socket cb) :=
  inferInstanceAs (Decidable (_ → _ → ∀ sender ∈ m.recipient socket, _ → _))

end VirtualSocketServer

namespace Traffic

/-- What a call may do. -/
def Clear (t : Traffic) : Input → Prop
  | .send socket pv curTime clock =>
      ∀ consumed ∈ t.server.consumed socket pv.length,
        (t.server.buffered socket (pv.take consumed)).SendsOnward heap socket curTime clock
  | .recv socket cb curTime clock =>
      t.server.Resumes socket cb ∧
        ∀ sender ∈ t.server.resumed socket,
          (t.server.unread socket cb).SendsOnward heap sender curTime clock
  | .deliver _ => True

instance decidableClear (t : Traffic) : (input : Input) → Decidable (t.Clear heap input)
  | .send socket pv _ _ => inferInstanceAs (Decidable (∀ consumed ∈ t.server.consumed socket pv.length, _))
  | .recv socket cb _ _ =>
      inferInstanceAs (Decidable (t.server.Resumes socket cb ∧ ∀ sender ∈ t.server.resumed socket, _))
  | .deliver _ => .isTrue trivial

end Traffic

end

/-! ## Frames -/

namespace VirtualSocketServer

section

variable {m later : VirtualSocketServer} {ends : List (Nat × Nat)} {s r x : Nat}

theorem modify_sockets (m : VirtualSocketServer) (x y : Nat) (change : VirtualSocket → VirtualSocket) :
    (m.modify x change).sockets y = if y = x then change (m.sockets x) else m.sockets y :=
  Function.update_apply _ _ _ _

/-- The tables and what they are asked with are the same. -/
structure SameWiring (m later : VirtualSocketServer) : Prop where
  state : ∀ x, (later.sockets x).state = (m.sockets x).state
  localAddr : ∀ x, (later.sockets x).localAddr = (m.sockets x).localAddr
  remoteAddr : ∀ x, (later.sockets x).remoteAddr = (m.sockets x).remoteAddr
  bindings : later.bindings = m.bindings
  connections : later.connections = m.connections

theorem SameWiring.refl (m : VirtualSocketServer) : SameWiring m m :=
  ⟨fun _ => rfl, fun _ => rfl, fun _ => rfl, rfl, rfl⟩

theorem SameWiring.trans {last : VirtualSocketServer} (first : SameWiring m later)
    (second : SameWiring later last) : SameWiring m last where
  state x := (second.state x).trans (first.state x)
  localAddr x := (second.localAddr x).trans (first.localAddr x)
  remoteAddr x := (second.remoteAddr x).trans (first.remoteAddr x)
  bindings := second.bindings.trans first.bindings
  connections := second.connections.trans first.connections

theorem sameWiring_modify {change : VirtualSocket → VirtualSocket}
    (state : (change (m.sockets x)).state = (m.sockets x).state)
    (localAddr : (change (m.sockets x)).localAddr = (m.sockets x).localAddr)
    (remoteAddr : (change (m.sockets x)).remoteAddr = (m.sockets x).remoteAddr) :
    SameWiring m (m.modify x change) where
  state y := by
    rw [modify_sockets]
    split
    · next here => rw [here, state]
    · rfl
  localAddr y := by
    rw [modify_sockets]
    split
    · next here => rw [here, localAddr]
    · rfl
  remoteAddr y := by
    rw [modify_sockets]
    split
    · next here => rw [here, remoteAddr]
    · rfl
  bindings := rfl
  connections := rfl

theorem SameWiring.recipient (same : SameWiring m later) (x : Nat) :
    later.recipient x = m.recipient x := by
  unfold VirtualSocketServer.recipient lookupConnection
  rw [same.localAddr, same.remoteAddr, same.connections]

theorem SameWiring.resumed (same : SameWiring m later) (x : Nat) : later.resumed x = m.resumed x := by
  unfold VirtualSocketServer.resumed lookupBinding
  rw [same.remoteAddr, same.bindings]

theorem Wired.same (wired : m.Wired ends) (same : SameWiring m later) : later.Wired ends where
  both := wired.both
  apart := wired.apart
  connected pair := (same.state _).trans (wired.connected pair)
  recipient pair := (same.recipient _).trans (wired.recipient pair)
  resumed pair := by
    obtain ⟨sender, found, known⟩ := wired.resumed pair
    exact ⟨sender, (same.resumed _).trans found, known.imp_right (same.recipient sender).trans⟩
  others x apart := by
    rw [same.state]
    exact wired.others x apart

/-- A socket has one other end. -/
theorem Wired.unique (wired : m.Wired ends) {s' : Nat} (pair : (s, r) ∈ ends) (other : (s', r) ∈ ends) :
    s' = s := by
  have first := wired.recipient (wired.both pair)
  have second := wired.recipient (wired.both other)
  exact Option.some.inj (second.symm.trans first)

/-- The other ends of two sockets are two sockets. -/
theorem Wired.separate (wired : m.Wired ends) {s' r' : Nat} (pair : (s, r) ∈ ends)
    (other : (s', r') ∈ ends) (apart : r' ≠ r) : s' ≠ s := by
  rintro rfl
  exact apart (Option.some.inj ((wired.recipient other).symm.trans (wired.recipient pair)))

/-- Only what one socket has to send, and the window of another, is different. -/
structure Beside (s r : Nat) (m later : VirtualSocketServer) : Prop where
  sendBuffer : ∀ x, x ≠ s → (later.sockets x).sendBuffer = (m.sockets x).sendBuffer
  recvBufferSize : ∀ x, x ≠ r → (later.sockets x).recvBufferSize = (m.sockets x).recvBufferSize
  recvBufferCapacity : later.recvBufferCapacity = m.recvBufferCapacity

theorem Beside.refl (s r : Nat) (m : VirtualSocketServer) : Beside s r m m :=
  ⟨fun _ _ => rfl, fun _ _ => rfl, rfl⟩

theorem Beside.trans {last : VirtualSocketServer} (first : Beside s r m later)
    (second : Beside s r later last) : Beside s r m last where
  sendBuffer x apart := (second.sendBuffer x apart).trans (first.sendBuffer x apart)
  recvBufferSize x apart := (second.recvBufferSize x apart).trans (first.recvBufferSize x apart)
  recvBufferCapacity := second.recvBufferCapacity.trans first.recvBufferCapacity

theorem Beside.waits (beside : Beside s r m later) {s' r' : Nat} (sender : s' ≠ s) (receiver : r' ≠ r)
    (waits : m.Waits s' r') : later.Waits s' r' := by
  unfold Waits wasFull at waits ⊢
  rwa [beside.sendBuffer s' sender, beside.recvBufferSize r' receiver, beside.recvBufferCapacity]

end

/-! ## A packet -/

section

variable {heap : DelayHeap MessageData} {m : VirtualSocketServer} {s r x curTime : Nat} {tick : Tick}

/-- The packet that a turn sends. -/
def nextPacket (m : VirtualSocketServer) (s r : Nat) : Packet where
  data := (m.sockets s).sendBuffer.take (m.dataSize s r)
  sender := (m.sockets s).localAddr

/-- When it is delivered. -/
def packetTime (m : VirtualSocketServer) (s r : Nat) (tick : Tick) : Nat :=
  let networkSize := add32 (m.sockets s).networkSize
    (toWord ((m.nextPacket s r).data.length + tcpHeaderSize))
  timeMax (add32 tick.time (add32 (m.sendDelay networkSize) tick.transitDelay)) m.networkDelay

theorem sendPacket_none (none : m.dataSize s r = 0) : m.sendPacket heap s r curTime tick = m :=
  if_pos none

theorem sendPacket_sockets (some_data : m.dataSize s r ≠ 0) :
    ∃ networkSize network, (m.sendPacket heap s r curTime tick).sockets x =
      { m.sockets x with
        networkSize
        network
        recvBufferSize :=
          if x = r then add32 (m.sockets x).recvBufferSize (m.dataSize s r)
          else (m.sockets x).recvBufferSize
        sendBuffer :=
          if x = s then (m.sockets x).sendBuffer.drop (m.dataSize s r)
          else (m.sockets x).sendBuffer } := by
  unfold sendPacket
  rw [if_neg some_data]
  by_cases sender : x = s <;> by_cases recipient : x = r
  · subst sender recipient
    simp only [modify_sockets, if_true, addPacketToNetwork]
    exact ⟨_, _, rfl⟩
  · subst sender
    simp only [modify_sockets, if_true, if_neg recipient, addPacketToNetwork]
    exact ⟨_, _, rfl⟩
  · subst recipient
    simp only [modify_sockets, if_true, if_neg sender, addPacketToNetwork]
    exact ⟨_, _, rfl⟩
  · simp only [modify_sockets, if_neg sender, if_neg recipient, addPacketToNetwork]
    exact ⟨_, _, rfl⟩

theorem timeMax_timeMax (a b : Nat) : timeMax (timeMax a b) b = timeMax a b := by
  by_cases later : timeIsLaterOrEqual a b
  · have here : timeMax a b = b := if_pos later
    rw [here, timeMax, ite_self]
  · have here : timeMax a b = a := if_neg later
    rw [here, here]

theorem sendPacket_msgQueue (some_data : m.dataSize s r ≠ 0) :
    (m.sendPacket heap s r curTime tick).msgQueue =
      m.msgQueue.postAt heap tick.time (m.packetTime s r tick) (some r) msgIdPacket
        (.packet (m.nextPacket s r)) := by
  unfold sendPacket
  rw [if_neg some_data]
  rfl

/-- A packet is delivered no sooner than the packets before it. -/
theorem sendPacket_networkDelay (some_data : m.dataSize s r ≠ 0) :
    (m.sendPacket heap s r curTime tick).networkDelay = m.packetTime s r tick := by
  unfold sendPacket
  rw [if_neg some_data]
  exact timeMax_timeMax _ _

theorem sendPacket_recvBufferCapacity :
    (m.sendPacket heap s r curTime tick).recvBufferCapacity = m.recvBufferCapacity := by
  by_cases none : m.dataSize s r = 0
  · rw [sendPacket_none none]
  · unfold sendPacket
    rw [if_neg none]
    rfl

theorem sameWiring_sendPacket : SameWiring m (m.sendPacket heap s r curTime tick) := by
  by_cases none : m.dataSize s r = 0
  · rw [sendPacket_none none]
    exact .refl m
  have sockets := fun x => @sendPacket_sockets heap m s r x curTime tick none
  constructor
  · intro x
    obtain ⟨_, _, socket⟩ := sockets x
    rw [socket]
  · intro x
    obtain ⟨_, _, socket⟩ := sockets x
    rw [socket]
  · intro x
    obtain ⟨_, _, socket⟩ := sockets x
    rw [socket]
  · unfold sendPacket
    rw [if_neg none]
    rfl
  · unfold sendPacket
    rw [if_neg none]
    rfl

theorem beside_sendPacket : Beside s r m (m.sendPacket heap s r curTime tick) := by
  by_cases none : m.dataSize s r = 0
  · rw [sendPacket_none none]
    exact .refl s r m
  refine ⟨fun x apart => ?_, fun x apart => ?_, sendPacket_recvBufferCapacity⟩
  · obtain ⟨_, _, socket⟩ := @sendPacket_sockets heap m s r x curTime tick none
    rw [socket]
    exact if_neg apart
  · obtain ⟨_, _, socket⟩ := @sendPacket_sockets heap m s r x curTime tick none
    rw [socket]
    exact if_neg apart

end

end VirtualSocketServer

/-! ## What is on its way -/

section

variable {ends : List (Nat × Nat)} {pending later : List (Message MessageData)} {s r : Nat} {t t' : Traffic}

/-- The bytes from one socket to another: read, to be read, in flight, and to be sent. -/
structure Flow (t : Traffic) (pending : List (Message MessageData)) (s r : Nat) : Prop where
  data : t.received r ++ t.server.unreadBytes r ++ bytesFor r pending ++
    (t.server.sockets s).sendBuffer = t.accepted s
  size : (t.server.sockets r).recvBufferSize =
    (bytesFor r pending).length + (t.server.unreadBytes r).length
  fits : (t.server.sockets r).recvBufferSize ≤ t.server.recvBufferCapacity

theorem Flow.of_same (flow : Flow t pending s r) (received : t'.received r = t.received r)
    (accepted : t'.accepted s = t.accepted s)
    (unread : (t'.server.sockets r).recvBuffer = (t.server.sockets r).recvBuffer)
    (sendBuffer : (t'.server.sockets s).sendBuffer = (t.server.sockets s).sendBuffer)
    (size : (t'.server.sockets r).recvBufferSize = (t.server.sockets r).recvBufferSize)
    (capacity : t'.server.recvBufferCapacity = t.server.recvBufferCapacity)
    (inFlight : bytesFor r later = bytesFor r pending) : Flow t' later s r := by
  have unreadBytes : t'.server.unreadBytes r = t.server.unreadBytes r :=
    congrArg (List.flatMap Packet.data) unread
  constructor
  · rw [received, unreadBytes, inFlight, sendBuffer, accepted]
    exact flow.data
  · rw [size, inFlight, unreadBytes]
    exact flow.size
  · rw [size, capacity]
    exact flow.fits

/-- The bytes of all connections, with the messages in the order of their posting. -/
structure Sound (t : Traffic) (ends : List (Nat × Nat)) (pending : List (Message MessageData)) : Prop where
  wired : t.server.Wired ends
  holds : t.server.msgQueue.Holds pending t.server.networkDelay
  word : t.server.recvBufferCapacity < 2 ^ 32
  packets : ∀ msg ∈ pending, ∃ s r packet,
    (s, r) ∈ ends ∧ msg = ⟨some r, msgIdPacket, .packet packet⟩
  quiet : ∀ x, (∀ r, (x, r) ∉ ends) → (t.server.sockets x).recvBuffer = []
  flows : ∀ {s r}, (s, r) ∈ ends → Flow t pending s r

theorem bytesFor_append (x : Nat) (first second : List (Message MessageData)) :
    bytesFor x (first ++ second) = bytesFor x first ++ bytesFor x second :=
  List.flatMap_append

theorem bytesFor_packet (x y id : Nat) (packet : Packet) :
    bytesFor x [⟨some y, id, .packet packet⟩] = if y = x then packet.data else [] := by
  simp [bytesFor, MessageData.bytes]

/-- A packet takes no more than the window. -/
theorem Flow.dataSize_le (flow : Flow t pending s r) (word : t.server.recvBufferCapacity < 2 ^ 32) :
    (t.server.sockets r).recvBufferSize + t.server.dataSize s r ≤ t.server.recvBufferCapacity := by
  have fits := flow.fits
  unfold VirtualSocketServer.dataSize
  dsimp only
  rw [sub32_of_le fits word]
  omega

/-- Where the loop ends, nothing is left to be sent, or the window is full. -/
theorem Flow.waits (flow : Flow t pending s r) (word : t.server.recvBufferCapacity < 2 ^ 32)
    (none : t.server.dataSize s r = 0) : t.server.Waits s r := by
  have fits := flow.fits
  have most : tcpMss - tcpHeaderSize = 1360 := rfl
  unfold VirtualSocketServer.dataSize at none
  dsimp only at none
  rw [sub32_of_le fits word, most] at none
  intro some_data
  have positive := List.length_pos_iff.mpr some_data
  unfold VirtualSocketServer.wasFull
  omega

/-- A turn of the loop in `SendTcp`. -/
theorem Sound.sendPacket {heap : DelayHeap MessageData} {curTime : Nat} {tick : Tick}
    (sound : Sound t ends pending) (pair : (s, r) ∈ ends)
    (onward : Onward t.server (t.server.sendPacket heap s r curTime tick)) :
    ∃ pending, Sound { t with server := t.server.sendPacket heap s r curTime tick } ends pending := by
  by_cases none : t.server.dataSize s r = 0
  · rw [VirtualSocketServer.sendPacket_none none]
    exact ⟨pending, sound⟩
  have sockets := fun x => @VirtualSocketServer.sendPacket_sockets heap t.server s r x curTime tick none
  have queue := @VirtualSocketServer.sendPacket_msgQueue heap t.server s r curTime tick none
  have delay := @VirtualSocketServer.sendPacket_networkDelay heap t.server s r curTime tick none
  have capacity := @VirtualSocketServer.sendPacket_recvBufferCapacity heap t.server s r curTime tick
  have beside := @VirtualSocketServer.beside_sendPacket heap t.server s r curTime tick
  have same := @VirtualSocketServer.sameWiring_sendPacket heap t.server s r curTime tick
  have unread : ∀ x, ((t.server.sendPacket heap s r curTime tick).sockets x).recvBuffer =
      (t.server.sockets x).recvBuffer := by
    intro x
    obtain ⟨_, _, socket⟩ := sockets x
    rw [socket]
  obtain ⟨_, _, sender⟩ := sockets s
  obtain ⟨_, _, receiver⟩ := sockets r
  generalize moved : t.server.sendPacket heap s r curTime tick = m at *
  let msg : Message MessageData := ⟨some r, msgIdPacket, .packet (t.server.nextPacket s r)⟩
  have flow := sound.flows pair
  have window := flow.dataSize_le sound.word
  have word := sound.word
  refine ⟨pending ++ [msg], sound.wired.same same, ?_, capacity ▸ sound.word, ?_, ?_, ?_⟩
  · show m.msgQueue.Holds _ m.networkDelay
    rw [queue, delay]
    refine sound.holds.doDelayPost (delay ▸ onward.1) ?_ (by decide)
    have counted := onward.2
    rw [queue, MessageQueue.postAt, MessageQueue.doDelayPost, sound.holds.running] at counted
    simp only [Bool.false_eq_true, if_false, add32] at counted
    omega
  · intro other other_mem
    rcases List.mem_append.mp other_mem with old | new
    · exact sound.packets other old
    · exact ⟨s, r, _, pair, List.mem_singleton.mp new⟩
  · intro x apart
    exact (unread x).trans (sound.quiet x apart)
  · intro s' r' other
    by_cases here : r' = r
    · subst here
      obtain rfl := sound.wired.unique pair other
      have taken : (t.server.nextPacket s' r').data.length = t.server.dataSize s' r' := by
        refine List.length_take_of_le ?_
        exact Nat.min_le_left _ _
      have unreadBytes : m.unreadBytes r' = t.server.unreadBytes r' :=
        congrArg (List.flatMap Packet.data) (unread r')
      have apart := sound.wired.apart pair
      constructor
      · show t.received r' ++ m.unreadBytes r' ++ bytesFor r' (pending ++ [msg]) ++
          (m.sockets s').sendBuffer = t.accepted s'
        rw [unreadBytes, bytesFor_append, bytesFor_packet, if_pos rfl, sender, ← flow.data]
        simp only [if_true, List.append_assoc]
        rw [VirtualSocketServer.nextPacket, List.take_append_drop]
      · show (m.sockets r').recvBufferSize =
          (bytesFor r' (pending ++ [msg])).length + (m.unreadBytes r').length
        rw [unreadBytes, bytesFor_append, bytesFor_packet, if_pos rfl, receiver, List.length_append,
          taken]
        simp only [if_true]
        rw [add32_of_lt (by omega), flow.size]
        omega
      · show (m.sockets r').recvBufferSize ≤ m.recvBufferCapacity
        rw [receiver, capacity]
        simp only [if_true]
        rw [add32_of_lt (by omega)]
        exact window
    · have nothing : bytesFor r' (pending ++ [msg]) = bytesFor r' pending := by
        rw [bytesFor_append, bytesFor_packet, if_neg (Ne.symm here), List.append_nil]
      exact (sound.flows other).of_same rfl rfl (unread r')
        (beside.sendBuffer s' (sound.wired.separate pair other here))
        (beside.recvBufferSize r' here) capacity nothing

/-! ## The loop -/

/-- Sockets that differ in what only concerns delays and signals. -/
structure Inert (a b : VirtualSocket) : Prop where
  state : b.state = a.state
  localAddr : b.localAddr = a.localAddr
  remoteAddr : b.remoteAddr = a.remoteAddr
  sendBuffer : b.sendBuffer = a.sendBuffer
  recvBuffer : b.recvBuffer = a.recvBuffer
  recvBufferSize : b.recvBufferSize = a.recvBufferSize

theorem Inert.modify {m : VirtualSocketServer} {x : Nat} {change : VirtualSocket → VirtualSocket}
    (inert : Inert (m.sockets x) (change (m.sockets x))) (y : Nat) :
    Inert (m.sockets y) ((m.modify x change).sockets y) := by
  rw [VirtualSocketServer.modify_sockets]
  split
  · next here => exact here ▸ inert
  · exact ⟨rfl, rfl, rfl, rfl, rfl, rfl⟩

theorem Sound.modify_inert (sound : Sound t ends pending) {x : Nat}
    {change : VirtualSocket → VirtualSocket}
    (inert : Inert (t.server.sockets x) (change (t.server.sockets x))) :
    Sound { t with server := t.server.modify x change } ends pending := by
  have every := inert.modify
  exact
    { wired := sound.wired.same
        (VirtualSocketServer.sameWiring_modify inert.state inert.localAddr inert.remoteAddr)
      holds := sound.holds
      word := sound.word
      packets := sound.packets
      quiet := fun y apart => (every y).recvBuffer.trans (sound.quiet y apart)
      flows := fun {s r} pair => (sound.flows pair).of_same rfl rfl (every r).recvBuffer
        (every s).sendBuffer (every r).recvBufferSize rfl rfl }

theorem beside_modify_inert {m : VirtualSocketServer} {x : Nat} {change : VirtualSocket → VirtualSocket}
    (inert : Inert (m.sockets x) (change (m.sockets x))) :
    VirtualSocketServer.Beside s r m (m.modify x change) :=
  ⟨fun y _ => (inert.modify y).sendBuffer, fun y _ => (inert.modify y).recvBufferSize, rfl⟩

theorem waits_modify_inert {m : VirtualSocketServer} {x : Nat} {change : VirtualSocket → VirtualSocket}
    (inert : Inert (m.sockets x) (change (m.sockets x))) (waits : m.Waits s r) :
    (m.modify x change).Waits s r := by
  unfold VirtualSocketServer.Waits VirtualSocketServer.wasFull at waits ⊢
  rwa [(inert.modify s).sendBuffer, (inert.modify r).recvBufferSize]

variable {heap : DelayHeap MessageData} {curTime : Nat} {clock : Nat → Tick}

/-- Turns behind the end of the loop do nothing. -/
theorem sendPackets_none {m : VirtualSocketServer} (none : m.dataSize s r = 0) (ticks : List Tick) :
    runInputs (fun m tick => m.sendPacket heap s r curTime tick) m ticks = m := by
  induction ticks with
  | nil => rfl
  | cons tick ticks ih => rw [runInputs_cons, VirtualSocketServer.sendPacket_none none, ih]

theorem Sound.sendPackets (sound : Sound t ends pending) (pair : (s, r) ∈ ends) {ticks : List Tick}
    (onward : Along (fun m tick => m.sendPacket heap s r curTime tick)
      (fun m tick => Onward m (m.sendPacket heap s r curTime tick)) t.server ticks) :
    let last := runInputs (fun m tick => m.sendPacket heap s r curTime tick) t.server ticks
    (∃ pending, Sound { t with server := last } ends pending) ∧
      VirtualSocketServer.Beside s r t.server last ∧
      (last.dataSize s r = 0 ∨ (last.sockets s).sendBuffer.length + ticks.length ≤
        (t.server.sockets s).sendBuffer.length) := by
  induction ticks generalizing t pending with
  | nil => exact ⟨⟨pending, sound⟩, .refl s r _, .inr (Nat.le_refl _)⟩
  | cons tick ticks ih =>
    by_cases none : t.server.dataSize s r = 0
    · rw [sendPackets_none none]
      exact ⟨⟨pending, sound⟩, .refl s r _, .inl none⟩
    obtain ⟨pending, sent⟩ := sound.sendPacket pair onward.1
    obtain ⟨later, beside, shorter⟩ := ih sent onward.2
    refine ⟨later, VirtualSocketServer.beside_sendPacket.trans beside, shorter.imp_right fun shorter => ?_⟩
    obtain ⟨_, _, sender⟩ := @VirtualSocketServer.sendPacket_sockets heap t.server s r s curTime tick none
    have taken : t.server.dataSize s r ≤ (t.server.sockets s).sendBuffer.length := Nat.min_le_left _ _
    dsimp only at shorter
    rw [sender] at shorter
    simp only [if_true, List.length_drop] at shorter
    rw [runInputs_cons, List.length_cons]
    omega

/-- `SendTcp` sends until nothing is left, or the window of the other end is full. -/
theorem Sound.sendTcp (sound : Sound t ends pending) (pair : (s, r) ∈ ends)
    (onward : t.server.SendsOnward heap s curTime clock) :
    (∃ pending, Sound { t with server := t.server.sendTcp heap s curTime clock } ends pending) ∧
      VirtualSocketServer.Beside s r t.server (t.server.sendTcp heap s curTime clock) ∧
      (t.server.sendTcp heap s curTime clock).Waits s r := by
  have found : t.server.lookupConnection (t.server.sockets s).localAddr
    (t.server.sockets s).remoteAddr = some r := sound.wired.recipient pair
  have purged : Sound { t with server := t.server.purgeNetworkPackets s curTime } ends pending :=
    sound.modify_inert ⟨rfl, rfl, rfl, rfl, rfl, rfl⟩
  obtain ⟨⟨later, sent⟩, beside, ended⟩ := purged.sendPackets pair (onward r found)
  unfold VirtualSocketServer.sendTcp
  rw [found]
  dsimp only
  unfold VirtualSocketServer.sendPackets
  dsimp only at sent beside ended
  rw [List.length_map, List.length_range] at ended
  generalize runInputs _ _ _ = last at sent beside ended ⊢
  have started : VirtualSocketServer.Beside s r t.server
      (t.server.purgeNetworkPackets s curTime) :=
    beside_modify_inert ⟨rfl, rfl, rfl, rfl, rfl, rfl⟩
  have inert : Inert (last.sockets s)
      (if (last.sockets s).writeEnabled ∧
          (last.sockets s).sendBuffer.length < last.sendBufferCapacity then
        { last.sockets s with writeEnabled := false }
      else last.sockets s) := by
    split <;> exact ⟨rfl, rfl, rfl, rfl, rfl, rfl⟩
  have none : last.dataSize s r = 0 := by
    rcases ended with none | short
    · exact none
    · have empty : (last.sockets s).sendBuffer.length = 0 := by omega
      unfold VirtualSocketServer.dataSize
      dsimp only
      rw [empty, Nat.zero_min]
  refine ⟨⟨later, sent.modify_inert inert⟩, started.trans (beside.trans (beside_modify_inert inert)),
    ?_⟩
  have waits : last.Waits s r := (sent.flows pair).waits sent.word none
  exact waits_modify_inert inert waits

/-! ## Calls -/

/-- Between calls, what is left to be sent waits for a window. -/
structure Steady (t : Traffic) (ends : List (Nat × Nat)) : Prop where
  sound : ∃ pending, Sound t ends pending
  waits : ∀ {s r}, (s, r) ∈ ends → t.server.Waits s r

/-- What one connection has done leaves the others alone. -/
theorem Sound.steady_beside (sound : ∃ pending, Sound t' ends pending) (pair : (s, r) ∈ ends)
    (before : Steady t ends) (beside : VirtualSocketServer.Beside s r t.server t'.server)
    (waits : t'.server.Waits s r) : Steady t' ends := by
  obtain ⟨pending, sound⟩ := sound
  refine ⟨⟨pending, sound⟩, fun {s' r'} other => ?_⟩
  by_cases here : r' = r
  · subst here
    obtain rfl := sound.wired.unique pair other
    exact waits
  · exact beside.waits (sound.wired.separate pair other here) here (before.waits other)

theorem Sound.buffered (sound : Sound t ends pending) (s : Nat) (pv : List UInt8) :
    Sound
      { t with
        server := t.server.buffered s pv
        accepted := Function.update t.accepted s (t.accepted s ++ pv) } ends pending := by
  have sockets : ∀ x, (t.server.buffered s pv).sockets x =
      { t.server.sockets x with
        sendBuffer :=
          if x = s then (t.server.sockets x).sendBuffer ++ pv else (t.server.sockets x).sendBuffer } := by
    intro x
    unfold VirtualSocketServer.buffered
    rw [VirtualSocketServer.modify_sockets]
    split
    · next here => rw [here]
    · rfl
  have unread : ∀ x, ((t.server.buffered s pv).sockets x).recvBuffer =
      (t.server.sockets x).recvBuffer := fun x => by rw [sockets]
  have size : ∀ x, ((t.server.buffered s pv).sockets x).recvBufferSize =
      (t.server.sockets x).recvBufferSize := fun x => by rw [sockets]
  have same : t.server.SameWiring (t.server.buffered s pv) :=
    VirtualSocketServer.sameWiring_modify rfl rfl rfl
  refine ⟨sound.wired.same same, sound.holds, sound.word, sound.packets,
    fun x apart => (unread x).trans (sound.quiet x apart), fun {s' r'} pair => ?_⟩
  by_cases here : s' = s
  · subst here
    have flow := sound.flows pair
    have unreadBytes : (t.server.buffered s' pv).unreadBytes r' = t.server.unreadBytes r' :=
      congrArg (List.flatMap Packet.data) (unread r')
    constructor
    · dsimp only
      rw [unreadBytes, sockets, Function.update_self, ← flow.data]
      simp
    · dsimp only
      rw [size, unreadBytes]
      exact flow.size
    · dsimp only
      rw [size]
      exact flow.fits
  · refine (sound.flows pair).of_same rfl (Function.update_of_ne here _ _) (unread r') ?_ (size r') rfl rfl
    dsimp only
    rw [sockets]
    exact if_neg here

theorem Steady.send (steady : Steady t ends) {pv : List UInt8}
    (clear : t.Clear heap (.send s pv curTime clock)) :
    Steady (t.step heap (.send s pv curTime clock)) ends := by
  obtain ⟨pending, sound⟩ := steady.sound
  cases taken : t.server.consumed s pv.length with
  | some consumed =>
    have stepped : t.step heap (.send s pv curTime clock) =
        { t with
          server := (t.server.buffered s (pv.take consumed)).sendTcp heap s curTime clock
          accepted := Function.update t.accepted s (t.accepted s ++ pv.take consumed) } := by
      simp only [Traffic.step, VirtualSocketServer.send, taken, Option.getD_some]
    rw [stepped]
    obtain ⟨r, pair⟩ : ∃ r, (s, r) ∈ ends := by
      by_contra none
      have idle := sound.wired.others s fun r pair => none ⟨r, pair⟩
      unfold VirtualSocketServer.consumed at taken
      rw [if_pos idle] at taken
      cases taken
    obtain ⟨later, beside, waits⟩ :=
      (sound.buffered s (pv.take consumed)).sendTcp pair (clear consumed taken)
    have first : VirtualSocketServer.Beside s r t.server (t.server.buffered s (pv.take consumed)) := by
      refine ⟨fun x apart => ?_, fun x _ => ?_, rfl⟩ <;>
        unfold VirtualSocketServer.buffered <;> rw [VirtualSocketServer.modify_sockets]
      · rw [if_neg apart]
      · split
        · next here => rw [here]
        · rfl
    exact Sound.steady_beside later pair steady (first.trans beside) waits
  | none =>
    have nothing : Function.update t.accepted s (t.accepted s ++ pv.take 0) = t.accepted := by simp
    have stepped : t.step heap (.send s pv curTime clock) =
        { t with
          server :=
            if (t.server.sockets s).state = .connected then
              t.server.modify s fun s => { s with writeEnabled := true }
            else t.server } := by
      simp only [Traffic.step, VirtualSocketServer.send, taken, Option.getD_none, nothing]
    rw [stepped]
    split
    · refine ⟨⟨pending, sound.modify_inert ⟨rfl, rfl, rfl, rfl, rfl, rfl⟩⟩, fun pair => ?_⟩
      dsimp only
      refine waits_modify_inert ?_ (steady.waits pair)
      exact ⟨rfl, rfl, rfl, rfl, rfl, rfl⟩
    · exact steady

/-- The socket after a read from its first packet. -/
theorem unread_sockets {m : VirtualSocketServer} {packet : Packet} {rest : List Packet} (cb : Nat)
    (buffer : (m.sockets r).recvBuffer = packet :: rest) :
    (m.unread r cb).sockets r =
      { m.sockets r with
        recvBuffer :=
          if min cb packet.data.length < packet.data.length then
            { packet with data := packet.data.drop (min cb packet.data.length) } :: rest
          else rest
        recvBufferSize := sub32 (m.sockets r).recvBufferSize (min cb packet.data.length) } := by
  unfold VirtualSocketServer.unread
  rw [VirtualSocketServer.modify_sockets, if_pos rfl, buffer]

theorem unread_sockets_ne (m : VirtualSocketServer) (cb : Nat) {x : Nat} (apart : x ≠ r) :
    (m.unread r cb).sockets x = m.sockets x := by
  unfold VirtualSocketServer.unread
  rw [VirtualSocketServer.modify_sockets, if_neg apart]

theorem sameWiring_unread (m : VirtualSocketServer) (r cb : Nat) :
    m.SameWiring (m.unread r cb) := by
  refine VirtualSocketServer.sameWiring_modify ?_ ?_ ?_ <;> split <;> rfl

/-- What is read and what is left to be read was to be read. -/
theorem read_append {packet : Packet} {rest : List Packet} (cb : Nat) :
    packet.data.take cb ++
        (if min cb packet.data.length < packet.data.length then
          { packet with data := packet.data.drop (min cb packet.data.length) } :: rest
        else rest).flatMap Packet.data =
      (packet :: rest).flatMap Packet.data := by
  split
  · next less =>
    have short : min cb packet.data.length = cb := by omega
    rw [List.flatMap_cons, List.flatMap_cons, short, ← List.append_assoc, List.take_append_drop]
  · next all =>
    rw [List.flatMap_cons, List.take_of_length_le (by omega)]

theorem Sound.unread (sound : Sound t ends pending) (pair : (s, r) ∈ ends) {packet : Packet}
    {rest : List Packet} (cb : Nat) (buffer : (t.server.sockets r).recvBuffer = packet :: rest) :
    Sound
      { t with
        server := t.server.unread r cb
        received := Function.update t.received r (t.received r ++ packet.data.take cb) } ends pending := by
  have here := unread_sockets cb buffer
  have other := fun x (apart : x ≠ r) => unread_sockets_ne t.server cb apart
  refine ⟨sound.wired.same (sameWiring_unread t.server r cb), sound.holds, sound.word, sound.packets,
    fun x apart => ?_, fun {s' r'} pair' => ?_⟩
  · have elsewhere : x ≠ r := by
      rintro rfl
      exact apart s (sound.wired.both pair)
    dsimp only
    rw [other x elsewhere]
    exact sound.quiet x apart
  by_cases same : r' = r
  · subst same
    obtain rfl := sound.wired.unique pair pair'
    have flow := sound.flows pair
    have apart := sound.wired.apart pair
    have before : t.server.unreadBytes r' = (packet :: rest).flatMap Packet.data :=
      congrArg (List.flatMap Packet.data) buffer
    have after : packet.data.take cb ++ (t.server.unread r' cb).unreadBytes r' =
        t.server.unreadBytes r' := by
      rw [before, ← read_append cb]
      unfold VirtualSocketServer.unreadBytes
      rw [here]
    have lengths := congrArg List.length after
    rw [List.length_append, List.length_take] at lengths
    have counted := flow.size
    have fits := flow.fits
    have word := sound.word
    have smaller : ((t.server.unread r' cb).sockets r').recvBufferSize =
        (t.server.sockets r').recvBufferSize - min cb packet.data.length := by
      rw [here]
      exact sub32_of_le (by omega) (by omega)
    constructor
    · dsimp only
      rw [other s' apart, Function.update_self, List.append_assoc (t.received r'), after]
      exact flow.data
    · dsimp only
      omega
    · show ((t.server.unread r' cb).sockets r').recvBufferSize ≤ t.server.recvBufferCapacity
      omega
  · have buffer_same : ((t.server.unread r cb).sockets s').sendBuffer =
        (t.server.sockets s').sendBuffer := by
      by_cases sender : s' = r
      · rw [sender, here]
      · rw [other s' sender]
    exact (sound.flows pair').of_same (Function.update_of_ne same _ _) rfl
      (congrArg VirtualSocket.recvBuffer (other r' same)) buffer_same
      (congrArg VirtualSocket.recvBufferSize (other r' same)) rfl rfl

theorem beside_unread {m : VirtualSocketServer} {packet : Packet} {rest : List Packet} {cb : Nat}
    (buffer : (m.sockets r).recvBuffer = packet :: rest) :
    VirtualSocketServer.Beside s r m (m.unread r cb) := by
  refine ⟨fun x _ => ?_, fun x apart => by rw [unread_sockets_ne m cb apart], rfl⟩
  by_cases here : x = r
  · rw [here, unread_sockets cb buffer]
  · rw [unread_sockets_ne m cb here]

/-- Nobody is resumed who sends to nobody. -/
theorem sendTcp_none {m : VirtualSocketServer} {x : Nat} (none : m.recipient x = none) :
    m.sendTcp heap x curTime clock = m := by
  unfold VirtualSocketServer.recipient at none
  rw [VirtualSocketServer.sendTcp, none]

theorem Steady.recv (steady : Steady t ends) {cb : Nat}
    (clear : t.Clear heap (.recv r cb curTime clock)) :
    Steady (t.step heap (.recv r cb curTime clock)) ends := by
  obtain ⟨pending, sound⟩ := steady.sound
  cases buffer : (t.server.sockets r).recvBuffer with
  | nil =>
    have stepped : t.step heap (.recv r cb curTime clock) = t := by
      simp only [Traffic.step, VirtualSocketServer.recvFrom, VirtualSocketServer.dataRead, buffer,
        List.head?_nil, Option.map_none, Option.getD_none, List.append_nil, Function.update_eq_self]
    rw [stepped]
    exact steady
  | cons packet rest =>
    have stepped : t.step heap (.recv r cb curTime clock) =
        { t with
          server := t.server.recvFrom heap r cb curTime clock
          received := Function.update t.received r (t.received r ++ packet.data.take cb) } := by
      simp only [Traffic.step, VirtualSocketServer.dataRead, buffer, List.head?_cons, Option.map_some,
        Option.getD_some]
    rw [stepped, VirtualSocketServer.recvFrom, buffer]
    dsimp only
    obtain ⟨s, pair⟩ : ∃ s, (s, r) ∈ ends := by
      by_contra none
      have nothing := sound.quiet r fun s pair => none ⟨s, sound.wired.both pair⟩
      cases buffer.symm.trans nothing
    have unread := sound.unread pair cb buffer
    have beside : VirtualSocketServer.Beside s r t.server (t.server.unread r cb) := beside_unread buffer
    have sendBuffer : ((t.server.unread r cb).sockets s).sendBuffer = (t.server.sockets s).sendBuffer := by
      rw [unread_sockets_ne t.server cb (sound.wired.apart pair)]
    split
    · next full =>
      obtain ⟨sender, found, known⟩ := sound.wired.resumed pair
      rw [found]
      dsimp only
      rcases known with rfl | nobody
      · -- The read resumes the other end.
        obtain ⟨later, sent, waits⟩ := unread.sendTcp pair (clear.2 _ found)
        exact Sound.steady_beside later pair steady (beside.trans sent) waits
      · have silent : (t.server.unread r cb).recipient sender = none :=
          ((sameWiring_unread t.server r cb).recipient sender).trans nobody
        rw [sendTcp_none silent]
        refine Sound.steady_beside ⟨pending, unread⟩ pair steady beside fun some_data => ?_
        dsimp only at some_data
        rw [sendBuffer] at some_data
        by_cases nothing : packet.data.take cb = []
        · -- Nothing has been read.
          have zero : min cb packet.data.length = 0 := by
            rw [← List.length_take, nothing, List.length_nil]
          have size := (sound.flows pair).fits
          have word := sound.word
          show ((t.server.unread r cb).sockets r).recvBufferSize = t.server.recvBufferCapacity
          rw [unread_sockets cb buffer]
          dsimp only
          rw [zero, sub32_of_le (Nat.zero_le _) (by omega)]
          exact full
        · have read : (t.server.dataRead r cb).getD [] ≠ [] := by
            rw [VirtualSocketServer.dataRead, buffer]
            exact nothing
          have right := clear.1 full read s (sound.wired.recipient (sound.wired.both pair)) some_data
          cases found.symm.trans right
          cases nobody.symm.trans (sound.wired.recipient pair)
    · next more =>
      refine Sound.steady_beside ⟨pending, unread⟩ pair steady beside fun some_data => ?_
      dsimp only at some_data
      rw [sendBuffer] at some_data
      exact absurd (steady.waits pair some_data) more

/-- The socket of a packet that has been delivered. -/
theorem delivered_sockets (m : VirtualSocketServer) (r x : Nat) (packet : Packet) :
    (m.modify r fun s => { s with recvBuffer := s.recvBuffer ++ [packet] }).sockets x =
      { m.sockets x with
        recvBuffer :=
          if x = r then (m.sockets x).recvBuffer ++ [packet] else (m.sockets x).recvBuffer } := by
  rw [VirtualSocketServer.modify_sockets]
  split
  · next here => rw [here]
  · rfl

/-- The packet in front goes to its socket. -/
theorem Sound.onMessage {msgQueue : MessageQueue MessageData} {packet : Packet}
    (sound : Sound t ends (⟨some r, msgIdPacket, .packet packet⟩ :: pending)) (pair : (s, r) ∈ ends)
    (holds : msgQueue.Holds pending t.server.networkDelay) :
    Sound
      { t with
        server := { t.server with msgQueue }.modify r fun s =>
          { s with recvBuffer := s.recvBuffer ++ [packet] } } ends pending := by
  have sockets : ∀ x, ({ t.server with msgQueue }.modify r fun s =>
      { s with recvBuffer := s.recvBuffer ++ [packet] }).sockets x =
        { t.server.sockets x with
          recvBuffer :=
            if x = r then (t.server.sockets x).recvBuffer ++ [packet]
            else (t.server.sockets x).recvBuffer } :=
    fun x => delivered_sockets { t.server with msgQueue } r x packet
  have same : t.server.SameWiring ({ t.server with msgQueue }.modify r fun s =>
      { s with recvBuffer := s.recvBuffer ++ [packet] }) := by
    constructor
    · exact fun x => by rw [sockets]
    · exact fun x => by rw [sockets]
    · exact fun x => by rw [sockets]
    · rfl
    · rfl
  refine ⟨sound.wired.same same, holds, sound.word,
    fun msg mem => sound.packets msg (List.mem_cons_of_mem _ mem), fun x apart => ?_,
    fun {s' r'} pair' => ?_⟩
  · have elsewhere : x ≠ r := by
      rintro rfl
      exact apart s (sound.wired.both pair)
    dsimp only
    rw [sockets, if_neg elsewhere]
    exact sound.quiet x apart
  have flow := sound.flows pair'
  have split : bytesFor r' (⟨some r, msgIdPacket, .packet packet⟩ :: pending) =
      (if r = r' then packet.data else []) ++ bytesFor r' pending := by
    rw [← bytesFor_packet r' r msgIdPacket packet, ← bytesFor_append]
    rfl
  by_cases here : r' = r
  · subst here
    rw [if_pos rfl] at split
    have arrived : ({ t.server with msgQueue }.modify r' fun s =>
        { s with recvBuffer := s.recvBuffer ++ [packet] }).unreadBytes r' =
          t.server.unreadBytes r' ++ packet.data := by
      unfold VirtualSocketServer.unreadBytes
      rw [sockets]
      simp
    constructor
    · dsimp only
      rw [arrived, sockets, ← flow.data, split]
      simp
    · have counted := flow.size
      rw [split, List.length_append] at counted
      dsimp only
      rw [arrived, sockets, List.length_append]
      dsimp only
      omega
    · dsimp only
      rw [sockets]
      exact flow.fits
  · rw [if_neg (Ne.symm here), List.nil_append] at split
    refine flow.of_same rfl rfl ?_ ?_ ?_ rfl split.symm
    · dsimp only
      rw [sockets, if_neg here]
    · dsimp only
      rw [sockets]
    · dsimp only
      rw [sockets]

theorem Steady.deliver (steady : Steady t ends) (time : Nat) :
    Steady (t.step heap (.deliver time)) ends := by
  obtain ⟨pending, sound⟩ := steady.sound
  have stepped : t.step heap (.deliver time) =
      { t with server := t.server.deliver heap time } := rfl
  rw [stepped]
  have got : _ ∨ _ := @MessageQueue.Holds.get _ _ _ _ heap sound.holds kForever time
  rcases got with ⟨msg, rest, rfl, found, holds⟩ | ⟨none, holds⟩
  · obtain ⟨s, r, packet, pair, rfl⟩ := sound.packets msg List.mem_cons_self
    have delivered : t.server.deliver heap time =
        { t.server with msgQueue := (t.server.msgQueue.get heap kForever time).2 }.modify r fun s =>
          { s with recvBuffer := s.recvBuffer ++ [packet] } := by
      rw [VirtualSocketServer.deliver]
      rcases answer : t.server.msgQueue.get heap kForever time with ⟨first, msgQueue⟩
      rw [answer] at found
      cases found
      rfl
    rw [delivered]
    refine ⟨⟨rest, sound.onMessage pair holds⟩, fun {s' r'} other some_data => ?_⟩
    dsimp only at some_data
    rw [delivered_sockets] at some_data
    have full := steady.waits other some_data
    unfold VirtualSocketServer.wasFull at full ⊢
    dsimp only
    rw [delivered_sockets]
    exact full
  · have idle : t.server.deliver heap time =
        { t.server with msgQueue := (t.server.msgQueue.get heap kForever time).2 } := by
      rw [VirtualSocketServer.deliver]
      rcases answer : t.server.msgQueue.get heap kForever time with ⟨first, msgQueue⟩
      rw [answer] at none
      cases first with
      | returns msg => exact absurd rfl (none msg)
      | waits => rfl
      | fails => rfl
    rw [idle]
    have same : t.server.SameWiring
        { t.server with msgQueue := (t.server.msgQueue.get heap kForever time).2 } :=
      ⟨fun _ => rfl, fun _ => rfl, fun _ => rfl, rfl, rfl⟩
    exact ⟨⟨pending, sound.wired.same same, holds, sound.word, sound.packets, sound.quiet,
      fun pair => (sound.flows pair).of_same rfl rfl rfl rfl rfl rfl rfl⟩, steady.waits⟩

theorem Steady.step (steady : Steady t ends) (input : Input) (clear : t.Clear heap input) :
    Steady (t.step heap input) ends := by
  cases input with
  | send => exact steady.send clear
  | recv => exact steady.recv clear
  | deliver time => exact steady.deliver time

theorem Steady.delivers (steady : Steady t ends) (pair : (s, r) ∈ ends) : Delivers t s r := by
  obtain ⟨pending, sound⟩ := steady.sound
  have flow := sound.flows pair
  have messages : (bytesFor r t.server.messages).length = (bytesFor r pending).length :=
    (sound.holds.perm.flatMap_right _).length_eq.symm
  refine ⟨?_, ?_, flow.fits, steady.waits pair⟩
  · rw [← flow.data, List.append_assoc, List.append_assoc]
    exact List.prefix_append _ _
  · rw [messages]
    exact flow.size

/-- In a run of clear calls from a steady state every byte comes through, in order. -/
theorem Steady.run {inputs : List Input} (steady : Steady t ends)
    (clear : Along (Traffic.step heap) (Traffic.Clear heap) t inputs) :
    Steady (runInputs (Traffic.step heap) t inputs) ends := by
  have keeps : ∀ t input, Traffic.Clear heap t input → Steady t ends →
      Steady (Traffic.step heap t input) ends :=
    fun t input clear steady => steady.step input clear
  exact clear.invariant keeps steady

end

end Libjingle.VirtualSockets

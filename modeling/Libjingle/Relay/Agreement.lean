import Libjingle.Relay.Network

/-!
# Relay port and relay server agree on addresses

The port and the server decide each for themselves whether a packet gets a wrapper. They
agree for two reasons: an entry that is connected keeps its socket, and an address that
it has once been given; and the server locks a connection only to an address that a
request on that socket asks for, which is the address of the entry. Requests that ask
for the address that stands for any do no harm, since no peer has it.
-/

namespace Libjingle.Relay

open Libjingle.Stun Libjingle.Stun.Message Libjingle.Std RelayServer

/-! ## Sockets -/

/-- Every entry has a socket of its own and is connected to one of the servers. -/
structure RelayPort.Wired (s : RelayPort) : Prop where
  distinct : ∀ i j p q, (s.entry i).route = some p → (s.entry j).route = some q →
    p.source = q.source → i = j
  listed : ∀ i p, (s.entry i).route = some p → p.destination ∈ s.serverAddr

theorem RelayPort.Wired.updates {s s' : RelayPort} {env : Env} {i : Nat} (wired : s.Wired)
    (updates : RelayPort.Updates env i s s')
    (fresh : ∀ j p, (s.entry j).route = some p → env.socket ≠ some p.source) : s'.Wired := by
  constructor
  · intro j k p q here there same
    by_cases first : j = i
    · by_cases second : k = i
      · exact first.trans second.symm
      · rw [updates.others k second] at there
        rcases (updates.continues j).route p here with old | ⟨new, -⟩
        · exact wired.distinct j k p q old there same
        · exact absurd (new.trans (congrArg some same)) (fresh k q there)
    · rw [updates.others j first] at here
      rcases (updates.continues k).route q there with old | ⟨new, -⟩
      · exact wired.distinct j k p q here old same
      · exact absurd (new.trans (congrArg some same.symm)) (fresh j p here)
  · intro j p has
    rw [updates.serverAddr]
    rcases (updates.continues j).route p has with old | ⟨-, listed⟩
    · exact wired.listed j p old
    · exact listed

theorem Payload.Plain.ip_ne_unspec {payload : Payload} (plain : payload.Plain) :
    payload.addr.ip ≠ .unspec := by
  intro same
  exact absurd plain.addr (by rw [same]; decide)

theorem Payload.Plain.fits {payload : Payload} (plain : payload.Plain) :
    payload.bytes.length < 2 ^ 16 :=
  Nat.lt_of_le_of_lt plain.length (by decide)

namespace Network

theorem FreshSocket.route {s : Network} {env : Env} (fresh : s.FreshSocket env) (i : Nat)
    (p : AddressPair) (has : (s.port.entry i).route = some p) : env.socket ≠ some p.source := by
  obtain ⟨c, connection, rfl⟩ := Option.map_eq_some_iff.mp has
  cases found : s.port.entries[i]? with
  | none =>
    rw [RelayPort.entry, found] at connection
    cases connection
  | some e =>
    rw [RelayPort.entry_eq found] at connection
    exact fresh e (List.mem_of_getElem? found) c connection

/-! ## What is under way -/

/-- A packet to the server is a request of its own, or has a payload: in a SEND request,
which asks for a lock only to the address of its entry, or as it is, for that address. -/
inductive Sent (s : Network) : Caused Datagram → Prop
  | allocate {socket destination : SocketAddress} {id username : List UInt8}
      {cause : Option Nat} :
      Sent s ⟨⟨socket, destination, (allocateRequest id username).write⟩, cause⟩
  | wrapped {call i : Nat} {payload : Payload} {pair : AddressPair} {username : List UInt8}
      {id : TransactionId} {lock : Bool}
      (made : s.calls[call]? = some payload) (plain : payload.Plain)
      (connected : (s.port.entry i).connected = true)
      (route : (s.port.entry i).route = some pair)
      (asks : lock = true →
        payload.addr.isAny = true ∨ (s.port.entry i).extAddr = payload.addr) :
      Sent s ⟨⟨pair.source, pair.destination,
        (sendRequest id.1 username payload.addr lock payload.bytes).write⟩, some call⟩
  | unwrapped {call i : Nat} {payload : Payload} {pair : AddressPair}
      (made : s.calls[call]? = some payload) (plain : payload.Plain)
      (connected : (s.port.entry i).connected = true)
      (route : (s.port.entry i).route = some pair)
      (locked : (s.port.entry i).locked = true)
      (addr : payload.addr.isAny = true ∨ (s.port.entry i).extAddr = payload.addr)
      (any : payload.addr.isAny = true → ∀ p ∈ s.toServer, p.value.socket = pair.source →
        ∀ extAddr, AsksLock p.value.bytes extAddr → extAddr.isAny = true) :
      Sent s ⟨⟨pair.source, pair.destination, payload.bytes⟩, some call⟩

/-- A connection of the server is locked to an address that was asked for on its socket, or
it is that of a peer. -/
def Locked (externalSocket : SocketAddress) (s : Network) (c : RelayServerConnection) : Prop :=
  c.locked = true →
    (c.addrPair.destination = externalSocket → c.addrPair.source.isAny = false) ∧
      (c.addrPair.destination ≠ externalSocket → ∃ p ∈ s.toServer,
        p.value.socket = c.addrPair.source ∧ AsksLock p.value.bytes c.defaultDestination)

/-- A packet to the port is an answer, or has the packet of a peer: in a DATA indication, or
as it is, if its address was asked for. -/
inductive Replied (s : Network) : Caused Datagram → Prop
  | answer {socket destination : SocketAddress} {msg : Message} {cause : Option Nat}
      (answer : IsAnswer msg) : Replied s ⟨⟨socket, destination, msg.write⟩, cause⟩
  | wrapped {socket destination : SocketAddress} {packet : Nat} {payload : Payload}
      (came : s.peerPackets[packet]? = some payload) (plain : payload.Plain) :
      Replied s ⟨⟨socket, destination, (dataIndication payload.bytes payload.addr).write⟩,
        some packet⟩
  | unwrapped {socket destination : SocketAddress} {packet : Nat} {payload : Payload}
      (came : s.peerPackets[packet]? = some payload) (plain : payload.Plain)
      (set : payload.addr.isAny = false)
      (asked : ∃ p ∈ s.toServer, p.value.socket = destination ∧
        AsksLock p.value.bytes payload.addr) :
      Replied s ⟨⟨socket, destination, payload.bytes⟩, some packet⟩

/-- What holds of port, server and network together. -/
structure Coherent (externalSocket : SocketAddress) (s : Network) : Prop where
  wired : s.port.Wired
  inside : externalSocket ∉ s.port.serverAddr
  sent : ∀ p ∈ s.toServer, p.value.destination ≠ externalSocket ∧ Sent s p
  guarded : s.server.Guarded externalSocket (Locked externalSocket s)
  replied : ∀ p ∈ s.toPort, Replied s p
  agrees : s.Agrees

variable {s s' : Network} {externalSocket : SocketAddress}

/-- A request that asks for a lock comes from a connected entry, and asks for its address. -/
theorem Sent.of_asksLock {p : Caused Datagram} (sent : Sent s p) {extAddr : SocketAddress}
    (asks : AsksLock p.value.bytes extAddr) :
    ∃ i pair, (s.port.entry i).connected = true ∧ (s.port.entry i).route = some pair ∧
      pair.source = p.value.socket ∧
      (extAddr.isAny = true ∨ (s.port.entry i).extAddr = extAddr) := by
  cases sent with
  | allocate => exact absurd asks (not_asksLock_allocateRequest _ _ _)
  | @wrapped call i payload pair username id lock made plain connected route locks =>
    obtain ⟨lock, rfl⟩ := asksLock_sendRequest id.2 plain.ip_ne_unspec plain.fits asks
    exact ⟨i, pair, connected, route, rfl, locks lock⟩
  | unwrapped made plain => exact absurd asks (not_asksLock_of_not_cookie plain.cookie _)

/-- What is asked for on the socket of an entry, and is an address, is that of the entry. -/
theorem Coherent.extAddr_eq (coherent : Coherent externalSocket s) {p : Caused Datagram}
    (mem : p ∈ s.toServer) {extAddr : SocketAddress} (asks : AsksLock p.value.bytes extAddr)
    (set : extAddr.isAny = false) {i : Nat} {pair : AddressPair}
    (route : (s.port.entry i).route = some pair) (socket : p.value.socket = pair.source) :
    (s.port.entry i).extAddr = extAddr := by
  obtain ⟨j, pair', -, route', source, any | same⟩ := (coherent.sent p mem).2.of_asksLock asks
  · exact absurd (set.symm.trans any) Bool.false_ne_true
  · cases coherent.wired.distinct j i pair' pair route' route (source.trans socket)
    exact same

/-! ## What a step adds -/

/-- A step forgets nothing, and asks for a lock only for an entry that has none. -/
structure Grows (s s' : Network) : Prop where
  continues : ∀ i, ∃ env, RelayEntry.Continues s.port.serverAddr env (s.port.entry i)
    (s'.port.entry i)
  calls : ∀ (call : Nat) (payload : Payload), s.calls[call]? = some payload → s'.calls[call]? = some payload
  peerPackets : ∀ (packet : Nat) (payload : Payload), s.peerPackets[packet]? = some payload →
    s'.peerPackets[packet]? = some payload
  sent : ∀ p ∈ s.toServer, p ∈ s'.toServer
  asks : ∀ p ∈ s'.toServer, p ∈ s.toServer ∨ ∀ extAddr, AsksLock p.value.bytes extAddr →
    ∃ i pair, (s'.port.entry i).route = some pair ∧ pair.source = p.value.socket ∧
      (s'.port.entry i).locked = false

namespace Grows

/-- A step of the server, after which the port and its packets are the same. -/
theorem of_port (port : s'.port = s.port) (toServer : s'.toServer = s.toServer)
    (calls : s'.calls = s.calls)
    (peerPackets : ∀ (packet : Nat) (payload : Payload), s.peerPackets[packet]? = some payload →
      s'.peerPackets[packet]? = some payload) : Grows s s' where
  continues i := by
    rw [port]
    exact ⟨⟨0, none, ⟨List.replicate 12 0, rfl⟩, ⟨List.replicate 12 0, rfl⟩⟩, .refl _⟩
  calls call payload made := calls ▸ made
  peerPackets := peerPackets
  sent p mem := toServer ▸ mem
  asks p mem := Or.inl (toServer ▸ mem)

theorem extAddr (grows : Grows s s') {i : Nat} {addr : SocketAddress}
    (has : addr.isAny = true ∨ (s.port.entry i).extAddr = addr) :
    addr.isAny = true ∨ (s'.port.entry i).extAddr = addr := by
  rcases has with any | rfl
  · exact Or.inl any
  · obtain ⟨env, continues⟩ := grows.continues i
    cases any : (s.port.entry i).extAddr.isAny with
    | true => exact Or.inl rfl
    | false => exact Or.inr (continues.extAddr any)

theorem sent_of_sent (grows : Grows s s') (wired : s'.port.Wired) {p : Caused Datagram}
    (sent : Sent s p) : Sent s' p := by
  cases sent with
  | allocate => exact .allocate
  | @wrapped call i payload pair username id lock made plain connected route locks =>
    obtain ⟨env, continues⟩ := grows.continues i
    obtain ⟨connected, same⟩ := continues.connected connected
    exact .wrapped (grows.calls _ _ made) plain connected (same.trans route)
      fun lock => grows.extAddr (locks lock)
  | @unwrapped call i payload pair made plain connected route locked addr any =>
    obtain ⟨env, continues⟩ := grows.continues i
    obtain ⟨connected, same⟩ := continues.connected connected
    have locked := continues.locked locked
    refine .unwrapped (grows.calls _ _ made) plain connected (same.trans route) locked
      (grows.extAddr addr) fun isAny p mem socket extAddr asks => ?_
    rcases grows.asks p mem with old | new
    · exact any isAny p old socket extAddr asks
    · -- A new request for a lock comes from an entry that has none.
      obtain ⟨j, pair', route', source, unlocked⟩ := new extAddr asks
      cases wired.distinct j i pair' pair route' (same.trans route) (source.trans socket)
      exact absurd (unlocked.symm.trans locked) Bool.false_ne_true

theorem locked_of_locked (grows : Grows s s') {c : RelayServerConnection}
    (locked : Locked externalSocket s c) : Locked externalSocket s' c := by
  intro is_locked
  refine ⟨(locked is_locked).1, fun inside => ?_⟩
  obtain ⟨p, mem, asked⟩ := (locked is_locked).2 inside
  exact ⟨p, grows.sent p mem, asked⟩

theorem replied_of_replied (grows : Grows s s') {p : Caused Datagram} (replied : Replied s p) :
    Replied s' p := by
  cases replied with
  | answer answer => exact .answer answer
  | wrapped came plain => exact .wrapped (grows.peerPackets _ _ came) plain
  | unwrapped came plain set asked =>
    obtain ⟨p, mem, asked⟩ := asked
    exact .unwrapped (grows.peerPackets _ _ came) plain set ⟨p, grows.sent p mem, asked⟩

theorem agrees_of_agrees (grows : Grows s s') (agrees : s.Agrees) :
    (∀ t ∈ s.transmitted, ∃ call, t.cause = some call ∧
      s'.calls[call]? = some ⟨t.value.bytes, t.value.destination⟩) ∧
    ∀ d ∈ s.delivered, ∃ packet, d.cause = some packet ∧
      s'.peerPackets[packet]? = some d.value := by
  constructor
  · intro t mem
    obtain ⟨call, cause, made⟩ := agrees.transmitted t mem
    exact ⟨call, cause, grows.calls _ _ made⟩
  · intro d mem
    obtain ⟨packet, cause, came⟩ := agrees.delivered d mem
    exact ⟨packet, cause, grows.peerPackets _ _ came⟩

end Grows

/-! ## Steps of the server -/

namespace Coherent

/-- The server handles an input: what it sends outside is for the address of the call, and
what it sends to the port is as it should be. -/
theorem serverSends (coherent : Coherent externalSocket s) {input : RelayServer.Input}
    {outside inside : Option Nat} (packets : List Payload)
    (keeps : Keeps externalSocket (Locked externalSocket s) input)
    (grows : ∀ (packet : Nat) (payload : Payload), s.peerPackets[packet]? = some payload →
      packets[packet]? = some payload)
    (out : ∀ sent, Sends externalSocket (Locked externalSocket s) input sent →
      sent.socket = externalSocket → ∃ call, outside = some call ∧
        s.calls[call]? = some ⟨sent.bytes, sent.destination⟩)
    (back : ∀ sent, Sends externalSocket (Locked externalSocket s) input sent →
      sent.socket ≠ externalSocket →
        Replied { s.serverSends input outside inside with peerPackets := packets }
          ⟨sent, inside⟩) :
    Coherent externalSocket
      { s.serverSends input outside inside with peerPackets := packets } := by
  have handled := coherent.guarded.step keeps
  have grows : Grows s { s.serverSends input outside inside with peerPackets := packets } :=
    .of_port rfl rfl rfl grows
  have old := grows.agrees_of_agrees coherent.agrees
  refine ⟨coherent.wired, coherent.inside, fun p mem => ?_, ?_, fun p mem => ?_, ?_, ?_⟩
  · obtain ⟨destination, sent⟩ := coherent.sent p mem
    exact ⟨destination, grows.sent_of_sent coherent.wired sent⟩
  · exact handled.guarded.mono fun _ locked => grows.locked_of_locked locked
  · rcases List.mem_append.mp mem with mem | new
    · exact grows.replied_of_replied (coherent.replied p mem)
    · obtain ⟨sent, listed, rfl⟩ := List.mem_map.mp new
      obtain ⟨listed, socket⟩ := List.mem_filter.mp listed
      refine back sent (handled.sends sent listed) ?_
      simpa [coherent.guarded.socket] using socket
  · intro t mem
    rcases List.mem_append.mp mem with mem | new
    · exact old.1 t mem
    · obtain ⟨sent, listed, rfl⟩ := List.mem_map.mp new
      obtain ⟨listed, socket⟩ := List.mem_filter.mp listed
      refine out sent (handled.sends sent listed) ?_
      simpa [coherent.guarded.socket] using socket
  · exact old.2

theorem keeps_toServer (coherent : Coherent externalSocket s) {p : Caused Datagram}
    (mem : p ∈ s.toServer) (now : UInt32) :
    Keeps externalSocket (Locked externalSocket s)
      (.packet ⟨p.value.socket, p.value.destination⟩ p.value.bytes now) := by
  have inside := (coherent.sent p mem).1
  refine ⟨fun _ _ locked => absurd locked Bool.false_ne_true, ?_, ?_, ?_⟩
  · rintro _ _ _ _ ⟨⟩ outside
    exact absurd outside inside
  · rintro _ _ _ _ ⟨⟩ outside
    exact absurd outside inside
  · rintro _ _ _ extAddr c ⟨⟩ - asks pair - -
    refine ⟨fun outside => ?_, fun _ => ⟨p, mem, ?_, asks⟩⟩
    · exact absurd ((congrArg AddressPair.destination pair).symm.trans outside) inside
    · exact congrArg AddressPair.source pair.symm

theorem keeps_peer {packet : Payload} (set : packet.addr.isAny = false) (now : UInt32) :
    Keeps externalSocket (Locked externalSocket s)
      (.packet ⟨packet.addr, externalSocket⟩ packet.bytes now) := by
  refine ⟨fun _ _ locked => absurd locked Bool.false_ne_true, ?_, ?_, ?_⟩
  · rintro _ _ _ username ⟨⟩ - -
    exact ⟨fun _ => set, fun inside => absurd rfl inside⟩
  · rintro _ _ _ c ⟨⟩ - pair - -
    refine ⟨fun _ => ?_, fun inside => ?_⟩
    · exact (congrArg (fun pair : AddressPair => pair.source.isAny) pair).trans set
    · exact absurd (congrArg AddressPair.destination pair) inside
  · rintro _ _ _ _ _ ⟨⟩ inside
    exact absurd rfl inside

/-- Data that is sent without a wrapper goes to the address that the entry has. -/
theorem addr_of_unwrapped (coherent : Coherent externalSocket s) {p : Caused Datagram}
    (mem : p ∈ s.toServer) (cookie : hasMagicCookie p.value.bytes = false)
    {int : RelayServerConnection} (socket : int.addrPair.source = p.value.socket)
    (inside : int.addrPair.destination ≠ externalSocket) (intLocked : int.locked = true)
    (intHolds : Locked externalSocket s int) (set : int.defaultDestination.isAny = false) :
    ∃ call, p.cause = some call ∧
      s.calls[call]? = some ⟨p.value.bytes, int.defaultDestination⟩ := by
  obtain ⟨q, asked_mem, asked_socket, asks⟩ := (intHolds intLocked).2 inside
  have sent := (coherent.sent p mem).2
  cases sent with
  | allocate =>
    exact absurd (cookie.symm.trans (hasMagicCookie_allocateRequest _ _)) Bool.false_ne_true
  | wrapped =>
    exact absurd (cookie.symm.trans (hasMagicCookie_sendRequest _ _ _ _ _)) Bool.false_ne_true
  | @unwrapped call i payload pair made plain connected route locked addr any =>
    have here := asked_socket.trans socket
    have same := coherent.extAddr_eq asked_mem asks set route here
    rcases addr with isAny | addr
    · exact absurd (set.symm.trans (any isAny q asked_mem here _ asks)) Bool.false_ne_true
    · refine ⟨call, rfl, ?_⟩
      rw [made, ← same, addr]

theorem toServer (coherent : Coherent externalSocket s) {p : Caused Datagram}
    (mem : p ∈ s.toServer) (now : UInt32) :
    Coherent externalSocket (s.serverSends
      (.packet ⟨p.value.socket, p.value.destination⟩ p.value.bytes now) p.cause none) := by
  have inside := (coherent.sent p mem).1
  refine coherent.serverSends s.peerPackets (coherent.keeps_toServer mem now)
    (fun _ _ => id) (fun sent sends socket => ?_) fun sent sends socket => ?_
  · cases sends with
    | answer => exact absurd socket inside
    | wrapped _ cookie parsed send addr has =>
      have sent := (coherent.sent p mem).2
      cases sent with
      | allocate =>
        rw [type_of_parseStun parsed, type_allocateRequest] at send
        exact absurd send (by decide)
      | @wrapped call _ _ _ _ id _ made plain =>
        obtain ⟨_, read⟩ := read_of_parseStun parsed
        obtain ⟨addr', has', -⟩ := read_sendRequest id.2 plain.ip_ne_unspec plain.fits read
        have source := Option.some.inj (addr.symm.trans addr')
        have bytes := Option.some.inj (has.symm.trans has')
        exact ⟨call, rfl, made.trans (by rw [AddressPair.send, source, bytes])⟩
      | unwrapped _ plain =>
        exact absurd (plain.cookie.symm.trans cookie) Bool.false_ne_true
    | @unwrapped _ _ _ int ext _ cookie pair intLocked intHolds addr outside locked holds =>
      have set := (holds locked).1 outside
      rw [addr] at set
      have same := coherent.addr_of_unwrapped mem cookie (congrArg AddressPair.source pair)
        (pair ▸ inside) intLocked intHolds set
      rwa [← addr] at same
    | forwarded outside => exact absurd outside inside
  · cases sends with
    | answer _ answer => exact .answer answer
    | wrapped _ _ _ _ _ _ outside => exact absurd outside socket
    | unwrapped _ _ _ _ _ _ outside => exact absurd outside socket
    | forwarded outside => exact absurd outside inside

theorem peer (coherent : Coherent externalSocket s) {packet : Payload} (plain : packet.Plain)
    (set : packet.addr.isAny = false) (now : UInt32) :
    Coherent externalSocket
      { s.serverSends (.packet ⟨packet.addr, externalSocket⟩ packet.bytes now) none
          (some s.peerPackets.length) with
        peerPackets := s.peerPackets ++ [packet] } := by
  have came : (s.peerPackets ++ [packet])[s.peerPackets.length]? = some packet := by simp
  refine coherent.serverSends _ (keeps_peer set now) (fun index payload came => ?_)
    (fun sent sends socket => ?_) fun sent sends socket => ?_
  · rw [List.getElem?_append_left (List.getElem?_eq_some_iff.mp came).1]
    exact came
  · cases sends with
    | answer inside => exact absurd rfl inside
    | wrapped inside => exact absurd rfl inside
    | unwrapped inside => exact absurd rfl inside
    | @forwarded _ _ _ int _ inside =>
      have pair := congrArg AddressPair.destination
        (sendFrom_socket int packet.bytes packet.addr)
      exact absurd (pair.symm.trans socket) inside
  · cases sends with
    | answer inside => exact absurd rfl inside
    | wrapped inside => exact absurd rfl inside
    | unwrapped inside => exact absurd rfl inside
    | @forwarded _ _ _ int _ inside holds =>
      unfold RelayServerConnection.sendFrom
      split
      · next both =>
        obtain ⟨q, mem, socket, asks⟩ := (holds both.1).2 inside
        rw [← both.2] at asks
        exact .unwrapped came plain set ⟨q, mem, socket, asks⟩
      · exact .wrapped came plain

theorem silent (coherent : Coherent externalSocket s) {input : RelayServer.Input}
    (keeps : Keeps externalSocket (Locked externalSocket s) input)
    (sends : ∀ sent, ¬ Sends externalSocket (Locked externalSocket s) input sent) :
    Coherent externalSocket (s.serverSends input none none) :=
  coherent.serverSends s.peerPackets keeps (fun _ _ => id)
    (fun sent sent' => absurd sent' (sends sent)) fun sent sent' => absurd sent' (sends sent)

theorem timer (coherent : Coherent externalSocket s) (username : List UInt8) (now : UInt32) :
    Coherent externalSocket (s.serverSends (.timer username now) none none) := by
  refine coherent.silent ⟨fun _ _ locked => absurd locked Bool.false_ne_true, ?_, ?_, ?_⟩ nofun
  · rintro _ _ _ _ ⟨⟩
  · rintro _ _ _ _ ⟨⟩
  · rintro _ _ _ _ _ ⟨⟩

theorem dispose (coherent : Coherent externalSocket s) (username : List UInt8) :
    Coherent externalSocket (s.serverSends (.dispose username) none none) := by
  refine coherent.silent ⟨fun _ _ locked => absurd locked Bool.false_ne_true, ?_, ?_, ?_⟩ nofun
  · rintro _ _ _ _ ⟨⟩
  · rintro _ _ _ _ ⟨⟩
  · rintro _ _ _ _ _ ⟨⟩

/-! ## Steps of the port -/

/-- A step of the port, which adds packets to the server, or something delivered. -/
theorem of_grows (coherent : Coherent externalSocket s) (grows : Grows s s')
    (wired : s'.port.Wired) (serverAddr : s'.port.serverAddr = s.port.serverAddr)
    (server : s'.server = s.server) (toPort : s'.toPort = s.toPort)
    (transmitted : s'.transmitted = s.transmitted)
    (sent : ∀ p ∈ s'.toServer, p ∈ s.toServer ∨
      p.value.destination ≠ externalSocket ∧ Sent s' p)
    (delivered : ∀ d ∈ s'.delivered, d ∈ s.delivered ∨ ∃ packet, d.cause = some packet ∧
      s'.peerPackets[packet]? = some d.value) : Coherent externalSocket s' := by
  have old := grows.agrees_of_agrees coherent.agrees
  refine ⟨wired, serverAddr ▸ coherent.inside, fun p mem => ?_, ?_, fun p mem => ?_,
    fun t mem => ?_, fun d mem => ?_⟩
  · rcases sent p mem with mem | new
    · obtain ⟨destination, sent⟩ := coherent.sent p mem
      exact ⟨destination, grows.sent_of_sent wired sent⟩
    · exact new
  · rw [server]
    exact coherent.guarded.mono fun _ locked => grows.locked_of_locked locked
  · exact grows.replied_of_replied (coherent.replied p (toPort ▸ mem))
  · exact old.1 t (transmitted ▸ mem)
  · rcases delivered d mem with mem | new
    · exact old.2 d mem
    · exact new

theorem destination_ne (coherent : Coherent externalSocket s) {port : RelayPort} (wired : port.Wired)
    (serverAddr : port.serverAddr = s.port.serverAddr) {i : Nat} {pair : AddressPair}
    (route : (port.entry i).route = some pair) : pair.destination ≠ externalSocket := by
  rintro rfl
  exact coherent.inside (serverAddr ▸ wired.listed i pair route)

theorem sendTo (coherent : Coherent externalSocket s) {call : Payload} (plain : call.Plain)
    (payload : Bool) {env : Env} (fresh : s.FreshSocket env) :
    Coherent externalSocket (s.step (.sendTo call payload env)) := by
  obtain ⟨i, updates⟩ := s.port.sendTo_updates call.bytes call.addr payload env
  have wired := coherent.wired.updates updates fresh.route
  have carries := fun sent => s.port.carries_of_sendTo call.bytes call.addr payload env sent
  simp only [step, portSends]
  generalize s.port.sendTo call.bytes call.addr payload env = result at *
  obtain ⟨port, sent⟩ := result
  have made : (s.calls ++ [call])[s.calls.length]? = some call := by simp
  -- What asks for a lock is wrapped, and comes from an entry that has none.
  have asks {d : Datagram} (mem : d ∈ sent) {extAddr : SocketAddress}
      (asks : AsksLock d.bytes extAddr) : extAddr = call.addr ∧ ∃ i pair,
        (port.entry i).route = some pair ∧ pair.source = d.socket ∧
        (port.entry i).locked = false ∧ (port.entry i).extAddr = call.addr := by
    obtain ⟨i, pair, -, route, carried⟩ := carries d mem
    cases carried with
    | unwrapped => exact absurd asks (not_asksLock_of_not_cookie plain.cookie _)
    | wrapped id lock may =>
      obtain ⟨lock, rfl⟩ := asksLock_sendRequest id.2 plain.ip_ne_unspec plain.fits asks
      exact ⟨rfl, i, pair, route, rfl, may lock⟩
  have grows : Grows s { s with
      port, toServer := s.toServer ++ sent.map fun d => ⟨d, some s.calls.length⟩
      calls := s.calls ++ [call] } := by
    refine ⟨fun j => ⟨env, updates.continues j⟩, fun index payload made => ?_, fun _ _ => id,
      fun p mem => List.mem_append_left _ mem, fun p mem => ?_⟩
    · rw [List.getElem?_append_left (List.getElem?_eq_some_iff.mp made).1]
      exact made
    · refine (List.mem_append.mp mem).imp_right fun new extAddr asked => ?_
      obtain ⟨d, listed, rfl⟩ := List.mem_map.mp new
      obtain ⟨-, i, pair, route, source, unlocked, -⟩ := asks listed asked
      exact ⟨i, pair, route, source, unlocked⟩
  refine coherent.of_grows grows wired updates.serverAddr rfl rfl rfl (fun p mem => ?_)
    fun d mem => Or.inl mem
  refine (List.mem_append.mp mem).imp_right fun new => ?_
  obtain ⟨d, listed, rfl⟩ := List.mem_map.mp new
  obtain ⟨i, pair, connected, route, carried⟩ := carries d listed
  cases carried with
  | wrapped id lock may =>
    refine ⟨coherent.destination_ne wired updates.serverAddr route, ?_⟩
    exact .wrapped made plain connected route fun lock => Or.inr (may lock).2
  | unwrapped locked addr =>
    refine ⟨coherent.destination_ne wired updates.serverAddr route, ?_⟩
    refine .unwrapped made plain connected route locked (Or.inr addr) fun isAny q mem socket
      extAddr asked => ?_
    rcases List.mem_append.mp mem with old | new
    · -- An earlier request for an address would have been for that of the entry.
      have sent := grows.sent_of_sent wired (coherent.sent q old).2
      obtain ⟨j, pair', -, route', source, any | same⟩ := sent.of_asksLock asked
      · exact any
      · cases wired.distinct j i pair' pair route' route (source.trans socket)
        rw [← same, addr]
        exact isAny
    · obtain ⟨d, listed, rfl⟩ := List.mem_map.mp new
      rw [(asks listed asked).1]
      exact isAny

theorem port (coherent : Coherent externalSocket s) (input : RelayPort.Input) {env : Env}
    (fresh : s.FreshSocket env) : Coherent externalSocket (s.step (.port input env)) := by
  obtain ⟨i, updates⟩ := s.port.step_updates input env
  have wired := coherent.wired.updates updates fresh.route
  have allocates := fun sent => s.port.allocate_of_step input env sent
  simp only [step, portSends]
  generalize s.port.step input env = result at *
  obtain ⟨port, sent⟩ := result
  refine coherent.of_grows ⟨fun j => ⟨env, updates.continues j⟩, fun _ _ => id, fun _ _ => id,
    fun p mem => List.mem_append_left _ mem, fun p mem => ?_⟩ wired updates.serverAddr rfl rfl rfl
    (fun p mem => ?_) fun d mem => Or.inl mem
  · refine (List.mem_append.mp mem).imp_right fun new extAddr asked => ?_
    obtain ⟨d, listed, rfl⟩ := List.mem_map.mp new
    obtain ⟨_, _, _, -, rfl⟩ := allocates d listed
    exact absurd asked (not_asksLock_allocateRequest _ _ _)
  · refine (List.mem_append.mp mem).imp_right fun new => ?_
    obtain ⟨d, listed, rfl⟩ := List.mem_map.mp new
    obtain ⟨j, pair, id, route, rfl⟩ := allocates d listed
    exact ⟨coherent.destination_ne coherent.wired rfl route, .allocate⟩

/-- What the port passes on came from a peer, with this address. -/
theorem came_of_brings (coherent : Coherent externalSocket s) {p : Caused Datagram}
    (mem : p ∈ s.toPort) {i : Nat} {pair : AddressPair}
    (route : (s.port.entry i).route = some pair) (socket : pair.source = p.value.destination)
    {payload : Payload} (brings : RelayPort.Brings p.value.bytes (s.port.entry i) payload) :
    ∃ packet, p.cause = some packet ∧ s.peerPackets[packet]? = some payload := by
  have replied := coherent.replied p mem
  cases brings with
  | unwrapped cookie =>
    cases replied with
    | answer answer => exact absurd (cookie.symm.trans answer.cookie) Bool.false_ne_true
    | wrapped =>
      exact absurd (cookie.symm.trans (hasMagicCookie_dataIndication _ _)) Bool.false_ne_true
    | @unwrapped _ _ packet payload came _ set asked =>
      obtain ⟨q, mem, asked_socket, asks⟩ := asked
      have same := coherent.extAddr_eq mem asks set route (asked_socket.trans socket.symm)
      rw [same]
      exact ⟨packet, rfl, came⟩
  | @wrapped msg _ _ cookie read type addr has =>
    cases replied with
    | answer answer => exact absurd ((type_of_read_write read).symm.trans type) answer.type
    | @wrapped _ _ packet payload' came plain =>
      obtain ⟨addr', has'⟩ := read_dataIndication plain.ip_ne_unspec plain.fits read
      have source := Option.some.inj (addr.symm.trans addr')
      have bytes := Option.some.inj (has.symm.trans has')
      obtain ⟨bytes', addr''⟩ := payload
      cases source
      cases bytes
      exact ⟨packet, rfl, came⟩
    | unwrapped _ plain => exact absurd (plain.cookie.symm.trans cookie) Bool.false_ne_true

theorem toPort (coherent : Coherent externalSocket s) (packet : Nat) {env : Env}
    (fresh : s.FreshSocket env) : Coherent externalSocket (s.step (.toPort packet env)) := by
  simp only [step]
  split
  · exact coherent
  · next d cause found =>
    obtain ⟨i, updates⟩ := s.port.onReadPacket_updates d.destination d.bytes env
    have wired := coherent.wired.updates updates fresh.route
    refine coherent.of_grows ⟨fun j => ⟨env, updates.continues j⟩, fun _ _ => id, fun _ _ => id,
      fun _ => id, fun _ => Or.inl⟩ wired updates.serverAddr rfl rfl rfl (fun _ => Or.inl)
      fun d' mem => ?_
    refine (List.mem_append.mp mem).imp_right fun new => ?_
    obtain ⟨payload, brought, rfl⟩ := List.mem_map.mp new
    obtain ⟨j, pair, route, socket, brings⟩ :=
      RelayPort.brings_of_onReadPacket (Option.mem_toList.mp brought)
    exact coherent.came_of_brings (List.mem_of_getElem? found) route socket brings

/-- One step of port, server or network. -/
theorem step (coherent : Coherent externalSocket s) {event : Event} (admitted : s.Admitted event) :
    Coherent externalSocket (s.step event) := by
  cases event with
  | sendTo call payload env => exact coherent.sendTo admitted.1 payload admitted.2
  | port input env => exact coherent.port input admitted
  | toServer packet now =>
    simp only [Network.step]
    split
    · exact coherent
    · next d cause found => exact coherent.toServer (List.mem_of_getElem? found) now
  | toPort packet env => exact coherent.toPort packet admitted
  | peer packet now =>
    have peer := coherent.peer admitted.1 admitted.2 now
    rw [← coherent.guarded.socket] at peer ⊢
    exact peer
  | timer username now => exact coherent.timer username now
  | dispose username => exact coherent.dispose username

end Coherent

theorem coherent_new (username : List UInt8) {serverAddr : List SocketAddress}
    {externalSocket : SocketAddress} (inside : externalSocket ∉ serverAddr) :
    Coherent externalSocket (new username serverAddr externalSocket) := by
  have unrouted (i : Nat) : ((RelayPort.new username serverAddr).entry i).route = none := by
    cases i <;> rfl
  refine ⟨⟨fun i j p q here => ?_, fun i p here => ?_⟩, inside, nofun, .new _ _, nofun, nofun,
    nofun⟩
  · exact nomatch (unrouted i).symm.trans here
  · exact nomatch (unrouted i).symm.trans here

/-- In every run of a relay port and a relay server, with whatever delivery: what the server
transmits is what the client sent, to the address that it was for; and what the port
delivers is what a peer sent, with the address of that peer. -/
theorem agrees_of_run (username : List UInt8) (serverAddr : List SocketAddress)
    (externalSocket : SocketAddress) (inside : externalSocket ∉ serverAddr)
    (events : List Event)
    (admitted : Along step Admitted (new username serverAddr externalSocket) events) :
    (runInputs step (new username serverAddr externalSocket) events).Agrees :=
  (admitted.invariant (P := Coherent externalSocket)
    (fun _ _ admitted coherent => coherent.step admitted) (coherent_new username inside)).agrees

/-! ## A client and a peer -/

def sampleEnv (socket : Option SocketAddress) : Env where
  now := 0
  socket := socket
  requestId := ⟨sampleId, rfl⟩
  messageId := ⟨sampleId, rfl⟩

/-- The client allocates and sends to the peer, the peer sends to the client, and the
responses arrive late. -/
def sampleEvents : List Event :=
  [.port .prepareAddress (sampleEnv (some (sampleAddress 2))),
    .port (.stunSend 0 sampleId) (sampleEnv none), .toServer 0 0, .toPort 0 (sampleEnv none),
    .sendTo ⟨[0x21], sampleAddress 9⟩ true (sampleEnv none), .toServer 1 0,
    .peer ⟨[0x3f], sampleAddress 9⟩ 0, .toPort 1 (sampleEnv none), .toPort 2 (sampleEnv none),
    -- The connection is locked on both sides. The first request arrives again.
    .sendTo ⟨[0x22], sampleAddress 9⟩ true (sampleEnv none), .toServer 2 0, .toServer 1 0]

def sampleNetwork : Network :=
  new [0x41] [⟨.v4 1, 3478⟩] ⟨.v4 1, 3479⟩

theorem agrees_of_sample_run :
    let s := runInputs step sampleNetwork sampleEvents
    s.Agrees ∧ s.transmitted.map (·.value.bytes) = [[0x22], [0x21]] ∧
      s.delivered.map (·.value) = [⟨[0x3f], sampleAddress 9⟩] :=
  ⟨agrees_of_run [0x41] [⟨.v4 1, 3478⟩] ⟨.v4 1, 3479⟩ (by decide) sampleEvents
    (by decide +kernel), by decide +kernel, by decide +kernel⟩

end Network

end Libjingle.Relay

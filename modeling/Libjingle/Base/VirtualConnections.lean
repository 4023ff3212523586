import Libjingle.Base.VirtualTcp

/-!
# Clients of one listening address

An accepted socket has the address of the listening one, so that a client that looks its sender up
by the address finds the listening socket. Nothing is sent by that, and what the accepted socket has
left to send stays where it is.
-/

namespace Libjingle.VirtualSockets

open Libjingle.Std Libjingle.Base

/-- A client, and the socket that was accepted for it. -/
structure Link where
  client : Nat
  accepted : Nat
  address : SocketAddress
  deriving DecidableEq, Repr

/-- Both directions of a connection. -/
def Link.ends (link : Link) : List (Nat × Nat) :=
  [(link.client, link.accepted), (link.accepted, link.client)]

/-- The client at its address and the accepted socket at the listening one have each other's address,
and the tables lead from each to the other. -/
structure Joins (m : VirtualSocketServer) (address : SocketAddress) (link : Link) : Prop where
  clientState : (m.sockets link.client).state = .connected
  clientLocal : (m.sockets link.client).localAddr = link.address
  clientRemote : (m.sockets link.client).remoteAddr = address
  acceptedState : (m.sockets link.accepted).state = .connected
  acceptedLocal : (m.sockets link.accepted).localAddr = address
  acceptedRemote : (m.sockets link.accepted).remoteAddr = link.address
  bound : m.lookupBinding link.address = some link.client
  toAccepted : m.lookupConnection link.address address = some link.accepted
  toClient : m.lookupConnection address link.address = some link.client

/-- Clients that are connected to a listening address, and nothing sent yet. -/
structure Connected (m : VirtualSocketServer) (listening : Nat) (address : SocketAddress)
    (links : List Link) : Prop where
  bound : m.lookupBinding address = some listening
  waiting : (m.sockets listening).state = .connecting
  silent : m.recipient listening = none
  joins : ∀ link ∈ links, Joins m address link
  others : ∀ x, (∀ link ∈ links, x ≠ link.client ∧ x ≠ link.accepted) →
    (m.sockets x).state ≠ .connected
  empty : ∀ x, (m.sockets x).sendBuffer = [] ∧ (m.sockets x).recvBuffer = [] ∧
    (m.sockets x).recvBufferSize = 0
  idle : m.msgQueue.Holds [] m.networkDelay
  word : m.recvBufferCapacity < 2 ^ 32

section

variable {m : VirtualSocketServer} {listening : Nat} {address : SocketAddress} {links : List Link}
  {s r : Nat}

theorem mem_ends {link : Link} : (s, r) ∈ link.ends ↔
    s = link.client ∧ r = link.accepted ∨ s = link.accepted ∧ r = link.client := by
  simp [Link.ends]

theorem Connected.wired (connected : Connected m listening address links) :
    m.Wired (links.flatMap Link.ends) where
  both := by
    intro s r pair
    obtain ⟨link, listed, pair⟩ := List.mem_flatMap.mp pair
    refine List.mem_flatMap.mpr ⟨link, listed, ?_⟩
    rw [mem_ends] at pair ⊢
    tauto
  apart := by
    intro s r pair same
    obtain ⟨link, listed, pair⟩ := List.mem_flatMap.mp pair
    have joins := connected.joins link listed
    have one : link.client = link.accepted := by
      rcases mem_ends.mp pair with ⟨rfl, rfl⟩ | ⟨rfl, rfl⟩
      · exact same
      · exact same.symm
    -- Then the client has the listening address, and is the listening socket.
    have addresses : link.address = address := by
      rw [← joins.clientLocal, one, joins.acceptedLocal]
    have sockets : link.client = listening :=
      Option.some.inj (joins.bound.symm.trans (addresses ▸ connected.bound))
    have state := joins.clientState
    rw [sockets, connected.waiting] at state
    cases state
  connected := by
    intro s r pair
    obtain ⟨link, listed, pair⟩ := List.mem_flatMap.mp pair
    have joins := connected.joins link listed
    rcases mem_ends.mp pair with ⟨rfl, rfl⟩ | ⟨rfl, rfl⟩
    · exact joins.clientState
    · exact joins.acceptedState
  recipient := by
    intro s r pair
    obtain ⟨link, listed, pair⟩ := List.mem_flatMap.mp pair
    have joins := connected.joins link listed
    unfold VirtualSocketServer.recipient
    rcases mem_ends.mp pair with ⟨rfl, rfl⟩ | ⟨rfl, rfl⟩
    · rw [joins.clientLocal, joins.clientRemote]
      exact joins.toAccepted
    · rw [joins.acceptedLocal, joins.acceptedRemote]
      exact joins.toClient
  resumed := by
    intro s r pair
    obtain ⟨link, listed, pair⟩ := List.mem_flatMap.mp pair
    have joins := connected.joins link listed
    unfold VirtualSocketServer.resumed
    rcases mem_ends.mp pair with ⟨rfl, rfl⟩ | ⟨rfl, rfl⟩
    · rw [joins.acceptedRemote]
      exact ⟨_, joins.bound, .inl rfl⟩
    · rw [joins.clientRemote]
      exact ⟨_, connected.bound, .inr connected.silent⟩
  others := by
    intro x apart
    refine connected.others x fun link listed => ⟨?_, ?_⟩
    · rintro rfl
      exact apart link.accepted (List.mem_flatMap.mpr ⟨link, listed, mem_ends.mpr (.inl ⟨rfl, rfl⟩)⟩)
    · rintro rfl
      exact apart link.client (List.mem_flatMap.mpr ⟨link, listed, mem_ends.mpr (.inr ⟨rfl, rfl⟩)⟩)

theorem Connected.steady (connected : Connected m listening address links) :
    Steady { server := m } (links.flatMap Link.ends) := by
  refine ⟨⟨[], connected.wired, connected.idle, connected.word, fun _ none => absurd none
    List.not_mem_nil, fun x _ => (connected.empty x).2.1, fun {s r} _ => ?_⟩, fun {s r} _ some_data => ?_⟩
  · have nothing : m.unreadBytes r = [] :=
      congrArg (List.flatMap Packet.data) (connected.empty r).2.1
    refine ⟨?_, ?_, ?_⟩
    · dsimp only
      rw [nothing, (connected.empty s).1]
      rfl
    · dsimp only
      rw [nothing, (connected.empty r).2.2]
      rfl
    · dsimp only
      rw [(connected.empty r).2.2]
      exact Nat.zero_le _
  · exact absurd (connected.empty s).1 some_data

end

/-! ## How clients connect -/

/-- When a client asks, with which delay, and when it is heard, accepted and answered. -/
structure Handshake where
  sent : Nat
  delay : Nat
  arrived : Nat
  accepted : Nat
  answered : Nat
  deriving DecidableEq, Repr

/-- The messages are due when they are delivered. -/
structure Handshake.Due (h : Handshake) : Prop where
  arrives : ¬ timeIsLater h.arrived (add32 h.sent h.delay)
  answers : ¬ timeIsLater h.answered (add32 h.accepted 0)

instance decidableDue (h : Handshake) : Decidable h.Due :=
  decidable_of_iff (¬ timeIsLater h.arrived (add32 h.sent h.delay) ∧
    ¬ timeIsLater h.answered (add32 h.accepted 0))
    ⟨fun due => ⟨due.1, due.2⟩, fun due => ⟨due.arrives, due.answers⟩⟩

namespace VirtualSocketServer

variable (heap : DelayHeap MessageData) (m : VirtualSocketServer)

/-- A new socket at an address connects to another address. -/
def request (address client : SocketAddress) (h : Handshake) : VirtualSocketServer :=
  let socket := m.nextSocket
  let m := ((m.create {}).2.bind socket client).2
  (m.initiateConnect heap socket address h.delay h.sent).2

/-- A client connects, is accepted and hears of it. -/
def establish (listening : Nat) (address client : SocketAddress) (h : Handshake) :
    VirtualSocketServer :=
  let m := (m.request heap address client h).deliver heap h.arrived
  let m := (m.accept heap listening h.accepted).2
  m.deliver heap h.answered

/-- A socket listens at an address. -/
def startListening (address : SocketAddress) : VirtualSocketServer :=
  let socket := m.nextSocket
  let m := ((m.create {}).2.bind socket address).2
  (m.listen socket).2

end VirtualSocketServer

/-- More clients can connect. -/
structure Ready (m : VirtualSocketServer) (listening : Nat) (address : SocketAddress)
    (links : List Link) : Prop extends Connected m listening address links where
  listener : m.sockets listening =
    { state := .connecting, localAddr := address, listenQueue := some [] }
  listener_lt : listening < m.nextSocket
  links_lt : ∀ link ∈ links, link.client < m.nextSocket ∧ link.accepted < m.nextSocket
  normal : normalized address = address
  routes : ∀ pair x, m.connections pair = some x →
    ∃ link ∈ links, pair = (link.address, address) ∨ pair = (address, link.address)

section

variable {heap : DelayHeap MessageData} {m : VirtualSocketServer} {listening x : Nat}
  {address client addr : SocketAddress} {links : List Link} {h : Handshake}

theorem normalized_normalized (addr : SocketAddress) :
    normalized (normalized addr) = normalized addr := by
  unfold normalized
  congr 1
  cases addr.ip with
  | unspec => rfl
  | v4 ip => rfl
  | v6 ip =>
    unfold IPAddress.normalized
    by_cases mapped : IPAddress.isMapped ip = true
    · simp only [mapped, if_true]
    · simp only [mapped, Bool.false_eq_true, if_false]

theorem bind_free (unbound : (m.sockets x).localAddr.isAny = true) (free : m.lookupBinding addr = none) :
    (m.bind x addr).2 =
      { m.modify x fun s => { s with localAddr := normalized addr } with
        bindings := Function.update m.bindings (normalized addr) (some x) } := by
  unfold VirtualSocketServer.bind
  rw [free, if_neg (not_not_intro unbound)]
  rfl

theorem initiateConnect_found {remote delay time : Nat} (open_ : (m.sockets x).remoteAddr.isAny = true)
    (found : m.lookupBinding addr = some remote)
    (interact : VirtualSocketServer.canInteractWith (m.sockets x) (m.sockets remote) = true) :
    m.initiateConnect heap x addr delay time =
      (true, { m with
        msgQueue := m.msgQueue.postDelayed heap time delay (some remote) msgIdConnect
          (.address (m.sockets x).localAddr) }.modify x fun s => { s with state := .connecting }) := by
  unfold VirtualSocketServer.initiateConnect VirtualSocketServer.connect
  rw [found, if_neg (not_not_intro open_)]
  dsimp only
  rw [if_pos interact]

/-- A new client has asked for a connection. -/
def asks (m : VirtualSocketServer) (client : SocketAddress) (msgQueue : MessageQueue MessageData) :
    VirtualSocketServer :=
  { m with
    sockets := Function.update m.sockets m.nextSocket
      { state := .connecting, localAddr := normalized client }
    nextSocket := m.nextSocket + 1
    bindings := Function.update m.bindings (normalized client) (some m.nextSocket)
    msgQueue }

/-- It has been accepted, and is yet to hear of it. -/
def accepts (m : VirtualSocketServer) (address client : SocketAddress)
    (msgQueue : MessageQueue MessageData) : VirtualSocketServer :=
  { m with
    sockets := Function.update
      (Function.update m.sockets m.nextSocket
        { state := .connecting, localAddr := normalized client })
      (m.nextSocket + 1)
      { state := .connected, localAddr := address, remoteAddr := normalized client }
    nextSocket := m.nextSocket + 2
    bindings := Function.update m.bindings (normalized client) (some m.nextSocket)
    connections := Function.update m.connections (normalized client, address)
      (some (m.nextSocket + 1))
    msgQueue }

/-- Both have heard of each other. -/
def joined (m : VirtualSocketServer) (address client : SocketAddress)
    (msgQueue : MessageQueue MessageData) : VirtualSocketServer :=
  { m with
    sockets := Function.update
      (Function.update m.sockets m.nextSocket
        { state := .connected, localAddr := normalized client, remoteAddr := address })
      (m.nextSocket + 1)
      { state := .connected, localAddr := address, remoteAddr := normalized client }
    nextSocket := m.nextSocket + 2
    bindings := Function.update m.bindings (normalized client) (some m.nextSocket)
    connections := Function.update
      (Function.update m.connections (normalized client, address) (some (m.nextSocket + 1)))
      (address, normalized client) (some m.nextSocket)
    msgQueue }

theorem request_eq (ready : Ready m listening address links) (free : m.lookupBinding client = none)
    (family : VirtualSocketServer.sameFamily client.ip.normalized address.ip.normalized = true) :
    m.request heap address client h =
      asks m client (m.msgQueue.postDelayed heap h.sent h.delay (some listening) msgIdConnect
        (.address (normalized client))) := by
  have elsewhere : listening ≠ m.nextSocket := Nat.ne_of_lt ready.listener_lt
  have other : normalized address ≠ normalized client := by
    intro same
    have bound : m.bindings (normalized address) = some listening := ready.bound
    rw [same] at bound
    cases bound.symm.trans free
  have sockets : (m.create {}).2.sockets = Function.update m.sockets m.nextSocket {} := rfl
  have unbound : ((m.create {}).2.sockets m.nextSocket).localAddr.isAny = true := by
    rw [sockets, Function.update_self]
    rfl
  have free' : (m.create {}).2.lookupBinding client = none := free
  unfold VirtualSocketServer.request
  dsimp only
  rw [bind_free unbound free']
  generalize made : ({ (m.create {}).2.modify m.nextSocket fun s =>
      { s with localAddr := normalized client } with
      bindings := Function.update (m.create {}).2.bindings (normalized client) (some m.nextSocket) } :
        VirtualSocketServer) = bound
  have socket : bound.sockets m.nextSocket = { localAddr := normalized client } := by
    rw [← made]
    dsimp only
    rw [VirtualSocketServer.modify_sockets, if_pos rfl, sockets, Function.update_self]
  have listener : bound.sockets listening = m.sockets listening := by
    rw [← made]
    dsimp only
    rw [VirtualSocketServer.modify_sockets, if_neg elsewhere, sockets, Function.update_of_ne elsewhere]
  have found : bound.lookupBinding address = some listening := by
    rw [← made]
    unfold VirtualSocketServer.lookupBinding
    dsimp only
    rw [Function.update_of_ne other]
    exact ready.bound
  have interact : VirtualSocketServer.canInteractWith (bound.sockets m.nextSocket)
      (bound.sockets listening) = true := by
    rw [socket, listener, ready.listener]
    unfold VirtualSocketServer.canInteractWith
    have twice : (normalized client).ip.normalized = client.ip.normalized :=
      congrArg SocketAddress.ip (normalized_normalized client)
    simp [twice, family]
  rw [initiateConnect_found (by rw [socket]; rfl) found interact, socket, ← made]
  simp [asks, VirtualSocketServer.create, VirtualSocketServer.modify]

/-- The only message is delivered once it is due. -/
theorem deliver_posted {q : MessageQueue MessageData} {bound time delay arrived id : Nat}
    {data : MessageData} (m : VirtualSocketServer) (x : Nat) (idle : q.Holds [] bound)
    (counts : q.dmsgqNextNum + 1 < 2 ^ 32) (kept : id ≠ mqidDispose)
    (due : ¬ timeIsLater arrived (add32 time delay)) :
    ∃ msgQueue : MessageQueue MessageData, msgQueue.Holds [] bound ∧
      msgQueue.dmsgqNextNum = q.dmsgqNextNum + 1 ∧
      { m with msgQueue := q.postDelayed heap time delay (some x) id data }.deliver heap arrived =
        { m with msgQueue }.onMessage x id data := by
  obtain ⟨holds, triggers, number⟩ :=
    @MessageQueue.Holds.doDelayPost_empty _ q bound heap idle delay (add32 time delay) id (some x) data
      counts kept
  rw [← MessageQueue.postDelayed] at holds triggers number
  unfold VirtualSocketServer.deliver
  dsimp only
  generalize q.postDelayed heap time delay (some x) id data = posted at *
  obtain ⟨found, left⟩ := @MessageQueue.Holds.get_due _ posted [] _ arrived heap _ holds kForever
    fun d d_mem => triggers d d_mem ▸ due
  refine ⟨(posted.get heap kForever arrived).2, left.empty bound,
    (holds.get_dmsgqNextNum kForever).trans number, ?_⟩
  rcases answer : posted.get heap kForever arrived with ⟨first, msgQueue⟩
  rw [answer] at found
  cases found
  rfl

/-- The addresses of a client that is not yet bound are in no pair. -/
theorem Ready.unrouted (ready : Ready m listening address links) (free : m.lookupBinding client = none) :
    m.connections (normalized client, address) = none ∧
      m.connections (address, normalized client) = none := by
  have unbound : ∀ link ∈ links, normalized client ≠ link.address := by
    intro link listed same
    have bound : m.bindings (normalized link.address) = some link.client := (ready.joins link listed).bound
    rw [← same, normalized_normalized] at bound
    cases bound.symm.trans free
  have other : normalized client ≠ address := by
    intro same
    have bound : m.bindings (normalized address) = some listening := ready.bound
    rw [ready.normal, ← same] at bound
    cases bound.symm.trans free
  constructor <;> rw [Option.eq_none_iff_forall_ne_some] <;> intro x found
  · obtain ⟨link, listed, pair | pair⟩ := ready.routes _ x found
    · exact unbound link listed (Prod.mk.inj pair).1
    · exact other (Prod.mk.inj pair).1
  · obtain ⟨link, listed, pair | pair⟩ := ready.routes _ x found
    · exact other (Prod.mk.inj pair).2
    · exact unbound link listed (Prod.mk.inj pair).2

/-- A client that waits is accepted: a socket at the listening address is on the way to it. -/
theorem accept_waiting {time : Nat} {remote : SocketAddress}
    (waits : m.sockets listening =
      { state := .connecting, localAddr := address, listenQueue := some [remote] })
    (listener_lt : listening < m.nextSocket) (found : m.lookupBinding remote = some x)
    (known : x < m.nextSocket)
    (interact : VirtualSocketServer.canInteractWith { localAddr := address } (m.sockets x) = true)
    (free : m.connections (normalized remote, normalized address) = none) :
    (m.accept heap listening time).2 =
      { m with
        sockets := Function.update
          (Function.update m.sockets m.nextSocket
            { state := .connected, localAddr := address, remoteAddr := remote })
          listening { state := .connecting, localAddr := address, listenQueue := some [] }
        nextSocket := m.nextSocket + 1
        connections := Function.update m.connections (normalized remote, normalized address)
          (some m.nextSocket)
        msgQueue := m.msgQueue.postDelayed heap time 0 (some x) msgIdConnect (.address address) } := by
  have elsewhere : listening ≠ m.nextSocket := Nat.ne_of_lt listener_lt
  have client : x ≠ m.nextSocket := Nat.ne_of_lt known
  have sockets : (m.create { localAddr := address }).2.sockets =
      Function.update m.sockets m.nextSocket { localAddr := address } := rfl
  have accepted : (m.create { localAddr := address }).2.sockets m.nextSocket =
      { localAddr := address } := by
    rw [sockets, Function.update_self]
  have asked := @initiateConnect_found heap (m.create { localAddr := address }).2 m.nextSocket remote x
    0 time (by rw [accepted]; rfl) found
    (by rw [accepted, sockets, Function.update_of_ne client]; exact interact)
  have number : (m.create { localAddr := address }).1 = m.nextSocket := rfl
  unfold VirtualSocketServer.accept
  rw [waits]
  dsimp only
  unfold VirtualSocketServer.acceptFrom
  dsimp only
  rw [waits]
  dsimp only
  rw [number, asked, accepted]
  dsimp only
  rw [if_pos rfl]
  unfold VirtualSocketServer.completeConnect VirtualSocketServer.addConnection
  simp [VirtualSocketServer.create, VirtualSocketServer.modify, elsewhere, elsewhere.symm, free, waits]
  rw [Function.update_comm elsewhere, Function.update_idem]

theorem sameFamily_comm (a b : IPAddress) :
    VirtualSocketServer.sameFamily a b = VirtualSocketServer.sameFamily b a := by
  cases a <;> cases b <;> rfl

/-- The listening socket is told, and the client is accepted. -/
theorem accept_eq (ready : Ready m listening address links) (free : m.lookupBinding client = none)
    (family : VirtualSocketServer.sameFamily client.ip.normalized address.ip.normalized = true)
    (msgQueue : MessageQueue MessageData) (time : Nat) :
    ((((asks m client msgQueue).onMessage listening msgIdConnect
      (.address (normalized client))).accept heap listening time).2) =
      accepts m address client (msgQueue.postDelayed heap time 0 (some m.nextSocket) msgIdConnect
        (.address address)) := by
  obtain ⟨unrouted, -⟩ := ready.unrouted free
  have twice := normalized_normalized client
  have before : m.nextSocket ≠ m.nextSocket + 1 := Nat.ne_of_lt (Nat.lt_succ_self _)
  have first : listening ≠ m.nextSocket := Nat.ne_of_lt ready.listener_lt
  have second : listening ≠ m.nextSocket + 1 :=
    Nat.ne_of_lt (Nat.lt_succ_of_lt ready.listener_lt)
  have connect : msgIdConnect ≠ msgIdPacket := by decide
  have listener : (asks m client msgQueue).sockets listening =
      { state := .connecting, localAddr := address, listenQueue := some [] } := by
    unfold asks
    dsimp only
    rw [Function.update_of_ne first]
    exact ready.listener
  -- The listening socket has the client in its queue.
  have told : (asks m client msgQueue).onMessage listening msgIdConnect
      (.address (normalized client)) =
        (asks m client msgQueue).modify listening fun s =>
          { s with listenQueue := some [normalized client] } := by
    unfold VirtualSocketServer.onMessage
    rw [if_neg connect, if_pos rfl]
    dsimp only
    rw [listener]
    rfl
  rw [told]
  generalize waiting : ((asks m client msgQueue).modify listening fun s =>
    { s with listenQueue := some [normalized client] }) = n
  have sockets : n.sockets = Function.update
      (Function.update m.sockets m.nextSocket { state := .connecting, localAddr := normalized client })
      listening { state := .connecting, localAddr := address, listenQueue := some [normalized client] } := by
    rw [← waiting]
    unfold VirtualSocketServer.modify
    rw [listener]
    rfl
  have number : n.nextSocket = m.nextSocket + 1 := by
    rw [← waiting]
    rfl
  have bindings : n.bindings = Function.update m.bindings (normalized client) (some m.nextSocket) := by
    rw [← waiting]
    rfl
  have connections : n.connections = m.connections := by
    rw [← waiting]
    rfl
  have found : n.lookupBinding (normalized client) = some m.nextSocket := by
    unfold VirtualSocketServer.lookupBinding
    rw [bindings, twice, Function.update_self]
  have interact : VirtualSocketServer.canInteractWith { localAddr := address }
      (n.sockets m.nextSocket) = true := by
    rw [sockets, Function.update_of_ne first.symm, Function.update_self]
    unfold VirtualSocketServer.canInteractWith
    have same : (normalized client).ip.normalized = client.ip.normalized :=
      congrArg SocketAddress.ip twice
    rw [sameFamily_comm] at family
    simp [same, family]
  have accepted := @accept_waiting heap n listening m.nextSocket address time (normalized client)
    (by rw [sockets, Function.update_self]) (by rw [number]; exact Nat.lt_succ_of_lt ready.listener_lt)
    found (by rw [number]; exact Nat.lt_succ_self _) interact
    (by rw [connections, twice, ready.normal]; exact unrouted)
  rw [accepted, sockets, number, connections, twice, ready.normal, ← waiting]
  have restored : Function.update (Function.update (Function.update (Function.update m.sockets m.nextSocket
      { state := .connecting, localAddr := normalized client }) listening
      { state := .connecting, localAddr := address, listenQueue := some [normalized client] })
      (m.nextSocket + 1) { state := .connected, localAddr := address, remoteAddr := normalized client })
      listening { state := .connecting, localAddr := address, listenQueue := some [] } =
        Function.update (Function.update m.sockets m.nextSocket
          { state := .connecting, localAddr := normalized client })
          (m.nextSocket + 1)
          { state := .connected, localAddr := address, remoteAddr := normalized client } := by
    rw [Function.update_comm second, Function.update_idem]
    refine Function.update_eq_self_iff.mpr ?_
    rw [Function.update_of_ne second, Function.update_of_ne first, ready.listener]
  rw [restored]
  rfl

/-- The client is told. -/
theorem answer_eq (ready : Ready m listening address links) (free : m.lookupBinding client = none)
    (msgQueue : MessageQueue MessageData) :
    (accepts m address client msgQueue).onMessage m.nextSocket msgIdConnect (.address address) =
      joined m address client msgQueue := by
  obtain ⟨-, unrouted⟩ := ready.unrouted free
  have twice := normalized_normalized client
  have apart : (address, normalized client) ≠ (normalized client, address) := by
    intro same
    have bound : m.bindings (normalized address) = some listening := ready.bound
    rw [ready.normal, (Prod.mk.inj same).1] at bound
    cases bound.symm.trans free
  have before : m.nextSocket ≠ m.nextSocket + 1 := Nat.ne_of_lt (Nat.lt_succ_self _)
  have connect : msgIdConnect ≠ msgIdPacket := by decide
  have socket : (accepts m address client msgQueue).sockets m.nextSocket =
      { state := .connecting, localAddr := normalized client } := by
    unfold accepts
    dsimp only
    rw [Function.update_of_ne before, Function.update_self]
  unfold VirtualSocketServer.onMessage
  rw [if_neg connect, if_pos rfl]
  dsimp only
  rw [socket]
  dsimp only
  rw [if_pos rfl]
  unfold VirtualSocketServer.completeConnect VirtualSocketServer.addConnection
  simp only [VirtualSocketServer.modify, socket, Function.update_self, ready.normal, twice]
  have free' : (accepts m address client msgQueue).connections (address, normalized client) = none := by
    unfold accepts
    dsimp only
    rw [Function.update_of_ne apart]
    exact unrouted
  rw [free']
  unfold joined accepts
  dsimp only
  rw [Function.update_comm before.symm, Function.update_idem]

theorem establish_eq (ready : Ready m listening address links) (due : h.Due)
    (free : m.lookupBinding client = none)
    (family : VirtualSocketServer.sameFamily client.ip.normalized address.ip.normalized = true)
    (counts : m.msgQueue.dmsgqNextNum + 2 < 2 ^ 32) :
    ∃ msgQueue : MessageQueue MessageData, msgQueue.Holds [] m.networkDelay ∧
      msgQueue.dmsgqNextNum = m.msgQueue.dmsgqNextNum + 2 ∧
      m.establish heap listening address client h = joined m address client msgQueue := by
  obtain ⟨heard, heard_idle, heard_number, delivered⟩ :=
    @deliver_posted heap m.msgQueue m.networkDelay h.sent h.delay h.arrived msgIdConnect
      (.address (normalized client)) (asks m client m.msgQueue) listening ready.idle (by omega)
      (by decide) due.arrives
  obtain ⟨answered, answered_idle, answered_number, told⟩ :=
    @deliver_posted heap heard m.networkDelay h.accepted 0 h.answered msgIdConnect
      (.address address) (accepts m address client heard) m.nextSocket heard_idle (by omega)
      (by decide) due.answers
  refine ⟨answered, answered_idle, by omega, ?_⟩
  unfold VirtualSocketServer.establish
  rw [request_eq ready free family]
  have delivered : (asks m client (m.msgQueue.postDelayed heap h.sent h.delay (some listening)
      msgIdConnect (.address (normalized client)))).deliver heap h.arrived =
        (asks m client heard).onMessage listening msgIdConnect (.address (normalized client)) := delivered
  have told : (accepts m address client (heard.postDelayed heap h.accepted 0 (some m.nextSocket)
      msgIdConnect (.address address))).deliver heap h.answered =
        (accepts m address client answered).onMessage m.nextSocket msgIdConnect (.address address) := told
  dsimp only
  rw [delivered, accept_eq ready free family, told, answer_eq ready free]

/-- The entries of the earlier clients and of the listening socket stay in the tables. -/
theorem ready_joined {msgQueue : MessageQueue MessageData} (ready : Ready m listening address links)
    (free : m.lookupBinding client = none) (given : (normalized client).isAny = false)
    (idle : msgQueue.Holds [] m.networkDelay) :
    Ready (joined m address client msgQueue) listening address
      (links ++ [⟨m.nextSocket, m.nextSocket + 1, normalized client⟩]) := by
  have twice := normalized_normalized client
  have before : m.nextSocket ≠ m.nextSocket + 1 := Nat.ne_of_lt (Nat.lt_succ_self _)
  have other : address ≠ normalized client := by
    intro same
    have bound : m.bindings (normalized address) = some listening := ready.bound
    rw [ready.normal, same] at bound
    cases bound.symm.trans free
  have unbound : ∀ link ∈ links, normalized link.address ≠ normalized client := by
    intro link listed same
    have bound : m.bindings (normalized link.address) = some link.client := (ready.joins link listed).bound
    rw [same] at bound
    cases bound.symm.trans free
  generalize made : joined m address client msgQueue = n
  have earlier : ∀ x, x < m.nextSocket → n.sockets x = m.sockets x := by
    intro x known
    rw [← made]
    unfold joined
    dsimp only
    rw [Function.update_of_ne (Nat.ne_of_lt (Nat.lt_succ_of_lt known)),
      Function.update_of_ne (Nat.ne_of_lt known)]
  have accepted : n.sockets (m.nextSocket + 1) =
      { state := .connected, localAddr := address, remoteAddr := normalized client } := by
    rw [← made]
    unfold joined
    dsimp only
    rw [Function.update_self]
  have asked : n.sockets m.nextSocket =
      { state := .connected, localAddr := normalized client, remoteAddr := address } := by
    rw [← made]
    unfold joined
    dsimp only
    rw [Function.update_of_ne before, Function.update_self]
  have later : ∀ x, x ≠ m.nextSocket → x ≠ m.nextSocket + 1 → n.sockets x = m.sockets x := by
    intro x first second
    rw [← made]
    unfold joined
    dsimp only
    rw [Function.update_of_ne second, Function.update_of_ne first]
  have bindings : n.bindings = Function.update m.bindings (normalized client) (some m.nextSocket) := by
    rw [← made]
    rfl
  have connections : n.connections = Function.update
      (Function.update m.connections (normalized client, address) (some (m.nextSocket + 1)))
      (address, normalized client) (some m.nextSocket) := by
    rw [← made]
    rfl
  have queue : n.msgQueue = msgQueue := by
    rw [← made]
    rfl
  have delay : n.networkDelay = m.networkDelay := by
    rw [← made]
    rfl
  have capacity : n.recvBufferCapacity = m.recvBufferCapacity := by
    rw [← made]
    rfl
  have number : n.nextSocket = m.nextSocket + 2 := by
    rw [← made]
    rfl
  have listener := earlier listening ready.listener_lt
  refine ⟨⟨?_, ?_, ?_, ?_, ?_, ?_, ?_, ?_⟩, ?_, ?_, ?_, ready.normal, ?_⟩
  · unfold VirtualSocketServer.lookupBinding
    rw [bindings, ready.normal, Function.update_of_ne other, ← ready.normal]
    exact ready.bound
  · rw [listener]
    exact ready.waiting
  · -- A listening socket has no remote address, and no client is bound to that.
    have silent := ready.silent
    unfold VirtualSocketServer.recipient VirtualSocketServer.lookupConnection at silent ⊢
    rw [listener, connections]
    rw [ready.listener, ready.normal] at silent ⊢
    have nil_client : normalized SocketAddress.nil ≠ normalized client := by
      intro same
      rw [← same] at given
      cases given
    rw [Function.update_of_ne (fun same => nil_client (Prod.mk.inj same).2),
      Function.update_of_ne (fun same => other (Prod.mk.inj same).1)]
    exact silent
  · intro link listed
    rcases List.mem_append.mp listed with listed | new
    · have joins := ready.joins link listed
      obtain ⟨client_lt, accepted_lt⟩ := ready.links_lt link listed
      refine ⟨?_, ?_, ?_, ?_, ?_, ?_, ?_, ?_, ?_⟩
      · rw [earlier _ client_lt]
        exact joins.clientState
      · rw [earlier _ client_lt]
        exact joins.clientLocal
      · rw [earlier _ client_lt]
        exact joins.clientRemote
      · rw [earlier _ accepted_lt]
        exact joins.acceptedState
      · rw [earlier _ accepted_lt]
        exact joins.acceptedLocal
      · rw [earlier _ accepted_lt]
        exact joins.acceptedRemote
      · unfold VirtualSocketServer.lookupBinding
        rw [bindings, Function.update_of_ne (unbound link listed)]
        exact joins.bound
      · unfold VirtualSocketServer.lookupConnection
        rw [connections, ready.normal, Function.update_of_ne (fun same => other (Prod.mk.inj same).2),
          Function.update_of_ne (fun same => unbound link listed (Prod.mk.inj same).1), ← ready.normal]
        exact joins.toAccepted
      · unfold VirtualSocketServer.lookupConnection
        rw [connections, ready.normal,
          Function.update_of_ne (fun same => unbound link listed (Prod.mk.inj same).2),
          Function.update_of_ne (fun same => other (Prod.mk.inj same).1), ← ready.normal]
        exact joins.toClient
    · rw [List.mem_singleton.mp new]
      refine ⟨?_, ?_, ?_, ?_, ?_, ?_, ?_, ?_, ?_⟩
      · rw [asked]
      · rw [asked]
      · rw [asked]
      · rw [accepted]
      · rw [accepted]
      · rw [accepted]
      · unfold VirtualSocketServer.lookupBinding
        rw [bindings, twice, Function.update_self]
      · unfold VirtualSocketServer.lookupConnection
        rw [connections, twice, ready.normal, Function.update_of_ne (fun same => other (Prod.mk.inj same).2),
          Function.update_self]
      · unfold VirtualSocketServer.lookupConnection
        rw [connections, twice, ready.normal, Function.update_self]
  · intro x apart
    obtain ⟨first, second⟩ := apart ⟨m.nextSocket, m.nextSocket + 1, normalized client⟩
      (List.mem_append_right _ (List.mem_singleton.mpr rfl))
    rw [later x first second]
    exact ready.others x fun link listed => apart link (List.mem_append_left _ listed)
  · intro x
    by_cases first : x = m.nextSocket
    · rw [first, asked]
      exact ⟨rfl, rfl, rfl⟩
    · by_cases second : x = m.nextSocket + 1
      · rw [second, accepted]
        exact ⟨rfl, rfl, rfl⟩
      · rw [later x first second]
        exact ready.empty x
  · rw [queue, delay]
    exact idle
  · rw [capacity]
    exact ready.word
  · rw [listener]
    exact ready.listener
  · rw [number]
    exact Nat.lt_succ_of_lt (Nat.lt_succ_of_lt ready.listener_lt)
  · intro link listed
    rw [number]
    rcases List.mem_append.mp listed with listed | new
    · obtain ⟨client_lt, accepted_lt⟩ := ready.links_lt link listed
      exact ⟨by omega, by omega⟩
    · rw [List.mem_singleton.mp new]
      exact ⟨by dsimp only; omega, by dsimp only; omega⟩
  · intro pair x found
    rw [connections] at found
    by_cases told : pair = (address, normalized client)
    · exact ⟨_, List.mem_append_right _ (List.mem_singleton.mpr rfl), .inr told⟩
    · by_cases heard : pair = (normalized client, address)
      · exact ⟨_, List.mem_append_right _ (List.mem_singleton.mpr rfl), .inl heard⟩
      · rw [Function.update_of_ne told, Function.update_of_ne heard] at found
        obtain ⟨link, listed, which⟩ := ready.routes pair x found
        exact ⟨link, List.mem_append_left _ listed, which⟩

/-- What a client that connects has to bring. -/
structure Joining (m : VirtualSocketServer) (address client : SocketAddress) (h : Handshake) : Prop where
  due : h.Due
  free : m.lookupBinding client = none
  given : (normalized client).isAny = false
  family : VirtualSocketServer.sameFamily client.ip.normalized address.ip.normalized = true
  counts : m.msgQueue.dmsgqNextNum + 2 < 2 ^ 32

instance decidableJoining (m : VirtualSocketServer) (address client : SocketAddress) (h : Handshake) :
    Decidable (Joining m address client h) :=
  decidable_of_iff (h.Due ∧ m.lookupBinding client = none ∧ (normalized client).isAny = false ∧
    VirtualSocketServer.sameFamily client.ip.normalized address.ip.normalized = true ∧
    m.msgQueue.dmsgqNextNum + 2 < 2 ^ 32)
    ⟨fun joining => ⟨joining.1, joining.2.1, joining.2.2.1, joining.2.2.2.1, joining.2.2.2.2⟩,
      fun joining => ⟨joining.due, joining.free, joining.given, joining.family, joining.counts⟩⟩

/-- One more client is connected. -/
theorem Ready.establish (ready : Ready m listening address links) (joining : Joining m address client h) :
    Ready (m.establish heap listening address client h) listening address
      (links ++ [⟨m.nextSocket, m.nextSocket + 1, normalized client⟩]) := by
  obtain ⟨msgQueue, idle, -, established⟩ :=
    establish_eq ready joining.due joining.free joining.family joining.counts
  rw [established]
  exact ready_joined ready joining.free joining.given idle

/-- A new server, and a socket that listens. -/
theorem ready_startListening {networkDelay bandwidth sendBufferCapacity recvBufferCapacity : Nat}
    (given : (normalized address).isAny = false) (word : recvBufferCapacity < 2 ^ 32) :
    Ready (VirtualSocketServer.startListening
      { networkDelay, bandwidth, sendBufferCapacity, recvBufferCapacity } address) 0
      (normalized address) [] := by
  have twice := normalized_normalized address
  generalize made : VirtualSocketServer.startListening
      { networkDelay, bandwidth, sendBufferCapacity, recvBufferCapacity } address = m
  have shape : m =
      { sockets := Function.update (fun _ => {}) 0
          { state := .connecting, localAddr := normalized address, listenQueue := some [] }
        nextSocket := 1
        bindings := Function.update (fun _ => none) (normalized address) (some 0)
        networkDelay
        bandwidth
        sendBufferCapacity
        recvBufferCapacity } := by
    rw [← made]
    unfold VirtualSocketServer.startListening
    dsimp only
    rw [bind_free (by rfl) rfl]
    unfold VirtualSocketServer.listen
    simp [VirtualSocketServer.create, VirtualSocketServer.modify, given]
  have listener : m.sockets 0 =
      { state := .connecting, localAddr := normalized address, listenQueue := some [] } := by
    rw [shape]
    dsimp only
    rw [Function.update_self]
  have elsewhere : ∀ x, x ≠ 0 → m.sockets x = {} := by
    intro x apart
    rw [shape]
    dsimp only
    rw [Function.update_of_ne apart]
  refine ⟨⟨?_, ?_, ?_, ?_, ?_, ?_, ?_, ?_⟩, listener, ?_, ?_, twice, ?_⟩
  · unfold VirtualSocketServer.lookupBinding
    rw [shape]
    dsimp only
    rw [twice, Function.update_self]
  · rw [listener]
  · rw [shape]
    rfl
  · intro link none
    exact absurd none List.not_mem_nil
  · intro x _
    by_cases first : x = 0
    · rw [first, listener]
      exact ConnState.noConfusion
    · rw [elsewhere x first]
      exact ConnState.noConfusion
  · intro x
    by_cases first : x = 0
    · rw [first, listener]
      exact ⟨rfl, rfl, rfl⟩
    · rw [elsewhere x first]
      exact ⟨rfl, rfl, rfl⟩
  · rw [shape]
    exact .new _
  · rw [shape]
    exact word
  · rw [shape]
    exact Nat.one_pos
  · intro link none
    exact absurd none List.not_mem_nil
  · intro pair x found
    rw [shape] at found
    cases found

/-! ## What comes through -/

/-- From clients connected to one listening address on, every byte comes through in order, as long as
a read that opens a window finds the sender that waits for it. -/
theorem delivers_of_clear {inputs : List Input} (connected : Connected m listening address links)
    (clear : Along (Traffic.step heap) (Traffic.Clear heap) { server := m } inputs) :
    ∀ link ∈ links,
      Delivers (runInputs (Traffic.step heap) { server := m } inputs) link.client link.accepted ∧
        Delivers (runInputs (Traffic.step heap) { server := m } inputs) link.accepted link.client := by
  intro link listed
  have steady := connected.steady.run clear
  have pair : ∀ {s r}, (s, r) ∈ link.ends → (s, r) ∈ links.flatMap Link.ends :=
    fun mem => List.mem_flatMap.mpr ⟨link, listed, mem⟩
  exact ⟨steady.delivers (pair (mem_ends.mpr (.inl ⟨rfl, rfl⟩))),
    steady.delivers (pair (mem_ends.mpr (.inr ⟨rfl, rfl⟩)))⟩

end

/-- Heaps that are kept sorted. -/
def sortedPackets : DelayHeap MessageData :=
  sortedHeaps DelayedMessage.lt DelayedMessage.weakOrder

def listeningAddress : SocketAddress := ⟨.v4 0x01020304, 80⟩

def firstClient : SocketAddress := ⟨.v4 0x05060708, 1000⟩

def secondClient : SocketAddress := ⟨.v6 0xFFFF090A0B0C, 1001⟩

def atOnce : Handshake := ⟨0, 0, 0, 0, 0⟩

/-- A server with a socket that listens. -/
def listeningServer (sendBufferCapacity recvBufferCapacity : Nat) : VirtualSocketServer :=
  VirtualSocketServer.startListening
    { networkDelay := 0, bandwidth := 0, sendBufferCapacity, recvBufferCapacity } listeningAddress

/-- One client is connected to it. -/
def oneConnected (sendBufferCapacity recvBufferCapacity : Nat) : VirtualSocketServer :=
  (listeningServer sendBufferCapacity recvBufferCapacity).establish sortedPackets 0 listeningAddress
    firstClient atOnce

def still : Nat → Tick := fun _ => ⟨0, 0⟩

def twoConnected : VirtualSocketServer :=
  (oneConnected 4 2).establish sortedPackets 0 listeningAddress secondClient atOnce

def firstLink : Link := ⟨1, 2, firstClient⟩

def secondLink : Link := ⟨3, 4, normalized secondClient⟩

/-- One client sends more than fits into the window, and the other one is sent a byte. -/
def bothWays : List Input :=
  [.send 1 [1, 2, 3] 0 still, .deliver 0, .recv 2 2 0 still, .send 4 [9] 0 still, .deliver 0,
    .recv 2 1 0 still, .deliver 0, .recv 3 1 0 still]

def exchanged : Traffic :=
  runInputs (Traffic.step sortedPackets) { server := twoConnected } bothWays

theorem delivers_bothWays :
    (Delivers exchanged 1 2 ∧ Delivers exchanged 2 1) ∧
      Delivers exchanged 3 4 ∧ Delivers exchanged 4 3 := by
  have listens : Ready (listeningServer 4 2) 0 listeningAddress [] :=
    ready_startListening (by decide) (by decide)
  have first : Joining (listeningServer 4 2) listeningAddress firstClient atOnce := by decide
  have second : Joining (oneConnected 4 2) listeningAddress secondClient atOnce := by decide
  have connected : Connected twoConnected 0 listeningAddress [firstLink, secondLink] :=
    ((listens.establish first).establish second).toConnected
  have both := @delivers_of_clear sortedPackets _ _ _ _ bothWays connected (by decide)
  exact ⟨both firstLink List.mem_cons_self,
    both secondLink (List.mem_cons_of_mem _ List.mem_cons_self)⟩

theorem connected_one :
    Connected (oneConnected 2 1) 0 listeningAddress [firstLink] := by
  have listens : Ready (listeningServer 2 1) 0 listeningAddress [] :=
    ready_startListening (by decide) (by decide)
  have joining : Joining (listeningServer 2 1) listeningAddress firstClient atOnce := by decide
  exact (listens.establish joining).toConnected

/-- A client reads all of a full window, and the accepted socket keeps what it has left. -/
theorem not_delivers_unresumed :
    ¬ ∀ (m : VirtualSocketServer) (listening : Nat) (address : SocketAddress) (links : List Link)
      (inputs : List Input), Connected m listening address links →
        ∀ link ∈ links,
          Delivers (runInputs (Traffic.step sortedPackets) { server := m } inputs) link.client
              link.accepted ∧
            Delivers (runInputs (Traffic.step sortedPackets) { server := m } inputs) link.accepted
              link.client := by
  intro always
  obtain ⟨-, delivers⟩ := always _ _ _ _ [.send 2 [1, 2] 0 still, .deliver 0, .recv 1 1 0 still]
    connected_one _ (List.mem_singleton.mpr rfl)
  have waits := delivers.waits
  revert waits
  unfold VirtualSocketServer.Waits
  decide

end Libjingle.VirtualSockets

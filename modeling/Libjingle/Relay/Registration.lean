import Libjingle.Relay.Server
import Libjingle.Std.Trace

/-!
# The connections of the relay server

A connection is to be found under its pair of addresses, and to belong to the binding
that lists it. A packet from an address that has no connection is checked against all
connections before it makes one; a SEND request is checked against those of its own
binding alone. This is where two bindings can come to share a pair.
-/

namespace Libjingle.Relay

open Libjingle.Stun Libjingle.Std

namespace RelayServer

/-- Every connection is registered, no two have one pair, and bindings and connections
know of each other. -/
structure Sound (s : RelayServer) : Prop where
  indexed : s.connections.Indexed (·.addrPair)
  owned : ∀ conn c, s.connection conn = some c → ∃ b, s.bindings c.binding = some b ∧
    (conn ∈ b.internalConnections ∨ conn ∈ b.externalConnections)
  listed : ∀ username b conn, s.bindings username = some b →
    (conn ∈ b.internalConnections ∨ conn ∈ b.externalConnections) →
    ∃ c, s.connection conn = some c ∧ c.binding = username

theorem sound_new (externalSocket : SocketAddress) : (new externalSocket).Sound :=
  ⟨.empty, nofun, nofun⟩

/-! ## What the operations do to a sound server -/

theorem bindings_modifyBinding (s : RelayServer) (username other : List UInt8)
    (f : RelayServerBinding → RelayServerBinding) :
    (s.modifyBinding username f).bindings other =
      if other = username then (s.bindings username).map f else s.bindings other :=
  Function.update_apply _ _ _ _

theorem connection_modifyConnection (s : RelayServer) (conn other : Nat)
    (f : RelayServerConnection → RelayServerConnection) :
    (s.modifyConnection conn f).connection other =
      if other = conn then (s.connection conn).map f else s.connection other :=
  Registry.objects_modify conn other f

/-- A change to a binding that lists what it listed. -/
theorem Sound.modifyBinding {s : RelayServer} (sound : s.Sound) (username : List UInt8)
    {f : RelayServerBinding → RelayServerBinding}
    (internal : ∀ b, (f b).internalConnections = b.internalConnections)
    (external : ∀ b, (f b).externalConnections = b.externalConnections) :
    (s.modifyBinding username f).Sound where
  indexed := sound.indexed
  owned conn c found := by
    obtain ⟨b, bound, lists⟩ := sound.owned conn c found
    rw [bindings_modifyBinding]
    split
    · next same =>
      refine ⟨f b, by rw [← same, bound]; rfl, ?_⟩
      rwa [internal, external]
    · exact ⟨b, bound, lists⟩
  listed other b conn bound lists := by
    rw [bindings_modifyBinding] at bound
    split at bound
    · next same =>
      obtain ⟨b, before, rfl⟩ := Option.map_eq_some_iff.mp bound
      rw [internal, external] at lists
      rw [same]
      exact sound.listed username b conn before lists
    · exact sound.listed other b conn bound lists

theorem Sound.noteUsed {s : RelayServer} (sound : s.Sound) (username : List UInt8)
    (now : UInt32) : (s.noteUsed username now).Sound :=
  sound.modifyBinding username (fun _ => rfl) fun _ => rfl

/-- A change to a connection that stays where it is. -/
theorem Sound.modifyConnection {s : RelayServer} (sound : s.Sound) (conn : Nat)
    {f : RelayServerConnection → RelayServerConnection}
    (binding : ∀ c, (f c).binding = c.binding) (addrPair : ∀ c, (f c).addrPair = c.addrPair) :
    (s.modifyConnection conn f).Sound where
  indexed := sound.indexed.modify fun c _ => addrPair c
  owned other c found := by
    rw [connection_modifyConnection] at found
    split at found
    · next same =>
      obtain ⟨c, before, rfl⟩ := Option.map_eq_some_iff.mp found
      rw [binding, same]
      exact sound.owned conn c before
    · exact sound.owned other c found
  listed username b other bound lists := by
    obtain ⟨c, found, named⟩ := sound.listed username b other bound lists
    rw [connection_modifyConnection]
    split
    · next same =>
      refine ⟨f c, ?_, (binding c).trans named⟩
      rw [← same, found]
      rfl
    · exact ⟨c, found, named⟩

theorem Sound.addBinding {s : RelayServer} (sound : s.Sound) {username : List UInt8}
    (unbound : s.bindings username = none) (lifetime now : UInt32) :
    (s.addBinding username lifetime now).Sound where
  indexed := sound.indexed
  owned conn c found := by
    obtain ⟨b, bound, lists⟩ := sound.owned conn c found
    refine ⟨b, ?_, lists⟩
    have other : c.binding ≠ username := by
      rintro rfl
      exact nomatch bound.symm.trans unbound
    exact (Function.update_of_ne other _ _).trans bound
  listed other b conn bound lists := by
    by_cases same : other = username
    · subst same
      cases (Function.update_self other _ s.bindings).symm.trans bound
      rcases lists with mem | mem <;> exact absurd mem List.not_mem_nil
    · exact sound.listed other b conn ((Function.update_of_ne same _ _).symm.trans bound) lists

theorem connection_addConnection (s : RelayServer) (conn : RelayServerConnection)
    (list : RelayServerBinding → RelayServerBinding) (now : UInt32) (other : Nat) :
    (s.addConnection conn list now).connection other =
      if other = s.connections.next then some conn else s.connection other :=
  Registry.objects_add other

theorem bindings_addConnection (s : RelayServer) (conn : RelayServerConnection)
    (list : RelayServerBinding → RelayServerBinding) (now : UInt32) (username : List UInt8) :
    (s.addConnection conn list now).bindings username =
      if username = conn.binding then
        (s.bindings conn.binding).map fun b => list { b with lastUsed := now }
      else s.bindings username := by
  simp only [addConnection, noteUsed, bindings_modifyBinding]
  split
  · simp [Option.map_map, Function.comp_def]
  · rfl

/-- A change to a binding that lists one more connection. -/
def Lists (next : Nat) (list : RelayServerBinding → RelayServerBinding) : Prop :=
  ∀ b conn, conn ∈ (list b).internalConnections ∨ conn ∈ (list b).externalConnections ↔
    conn = next ∨ (conn ∈ b.internalConnections ∨ conn ∈ b.externalConnections)

/-- A new connection of a binding, under a pair that is free. -/
theorem Sound.addConnection {s : RelayServer} (sound : s.Sound) {conn : RelayServerConnection}
    {list : RelayServerBinding → RelayServerBinding} (now : UInt32)
    (bound : ∃ b, s.bindings conn.binding = some b) (free : s.find conn.addrPair = none)
    (lists : Lists s.connections.next list) : (s.addConnection conn list now).Sound where
  indexed := sound.indexed.add free
  owned other c found := by
    rw [connection_addConnection] at found
    rw [bindings_addConnection]
    split at found
    · next new =>
      cases found
      obtain ⟨b, bound⟩ := bound
      exact ⟨_, by rw [if_pos rfl, bound]; rfl, (lists _ _).mpr (Or.inl new)⟩
    · obtain ⟨b, before, mem⟩ := sound.owned other c found
      split
      · next same =>
        refine ⟨list { b with lastUsed := now }, ?_, (lists { b with lastUsed := now } _).mpr
          (Or.inr mem)⟩
        rw [← same, before]
        rfl
      · exact ⟨b, before, mem⟩
  listed username b other after mem := by
    rw [bindings_addConnection] at after
    rw [connection_addConnection]
    have old {b : RelayServerBinding} (before : s.bindings username = some b)
        (mem : other ∈ b.internalConnections ∨ other ∈ b.externalConnections) :
        ∃ c, (if other = s.connections.next then some conn else s.connection other) = some c ∧
          c.binding = username := by
      obtain ⟨c, found, named⟩ := sound.listed username b other before mem
      refine ⟨c, ?_, named⟩
      rw [if_neg, found]
      rintro rfl
      exact nomatch found.symm.trans (sound.indexed.fresh _ (Nat.le_refl _))
    split at after
    · next same =>
      obtain ⟨b, before, rfl⟩ := Option.map_eq_some_iff.mp after
      rcases (lists _ _).mp mem with rfl | mem
      · exact ⟨conn, if_pos rfl, same.symm⟩
      · exact old (b := b) (same ▸ before) mem
    · exact old after mem

theorem Sound.addInternalConnection {s : RelayServer} (sound : s.Sound) {username : List UInt8}
    {ap : AddressPair} (bound : ∃ b, s.bindings username = some b) (free : s.find ap = none)
    (now : UInt32) : (s.addInternalConnection username ap now).Sound := by
  refine sound.addConnection now bound free fun b conn => ?_
  simp only [List.mem_append, List.mem_singleton]
  rw [or_comm (a := conn ∈ b.internalConnections), or_assoc]

theorem Sound.addExternalConnection {s : RelayServer} (sound : s.Sound) {username : List UInt8}
    {ap : AddressPair} (bound : ∃ b, s.bindings username = some b) (free : s.find ap = none)
    (locked : Bool) (now : UInt32) : (s.addExternalConnection username ap locked now).Sound := by
  refine sound.addConnection now bound free fun b conn => ?_
  simp only [List.mem_append, List.mem_singleton]
  rw [← or_assoc, or_comm]

theorem connection_destroyBinding (s : RelayServer) (username : List UInt8)
    (b : RelayServerBinding) (conn : Nat) :
    (s.destroyBinding username b).connection conn =
      if conn ∈ b.internalConnections ++ b.externalConnections then none else s.connection conn :=
  Registry.objects_removeAll _ conn

theorem bindings_destroyBinding (s : RelayServer) (username other : List UInt8)
    (b : RelayServerBinding) :
    (s.destroyBinding username b).bindings other =
      if other = username then none else s.bindings other :=
  Function.update_apply _ _ _ _

/-- The connections of a binding go with it, and no others. -/
theorem Sound.destroyBinding {s : RelayServer} (sound : s.Sound) {username : List UInt8}
    {b : RelayServerBinding} (bound : s.bindings username = some b) :
    (s.destroyBinding username b).Sound where
  indexed := sound.indexed.removeAll _
  owned conn c found := by
    rw [connection_destroyBinding] at found
    rw [bindings_destroyBinding]
    split at found
    · cases found
    · next unlisted =>
      obtain ⟨b', before, mem⟩ := sound.owned conn c found
      refine ⟨b', ?_, mem⟩
      rw [if_neg, before]
      intro same
      rw [same, bound] at before
      cases before
      exact unlisted (List.mem_append.mpr mem)
  listed other b' conn after mem := by
    rw [bindings_destroyBinding] at after
    rw [connection_destroyBinding]
    split at after
    · cases after
    · next different =>
      obtain ⟨c, found, named⟩ := sound.listed other b' conn after mem
      refine ⟨c, ?_, named⟩
      rw [if_neg, found]
      intro mem'
      obtain ⟨c', found', named'⟩ :=
        sound.listed username b conn bound (List.mem_append.mp mem')
      cases found.symm.trans found'
      exact different (named.symm.trans named')

/-! ## Packets -/

theorem Sound.forward {s : RelayServer} (sound : s.Sound) (username bytes : List UInt8)
    (extAddr : SocketAddress) (now : UInt32) : (s.forward username bytes extAddr now).1.Sound := by
  unfold RelayServer.forward
  split
  · exact sound
  · exact sound.noteUsed username now

theorem Sound.answerAllocate {s : RelayServer} (sound : s.Sound) (username : List UInt8)
    (ap : AddressPair) (request : Message) (now : UInt32) :
    (s.answerAllocate username ap request now).1.Sound := by
  unfold RelayServer.answerAllocate
  split
  · exact sound
  · exact sound.noteUsed username now

theorem Sound.handleStunAllocate {s : RelayServer} (sound : s.Sound) (bytes : List UInt8)
    {ap : AddressPair} (free : s.find ap = none) (now : UInt32) :
    (s.handleStunAllocate bytes ap now).1.Sound := by
  unfold RelayServer.handleStunAllocate
  split
  · exact sound
  · next username request _ =>
    split
    · exact sound
    · cases bound : s.bindings username with
      | some b =>
        exact (sound.addInternalConnection ⟨b, bound⟩ free now).answerAllocate _ _ _ _
      | none =>
        have added := sound.addBinding bound (requestedLifetime request) now
        have bound : ∃ b, (s.addBinding username (requestedLifetime request) now).bindings
            username = some b := ⟨_, Function.update_self ..⟩
        exact (added.addInternalConnection bound free now).answerAllocate _ _ _ _

theorem Sound.sendExternal {s : RelayServer} (sound : s.Sound) (username : List UInt8)
    (extAddr : SocketAddress) (bytes : List UInt8) (now : UInt32) :
    (s.sendExternal username extAddr bytes now).1.Sound := by
  unfold RelayServer.sendExternal
  split
  · exact sound
  · split
    · exact sound.noteUsed username now
    · exact sound

theorem Sound.lockTo {s : RelayServer} (sound : s.Sound) (conn : Nat) (c : RelayServerConnection)
    (extAddr : SocketAddress) (request : Message) (now : UInt32) :
    (s.lockTo conn c extAddr request now).1.Sound :=
  (sound.modifyConnection conn
    (f := fun c => { c with defaultDestination := extAddr, locked := true })
    (fun _ => rfl) fun _ => rfl).noteUsed _ now

/-! ## SEND requests -/

/-- The binding and the external address of the SEND request that an internal packet is. -/
def sendRequested (s : RelayServer) (ap : AddressPair) (bytes : List UInt8) :
    Option (List UInt8 × SocketAddress) :=
  match (s.find ap).bind s.connection with
  | none => none
  | some c =>
      if ¬ hasMagicCookie bytes then none
      else
        match parseStun bytes with
        | .error _ => none
        | .ok (username, request) =>
            if username = c.binding ∧ request.type = MessageType.sendRequest then
              match request.getAddress AttributeType.destinationAddress,
                  request.getByteString AttributeType.data with
              | some extAddr, some _ => some (username, extAddr)
              | _, _ => none
            else none

/-- When a SEND request makes an external connection, its pair is free. -/
def CreatesFree (s : RelayServer) (input : Input) : Prop :=
  ∀ ap bytes now username extAddr, input = .packet ap bytes now →
    ap.destination ≠ s.externalSocket → s.sendRequested ap bytes = some (username, extAddr) →
    s.getExternalConnection username extAddr = none →
    s.find ⟨extAddr, s.externalSocket⟩ = none

@[simp] theorem connections_sendExternal (s : RelayServer) (username : List UInt8)
    (extAddr : SocketAddress) (bytes : List UInt8) (now : UInt32) :
    (s.sendExternal username extAddr bytes now).1.connections = s.connections := by
  unfold sendExternal
  split
  · rfl
  · split <;> rfl

theorem Sound.ensureExternalConnection {s : RelayServer} (sound : s.Sound) {username : List UInt8}
    {extAddr : SocketAddress} (bound : ∃ b, s.bindings username = some b)
    (free : s.getExternalConnection username extAddr = none →
      s.find ⟨extAddr, s.externalSocket⟩ = none) (now : UInt32) :
    (s.ensureExternalConnection username extAddr now).Sound := by
  unfold RelayServer.ensureExternalConnection
  split
  · exact sound
  · next missing => exact sound.addExternalConnection bound (free missing) false now

/-- A new connection under a pair that is in use is not registered together with the one
that uses it. -/
theorem Sound.free_of_ensureExternalConnection {s : RelayServer} (sound : s.Sound)
    {username : List UInt8} {extAddr : SocketAddress} (now : UInt32)
    (missing : s.getExternalConnection username extAddr = none)
    (reachable : (s.ensureExternalConnection username extAddr now).connections.Reachable
      (·.addrPair)) : s.find ⟨extAddr, s.externalSocket⟩ = none := by
  rw [RelayServer.ensureExternalConnection, missing] at reachable
  cases used : s.find ⟨extAddr, s.externalSocket⟩ with
  | none => rfl
  | some conn =>
    have hidden : ¬ (s.connections.add (·.addrPair)
        ⟨username, ⟨extAddr, s.externalSocket⟩, false, .nil⟩).Reachable (·.addrPair) :=
      sound.indexed.not_reachable_add used
    exact absurd reachable hidden

/-- What a SEND request does to the connections. -/
theorem handleStunSend_cases (s : RelayServer) (conn : Nat) (c : RelayServerConnection)
    {request : Message} {extAddr : SocketAddress} {data : List UInt8}
    (addr : request.getAddress AttributeType.destinationAddress = some extAddr)
    (bytes : request.getByteString AttributeType.data = some data) (now : UInt32) :
    let sent := (s.ensureExternalConnection c.binding extAddr now).sendExternal c.binding extAddr
      data now
    s.handleStunSend conn c request now = sent ∨
      ∃ response, s.handleStunSend conn c request now =
        ((sent.1.lockTo conn c extAddr request now).1, sent.2 ++ response) := by
  unfold handleStunSend
  simp only [addr, bytes]
  split
  · exact Or.inl rfl
  · split
    · exact Or.inl rfl
    · exact Or.inr ⟨_, rfl⟩

theorem Sound.handleStunSend {s : RelayServer} (sound : s.Sound) (conn : Nat)
    {c : RelayServerConnection} (bound : ∃ b, s.bindings c.binding = some b) (request : Message)
    (free : ∀ extAddr data, request.getAddress AttributeType.destinationAddress = some extAddr →
      request.getByteString AttributeType.data = some data →
      s.getExternalConnection c.binding extAddr = none →
      s.find ⟨extAddr, s.externalSocket⟩ = none) (now : UInt32) :
    (s.handleStunSend conn c request now).1.Sound := by
  cases addr : request.getAddress AttributeType.destinationAddress with
  | none =>
    simp only [RelayServer.handleStunSend, addr]
    exact sound
  | some extAddr =>
    cases bytes : request.getByteString AttributeType.data with
    | none =>
      simp only [RelayServer.handleStunSend, addr, bytes]
      exact sound
    | some data =>
      have sent := (sound.ensureExternalConnection bound (free extAddr data addr bytes)
        now).sendExternal c.binding extAddr data now
      rcases s.handleStunSend_cases conn c addr bytes now with same | ⟨response, same⟩
      · rw [same]
        exact sent
      · rw [same]
        exact sent.lockTo conn c extAddr request now

theorem Sound.free_of_handleStunSend {s : RelayServer} (sound : s.Sound) {conn : Nat}
    {c : RelayServerConnection} {request : Message} {extAddr : SocketAddress}
    {data : List UInt8} {now : UInt32}
    (addr : request.getAddress AttributeType.destinationAddress = some extAddr)
    (bytes : request.getByteString AttributeType.data = some data)
    (missing : s.getExternalConnection c.binding extAddr = none)
    (reachable : (s.handleStunSend conn c request now).1.connections.Reachable (·.addrPair)) :
    s.find ⟨extAddr, s.externalSocket⟩ = none := by
  refine sound.free_of_ensureExternalConnection now missing ?_
  rcases s.handleStunSend_cases conn c addr bytes now with same | ⟨response, same⟩
  · rw [same, connections_sendExternal] at reachable
    exact reachable
  · rw [same] at reachable
    have locked : ((s.ensureExternalConnection c.binding extAddr now).connections.modify conn
        fun c => { c with defaultDestination := extAddr, locked := true }).Reachable
          (·.addrPair) := by
      rw [← connections_sendExternal _ c.binding extAddr data now]
      exact reachable
    exact locked.of_modify fun _ _ => rfl

/-! ## One step -/

theorem Sound.handleStun {s : RelayServer} (sound : s.Sound) {conn : Nat}
    {c : RelayServerConnection} (found : s.connection conn = some c) (bytes : List UInt8)
    (free : ∀ username request extAddr data, parseStun bytes = .ok (username, request) →
      username = c.binding → request.type = MessageType.sendRequest →
      request.getAddress AttributeType.destinationAddress = some extAddr →
      request.getByteString AttributeType.data = some data →
      s.getExternalConnection c.binding extAddr = none →
      s.find ⟨extAddr, s.externalSocket⟩ = none) (now : UInt32) :
    (s.handleStun conn c bytes now).1.Sound := by
  have bound : ∃ b, s.bindings c.binding = some b :=
    (sound.owned conn c found).imp fun _ both => both.1
  unfold RelayServer.handleStun
  split
  · exact sound
  · next username request parsed =>
    split
    · exact sound
    · next named =>
      split
      · next send =>
        exact sound.handleStunSend conn bound request
          (fun extAddr data => free username request extAddr data parsed (not_not.mp named) send)
          now
      · split
        · exact sound.answerAllocate _ _ _ _
        · exact sound

theorem sendRequested_eq {s : RelayServer} {ap : AddressPair} {conn : Nat}
    {c : RelayServerConnection} {bytes : List UInt8} {request : Message}
    {extAddr : SocketAddress} {data : List UInt8} (found : s.find ap = some conn)
    (live : s.connection conn = some c) (cookie : hasMagicCookie bytes = true)
    (parsed : parseStun bytes = .ok (c.binding, request))
    (send : request.type = MessageType.sendRequest)
    (addr : request.getAddress AttributeType.destinationAddress = some extAddr)
    (has : request.getByteString AttributeType.data = some data) :
    s.sendRequested ap bytes = some (c.binding, extAddr) := by
  simp [sendRequested, found, live, cookie, parsed, send, addr, has]

theorem sendRequested_cases {s : RelayServer} {ap : AddressPair} {bytes username : List UInt8}
    {extAddr : SocketAddress} (request : s.sendRequested ap bytes = some (username, extAddr)) :
    ∃ conn c message data, s.find ap = some conn ∧ s.connection conn = some c ∧
      username = c.binding ∧ message.getAddress AttributeType.destinationAddress = some extAddr ∧
      message.getByteString AttributeType.data = some data ∧
      ∀ now, s.onInternalPacket ap bytes now = s.handleStunSend conn c message now := by
  unfold sendRequested at request
  cases located : (s.find ap).bind s.connection with
  | none =>
    rw [located] at request
    exact nomatch request
  | some c =>
    obtain ⟨conn, found, live⟩ := Option.bind_eq_some_iff.mp located
    simp only [located] at request
    split at request
    · exact nomatch request
    · next cookie =>
      split at request
      · exact nomatch request
      · next name message parsed =>
        split at request
        · next both =>
          obtain ⟨rfl, send⟩ := both
          split at request
          · next addr data has bytes_has =>
            cases request
            refine ⟨conn, c, message, data, found, live, rfl, has, bytes_has, fun now => ?_⟩
            simp [RelayServer.onInternalPacket, found, live, not_not.mp cookie,
              RelayServer.handleStun, parsed, send]
          · exact nomatch request
        · exact nomatch request

theorem Sound.onInternalPacket {s : RelayServer} (sound : s.Sound) {ap : AddressPair}
    {bytes : List UInt8} (free : ∀ username extAddr,
      s.sendRequested ap bytes = some (username, extAddr) →
      s.getExternalConnection username extAddr = none →
      s.find ⟨extAddr, s.externalSocket⟩ = none) (now : UInt32) :
    (s.onInternalPacket ap bytes now).1.Sound := by
  unfold RelayServer.onInternalPacket
  split
  · next free => exact sound.handleStunAllocate bytes free now
  · next conn found =>
    split
    · exact sound
    · next c live =>
      split
      · next cookie =>
        refine sound.handleStun live bytes ?_ now
        rintro _ request extAddr data parsed rfl send addr has missing
        exact free _ _ (sendRequested_eq found live cookie parsed send addr has) missing
      · split
        · exact sound.sendExternal _ _ _ _
        · exact sound

theorem Sound.onExternalPacket {s : RelayServer} (sound : s.Sound) (ap : AddressPair)
    (bytes : List UInt8) (now : UInt32) : (s.onExternalPacket ap bytes now).1.Sound := by
  unfold RelayServer.onExternalPacket
  split
  · split
    · exact sound
    · exact (sound.forward _ _ _ _).modifyConnection _ (fun _ => rfl) fun _ => rfl
  · next free =>
    split
    · exact sound
    · split
      · exact sound
      · simp only
        split
        · exact sound
        · next b bound =>
          exact (sound.addExternalConnection ⟨b, bound⟩ free true now).forward _ _ _ _

theorem Sound.onDispose {s : RelayServer} (sound : s.Sound) (username : List UInt8) :
    (s.onDispose username).Sound := by
  unfold RelayServer.onDispose
  split
  · exact sound
  · next b bound =>
    split
    · exact sound.destroyBinding bound
    · exact sound

theorem Sound.next {s : RelayServer} (sound : s.Sound) {input : Input}
    (free : s.CreatesFree input) : (s.next input).Sound := by
  cases input with
  | packet ap bytes now =>
    unfold RelayServer.next step
    simp only
    split
    · exact sound.onExternalPacket ap bytes now
    · next internal =>
      exact sound.onInternalPacket (fun username extAddr request missing =>
        free ap bytes now username extAddr rfl internal request missing) now
  | timer username now =>
    refine sound.modifyBinding username (fun b => ?_) fun b => ?_
    · split <;> rfl
    · split <;> rfl
  | dispose username => exact sound.onDispose username

/-- A server whose connections are all registered after a step has made none under a pair
that was in use. -/
theorem Sound.createsFree {s : RelayServer} (sound : s.Sound) {input : Input}
    (reachable : (s.next input).connections.Reachable (·.addrPair)) : s.CreatesFree input := by
  rintro ap bytes now username extAddr rfl internal request missing
  unfold RelayServer.next step at reachable
  simp only [internal, if_false] at reachable
  obtain ⟨conn, c, message, data, -, -, rfl, addr, has, handled⟩ := sendRequested_cases request
  rw [handled] at reachable
  exact sound.free_of_handleStunSend addr has missing reachable

/-! ## What one step shows -/

/-- The server after a step has its connections registered, no two under one pair. -/
structure Registered (s : RelayServer) : Prop where
  reachable : ∀ conn c, s.connection conn = some c → s.find c.addrPair = some conn
  unique : ∀ conn c conn' c', s.connection conn = some c → s.connection conn' = some c' →
    c.addrPair = c'.addrPair → conn = conn'
  live : ∀ ap conn, s.find ap = some conn → ∃ c, s.connection conn = some c ∧ c.addrPair = ap

/-- The disposal of a binding takes the entries of its connections from the map, and no
others. -/
def DestroysItsOwn (s : RelayServer) (input : Input) : Prop :=
  ∀ username b, input = .dispose username → s.bindings username = some b → b.disposing →
    ∀ ap conn, (s.next input).find ap = some conn ↔
      s.find ap = some conn ∧ ∀ c, s.connection conn = some c → c.binding ≠ username

/-- A packet from the address of an external connection goes to no connection of another
binding. -/
def Isolates (s : RelayServer) (input : Input) : Prop :=
  ∀ ap bytes now conn c, input = .packet ap bytes now → ap.destination = s.externalSocket →
    s.connection conn = some c → c.addrPair = ap →
    ∀ sent ∈ (s.step input).2, ∀ conn' c', s.connection conn' = some c' →
      c'.addrPair = ⟨sent.destination, sent.socket⟩ → c'.binding = c.binding

/-- What is claimed of each step. -/
structure KeepsApart (s : RelayServer) (input : Input) : Prop where
  registered : (s.next input).Registered
  destroysItsOwn : s.DestroysItsOwn input
  isolates : s.Isolates input

theorem Sound.registered {s : RelayServer} (sound : s.Sound) : s.Registered where
  reachable := sound.indexed.reachable
  unique _ _ _ _ found found' same := sound.indexed.unique found found' same
  live := sound.indexed.live

theorem Sound.destroysItsOwn {s : RelayServer} (sound : s.Sound) {input : Input}
    (free : s.CreatesFree input) : s.DestroysItsOwn input := by
  rintro username b rfl bound disposing ap conn
  have after : s.next (.dispose username) = s.destroyBinding username b := by
    simp [RelayServer.next, step, RelayServer.onDispose, bound, disposing]
  have sound' := sound.next free
  rw [after] at sound' ⊢
  have mine {c : RelayServerConnection} (live : s.connection conn = some c) :
      conn ∈ b.internalConnections ++ b.externalConnections ↔ c.binding = username := by
    constructor
    · intro mem
      obtain ⟨c', live', named⟩ := sound.listed username b conn bound (List.mem_append.mp mem)
      cases live.symm.trans live'
      exact named
    · rintro rfl
      obtain ⟨b', bound', mem⟩ := sound.owned conn c live
      cases bound.symm.trans bound'
      exact List.mem_append.mpr mem
  constructor
  · intro found
    obtain ⟨c, live, pair⟩ := sound'.indexed.live ap conn found
    have live : (s.destroyBinding username b).connection conn = some c := live
    rw [connection_destroyBinding] at live
    split at live
    · exact nomatch live
    · next unlisted =>
      refine ⟨sound.indexed.index_eq_some.mpr ⟨c, live, pair⟩, fun c' live' named => ?_⟩
      exact unlisted ((mine live').mpr named)
  · rintro ⟨found, other⟩
    obtain ⟨c, live, pair⟩ := sound.indexed.live ap conn found
    refine sound'.indexed.index_eq_some.mpr ⟨c, ?_, pair⟩
    have kept := connection_destroyBinding s username b conn
    rw [if_neg fun mem => other c live ((mine live).mp mem)] at kept
    exact kept.trans live

theorem sendFrom_socket (c : RelayServerConnection) (bytes : List UInt8)
    (fromAddr : SocketAddress) :
    (⟨(c.sendFrom bytes fromAddr).destination, (c.sendFrom bytes fromAddr).socket⟩ : AddressPair) =
      c.addrPair := by
  unfold RelayServerConnection.sendFrom
  split <;> rfl

theorem mem_of_getInternalConnection {s : RelayServer} {username : List UInt8}
    {extAddr : SocketAddress} {conn : Nat}
    (found : s.getInternalConnection username extAddr = some conn) :
    ∃ b, s.bindings username = some b ∧ conn ∈ b.internalConnections := by
  unfold getInternalConnection at found
  split at found
  · exact nomatch found
  · next b bound =>
    refine ⟨b, bound, ?_⟩
    split at found
    · next locked =>
      cases found
      exact List.mem_of_find?_eq_some locked
    · exact List.mem_of_head? found

/-- What is forwarded for a binding goes to one of its internal connections. -/
theorem mem_forward {s : RelayServer} {username bytes : List UInt8} {extAddr : SocketAddress}
    {now : UInt32} {sent : Datagram} (mem : sent ∈ (s.forward username bytes extAddr now).2) :
    ∃ b conn c, s.bindings username = some b ∧ conn ∈ b.internalConnections ∧
      s.connection conn = some c ∧ sent = c.sendFrom bytes extAddr := by
  unfold forward at mem
  split at mem
  · exact absurd mem List.not_mem_nil
  · next c located =>
    obtain ⟨conn, found, live⟩ := Option.bind_eq_some_iff.mp located
    obtain ⟨b, bound, listed⟩ := mem_of_getInternalConnection found
    exact ⟨b, conn, c, bound, listed, live, List.mem_singleton.mp mem⟩

theorem Sound.isolates {s : RelayServer} (sound : s.Sound) (input : Input) : s.Isolates input := by
  rintro ap bytes now conn c rfl external live rfl sent mem conn' c' live' pair
  have found := sound.indexed.reachable conn c live
  have found : s.find c.addrPair = some conn := found
  simp only [step, external, if_true, RelayServer.onExternalPacket, found, live] at mem
  obtain ⟨b, int, intConn, bound, listed, intLive, rfl⟩ := mem_forward mem
  rw [sendFrom_socket] at pair
  have same := sound.indexed.unique live' intLive pair
  subst same
  obtain ⟨c'', live'', named⟩ := sound.listed c.binding b conn' bound (Or.inl listed)
  cases live'.symm.trans live''
  exact named

theorem keepsApart_iff {s : RelayServer} (sound : s.Sound) (input : Input) :
    s.KeepsApart input ↔ s.CreatesFree input :=
  ⟨fun apart => sound.createsFree apart.registered.reachable, fun free =>
    ⟨(sound.next free).registered, sound.destroysItsOwn free, sound.isolates input⟩⟩

/-- In a run the connections of all bindings are registered and kept apart after every
input exactly when each SEND request that makes an external connection finds its pair free. -/
theorem keepsApart_run_iff (externalSocket : SocketAddress) (inputs : List Input) :
    Along RelayServer.next KeepsApart (new externalSocket) inputs ↔
      Along RelayServer.next CreatesFree (new externalSocket) inputs :=
  along_congr_of_invariant (P := Sound)
    (fun _ input sound apart => sound.next ((keepsApart_iff sound input).mp apart))
    (fun _ input sound => keepsApart_iff sound input) (sound_new externalSocket) inputs

/-! ## Two clients and one peer -/

def sampleAddress (host : BitVec 32) : SocketAddress :=
  ⟨.v4 host, 5000⟩

def sampleId : List UInt8 := List.replicate 12 0

def sampleServer : RelayServer :=
  new ⟨.v4 1, 3479⟩

def sampleAllocate (host : BitVec 32) (username : List UInt8) : Input :=
  .packet ⟨sampleAddress host, ⟨.v4 1, 3478⟩⟩ (allocateRequest sampleId username).write 0

/-- Data for one peer. -/
def sampleSend (host : BitVec 32) (username : List UInt8) : Input :=
  .packet ⟨sampleAddress host, ⟨.v4 1, 3478⟩⟩
    (sendRequest sampleId username (sampleAddress 9) false [0x21]).write 0

/-- Two clients allocate, and each has data for the same peer: the connection of the
first is not registered any more. -/
theorem shared_peer_not_kept_apart :
    ¬ Along RelayServer.next KeepsApart sampleServer
      ([sampleAllocate 2 [0x41], sampleAllocate 3 [0x42], sampleSend 2 [0x41]] ++
        [sampleSend 3 [0x42]]) := by
  intro along
  have reachable := along.last.registered.reachable 2
    ⟨[0x41], ⟨sampleAddress 9, ⟨.v4 1, 3479⟩⟩, false, .nil⟩ (by decide +kernel)
  revert reachable
  decide +kernel

end RelayServer

end Libjingle.Relay

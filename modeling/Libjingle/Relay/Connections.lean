import Libjingle.Relay.Registration

/-!
# What holds of every connection of the server

A connection changes on two occasions: a packet from the address of an external
connection locks it, and a SEND request locks the connection it comes from to an
address. A property that new connections have, and that these two keep, is one that
every connection has, and everything that the server sends is explained by connections
with the property.
-/

namespace Libjingle.Relay

open Libjingle.Stun Libjingle.Std

namespace RelayServer

/-- A SEND request that asks to lock its connection to an address. -/
def AsksLock (bytes : List UInt8) (extAddr : SocketAddress) : Prop :=
  ∃ username request options, hasMagicCookie bytes = true ∧
    parseStun bytes = .ok (username, request) ∧ request.type = MessageType.sendRequest ∧
    request.getAddress AttributeType.destinationAddress = some extAddr ∧
    request.getUInt32 AttributeType.options = some options ∧ options &&& 0x01 ≠ 0

/-- What an input has to keep of a property of connections. -/
structure Keeps (externalSocket : SocketAddress) (P : RelayServerConnection → Prop)
    (input : Input) : Prop where
  fresh : ∀ username ap, P ⟨username, ap, false, .nil⟩
  accepted : ∀ ap bytes now username, input = .packet ap bytes now →
    ap.destination = externalSocket → P ⟨username, ap, true, .nil⟩
  heard : ∀ ap bytes now c, input = .packet ap bytes now → ap.destination = externalSocket →
    c.addrPair = ap → P c → P { c with locked := true }
  lockedTo : ∀ ap bytes now extAddr c, input = .packet ap bytes now →
    ap.destination ≠ externalSocket → AsksLock bytes extAddr → c.addrPair = ap → P c →
    P { c with defaultDestination := extAddr, locked := true }

/-- The connections that a binding lists as external, or those it lists as internal. -/
def listed (b : RelayServerBinding) (external : Bool) : List Nat :=
  if external then b.externalConnections else b.internalConnections

/-- Every connection has a property; and it is listed for the side of its socket. -/
structure Guarded (externalSocket : SocketAddress) (P : RelayServerConnection → Prop)
    (s : RelayServer) : Prop where
  socket : s.externalSocket = externalSocket
  backed : s.connections.Backed (·.addrPair)
  below : ∀ username b external conn, s.bindings username = some b →
    conn ∈ listed b external → conn < s.connections.next
  side : ∀ username b external conn c, s.bindings username = some b →
    conn ∈ listed b external → s.connection conn = some c →
    (c.addrPair.destination = externalSocket ↔ external = true)
  each : ∀ conn c, s.connection conn = some c → P c

variable {externalSocket : SocketAddress} {P : RelayServerConnection → Prop} {s : RelayServer}

namespace Guarded

theorem new (externalSocket : SocketAddress) (P : RelayServerConnection → Prop) :
    Guarded externalSocket P (new externalSocket) :=
  ⟨rfl, .empty, nofun, nofun, nofun⟩

theorem mono {Q : RelayServerConnection → Prop} (guarded : s.Guarded externalSocket P)
    (implies : ∀ c, P c → Q c) : s.Guarded externalSocket Q :=
  { guarded with each := fun conn c found => implies c (guarded.each conn c found) }

/-- The connection that is found under a pair has it. -/
theorem addrPair_of_find (guarded : s.Guarded externalSocket P) {ap : AddressPair} {conn : Nat}
    {c : RelayServerConnection} (found : s.find ap = some conn)
    (live : s.connection conn = some c) : c.addrPair = ap := by
  obtain ⟨c', live', pair⟩ := guarded.backed.live ap conn found
  cases live.symm.trans live'
  exact pair

/-! ## Elementary changes -/

theorem modifyBinding (guarded : s.Guarded externalSocket P) (username : List UInt8)
    {f : RelayServerBinding → RelayServerBinding}
    (lists : ∀ b external, listed (f b) external = listed b external) :
    (s.modifyBinding username f).Guarded externalSocket P := by
  have before {other b external conn}
      (bound : (s.modifyBinding username f).bindings other = some b)
      (mem : conn ∈ listed b external) :
      ∃ b', s.bindings other = some b' ∧ conn ∈ listed b' external := by
    rw [bindings_modifyBinding] at bound
    split at bound
    · next same =>
      obtain ⟨b', before, rfl⟩ := Option.map_eq_some_iff.mp bound
      exact ⟨b', same ▸ before, lists b' external ▸ mem⟩
    · exact ⟨b, bound, mem⟩
  refine ⟨guarded.socket, guarded.backed, fun other b external conn bound mem => ?_,
    fun other b external conn c bound mem live => ?_, guarded.each⟩
  · obtain ⟨b', bound, mem⟩ := before bound mem
    exact guarded.below other b' external conn bound mem
  · obtain ⟨b', bound, mem⟩ := before bound mem
    exact guarded.side other b' external conn c bound mem live

theorem noteUsed (guarded : s.Guarded externalSocket P) (username : List UInt8) (now : UInt32) :
    (s.noteUsed username now).Guarded externalSocket P :=
  guarded.modifyBinding username fun _ _ => rfl

theorem modifyConnection (guarded : s.Guarded externalSocket P) (conn : Nat)
    {f : RelayServerConnection → RelayServerConnection}
    (addrPair : ∀ c, (f c).addrPair = c.addrPair)
    (keeps : ∀ c, s.connection conn = some c → P c → P (f c)) :
    (s.modifyConnection conn f).Guarded externalSocket P where
  socket := guarded.socket
  backed := guarded.backed.modify fun c _ => addrPair c
  below := guarded.below
  side username b external other c bound mem live := by
    rw [connection_modifyConnection] at live
    split at live
    · next same =>
      obtain ⟨c, before, rfl⟩ := Option.map_eq_some_iff.mp live
      rw [addrPair]
      exact guarded.side username b external other c bound mem (same ▸ before)
    · exact guarded.side username b external other c bound mem live
  each other c live := by
    rw [connection_modifyConnection] at live
    split at live
    · obtain ⟨c, before, rfl⟩ := Option.map_eq_some_iff.mp live
      exact keeps c before (guarded.each conn c before)
    · exact guarded.each other c live

theorem addBinding (guarded : s.Guarded externalSocket P) (username : List UInt8)
    (lifetime now : UInt32) : (s.addBinding username lifetime now).Guarded externalSocket P := by
  have before {other b external conn}
      (bound : (s.addBinding username lifetime now).bindings other = some b)
      (mem : conn ∈ listed b external) : s.bindings other = some b := by
    by_cases same : other = username
    · subst same
      cases (Function.update_self other _ s.bindings).symm.trans bound
      cases external <;> exact absurd mem List.not_mem_nil
    · exact (Function.update_of_ne same _ _).symm.trans bound
  exact ⟨guarded.socket, guarded.backed,
    fun other b external conn bound mem =>
      guarded.below other b external conn (before bound mem) mem,
    fun other b external conn c bound mem =>
      guarded.side other b external conn c (before bound mem) mem,
    guarded.each⟩

/-- A new connection, which is listed for the side of its socket. -/
theorem addConnection (guarded : s.Guarded externalSocket P) {conn : RelayServerConnection}
    {list : RelayServerBinding → RelayServerBinding} (now : UInt32) (holds : P conn)
    (lists : ∀ b external other, other ∈ listed (list b) external →
      other ∈ listed b external ∨ other = s.connections.next ∧
        (conn.addrPair.destination = externalSocket ↔ external = true)) :
    (s.addConnection conn list now).Guarded externalSocket P := by
  have before {username b external other}
      (bound : (s.addConnection conn list now).bindings username = some b)
      (mem : other ∈ listed b external) :
      (∃ b', s.bindings username = some b' ∧ other ∈ listed b' external) ∨
        other = s.connections.next ∧
          (conn.addrPair.destination = externalSocket ↔ external = true) := by
    rw [bindings_addConnection] at bound
    split at bound
    · next same =>
      obtain ⟨b', before, rfl⟩ := Option.map_eq_some_iff.mp bound
      rcases lists _ external other mem with mem | new
      · exact Or.inl ⟨b', same ▸ before, by cases external <;> exact mem⟩
      · exact Or.inr new
    · exact Or.inl ⟨b, bound, mem⟩
  refine ⟨guarded.socket, guarded.backed.add, fun username b external other bound mem => ?_,
    fun username b external other c bound mem live => ?_, fun other c live => ?_⟩
  · have next : (s.addConnection conn list now).connections.next = s.connections.next + 1 := rfl
    rw [next]
    rcases before bound mem with ⟨b', bound, mem⟩ | ⟨rfl, -⟩
    · exact Nat.lt_succ_of_lt (guarded.below username b' external other bound mem)
    · exact Nat.lt_succ_self _
  · rw [connection_addConnection] at live
    split at live
    · next new =>
      cases live
      rcases before bound mem with ⟨b', bound, mem⟩ | ⟨-, side⟩
      · have old := guarded.below username b' external other bound mem
        exact absurd old (new ▸ Nat.lt_irrefl _)
      · exact side
    · next old =>
      rcases before bound mem with ⟨b', bound, mem⟩ | ⟨new, -⟩
      · exact guarded.side username b' external other c bound mem live
      · exact absurd new old
  · rw [connection_addConnection] at live
    split at live
    · cases live
      exact holds
    · exact guarded.each other c live

theorem addInternalConnection (guarded : s.Guarded externalSocket P) {username : List UInt8}
    {ap : AddressPair} (inside : ap.destination ≠ externalSocket)
    (holds : P ⟨username, ap, false, .nil⟩) (now : UInt32) :
    (s.addInternalConnection username ap now).Guarded externalSocket P := by
  refine guarded.addConnection now holds fun b external other mem => ?_
  cases external with
  | true => exact Or.inl mem
  | false =>
    refine (List.mem_append.mp mem).imp_right fun new => ⟨List.mem_singleton.mp new, ?_⟩
    simp [inside]

theorem addExternalConnection (guarded : s.Guarded externalSocket P) {username : List UInt8}
    {ap : AddressPair} {locked : Bool} (outside : ap.destination = externalSocket)
    (holds : P ⟨username, ap, locked, .nil⟩) (now : UInt32) :
    (s.addExternalConnection username ap locked now).Guarded externalSocket P := by
  refine guarded.addConnection now holds fun b external other mem => ?_
  cases external with
  | false => exact Or.inl mem
  | true =>
    refine (List.mem_append.mp mem).imp_right fun new => ⟨List.mem_singleton.mp new, ?_⟩
    simp [outside]

theorem destroyBinding (guarded : s.Guarded externalSocket P) (username : List UInt8)
    (b : RelayServerBinding) : (s.destroyBinding username b).Guarded externalSocket P := by
  have remains {conn c} (live : (s.destroyBinding username b).connection conn = some c) :
      s.connection conn = some c := by
    rw [connection_destroyBinding] at live
    split at live
    · exact nomatch live
    · exact live
  have before {other b'} (bound : (s.destroyBinding username b).bindings other = some b') :
      s.bindings other = some b' := by
    rw [bindings_destroyBinding] at bound
    split at bound
    · exact nomatch bound
    · exact bound
  have next : (s.destroyBinding username b).connections.next = s.connections.next :=
    Registry.next_removeAll _
  refine ⟨guarded.socket, guarded.backed.removeAll _, fun other b' external conn bound mem => ?_,
    fun other b' external conn c bound mem live =>
      guarded.side other b' external conn c (before bound) mem (remains live),
    fun conn c live => guarded.each conn c (remains live)⟩
  rw [next]
  exact guarded.below other b' external conn (before bound) mem

end Guarded

/-! ## What the server sends -/

/-- An answer to a client, which is not a DATA indication. -/
structure IsAnswer (msg : Message) : Prop where
  cookie : hasMagicCookie msg.write = true
  type : msg.type ≠ MessageType.dataIndication

theorem isAnswer_stunError (request : Message) (errorCode : Nat) (errorDesc : String) :
    IsAnswer (stunError request errorCode errorDesc) := by
  refine ⟨hasMagicCookie_write (isValidTransactionId_cookieMessage _ _)
    (congrArg (· ++ [_]) (attrs_cookieMessage _ _)), ?_⟩
  have type : (stunError request errorCode errorDesc).type = errorResponseType request.type :=
    type_cookieMessage _ _
  rw [type, errorResponseType]
  repeat' split
  all_goals decide

theorem isAnswer_allocateResponse (request : Message) (externalSocket : SocketAddress)
    (lifetime : UInt32) : IsAnswer (allocateResponse request externalSocket lifetime) := by
  refine ⟨hasMagicCookie_write (isValidTransactionId_cookieMessage _ _)
    (congrArg (· ++ [_] ++ [_]) (attrs_cookieMessage _ _)), ?_⟩
  have type : (allocateResponse request externalSocket lifetime).type =
    MessageType.allocateResponse := type_cookieMessage _ _
  rw [type]
  decide

theorem isAnswer_sendResponse (request : Message) : IsAnswer (sendResponse request) := by
  refine ⟨hasMagicCookie_write (isValidTransactionId_cookieMessage _ _)
    (congrArg (· ++ [_]) (attrs_cookieMessage _ _)), ?_⟩
  have type : (sendResponse request).type = MessageType.sendResponse := type_cookieMessage _ _
  rw [type]
  decide

theorem isAnswer_of_parseStun {bytes : List UInt8} {response : Message}
    (parsed : parseStun bytes = .error response) : IsAnswer response := by
  unfold parseStun at parsed
  split at parsed
  · cases parsed
    exact isAnswer_stunError _ _ _
  · split at parsed
    · cases parsed
      exact isAnswer_stunError _ _ _
    · exact nomatch parsed

/-- Why the server sends a datagram when it gets an input. Outside, it sends to a locked
connection: the data of a SEND request to its address, or a packet without a wrapper of
a connection that is locked to its address. -/
inductive Sends (externalSocket : SocketAddress) (P : RelayServerConnection → Prop) :
    Input → Datagram → Prop
  | answer {ap : AddressPair} {bytes : List UInt8} {now : UInt32} {msg : Message}
      (inside : ap.destination ≠ externalSocket) (answer : IsAnswer msg) :
      Sends externalSocket P (.packet ap bytes now) (ap.send msg.write)
  | wrapped {ap : AddressPair} {bytes : List UInt8} {now : UInt32} {username data : List UInt8}
      {request : Message} {ext : RelayServerConnection}
      (inside : ap.destination ≠ externalSocket) (cookie : hasMagicCookie bytes = true)
      (parsed : parseStun bytes = .ok (username, request))
      (send : request.type = MessageType.sendRequest)
      (addr : request.getAddress AttributeType.destinationAddress = some ext.addrPair.source)
      (has : request.getByteString AttributeType.data = some data)
      (outside : ext.addrPair.destination = externalSocket) (locked : ext.locked = true)
      (holds : P ext) : Sends externalSocket P (.packet ap bytes now) (ext.addrPair.send data)
  | unwrapped {ap : AddressPair} {bytes : List UInt8} {now : UInt32}
      {int ext : RelayServerConnection}
      (inside : ap.destination ≠ externalSocket) (cookie : hasMagicCookie bytes = false)
      (pair : int.addrPair = ap) (intLocked : int.locked = true) (intHolds : P int)
      (addr : ext.addrPair.source = int.defaultDestination)
      (outside : ext.addrPair.destination = externalSocket) (locked : ext.locked = true)
      (holds : P ext) : Sends externalSocket P (.packet ap bytes now) (ext.addrPair.send bytes)
  | forwarded {ap : AddressPair} {bytes : List UInt8} {now : UInt32} {int : RelayServerConnection}
      (outside : ap.destination = externalSocket)
      (inside : int.addrPair.destination ≠ externalSocket) (holds : P int) :
      Sends externalSocket P (.packet ap bytes now) (int.sendFrom bytes ap.source)

/-- An input has been handled: the connections have the property, which explains what was
sent. -/
structure Handled (externalSocket : SocketAddress) (P : RelayServerConnection → Prop)
    (input : Input) (result : RelayServer × List Datagram) : Prop where
  guarded : result.1.Guarded externalSocket P
  sends : ∀ sent ∈ result.2, Sends externalSocket P input sent

section Handling

variable {ap : AddressPair} {bytes : List UInt8} {now : UInt32} {input : Input}

theorem Handled.silent (guarded : s.Guarded externalSocket P) :
    Handled externalSocket P input (s, []) :=
  ⟨guarded, fun _ mem => absurd mem List.not_mem_nil⟩

theorem Handled.one (guarded : s.Guarded externalSocket P) {sent : Datagram}
    (sends : Sends externalSocket P input sent) : Handled externalSocket P input (s, [sent]) := by
  refine ⟨guarded, fun other mem => ?_⟩
  rwa [List.mem_singleton.mp mem]

theorem Handled.answer (guarded : s.Guarded externalSocket P)
    (inside : ap.destination ≠ externalSocket) {msg : Message} (answer : IsAnswer msg) :
    Handled externalSocket P (.packet ap bytes now) (s, [ap.send msg.write]) :=
  .one guarded (.answer inside answer)

namespace Guarded

theorem forward (guarded : s.Guarded externalSocket P) (outside : ap.destination = externalSocket)
    (username : List UInt8) :
    Handled externalSocket P (.packet ap bytes now) (s.forward username bytes ap.source now) := by
  refine ⟨?_, fun sent mem => ?_⟩
  · unfold RelayServer.forward
    split
    · exact guarded
    · exact guarded.noteUsed username now
  · obtain ⟨b, conn, int, bound, internal, live, rfl⟩ := mem_forward mem
    have inside := guarded.side username b false conn int bound internal live
    exact .forwarded outside (fun same => absurd (inside.mp same) Bool.false_ne_true)
      (guarded.each conn int live)

theorem answerAllocate (guarded : s.Guarded externalSocket P)
    (inside : ap.destination ≠ externalSocket) (username : List UInt8) (request : Message) :
    Handled externalSocket P (.packet ap bytes now)
      (s.answerAllocate username ap request now) := by
  unfold RelayServer.answerAllocate
  split
  · exact .silent guarded
  · exact .answer (guarded.noteUsed username now) inside (isAnswer_allocateResponse _ _ _)

theorem handleStunAllocate (guarded : s.Guarded externalSocket P)
    (inside : ap.destination ≠ externalSocket)
    (fresh : ∀ username ap, P ⟨username, ap, false, .nil⟩) :
    Handled externalSocket P (.packet ap bytes now) (s.handleStunAllocate bytes ap now) := by
  unfold RelayServer.handleStunAllocate
  split
  · next response parsed => exact .answer guarded inside (isAnswer_of_parseStun parsed)
  · next username request _ =>
    split
    · exact .answer guarded inside (isAnswer_stunError _ _ _)
    · cases bound : s.bindings username with
      | some b =>
        exact (guarded.addInternalConnection inside (fresh username ap) now).answerAllocate
          inside username request
      | none =>
        have added := guarded.addBinding username (requestedLifetime request) now
        exact (added.addInternalConnection inside (fresh username ap) now).answerAllocate
          inside username request

theorem getExternalConnection {username : List UInt8} {extAddr : SocketAddress} {conn : Nat}
    {ext : RelayServerConnection} (guarded : s.Guarded externalSocket P)
    (found : s.getExternalConnection username extAddr = some conn)
    (live : s.connection conn = some ext) :
    ext.addrPair.source = extAddr ∧ ext.addrPair.destination = externalSocket := by
  unfold RelayServer.getExternalConnection at found
  split at found
  · exact nomatch found
  · next b bound =>
    have mem := List.mem_of_find?_eq_some found
    have same := List.find?_some found
    refine ⟨?_, (guarded.side username b true conn ext bound mem live).mpr rfl⟩
    simpa [live, eq_comm] using same

/-- Data for an address outside is sent to the connection for it, if that is locked. -/
theorem sendExternal (guarded : s.Guarded externalSocket P) (input : Input)
    (username : List UInt8) {extAddr : SocketAddress} (data : List UInt8)
    (sends : ∀ ext : RelayServerConnection, ext.addrPair.source = extAddr →
      ext.addrPair.destination = externalSocket → ext.locked = true → P ext →
      Sends externalSocket P input (ext.addrPair.send data)) (now : UInt32) :
    Handled externalSocket P input (s.sendExternal username extAddr data now) := by
  unfold RelayServer.sendExternal
  split
  · exact .silent guarded
  · next ext located =>
    obtain ⟨conn, found, live⟩ := Option.bind_eq_some_iff.mp located
    obtain ⟨source, outside⟩ := guarded.getExternalConnection found live
    split
    · next locked =>
      exact .one (guarded.noteUsed username now)
        (sends ext source outside locked (guarded.each conn ext live))
    · exact .silent guarded

theorem ensureExternalConnection (guarded : s.Guarded externalSocket P)
    (fresh : ∀ username ap, P ⟨username, ap, false, .nil⟩) (username : List UInt8)
    (extAddr : SocketAddress) (now : UInt32) :
    (s.ensureExternalConnection username extAddr now).Guarded externalSocket P := by
  unfold RelayServer.ensureExternalConnection
  split
  · exact guarded
  · exact guarded.addExternalConnection guarded.socket (fresh _ _) now

variable {conn : Nat} {c : RelayServerConnection}

/-- A connection for the address does not take the place of another. -/
theorem connection_ensureExternalConnection (guarded : s.Guarded externalSocket P)
    (live : s.connection conn = some c) (username : List UInt8) (extAddr : SocketAddress)
    (now : UInt32) :
    (s.ensureExternalConnection username extAddr now).connection conn = some c := by
  unfold RelayServer.ensureExternalConnection
  split
  · exact live
  · have old : conn ≠ s.connections.next := by
      rintro rfl
      exact absurd (live.symm.trans (guarded.backed.fresh _ (Nat.le_refl _))) (by simp)
    exact (if_neg old ▸ connection_addConnection s _ _ now conn).trans live

theorem lockTo (guarded : s.Guarded externalSocket P)
    (keeps : Keeps externalSocket P (.packet ap bytes now))
    (inside : ap.destination ≠ externalSocket) (live : s.connection conn = some c)
    (pair : c.addrPair = ap) {extAddr : SocketAddress} (asks : AsksLock bytes extAddr)
    (request : Message) :
    Handled externalSocket P (.packet ap bytes now) (s.lockTo conn c extAddr request now) := by
  have locked : (s.modifyConnection conn fun c =>
      { c with defaultDestination := extAddr, locked := true }).Guarded externalSocket P := by
    refine guarded.modifyConnection conn (fun _ => rfl) fun c' live' holds => ?_
    cases live.symm.trans live'
    exact keeps.lockedTo ap bytes now extAddr c rfl inside asks pair holds
  have answer : Sends externalSocket P (.packet ap bytes now)
      (c.addrPair.send (Relay.sendResponse request).write) := by
    rw [pair]
    exact .answer inside (isAnswer_sendResponse request)
  exact .one (locked.noteUsed c.binding now) answer

theorem handleStunSend (guarded : s.Guarded externalSocket P)
    (keeps : Keeps externalSocket P (.packet ap bytes now))
    (inside : ap.destination ≠ externalSocket) (live : s.connection conn = some c)
    (pair : c.addrPair = ap) {username : List UInt8} {request : Message}
    (cookie : hasMagicCookie bytes = true) (parsed : parseStun bytes = .ok (username, request))
    (send : request.type = MessageType.sendRequest) :
    Handled externalSocket P (.packet ap bytes now) (s.handleStunSend conn c request now) := by
  cases addr : request.getAddress AttributeType.destinationAddress with
  | none =>
    simp only [RelayServer.handleStunSend, addr]
    exact pair ▸ .answer guarded inside (isAnswer_stunError _ _ _)
  | some extAddr =>
    cases has : request.getByteString AttributeType.data with
    | none =>
      simp only [RelayServer.handleStunSend, addr, has]
      exact pair ▸ .answer guarded inside (isAnswer_stunError _ _ _)
    | some data =>
      have live := guarded.connection_ensureExternalConnection live c.binding extAddr now
      have sent := (guarded.ensureExternalConnection keeps.fresh c.binding extAddr
        now).sendExternal (.packet ap bytes now) c.binding data
        (fun ext source outside locked holds => .wrapped inside cookie parsed send
          (source ▸ addr) has outside locked holds) now
      have live : ((s.ensureExternalConnection c.binding extAddr now).sendExternal c.binding
          extAddr data now).1.connection conn = some c := by
        rw [connection, connections_sendExternal]
        exact live
      simp only [RelayServer.handleStunSend, addr, has]
      cases options : request.getUInt32 AttributeType.options with
      | none => exact sent
      | some options' =>
        simp only
        split
        · exact sent
        · next asked =>
          have response := sent.guarded.lockTo keeps inside live pair
            ⟨username, request, options', cookie, parsed, send, addr, options, asked⟩ request
          refine ⟨response.guarded, fun datagram mem => ?_⟩
          rcases List.mem_append.mp mem with mem | mem
          · exact sent.sends datagram mem
          · exact response.sends datagram mem

theorem handleStun (guarded : s.Guarded externalSocket P)
    (keeps : Keeps externalSocket P (.packet ap bytes now))
    (inside : ap.destination ≠ externalSocket) (live : s.connection conn = some c)
    (pair : c.addrPair = ap) (cookie : hasMagicCookie bytes = true) :
    Handled externalSocket P (.packet ap bytes now) (s.handleStun conn c bytes now) := by
  unfold RelayServer.handleStun
  split
  · next response parsed => exact pair ▸ .answer guarded inside (isAnswer_of_parseStun parsed)
  · next username request parsed =>
    split
    · exact pair ▸ .answer guarded inside (isAnswer_stunError _ _ _)
    · split
      · next send => exact guarded.handleStunSend keeps inside live pair cookie parsed send
      · split
        · exact pair ▸ guarded.answerAllocate (pair ▸ inside) c.binding request
        · exact pair ▸ .answer guarded inside (isAnswer_stunError _ _ _)

theorem onInternalPacket (guarded : s.Guarded externalSocket P)
    (keeps : Keeps externalSocket P (.packet ap bytes now))
    (inside : ap.destination ≠ externalSocket) :
    Handled externalSocket P (.packet ap bytes now) (s.onInternalPacket ap bytes now) := by
  unfold RelayServer.onInternalPacket
  split
  · exact guarded.handleStunAllocate inside keeps.fresh
  · next conn found =>
    split
    · exact .silent guarded
    · next c live =>
      have pair := guarded.addrPair_of_find found live
      split
      · next cookie => exact guarded.handleStun keeps inside live pair cookie
      · next cookie =>
        split
        · next locked =>
          refine guarded.sendExternal _ _ _ (fun ext source outside extLocked holds => ?_) now
          exact .unwrapped inside (Bool.eq_false_iff.mpr cookie) pair locked
            (guarded.each conn c live) source outside extLocked holds
        · exact .silent guarded

theorem onExternalPacket (guarded : s.Guarded externalSocket P)
    (keeps : Keeps externalSocket P (.packet ap bytes now))
    (outside : ap.destination = externalSocket) :
    Handled externalSocket P (.packet ap bytes now) (s.onExternalPacket ap bytes now) := by
  unfold RelayServer.onExternalPacket
  split
  · next conn found =>
    split
    · exact .silent guarded
    · next c live =>
      have forwarded : Handled externalSocket P (.packet ap bytes now)
          (s.forward c.binding bytes ap.source now) := guarded.forward outside c.binding
      refine ⟨forwarded.guarded.modifyConnection conn (fun _ => rfl) fun c' live' holds => ?_,
        forwarded.sends⟩
      refine keeps.heard ap bytes now c' rfl outside ?_ holds
      have same : (s.forward c.binding bytes ap.source now).1.connection conn =
          s.connection conn := by
        unfold RelayServer.forward
        split <;> rfl
      rw [same, live] at live'
      cases live'
      exact guarded.addrPair_of_find found live
  · split
    · exact .silent guarded
    · split
      · exact .silent guarded
      · next username _ =>
        simp only
        split
        · exact .silent guarded
        · have accepted := keeps.accepted ap bytes now (username.take usernameLength) rfl outside
          exact (guarded.addExternalConnection outside accepted now).forward outside _

theorem onTimer (guarded : s.Guarded externalSocket P) (username : List UInt8) (now : UInt32) :
    (s.onTimer username now).Guarded externalSocket P := by
  refine guarded.modifyBinding username fun b external => ?_
  split
  · cases external <;> rfl
  · rfl

theorem onDispose (guarded : s.Guarded externalSocket P) (username : List UInt8) :
    (s.onDispose username).Guarded externalSocket P := by
  unfold RelayServer.onDispose
  split
  · exact guarded
  · split
    · exact guarded.destroyBinding username _
    · exact guarded

/-- One step keeps a property of the connections that its input keeps. -/
theorem step (guarded : s.Guarded externalSocket P) {input : Input}
    (keeps : Keeps externalSocket P input) : Handled externalSocket P input (s.step input) := by
  cases input with
  | packet ap bytes now =>
    unfold RelayServer.step
    simp only
    split
    · next outside => exact guarded.onExternalPacket keeps (outside.trans guarded.socket)
    · next inside => exact guarded.onInternalPacket keeps (guarded.socket ▸ inside)
  | timer username now => exact .silent (guarded.onTimer username now)
  | dispose username => exact .silent (guarded.onDispose username)

end Guarded

end Handling

end RelayServer

end Libjingle.Relay

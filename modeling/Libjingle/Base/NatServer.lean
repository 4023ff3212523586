import Libjingle.Base.AddressOrder
import Libjingle.Std.ComparatorMap
import Mathlib.Algebra.Order.Ring.Nat

/-!
# The NAT server

`talk/base/natserver.cc`, with the packing of addresses of `natsocketfactory.cc`. The server finds
the external socket of a packet by a comparison of routes, and lets packets in by a comparison with
the addresses that were sent to; both comparisons leave out what the type of the NAT does not look at.
-/

namespace Libjingle.AddressText.NatServer

open Libjingle.Std

/-! ## Types of NATs -/

inductive NATType
  | openCone
  | addrRestricted
  | portRestricted
  | symmetric
  deriving DecidableEq, Repr

namespace NATType

def isSymmetric : NATType → Bool
  | .symmetric => true
  | _ => false

def filtersIP : NATType → Bool
  | .openCone => false
  | _ => true

def filtersPort : NATType → Bool
  | .openCone | .addrRestricted => false
  | _ => true

end NATType

/-- `RouteCmp`. -/
def routeLess (symmetric : Bool) (r1 r2 : SocketAddressPair) : Bool :=
  if r1.src.less r2.src then true
  else if r2.src.less r1.src then false
  else if symmetric ∧ r1.dest.less r2.dest then true
  else if symmetric ∧ r2.dest.less r1.dest then false
  else false

/-- `AddrCmp`. -/
def addrLess (useIP usePort : Bool) (a1 a2 : SocketAddress) : Bool :=
  if useIP ∧ ipLess a1.ip a2.ip then true
  else if useIP ∧ ipLess a2.ip a1.ip then false
  else if usePort ∧ a1.port.toNat < a2.port.toNat then true
  else if usePort ∧ a2.port.toNat < a1.port.toNat then false
  else false

/-! ## Packed addresses -/

/-- `AF_INET` and `AF_INET6` of the platform, which fit into a `char`. -/
structure Families where
  inet : Nat
  inet6 : Nat
  inet_lt : inet < 128
  inet6_lt : inet6 < 128
  apart : inet ≠ inet6

/-- `PackAddressForNAT`: the bytes that are counted by its result. -/
def packAddressForNAT (families : Families) (remoteAddr : SocketAddress) : List UInt8 :=
  match remoteAddr.ip with
  | .unspec => []
  | .v4 addr => 0 :: .ofNat families.inet :: BigEndian.toBytes 2 remoteAddr.port.toNat ++
      BigEndian.toBytes 4 addr.toNat
  | .v6 addr => 0 :: .ofNat families.inet6 :: BigEndian.toBytes 2 remoteAddr.port.toNat ++
      BigEndian.toBytes 16 addr.toNat

/-- `UnpackAddressFromNAT`, with the address there was before; nothing where the packet is too short
for its address. -/
def unpackAddressFromNAT (families : Families) (buf : List UInt8) (remoteAddr : SocketAddress) :
    Option (Nat × SocketAddress) :=
  match buf with
  | _ :: family :: portHigh :: portLow :: rest =>
      let port := BigEndian.ofBytes [portHigh, portLow]
      if family.toNat = families.inet then
        if rest.length < 4 then none
        else
          let ip := .v4 (.ofNat 32 (BigEndian.ofBytes (rest.take 4)))
          some (8, (SocketAddress.nil.setIP ip).setPort port)
      else if family.toNat = families.inet6 then
        if rest.length < 16 then none
        else
          let ip := .v6 (.ofNat 128 (BigEndian.ofBytes (rest.take 16)))
          some (20, (SocketAddress.nil.setIP ip).setPort port)
      else some (0, remoteAddr)
  | _ => none

/-! ## The server -/

/-- `TransEntry`; the socket is given by its local address. -/
structure TransEntry where
  route : SocketAddressPair
  socket : SocketAddress
  whitelist : ComparatorSet SocketAddress

/-- The entries lie where the two maps point at. -/
structure NATServer where
  nat : NATType
  entries : List TransEntry
  intMap : ComparatorMap SocketAddressPair Nat
  extMap : ComparatorMap SocketAddress Nat

/-- A packet that an external socket sends. -/
structure Sent where
  socket : SocketAddress
  data : List UInt8
  dest : SocketAddress
  deriving DecidableEq, Repr

/-- A packet that the server sends to an internal address. -/
structure Forwarded where
  data : List UInt8
  dest : SocketAddress
  deriving DecidableEq, Repr

namespace NATServer

def create (nat : NATType) : NATServer :=
  { nat, entries := [], intMap := [], extMap := [] }

def findRoute (s : NATServer) (route : SocketAddressPair) : Option Nat :=
  ComparatorMap.find (routeLess s.nat.isSymmetric) s.intMap route

def findSocket (s : NATServer) (socket : SocketAddress) : Option Nat :=
  ComparatorMap.find SocketAddress.less s.extMap socket

/-- `Translate`, with the socket that is created, if one is. -/
def translate (s : NATServer) (route : SocketAddressPair) (created : Option SocketAddress) : NATServer :=
  match created with
  | none => s
  | some socket =>
      { s with
        entries := s.entries ++ [{ route, socket, whitelist := [] }]
        intMap := ComparatorMap.assign (routeLess s.nat.isSymmetric) s.intMap route s.entries.length
        extMap := ComparatorMap.assign SocketAddress.less s.extMap socket s.entries.length }

/-- An address is allowed to send packets back. -/
def allow (s : NATServer) (entry : TransEntry) (dest : SocketAddress) : TransEntry :=
  { entry with
    whitelist := ComparatorSet.insert (addrLess s.nat.filtersIP s.nat.filtersPort) entry.whitelist dest }

/-- `OnInternalPacket`; nothing where the packet has no address or there is no entry. -/
def onInternalPacket (families : Families) (buf : List UInt8) (addr : SocketAddress)
    (created : Option SocketAddress) (s : NATServer) : Option (Sent × NATServer) := do
  let (length, destAddr) ← unpackAddressFromNAT families buf SocketAddress.nil
  let route : SocketAddressPair := ⟨addr, destAddr⟩
  let s := if (s.findRoute route).isNone then s.translate route created else s
  let index ← s.findRoute route
  let entry ← s.entries[index]?
  return ({ socket := entry.socket, data := buf.drop length, dest := destAddr },
    { s with entries := s.entries.set index (s.allow entry destAddr) })

/-- `Filter`. -/
def filter (s : NATServer) (entry : TransEntry) (extAddr : SocketAddress) : Bool :=
  !ComparatorSet.contains (addrLess s.nat.filtersIP s.nat.filtersPort) entry.whitelist extAddr

/-- `OnExternalPacket` of the socket with a local address; nothing where it has no entry. -/
def onExternalPacket (families : Families) (socket : SocketAddress) (buf : List UInt8)
    (remoteAddr : SocketAddress) (s : NATServer) : Option (Option Forwarded) := do
  let index ← s.findSocket socket
  let entry ← s.entries[index]?
  if s.filter entry remoteAddr then
    return none
  else
    return some { data := packAddressForNAT families remoteAddr ++ buf, dest := entry.route.src }

end NATServer

/-! ## What is compared -/

/-- Bytes by their value. -/
local instance packedByteOrder : LinearOrder UInt8 := byteOrder

def routeKey (symmetric : Bool) (route : SocketAddressPair) :=
  toLex (route.src.key, if symmetric then route.dest.key else SocketAddress.nil.key)

def addrKey (useIP usePort : Bool) (addr : SocketAddress) : (Nat ×ₗ Nat ×ₗ List UInt8) ×ₗ Nat :=
  toLex (if useIP then ipKey addr.ip else toLex (0, toLex (0, [])), if usePort then addr.port.toNat else 0)

theorem routeLess_compares (symmetric : Bool) : Compares (routeLess symmetric) (routeKey symmetric) := by
  intro a b
  have behind : a.src.key = b.src.key →
      ((if symmetric ∧ a.dest.less b.dest then True
        else if symmetric ∧ b.dest.less a.dest then False else False) ↔
      (if symmetric then a.dest.key else SocketAddress.nil.key) <
        (if symmetric then b.dest.key else SocketAddress.nil.key)) := fun _ => by
    cases symmetric <;> simp [SocketAddress.less_iff]
  have levels := chain_iff (SocketAddress.less_iff a.src b.src) (SocketAddress.less_iff b.src a.src) behind
  unfold routeLess routeKey
  refine Iff.trans ?_ levels
  split_ifs <;> simp

theorem addrLess_compares (useIP usePort : Bool) :
    Compares (addrLess useIP usePort) (addrKey useIP usePort) := by
  intro a b
  have ips (a b : SocketAddress) : (useIP = true ∧ ipLess a.ip b.ip = true) ↔
      (if useIP then ipKey a.ip else toLex (0, toLex (0, []))) <
        (if useIP then ipKey b.ip else toLex (0, toLex (0, []))) := by
    cases useIP <;> simp [ipLess_iff]
  have behind : (if useIP then ipKey a.ip else toLex (0, toLex (0, []))) =
        (if useIP then ipKey b.ip else toLex (0, toLex (0, []))) →
      ((if usePort ∧ a.port.toNat < b.port.toNat then True
        else if usePort ∧ b.port.toNat < a.port.toNat then False else False) ↔
      (if usePort then a.port.toNat else 0) < (if usePort then b.port.toNat else 0)) := fun _ => by
    cases usePort <;> simp
  have levels := chain_iff (ips a b) (ips b a) behind
  unfold addrLess addrKey
  refine Iff.trans ?_ levels
  split_ifs <;> simp

/-! ## Addresses that come back -/

/-- What is left of an address in a packet: its IP address and its port. -/
def endpoint (addr : SocketAddress) : SocketAddress :=
  ⟨[], false, addr.ip, addr.port⟩

/-- The address has an IP address. -/
def IsIP (addr : SocketAddress) : Prop :=
  addr.ip ≠ .unspec

instance decidableIsIP (addr : SocketAddress) : Decidable (IsIP addr) :=
  inferInstanceAs (Decidable (_ ≠ _))

/-- An address is read back from a packet that starts with it. -/
theorem unpack_pack (families : Families) {addr : SocketAddress} (isIP : IsIP addr)
    (payload : List UInt8) (before : SocketAddress) :
    unpackAddressFromNAT families (packAddressForNAT families addr ++ payload) before =
      some ((packAddressForNAT families addr).length, endpoint addr) := by
  have small := families.inet_lt
  have small6 := families.inet6_lt
  have port : BitVec.ofNat 16 (BigEndian.ofBytes (BigEndian.toBytes 2 addr.port.toNat)) = addr.port := by
    rw [BigEndian.ofBytes_toBytes_of_lt addr.port.isLt, BitVec.ofNat_toNat, BitVec.setWidth_eq]
  obtain ⟨high, low, two⟩ := List.length_eq_two.mp (BigEndian.length_toBytes 2 addr.port.toNat)
  rw [two] at port
  have family (n : Nat) (fits : n < 128) : (UInt8.ofNat n).toNat = n := by
    rw [UInt8.toNat_ofNat']
    omega
  cases ip : addr.ip with
  | unspec => exact absurd ip isIP
  | v4 bits =>
    have bytes : BitVec.ofNat 32 (BigEndian.ofBytes (BigEndian.toBytes 4 bits.toNat)) = bits := by
      rw [BigEndian.ofBytes_toBytes_of_lt bits.isLt, BitVec.ofNat_toNat, BitVec.setWidth_eq]
    simp only [packAddressForNAT, ip, two, List.cons_append, List.nil_append, unpackAddressFromNAT,
      family families.inet small, if_true, List.length_append, BigEndian.length_toBytes,
      List.take_left' (BigEndian.length_toBytes 4 bits.toNat), bytes]
    rw [if_neg (by omega)]
    simp [SocketAddress.setIP, SocketAddress.setPort, SocketAddress.nil, endpoint, ip, port]
  | v6 bits =>
    have bytes : BitVec.ofNat 128 (BigEndian.ofBytes (BigEndian.toBytes 16 bits.toNat)) = bits := by
      rw [BigEndian.ofBytes_toBytes_of_lt bits.isLt, BitVec.ofNat_toNat, BitVec.setWidth_eq]
    simp only [packAddressForNAT, ip, two, List.cons_append, List.nil_append, unpackAddressFromNAT,
      family families.inet6 small6, if_neg families.apart.symm, if_true, List.length_append,
      BigEndian.length_toBytes, List.take_left' (BigEndian.length_toBytes 16 bits.toNat), bytes]
    rw [if_neg (by omega)]
    simp [SocketAddress.setIP, SocketAddress.setPort, SocketAddress.nil, endpoint, ip, port]

/-! ## Runs -/

/-- An internal packet that went out, with the socket it went through. -/
structure Passage where
  socket : SocketAddress
  source : SocketAddress
  dest : SocketAddress

/-- A socket that is created has an address of its own. -/
def NATServer.Fresh (s : NATServer) (created : Option SocketAddress) : Prop :=
  ∀ socket ∈ created, ∀ e ∈ s.entries, e.socket.equal socket = false

/-- The server after packets in any order, and the internal packets among them that went out. -/
inductive Runs (families : Families) (nat : NATType) : List Passage → NATServer → Prop
  | start : Runs families nat [] (.create nat)
  | internal {passed : List Passage} {s t : NATServer} {source dest : SocketAddress}
      {payload : List UInt8} {created : Option SocketAddress} {sent : Sent} (run : Runs families nat passed s)
      (isIP : IsIP dest) (fresh : s.Fresh created)
      (made : s.onInternalPacket families (packAddressForNAT families dest ++ payload) source created =
        some (sent, t)) :
      Runs families nat (passed ++ [⟨sent.socket, source, dest⟩]) t
  | external {passed : List Passage} {s : NATServer} {socket remote : SocketAddress} {buf : List UInt8}
      {answer : Option Forwarded} (run : Runs families nat passed s)
      (made : s.onExternalPacket families socket buf remote = some answer) : Runs families nat passed s

/-- What the entries of the server are, after the packets that went out. -/
structure Keeps (nat : NATType) (passed : List Passage) (s : NATServer) : Prop where
  type : s.nat = nat
  found : ∀ (i : Nat) (e : TransEntry), s.entries[i]? = some e →
    s.findRoute e.route = some i ∧ s.findSocket e.socket = some i
  byRoute : ∀ r i, s.findRoute r = some i →
    ∃ e : TransEntry, s.entries[i]? = some e ∧ routeKey nat.isSymmetric e.route = routeKey nat.isSymmetric r
  bySocket : ∀ a i, s.findSocket a = some i →
    ∃ e : TransEntry, s.entries[i]? = some e ∧ e.socket.key = a.key
  went : ∀ p ∈ passed, ∃ (i : Nat) (e : TransEntry), s.entries[i]? = some e ∧ e.socket = p.socket ∧
    routeKey nat.isSymmetric e.route = routeKey nat.isSymmetric ⟨p.source, endpoint p.dest⟩
  allowed : ∀ (i : Nat) (e : TransEntry), s.entries[i]? = some e → ∀ a,
    ComparatorSet.contains (addrLess nat.filtersIP nat.filtersPort) e.whitelist a = true ↔
      ∃ p ∈ passed, p.socket = e.socket ∧
        addrKey nat.filtersIP nat.filtersPort (endpoint p.dest) = addrKey nat.filtersIP nat.filtersPort a

variable {families : Families} {nat : NATType} {passed : List Passage} {s t : NATServer}

/-- Nothing in the entries depends on the addresses that are allowed. -/
theorem Keeps.allow (keeps : Keeps nat passed s) {index : Nat} {entry : TransEntry}
    (here : s.entries[index]? = some entry) {source dest : SocketAddress}
    (route : routeKey nat.isSymmetric entry.route = routeKey nat.isSymmetric ⟨source, endpoint dest⟩) :
    Keeps nat (passed ++ [⟨entry.socket, source, dest⟩])
      { s with entries := s.entries.set index (s.allow entry (endpoint dest)) } := by
  have inside : index < s.entries.length := (List.getElem?_eq_some_iff.mp here).1
  -- Every entry is one of before, with the same route and socket.
  have was (i : Nat) (e : TransEntry)
      (now : (s.entries.set index (s.allow entry (endpoint dest)))[i]? = some e) :
      ∃ e', s.entries[i]? = some e' ∧ e'.route = e.route ∧ e'.socket = e.socket := by
    rw [List.getElem?_set] at now
    split at now
    · next same =>
      cases now
      exact ⟨entry, same ▸ here, rfl, rfl⟩
    · exact ⟨e, now, rfl, rfl⟩
  have stays (i : Nat) (e : TransEntry) (before : s.entries[i]? = some e) :
      ∃ e', (s.entries.set index (s.allow entry (endpoint dest)))[i]? = some e' ∧
        e'.route = e.route ∧ e'.socket = e.socket := by
    rw [List.getElem?_set]
    split
    · next same =>
      rw [← same, here] at before
      cases before
      exact ⟨_, rfl, rfl, rfl⟩
    · exact ⟨e, before, rfl, rfl⟩
  refine ⟨keeps.type, fun i e now => ?_, fun r i isFound => ?_, fun a i isFound => ?_, fun p member => ?_,
    fun i e now a => ?_⟩
  · obtain ⟨e', before, route, socket⟩ := was i e now
    rw [← route, ← socket]
    exact keeps.found i e' before
  · obtain ⟨e, before, same⟩ := keeps.byRoute r i isFound
    obtain ⟨e', now, route, -⟩ := stays i e before
    exact ⟨e', now, route ▸ same⟩
  · obtain ⟨e, before, same⟩ := keeps.bySocket a i isFound
    obtain ⟨e', now, -, socket⟩ := stays i e before
    exact ⟨e', now, socket ▸ same⟩
  · rw [List.mem_append, List.mem_singleton] at member
    obtain old | rfl := member
    · obtain ⟨i, e, before, isSocket, same⟩ := keeps.went p old
      obtain ⟨e', now, route, socket⟩ := stays i e before
      exact ⟨i, e', now, socket.trans isSocket, route ▸ same⟩
    · obtain ⟨e', now, isRoute, socket⟩ := stays index entry here
      exact ⟨index, e', now, socket, isRoute ▸ route⟩
  · simp only [List.mem_append, List.mem_singleton, or_and_right, exists_or, exists_eq_left]
    rw [List.getElem?_set] at now
    split at now
    · next same =>
      cases now
      rw [NATServer.allow, keeps.type]
      dsimp only
      rw [ComparatorSet.contains_insert (addrLess_compares _ _), keeps.allowed index entry here]
      simp
    · next other =>
      have apart : entry.socket ≠ e.socket := fun same => by
        have first := (keeps.found index entry here).2
        rw [same, (keeps.found i e now).2] at first
        exact other (Option.some.inj first).symm
      rw [keeps.allowed i e now]
      simp [apart]

/-- A new entry, for a route that had none, through a new socket. -/
theorem Keeps.translate (keeps : Keeps nat passed s) {route : SocketAddressPair} {socket : SocketAddress}
    (absent : s.findRoute route = none) (fresh : s.Fresh (some socket)) :
    Keeps nat passed (s.translate route (some socket)) ∧
      (s.translate route (some socket)).findRoute route = some s.entries.length := by
  have byRoute (r : SocketAddressPair) : (s.translate route (some socket)).findRoute r =
      if routeKey s.nat.isSymmetric route = routeKey s.nat.isSymmetric r then some s.entries.length
      else s.findRoute r :=
    ComparatorMap.find_assign (routeLess_compares _) s.intMap route r s.entries.length
  have bySocket (a : SocketAddress) : (s.translate route (some socket)).findSocket a =
      if socket.key = a.key then some s.entries.length else s.findSocket a :=
    ComparatorMap.find_assign SocketAddress.less_iff s.extMap socket a s.entries.length
  have apart (e : TransEntry) (member : e ∈ s.entries) : socket.key ≠ e.socket.key := fun same => by
    have different := fresh socket rfl e member
    rw [(SocketAddress.equal_iff _ _).mpr same.symm] at different
    cases different
  -- An entry is one of before, or the new one.
  have entries (i : Nat) (e : TransEntry) (now : (s.translate route (some socket)).entries[i]? = some e) :
      s.entries[i]? = some e ∨ i = s.entries.length ∧ e = ⟨route, socket, []⟩ := by
    change (s.entries ++ [_])[i]? = some e at now
    rw [List.getElem?_append] at now
    split at now
    · exact .inl now
    · next behind =>
      obtain ⟨inside, same⟩ := List.getElem?_eq_some_iff.mp now
      rw [List.length_singleton] at inside
      have last : i = s.entries.length := by omega
      subst last
      simp at same
      exact .inr ⟨rfl, same.symm⟩
  have old (i : Nat) (e : TransEntry) (before : s.entries[i]? = some e) :
      (s.translate route (some socket)).entries[i]? = some e := by
    change (s.entries ++ [_])[i]? = some e
    rw [List.getElem?_append_left (List.getElem?_eq_some_iff.mp before).1]
    exact before
  have new : (s.translate route (some socket)).entries[s.entries.length]? = some ⟨route, socket, []⟩ := by
    change (s.entries ++ [_])[s.entries.length]? = some _
    simp
  refine ⟨⟨keeps.type, fun i e now => ?_, fun r i isFound => ?_, fun a i isFound => ?_, fun p member => ?_,
    fun i e now a => ?_⟩, by rw [byRoute, if_pos rfl]⟩
  · obtain before | ⟨rfl, rfl⟩ := entries i e now
    · obtain ⟨isRoute, isSocket⟩ := keeps.found i e before
      have other : routeKey s.nat.isSymmetric route ≠ routeKey s.nat.isSymmetric e.route := fun same => by
        have also := ComparatorMap.find_congr (routeLess_compares s.nat.isSymmetric) s.intMap same
        change s.findRoute route = s.findRoute e.route at also
        rw [absent, isRoute] at also
        cases also
      rw [byRoute, bySocket, if_neg other, if_neg (apart e (List.mem_of_getElem? before))]
      exact ⟨isRoute, isSocket⟩
    · rw [byRoute, bySocket, if_pos rfl, if_pos rfl]
      exact ⟨rfl, rfl⟩
  · rw [byRoute, keeps.type] at isFound
    split at isFound
    · next same =>
      cases isFound
      exact ⟨_, new, same⟩
    · obtain ⟨e, before, same⟩ := keeps.byRoute r i isFound
      exact ⟨e, old i e before, same⟩
  · rw [bySocket] at isFound
    split at isFound
    · next same =>
      cases isFound
      exact ⟨_, new, same⟩
    · obtain ⟨e, before, same⟩ := keeps.bySocket a i isFound
      exact ⟨e, old i e before, same⟩
  · obtain ⟨i, e, before, isSocket, same⟩ := keeps.went p member
    exact ⟨i, e, old i e before, isSocket, same⟩
  · obtain before | ⟨-, rfl⟩ := entries i e now
    · exact keeps.allowed i e before a
    · -- Nothing has gone out through the new socket.
      refine iff_of_false (by simp [ComparatorSet.contains]) ?_
      rintro ⟨p, member, isSocket, -⟩
      obtain ⟨i, e, before, same, -⟩ := keeps.went p member
      exact apart e (List.mem_of_getElem? before) (by rw [same, isSocket])

/-- An internal packet goes out to its destination, through the socket of its route. -/
theorem Keeps.internal (keeps : Keeps nat passed s) {source dest : SocketAddress} {payload : List UInt8}
    {created : Option SocketAddress} {sent : Sent} (isIP : IsIP dest) (fresh : s.Fresh created)
    (made : s.onInternalPacket families (packAddressForNAT families dest ++ payload) source created =
      some (sent, t)) :
    Keeps nat (passed ++ [⟨sent.socket, source, dest⟩]) t ∧ sent.data = payload ∧
      sent.dest = endpoint dest := by
  rw [NATServer.onInternalPacket, unpack_pack families isIP] at made
  simp only [Option.bind_eq_bind, Option.bind_some, List.drop_left] at made
  obtain ⟨index, isFound, made⟩ := Option.bind_eq_some_iff.mp made
  obtain ⟨entry, here, made⟩ := Option.bind_eq_some_iff.mp made
  cases made
  suffices ready : Keeps nat passed
      (if (s.findRoute ⟨source, endpoint dest⟩).isNone then s.translate ⟨source, endpoint dest⟩ created
        else s) by
    obtain ⟨e, there, route⟩ := ready.byRoute _ _ isFound
    rw [here] at there
    cases there
    exact ⟨ready.allow here route, rfl, rfl⟩
  split
  · next absent =>
    cases created with
    | none => exact keeps
    | some socket => exact (keeps.translate (Option.isNone_iff_eq_none.mp absent) fresh).1
  · exact keeps

variable (families) in
/-- An internal packet is sent where a socket can be created. -/
theorem Keeps.sends (keeps : Keeps nat passed s) {dest : SocketAddress} (isIP : IsIP dest)
    {socket : SocketAddress} (fresh : s.Fresh (some socket)) (source : SocketAddress)
    (payload : List UInt8) :
    ∃ sent t, s.onInternalPacket families (packAddressForNAT families dest ++ payload) source (some socket) =
      some (sent, t) := by
  rw [NATServer.onInternalPacket, unpack_pack families isIP]
  simp only [Option.bind_eq_bind, Option.bind_some]
  obtain ⟨ready, index, isFound⟩ : Keeps nat passed
      (if (s.findRoute ⟨source, endpoint dest⟩).isNone then
        s.translate ⟨source, endpoint dest⟩ (some socket) else s) ∧
      ∃ index, (if (s.findRoute ⟨source, endpoint dest⟩).isNone then
        s.translate ⟨source, endpoint dest⟩ (some socket) else s).findRoute ⟨source, endpoint dest⟩ =
          some index := by
    split
    · next absent =>
      obtain ⟨ready, isFound⟩ := keeps.translate (Option.isNone_iff_eq_none.mp absent) fresh
      exact ⟨ready, _, isFound⟩
    · next present =>
      exact ⟨keeps, Option.isSome_iff_exists.mp (by simpa [Option.isNone_iff_eq_none,
        Option.isSome_iff_ne_none] using present)⟩
  obtain ⟨e, there, -⟩ := ready.byRoute _ _ isFound
  simp only [isFound, there, Option.bind_some]
  exact ⟨_, _, rfl⟩

theorem Runs.keeps (run : Runs families nat passed s) : Keeps nat passed s := by
  induction run with
  | start =>
    refine ⟨rfl, ?_, ?_, ?_, ?_, ?_⟩ <;> simp [NATServer.create, NATServer.findRoute, NATServer.findSocket]
  | internal run isIP fresh made ih => exact (ih.internal isIP fresh made).1
  | external run made ih => exact ih

theorem onExternalPacket_eq {socket : SocketAddress} {index : Nat} {entry : TransEntry}
    (found : s.findSocket socket = some index) (here : s.entries[index]? = some entry) (buf : List UInt8)
    (remote : SocketAddress) :
    s.onExternalPacket families socket buf remote =
      some (if s.filter entry remote then none
        else some ⟨packAddressForNAT families remote ++ buf, entry.route.src⟩) := by
  simp only [NATServer.onExternalPacket, found, here, Option.bind_eq_bind, Option.bind_some]
  split <;> rfl

/-! ## What the type of the NAT says -/

/-- The addresses are equal in what packets carry of them. -/
def SameEndpoint (a b : SocketAddress) : Prop :=
  a.ip = b.ip ∧ a.port = b.port

/-- An address that was sent to agrees with a remote one in the parts that the NAT filters on. -/
def NATType.Agrees (nat : NATType) (dest remote : SocketAddress) : Prop :=
  (nat.filtersIP = true → dest.ip = remote.ip) ∧ (nat.filtersPort = true → dest.port = remote.port)

theorem routeKey_eq_iff (symmetric : Bool) (source source' dest dest' : SocketAddress) :
    routeKey symmetric ⟨source, endpoint dest⟩ = routeKey symmetric ⟨source', endpoint dest'⟩ ↔
      source.equal source' = true ∧ (symmetric = true → SameEndpoint dest dest') := by
  have ends : (endpoint dest).key = (endpoint dest').key ↔ SameEndpoint dest dest' := by
    rw [← SocketAddress.equal_iff]
    simp [SocketAddress.equal, SocketAddress.equalIPs, endpoint, SameEndpoint]
  rw [SocketAddress.equal_iff]
  unfold routeKey
  cases symmetric <;> simp [ends]

theorem addrKey_eq_iff (nat : NATType) (dest remote : SocketAddress) :
    addrKey nat.filtersIP nat.filtersPort (endpoint dest) = addrKey nat.filtersIP nat.filtersPort remote ↔
      nat.Agrees dest remote := by
  unfold addrKey NATType.Agrees endpoint
  cases nat.filtersIP <;> cases nat.filtersPort <;> simp [ipKey_inj, BitVec.toNat_inj]

/-- Packets share an external socket as the type of the NAT says, and a packet from outside is let in
exactly if one went to an address that agrees with its own. -/
theorem translates_and_filters (run : Runs families nat passed s) :
    (∀ p ∈ passed, ∀ q ∈ passed, p.socket = q.socket ↔
      p.source.equal q.source = true ∧ (nat.isSymmetric = true → SameEndpoint p.dest q.dest)) ∧
    (∀ p ∈ passed, ∀ buf remote, ∃ source answer, source.equal p.source = true ∧
      s.onExternalPacket families p.socket buf remote = some answer ∧
      (answer.isSome ↔ ∃ q ∈ passed, q.socket = p.socket ∧ nat.Agrees q.dest remote) ∧
      ∀ forwarded ∈ answer, forwarded = ⟨packAddressForNAT families remote ++ buf, source⟩) ∧
    (∀ source dest payload socket, IsIP dest → s.Fresh (some socket) → ∃ sent t,
      s.onInternalPacket families (packAddressForNAT families dest ++ payload) source (some socket) =
        some (sent, t) ∧ sent.data = payload ∧ SameEndpoint sent.dest dest) ∧
    ∀ addr payload before, IsIP addr → ∃ back,
      unpackAddressFromNAT families (packAddressForNAT families addr ++ payload) before =
        some ((packAddressForNAT families addr).length, back) ∧
      SameEndpoint back addr ∧ (back.equal addr = true ↔ addr.ip.isAny = false ∨ addr.hostname = []) := by
  have keeps := run.keeps
  refine ⟨fun p isP q isQ => ?_, fun p isP buf remote => ?_, fun source dest payload socket isIP fresh => ?_,
    fun addr payload before isIP => ⟨_, unpack_pack families isIP payload before, ⟨rfl, rfl⟩, ?_⟩⟩
  · obtain ⟨i, e, here, isSocket, route⟩ := keeps.went p isP
    obtain ⟨j, e', there, isSocket', route'⟩ := keeps.went q isQ
    rw [← routeKey_eq_iff, ← route, ← route', ← isSocket, ← isSocket']
    have first := keeps.found i e here
    have second := keeps.found j e' there
    refine ⟨fun same => ?_, fun same => ?_⟩
    · rw [← same, first.2] at second
      have equal := Option.some.inj second.2
      subst equal
      rw [here] at there
      cases there
      rfl
    · have found := ComparatorMap.find_congr (routeLess_compares s.nat.isSymmetric) s.intMap (keeps.type ▸ same)
      change s.findRoute e.route = s.findRoute e'.route at found
      rw [first.1, second.1] at found
      have equal := Option.some.inj found
      subst equal
      rw [here] at there
      cases there
      rfl
  · obtain ⟨i, e, here, isSocket, route⟩ := keeps.went p isP
    have found := (keeps.found i e here).2
    rw [isSocket] at found
    have lets := keeps.allowed i e here remote
    simp only [addrKey_eq_iff, isSocket] at lets
    have source : e.route.src.equal p.source = true := by
      rw [SocketAddress.equal_iff]
      exact (Prod.mk.inj (congrArg ofLex route)).1
    refine ⟨e.route.src, _, source, onExternalPacket_eq found here buf remote, ?_, fun forwarded lets_in => ?_⟩
    · rw [← lets, NATServer.filter, keeps.type]
      cases ComparatorSet.contains (addrLess nat.filtersIP nat.filtersPort) e.whitelist remote <;> simp
    · split at lets_in
      · cases lets_in
      · cases lets_in
        rfl
  · obtain ⟨sent, t, made⟩ := keeps.sends families isIP fresh source payload
    obtain ⟨-, data, isDest⟩ := keeps.internal isIP fresh made
    exact ⟨sent, t, made, data, by rw [isDest]; exact ⟨rfl, rfl⟩⟩
  · cases any : addr.ip.isAny <;>
      simp [SocketAddress.equal, SocketAddress.equalIPs, endpoint, any, eq_comm]

/-- After a packet to one port, a NAT that filters ports lets in what comes from there. -/
theorem restricted_translates_and_filters :
    ∃ s, Runs ⟨2, 10, by decide, by decide, by decide⟩ .portRestricted
        [⟨⟨[], false, .v4 9, 1000⟩, ⟨[], false, .v4 1, 5⟩, ⟨[], false, .v4 7, 80⟩⟩] s ∧
      ∀ buf remote, ∃ answer,
        s.onExternalPacket ⟨2, 10, by decide, by decide, by decide⟩ ⟨[], false, .v4 9, 1000⟩ buf remote =
          some answer ∧ (answer.isSome ↔ remote.ip = .v4 7 ∧ remote.port = 80) := by
  have run : Runs ⟨2, 10, by decide, by decide, by decide⟩ .portRestricted
      [⟨⟨[], false, .v4 9, 1000⟩, ⟨[], false, .v4 1, 5⟩, ⟨[], false, .v4 7, 80⟩⟩] _ :=
    @Runs.internal _ _ [] _ _ ⟨[], false, .v4 1, 5⟩ ⟨[], false, .v4 7, 80⟩ [42]
      (some ⟨[], false, .v4 9, 1000⟩) ⟨⟨[], false, .v4 9, 1000⟩, [42], ⟨[], false, .v4 7, 80⟩⟩ .start
      (by decide) (by simp [NATServer.Fresh, NATServer.create]) rfl
  refine ⟨_, run, fun buf remote => ?_⟩
  obtain ⟨source, answer, -, answered, isSome, -⟩ :=
    (translates_and_filters run).2.1 _ (List.mem_singleton.mpr rfl) buf remote
  refine ⟨answer, answered, isSome.trans ?_⟩
  simp [NATType.Agrees, NATType.filtersIP, NATType.filtersPort, eq_comm]

/-- The host name of an address is lost in a packet, and with it the equality of unresolved
addresses. -/
theorem hostname_lost :
    ¬ ∀ (families : Families) (addr : SocketAddress) (payload : List UInt8), IsIP addr →
      ∃ length back, unpackAddressFromNAT families (packAddressForNAT families addr ++ payload)
        SocketAddress.nil = some (length, back) ∧ back.equal addr = true := by
  intro claim
  obtain ⟨length, back, unpacked, same⟩ :=
    claim ⟨2, 10, by decide, by decide, by decide⟩ ⟨[97], false, .v4 0, 80⟩ [] (by decide)
  rw [unpack_pack _ (by decide)] at unpacked
  cases unpacked
  revert same
  decide

end Libjingle.AddressText.NatServer

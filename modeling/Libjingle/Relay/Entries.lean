import Libjingle.Relay.Port
import Libjingle.Relay.Server

/-!
# The entries of a relay port

What the port does to an entry: once the entry is connected its socket and its server
stay, once it has an address that stays, and it does not unlock. One call changes one
entry, and gives it no socket but the new one.
-/

namespace Libjingle.Relay

open Libjingle.Stun

namespace RelayEntry

/-- The addresses of the socket and of the server. -/
def route (e : RelayEntry) : Option AddressPair :=
  e.connection.map fun c => ⟨c.socket, c.address⟩

/-- What becomes of an entry. -/
structure Continues (serverAddr : List SocketAddress) (env : Env) (e e' : RelayEntry) : Prop where
  connected : e.connected = true → e'.connected = true ∧ e'.route = e.route
  locked : e.locked = true → e'.locked = true
  extAddr : e.extAddr.isAny = false → e'.extAddr = e.extAddr
  route : ∀ pair, e'.route = some pair →
    e.route = some pair ∨ env.socket = some pair.source ∧ pair.destination ∈ serverAddr

variable {serverAddr : List SocketAddress} {env : Env} {e e' e'' : RelayEntry}

namespace Continues

theorem refl (e : RelayEntry) : Continues serverAddr env e e :=
  ⟨fun connected => ⟨connected, rfl⟩, id, fun _ => rfl, fun _ same => Or.inl same⟩

theorem trans (first : Continues serverAddr env e e') (second : Continues serverAddr env e' e'') :
    Continues serverAddr env e e'' where
  connected connected := by
    obtain ⟨connected, route⟩ := first.connected connected
    obtain ⟨connected, route'⟩ := second.connected connected
    exact ⟨connected, route'.trans route⟩
  locked locked := second.locked (first.locked locked)
  extAddr set := by
    have same := first.extAddr set
    rw [← same] at set
    exact (second.extAddr set).trans same
  route pair has := by
    rcases second.route pair has with has | new
    · exact first.route pair has
    · exact Or.inr new

/-- A change to the connection that leaves its addresses. -/
theorem of_same_route (route : e'.route = e.route) (connected : e'.connected = e.connected)
    (locked : e'.locked = e.locked) (extAddr : e'.extAddr = e.extAddr) :
    Continues serverAddr env e e' where
  connected was := ⟨connected.trans was, route⟩
  locked was := locked.trans was
  extAddr _ := extAddr
  route _ has := Or.inl (route.symm.trans has)

end Continues

theorem connect_continues (serverAddr : List SocketAddress) (e : RelayEntry) (env : Env) :
    Continues serverAddr env e (e.connect serverAddr env) := by
  unfold connect
  split
  · exact .refl e
  · next unconnected =>
    split
    · exact .refl e
    · next address listed =>
      split
      · exact ⟨fun connected => absurd connected unconnected, id, fun _ => rfl, nofun⟩
      · next socket created =>
        refine ⟨fun connected => absurd connected unconnected, id, fun _ => rfl,
          fun pair has => ?_⟩
        cases has
        exact Or.inr ⟨created, List.mem_of_getElem? listed⟩

theorem handleConnectFailure_continues (serverAddr : List SocketAddress) (e : RelayEntry)
    (socket : Option SocketAddress) (env : Env) :
    Continues serverAddr env e (e.handleConnectFailure socket serverAddr env) := by
  unfold handleConnectFailure
  split
  · have next : Continues serverAddr env e { e with serverIndex := e.serverIndex + 1 } :=
      .of_same_route rfl rfl rfl rfl
    exact next.trans (connect_continues serverAddr _ env)
  · exact .refl e

theorem onMessage_continues (serverAddr : List SocketAddress) (e : RelayEntry) (env : Env) :
    Continues serverAddr env e (e.onMessage serverAddr env) := by
  unfold onMessage
  split
  · exact handleConnectFailure_continues serverAddr e _ env
  · exact handleConnectFailure_continues serverAddr e none env

/-- A change to the requests of a connection. -/
theorem map_connection_continues (e : RelayEntry) {f : RelayConnection → RelayConnection}
    (socket : ∀ c, (f c).socket = c.socket) (address : ∀ c, (f c).address = c.address) :
    Continues serverAddr env e { e with connection := e.connection.map f } := by
  refine .of_same_route ?_ rfl rfl rfl
  unfold route
  cases e.connection with
  | none => rfl
  | some c => simp [socket, address]

theorem setAddress_continues (e : RelayEntry) (addr : SocketAddress) (payload : Bool) :
    Continues serverAddr env e (e.setAddress addr payload) := by
  unfold setAddress
  split
  · next both =>
    refine ⟨fun connected => ⟨connected, rfl⟩, id, fun set => ?_, fun _ same => Or.inl same⟩
    exact absurd (set.symm.trans both.1) Bool.false_ne_true
  · exact .refl e

theorem connected_continues (e : RelayEntry) :
    Continues serverAddr env e { e with connected := true } :=
  ⟨fun _ => ⟨rfl, rfl⟩, id, fun _ => rfl, fun _ same => Or.inl same⟩

theorem locked_continues (e : RelayEntry) :
    Continues serverAddr env e { e with locked := true } :=
  ⟨fun connected => ⟨connected, rfl⟩, fun _ => rfl, fun _ => rfl, fun _ same => Or.inl same⟩

end RelayEntry

namespace RelayPort

/-- An entry, which is as a new one where there is none yet. -/
def entry (s : RelayPort) (i : Nat) : RelayEntry :=
  s.entries[i]?.getD (.new .nil 0)

theorem entry_eq {s : RelayPort} {i : Nat} {e : RelayEntry} (found : s.entries[i]? = some e) :
    s.entry i = e := by
  rw [entry, found]
  rfl

/-- A call changes one entry. -/
structure Updates (env : Env) (i : Nat) (s s' : RelayPort) : Prop where
  username : s'.username = s.username
  serverAddr : s'.serverAddr = s.serverAddr
  others : ∀ j, j ≠ i → s'.entry j = s.entry j
  entry : RelayEntry.Continues s.serverAddr env (s.entry i) (s'.entry i)

variable {env : Env} {i : Nat} {s s' s'' : RelayPort}

namespace Updates

theorem refl (env : Env) (i : Nat) (s : RelayPort) : Updates env i s s :=
  ⟨rfl, rfl, fun _ _ => rfl, .refl _⟩

theorem trans (first : Updates env i s s') (second : Updates env i s' s'') :
    Updates env i s s'' where
  username := second.username.trans first.username
  serverAddr := second.serverAddr.trans first.serverAddr
  others j other := (second.others j other).trans (first.others j other)
  entry := first.entry.trans (first.serverAddr ▸ second.entry)

/-- What becomes of each entry. -/
theorem continues (updates : Updates env i s s') (j : Nat) :
    RelayEntry.Continues s.serverAddr env (s.entry j) (s'.entry j) := by
  by_cases here : j = i
  · subst here
    exact updates.entry
  · rw [updates.others j here]
    exact .refl _

/-- A change that is not one of the entries. -/
theorem of_entries (username : s'.username = s.username) (serverAddr : s'.serverAddr = s.serverAddr)
    (entries : s'.entries = s.entries) : Updates env i s s' := by
  have same (j : Nat) : s'.entry j = s.entry j := by
    rw [RelayPort.entry, RelayPort.entry, entries]
  refine ⟨username, serverAddr, fun j _ => same j, ?_⟩
  rw [same]
  exact .refl _

end Updates

theorem modifyEntry_updates (s : RelayPort) (i : Nat) {f : RelayEntry → RelayEntry}
    (continues : RelayEntry.Continues s.serverAddr env (s.entry i) (f (s.entry i))) :
    Updates env i s (s.modifyEntry i f) := by
  refine ⟨rfl, rfl, fun j other => ?_, ?_⟩
  · simp only [entry, modifyEntry, List.getElem?_modify, Ne.symm other, if_false, id_map']
  · cases found : s.entries[i]? with
    | none =>
      have same : (s.modifyEntry i f).entry i = s.entry i := by
        simp [entry, modifyEntry, found]
      rw [same]
      exact .refl _
    | some e =>
      rw [entry_eq found] at continues ⊢
      have changed : (s.modifyEntry i f).entry i = f e := by
        simp [entry, modifyEntry, found]
      rw [changed]
      exact continues

/-! ## Sending -/

theorem prepareAddress_updates (s : RelayPort) (env : Env) :
    Updates env 0 s (s.prepareAddress env) :=
  (s.modifyEntry_updates 0 (RelayEntry.connect_continues _ _ env)).trans (.of_entries rfl rfl rfl)

theorem entryFor_updates (s : RelayPort) (addr : SocketAddress) (payload : Bool) (env : Env) :
    ∃ i, Updates env i s (s.entryFor addr payload env).1 := by
  unfold entryFor
  split
  · next i _ => exact ⟨i, s.modifyEntry_updates i (RelayEntry.setAddress_continues _ addr payload)⟩
  · split
    · refine ⟨s.entries.length, rfl, rfl, fun j other => ?_, ?_⟩
      · simp only [entry]
        rcases Nat.lt_or_gt_of_ne other with before | after
        · rw [List.getElem?_append_left before]
        · rw [List.getElem?_append_right (Nat.le_of_lt after),
            List.getElem?_eq_none (by simp; omega), List.getElem?_eq_none (Nat.le_of_lt after)]
      · have missing : s.entry s.entries.length = .new .nil 0 := by simp [entry]
        generalize (s.entries.head?.map (·.serverIndex)).getD 0 = index
        have added : (s.entries ++ [(RelayEntry.new addr index).connect s.serverAddr
            env])[s.entries.length]? = some ((RelayEntry.new addr index).connect s.serverAddr
              env) := by simp
        have continues := RelayEntry.connect_continues s.serverAddr (.new addr index) env
        rw [missing, entry_eq (s := { s with entries := _ }) added]
        exact ⟨nofun, nofun, nofun, continues.route⟩
    · exact ⟨0, .refl env 0 s⟩

theorem route_of_sendPacket {e : RelayEntry} {bytes : List UInt8} {sent : Datagram}
    (mem : sent ∈ e.sendPacket bytes) :
    ∃ pair, e.route = some pair ∧ sent = ⟨pair.source, pair.destination, bytes⟩ := by
  unfold RelayEntry.sendPacket at mem
  unfold RelayEntry.route
  cases same : e.connection with
  | none =>
    rw [same] at mem
    exact absurd mem List.not_mem_nil
  | some c =>
    rw [same] at mem
    exact ⟨_, rfl, List.mem_singleton.mp mem⟩

theorem entry_of_connectedEntry {entry : Option Nat} {e : RelayEntry}
    (found : s.connectedEntry entry = some e) : ∃ i, s.entry i = e ∧ e.connected = true := by
  unfold connectedEntry at found
  split at found
  · next e' mine =>
    cases found
    obtain ⟨listed, connected⟩ := Option.filter_eq_some_iff.mp mine
    obtain ⟨i, -, listed⟩ := Option.bind_eq_some_iff.mp listed
    exact ⟨i, entry_eq listed, connected⟩
  · obtain ⟨first, connected⟩ := Option.filter_eq_some_iff.mp found
    rw [List.head?_eq_getElem?] at first
    exact ⟨0, entry_eq first, connected⟩

/-- How a connected entry sends a packet: as it is on a locked connection, and else in a
request that asks for a lock exactly if the packet is for the address of the entry. -/
inductive Carries (username : List UInt8) (payload : Payload) (e : RelayEntry)
    (pair : AddressPair) : Datagram → Prop
  | unwrapped (locked : e.locked = true) (addr : e.extAddr = payload.addr) :
      Carries username payload e pair ⟨pair.source, pair.destination, payload.bytes⟩
  | wrapped (id : TransactionId) (lock : Bool)
      (asks : lock = true → e.locked = false ∧ e.extAddr = payload.addr) :
      Carries username payload e pair ⟨pair.source, pair.destination,
        (sendRequest id.1 username payload.addr lock payload.bytes).write⟩

theorem sendTo_updates (s : RelayPort) (data : List UInt8) (addr : SocketAddress)
    (payload : Bool) (env : Env) : ∃ i, Updates env i s (s.sendTo data addr payload env).1 := by
  obtain ⟨i, updates⟩ := s.entryFor_updates addr payload env
  refine ⟨i, ?_⟩
  unfold sendTo
  simp only
  split
  · exact updates.trans (.of_entries rfl rfl rfl)
  · exact updates

theorem carries_of_sendTo (s : RelayPort) (data : List UInt8) (addr : SocketAddress)
    (payload : Bool) (env : Env) (sent : Datagram) (mem : sent ∈ (s.sendTo data addr payload env).2) :
    ∃ i pair, ((s.sendTo data addr payload env).1.entry i).connected = true ∧
      ((s.sendTo data addr payload env).1.entry i).route = some pair ∧
      Carries s.username ⟨data, addr⟩ ((s.sendTo data addr payload env).1.entry i) pair sent := by
  obtain ⟨_, updates⟩ := s.entryFor_updates addr payload env
  unfold sendTo at mem ⊢
  simp only at mem ⊢
  split at mem
  · exact absurd mem List.not_mem_nil
  · next e found =>
    obtain ⟨i, rfl, connected⟩ := entry_of_connectedEntry found
    simp only
    generalize (s.entryFor addr payload env).1 = s' at *
    unfold RelayEntry.sendTo at mem
    split at mem
    · next both =>
      obtain ⟨pair, route, rfl⟩ := route_of_sendPacket mem
      exact ⟨i, pair, connected, route, .unwrapped both.1 both.2⟩
    · next different =>
      obtain ⟨pair, route, rfl⟩ := route_of_sendPacket mem
      refine ⟨i, pair, connected, route, ?_⟩
      rw [updates.username]
      refine .wrapped env.messageId _ fun asks => ?_
      have same := of_decide_eq_true asks
      exact ⟨Bool.eq_false_iff.mpr fun locked => different ⟨locked, same⟩, same⟩

/-! ## Requests -/

theorem onStunSend_updates (s : RelayPort) (i : Nat) (id : List UInt8) (env : Env) :
    Updates env i s (s.onStunSend i id env).1 := by
  unfold onStunSend
  split
  · exact .refl env i s
  · split
    · exact .refl env i s
    · split
      · have removed : RelayEntry.Continues s.serverAddr env (s.entry i)
            ((s.entry i).removeRequest id) :=
          RelayEntry.map_connection_continues _ (fun _ => rfl) fun _ => rfl
        exact s.modifyEntry_updates i
          (removed.trans (RelayEntry.handleConnectFailure_continues _ _ _ env))
      · exact s.modifyEntry_updates i
          (RelayEntry.map_connection_continues _ (fun _ => rfl) fun _ => rfl)

theorem allocate_of_onStunSend {i : Nat} {id : List UInt8} {sent : Datagram}
    (mem : sent ∈ (s.onStunSend i id env).2) :
    ∃ pair, (s.entry i).route = some pair ∧
      sent = ⟨pair.source, pair.destination, (allocateRequest id s.username).write⟩ := by
  unfold onStunSend at mem
  split at mem
  · exact absurd mem List.not_mem_nil
  · next c connection =>
    obtain ⟨e, found, connection⟩ := Option.bind_eq_some_iff.mp connection
    split at mem
    · exact absurd mem List.not_mem_nil
    · split at mem
      · exact absurd mem List.not_mem_nil
      · refine ⟨⟨c.socket, c.address⟩, ?_, List.mem_singleton.mp mem⟩
        rw [entry_eq found, RelayEntry.route, connection]
        rfl

/-- A call changes one entry, and sends at most a request of that entry. -/
theorem step_updates (s : RelayPort) (input : Input) (env : Env) :
    ∃ i, Updates env i s (s.step input env).1 := by
  cases input with
  | prepareAddress => exact ⟨0, s.prepareAddress_updates env⟩
  | stunSend i id => exact ⟨i, s.onStunSend_updates i id env⟩
  | connectTimeout i =>
    exact ⟨i, s.modifyEntry_updates i (RelayEntry.onMessage_continues _ _ env)⟩

theorem allocate_of_step (s : RelayPort) (input : Input) (env : Env) (sent : Datagram)
    (mem : sent ∈ (s.step input env).2) :
    ∃ i pair id, (s.entry i).route = some pair ∧
      sent = ⟨pair.source, pair.destination, (allocateRequest id s.username).write⟩ := by
  cases input with
  | prepareAddress => exact absurd mem List.not_mem_nil
  | stunSend i id =>
    obtain ⟨pair, route, same⟩ := allocate_of_onStunSend mem
    exact ⟨i, pair, id, route, same⟩
  | connectTimeout i => exact absurd mem List.not_mem_nil

/-! ## Reading -/

theorem onResponse_updates (s : RelayPort) (i : Nat) (msg : Message) (env : Env) :
    Updates env i s (s.onResponse i msg env) := by
  have keepAlive (s : RelayPort) :
      Updates env i s (s.modifyEntry i fun e => e.scheduleKeepAlive env) :=
    s.modifyEntry_updates i (RelayEntry.map_connection_continues _ (fun _ => rfl) fun _ => rfl)
  unfold onResponse
  simp only
  split
  · next addr port _ =>
    have external (s : RelayPort) : Updates env i s (s.addExternalAddress ⟨.v4 addr, port⟩) := by
      unfold addExternalAddress
      split
      · exact .refl env i s
      · exact .of_entries rfl rfl rfl
    have connected : Updates env i s (s.modifyEntry i fun e => { e with connected := true }) :=
      s.modifyEntry_updates i (RelayEntry.connected_continues _)
    have connects : Updates env i s (s.onConnect i ⟨.v4 addr, port⟩) :=
      (connected.trans (external _)).trans (.of_entries rfl rfl rfl)
    exact connects.trans (keepAlive _)
  · exact keepAlive s

theorem onErrorResponse_updates (s : RelayPort) (i : Nat) (r : AllocateRequest) (env : Env) :
    Updates env i s (s.onErrorResponse i r env) := by
  unfold onErrorResponse
  split
  · exact s.modifyEntry_updates i
      (RelayEntry.map_connection_continues _ (fun _ => rfl) fun _ => rfl)
  · exact .refl env i s

theorem checkResponse_updates {c : RelayConnection} {msg : Message}
    (checked : s.checkResponse i c msg env = some s') : Updates env i s s' := by
  have delete (s : RelayPort) :
      Updates env i s (s.modifyEntry i fun e => e.removeRequest msg.transactionId) :=
    s.modifyEntry_updates i (RelayEntry.map_connection_continues _ (fun _ => rfl) fun _ => rfl)
  unfold checkResponse at checked
  simp only at checked
  split at checked
  · exact nomatch checked
  · split at checked
    · cases checked
      exact (s.onResponse_updates i msg env).trans (delete _)
    · split at checked
      · cases checked
        exact (s.onErrorResponse_updates i _ env).trans (delete _)
      · exact nomatch checked

theorem onMessageRead_updates (s : RelayPort) (i : Nat) (c : RelayConnection) (msg : Message)
    (env : Env) : Updates env i s (s.onMessageRead i c msg env).1 := by
  unfold onMessageRead
  split
  · next s' checked => exact checkResponse_updates checked
  · split
    · split
      · split
        · exact s.modifyEntry_updates i (RelayEntry.locked_continues _)
        · exact .refl env i s
      · exact .refl env i s
    · split
      · exact .refl env i s
      · split <;> exact .refl env i s

/-- What a message brings is in a DATA indication. -/
theorem dataIndication_of_onMessageRead {c : RelayConnection} {msg : Message}
    {payload : Payload} (brings : (s.onMessageRead i c msg env).2 = some payload) :
    msg.type = MessageType.dataIndication ∧
      msg.getAddress AttributeType.sourceAddress2 = some payload.addr ∧
      msg.getByteString AttributeType.data = some payload.bytes := by
  unfold onMessageRead at brings
  split at brings
  · exact nomatch brings
  · split at brings
    · split at brings
      · split at brings <;> exact nomatch brings
      · exact nomatch brings
    · split at brings
      · exact nomatch brings
      · next type =>
        split at brings
        · next addr bytes =>
          cases brings
          exact ⟨not_not.mp type, addr, bytes⟩
        · exact nomatch brings

theorem onReadPacket_updates (s : RelayPort) (socket : SocketAddress) (bytes : List UInt8)
    (env : Env) : ∃ i, Updates env i s (s.onReadPacket socket bytes env).1 := by
  unfold onReadPacket
  split
  · exact ⟨0, .refl env 0 s⟩
  · next i _ =>
    refine ⟨i, ?_⟩
    repeat' split
    all_goals first | exact .refl env i s | exact s.onMessageRead_updates i _ _ env

/-- What an entry makes of a packet: it is for the address of the entry if it has no
wrapper, and the wrapper is a DATA indication. -/
inductive Brings (bytes : List UInt8) (e : RelayEntry) : Payload → Prop
  | unwrapped (cookie : hasMagicCookie bytes = false) : Brings bytes e ⟨bytes, e.extAddr⟩
  | wrapped {msg : Message} {rest : List UInt8} {payload : Payload}
      (cookie : hasMagicCookie bytes = true) (read : Message.new.read bytes = (true, msg, rest))
      (type : msg.type = MessageType.dataIndication)
      (addr : msg.getAddress AttributeType.sourceAddress2 = some payload.addr)
      (has : msg.getByteString AttributeType.data = some payload.bytes) :
      Brings bytes e payload

theorem brings_of_onReadPacket {socket : SocketAddress} {bytes : List UInt8} {payload : Payload}
    (brings : (s.onReadPacket socket bytes env).2 = some payload) :
    ∃ i pair, (s.entry i).route = some pair ∧ pair.source = socket ∧
      Brings bytes (s.entry i) payload := by
  unfold onReadPacket at brings
  split at brings
  · cases brings
  · next i located =>
    split at brings
    · cases brings
    · next e found =>
      split at brings
      · cases brings
      · next c connection =>
        have here : c.socket = socket := by
          obtain ⟨inside, has, -⟩ := List.findIdx?_eq_some_iff_getElem.mp located
          rw [List.getElem?_eq_getElem inside] at found
          rw [Option.some.inj found, connection] at has
          exact of_decide_eq_true has
        have route : (s.entry i).route = some ⟨c.socket, c.address⟩ := by
          rw [entry_eq found, RelayEntry.route, connection]
          rfl
        refine ⟨i, _, route, here, ?_⟩
        rw [entry_eq found]
        split at brings
        · next cookie =>
          split at brings
          · cases brings
            exact .unwrapped (Bool.eq_false_iff.mpr cookie)
          · cases brings
        · next cookie =>
          split at brings
          · cases brings
          · next msg rest read =>
            obtain ⟨type, addr, has⟩ := dataIndication_of_onMessageRead brings
            exact .wrapped (not_not.mp cookie) read type addr has

end RelayPort

end Libjingle.Relay

import Libjingle.P2P.Authentication

/-!
# Packets that come in

Each packet makes of a connection only what it says: a binding request makes it readable,
the response to an outstanding ping makes it writable, and data is passed on if it is
readable already.
-/

namespace Libjingle.P2P.Endpoint

open Libjingle.Std Libjingle.Stun Connection Channel

variable {ρ : Type} {e : Endpoint ρ} {port : Port ρ} {address : SocketAddress}
  {data : List UInt8} {c : Connection ρ}

/-- The packet is for a connection of the endpoint. -/
structure For (e : Endpoint ρ) (port : Port ρ) (address : SocketAddress) (c : Connection ρ) :
    Prop where
  live : c ∈ e.channel.connections
  port : c.port.id = port.id
  address : c.remote.address = address

theorem for_getConnection (found : e.channel.getConnection port.id address = some c) :
    e.For port address c :=
  ⟨(getConnection_eq_some found).1, (getConnection_eq_some found).2.1,
    (getConnection_eq_some found).2.2⟩

/-- The connection after it has been acted on, and the others. -/
theorem mem_stepConnection {ch : Channel ρ} {id : Nat} {f : Connection ρ → Connection ρ}
    {c' : Connection ρ} (member : c' ∈ (ch.stepConnection id f).connections) :
    ∃ c ∈ ch.connections, c' = { (if c.id = id then f c else c) with signalled := false } := by
  rw [stepConnection, noticeStateChanges_connections, Channel.modify, List.map_map] at member
  obtain ⟨c, live, rfl⟩ := List.mem_map.mp member
  exact ⟨c, live, rfl⟩

/-- The response to an outstanding ping, whose request is taken away. -/
theorem driven_bindingResponse (c : Connection ρ) (request : Nat) (now : UInt32) :
    Driven False (0 < c.outstanding request) c (c.onReadPacket (.bindingResponse request) now) := by
  unfold Connection.onReadPacket
  dsimp only
  split
  · exact .refl c
  · next r found =>
    have waiting := outstanding_pos_of_findRequest found
    exact ((Driven.onConnectionRequestResponse c r now).trans
      (Calm.removeRequest _ request).driven).mono id fun _ => waiting

theorem outstanding_bindingResponse (c : Connection ρ) (request : Nat) (now : UInt32) :
    (c.onReadPacket (.bindingResponse request) now).outstanding request = 0 := by
  unfold Connection.onReadPacket
  dsimp only
  split
  · next missing =>
    rw [outstanding, List.countP_eq_zero]
    intro r member
    simpa using List.find?_eq_none.mp missing r member
  · exact outstanding_removeRequest _ request

/-- What is counted for a response. -/
def answered (c : Connection ρ) (request : Nat) : List (Nat × Nat) :=
  (c.findRequest request).toList.map fun _ => (c.id, request)

theorem count_answered_le (c : Connection ρ) (request : Nat) :
    (answered c request).count (c.id, request) ≤ c.outstanding request := by
  unfold answered
  cases found : c.findRequest request with
  | none => exact Nat.zero_le _
  | some r =>
    have waiting := outstanding_pos_of_findRequest found
    simpa using Nat.succ_le_of_lt waiting

theorem count_answered_of_ne (c : Connection ρ) (request : Nat) {pair : Nat × Nat}
    (other : pair ≠ (c.id, request)) : (answered c request).count pair = 0 := by
  rw [List.count_eq_zero]
  intro member
  obtain ⟨r, -, rfl⟩ := List.mem_map.mp member
  exact other rfl

theorem previous_of_mem {ch : Channel ρ} (valid : ch.Valid) (live : c ∈ ch.connections)
    (request : Nat) : (ch.previous c).outstanding request = c.outstanding request := by
  rw [Channel.previous, find_of_mem valid live]
  rfl

section Packets

variable [Mul ρ] [LT ρ] [DecidableLT ρ]

/-- A packet of another kind. -/
theorem calm_packet (ch : Channel ρ) (id : Nat) {packet : Packet} (now : UInt32)
    (request : packet ≠ .bindingRequest) (response : ∀ request, packet ≠ .bindingResponse request) :
    Related Calm ch (ch.step ⟨.packet id packet, now⟩) :=
  related_calm_stepConnection ch id fun c => Calm.onReadPacket c now request response

theorem sound_bindingRequest (valid : e.channel.Valid) (is : e.For port address c)
    {remoteUsername : List UInt8} {msg : Message}
    (named : stdString remoteUsername = c.remote.username)
    (names : Names data MessageType.bindingRequest (e.usernameFrag port.id ++ remoteUsername) msg)
    (now : UInt32) {e' : Endpoint ρ}
    (channel : e'.channel = e.channel.step ⟨.packet c.id .bindingRequest, now⟩)
    (payloads : e'.payloads = e.payloads) (counted : e'.counted = e.counted)
    (pinged : e'.pinged = e.pinged) :
    Sound e (.receive port address data) e' := by
  have asked : e.Asked (.receive port address data) c :=
    ⟨port, data, remoteUsername, msg, by rw [is.address], is.port.symm, named, is.port ▸ names⟩
  refine .of_reads payloads counted pinged ?_
  rw [channel]
  refine related_stepConnection e.channel c.id (fun c => .refl c) ?_ ?_
  · intro first second third read calm
    exact (read.mono (·.congr calm.identity) id).trans calm.driven
  · intro c' live same
    obtain rfl := valid.unique live is.live same
    have pinged : Driven True False c' (c'.receivedPing now) := .receivedPing c' now
    have restarted := pinged.trans (Calm.restart _).driven
    exact restarted.mono (fun _ => asked.congr restarted.identity) id

/-- A response is counted once, and its request is gone. -/
theorem Counts.bindingResponse (counts : Counts e) (valid : e.channel.Valid)
    (is : e.For port address c) (request : Nat) (now : UInt32) {e' : Endpoint ρ}
    (channel : e'.channel = e.channel.step ⟨.packet c.id (.bindingResponse request), now⟩)
    (counted : e'.counted = e.counted ++ answered c request) (pinged : e'.pinged = e.pinged) :
    Counts e' := by
  have enough : ∀ connection id, e'.counted.count (connection, id) ≤
      e.pinged.count (connection, id) := by
    intro connection id
    rw [counted, List.count_append]
    by_cases here : (connection, id) = (c.id, request)
    · obtain ⟨rfl, rfl⟩ := Prod.mk.inj here
      have before := counts.outstanding c is.live id
      have once := count_answered_le c id
      omega
    · rw [count_answered_of_ne c request here]
      exact counts.counted connection id
  refine ⟨fun connection id => by rw [pinged]; exact enough connection id,
    fun c' member id => ?_⟩
  rw [channel] at member
  obtain ⟨old, live, rfl⟩ := mem_stepConnection member
  have shown (c : Connection ρ) :
      ({ c with signalled := false } : Connection ρ).outstanding id = c.outstanding id := rfl
  rw [pinged, shown]
  dsimp only
  split
  · next here =>
    obtain rfl := valid.unique live is.live here
    rw [Connection.id_eq (onReadPacket_identity old (.bindingResponse request) now)]
    by_cases same : id = request
    · subst same
      rw [outstanding_bindingResponse, Nat.add_zero]
      exact enough old.id id
    · have before := counts.outstanding old live id
      have fewer := (driven_bindingResponse old request now).requests id
      have other : (old.id, id) ≠ (old.id, request) := by simpa using same
      rw [counted, List.count_append, count_answered_of_ne old request other]
      omega
  · next elsewhere =>
    have other : (old.id, id) ≠ (c.id, request) := fun same => elsewhere (Prod.mk.inj same).1
    rw [counted, List.count_append, count_answered_of_ne c request other]
    exact counts.outstanding old live id

theorem sound_bindingResponse (valid : e.channel.Valid) (is : e.For port address c)
    {remoteUsername : List UInt8} {msg : Message}
    (named : stdString remoteUsername = c.remote.username)
    (names : Names data MessageType.bindingResponse (remoteUsername ++ e.usernameFrag port.id) msg)
    (now : UInt32) {e' : Endpoint ρ}
    (channel : e'.channel =
      e.channel.step ⟨.packet c.id (.bindingResponse (requestId msg.transactionId)), now⟩)
    (payloads : e'.payloads = e.payloads)
    (counted : e'.counted = e.counted ++ answered c (requestId msg.transactionId))
    (pinged : e'.pinged = e.pinged) :
    Sound e (.receive port address data) e' where
  related := by
    rw [channel]
    refine related_stepConnection e.channel c.id .refl absorbs_follows fun c' live same => ?_
    obtain rfl := valid.unique live is.live same
    have driven := driven_bindingResponse c' (requestId msg.transactionId) now
    refine .of_driven driven False.elim fun waiting => ?_
    have answered : e.Answered (.receive port address data) c' :=
      ⟨port, data, remoteUsername, msg, by rw [is.address], is.port.symm, named, is.port ▸ names,
        (previous_of_mem valid live _).symm ▸ waiting⟩
    exact answered.congr driven.identity
  payloads := ⟨[], by rw [payloads, List.append_nil], nofun⟩
  counts counts := counts.bindingResponse valid is _ now channel counted pinged

/-- A packet for a connection of the endpoint. -/
theorem sound_onReadPacket (valid : e.channel.Valid) (is : e.For port address c)
    {received : Received} (found : getStunMessage (e.usernameFrag port.id) data = some received)
    (now : UInt32) :
    Sound e (.receive port address data) (e.onReadPacket c data received now) := by
  cases received with
  | notStun =>
    refine ⟨related_follows_of_calm (calm_packet e.channel c.id now nofun nofun), ⟨_, rfl, ?_⟩,
      fun counts => counts.of_related rfl rfl (calm_packet e.channel c.id now nofun nofun)⟩
    intro payload member
    split at member
    · next readable =>
      obtain rfl := List.mem_singleton.mp member
      exact ⟨c, is.live, rfl, readable, ⟨port, by rw [is.address], is.port.symm⟩,
        getStunMessage_notStun found⟩
    · cases member
  | handled reply => exact .of_calm rfl rfl rfl (calm_packet e.channel c.id now nofun nofun)
  | message msg remoteUsername =>
    unfold onReadPacket
    dsimp only
    split
    · exact .of_calm rfl rfl rfl (calm_packet e.channel c.id now nofun nofun)
    · next named =>
      have named := not_not.mp named
      have typed := getStunMessage_message found
      split
      · next request =>
        have names : Names data MessageType.bindingRequest
            (e.usernameFrag port.id ++ remoteUsername) msg := by
          obtain names | names | names := typed
          · exact names
          · exact absurd (names.type.symm.trans request) (by decide)
          · exact absurd (names.type.symm.trans request) (by decide)
        exact sound_bindingRequest valid is named names now rfl rfl rfl rfl
      · unfold checkResponse
        dsimp only
        split
        · next response =>
          have names : Names data MessageType.bindingResponse
              (remoteUsername ++ e.usernameFrag port.id) msg := by
            obtain names | names | names := typed
            · exact absurd (names.type.symm.trans response) (by decide)
            · exact names
            · exact absurd (names.type.symm.trans response) (by decide)
          exact sound_bindingResponse valid is named names now rfl rfl rfl rfl
        · split
          · exact .of_calm rfl rfl rfl (calm_packet e.channel c.id now nofun nofun)
          · exact .of_calm rfl rfl rfl (related_same e.channel)

end Packets

/-! ## Packets for nobody -/

/-- The other ports refuse the candidate of a ping from an unknown address. -/
def Contained (e : Endpoint ρ) : Input ρ → Prop
  | .receive port address data =>
      match getStunMessage (e.usernameFrag port.id) data, e.channel.getConnection port.id address with
      | some (.message msg remoteUsername), none =>
          msg.type = MessageType.bindingRequest → ∀ r,
            e.channel.remoteCandidates.find? (fun r => r.1.username = stdString remoteUsername) =
              some r → e.channel.OthersRefuse port { r.1 with address := address }
      | _, _ => True
  | _ => True

section Unknown

variable [Mul ρ] [LT ρ] [DecidableLT ρ]

theorem sound_onReadUnknown (valid : e.channel.Valid)
    (unknown : e.channel.getConnection port.id address = none) {received : Received}
    (found : getStunMessage (e.usernameFrag port.id) data = some received)
    (contained : e.Contained (.receive port address data)) (now : UInt32) :
    Sound e (.receive port address data) (e.onReadUnknown port address received now) := by
  have same := related_same e.channel
  cases received with
  | notStun | handled => exact .of_calm rfl rfl rfl same
  | message msg remoteUsername =>
    unfold onReadUnknown
    dsimp only
    split
    · next request =>
      have names : Names data MessageType.bindingRequest
          (e.usernameFrag port.id ++ remoteUsername) msg := by
        obtain names | names | names := getStunMessage_message found
        · exact names
        · exact absurd (names.type.symm.trans request) (by decide)
        · exact absurd (names.type.symm.trans request) (by decide)
      simp only [Contained, found, unknown] at contained
      have read := related_unknownAddress valid unknown (contained request) now
      have sorted : Related (Reads port.id address (stdString remoteUsername)) e.channel
          (e.channel.step ⟨.unknownAddress port address (stdString remoteUsername), now⟩) :=
        Related.step read .refl absorbs_reads
      refine .of_reads rfl rfl rfl (sorted.mono fun c c' read => read.mono ?_ id)
      rintro ⟨at', to', named⟩
      exact ⟨port, data, remoteUsername, msg, by rw [to'], at'.symm, named.symm, at' ▸ names⟩
    · exact .of_calm rfl rfl rfl same

/-- Every step of an endpoint is sound. -/
theorem sound_step (valid : e.channel.Valid) {input : Input ρ} (contained : e.Contained input)
    (now : UInt32) : Sound e input (e.step (input, now)) := by
  unfold step
  split
  · exact .of_calm rfl rfl rfl (related_same e.channel)
  · cases input with
    | internal event => exact sound_internal e event now
    | ping id => exact sound_ping e id now
    | requestMessage connection id => exact sound_requestMessage e connection id now
    | receive port address data =>
      dsimp only
      unfold receive
      split
      · exact .of_calm rfl rfl rfl (related_same e.channel)
      · next received found =>
        split
        · next c at' => exact sound_onReadPacket valid (for_getConnection at') found now
        · next unknown => exact sound_onReadUnknown valid unknown found contained now

end Unknown

end Libjingle.P2P.Endpoint

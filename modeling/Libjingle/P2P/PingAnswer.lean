import Libjingle.P2P.Receiving

/-!
# Pings and their answers

Over a run of an endpoint, connections are driven by authenticated packets and every ping
is counted at most once. Between two ports that hold each other's fragments, a ping is
accepted and answered, and the answer is accepted for the ping.
-/

namespace Libjingle.P2P.Endpoint

open Libjingle.Std Libjingle.Stun Connection Channel

variable {ρ : Type}

/-! ## Accepting -/

theorem receivedPing_accepted (c : Connection ρ) (now : UInt32) :
    (c.receivedPing now).readState = .readable ∧ (c.receivedPing now).lastPingReceived = now := by
  unfold Connection.receivedPing Connection.setReadState
  split
  · rw [Connection.checkTimeout, if_neg (fun timedOut => nomatch timedOut.1)]
    exact ⟨rfl, rfl⟩
  · next same => exact ⟨(not_not.mp same).symm, rfl⟩

theorem restart_keeps (c : Connection ρ) :
    c.restart.readState = c.readState ∧ c.restart.lastPingReceived = c.lastPingReceived := by
  unfold Connection.restart Connection.setWriteState Connection.checkTimeout
  split_ifs <;> exact ⟨rfl, rfl⟩

theorem bindingRequest_accepted (c : Connection ρ) (now : UInt32) :
    (c.onReadPacket .bindingRequest now).readState = .readable ∧
      (c.onReadPacket .bindingRequest now).lastPingReceived = now := by
  obtain ⟨readState, lastPingReceived⟩ := restart_keeps (c.receivedPing now)
  exact ⟨readState.trans (receivedPing_accepted c now).1,
    lastPingReceived.trans (receivedPing_accepted c now).2⟩

theorem bindingResponse_accepted (c : Connection ρ) {request : Nat} {r : ConnectionRequest}
    (found : c.findRequest request = some r) (now : UInt32) :
    (c.onReadPacket (.bindingResponse request) now).writeState = .writable := by
  unfold Connection.onReadPacket
  dsimp only
  rw [found]
  change (c.setWriteState .writable).writeState = .writable
  unfold Connection.setWriteState
  split
  · rw [Connection.checkTimeout, if_neg (fun timedOut => nomatch timedOut.2)]
  · next same => exact (not_not.mp same).symm

/-- A connection that has been acted on. -/
theorem mem_of_mem_stepConnection {ch : Channel ρ} {c : Connection ρ}
    (f : Connection ρ → Connection ρ) (live : c ∈ ch.connections) :
    { f c with signalled := false } ∈ (ch.stepConnection c.id f).connections := by
  rw [stepConnection, noticeStateChanges_connections, Channel.modify, List.map_map]
  refine List.mem_map.mpr ⟨c, live, ?_⟩
  dsimp only [Function.comp]
  rw [if_pos rfl]

/-- The connections of two ports hold each other's fragments. -/
structure Paired (a b : Endpoint ρ) (ca cb : Connection ρ) : Prop where
  there : ca.remote.username = stdString (b.usernameFrag cb.port.id)
  here : cb.remote.username = stdString (a.usernameFrag ca.port.id)

/-- The connections are valid and their pings are counted at most once. -/
structure Steady (e : Endpoint ρ) : Prop where
  valid : e.channel.Valid
  counts : Counts e

theorem steady_new (incomingOnly : Bool) (usernameFrag : Nat → List UInt8) :
    Steady (new incomingOnly usernameFrag : Endpoint ρ) where
  valid := valid_new incomingOnly
  counts := ⟨fun _ _ => Nat.le_refl _, nofun⟩

section Pings

variable {a b : Endpoint ρ} {ca cb : Connection ρ}

/-- The username of a ping that is sent. -/
theorem names_of_pingToSend {id : List UInt8} {msg : Message} {addr : SocketAddress}
    (sends : a.pingToSend ca.id id = some (ca, msg)) (valid : id.length = transactionIdLength)
    (fits : Fits (stdBytes ca.remote.username ++ a.usernameFrag ca.port.id) addr) :
    Names msg.write MessageType.bindingRequest
      (stdBytes ca.remote.username ++ a.usernameFrag ca.port.id) msg ∧ msg.transactionId = id := by
  unfold pingToSend at sends
  simp only [Option.bind_eq_bind, Option.bind_eq_some_iff] at sends
  obtain ⟨c, -, r, -, sends⟩ := sends
  split at sends
  · cases sends
  · obtain ⟨rfl, rfl⟩ := Prod.mk.inj (Option.some.inj sends)
    exact ping_names valid fits

variable [Mul ρ] [LT ρ] [DecidableLT ρ]

theorem receive_of_found {e : Endpoint ρ} (alive : e.crashed = false) {port : Port ρ}
    {address : SocketAddress} {data : List UInt8} {received : Received} {c : Connection ρ}
    (found : getStunMessage (e.usernameFrag port.id) data = some received)
    (at' : e.channel.getConnection port.id address = some c) (now : UInt32) :
    e.step (.receive port address data, now) = e.onReadPacket c data received now := by
  rw [step, alive]
  simp only [Bool.false_eq_true, if_false, receive, found, at']

/-- A response that a connection waits for. -/
theorem answer_accepted {e : Endpoint ρ} (alive : e.crashed = false) {port : Port ρ}
    {c : Connection ρ} (at' : e.channel.getConnection port.id c.remote.address = some c)
    {remoteUsername data : List UInt8} {msg : Message}
    (named : c.remote.username = stdString remoteUsername)
    (names : Names data MessageType.bindingResponse (remoteUsername ++ e.usernameFrag c.port.id) msg)
    (waiting : c.findRequest (requestId msg.transactionId) ≠ none) (now : UInt32) :
    let e' := e.step (.receive port c.remote.address data, now)
    (∃ c' ∈ e'.channel.connections, c'.identity = c.identity ∧ c'.writeState = .writable ∧
      c'.outstanding (requestId msg.transactionId) = 0) ∧
      e'.counted = e.counted ++ [(c.id, requestId msg.transactionId)] := by
  obtain ⟨r, found⟩ := Option.ne_none_iff_exists'.mp waiting
  obtain ⟨live, port_eq, -⟩ := getConnection_eq_some at'
  rw [port_eq] at names
  have response : msg.type = responseType MessageType.bindingRequest := by
    rw [names.type]
    decide
  rw [receive_of_found alive (getStunMessage_response names) at']
  have typed : responseType MessageType.bindingRequest ≠ MessageType.bindingRequest := by decide
  simp only [onReadPacket, named, ne_eq, not_true, if_false, typed, checkResponse, response,
    if_true]
  refine ⟨⟨_, mem_of_mem_stepConnection _ live, ?_, ?_, ?_⟩, ?_⟩
  · exact onReadPacket_identity c _ now
  · exact bindingResponse_accepted c found now
  · exact outstanding_bindingResponse c _ now
  · simp [handle, found]

/-- A ping that one port sends is accepted and answered by the other, and the answer is
accepted as the response to this ping. -/
theorem ping_answered {id : List UInt8} {msg : Message}
    (sends : a.pingToSend ca.id id = some (ca, msg)) (valid : id.length = transactionIdLength)
    (paired : Paired a b ca cb) (alive : b.crashed = false) {port : Port ρ}
    (at' : b.channel.getConnection port.id cb.remote.address = some cb)
    (set : cb.remote.address.ip ≠ .unspec)
    (fits : Fits (b.usernameFrag cb.port.id ++ a.usernameFrag ca.port.id) cb.remote.address)
    (now : UInt32) :
    let b' := b.step (.receive port cb.remote.address msg.write, now)
    (∃ c ∈ b'.channel.connections, c.identity = cb.identity ∧ c.readState = .readable ∧
      c.lastPingReceived = now) ∧
    ∃ response : Message, b'.sent = b.sent ++ [(cb.port.id, cb.remote.address, response.write)] ∧
      ∀ (a' : Endpoint ρ) (c : Connection ρ) (port : Port ρ) (now : UInt32),
        a'.crashed = false → a'.usernameFrag = a.usernameFrag → c.identity = ca.identity →
        a'.channel.getConnection port.id c.remote.address = some c →
        c.findRequest (requestId id) ≠ none →
        let a'' := a'.step (.receive port c.remote.address response.write, now)
        (∃ c' ∈ a''.channel.connections, c'.identity = ca.identity ∧ c'.writeState = .writable ∧
          c'.outstanding (requestId id) = 0) ∧
        a''.counted = a'.counted ++ [(ca.id, requestId id)] := by
  obtain ⟨live, port_eq, -⟩ := getConnection_eq_some at'
  have fits' : Fits (stdBytes ca.remote.username ++ a.usernameFrag ca.port.id)
      cb.remote.address := by
    rwa [paired.there, stdBytes_stdString]
  have ping := names_of_pingToSend sends valid fits'
  rw [paired.there, stdBytes_stdString] at ping
  obtain ⟨names, named⟩ := ping
  obtain ⟨response, answers, answer_names, answer_id⟩ :=
    response_names names (named ▸ valid) set fits
  intro b'
  have step : b' = (b.send cb.port.id cb.remote.address (some response)).handle
      (.packet cb.id .bindingRequest) now := by
    have found := getStunMessage_request names
    rw [port_eq] at found
    have request : b' = _ := receive_of_found alive found at' now
    rw [request]
    simp only [onReadPacket, paired.here, ne_eq, not_true, if_false, names.type, if_true, answers]
  rw [step]
  obtain ⟨readable, pinged⟩ := bindingRequest_accepted cb now
  refine ⟨⟨_, mem_of_mem_stepConnection _ live, onReadPacket_identity cb _ now, readable, pinged⟩,
    response, by simp [handle, send], ?_⟩
  intro a' c port now alive frag same at' waiting
  rw [named] at answer_id
  have holds : c.remote.username = stdString (b.usernameFrag cb.port.id) := by
    rw [remote_eq same, paired.there]
  have accepted := answer_accepted alive at' holds
    (by rw [frag, Connection.port_eq same]; exact answer_names) (by rw [answer_id]; exact waiting) now
  rw [answer_id, Connection.id_eq same] at accepted
  obtain ⟨⟨c', member, same', written⟩, counted⟩ := accepted
  exact ⟨⟨c', member, same'.trans same, written⟩, counted⟩

/-! ## Runs -/

theorem valid_handle (e : Endpoint ρ) (valid : e.channel.Valid) (event : Event ρ) (now : UInt32) :
    (e.handle event now).channel.Valid :=
  valid.step ⟨event, now⟩

theorem valid_step {e : Endpoint ρ} (valid : e.channel.Valid) (input : Input ρ × UInt32) :
    (e.step input).channel.Valid := by
  unfold step receive onReadPacket onReadUnknown onUnknownAddress checkResponse requestMessage ping
  repeat' split
  all_goals first
    | exact valid
    | exact valid_handle _ valid _ input.2

theorem Steady.step {e : Endpoint ρ} (steady : Steady e) {input : Input ρ × UInt32}
    (contained : e.Contained input.1) : Steady (e.step input) where
  valid := valid_step steady.valid input
  counts := (sound_step steady.valid contained input.2).counts steady.counts

/-- In a run whose pings from unknown addresses are refused by the other ports, packets of
other ports or for other fragments do nothing, and pings are answered. -/
theorem driven_by_authenticated_packets (incomingOnly : Bool) (usernameFrag : Nat → List UInt8)
    (inputs : List (Input ρ × UInt32)) (input : Input ρ × UInt32)
    (contained : Along step (fun e input => e.Contained input.1)
      (new incomingOnly usernameFrag) (inputs ++ [input])) :
    let e := runInputs step (new incomingOnly usernameFrag) inputs
    (e.Authentic input.1 (e.step input) ∧ ∀ connection request,
      (e.step input).counted.count (connection, request) ≤
        (e.step input).pinged.count (connection, request)) ∧
    ∀ (b : Endpoint ρ) (ca cb : Connection ρ) (port : Port ρ) (id : List UInt8) (msg : Message)
      (now : UInt32),
      e.pingToSend ca.id id = some (ca, msg) → id.length = transactionIdLength →
      e.Paired b ca cb → b.crashed = false →
      b.channel.getConnection port.id cb.remote.address = some cb →
      cb.remote.address.ip ≠ .unspec →
      Fits (b.usernameFrag cb.port.id ++ e.usernameFrag ca.port.id) cb.remote.address →
      let b' := b.step (.receive port cb.remote.address msg.write, now)
      (∃ c ∈ b'.channel.connections, c.identity = cb.identity ∧ c.readState = .readable ∧
        c.lastPingReceived = now) ∧
      ∃ response : Message, b'.sent = b.sent ++ [(cb.port.id, cb.remote.address, response.write)] ∧
        ∀ (later : Endpoint ρ) (c : Connection ρ) (port : Port ρ) (now : UInt32),
          later.crashed = false → later.usernameFrag = e.usernameFrag →
          c.identity = ca.identity →
          later.channel.getConnection port.id c.remote.address = some c →
          c.findRequest (requestId id) ≠ none →
          let answered := later.step (.receive port c.remote.address response.write, now)
          (∃ c' ∈ answered.channel.connections, c'.identity = ca.identity ∧
            c'.writeState = .writable ∧ c'.outstanding (requestId id) = 0) ∧
          answered.counted = later.counted ++ [(ca.id, requestId id)] := by
  intro e
  have steady : Steady e :=
    contained.front.invariant (fun _ _ contained steady => steady.step contained)
      (steady_new incomingOnly usernameFrag)
  have sound := sound_step steady.valid contained.last input.2
  refine ⟨⟨.of_related steady.valid sound.related sound.payloads,
    (sound.counts steady.counts).counted⟩, ?_⟩
  intro b ca cb port id msg now sends valid paired alive at' set fits
  exact ping_answered sends valid paired alive at' set fits now

end Pings

/-! ## A ping that is taken for a ping of another port -/

def udpPort (id : Nat) : Port Nat where
  id := id
  network := 0
  preference := 1
  generation := 0
  connects := fun _ _ => some true

def hostAddress (ip : BitVec 32) : SocketAddress := ⟨.v4 ip, 5000⟩

def remoteCandidate : Candidate Nat where
  name := "rtp"
  protocol := "udp"
  address := hostAddress 1
  preference := 1
  username := "z"
  password := ""
  type := "local"
  generation := 0

/-- A ping for the first port, from an address that is not known. -/
def strangePing : Input Nat :=
  .receive (udpPort 0) (hostAddress 2)
    (pingMessage "a" [122] (List.replicate transactionIdLength 7)).write

def fragments (port : Nat) : List UInt8 := if port = 0 then [97] else [98]

def startPorts (ports : List Nat) : List (Input Nat × UInt32) :=
  ports.map (fun id => (.internal (.portReady (udpPort id)), 1)) ++
    [(.internal (.candidate remoteCandidate), 2)]

/-- The connection of the second port becomes readable without a ping. -/
theorem not_driven_by_authenticated_packets :
    let e := runInputs step (new false fragments) (startPorts [0, 1])
    ¬ e.Authentic strangePing (e.step (strangePing, 3)) := by
  intro e authentic
  have unasked : ∃ c ∈ (e.step (strangePing, 3)).channel.connections, c.port.id = 1 ∧
      c.readState = .readable ∧ (e.channel.previous c).readState ≠ .readable := by
    decide +kernel
  obtain ⟨c, live, port, readable, before⟩ := unasked
  obtain ⟨other, data, username, msg, input, here, -⟩ := authentic.readable c live readable before
  obtain ⟨rfl, -, -⟩ := Input.receive.inj input
  rw [port] at here
  exact absurd here (by decide)

theorem driven_by_authenticated_packets_alone :
    Along step (fun e input => e.Contained input.1) (new false fragments)
      (startPorts [0] ++ [(strangePing, 3)]) ∧
    let e := runInputs step (new false fragments) (startPorts [0])
    e.Authentic strangePing (e.step (strangePing, 3)) := by
  have contained : Along step (fun e input => e.Contained input.1) (new false fragments)
      (startPorts [0] ++ [(strangePing, 3)]) := by
    refine ⟨trivial, trivial, ?_, trivial⟩
    have alone : ∀ q ∈ (runInputs step (new false fragments) (startPorts [0])).channel.ports,
        q.id = 0 := by
      decide +kernel
    dsimp only [Contained, strangePing]
    split
    · exact fun _ r _ q member other => absurd (alone q member) other
    · trivial
  exact ⟨contained,
    (driven_by_authenticated_packets false fragments (startPorts [0]) (strangePing, 3)
      contained).1.1⟩

end Libjingle.P2P.Endpoint

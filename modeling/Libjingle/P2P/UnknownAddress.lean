import Libjingle.P2P.Driven

/-!
# A ping from an unknown address

The channel makes a connection to the new address from the port that has received the
ping, and tries to make one from each of its other ports. It marks all of them readable,
though only the first port has received anything. Where the other ports refuse, only
connections that the ping names become readable.
-/

namespace Libjingle.P2P

open Connection

variable {ρ : Type}

/-- A connection of a port to an address, whose remote candidate has a username. -/
def Connection.Named (port : Nat) (address : SocketAddress) (username : String)
    (c : Connection ρ) : Prop :=
  c.port.id = port ∧ c.remote.address = address ∧ c.remote.username = username

theorem Connection.named_congr {port : Nat} {address : SocketAddress} {username : String}
    {c c' : Connection ρ} (same : c'.identity = c.identity) :
    c'.Named port address username ↔ c.Named port address username := by
  rw [Named, Named, port_eq same, remote_eq same]

/-- Only a connection with this name becomes readable. -/
def Connection.Reads (port : Nat) (address : SocketAddress) (username : String)
    (c c' : Connection ρ) : Prop :=
  Driven (c'.Named port address username) False c c'

section Reads

variable {port : Nat} {address : SocketAddress} {username : String} {c c' c'' : Connection ρ}

theorem Connection.Reads.refl (c : Connection ρ) : Reads port address username c c :=
  Driven.refl c

theorem Connection.Reads.trans (first : Reads port address username c c')
    (second : Reads port address username c' c'') : Reads port address username c c'' := by
  have named : Driven (c''.Named port address username) False c c' :=
    first.mono (named_congr second.identity).mpr False.elim
  exact named.trans second

theorem Connection.Reads.receivedPing (named : c.Named port address username) (now : UInt32) :
    Reads port address username c (c.receivedPing now) :=
  (Driven.receivedPing c now).mono
    (fun _ => (named_congr (c.receivedPing_identity now)).mpr named) False.elim

theorem absorbs_reads : Channel.Absorbs (Reads port address username : Connection ρ → _) :=
  fun _ _ _ first second => first.trans second.driven

end Reads

namespace Channel

/-- `CreateConnection` makes no connection from a port other than the origin. -/
def Refuses (ch : Channel ρ) (remote : Candidate ρ) (port : Port ρ) : Prop :=
  match (ch.getConnection port.id remote.address).map Connection.remote with
  | some candidate => remote.isEquivalent candidate = false
  | none => port.connects remote .otherPort = none

variable {ch : Channel ρ} {port : Port ρ} {remote : Candidate ρ} {origin : Nat}

theorem createConnection_of_refuses (readable : Option UInt32) (other : port.id ≠ origin)
    (refuses : ch.Refuses remote port) :
    ch.createConnection port remote (some origin) readable = (false, ch) := by
  unfold Refuses at refuses
  unfold createConnection
  cases found : ch.getConnection port.id remote.address with
  | some c =>
    rw [found, Option.map_some] at refuses
    dsimp only
    rw [if_neg (by simpa using refuses)]
  | none =>
    rw [found, Option.map_none] at refuses
    have from_other : getOrigin port.id (some origin) = .otherPort := if_neg other
    have notMessage : ¬ (CandidateOrigin.otherPort = .message ∧ ch.incomingOnly) := nofun
    simp only [from_other, refuses, if_neg notMessage]

theorem getConnection_map (ch : Channel ρ) {f : Connection ρ → Connection ρ}
    (keeps : ∀ c, (f c).identity = c.identity) (port : Nat) (address : SocketAddress) :
    ({ ch with connections := ch.connections.map f }.getConnection port address).map
      Connection.remote = (ch.getConnection port address).map Connection.remote := by
  have same : (fun c : Connection ρ => decide (c.port.id = port ∧ c.remote.address = address)) ∘ f =
      fun c => decide (c.port.id = port ∧ c.remote.address = address) := by
    funext c
    rw [Function.comp, port_eq (keeps c), remote_eq (keeps c)]
  rw [getConnection, List.find?_map, same, Option.map_map, getConnection]
  exact congrArg (Option.map · _) (funext fun c => remote_eq (keeps c))

theorem getConnection_append (ch : Channel ρ) {c : Connection ρ} {port : Nat}
    (other : c.port.id ≠ port) (address : SocketAddress) (next : Nat) :
    { ch with connections := ch.connections ++ [c], nextConnection := next }.getConnection port
      address = ch.getConnection port address := by
  rw [getConnection, List.find?_append, List.find?_singleton]
  simp [getConnection, other]

theorem getConnection_eq_some {id : Nat} {address : SocketAddress} {c : Connection ρ}
    (found : ch.getConnection id address = some c) :
    c ∈ ch.connections ∧ c.port.id = id ∧ c.remote.address = address :=
  ⟨List.mem_of_find?_eq_some found, by simpa using List.find?_some found⟩

/-- The connections from a port to an address, if any, are to a candidate with this username. -/
structure Ready (ch : Channel ρ) (port : Nat) (address : SocketAddress) (username : String) :
    Prop where
  valid : ch.Valid
  named : ∀ c ∈ ch.connections, c.port.id = port → c.remote.address = address →
    c.remote.username = username

section Ready

variable {address : SocketAddress} {username : String}

theorem Valid.unique (valid : ch.Valid) {c c' : Connection ρ} (first : c ∈ ch.connections)
    (second : c' ∈ ch.connections) (same : c.id = c'.id) : c = c' :=
  List.inj_on_of_nodup_map valid.nodup first second same

theorem Ready.map (ready : ch.Ready origin address username) {f : Connection ρ → Connection ρ}
    (keeps : ∀ c, (f c).identity = c.identity) :
    { ch with connections := ch.connections.map f }.Ready origin address username where
  valid := (sameMembers_map ch f keeps).valid ready.valid
  named c member port at' := by
    obtain ⟨old, live, rfl⟩ := List.mem_map.mp member
    rw [port_eq (keeps old)] at port
    rw [remote_eq (keeps old)] at at' ⊢
    exact ready.named old live port at'

/-- A ping is counted for the connection that it is meant for. -/
theorem Ready.receivedPing (ready : ch.Ready origin address username) {c : Connection ρ}
    (live : c ∈ ch.connections) (port : c.port.id = origin) (at' : c.remote.address = address)
    (now : UInt32) :
    (ch.modify c.id (·.receivedPing now)).Ready origin address username ∧
      Related (Reads origin address username) ch (ch.modify c.id (·.receivedPing now)) := by
  constructor
  · refine ready.map fun c => ?_
    split
    · exact c.receivedPing_identity now
    · rfl
  · refine related_modify ch c.id .refl fun c' live' same => ?_
    obtain rfl := ready.valid.unique live' live same
    exact .receivedPing ⟨port, at', ready.named _ live port at'⟩ now

/-- The other ports see what they saw. -/
def SameElsewhere (origin : Nat) (ch ch' : Channel ρ) : Prop :=
  ∀ port, port ≠ origin → ∀ address, (ch'.getConnection port address).map Connection.remote =
    (ch.getConnection port address).map Connection.remote

theorem SameElsewhere.refuses {ch' : Channel ρ} (same : SameElsewhere origin ch ch')
    (other : port.id ≠ origin) (refuses : ch.Refuses remote port) : ch'.Refuses remote port := by
  rw [Refuses, same port.id other]
  exact refuses

theorem sameElsewhere_modify (ch : Channel ρ) (id : Nat) {f : Connection ρ → Connection ρ}
    (keeps : ∀ c, (f c).identity = c.identity) : SameElsewhere origin ch (ch.modify id f) := by
  intro port _ address
  refine getConnection_map ch (fun c => ?_) port address
  split
  · exact keeps c
  · rfl

/-- `CreateConnection` from the port that has received the ping. -/
theorem Ready.createConnection (ready : ch.Ready port.id remote.address remote.username)
    (now : UInt32) :
    let made := (ch.createConnection port remote (some port.id) (some now)).2
    made.Ready port.id remote.address remote.username ∧
      Related (Reads port.id remote.address remote.username) ch made ∧
      SameElsewhere port.id ch made := by
  have unchanged : ch.Ready port.id remote.address remote.username ∧
      Related (Reads port.id remote.address remote.username) ch ch ∧
      SameElsewhere port.id ch ch :=
    ⟨ready, (related_same ch).mono fun _ _ calm => calm.driven, fun _ _ _ => rfl⟩
  unfold Channel.createConnection
  split
  · next c found =>
    split
    · obtain ⟨live, at', to'⟩ := getConnection_eq_some found
      obtain ⟨ready', related⟩ := ready.receivedPing live at' to' now
      exact ⟨ready', related, sameElsewhere_modify ch c.id fun c => c.receivedPing_identity now⟩
    · exact unchanged
  · dsimp only
    split
    · exact unchanged
    · split
      · exact unchanged
      · next connected made =>
        have grown : Ready { ch with
            connections := ch.connections ++ [.new ch.nextConnection port remote connected]
            nextConnection := ch.nextConnection + 1 } port.id remote.address remote.username := by
          refine ⟨ready.valid.append port remote connected, fun c member at' to' => ?_⟩
          obtain old | new := List.mem_append.mp member
          · exact ready.named c old at' to'
          · obtain rfl := List.mem_singleton.mp new
            rfl
        have last : Connection.new ch.nextConnection port remote connected ∈
            ch.connections ++ [.new ch.nextConnection port remote connected] := by simp
        obtain ⟨ready', related⟩ := grown.receivedPing last rfl rfl now
        refine ⟨ready', ?_, fun other different address => ?_⟩
        · exact ((related_append .refl ch port remote connected).trans related .refl).mono
            fun _ _ ⟨_, first, second⟩ => Reads.trans first second
        · rw [Channel.receivedPing, sameElsewhere_modify _ _
            (fun c => c.receivedPing_identity now) other different address,
            getConnection_append ch (Ne.symm different)]

/-- `CreateConnections` over the ports, where all but the origin refuse. -/
theorem Ready.createFrom (ports : List (Port ρ)) (ready : ch.Ready origin remote.address remote.username)
    (refuse : ∀ q ∈ ports, q.id ≠ origin → ch.Refuses remote q) (now : UInt32) :
    let made := (createFrom remote (some origin) (some now) ports ch).2
    made.Ready origin remote.address remote.username ∧
      Related (Reads origin remote.address remote.username) ch made := by
  induction ports generalizing ch with
  | nil => exact ⟨ready, (related_same ch).mono fun _ _ calm => calm.driven⟩
  | cons q rest ih =>
    have later := fun q' member => refuse q' (List.mem_cons_of_mem _ member)
    by_cases here : q.id = origin
    · subst here
      obtain ⟨ready', related, same⟩ := ready.createConnection now
      obtain ⟨ready'', related'⟩ := ih ready' fun q' member other =>
        same.refuses other (later q' member other)
      exact ⟨ready'', (related.trans related' .refl).mono
        fun _ _ ⟨_, first, second⟩ => Reads.trans first second⟩
    · have refused := createConnection_of_refuses (some now) here
        (refuse q List.mem_cons_self here)
      have rest := ih ready later
      simp only [Channel.createFrom, refused]
      exact rest

theorem Ready.rememberRemoteCandidate (ready : ch.Ready origin address username)
    (remote : Candidate ρ) (originPort : Option Nat) :
    (ch.rememberRemoteCandidate remote originPort).Ready origin address username := by
  have same : (ch.rememberRemoteCandidate remote originPort).connections = ch.connections := by
    unfold Channel.rememberRemoteCandidate
    dsimp only
    split <;> rfl
  refine ⟨(sameMembers_rememberRemoteCandidate ch remote originPort).valid ready.valid, ?_⟩
  rw [same]
  exact ready.named

/-- All ports of the channel but one refuse a candidate. -/
def OthersRefuse (ch : Channel ρ) (port : Port ρ) (remote : Candidate ρ) : Prop :=
  ∀ q ∈ ch.ports, q.id ≠ port.id → ch.Refuses remote q

/-- A ping from an unknown address makes readable only what it names. -/
theorem related_unknownAddress (valid : ch.Valid) (unknown : ch.getConnection port.id address = none)
    (refuse : ∀ r, ch.remoteCandidates.find? (fun r => r.1.username = username) = some r →
      ch.OthersRefuse port { r.1 with address := address }) (now : UInt32) :
    Related (Reads port.id address username) ch
      (ch.onUnknownAddress port address username now).2 := by
  unfold onUnknownAddress
  split
  · exact (related_same ch).mono fun _ _ calm => calm.driven
  · next r found =>
    obtain rfl : r.1.username = username := by simpa using List.find?_some found
    have ready : ch.Ready port.id address r.1.username := by
      refine ⟨valid, fun c live at' to' => ?_⟩
      have missing := List.find?_eq_none.mp unknown c live
      simp [at', to'] at missing
    have all : ∀ q ∈ ch.ports.reverse ++ ([port].filter fun port =>
        ch.ports.all fun p => p.id ≠ port.id), q.id ≠ port.id →
        ch.Refuses { r.1 with address := address } q := by
      intro q member other
      obtain listed | origin := List.mem_append.mp member
      · exact refuse r found q (List.mem_reverse.mp listed) other
      · obtain rfl := List.mem_singleton.mp (List.mem_of_mem_filter origin)
        exact absurd rfl other
    obtain ⟨ready', related⟩ := ready.createFrom _ all now
    have created := ready'.rememberRemoteCandidate { r.1 with address := address } (some port.id)
    have related := related.then_calm (related_rememberRemoteCandidate _
      { r.1 with address := address } (some port.id)) .refl absorbs_reads
    split
    · next made result =>
      obtain rfl : (ch.createConnections { r.1 with address := address } (some port)
        (some now)).2 = made := congrArg Prod.snd result
      exact related.then_calm (related_noticeStateChanges _) .refl absorbs_reads
    · next made result =>
      obtain rfl : (ch.createConnections { r.1 with address := address } (some port)
        (some now)).2 = made := congrArg Prod.snd result
      split
      · exact related.then_calm (related_noticeStateChanges _) .refl absorbs_reads
      · next c at' =>
        obtain ⟨live, at', to'⟩ := getConnection_eq_some at'
        have pinged := (created.receivedPing live at' to' now).2.then_calm
          (related_noticeStateChanges _) .refl absorbs_reads
        exact (related.trans pinged .refl).mono fun _ _ ⟨_, first, second⟩ => first.trans second

end Ready

end Channel

end Libjingle.P2P

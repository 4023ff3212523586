import Libjingle.P2P.UnknownAddress
import Libjingle.P2P.Pruning
import Libjingle.Std.Trace

/-!
# What connections are driven by

A connection becomes readable by a binding request that names the two fragments, and
writable by the response to one of its own pings. The pings of two ports that hold each
other's fragments are accepted and answered, and the answers are accepted.
-/

namespace Libjingle.P2P

open Libjingle.Std Libjingle.Stun Connection Channel

variable {ρ : Type}

namespace Channel

/-- What a connection was before a step; a new one as it is made. -/
def previous (ch : Channel ρ) (c : Connection ρ) : Connection ρ :=
  (ch.find c.id).getD (.new c.id c.port c.remote c.connected)

theorem find_of_mem {ch : Channel ρ} (valid : ch.Valid) {c : Connection ρ}
    (live : c ∈ ch.connections) : ch.find c.id = some c := by
  obtain ⟨c', found⟩ : ∃ c', ch.find c.id = some c' := by
    refine Option.isSome_iff_exists.mp (List.find?_isSome.mpr ⟨c, live, by simp⟩)
  have named : c'.id = c.id := by simpa using List.find?_some found
  rw [found, valid.unique (List.mem_of_find?_eq_some found) live named]

/-- The state of an earlier connection is the previous one. -/
structure SameState (c c' : Connection ρ) : Prop where
  readState : c.readState = c'.readState
  writeState : c.writeState = c'.writeState
  lastPingReceived : c.lastPingReceived = c'.lastPingReceived
  requests : c.requests = c'.requests

theorem previous_of_earlier {ch : Channel ρ} (valid : ch.Valid) {c c' : Connection ρ}
    (earlier : ch.Earlier c) (same : c'.identity = c.identity) : SameState (ch.previous c') c := by
  obtain live | ⟨unused, port, remote, connected, shape⟩ := earlier
  · rw [previous, Connection.id_eq same, find_of_mem valid live]
    exact ⟨rfl, rfl, rfl, rfl⟩
  · have missing : ch.find c'.id = none := by
      refine List.find?_eq_none.mpr fun other live here => ?_
      have low := valid.fresh other.id (List.mem_map_of_mem live)
      have number : other.id = c'.id := by simpa using here
      have named := Connection.id_eq same
      omega
    rw [previous, missing, shape]
    exact ⟨rfl, rfl, rfl, rfl⟩

end Channel

namespace Endpoint

/-- A binding request for the connection, and for the port that it is at. -/
def Asked (e : Endpoint ρ) (input : Input ρ) (c : Connection ρ) : Prop :=
  ∃ port data remoteUsername msg, input = .receive port c.remote.address data ∧
    port.id = c.port.id ∧ stdString remoteUsername = c.remote.username ∧
    Names data MessageType.bindingRequest (e.usernameFrag c.port.id ++ remoteUsername) msg

/-- A binding response for the connection, to a ping of its own that is outstanding. -/
def Answered (e : Endpoint ρ) (input : Input ρ) (c : Connection ρ) : Prop :=
  ∃ port data remoteUsername msg, input = .receive port c.remote.address data ∧
    port.id = c.port.id ∧ stdString remoteUsername = c.remote.username ∧
    Names data MessageType.bindingResponse (remoteUsername ++ e.usernameFrag c.port.id) msg ∧
    0 < (e.channel.previous c).outstanding (requestId msg.transactionId)

/-- The input is data for a connection that is readable. -/
def Delivered (e : Endpoint ρ) (input : Input ρ) (payload : Nat × List UInt8) : Prop :=
  ∃ c ∈ e.channel.connections, c.id = payload.1 ∧ c.readState = .readable ∧
    (∃ port, input = .receive port c.remote.address payload.2 ∧ port.id = c.port.id) ∧
    ∀ msg, Message.new.read payload.2 ≠ (true, msg, [])

/-- What a step has changed is justified by its input. -/
structure Authentic (e : Endpoint ρ) (input : Input ρ) (e' : Endpoint ρ) : Prop where
  readable : ∀ c ∈ e'.channel.connections, c.readState = .readable →
    (e.channel.previous c).readState ≠ .readable → e.Asked input c
  pinged : ∀ c ∈ e'.channel.connections,
    c.lastPingReceived ≠ (e.channel.previous c).lastPingReceived → e.Asked input c
  writable : ∀ c ∈ e'.channel.connections, c.writeState = .writable →
    (e.channel.previous c).writeState ≠ .writable → e.Answered input c
  payloads : ∃ new, e'.payloads = e.payloads ++ new ∧ ∀ payload ∈ new, e.Delivered input payload

section Steps

variable {e e' : Endpoint ρ} {input : Input ρ}

/-- What a connection has gained on an earlier one is justified by the input. -/
structure Follows (e : Endpoint ρ) (input : Input ρ) (c c' : Connection ρ) : Prop where
  identity : c'.identity = c.identity
  readable : c'.readState = .readable → c.readState = .readable ∨ e.Asked input c'
  pinged : c'.lastPingReceived = c.lastPingReceived ∨ e.Asked input c'
  writable : c'.writeState = .writable → c.writeState = .writable ∨ e.Answered input c'

theorem Follows.of_driven {read write : Prop} {c c' : Connection ρ}
    (driven : Driven read write c c') (reads : read → e.Asked input c')
    (writes : write → e.Answered input c') : Follows e input c c' where
  identity := driven.identity
  readable is := (driven.readable is).imp_right reads
  pinged := driven.pinged.imp_right reads
  writable is := (driven.writable is).imp_right writes

/-- A step is authentic if the connections after it follow from earlier ones. -/
theorem Authentic.of_related (valid : e.channel.Valid)
    (related : Related (Follows e input) e.channel e'.channel)
    (payloads : ∃ new, e'.payloads = e.payloads ++ new ∧
      ∀ payload ∈ new, e.Delivered input payload) : Authentic e input e' where
  readable c' member is was := by
    obtain ⟨c, earlier, follows⟩ := related.earlier c' member
    rw [(previous_of_earlier valid earlier follows.identity).readState] at was
    exact (follows.readable is).resolve_left was
  pinged c' member changed := by
    obtain ⟨c, earlier, follows⟩ := related.earlier c' member
    rw [(previous_of_earlier valid earlier follows.identity).lastPingReceived] at changed
    exact follows.pinged.resolve_left changed
  writable c' member is was := by
    obtain ⟨c, earlier, follows⟩ := related.earlier c' member
    rw [(previous_of_earlier valid earlier follows.identity).writeState] at was
    exact (follows.writable is).resolve_left was
  payloads := payloads

/-- Of the pings of a connection, those that are counted and those that are outstanding are
different ones. -/
structure Counts (e : Endpoint ρ) : Prop where
  counted : ∀ connection request,
    e.counted.count (connection, request) ≤ e.pinged.count (connection, request)
  outstanding : ∀ c ∈ e.channel.connections, ∀ request,
    e.counted.count (c.id, request) + c.outstanding request ≤ e.pinged.count (c.id, request)

/-- Every connection, also one that is yet to be made, has been pinged often enough. -/
theorem Counts.earlier (counts : Counts e) {c : Connection ρ} (earlier : e.channel.Earlier c)
    (request : Nat) :
    e.counted.count (c.id, request) + c.outstanding request ≤ e.pinged.count (c.id, request) := by
  obtain live | ⟨-, port, remote, connected, shape⟩ := earlier
  · exact counts.outstanding c live request
  · have none : c.outstanding request = 0 := by rw [shape]; rfl
    rw [none]
    exact counts.counted c.id request

/-- A step that pings nobody and counts nothing. -/
theorem Counts.of_fewer (counts : Counts e) (counted : e'.counted = e.counted)
    (pinged : e'.pinged = e.pinged)
    (related : Related (fun c c' => c'.id = c.id ∧
      ∀ request, c'.outstanding request ≤ c.outstanding request) e.channel e'.channel) :
    Counts e' where
  counted := by
    rw [counted, pinged]
    exact counts.counted
  outstanding c' member request := by
    obtain ⟨c, earlier, same, fewer⟩ := related.earlier c' member
    rw [counted, pinged, same]
    exact Nat.le_trans (Nat.add_le_add_left (fewer request) _) (counts.earlier earlier request)

end Steps

section Inputs

variable {e e' : Endpoint ρ} {input : Input ρ} {c c' c'' : Connection ρ}

theorem Asked.congr (asked : e.Asked input c) (same : c'.identity = c.identity) :
    e.Asked input c' := by
  rw [Asked, remote_eq same, port_eq same]
  exact asked

theorem outstanding_previous {ch : Channel ρ} (same : c'.id = c.id) (request : Nat) :
    (ch.previous c').outstanding request = (ch.previous c).outstanding request := by
  unfold Channel.previous
  rw [same]
  cases ch.find c.id <;> rfl

theorem Answered.congr (answered : e.Answered input c) (same : c'.identity = c.identity) :
    e.Answered input c' := by
  obtain ⟨port, data, remoteUsername, msg, is, at', named, names, waiting⟩ := answered
  refine ⟨port, data, remoteUsername, msg, ?_, ?_, ?_, ?_, ?_⟩
  · rw [is, remote_eq same]
  · rw [at', port_eq same]
  · rw [named, remote_eq same]
  · rw [port_eq same]
    exact names
  · rw [outstanding_previous (Connection.id_eq same)]
    exact waiting

theorem Follows.refl (c : Connection ρ) : Follows e input c c :=
  ⟨rfl, .inl, .inl rfl, .inl⟩

theorem Follows.then_calm (follows : Follows e input c c') (calm : Calm c' c'') :
    Follows e input c c'' where
  identity := calm.identity.trans follows.identity
  readable is := by
    have is := (calm.readable is).resolve_right id
    exact (follows.readable is).imp_right (·.congr calm.identity)
  pinged := by
    rw [calm.pinged.resolve_right id]
    exact follows.pinged.imp_right (·.congr calm.identity)
  writable is := by
    have is := (calm.writable is).resolve_right id
    exact (follows.writable is).imp_right (·.congr calm.identity)

theorem absorbs_follows : Absorbs (Follows e input) := fun _ _ _ => Follows.then_calm

theorem related_follows_of_calm {ch ch' : Channel ρ} (calm : Related Calm ch ch') :
    Related (Follows e input) ch ch' :=
  calm.mono fun _ _ calm => .of_driven calm False.elim False.elim

/-- What a step has done, while it is looked at alone. -/
structure Sound (e : Endpoint ρ) (input : Input ρ) (e' : Endpoint ρ) : Prop where
  related : Related (Follows e input) e.channel e'.channel
  payloads : ∃ new, e'.payloads = e.payloads ++ new ∧ ∀ payload ∈ new, e.Delivered input payload
  counts : Counts e → Counts e'

theorem Counts.of_related {read write : Connection ρ → Connection ρ → Prop}
    (counts : Counts e) (counted : e'.counted = e.counted) (pinged : e'.pinged = e.pinged)
    (related : Related (fun c c' => Driven (read c c') (write c c') c c') e.channel e'.channel) :
    Counts e' :=
  counts.of_fewer counted pinged (related.mono fun _ _ driven =>
    ⟨Connection.id_eq driven.identity, driven.requests⟩)

/-- A step in which connections gain nothing but what the input asks for. -/
theorem Sound.of_reads (payloads : e'.payloads = e.payloads) (counted : e'.counted = e.counted)
    (pinged : e'.pinged = e.pinged)
    (related : Related (fun c c' => Driven (e.Asked input c') False c c') e.channel e'.channel) :
    Sound e input e' where
  related := related.mono fun _ _ driven => .of_driven driven id False.elim
  payloads := ⟨[], by rw [payloads, List.append_nil], nofun⟩
  counts counts := counts.of_related counted pinged related

theorem Sound.of_calm (payloads : e'.payloads = e.payloads) (counted : e'.counted = e.counted)
    (pinged : e'.pinged = e.pinged) (calm : Related Calm e.channel e'.channel) :
    Sound e input e' :=
  .of_reads payloads counted pinged (calm.mono fun _ _ calm => calm.driven)

end Inputs

/-! ## Without packets -/

/-- `OnPing` adds a request to the connection that it chooses. -/
theorem related_onPing (ch : Channel ρ) (request : Nat) (now : UInt32) :
    let chosen := (ch.updateConnectionStates now).findNextPingableConnection now
    Related (fun c c' => ∃ updated, Calm c updated ∧
      c' = if chosen = some c.id then updated.ping request now else updated) ch
      (ch.onPing request now) := by
  intro chosen
  have updated := related_updateConnectionStates ch now
  unfold onPing
  dsimp only
  split
  · next nobody =>
    refine updated.mono fun c c' calm => ⟨c', calm, ?_⟩
    rw [if_neg]
    rw [show chosen = none from nobody]
    intro is
    cases is
  · next id chooses =>
    refine ⟨updated.next, fun c' member => ?_⟩
    obtain ⟨c, live, rfl⟩ := List.mem_map.mp member
    obtain ⟨before, earlier, calm⟩ := updated.earlier c live
    refine ⟨before, earlier, c, calm, ?_⟩
    rw [show chosen = some id from chooses, Connection.id_eq calm.identity]
    simp only [Option.some_inj, eq_comm]

theorem count_toList_map (chosen : Option Nat) (request connection id : Nat) :
    (chosen.toList.map fun connection => (connection, request)).count (connection, id) =
      if chosen = some connection ∧ request = id then 1 else 0 := by
  cases chosen with
  | none => rfl
  | some other => simp [List.count_singleton, Prod.ext_iff]

section Quiet

variable [Mul ρ] [LT ρ] [DecidableLT ρ] (e : Endpoint ρ)

theorem sound_internal (event : Internal ρ) (now : UInt32) :
    Sound e (.internal event) (e.handle event.event now) :=
  .of_calm rfl rfl rfl ((related_internal e.channel event now).step .refl absorbs_calm)

theorem sound_requestMessage (connection : Nat) (id : List UInt8) (now : UInt32) :
    Sound e (.requestMessage connection id) (e.requestMessage connection id now) := by
  have calm : Related Calm e.channel
      (e.channel.step ⟨.requestMessage connection (requestId id), now⟩) :=
    related_calm_stepConnection e.channel connection fun c =>
      Calm.onRequestMessage c (requestId id) now
  unfold requestMessage
  split
  · exact .of_calm rfl rfl rfl calm
  · exact .of_calm rfl rfl rfl calm

theorem sound_ping (id : List UInt8) (now : UInt32) :
    Sound e (.ping id) (e.ping id now) := by
  have related : Related (fun c c' => ∃ updated, Calm c updated ∧
      c' = if e.nextPingable now = some c.id then updated.ping (requestId id) now else updated)
      e.channel (e.ping id now).channel := related_onPing e.channel (requestId id) now
  have pinged (connection request : Nat) : (e.ping id now).pinged.count (connection, request) =
      e.pinged.count (connection, request) +
        if e.nextPingable now = some connection ∧ requestId id = request then 1 else 0 := by
    rw [← count_toList_map, ← List.count_append]
    rfl
  refine ⟨related.mono fun c c' ⟨updated, calm, made⟩ => ?_, ⟨[], (List.append_nil _).symm, nofun⟩,
    fun counts => ⟨fun connection request => ?_, fun c' member request => ?_⟩⟩
  · have follows : Follows e (.ping id) c updated := .of_driven calm False.elim False.elim
    rw [made]
    split
    · exact ⟨follows.identity, follows.readable, follows.pinged, follows.writable⟩
    · exact follows
  · rw [pinged]
    exact Nat.le_add_right_of_le (counts.counted connection request)
  · obtain ⟨c, earlier, updated, calm, made⟩ := related.earlier c' member
    have before := counts.earlier earlier request
    have fewer := calm.requests request
    have same : c'.id = c.id := by
      rw [made, ← Connection.id_eq calm.identity]
      split <;> rfl
    have outstanding : c'.outstanding request = updated.outstanding request +
        if e.nextPingable now = some c.id ∧ requestId id = request then 1 else 0 := by
      rw [made]
      by_cases chosen : e.nextPingable now = some c.id
      · rw [if_pos chosen, outstanding_ping]
        simp [chosen]
      · simp [chosen]
    have counted : (e.ping id now).counted = e.counted := rfl
    rw [pinged, counted, same, outstanding]
    omega

end Quiet

end Endpoint

end Libjingle.P2P

import Libjingle.Base.ByteBuffer
import Libjingle.Base.ProxyTunnel

/-!
# `AsyncSocksProxySocket`

The client side of SOCKS 5 in `talk/base/socketadapters.cc`. Every read event
handles one message of the proxy.
-/

namespace Libjingle.Base

open Libjingle.Std

inductive SocksState
  | init
  | hello
  | auth
  | connect
  | tunnel
  | error
  deriving DecidableEq, Repr

/-- A destination: its name while it is unresolved, or its address. -/
inductive SocksHost
  | unresolved (hostname : List UInt8)
  | ip (addr : UInt32)
  deriving DecidableEq, Repr

structure SocksConfig where
  host : SocksHost
  port : UInt16
  user : List UInt8
  pass : List UInt8
  deriving DecidableEq, Repr

namespace SocksConfig

def sendHello (config : SocksConfig) : List BaseCall :=
  if config.user = [] then [.directSend [5, 1, 0]] else [.directSend [5, 2, 0, 2]]

def sendAuth (config : SocksConfig) : List BaseCall :=
  [.directSend ([1, UInt8.ofNat config.user.length] ++ config.user ++
    [UInt8.ofNat config.pass.length] ++ config.pass)]

def sendConnect (config : SocksConfig) : List BaseCall :=
  let host := match config.host with
    | .unresolved hostname => [3, UInt8.ofNat hostname.length] ++ hostname
    | .ip addr => 1 :: ByteBuffer.uint32Bytes addr
  [.directSend ([5, 1, 0] ++ host ++ ByteBuffer.uint16Bytes config.port)]

end SocksConfig

/-- `Error`: every error is reported with the same socket error. -/
def socksError (error : Int) : List BaseCall :=
  [.bufferInput false, .close, .signalCloseEvent error]

/-- `SOCKET_EACCES`. -/
def socketEacces : Int := 13

/-- The address that the proxy has bound, by its type. -/
def readAddress (atyp : UInt8) (response : List UInt8) : Option (List UInt8 × List UInt8) :=
  if atyp = 1 then ByteBuffer.readBytes 4 response
  else if atyp = 3 then
    (ByteBuffer.readUInt8 response).bind fun (len, rest) => ByteBuffer.readBytes len.toNat rest
  else ByteBuffer.readBytes 16 response

/-- The address and the port behind it, of which only the log makes use. -/
def readBoundAddress (atyp : UInt8) (response : List UInt8) : Option (UInt16 × List UInt8) :=
  (readAddress atyp response).bind fun (_, rest) => ByteBuffer.readUInt16 rest

/-- What one message of the proxy means in a state: nothing while it is incomplete. -/
inductive SocksReply
  | incomplete
  | failed (error : Int)
  | accepted (next : SocksState) (calls : List BaseCall) (response : List UInt8)
  deriving DecidableEq, Repr

namespace SocksConfig

def hello (config : SocksConfig) (data : List UInt8) : SocksReply :=
  match data with
  | ver :: method :: response =>
    if ver ≠ 5 then .failed 0
    else if method = 0 then .accepted .connect config.sendConnect response
    else if method = 2 then .accepted .auth config.sendAuth response
    else .failed 0
  | _ => .incomplete

def auth (config : SocksConfig) (data : List UInt8) : SocksReply :=
  match data with
  | ver :: status :: response =>
    if ver ≠ 1 ∨ status ≠ 0 then .failed socketEacces
    else .accepted .connect config.sendConnect response
  | _ => .incomplete

end SocksConfig

def socksConnect (data : List UInt8) : SocksReply :=
  match data with
  | ver :: rep :: _ :: atyp :: response =>
    if ver ≠ 5 ∨ rep ≠ 0 then .failed 0
    else if atyp = 1 ∨ atyp = 3 ∨ atyp = 4 then
      match readBoundAddress atyp response with
      | none => .incomplete
      | some (_, response) => .accepted .tunnel [] response
    else .failed 0
  | _ => .incomplete

/-- The message in front of the data. Before the hello is sent nothing is read. -/
def SocksConfig.reply (config : SocksConfig) (s : SocksState) (data : List UInt8) : SocksReply :=
  match s with
  | .hello => config.hello data
  | .auth => config.auth data
  | .connect => socksConnect data
  | .init | .tunnel | .error => .incomplete

def SocksConfig.processInput (config : SocksConfig) (s : SocksState) (data : List UInt8) :
    ProcessedInput SocksState :=
  match config.reply s data with
  | .incomplete => { state := s, left := data, calls := [] }
  | .failed error => { state := .error, left := data, calls := socksError error }
  | .accepted next calls response =>
    if next = .tunnel then
      { state := .tunnel
        left := response
        calls := calls ++ [.bufferInput false, .signalConnectEvent] ++
          if response ≠ [] then [.signalReadEvent] else [] }
    else { state := next, left := response, calls }

def SocksConfig.protocol (config : SocksConfig) : ProxyProtocol SocksState where
  onConnectEvent _ := (.hello, config.sendHello)
  processInput := config.processInput

/-- After `Connect`. -/
def socksStart : ProxiedSocket SocksState := .start .init true

def SocksState.up (s : SocksState) : Bool := s = .tunnel

/-! ## The handshake, message by message -/

/-- A reading of the front of the data is the same with more data behind it. -/
def ReadsFront {ω : Type} (read : List UInt8 → Option (ω × List UInt8)) : Prop :=
  ∀ data value rest, read data = some (value, rest) →
    (∃ eaten, data = eaten ++ rest) ∧ ∀ tail, read (data ++ tail) = some (value, rest ++ tail)

theorem readsFront_readBytes (len : Nat) : ReadsFront (ByteBuffer.readBytes len) := by
  intro data value rest read
  obtain ⟨rfl, length⟩ := ByteBuffer.readBytes_eq_some read
  refine ⟨⟨value, rfl⟩, fun tail => ?_⟩
  rw [List.append_assoc]
  exact ByteBuffer.readBytes_append_of_length length _

theorem ReadsFront.map {ω ω' : Type} {read : List UInt8 → Option (ω × List UInt8)}
    (front : ReadsFront read) (f : ω → ω') :
    ReadsFront fun data => (read data).map fun (value, rest) => (f value, rest) := by
  intro data value rest found
  simp only [Option.map_eq_some_iff, Prod.mk.injEq, Prod.exists] at found
  obtain ⟨value, rest, found, rfl, rfl⟩ := found
  obtain ⟨eaten, more⟩ := front data value rest found
  exact ⟨eaten, fun tail => by simp only [more tail, Option.map_some]⟩

theorem ReadsFront.bind {ω ω' : Type} {read : List UInt8 → Option (ω × List UInt8)}
    {next : ω → List UInt8 → Option (ω' × List UInt8)} (front : ReadsFront read)
    (later : ∀ value, ReadsFront (next value)) :
    ReadsFront fun data => (read data).bind fun (value, rest) => next value rest := by
  intro data value rest found
  simp only [Option.bind_eq_some_iff, Prod.exists] at found
  obtain ⟨first, mid, found, second⟩ := found
  obtain ⟨⟨eaten, rfl⟩, more⟩ := front _ _ _ found
  obtain ⟨⟨behind, rfl⟩, still⟩ := later first _ _ _ second
  refine ⟨⟨eaten ++ behind, by rw [List.append_assoc]⟩, fun tail => ?_⟩
  simp only [more tail, Option.bind_some, still tail]

theorem readsFront_readUInt8 : ReadsFront ByteBuffer.readUInt8 :=
  (readsFront_readBytes 1).map fun bytes => UInt8.ofNat (BigEndian.ofBytes bytes)

theorem readsFront_readUInt16 : ReadsFront ByteBuffer.readUInt16 :=
  (readsFront_readBytes 2).map fun bytes => UInt16.ofNat (BigEndian.ofBytes bytes)

theorem readsFront_readAddress (atyp : UInt8) : ReadsFront (readAddress atyp) := by
  unfold readAddress
  split
  · exact readsFront_readBytes 4
  split
  · exact readsFront_readUInt8.bind fun len => readsFront_readBytes len.toNat
  · exact readsFront_readBytes 16

theorem readsFront_readBoundAddress (atyp : UInt8) : ReadsFront (readBoundAddress atyp) :=
  (readsFront_readAddress atyp).bind fun _ => readsFront_readUInt16

/-- A name has at most 255 bytes behind its length. -/
theorem readAddress_length {atyp : UInt8} {data : List UInt8} :
    (readAddress atyp data = none → data.length < 256) ∧
      ∀ addr rest, readAddress atyp data = some (addr, rest) → data.length ≤ rest.length + 256 := by
  have fixed (len : Nat) (small : len ≤ 16) :
      (ByteBuffer.readBytes len data = none → data.length < 256) ∧
        ∀ addr rest, ByteBuffer.readBytes len data = some (addr, rest) →
          data.length ≤ rest.length + 256 := by
    constructor
    · intro short
      simp only [ByteBuffer.readBytes, ite_eq_left_iff, reduceCtorEq, imp_false, not_not] at short
      omega
    · intro addr rest read
      obtain ⟨rfl, length⟩ := ByteBuffer.readBytes_eq_some read
      rw [List.length_append]
      omega
  unfold readAddress
  split
  · exact fixed 4 (by omega)
  split
  · cases data with
    | nil => exact ⟨fun _ => by decide, fun _ _ read => by cases read⟩
    | cons len data =>
      have bound : len.toNat < 256 := len.toNat_lt
      rw [ByteBuffer.readUInt8_cons, Option.bind_some]
      constructor
      · intro short
        simp only [ByteBuffer.readBytes, ite_eq_left_iff, reduceCtorEq, imp_false, not_not] at short
        rw [List.length_cons]
        omega
      · intro addr rest read
        obtain ⟨rfl, length⟩ := ByteBuffer.readBytes_eq_some read
        simp only [List.length_cons, List.length_append]
        omega
  · exact fixed 16 (by omega)

theorem length_lt_of_readBoundAddress {atyp : UInt8} {data : List UInt8}
    (incomplete : readBoundAddress atyp data = none) : data.length < 258 := by
  obtain ⟨short, long⟩ := @readAddress_length atyp data
  simp only [readBoundAddress, Option.bind_eq_none_iff, Prod.forall] at incomplete
  cases address : readAddress atyp data with
  | none => exact Nat.lt_of_lt_of_le (short address) (by decide)
  | some read =>
    obtain ⟨addr, rest⟩ := read
    have length := long addr rest address
    have missing := incomplete addr rest address
    simp only [ByteBuffer.readUInt16, ByteBuffer.readBytes, Option.map_eq_none_iff, ite_eq_left_iff,
      reduceCtorEq, imp_false, not_not] at missing
    omega

theorem reply_accepted {config : SocksConfig} {s next : SocksState} {data response : List UInt8}
    {calls : List BaseCall} (accepted : config.reply s data = .accepted next calls response) :
    (∃ eaten, eaten ≠ [] ∧ data = eaten ++ response) ∧
      (∀ tail, config.reply s (data ++ tail) = .accepted next calls (response ++ tail)) ∧
      (next = .auth ∨ next = .connect ∨ next = .tunnel) := by
  cases s with
  | init | tunnel | error => cases accepted
  | hello =>
    match data with
    | [] | [_] => cases accepted
    | ver :: method :: rest =>
      simp only [SocksConfig.reply, SocksConfig.hello, List.cons_append] at accepted ⊢
      split at accepted
      · cases accepted
      next version =>
      simp only [if_neg version]
      split at accepted
      · cases accepted
        next free => exact ⟨⟨[ver, method], by simp⟩, by simp [free], by simp⟩
      next method' =>
      split at accepted
      · cases accepted
        next password =>
          exact ⟨⟨[ver, method], by simp⟩, by simp [password], by simp⟩
      · cases accepted
  | auth =>
    match data with
    | [] | [_] => cases accepted
    | ver :: status :: rest =>
      simp only [SocksConfig.reply, SocksConfig.auth, List.cons_append] at accepted ⊢
      split at accepted
      · cases accepted
      next fine =>
      cases accepted
      exact ⟨⟨[ver, status], by simp⟩, fun tail => if_neg fine, by simp⟩
  | connect =>
    match data with
    | [] | [_] | [_, _] | [_, _, _] => cases accepted
    | ver :: rep :: rsv :: atyp :: rest =>
      simp only [SocksConfig.reply, socksConnect, List.cons_append] at accepted ⊢
      split at accepted
      · cases accepted
      next fine =>
      simp only [if_neg fine]
      split at accepted
      next known =>
        split at accepted
        · cases accepted
        next port left read =>
          cases accepted
          obtain ⟨⟨eaten, rfl⟩, more⟩ := readsFront_readBoundAddress atyp _ _ _ read
          refine ⟨⟨ver :: rep :: rsv :: atyp :: eaten, by simp⟩, fun tail => ?_, by simp⟩
          rw [if_pos known, more tail]
      · cases accepted

/-- A message that is not complete leaves most of the buffer free. -/
theorem reply_incomplete {config : SocksConfig} {s : SocksState} {data : List UInt8}
    (waits : s = .hello ∨ s = .auth ∨ s = .connect)
    (incomplete : config.reply s data = .incomplete) : data.length < 262 := by
  have few : data.length < 2 → data.length < 262 := by omega
  rcases waits with rfl | rfl | rfl
  · match data with
    | [] | [_] => exact few (by simp)
    | ver :: method :: rest =>
      simp only [SocksConfig.reply, SocksConfig.hello] at incomplete
      split at incomplete
      · cases incomplete
      split at incomplete
      · cases incomplete
      split at incomplete <;> cases incomplete
  · match data with
    | [] | [_] => exact few (by simp)
    | ver :: status :: rest =>
      simp only [SocksConfig.reply, SocksConfig.auth] at incomplete
      split at incomplete <;> cases incomplete
  · match data with
    | [] | [_] | [_, _] | [_, _, _] => simp
    | ver :: rep :: rsv :: atyp :: rest =>
      simp only [SocksConfig.reply, socksConnect] at incomplete
      split at incomplete
      · cases incomplete
      split at incomplete
      · split at incomplete
        · next missing =>
          have length := length_lt_of_readBoundAddress missing
          simp only [List.length_cons]
          omega
        · cases incomplete
      · cases incomplete

/-! ## The handshake as items of a stream -/

/-- The messages of the proxy, up to the one that brings the tunnel up. -/
def SocksConfig.reader (config : SocksConfig) : Reader SocksState UInt8 (List BaseCall) where
  read s data :=
    match config.reply s data with
    | .accepted next calls response => some (calls, next, response)
    | _ => none
  more {s buf item t rest} found tail := by
    split at found
    · next next calls response accepted =>
      cases found
      rw [(reply_accepted accepted).2.1 tail]
    · cases found
  takes {s buf item t rest} found := by
    split at found
    · next next calls response accepted =>
      cases found
      exact (reply_accepted accepted).1
    · cases found

theorem SocksConfig.read_of_accepted {config : SocksConfig} {s next : SocksState}
    {data response : List UInt8} {calls : List BaseCall}
    (accepted : config.reply s data = .accepted next calls response) :
    config.reader.read s data = some (calls, next, response) := by
  simp only [reader, accepted]

theorem socks_readsItems (config : SocksConfig) :
    ReadsItems config.protocol config.reader (· ≠ .error) where
  connects _ _ := by simp [SocksConfig.protocol]
  processes s data sound later := by
    simp only [SocksConfig.protocol, SocksConfig.processInput] at later ⊢
    split
    · exact ⟨[], .refl _ _⟩
    · next failed => simp [failed] at later
    · next next calls response accepted =>
      have read := config.read_of_accepted accepted
      split
      · next up => exact ⟨[calls], .one (up ▸ read)⟩
      · exact ⟨[calls], .one read⟩
  givesUp s data sound later := by
    simp only [SocksConfig.protocol, SocksConfig.processInput] at later ⊢
    split at later
    · exact absurd sound later
    · exact ⟨rfl, fun _ => rfl⟩
    · next next calls response accepted =>
      split at later
      · simp at later
      · rcases (reply_accepted accepted).2.2 with rfl | rfl | rfl <;> simp at later

/-! ## The buffer of the handshake -/

/-- While it buffers, the adapter waits for a message and its buffer has room. -/
structure SocksRoom (c : ProxiedSocket SocksState) : Prop where
  room : c.adapter.buffering = true → c.adapter.buffer.length < handshakeBufferSize
  waits : c.socket.state = .connected → c.adapter.buffering = true →
    c.adapter.state = .hello ∨ c.adapter.state = .auth ∨ c.adapter.state = .connect

/-- After a message the adapter waits for the next one with room in the buffer, or it
has stopped buffering. -/
theorem processInput_room (config : SocksConfig) {s : SocksState} {data : List UInt8}
    (waits : s = .hello ∨ s = .auth ∨ s = .connect) (fits : data.length ≤ handshakeBufferSize)
    (still : (config.processInput s data).calls.foldl BufferedReadAdapter.buffers true = true) :
    (config.processInput s data).left.length < handshakeBufferSize ∧
      ((config.processInput s data).state = .hello ∨ (config.processInput s data).state = .auth ∨
        (config.processInput s data).state = .connect) := by
  unfold SocksConfig.processInput at still ⊢
  rw [handshakeBufferSize] at fits ⊢
  split
  · next incomplete =>
    have length := reply_incomplete waits incomplete
    exact ⟨by dsimp only; omega, waits⟩
  · next failed =>
    simp [failed, socksError, BufferedReadAdapter.buffers] at still
  · next next calls response accepted =>
    obtain ⟨⟨eaten, nonempty, rfl⟩, -, states⟩ := reply_accepted accepted
    simp only [accepted] at still
    have positive := List.length_pos_iff.mpr nonempty
    rw [List.length_append] at fits
    split
    · next up =>
      simp only [up, if_true] at still
      split at still <;> simp [BufferedReadAdapter.buffers] at still
    · next notUp =>
      refine ⟨by dsimp only; omega, ?_⟩
      rcases states with rfl | rfl | rfl
      · exact .inr (.inl rfl)
      · exact .inr (.inr rfl)
      · exact absurd rfl notUp

namespace SocksRoom

variable {c : ProxiedSocket SocksState} {config : SocksConfig}

theorem readEvent (room : SocksRoom c) (limit : Nat) :
    SocksRoom (c.step config.protocol (.readEvent limit)) := by
  simp only [ProxiedSocket.step]
  split
  · exact room
  next connected =>
  have connected : c.socket.state = .connected := not_not.mp connected
  simp only [BufferedReadAdapter.onReadEvent]
  split
  · exact { room with }
  next buffering =>
  have buffering : c.adapter.buffering = true := not_not.mp buffering
  have free := room.room buffering
  rw [if_neg (Nat.not_le_of_lt free)]
  split
  · next failed =>
    obtain ⟨-, rfl⟩ := UnderlyingSocket.of_recv_none failed
    exact { room with }
  next read =>
  rename_i bytes u
  obtain ⟨-, -, atMost, -⟩ := UnderlyingSocket.of_recv_some read
  have fits : (c.adapter.buffer ++ bytes).length ≤ handshakeBufferSize := by
    rw [List.length_append]
    omega
  have after := processInput_room config (room.waits connected buffering) fits
  rw [buffering]
  exact { room := fun still => (after still).1, waits := fun _ still => (after still).2 }

theorem step (room : SocksRoom c) (input : ProxyStep) :
    SocksRoom (c.step config.protocol input) := by
  cases input with
  | connectEvent =>
    simp only [ProxiedSocket.step]
    split
    · exact room
    · have calls : config.sendHello.foldl BufferedReadAdapter.buffers c.adapter.buffering =
          c.adapter.buffering := by
        unfold SocksConfig.sendHello
        split <;> rfl
      exact {
        room := fun still => room.room (calls ▸ still)
        waits := fun _ _ => .inl rfl }
  | arrive bytes =>
    simp only [ProxiedSocket.step]
    split
    · exact room
    · exact { room with }
  | readEvent limit => exact room.readEvent limit
  | recv cb limit =>
    simp only [ProxiedSocket.step, BufferedReadAdapter.recv]
    split
    · exact { room with }
    next buffering =>
    split <;> exact {
      room := fun still => absurd still buffering
      waits := fun _ still => absurd still buffering }

end SocksRoom

/-- Behind SOCKS no byte of the tunnel is lost, unless `Recv` has bytes of the buffer to
report and finds the socket empty. -/
theorem socks_keepsTunnelData {config : SocksConfig} {steps : List ProxyStep}
    (served : Along (ProxiedSocket.step config.protocol) ProxiedSocket.Served socksStart steps) :
    (socksStart.run config.protocol steps).KeepsTunnelData config.reader SocksState.up := by
  obtain ⟨intact, -⟩ := served.invariant
    (P := fun c => c.Intact config.reader (· ≠ .error) ∧ SocksRoom c)
    (fun c input served ⟨intact, room⟩ => by
      refine ⟨intact.step (socks_readsItems config) input served ?_, room.step input⟩
      cases input with
      | readEvent limit => exact room.room
      | connectEvent | arrive | recv => trivial)
    ⟨.start (by simp), ⟨fun _ => by decide, fun connected => by cases connected⟩⟩
  refine intact.keepsTunnelData (fun s buf up => ?_) (fun s up failed => ?_)
  · obtain rfl : s = .tunnel := by simpa [SocksState.up] using up
    rfl
  · rw [failed] at up
    cases up

end Libjingle.Base

import Libjingle.Relay.Failover

/-!
# What the attempts of a relay entry add up to

As long as every failure that is acted on is that of the latest attempt, of which nothing
was known before, and the entry is not connected, the servers are tried in the order of
the list and each attempt that fails takes the index one further.
-/

namespace Libjingle.Relay.Failover

open Libjingle.Std Libjingle.Stun

namespace RelayEntry

/-- The attempt whose failure `HandleConnectFailure` acts on. -/
def fails (e : RelayEntry) (input : Input) : Option Nat :=
  match input with
  | .connectTimeout _ => e.reports input
  | _ => (e.reports input).filter fun attempt =>
      e.currentConnection.any fun c => c.socket = attempt

/-- A failure that is acted on is new, and that of the latest attempt. -/
def Timely (e : RelayEntry) (input : Input) : Prop :=
  ∀ attempt ∈ e.fails input, e.connected = false ∧ attempt + 1 = e.attempts.length ∧
    attempt ∉ e.failed

instance (e : RelayEntry) (input : Input) : Decidable (Timely e input) :=
  inferInstanceAs (Decidable (∀ attempt ∈ e.fails input, _))

/-- A failure is signalled for a server only while no allocate request has succeeded on it,
the index counts the failed attempts, no index is left out, and a connected entry has a
connection that is not closed. -/
structure Consistent (serverIndex : Nat) (e : RelayEntry) : Prop where
  signals : e.signals.Pairwise fun earlier later =>
    ∀ ra, later = .connectFailure ra → earlier ≠ .allocated ra
  index : e.serverIndex = serverIndex + e.failed.length
  failed : e.failed.Nodup
  attempts : e.attempts = List.range' serverIndex e.attempts.length
  connected : e.connected = true → ∃ c, e.currentConnection = some c ∧ c.closed = false

/-- With a failure that the index has not followed yet, if `lag` is one. -/
structure Sound (serverIndex lag : Nat) (e : RelayEntry) : Prop where
  signals : e.signals.Pairwise fun earlier later =>
    ∀ ra, later = .connectFailure ra → earlier ≠ .allocated ra
  index : e.serverIndex + lag = serverIndex + e.failed.length
  failed : e.failed = List.range e.failed.length
  attempts : e.attempts = List.range' serverIndex e.attempts.length
  connected : e.connected = true → ∃ c, e.currentConnection = some c ∧ c.closed = false
  latest : e.failed.length ≤ e.attempts.length ∧ e.attempts.length ≤ e.failed.length + 1
  current : ∀ c ∈ e.currentConnection, c.socket + 1 = e.attempts.length
  disposed : ∀ c ∈ e.disposed, c.socket < e.failed.length
  /-- While the entry is not connected, no request has succeeded. -/
  quiet : e.connected = false → ∀ ra, .allocated ra ∉ e.signals

variable {serverIndex lag : Nat} {e : RelayEntry}

theorem Sound.consistent (sound : Sound serverIndex 0 e) : Consistent serverIndex e where
  signals := sound.signals
  index := sound.index
  failed := by
    rw [sound.failed]
    exact List.nodup_range
  attempts := sound.attempts
  connected := sound.connected

theorem Sound.mem_failed (sound : Sound serverIndex lag e) {attempt : Nat} :
    attempt ∈ e.failed ↔ attempt < e.failed.length := by
  rw [sound.failed, List.mem_range, List.length_range]

/-- A failure may be signalled while the entry is not connected. -/
theorem Sound.signal (sound : Sound serverIndex lag e) {s : Signal}
    (idle : e.connected = false) (failure : ∀ ra, s ≠ .allocated ra) :
    Sound serverIndex lag (e.signal s) where
  signals := by
    refine List.pairwise_append.mpr ⟨sound.signals, List.pairwise_singleton _ _, ?_⟩
    intro earlier member later last ra _ same
    exact sound.quiet idle ra (same ▸ member)
  index := sound.index
  failed := sound.failed
  attempts := sound.attempts
  connected := sound.connected
  latest := sound.latest
  current := sound.current
  disposed := sound.disposed
  quiet _ ra member := by
    obtain old | new := List.mem_append.mp member
    · exact sound.quiet idle ra old
    · exact failure ra (List.mem_singleton.mp new).symm

/-- The connections are acted on, and the socket of a connected entry stays open. -/
theorem Sound.modify (sound : Sound serverIndex lag e) (socket : Nat)
    {f : RelayConnection → RelayConnection} (same : ∀ c, (f c).socket = c.socket)
    (stays : e.connected = true → ∀ c ∈ e.currentConnection, c.socket = socket →
      (f c).closed = c.closed) : Sound serverIndex lag (e.modify socket f) := by
  have acted (c : RelayConnection) : (if c.socket = socket then f c else c).socket = c.socket := by
    split
    · exact same c
    · rfl
  refine ⟨sound.signals, sound.index, sound.failed, sound.attempts, fun connected => ?_,
    sound.latest, fun c member => ?_, fun c member => ?_, sound.quiet⟩
  · obtain ⟨c, is, closed⟩ := sound.connected connected
    refine ⟨_, congrArg (Option.map _) is, ?_⟩
    dsimp only
    split
    · next here => rw [stays connected c is here, closed]
    · exact closed
  · obtain ⟨old, is, rfl⟩ := Option.map_eq_some_iff.mp member
    rw [acted]
    exact sound.current old is
  · obtain ⟨old, is, rfl⟩ := List.mem_map.mp member
    rw [acted]
    exact sound.disposed old is

/-- The current connection changes in its requests only. -/
theorem Sound.map (sound : Sound serverIndex lag e) {f : RelayConnection → RelayConnection}
    (same : ∀ c, (f c).socket = c.socket ∧ (f c).closed = c.closed) :
    Sound serverIndex lag { e with currentConnection := e.currentConnection.map f } where
  signals := sound.signals
  index := sound.index
  failed := sound.failed
  attempts := sound.attempts
  connected connected := by
    obtain ⟨c, is, closed⟩ := sound.connected connected
    exact ⟨f c, congrArg (Option.map f) is, (same c).2.trans closed⟩
  latest := sound.latest
  current c member := by
    obtain ⟨old, is, rfl⟩ := Option.map_eq_some_iff.mp member
    rw [(same old).1]
    exact sound.current old is
  disposed := sound.disposed
  quiet := sound.quiet

/-- When every attempt has failed, the next one is at the index. -/
theorem Sound.connect (sound : Sound serverIndex 0 e)
    (all : e.attempts.length = e.failed.length) (call : Call) :
    Sound serverIndex 0 (e.connect call) := by
  unfold RelayEntry.connect
  split
  · exact sound
  · next idle =>
    split
    · exact sound
    · next ra _ =>
      have idle : e.connected = false := by simpa using idle
      have attempts : e.attempts ++ [e.serverIndex] =
          List.range' serverIndex (e.attempts ++ [e.serverIndex]).length := by
        have index := sound.index
        rw [List.length_append, List.length_singleton, List.range'_concat, ← sound.attempts, all,
          Nat.one_mul]
        exact congrArg (fun index => e.attempts ++ [index]) index
      have disposed : ∀ c ∈ e.disposed ++ e.currentConnection.toList,
          c.socket < e.failed.length := by
        intro c member
        obtain old | current := List.mem_append.mp member
        · exact sound.disposed c old
        · have socket := sound.current c (Option.mem_toList.mp current)
          omega
      -- The entry with a new connection, or with none if there is no socket.
      have next (current : Option RelayConnection) (timeouts : List Nat)
          (made : ∀ c ∈ current, c.socket = e.attempts.length) : Sound serverIndex 0 { e with
            disposed := e.disposed ++ e.currentConnection.toList
            currentConnection := current
            attempts := e.attempts ++ [e.serverIndex]
            timeouts := timeouts } := by
        refine ⟨sound.signals, sound.index, sound.failed, attempts, ?_, ?_, ?_, disposed,
          sound.quiet⟩
        · intro connected
          exact absurd (idle.symm.trans connected) nofun
        · rw [List.length_append, List.length_singleton, all]
          exact ⟨Nat.le_succ _, Nat.le_refl _⟩
        · intro c member
          rw [made c member, List.length_append, List.length_singleton]
      dsimp only
      split
      · exact next none _ nofun
      · split
        · refine next (some _) _ fun c made => ?_
          obtain rfl := Option.some.inj made
          rfl
        · refine next (some _) _ fun c made => ?_
          obtain rfl := Option.some.inj made
          rfl

/-- The first failure of the latest attempt. -/
theorem Sound.note (sound : Sound serverIndex 0 e) {attempt : Nat}
    (last : attempt + 1 = e.attempts.length) (unknown : attempt ∉ e.failed) :
    Sound serverIndex 1 (e.note (some attempt)) ∧
      (e.note (some attempt)).attempts.length = (e.note (some attempt)).failed.length := by
  have count : attempt = e.failed.length := by
    have low := mt sound.mem_failed.mpr unknown
    have latest := sound.latest
    omega
  have noted : (e.note (some attempt)).failed = e.failed ++ [attempt] := by
    rw [RelayEntry.note, if_neg unknown]
  have longer : (e.note (some attempt)).failed.length = e.failed.length + 1 := by
    rw [noted, List.length_append, List.length_singleton]
  refine ⟨⟨sound.signals, ?_, ?_, sound.attempts, sound.connected, ?_, sound.current, ?_,
    sound.quiet⟩, ?_⟩
  · rw [longer]
    exact congrArg (· + 1) sound.index
  · rw [longer, List.range_succ, noted, ← sound.failed, count]
  · rw [longer]
    change _ ≤ e.attempts.length ∧ e.attempts.length ≤ _
    omega
  · intro c member
    rw [longer]
    exact Nat.lt_succ_of_lt (sound.disposed c member)
  · rw [longer]
    change e.attempts.length = _
    omega

theorem note_of_mem {attempt : Nat} (known : attempt ∈ e.failed) :
    e.note (some attempt) = e := by
  rw [RelayEntry.note, if_pos known, List.append_nil]

/-- The index follows a failure, and the next server is tried. -/
theorem Sound.advance (sound : Sound serverIndex 1 e)
    (all : e.attempts.length = e.failed.length) (call : Call) :
    Sound serverIndex 0 ({ e with serverIndex := e.serverIndex + 1 }.connect call) := by
  have advanced : Sound serverIndex 0 { e with serverIndex := e.serverIndex + 1 } :=
    ⟨sound.signals, sound.index, sound.failed, sound.attempts, sound.connected, sound.latest,
      sound.current, sound.disposed, sound.quiet⟩
  exact advanced.connect all call

/-- What fails is the current connection, or there is none and no socket. -/
theorem Sound.handleConnectFailure (sound : Sound serverIndex 1 e)
    (all : e.attempts.length = e.failed.length) (idle : e.connected = false)
    {socket : Option Nat} (here : socket = e.currentConnection.map (·.socket)) (call : Call) :
    Sound serverIndex 0 (e.handleConnectFailure socket call) := by
  subst here
  unfold RelayEntry.handleConnectFailure
  cases is : e.currentConnection with
  | none => exact sound.advance all call
  | some c =>
    dsimp only [Option.map_some]
    rw [if_pos rfl]
    exact (sound.signal idle fun _ => Signal.noConfusion).advance all call

/-- The failure of another socket is not acted on. -/
theorem Sound.handleOther (sound : Sound serverIndex 0 e) {socket : Nat}
    (other : ∀ c ∈ e.currentConnection, c.socket ≠ socket) (call : Call) :
    Sound serverIndex 0 (e.handleConnectFailure (some socket) call) := by
  have crashed : Sound serverIndex 0 { e with crashed := true } :=
    ⟨sound.signals, sound.index, sound.failed, sound.attempts, sound.connected, sound.latest,
      sound.current, sound.disposed, sound.quiet⟩
  unfold RelayEntry.handleConnectFailure
  split
  · exact crashed
  · next failed c at' is =>
    obtain rfl := Option.some.inj at'
    rw [if_neg fun same => other c is same.symm]
    exact sound
  · next none => cases none

/-! ## Steps -/

theorem sendAllocateRequest_same (c : RelayConnection) (call : Call) :
    (c.sendAllocateRequest call).socket = c.socket ∧
      (c.sendAllocateRequest call).closed = c.closed :=
  ⟨rfl, rfl⟩

theorem Sound.scheduleKeepAlive (sound : Sound serverIndex lag e) (call : Call) :
    Sound serverIndex lag (e.scheduleKeepAlive call) :=
  sound.map fun c => sendAllocateRequest_same c call

/-- An allocate request of the current connection succeeds. -/
theorem Sound.onConnect (sound : Sound serverIndex lag e) {c : RelayConnection}
    (current : e.currentConnection = some c) (open' : c.closed = false) :
    Sound serverIndex lag (e.onConnect c) where
  signals := by
    refine List.pairwise_append.mpr ⟨sound.signals, List.pairwise_singleton _ _, ?_⟩
    intro earlier _ later last ra failure
    obtain rfl := List.mem_singleton.mp last
    cases failure
  index := sound.index
  failed := sound.failed
  attempts := sound.attempts
  connected _ := ⟨c, current, open'⟩
  latest := sound.latest
  current := sound.current
  disposed := sound.disposed
  quiet idle := nomatch idle

theorem Sound.onReadPacket (sound : Sound serverIndex lag e) (socket : Nat) (bytes : List UInt8)
    (call : Call) : Sound serverIndex lag (e.onReadPacket socket bytes call) := by
  unfold RelayEntry.onReadPacket
  split
  · exact sound
  · next c current =>
    by_cases elsewhere : socket ≠ c.socket ∨ c.closed = true
    · rw [if_pos elsewhere]
      exact sound
    · have open' : c.closed = false := by simpa using (not_or.mp elsewhere).2
      rw [if_neg elsewhere]
      by_cases plain : ¬ hasMagicCookie bytes
      · rw [if_pos plain]
        exact sound
      rw [if_neg plain]
      split
      · exact sound
      · next msg _ _ =>
        unfold RelayEntry.checkResponse
        dsimp only
        split
        · exact sound
        · next r _ =>
          let remove (c : RelayConnection) := c.removeRequest msg.transactionId
          have removed {e : RelayEntry} (sound : Sound serverIndex lag e) :
              Sound serverIndex lag { e with currentConnection := e.currentConnection.map remove } :=
            sound.map fun c => ⟨rfl, rfl⟩
          split_ifs
          · refine removed ?_
            unfold RelayEntry.onResponse
            dsimp only
            split
            · exact (sound.onConnect current open').scheduleKeepAlive call
            · exact sound.scheduleKeepAlive call
          · refine removed ?_
            unfold RelayEntry.onErrorResponse
            split
            · exact sound.scheduleKeepAlive call
            · exact sound
          · exact sound

theorem Sound.onMessage (sound : Sound serverIndex 1 e)
    (all : e.attempts.length = e.failed.length) (idle : e.connected = false) (call : Call) :
    Sound serverIndex 0 (e.onMessage call) := by
  unfold RelayEntry.onMessage
  split
  · next c is =>
    have signalled := sound.signal (s := .softTimeout c.protocolAddress) idle
      fun _ => Signal.noConfusion
    exact signalled.handleConnectFailure all idle (congrArg (Option.map _) is).symm call
  · next is => exact sound.handleConnectFailure all idle (congrArg (Option.map _) is).symm call

/-- A connection that is found is the current one, or one whose attempt has failed. -/
theorem Sound.find (sound : Sound serverIndex lag e) {socket : Nat} {c : RelayConnection}
    (found : e.findConnection socket = some c) :
    (e.currentConnection = some c ∧ c.socket = socket) ∨
      ((∀ c ∈ e.currentConnection, c.socket ≠ socket) ∧ socket ∈ e.failed) := by
  have named : c.socket = socket := by simpa using List.find?_some found
  cases is : e.currentConnection with
  | none =>
    obtain current | disposed := List.mem_append.mp (List.mem_of_find?_eq_some found)
    · rw [is] at current
      cases current
    · exact .inr ⟨nofun, sound.mem_failed.mpr (named ▸ sound.disposed c disposed)⟩
  | some first =>
    by_cases here : first.socket = socket
    · refine .inl ⟨?_, named⟩
      rw [findConnection, connections, is] at found
      simpa [here] using found
    · obtain current | disposed := List.mem_append.mp (List.mem_of_find?_eq_some found)
      · rw [is] at current
        obtain rfl := List.mem_singleton.mp current
        exact absurd named here
      · refine .inr ⟨fun c is => ?_, sound.mem_failed.mpr (named ▸ sound.disposed c disposed)⟩
        obtain rfl := Option.some.inj is
        exact here

/-- A socket fails, once its connection has been acted on. -/
theorem Sound.socketFails (sound : Sound serverIndex 0 e) {input : Input} (timely : e.Timely input)
    {socket : Nat} {c : RelayConnection} (found : e.findConnection socket = some c)
    (fails : e.fails input = (some socket).filter fun attempt =>
      e.currentConnection.any fun c => c.socket = attempt)
    {f : RelayConnection → RelayConnection} (same : ∀ c, (f c).socket = c.socket) (call : Call) :
    Sound serverIndex 0 (((e.note (some socket)).modify socket f).handleConnectFailure
      (some socket) call) := by
  obtain ⟨current, rfl⟩ | ⟨other, known⟩ := sound.find found
  · have failing : c.socket ∈ e.fails input := by
      rw [fails, current]
      simp
    obtain ⟨idle, last, unknown⟩ := timely _ failing
    obtain ⟨noted, all⟩ := sound.note last unknown
    have acted := noted.modify c.socket same fun connected =>
      absurd (connected.symm.trans idle) nofun
    refine acted.handleConnectFailure all idle ?_ call
    change some c.socket = (e.currentConnection.map _).map _
    rw [current]
    simp [same]
  · rw [note_of_mem known]
    have acted := sound.modify socket same fun _ c is here => absurd here (other c is)
    refine acted.handleOther (fun c member => ?_) call
    obtain ⟨old, is, rfl⟩ := Option.map_eq_some_iff.mp member
    rw [if_neg (other old is)]
    exact other old is

theorem Sound.connectTimeout (sound : Sound serverIndex 0 e) {attempt : Nat}
    (timely : e.Timely (.connectTimeout attempt)) (call : Call) :
    Sound serverIndex 0
      ((e.note (e.reports (.connectTimeout attempt))).act (.connectTimeout attempt) call) := by
  by_cases pending : attempt ∈ e.timeouts
  · have reported : e.reports (.connectTimeout attempt) = some attempt := if_pos pending
    obtain ⟨idle, last, unknown⟩ := timely attempt reported
    obtain ⟨noted, all⟩ := sound.note last unknown
    have taken : Sound serverIndex 1
        { e.note (some attempt) with timeouts := e.timeouts.erase attempt } :=
      ⟨noted.signals, noted.index, noted.failed, noted.attempts, noted.connected, noted.latest,
        noted.current, noted.disposed, noted.quiet⟩
    unfold act
    rw [reported]
    dsimp only
    rw [if_pos (show attempt ∈ (e.note (some attempt)).timeouts from pending)]
    exact taken.onMessage all idle call
  · have reported : e.reports (.connectTimeout attempt) = none := if_neg pending
    unfold act
    rw [reported]
    dsimp only
    rw [if_neg (show attempt ∉ (e.note none).timeouts from pending)]
    exact sound

theorem Sound.socketClose (sound : Sound serverIndex 0 e) {socket : Nat}
    (timely : e.Timely (.socketClose socket)) (call : Call) :
    Sound serverIndex 0
      ((e.note (e.reports (.socketClose socket))).act (.socketClose socket) call) := by
  by_cases heard : (e.findConnection socket).any isOpen
  · have reported : e.reports (.socketClose socket) = some socket := if_pos heard
    obtain ⟨c, found, -⟩ := Option.any_eq_true _ _ |>.mp heard
    have fails := sound.socketFails (f := fun c => { c with closed := true }) timely found
      (congrArg (Option.filter _) reported) (fun _ => rfl) call
    unfold act
    rw [reported]
    dsimp only
    rw [if_pos (show ((e.note (some socket)).findConnection socket).any isOpen from heard)]
    exact fails
  · have reported : e.reports (.socketClose socket) = none := if_neg heard
    unfold act
    rw [reported]
    dsimp only
    rw [if_neg (show ¬ ((e.note none).findConnection socket).any isOpen from heard)]
    exact sound

theorem Sound.stunSend (sound : Sound serverIndex 0 e) {socket : Nat} {id : List UInt8}
    (timely : e.Timely (.stunSend socket id)) (call : Call) :
    Sound serverIndex 0
      ((e.note (e.reports (.stunSend socket id))).act (.stunSend socket id) call) := by
  by_cases exhausted : ((e.findConnection socket).bind (·.findRequest id)).any (·.timeout)
  · have reported : e.reports (.stunSend socket id) = some socket := if_pos exhausted
    obtain ⟨r, request, timeout⟩ := Option.any_eq_true _ _ |>.mp exhausted
    obtain ⟨c, found, -⟩ := Option.bind_eq_some_iff.mp request
    have fails := sound.socketFails (f := (·.removeRequest id)) timely found
      (congrArg (Option.filter _) reported) (fun _ => rfl) call
    have request : ((e.note (some socket)).findConnection socket).bind (·.findRequest id) =
        some r := request
    simp only [act, reported, request, timeout, if_true]
    exact fails
  · have reported : e.reports (.stunSend socket id) = none := if_neg exhausted
    rw [reported]
    unfold act
    dsimp only
    split
    · exact sound
    · next r request =>
      have request : (e.findConnection socket).bind (·.findRequest id) = some r := request
      rw [request, Option.any_some] at exhausted
      rw [if_neg exhausted]
      exact sound.modify socket (fun _ => rfl) fun _ _ _ _ => rfl

theorem Sound.step (sound : Sound serverIndex 0 e) {input : Input × Call}
    (timely : e.Timely input.1) : Sound serverIndex 0 (e.step input) := by
  obtain ⟨input, call⟩ := input
  unfold RelayEntry.step
  split
  · exact sound
  · cases input with
    | connectTimeout attempt => exact sound.connectTimeout timely call
    | socketConnect socket =>
      have answered : Sound serverIndex 0 (e.onSocketConnect call) :=
        sound.map fun c => sendAllocateRequest_same c call
      unfold act
      dsimp only
      split
      · exact answered
      · exact sound
    | socketClose socket => exact sound.socketClose timely call
    | packet socket bytes => exact sound.onReadPacket socket bytes call
    | stunSend socket id => exact sound.stunSend timely call
    | delete socket =>
      exact ⟨sound.signals, sound.index, sound.failed, sound.attempts, sound.connected,
        sound.latest, sound.current,
        fun c member => sound.disposed c (List.mem_of_mem_filter member), sound.quiet⟩

theorem sound_start (serverAddr : List ProtocolAddress) (serverIndex : Nat) (call : Call) :
    Sound serverIndex 0 (start serverAddr serverIndex call) := by
  have new : Sound serverIndex 0 (new serverAddr serverIndex) :=
    ⟨.nil, rfl, rfl, rfl, nofun, ⟨Nat.le_refl _, Nat.zero_le _⟩, nofun, nofun, fun _ _ => nofun⟩
  exact new.connect rfl call

/-- In a run in which only the latest attempt of an entry that is not connected fails, and
once, the servers are tried one after another. -/
theorem consistent_of_timely (serverAddr : List ProtocolAddress) (serverIndex : Nat) (call : Call)
    (inputs : List (Input × Call))
    (timely : Along step (fun e input => e.Timely input.1) (start serverAddr serverIndex call)
      inputs) :
    Consistent serverIndex (runInputs step (start serverAddr serverIndex call) inputs) :=
  (timely.invariant (fun _ _ timely sound => Sound.step sound timely)
    (sound_start serverAddr serverIndex call)).consistent

/-! ## A timeout that comes late -/

def tcpServer (ip : BitVec 32) : ProtocolAddress := ⟨⟨.v4 ip, 443⟩, .tcp⟩

def requestId : TransactionId := ⟨List.replicate transactionIdLength 7, rfl⟩

def callAt (now : UInt32) : Call := ⟨now, true, requestId⟩

/-- The first server cannot be reached in time, the second can. -/
def reachSecond : List (Input × Call) :=
  [(.connectTimeout 0, callAt 3000), (.socketConnect 1, callAt 3100),
    (.stunSend 1 requestId.1, callAt 3100),
    (.packet 1 (allocateResponse (allocateRequest requestId.1 []) ⟨.v4 9, 5000⟩ 0).write,
      callAt 3200)]

theorem consistent_of_timely_second :
    (runInputs step (start [tcpServer 1, tcpServer 2] 0 (callAt 0)) reachSecond).connected = true ∧
      Consistent 0 (runInputs step (start [tcpServer 1, tcpServer 2] 0 (callAt 0)) reachSecond) :=
  ⟨by decide +kernel,
    consistent_of_timely [tcpServer 1, tcpServer 2] 0 (callAt 0) reachSecond (by decide +kernel)⟩

/-- The timeout of the second attempt comes when its allocate request has succeeded. -/
theorem not_consistent_late_timeout :
    ¬ Consistent 0 (runInputs step (start [tcpServer 1, tcpServer 2] 0 (callAt 0))
      (reachSecond ++ [(.connectTimeout 1, callAt 6000)])) := by
  intro consistent
  have signals := consistent.signals
  have raised : (runInputs step (start [tcpServer 1, tcpServer 2] 0 (callAt 0))
      (reachSecond ++ [(.connectTimeout 1, callAt 6000)])).signals =
      [.softTimeout (tcpServer 1), .connectFailure (tcpServer 1), .allocated (tcpServer 2),
        .softTimeout (tcpServer 2), .connectFailure (tcpServer 2)] := by
    decide +kernel
  rw [raised] at signals
  have late := List.pairwise_iff_getElem.mp signals 2 4 (by decide) (by decide) (by decide)
  exact late (tcpServer 2) rfl rfl

end RelayEntry

end Libjingle.Relay.Failover

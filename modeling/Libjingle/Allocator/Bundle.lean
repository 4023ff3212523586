import Libjingle.Allocator.Moves
import Libjingle.Std.OrderedMap
import Mathlib.Data.List.Nodup
import Mathlib.Data.String.Basic

/-!
# Bundled sessions

With `PORTALLOCATOR_ENABLE_BUNDLE` the sessions of one session id are proxies of a single
session, which a muxer owns. The signals of the session go to all proxies that there are
at that moment, and a proxy forwards the calls of its owner.
-/

namespace Libjingle.Allocator

open Libjingle.Std

variable {α : Type}

/-- `PortAllocatorSessionProxy`. -/
structure SessionProxy (α : Type) where
  /-- Tells the proxy from all others. -/
  id : Nat
  name : String
  /-- `GetInitialPorts` has been called. -/
  asked : Bool := false
  /-- The ports of `SignalPortReady`, in order. -/
  portReady : List Nat := []
  /-- The candidates of `SignalCandidatesReady`, in order. -/
  candidatesReady : List (List (Candidate α)) := []
deriving DecidableEq

namespace SessionProxy

def onPortReady (proxy : SessionProxy α) (port : Nat) : SessionProxy α :=
  { proxy with portReady := proxy.portReady ++ [port] }

/-- All candidates get the name of the proxy. -/
def onCandidatesReady (proxy : SessionProxy α) (candidates : List (Announcement α)) :
    SessionProxy α :=
  let ourCandidates := candidates.map fun a => { a.candidate with name := proxy.name }
  { proxy with candidatesReady := proxy.candidatesReady ++ [ourCandidates] }

/-- What a proxy calls on its session; `StopGetAllPorts` is forwarded to `StartGetAllPorts`. -/
def implCall : Call → Call
  | .getInitialPorts => .getInitialPorts
  | .startGetAllPorts => .startGetAllPorts
  | .stopGetAllPorts => .startGetAllPorts

end SessionProxy

/-- `PortAllocatorSessionMuxer`. -/
structure SessionMuxer (α : Type) where
  session : Session α
  ports : List Nat := []
  sessionProxies : List (SessionProxy α) := []
  /-- Whether the last call of `StartGetAllPorts` and `StopGetAllPorts` on the proxies was one to
  start. -/
  wanted : Option Bool := none

namespace SessionMuxer

variable (m : SessionMuxer α)

def registerSessionProxy (proxy : SessionProxy α) : SessionMuxer α :=
  { m with sessionProxies := m.sessionProxies ++ [proxy] }

/-- The session does something, and what it signals goes to the muxer and to its proxies. -/
def run (f : Session α → Session α) : SessionMuxer α :=
  let ready := (f m.session).portReady.drop m.session.portReady.length
  let candidates := (f m.session).candidatesReady.drop m.session.candidatesReady.length
  { m with
    session := f m.session
    ports := m.ports ++ ready
    sessionProxies := m.sessionProxies.map fun proxy =>
      candidates.foldl SessionProxy.onCandidatesReady (ready.foldl SessionProxy.onPortReady proxy) }

def onPortDestroyed (serial : Nat) : SessionMuxer α := { m with ports := m.ports.erase serial }

/-- A method of a proxy, with the calls noted that the law is about. -/
def call [DecidableEq α] (id : Nat) (call : Call) : SessionMuxer α :=
  if m.sessionProxies.any fun proxy => proxy.id = id then
    let m : SessionMuxer α := match call with
      | .getInitialPorts =>
        { m with sessionProxies := m.sessionProxies.map fun proxy =>
            if proxy.id = id then { proxy with asked := true } else proxy }
      | .startGetAllPorts => { m with wanted := some true }
      | .stopGetAllPorts => { m with wanted := some false }
    m.run fun session => session.call (SessionProxy.implCall call)
  else m

def event [DecidableEq α] (event : Event α) : SessionMuxer α :=
  let m := m.run fun session => session.event event
  match event with
  | .portDestroyed serial => m.onPortDestroyed serial
  | _ => m

def onSessionProxyDestroyed (id : Nat) : SessionMuxer α :=
  { m with sessionProxies := m.sessionProxies.filter fun proxy => proxy.id ≠ id }

end SessionMuxer

/-- What `CreateSession` returns. -/
inductive Created (α : Type) where
  | proxy (id : Nat)
  | plain (session : Session α)

structure PortAllocator (α : Type) where
  flags : Flags := {}
  basic : BasicPortAllocator α := {}
  muxers : OrderedMap String (SessionMuxer α) := .empty
  /-- How many proxies have been made. -/
  proxiesMade : Nat := 0

namespace PortAllocator

variable (a : PortAllocator α)

def createSession (sid name : String) : PortAllocator α × Created α :=
  if a.flags.enableBundle then
    let muxer := (a.muxers.get sid).getD { session := .start name a.flags a.basic }
    let proxy : SessionProxy α := { id := a.proxiesMade, name := name }
    ({ a with
      muxers := a.muxers.insert sid (muxer.registerSessionProxy proxy)
      proxiesMade := a.proxiesMade + 1 }, .proxy proxy.id)
  else (a, .plain (.start name a.flags a.basic))

/-- The end of a proxy; the muxer goes with its last proxy. -/
def destroyProxy (sid : String) (id : Nat) : PortAllocator α :=
  match a.muxers.get sid with
  | none => a
  | some muxer =>
    let muxer := muxer.onSessionProxyDestroyed id
    if muxer.sessionProxies = [] then { a with muxers := a.muxers.erase sid }
    else { a with muxers := a.muxers.insert sid muxer }

/-- A connection has become writable, which all sessions of the allocator get to know. -/
def addWritablePhase [DecidableEq α] (phase : Nat) : PortAllocator α :=
  { a with
    basic := a.basic.addWritablePhase phase
    muxers := a.muxers.mapValues fun muxer => muxer.event (.writablePhase phase) }

inductive Step (α : Type) where
  | createSession (sid name : String)
  | destroyProxy (sid : String) (id : Nat)
  | call (sid : String) (id : Nat) (call : Call)
  | event (sid : String) (event : Event α)

/-- An allocator that has not made a session. -/
def start (flags : Flags) (basic : BasicPortAllocator α) : PortAllocator α where
  flags := flags
  basic := basic

def step [DecidableEq α] (a : PortAllocator α) : Step α → PortAllocator α
  | .createSession sid name => (a.createSession sid name).1
  | .destroyProxy sid id => a.destroyProxy sid id
  | .call sid id call => { a with muxers := a.muxers.modify sid fun muxer => muxer.call id call }
  | .event _ (.writablePhase phase) => a.addWritablePhase phase
  | .event sid event => { a with muxers := a.muxers.modify sid fun muxer => muxer.event event }

end PortAllocator

/-! ## What a session has signalled -/

namespace Session

/-- A live port has been signalled if it is ready, and no port twice. -/
structure Logged (s : Session α) : Prop where
  numbered : s.Numbered
  distinct : s.serials.Nodup
  once : s.portReady.Nodup
  known : ∀ serial ∈ s.portReady, serial < s.portsAdded
  ready : ∀ pd ∈ s.ports, pd.port.serial ∈ s.portReady ↔ pd.ready

/-- Signals are added at the end, and a live port is an old one or has a new number. -/
structure Later (s t : Session α) : Prop where
  signals : s.portReady <+: t.portReady
  ports : ∀ serial ∈ t.serials, serial < s.portsAdded → serial ∈ s.serials
  portsAdded : s.portsAdded ≤ t.portsAdded

namespace Later

variable {s t u : Session α}

theorem refl (s : Session α) : Later s s := ⟨List.prefix_rfl, fun _ live _ => live, Nat.le_refl _⟩

theorem trans (first : Later s t) (second : Later t u) : Later s u where
  signals := first.signals.trans second.signals
  ports serial live old :=
    first.ports serial (second.ports serial live (Nat.lt_of_lt_of_le old first.portsAdded)) old
  portsAdded := Nat.le_trans first.portsAdded second.portsAdded

end Later

namespace Logged

variable {s t : Session α} {strict : Prop}

theorem start (name : String) (flags : Flags) (allocator : BasicPortAllocator α) :
    Logged (start name flags allocator) :=
  ⟨nofun, .nil, .nil, nofun, nofun⟩

/-- A change of a port that is not about being ready. -/
theorem modifyPort (logged : Logged s) (serial : Nat) {f : PortData α → PortData α}
    (number : ∀ pd, (f pd).port.serial = pd.port.serial) (gate : ∀ pd, (f pd).ready = pd.ready) :
    Logged (s.modifyPort serial f) where
  numbered k member := logged.numbered k (serials_modifyPort s serial number ▸ member)
  distinct := serials_modifyPort s serial number ▸ logged.distinct
  once := logged.once
  known := logged.known
  ready pd member := by
    obtain ⟨old, live, rfl⟩ := List.mem_map.mp member
    have same := logged.ready old live
    split
    · rw [number, gate]
      exact same
    · exact same

theorem addAllocatedPort (logged : Logged s) (seq : Nat) : Logged (s.addAllocatedPort seq) := by
  have added : (s.addAllocatedPort seq).serials = s.serials ++ [s.portsAdded] := List.map_append
  refine ⟨(Move.port s seq : Move False s _).numbered logged.numbered, ?_, logged.once,
    fun k member => Nat.lt_succ_of_lt (logged.known k member), fun pd member => ?_⟩
  · have new : s.portsAdded ∉ s.serials := fun member =>
      absurd (logged.numbered _ member) (Nat.lt_irrefl _)
    rw [added]
    exact logged.distinct.append (List.nodup_singleton _) (by simpa using new)
  · obtain old | new := List.mem_append.mp member
    · exact logged.ready pd old
    · obtain rfl := List.mem_singleton.mp new
      constructor
      · intro before
        exact absurd (logged.known _ before) (Nat.lt_irrefl _)
      · nofun

theorem onPortDestroyed (logged : Logged s) (serial : Nat) : Logged (s.onPortDestroyed serial) := by
  have kept : (s.onPortDestroyed serial).serials.Sublist s.serials := List.filter_sublist.map _
  exact ⟨fun k member => logged.numbered k (kept.subset member), logged.distinct.sublist kept,
    logged.once, logged.known, fun pd member => logged.ready pd (List.mem_filter.mp member).1⟩

/-- A session that differs in nothing that is signalled. -/
theorem congr (logged : Logged s) (ports : t.ports = s.ports) (portsAdded : t.portsAdded = s.portsAdded)
    (portReady : t.portReady = s.portReady) : Logged t := by
  have serials : t.serials = s.serials := congrArg (List.map _) ports
  refine ⟨?_, serials ▸ logged.distinct, portReady ▸ logged.once, ?_, ?_⟩
  · intro k member
    rw [portsAdded]
    exact logged.numbered k (serials ▸ member)
  · rw [portReady, portsAdded]
    exact logged.known
  · rw [ports, portReady]
    exact logged.ready

/-- A port is signalled when it becomes ready, and only then. -/
theorem onAddressReady (logged : Logged s) (serial : Nat) : Logged (s.onAddressReady serial) := by
  obtain same | ⟨pd, found, unready, same⟩ := onAddressReady_cases s serial
  · rwa [same]
  obtain ⟨live, rfl⟩ := findPort_eq_some found
  have new : pd.port.serial ∉ s.portReady := by
    rw [logged.ready pd live, unready]
    nofun
  rw [same]
  refine congr (s := { s.modifyPort pd.port.serial fun pd => { pd with ready := true } with
    portReady := s.portReady ++ [pd.port.serial] }) ?_ (ports_signalCandidatesReady _ _)
    (portsAdded_signalCandidatesReady _ _) (portReady_signalCandidatesReady _ _)
  have serials := serials_modifyPort s pd.port.serial
    (f := fun pd => { pd with ready := true }) fun _ => rfl
  refine ⟨fun k member => logged.numbered k (serials ▸ member), serials ▸ logged.distinct,
    logged.once.append (List.nodup_singleton _) (by simpa using new), fun k member => ?_,
    fun pd' member => ?_⟩
  · obtain before | now := List.mem_append.mp member
    · exact logged.known k before
    · rw [List.mem_singleton.mp now]
      exact logged.numbered _ (List.mem_map_of_mem live)
  · obtain ⟨old, oldLive, rfl⟩ := List.mem_map.mp member
    rw [List.mem_append, List.mem_singleton]
    split
    · next here => exact ⟨fun _ => rfl, fun _ => .inr here⟩
    · next elsewhere => simpa [elsewhere] using logged.ready old oldLive

theorem enableProtocol (logged : Logged s) (seq : Nat) (proto : ProtocolType) :
    Logged (s.enableProtocol seq proto) := by
  obtain same | ⟨_, same⟩ := enableProtocol_cases s seq proto
  · rwa [same]
  · rw [same]
    exact logged.congr (ports_signalCandidatesReady _ _) (portsAdded_signalCandidatesReady _ _)
      (portReady_signalCandidatesReady _ _)

end Logged

namespace Move

variable {s t : Session α} {strict : Prop}

theorem logged (move : Move strict s t) (logged : Logged s) : Logged t := by
  cases move with
  | quiet quiet => exact logged.congr quiet.ports quiet.portsAdded quiet.portReady
  | relayReady serial => exact logged.modifyPort serial (fun _ => rfl) fun _ => rfl
  | candidate => exact logged.modifyPort _ (fun _ => rfl) fun _ => rfl
  | port seq => exact logged.addAllocatedPort seq
  | ready serial => exact logged.onAddressReady serial
  | enable proto => exact logged.enableProtocol _ proto

theorem signals (move : Move strict s t) : s.portReady <+: t.portReady := by
  cases move with
  | quiet quiet => exact quiet.portReady ▸ List.prefix_rfl
  | relayReady | candidate | port => exact List.prefix_rfl
  | ready serial =>
    obtain same | ⟨pd, _, _, same⟩ := onAddressReady_cases s serial
    · exact same.symm ▸ List.prefix_rfl
    · rw [same, portReady_signalCandidatesReady]
      exact List.prefix_append _ _
  | @enable seq proto made =>
    obtain same | ⟨_, same⟩ := enableProtocol_cases s seq proto
    · exact same.symm ▸ List.prefix_rfl
    · rw [same, portReady_signalCandidatesReady]
      exact List.prefix_rfl

theorem later (move : Move strict s t) : Later s t where
  signals := move.signals
  ports serial live old := by
    obtain ⟨ports, -⟩ | ⟨ports, -⟩ := move.serials
    · exact ports ▸ live
    · rw [ports, List.mem_append, List.mem_singleton] at live
      exact live.resolve_right (Nat.ne_of_lt old)
  portsAdded := by
    obtain ⟨-, added⟩ | ⟨-, added⟩ := move.serials
    · exact Nat.le_of_eq added.symm
    · exact added ▸ Nat.le_succ _

end Move

theorem Moves.logged {s t : Session α} {strict : Prop} (moves : Moves strict s t)
    (logged : Logged s) : Logged t ∧ Later s t := by
  induction moves with
  | refl => exact ⟨logged, .refl s⟩
  | tail _ move ih => exact ⟨move.logged ih.1, ih.2.trans move.later⟩

section Operations

variable [DecidableEq α] {s : Session α}

theorem Logged.call (logged : Logged s) (call : Call) :
    Logged (s.call call) ∧ Later s (s.call call) ∧
      (s.call call).running = call.getting s.running := by
  have moves := call_moves False logged.numbered call
  have begun : Logged { s with running := call.getting s.running } := logged.congr rfl rfl rfl
  obtain ⟨logged', later⟩ := moves.logged begun
  exact ⟨logged', ⟨later.signals, later.ports, later.portsAdded⟩, moves.running⟩

theorem Logged.event (logged : Logged s) (event : Event α) :
    Logged (s.event event) ∧ Later s (s.event event) ∧ (s.event event).running = s.running := by
  have timely (strict : False) : s.Timely (.event event) := strict.elim
  obtain ⟨serial, rfl⟩ | moves := event_cases False logged.numbered timely
  · refine ⟨logged.onPortDestroyed serial, ⟨List.prefix_rfl, fun k live _ => ?_, Nat.le_refl _⟩, rfl⟩
    exact (List.filter_sublist.map _).subset live
  · exact ⟨(moves.logged logged).1, (moves.logged logged).2, moves.running⟩

end Operations

end Session

/-! ## What the proxies have signalled -/

namespace SessionMuxer

/-- What the owners of the proxies rely on. -/
structure Plain (m : SessionMuxer α) : Prop where
  calls : ∀ getting, m.wanted = some getting → m.session.isGettingAllPorts = getting
  signalled : ∀ proxy ∈ m.sessionProxies, proxy.asked → ∀ pd ∈ m.session.ports, pd.ready →
    proxy.portReady.count pd.port.serial = 1

/-- What the proxy has not signalled became ready before it was made. -/
structure Sound (m : SessionMuxer α) : Prop where
  logged : m.session.Logged
  calls : ∀ getting, m.wanted = some getting → m.session.running = getting
  heard : ∀ proxy ∈ m.sessionProxies, proxy.portReady <:+ m.session.portReady
  asked : ∀ proxy ∈ m.sessionProxies, proxy.asked → ∀ serial ∈ m.session.serials,
    serial ∈ m.session.portReady → serial ∈ proxy.portReady

theorem Sound.plain {m : SessionMuxer α} (sound : Sound m) : Plain m where
  calls := sound.calls
  signalled proxy member asked pd live ready := by
    refine List.count_eq_one_of_mem (sound.logged.once.sublist (sound.heard proxy member).sublist) ?_
    exact sound.asked proxy member asked _ (List.mem_map_of_mem live)
      ((sound.logged.ready pd live).mpr ready)

theorem portReady_foldl (ready : List Nat) (proxy : SessionProxy α) :
    ready.foldl SessionProxy.onPortReady proxy =
      { proxy with portReady := proxy.portReady ++ ready } := by
  induction ready generalizing proxy with
  | nil => rw [List.foldl_nil, List.append_nil]
  | cons port rest ih => rw [List.foldl_cons, ih, SessionProxy.onPortReady, List.append_assoc]; rfl

theorem candidates_foldl (candidates : List (List (Announcement α))) (proxy : SessionProxy α) :
    (candidates.foldl SessionProxy.onCandidatesReady proxy).portReady = proxy.portReady ∧
      (candidates.foldl SessionProxy.onCandidatesReady proxy).asked = proxy.asked := by
  induction candidates generalizing proxy with
  | nil => exact ⟨rfl, rfl⟩
  | cons first rest ih => exact ih (proxy.onCandidatesReady first)

/-- Whatever the session does, its proxies keep up with it. -/
theorem Sound.run {m : SessionMuxer α} (sound : Sound m) {f : Session α → Session α}
    (logged : (f m.session).Logged) (later : m.session.Later (f m.session)) {wanted : Option Bool}
    (running : ∀ getting, wanted = some getting → (f m.session).running = getting) :
    Sound ({ m with wanted := wanted }.run f) := by
  obtain ⟨new, signals⟩ := later.signals
  have proxies {proxy' : SessionProxy α} (member : proxy' ∈ (m.run f).sessionProxies) :
      ∃ proxy ∈ m.sessionProxies, proxy'.portReady = proxy.portReady ++ new ∧
        proxy'.asked = proxy.asked := by
    obtain ⟨proxy, old, rfl⟩ := List.mem_map.mp member
    refine ⟨proxy, old, ?_⟩
    rw [(candidates_foldl _ _).1, (candidates_foldl _ _).2, portReady_foldl, ← signals,
      List.drop_left]
    exact ⟨rfl, rfl⟩
  refine ⟨logged, running, fun proxy' member => ?_, fun proxy' member asked serial live ready => ?_⟩
  · obtain ⟨proxy, old, portReady, -⟩ := proxies member
    obtain ⟨before, shape⟩ := sound.heard proxy old
    refine ⟨before, ?_⟩
    rw [portReady, ← List.append_assoc, shape]
    exact signals
  · obtain ⟨proxy, old, portReady, same⟩ := proxies member
    have signalled : serial ∈ m.session.portReady ++ new := signals ▸ ready
    rw [portReady, List.mem_append]
    obtain before | now := List.mem_append.mp signalled
    · -- It was signalled before, so its number is an old one.
      have wasLive := later.ports serial live (sound.logged.known serial before)
      exact .inl (sound.asked proxy old (same ▸ asked) serial wasLive before)
    · exact .inr now

theorem Sound.registerSessionProxy {m : SessionMuxer α} (sound : Sound m)
    {proxy : SessionProxy α} (silent : proxy.portReady = []) (quiet : proxy.asked = false) :
    Sound (m.registerSessionProxy proxy) where
  logged := sound.logged
  calls := sound.calls
  heard proxy' member := by
    obtain old | new := List.mem_append.mp member
    · exact sound.heard proxy' old
    · rw [List.mem_singleton.mp new, silent]
      exact List.nil_suffix
  asked proxy' member asked := by
    obtain old | new := List.mem_append.mp member
    · exact sound.asked proxy' old asked
    · rw [List.mem_singleton.mp new, quiet] at asked
      cases asked

theorem Sound.onSessionProxyDestroyed {m : SessionMuxer α} (sound : Sound m) (id : Nat) :
    Sound (m.onSessionProxyDestroyed id) where
  logged := sound.logged
  calls := sound.calls
  heard proxy member := sound.heard proxy (List.mem_filter.mp member).1
  asked proxy member := sound.asked proxy (List.mem_filter.mp member).1

/-- A proxy that asks for its initial ports has signalled every port that is ready, and no
proxy is told to stop. -/
def InTime (m : SessionMuxer α) (id : Nat) : Call → Prop
  | .getInitialPorts => ∀ proxy ∈ m.sessionProxies, proxy.id = id → ∀ pd ∈ m.session.ports,
      pd.ready → pd.port.serial ∈ proxy.portReady
  | .startGetAllPorts => True
  | .stopGetAllPorts => False

instance (m : SessionMuxer α) (id : Nat) : DecidablePred (m.InTime id) := fun call => by
  unfold InTime
  split <;> infer_instance

/-- A proxy that has signalled all ready ports may ask. -/
theorem Sound.ask {m : SessionMuxer α} (sound : Sound m) {id : Nat}
    (inTime : m.InTime id .getInitialPorts) :
    Sound { m with sessionProxies := m.sessionProxies.map fun proxy =>
      if proxy.id = id then { proxy with asked := true } else proxy } where
  logged := sound.logged
  calls := sound.calls
  heard proxy' member := by
    obtain ⟨proxy, old, rfl⟩ := List.mem_map.mp member
    have heard := sound.heard proxy old
    split <;> exact heard
  asked proxy' member asked serial live signalled := by
    obtain ⟨proxy, old, rfl⟩ := List.mem_map.mp member
    split at asked
    · next here =>
      rw [if_pos here]
      obtain ⟨pd, port, rfl⟩ := List.mem_map.mp live
      exact inTime proxy old here pd port ((sound.logged.ready pd port).mp signalled)
    · next elsewhere =>
      rw [if_neg elsewhere]
      exact sound.asked proxy old asked serial live signalled

section Calls

variable [DecidableEq α] {m : SessionMuxer α}

theorem Sound.event (sound : Sound m) (event : Event α) : Sound (m.event event) := by
  obtain ⟨logged, later, running⟩ := sound.logged.event event
  have ran := sound.run (f := fun session => session.event event) logged later
    fun getting wanted => running.trans (sound.calls getting wanted)
  unfold SessionMuxer.event
  split
  · exact ⟨ran.logged, ran.calls, ran.heard, ran.asked⟩
  · exact ran

theorem Sound.call (sound : Sound m) (id : Nat) {call : Call} (inTime : m.InTime id call) :
    Sound (m.call id call) := by
  unfold SessionMuxer.call
  split
  · cases call with
    | stopGetAllPorts => exact inTime.elim
    | startGetAllPorts =>
      obtain ⟨logged, later, running⟩ := sound.logged.call .startGetAllPorts
      exact sound.run logged later fun _ wanted => running.trans (Option.some.inj wanted)
    | getInitialPorts =>
      obtain ⟨logged, later, running⟩ := sound.logged.call .getInitialPorts
      exact (sound.ask inTime).run logged later fun getting wanted =>
        running.trans (sound.calls getting wanted)
  · exact sound

end Calls

end SessionMuxer

namespace PortAllocator

/-- The calls on a proxy are made in time. -/
def InTime (a : PortAllocator α) : Step α → Prop
  | .call sid id call => ∀ muxer ∈ a.muxers.get sid, muxer.InTime id call
  | _ => True

instance (a : PortAllocator α) : DecidablePred a.InTime := fun step => by
  unfold InTime
  split <;> infer_instance

/-- All shared sessions are as their muxers assume. -/
def Sound (a : PortAllocator α) : Prop := ∀ sid, ∀ muxer ∈ a.muxers.get sid, muxer.Sound

theorem Sound.start (flags : Flags) (basic : BasicPortAllocator α) : Sound (start flags basic) := by
  intro sid muxer found
  rw [PortAllocator.start, OrderedMap.get_empty] at found
  cases found

theorem Sound.createSession {a : PortAllocator α} (sound : Sound a) (sid name : String) :
    Sound (a.createSession sid name).1 := by
  unfold PortAllocator.createSession
  split
  · have base : SessionMuxer.Sound
        ((a.muxers.get sid).getD { session := .start name a.flags a.basic }) := by
      cases found : a.muxers.get sid with
      | none => exact ⟨.start name a.flags a.basic, nofun, nofun, nofun⟩
      | some muxer => exact sound sid muxer found
    intro sid' muxer found
    rw [Option.mem_def, OrderedMap.get_insert] at found
    split at found
    · obtain rfl := Option.some.inj found
      exact base.registerSessionProxy rfl rfl
    · exact sound sid' muxer found
  · exact sound

theorem Sound.destroyProxy {a : PortAllocator α} (sound : Sound a) (sid : String) (id : Nat) :
    Sound (a.destroyProxy sid id) := by
  unfold PortAllocator.destroyProxy
  split
  · exact sound
  · next muxer found =>
    have left := (sound sid muxer found).onSessionProxyDestroyed id
    intro sid' muxer' found'
    dsimp only at found'
    split at found'
    · rw [Option.mem_def, OrderedMap.get_erase] at found'
      split at found'
      · cases found'
      · exact sound sid' muxer' found'
    · rw [Option.mem_def, OrderedMap.get_insert] at found'
      split at found'
      · obtain rfl := Option.some.inj found'
        exact left
      · exact sound sid' muxer' found'

/-- A change of one shared session. -/
theorem Sound.modify {a : PortAllocator α} (sound : Sound a) (sid : String)
    {f : SessionMuxer α → SessionMuxer α} (keeps : ∀ muxer ∈ a.muxers.get sid, (f muxer).Sound) :
    Sound { a with muxers := a.muxers.modify sid f } := by
  intro sid' muxer found
  rw [Option.mem_def, OrderedMap.get_modify] at found
  split at found
  · obtain ⟨old, there, rfl⟩ := Option.map_eq_some_iff.mp found
    exact keeps old there
  · exact sound sid' muxer found

variable [DecidableEq α]

theorem Sound.addWritablePhase {a : PortAllocator α} (sound : Sound a) (phase : Nat) :
    Sound (a.addWritablePhase phase) := by
  intro sid muxer found
  rw [Option.mem_def, PortAllocator.addWritablePhase, OrderedMap.get_mapValues] at found
  obtain ⟨old, there, rfl⟩ := Option.map_eq_some_iff.mp found
  exact (sound sid old there).event _

theorem Sound.step {a : PortAllocator α} (sound : Sound a) {step : Step α}
    (inTime : a.InTime step) : Sound (a.step step) := by
  cases step with
  | createSession sid name => exact sound.createSession sid name
  | destroyProxy sid id => exact sound.destroyProxy sid id
  | call sid id call =>
    exact sound.modify sid fun muxer found => (sound sid muxer found).call id (inTime muxer found)
  | event sid event =>
    have applied : Sound { a with muxers := a.muxers.modify sid fun muxer => muxer.event event } :=
      sound.modify sid fun muxer found => (sound sid muxer found).event event
    cases event with
    | writablePhase phase => exact sound.addWritablePhase phase
    | _ => exact applied

/-- A proxy that gets its session going, and the UDP port that this makes. -/
def firstProxy : List (Step Nat) :=
  [.createSession "s" "rtp", .call "s" 0 .getInitialPorts, .call "s" 0 .startGetAllPorts,
    .event "s" (.networksChanged []), .event "s" (.handle 0 [] {}), .event "s" (.handle 0 [] {}),
    .event "s" (.handle 0 [(⟨0, 4⟩, { udp := some (some 5) })] {})]

end PortAllocator

end Libjingle.Allocator

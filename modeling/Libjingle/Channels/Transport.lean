import Libjingle.Std.OrderedMap
import Mathlib.Data.String.Basic
import Mathlib.Logic.Function.Iterate

/-!
# The channels of a transport

A `Transport` keeps a map from names to channel implementations, each with a count
of the references to it. It creates a channel on the first request for its name,
and destroys it when the last reference goes. Handlers of the transport and of the
proxies are connected to the signals of an implementation; sigslot keeps every
connection it is given, so that a handler connected twice is called twice.

The calls run on the worker thread, one at a time; messages posted to the signaling
thread wait in `posted`.
-/

namespace Libjingle.Channels

open Libjingle.Std

/-- `TransportChannelImpl`, with the objects of `σ` as handlers of its state signals. -/
structure ChannelImpl (σ : Type) where
  /-- Tells the channel from others of its name, before and after it. -/
  serial : Nat
  contentType : String
  readable : Bool := false
  writable : Bool := false
  /-- How often `Connect` was called. -/
  connects : Nat := 0
  /-- How often the transport's handlers have been connected. -/
  listens : Nat := 0
  /-- The proxies whose handlers have been connected. -/
  slots : List σ := []
deriving DecidableEq

/-- The two flags of a channel. -/
inductive StateFlag where
  | readable
  | writable
deriving DecidableEq

structure ChannelMapEntry (σ : Type) where
  impl : ChannelImpl σ
  ref : Nat
deriving DecidableEq

/-- The messages of a transport to itself on the signaling thread. -/
inductive MessageId where
  | readState
  | writeState
  | candidateReady
  | connecting
deriving DecidableEq

/-- What a transport signals on the signaling thread. -/
inductive TransportSignal (γ : Type) where
  | readableState
  | writableState
  | candidatesReady (candidates : List γ)
  | connecting
deriving DecidableEq

structure Transport (σ γ : Type) where
  channels : OrderedMap String (ChannelMapEntry σ) := .empty
  /-- How many channels have been made. -/
  created : Nat := 0
  connectRequested : Bool := false
  readable : Bool := false
  writable : Bool := false
  readyCandidates : List γ := []
  posted : List MessageId := []

namespace ChannelImpl

variable {σ : Type} (impl : ChannelImpl σ)

def connect : ChannelImpl σ := { impl with connects := impl.connects + 1 }

/-- The handlers of the transport are connected to the signals. -/
def listen : ChannelImpl σ := { impl with listens := impl.listens + 1 }

def flag : StateFlag → Bool
  | .readable => impl.readable
  | .writable => impl.writable

def setFlag : StateFlag → Bool → ChannelImpl σ
  | .readable, readable => { impl with readable }
  | .writable, writable => { impl with writable }

theorem flag_setFlag (flag other : StateFlag) (value : Bool) :
    (impl.setFlag flag value).flag other = if other = flag then value else impl.flag other := by
  cases flag <;> cases other <;> rfl

end ChannelImpl

namespace Transport

variable {σ γ : Type}

def post (t : Transport σ γ) (id : MessageId) : Transport σ γ :=
  { t with posted := t.posted ++ [id] }

def getChannel (t : Transport σ γ) (name : String) : Option (ChannelImpl σ) :=
  (t.channels.get name).map ChannelMapEntry.impl

def hasChannel (t : Transport σ γ) (name : String) : Bool := (t.channels.get name).isSome

def modifyChannel (t : Transport σ γ) (name : String) (f : ChannelImpl σ → ChannelImpl σ) :
    Transport σ γ :=
  { t with channels := t.channels.modify name fun e => { e with impl := f e.impl } }

/-- `CreateTransportChannel`, for a name that is not in the map. -/
def createTransportChannel (t : Transport σ γ) (name contentType : String) : Transport σ γ :=
  { t with
    channels := t.channels.insert name ⟨{ serial := t.created, contentType }, 0⟩
    created := t.created + 1 }

def addRef (t : Transport σ γ) (name : String) : Transport σ γ :=
  { t with channels := t.channels.modify name fun e => { e with ref := e.ref + 1 } }

/-- The end of `CreateChannel_w`, where connecting may have been requested before. -/
def joinConnecting (t : Transport σ γ) (name : String) : Transport σ γ :=
  if t.connectRequested then
    let t := t.modifyChannel name ChannelImpl.connect
    if t.channels.size = 1 then t.post .connecting else t
  else t

/-- `CreateChannel_w`: the caller gets the channel under `name`. -/
def createChannel (t : Transport σ γ) (name contentType : String) : Transport σ γ :=
  let t := if t.hasChannel name then t else t.createTransportChannel name contentType
  ((t.addRef name).modifyChannel name ChannelImpl.listen).joinConnecting name

def onChannelReadableState (t : Transport σ γ) : Transport σ γ := t.post .readState

def onChannelWritableState (t : Transport σ γ) : Transport σ γ := t.post .writeState

def onChannelState : StateFlag → Transport σ γ → Transport σ γ
  | .readable, t => t.onChannelReadableState
  | .writable, t => t.onChannelWritableState

/-- `DestroyChannel_w`. -/
def destroyChannel (t : Transport σ γ) (name : String) : Transport σ γ :=
  match t.channels.get name with
  | none => t
  | some e =>
    let ref := e.ref - 1
    let t := { t with channels :=
      if ref = 0 then t.channels.erase name else t.channels.insert name { e with ref } }
    let t := if t.connectRequested ∧ t.channels.isEmpty then t.post .connecting else t
    -- the channel that goes may have been the only one that was not writable
    if ref = 0 then t.onChannelWritableState else t

/-- `ConnectChannels_w`. -/
def connectChannels (t : Transport σ γ) : Transport σ γ :=
  if t.connectRequested ∨ t.channels.isEmpty then t
  else
    let t := { t with connectRequested := true }
    let t := t.post .candidateReady
    let t := { t with channels := t.channels.mapValues fun e => { e with impl := e.impl.connect } }
    if t.channels.isEmpty then t else t.post .connecting

/-- `DestroyAllChannels`, which clears the messages too. -/
def destroyAllChannels (t : Transport σ γ) : Transport σ γ :=
  { t with channels := .empty, posted := [] }

/-- `OnChannelCandidateReady`, as called once. -/
def onChannelCandidateReady (candidate : γ) (t : Transport σ γ) : Transport σ γ :=
  let t := { t with readyCandidates := t.readyCandidates ++ [candidate] }
  if t.connectRequested then t.post .candidateReady else t

/-- A channel raises `SignalCandidateReady`, and every connection is served. -/
def signalCandidateReady (t : Transport σ γ) (name : String) (candidate : γ) : Transport σ γ :=
  match t.getChannel name with
  | none => t
  | some impl => (onChannelCandidateReady candidate)^[impl.listens] t

def getTransportState (t : Transport σ γ) (read : Bool) : Bool :=
  t.channels.values.any fun e => if read then e.impl.readable else e.impl.writable

/-- `OnMessage` on the signaling thread, with what is signalled. -/
def onMessage (t : Transport σ γ) : MessageId → List (TransportSignal γ) × Transport σ γ
  | .readState =>
    let readable := t.getTransportState true
    (if t.readable ≠ readable then [.readableState] else [], { t with readable })
  | .writeState =>
    let writable := t.getTransportState false
    (if t.writable ≠ writable then [.writableState] else [], { t with writable })
  | .candidateReady =>
    (if t.readyCandidates ≠ [] then [.candidatesReady t.readyCandidates] else [],
      { t with readyCandidates := [] })
  | .connecting => ([.connecting], t)

/-- The signaling thread handles the message posted first. -/
def signalingTurn (t : Transport σ γ) : List (TransportSignal γ) × Transport σ γ :=
  match t.posted with
  | [] => ([], t)
  | id :: rest => { t with posted := rest }.onMessage id

/-! ## What the calls leave in the map -/

variable (t : Transport σ γ) (name : String)

theorem get_modifyChannel (f : ChannelImpl σ → ChannelImpl σ) (other : String) :
    (t.modifyChannel name f).channels.get other =
      if other = name then (t.channels.get name).map fun e => { e with impl := f e.impl }
      else t.channels.get other :=
  OrderedMap.get_modify _ _ _ _

/-- What `createChannel` finds under its name, or puts there. -/
def found (contentType : String) : ChannelMapEntry σ :=
  (t.channels.get name).getD ⟨{ serial := t.created, contentType }, 0⟩

/-- What `createChannel` leaves under its name. -/
def opened (contentType : String) : ChannelMapEntry σ :=
  let impl := (t.found name contentType).impl.listen
  { impl := if t.connectRequested then impl.connect else impl
    ref := (t.found name contentType).ref + 1 }

theorem get_found (contentType other : String) :
    (if t.hasChannel name then t else t.createTransportChannel name contentType).channels.get other
      = if other = name then some (t.found name contentType) else t.channels.get other := by
  unfold hasChannel found
  split
  · next present =>
    obtain ⟨e, found⟩ := Option.isSome_iff_exists.mp present
    rw [found, Option.getD_some]
    split
    · next same => rw [same, found]
    · rfl
  · next absent =>
    rw [Option.not_isSome_iff_eq_none.mp absent, Option.getD_none]
    exact OrderedMap.get_insert _ _ _ _

theorem get_joinConnecting (other : String) :
    (t.joinConnecting name).channels.get other =
      if t.connectRequested ∧ other = name then
        (t.channels.get name).map fun e => { e with impl := e.impl.connect }
      else t.channels.get other := by
  have kept (u : Transport σ γ) :
      (if u.channels.size = 1 then u.post .connecting else u).channels = u.channels := by
    split <;> rfl
  unfold joinConnecting
  split
  · next asked => simp only [kept, get_modifyChannel, asked, true_and]
  · next notYet => rw [if_neg fun both => notYet both.1]

theorem get_createChannel (contentType other : String) :
    (t.createChannel name contentType).channels.get other =
      if other = name then some (t.opened name contentType) else t.channels.get other := by
  have start := t.get_found name contentType
  have asked : (if t.hasChannel name then t else
      t.createTransportChannel name contentType).connectRequested = t.connectRequested := by
    split <;> rfl
  unfold createChannel opened
  generalize (if t.hasChannel name then t else t.createTransportChannel name contentType) = u
    at start asked ⊢
  have requested : ((u.addRef name).modifyChannel name .listen).connectRequested =
      t.connectRequested := asked
  rw [get_joinConnecting, requested]
  simp only [get_modifyChannel, addRef, OrderedMap.get_modify, start, if_true, Option.map_some]
  by_cases here : other = name <;> by_cases early : t.connectRequested = true <;>
    simp only [here, early, if_true, if_false, and_true, and_false, Bool.false_eq_true]

/-- A call that changes the map and posts messages, no more. -/
structure Posts (t u : Transport σ γ) : Prop where
  requested : u.connectRequested = t.connectRequested
  candidates : u.readyCandidates = t.readyCandidates
  posted : t.posted <+: u.posted

theorem posts_createChannel (contentType : String) : Posts t (t.createChannel name contentType) := by
  have start : Posts t (if t.hasChannel name then t else t.createTransportChannel name contentType) := by
    split <;> exact ⟨rfl, rfl, List.prefix_rfl⟩
  unfold createChannel joinConnecting
  generalize (if t.hasChannel name then t else t.createTransportChannel name contentType) = u
    at start ⊢
  dsimp only
  split
  · split
    · exact ⟨start.requested, start.candidates, start.posted.trans (List.prefix_append _ _)⟩
    · exact ⟨start.requested, start.candidates, start.posted⟩
  · exact ⟨start.requested, start.candidates, start.posted⟩

theorem created_createChannel (contentType : String) :
    (t.createChannel name contentType).created =
      if t.hasChannel name then t.created else t.created + 1 := by
  have joined (u : Transport σ γ) : (u.joinConnecting name).created = u.created := by
    unfold joinConnecting
    dsimp only
    split
    · split <;> rfl
    · rfl
  rw [createChannel, joined]
  dsimp only [addRef, modifyChannel]
  split <;> rfl

theorem get_destroyChannel {e : ChannelMapEntry σ} (live : t.channels.get name = some e)
    (other : String) :
    (t.destroyChannel name).channels.get other =
      if other = name then if e.ref - 1 = 0 then none else some { e with ref := e.ref - 1 }
      else t.channels.get other := by
  have kept : (t.destroyChannel name).channels =
      if e.ref - 1 = 0 then t.channels.erase name
      else t.channels.insert name { e with ref := e.ref - 1 } := by
    simp only [destroyChannel, live]
    split <;> split <;> rfl
  rw [kept]
  split
  · exact OrderedMap.get_erase _ _ _
  · exact OrderedMap.get_insert _ _ _ _

theorem posts_destroyChannel : Posts t (t.destroyChannel name) := by
  unfold destroyChannel
  split
  · exact ⟨rfl, rfl, List.prefix_rfl⟩
  · dsimp only
    split <;> split <;> refine ⟨rfl, rfl, ?_⟩ <;> simp [post, onChannelWritableState]

theorem created_destroyChannel : (t.destroyChannel name).created = t.created := by
  unfold destroyChannel
  split
  · rfl
  · dsimp only
    split <;> split <;> rfl

theorem get_connectChannels :
    t.connectChannels.channels.get name =
      if t.connectRequested then t.channels.get name
      else (t.channels.get name).map fun e => { e with impl := e.impl.connect } := by
  unfold connectChannels
  split
  · next idle =>
    split
    · rfl
    · next notYet =>
      rw [OrderedMap.get_of_isEmpty (idle.resolve_left notYet), Option.map_none]
  · next starts =>
    rw [if_neg (not_or.mp starts).1, ← OrderedMap.get_mapValues]
    dsimp only
    split <;> rfl

/-- The handlers of a transport only post messages. -/
theorem iterate_onChannelState (flag : StateFlag) (count : Nat) (t : Transport σ γ) :
    ((onChannelState flag)^[count] t).channels = t.channels ∧
      ((onChannelState flag)^[count] t).created = t.created := by
  induction count generalizing t with
  | zero => exact ⟨rfl, rfl⟩
  | succ count ih =>
    rw [Function.iterate_succ_apply, (ih _).1, (ih _).2]
    cases flag <;> exact ⟨rfl, rfl⟩

/-- The channels of `u` that are not new are in `t` too, as their proxies know them. -/
structure Inherits (t u : Transport σ γ) : Prop where
  created : t.created ≤ u.created
  serial : (∀ name, ∀ e ∈ t.channels.get name, e.impl.serial < t.created) →
    ∀ name, ∀ e ∈ u.channels.get name, e.impl.serial < u.created
  old : ∀ name, ∀ e ∈ u.channels.get name, e.impl.serial < t.created →
    ∃ before ∈ t.channels.get name, before.impl.serial = e.impl.serial ∧
      before.impl.flag = e.impl.flag ∧ before.impl.slots = e.impl.slots

namespace Inherits

theorem refl (t : Transport σ γ) : Inherits t t :=
  ⟨Nat.le_refl _, id, fun _ e live _ => ⟨e, live, rfl, rfl, rfl⟩⟩

theorem of_channels {t u : Transport σ γ} (created : u.created = t.created)
    (channels : ∀ name, ∀ e ∈ u.channels.get name, ∃ before ∈ t.channels.get name,
      before.impl.serial = e.impl.serial ∧ before.impl.flag = e.impl.flag ∧
        before.impl.slots = e.impl.slots) :
    Inherits t u where
  created := created.ge
  serial below name e live := by
    obtain ⟨before, found, same, -⟩ := channels name e live
    rw [created, ← same]
    exact below name before found
  old name e live _ := channels name e live

end Inherits

/-- The channel that `createChannel` hands out, as its proxies know it. -/
theorem opened_same (contentType : String) :
    (t.opened name contentType).impl.serial = (t.found name contentType).impl.serial ∧
      (t.opened name contentType).impl.flag = (t.found name contentType).impl.flag ∧
      (t.opened name contentType).impl.slots = (t.found name contentType).impl.slots := by
  unfold opened
  dsimp only
  split <;> refine ⟨rfl, ?_, rfl⟩ <;> funext flag <;> cases flag <;> rfl

theorem inherits_createChannel (contentType : String) :
    Inherits t (t.createChannel name contentType) := by
  obtain ⟨serial, flag, slots⟩ := t.opened_same name contentType
  have more : t.created ≤ (t.createChannel name contentType).created := by
    rw [created_createChannel]
    split <;> omega
  refine { created := more, serial := fun below other e live => ?_, old := fun other e live made => ?_ }
  · rw [Option.mem_def, get_createChannel] at live
    split at live
    · cases live
      rw [serial, created_createChannel, hasChannel, found]
      cases here : t.channels.get name with
      | none => simp
      | some before => simpa using below name before here
    · exact Nat.lt_of_lt_of_le (below other e live) more
  · rw [Option.mem_def, get_createChannel] at live
    split at live
    · next same =>
      subst same
      cases live
      rw [serial] at made ⊢
      rw [flag, slots]
      cases here : t.channels.get other with
      | none =>
        rw [found, here] at made
        exact absurd made (lt_irrefl _)
      | some before =>
        rw [found, here]
        exact ⟨before, rfl, rfl, rfl, rfl⟩
    · exact ⟨e, live, rfl, rfl, rfl⟩

theorem inherits_destroyChannel : Inherits t (t.destroyChannel name) := by
  refine .of_channels (t.created_destroyChannel name) fun other e live => ?_
  cases here : t.channels.get name with
  | none =>
    rw [destroyChannel, here] at live
    exact ⟨e, live, rfl, rfl, rfl⟩
  | some before =>
    rw [Option.mem_def, get_destroyChannel _ _ here] at live
    split at live
    · next same =>
      subst same
      split at live
      · cases live
      · cases live
        exact ⟨before, here, rfl, rfl, rfl⟩
    · exact ⟨e, live, rfl, rfl, rfl⟩

theorem inherits_connectChannels : Inherits t t.connectChannels := by
  have created : t.connectChannels.created = t.created := by
    unfold connectChannels
    split
    · rfl
    · dsimp only
      split <;> rfl
  refine .of_channels created fun other e live => ?_
  rw [Option.mem_def, get_connectChannels] at live
  split at live
  · exact ⟨e, live, rfl, rfl, rfl⟩
  · obtain ⟨before, found, rfl⟩ := Option.map_eq_some_iff.mp live
    refine ⟨before, found, rfl, ?_, rfl⟩
    funext flag
    cases flag <;> rfl

theorem inherits_destroyAllChannels : Inherits t t.destroyAllChannels :=
  .of_channels rfl fun _ _ live => absurd live nofun

end Transport

end Libjingle.Channels

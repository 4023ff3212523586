import Libjingle.Channels.Transport
import Libjingle.Std.Trace
import Mathlib.Data.Fintype.Defs
import Mathlib.Logic.Function.Basic

/-!
# Transport proxies and their channels

A `TransportProxy` stands for the transport of one content, and keeps a
`TransportChannelProxy` for each of its channels. A channel proxy gets an
implementation, a channel of the transport, when negotiation completes; until then the
implementations may exist already, connected speculatively. Muxing points the channels
of one proxy to the transport of another one.

Every content of `ι` has its own proxy and, to begin with, its own transport. A method
of a proxy is the list of its statements, for the state it is called in.
-/

namespace Libjingle.Channels

open Libjingle.Std

variable {ι γ : Type}

/-- A pointer to a `TransportChannelImpl`. -/
structure ImplRef (ι : Type) where
  transport : ι
  name : String
  serial : Nat
deriving DecidableEq

/-- A pointer to a `TransportChannelProxy`. -/
structure ChannelRef (ι : Type) where
  proxy : ι
  name : String
deriving DecidableEq

structure TransportChannelProxy (ι : Type) where
  contentType : String
  impl : Option (ImplRef ι) := none
  readable : Bool := false
  writable : Bool := false
deriving DecidableEq

namespace TransportChannelProxy

variable (p : TransportChannelProxy ι)

def flag : StateFlag → Bool
  | .readable => p.readable
  | .writable => p.writable

def setFlag : StateFlag → Bool → TransportChannelProxy ι
  | .readable, readable => { p with readable }
  | .writable, writable => { p with writable }

end TransportChannelProxy

inductive TransportState where
  | init
  | connecting
  | negotiated
deriving DecidableEq

structure TransportProxy (ι : Type) where
  transport : ι
  state : TransportState := .init
  channels : OrderedMap String (TransportChannelProxy ι) := .empty

/-- The transports and proxies of a session. -/
structure World (ι γ : Type) where
  transports : ι → Transport (ChannelRef ι) γ
  proxies : ι → TransportProxy ι

/-- A statement of a method of `TransportProxy`. -/
inductive Statement (ι : Type) where
  | setState (proxy : ι) (state : TransportState)
  | addChannel (proxy : ι) (name contentType : String)
  | getOrCreateImpl (proxy : ι) (name contentType : String)
  | setProxyImpl (proxy : ι) (name : String)
  | connectChannels (proxy : ι)
  | replaceImpl (proxy : ι) (channel : ChannelRef ι) (index : Nat)
  | shareTransport (proxy other : ι)
deriving DecidableEq

namespace TransportProxy

variable (p : TransportProxy ι) (i : ι)

abbrev negotiated : Prop := p.state = .negotiated

/-- `CreateChannel`. -/
def createChannel (name contentType : String) : List (Statement ι) :=
  .addChannel i name contentType ::
    match p.state with
    | .init => []
    | .connecting => [.getOrCreateImpl i name contentType]
    | .negotiated => [.setProxyImpl i name]

def speculativelyConnectChannels : List (Statement ι) :=
  .setState i .connecting ::
    (p.channels.entries.map (fun c => .getOrCreateImpl i c.1 c.2.contentType) ++
      [.connectChannels i])

def completeNegotiation : List (Statement ι) :=
  if p.negotiated then []
  else
    .setState i .negotiated ::
      (p.channels.keys.map (fun name => .setProxyImpl i name) ++ [.connectChannels i])

/-- `SetupMux` of the proxy `i` onto this one, called `other`. -/
def setupMux (other : ι) : List (Statement ι) :=
  p.channels.keys.mapIdx (fun index name => .replaceImpl i ⟨other, name⟩ index) ++
    [.shareTransport i other]

end TransportProxy

namespace World

/-- Every content has a proxy without channels, and a transport of its own. -/
def start : World ι γ where
  transports _ := {}
  proxies i := { transport := i }

section Pointers

variable (w : World ι γ)

def channel (c : ChannelRef ι) : Option (TransportChannelProxy ι) :=
  (w.proxies c.proxy).channels.get c.name

/-- What a pointer leads to, if it is still there. -/
def impl (x : ImplRef ι) : Option (ChannelImpl (ChannelRef ι)) :=
  ((w.transports x.transport).getChannel x.name).filter fun impl => impl.serial = x.serial

/-- `Transport::GetChannel`, as a pointer. -/
def getChannel (t : ι) (name : String) : Option (ImplRef ι) :=
  ((w.transports t).getChannel name).map fun impl => ⟨t, name, impl.serial⟩

end Pointers

section Methods

variable [DecidableEq ι] (w : World ι γ)

def modifyTransport (t : ι) (f : Transport (ChannelRef ι) γ → Transport (ChannelRef ι) γ) :
    World ι γ :=
  { w with transports := Function.update w.transports t (f (w.transports t)) }

def modifyProxy (i : ι) (f : TransportProxy ι → TransportProxy ι) : World ι γ :=
  { w with proxies := Function.update w.proxies i (f (w.proxies i)) }

def modifyChannel (c : ChannelRef ι) (f : TransportChannelProxy ι → TransportChannelProxy ι) :
    World ι γ :=
  w.modifyProxy c.proxy fun p => { p with channels := p.channels.modify c.name f }

def modifyImpl (x : ImplRef ι)
    (f : ChannelImpl (ChannelRef ι) → ChannelImpl (ChannelRef ι)) : World ι γ :=
  if (w.impl x).isSome then w.modifyTransport x.transport fun t => t.modifyChannel x.name f else w

/-- `impl_->GetTransport()->DestroyChannel(impl_->name())`. -/
def releaseImpl (x : ImplRef ι) : World ι γ :=
  if (w.impl x).isSome then w.modifyTransport x.transport fun t => t.destroyChannel x.name else w

/-- A channel proxy gives up its implementation. -/
def releaseOld (c : ChannelRef ι) : World ι γ :=
  match (w.channel c).bind TransportChannelProxy.impl with
  | some old => w.releaseImpl old
  | none => w

/-- `TransportChannelProxy::SetImplementation`. -/
def setImplementation (c : ChannelRef ι) (x : ImplRef ι) : World ι γ :=
  let w := w.releaseOld c
  let w := w.modifyChannel c fun p => { p with impl := some x }
  w.modifyImpl x fun impl => { impl with slots := impl.slots ++ [c] }

def getOrCreateImpl (i : ι) (name contentType : String) : World ι γ :=
  let t := (w.proxies i).transport
  if (w.transports t).hasChannel name then w
  else w.modifyTransport t fun t => t.createChannel name contentType

def setProxyImpl (c : ChannelRef ι) : World ι γ :=
  match w.channel c with
  | none => w
  | some p =>
    let w := w.getOrCreateImpl c.proxy c.name p.contentType
    match w.getChannel (w.proxies c.proxy).transport c.name with
    | none => w
    | some x => w.setImplementation c x

/-- `ReplaceImpl`, which takes one more reference to what is under the name of `channel`. -/
def replaceImpl (i : ι) (channel : ChannelRef ι) (index : Nat) : World ι γ :=
  match (w.proxies i).channels.keys[index]?, w.channel channel with
  | some target, some p =>
    match p.impl with
    | none => w
    | some impl =>
      let w := w.modifyTransport impl.transport fun t => t.createChannel channel.name p.contentType
      match w.getChannel impl.transport channel.name with
      | none => w
      | some x => w.setImplementation ⟨i, target⟩ x
  | _, _ => w

/-- The transport that no proxy holds any more is destroyed, with its channels. -/
def shareTransport [Fintype ι] (i other : ι) : World ι γ :=
  let old := (w.proxies i).transport
  let w := w.modifyProxy i fun p => { p with transport := (w.proxies other).transport }
  if ∀ j, (w.proxies j).transport ≠ old then
    w.modifyTransport old Transport.destroyAllChannels
  else w

/-- A channel proxy takes over a flag of its implementation. -/
def onState (flag : StateFlag) (w : World ι γ) (c : ChannelRef ι) : World ι γ :=
  match ((w.channel c).bind TransportChannelProxy.impl).bind w.impl with
  | none => w
  | some impl => w.modifyChannel c fun p => p.setFlag flag (impl.flag flag)

/-- `OnReadableState` of a channel proxy. -/
def onReadableState (c : ChannelRef ι) : World ι γ := w.onState .readable c

/-- `OnWritableState` of a channel proxy. -/
def onWritableState (c : ChannelRef ι) : World ι γ := w.onState .writable c

/-- A flag of the channel of transport `t` under `name` changes, and the handlers are called. -/
def setState (flag : StateFlag) (t : ι) (name : String) (value : Bool) : World ι γ :=
  match (w.transports t).getChannel name with
  | none => w
  | some impl =>
    if impl.flag flag = value then w
    else
      let w := w.modifyTransport t fun t =>
        (Transport.onChannelState flag)^[impl.listens]
          (t.modifyChannel name fun impl => impl.setFlag flag value)
      impl.slots.foldl (onState flag) w

/-- `set_readable` of a channel. -/
def setReadable (t : ι) (name : String) (readable : Bool) : World ι γ :=
  w.setState .readable t name readable

/-- `set_writable` of a channel. -/
def setWritable (t : ι) (name : String) (writable : Bool) : World ι γ :=
  w.setState .writable t name writable

end Methods

def exec [DecidableEq ι] [Fintype ι] (w : World ι γ) : Statement ι → World ι γ
  | .setState i state => w.modifyProxy i fun p => { p with state }
  | .addChannel i name contentType =>
    w.modifyProxy i fun p => { p with channels := p.channels.insert name { contentType } }
  | .getOrCreateImpl i name contentType => w.getOrCreateImpl i name contentType
  | .setProxyImpl i name => w.setProxyImpl ⟨i, name⟩
  | .connectChannels i => w.modifyTransport (w.proxies i).transport Transport.connectChannels
  | .replaceImpl i channel index => w.replaceImpl i channel index
  | .shareTransport i other => w.shareTransport i other

section Lookup

variable (w : World ι γ)

theorem impl_eq_some {x : ImplRef ι} {impl : ChannelImpl (ChannelRef ι)} :
    w.impl x = some impl ↔ ∃ e, (w.transports x.transport).channels.get x.name = some e ∧
      e.impl = impl ∧ impl.serial = x.serial := by
  simp only [World.impl, Transport.getChannel, Option.filter_eq_some_iff, Option.map_eq_some_iff,
    decide_eq_true_eq]
  constructor
  · rintro ⟨⟨e, live, same⟩, serial⟩
    exact ⟨e, live, same, serial⟩
  · rintro ⟨e, live, same, serial⟩
    exact ⟨⟨e, live, same⟩, serial⟩

variable [DecidableEq ι]

@[simp] theorem transports_modifyTransport (t u : ι)
    (f : Transport (ChannelRef ι) γ → Transport (ChannelRef ι) γ) :
    (w.modifyTransport t f).transports u = if u = t then f (w.transports t) else w.transports u :=
  Function.update_apply _ _ _ _

@[simp] theorem proxies_modifyTransport (t : ι)
    (f : Transport (ChannelRef ι) γ → Transport (ChannelRef ι) γ) :
    (w.modifyTransport t f).proxies = w.proxies := rfl

@[simp] theorem transports_modifyProxy (i : ι) (f : TransportProxy ι → TransportProxy ι) :
    (w.modifyProxy i f).transports = w.transports := rfl

@[simp] theorem proxies_modifyProxy (i j : ι) (f : TransportProxy ι → TransportProxy ι) :
    (w.modifyProxy i f).proxies j = if j = i then f (w.proxies i) else w.proxies j :=
  Function.update_apply _ _ _ _

theorem channel_modifyChannel (c d : ChannelRef ι)
    (f : TransportChannelProxy ι → TransportChannelProxy ι) :
    (w.modifyChannel c f).channel d = if d = c then (w.channel c).map f else w.channel d := by
  obtain ⟨i, name⟩ := c
  obtain ⟨j, other⟩ := d
  simp only [channel, modifyChannel, proxies_modifyProxy, ChannelRef.mk.injEq]
  by_cases same : j = i
  · subst same
    simp only [if_true, true_and, OrderedMap.get_modify]
  · simp only [same, if_false, false_and]

theorem proxies_modifyImpl (x : ImplRef ι)
    (f : ChannelImpl (ChannelRef ι) → ChannelImpl (ChannelRef ι)) :
    (w.modifyImpl x f).proxies = w.proxies := by
  unfold modifyImpl
  split <;> rfl

theorem created_modifyImpl (x : ImplRef ι)
    (f : ChannelImpl (ChannelRef ι) → ChannelImpl (ChannelRef ι)) (t : ι) :
    ((w.modifyImpl x f).transports t).created = (w.transports t).created := by
  unfold modifyImpl
  split
  · rw [transports_modifyTransport]
    split
    · next here => rw [here]; rfl
    · rfl
  · rfl

/-- Only what the pointer leads to changes. -/
theorem get_modifyImpl (x : ImplRef ι)
    (f : ChannelImpl (ChannelRef ι) → ChannelImpl (ChannelRef ι)) (t : ι) (name : String) :
    ((w.modifyImpl x f).transports t).channels.get name =
      ((w.transports t).channels.get name).map fun e =>
        if (⟨t, name, e.impl.serial⟩ : ImplRef ι) = x then { e with impl := f e.impl } else e := by
  obtain ⟨u, other, serial⟩ := x
  simp only [ImplRef.mk.injEq]
  unfold modifyImpl
  split
  · next live =>
    obtain ⟨impl, live⟩ := Option.isSome_iff_exists.mp live
    obtain ⟨e, listed, rfl, same⟩ := (impl_eq_some _).mp live
    dsimp only at listed same
    rw [transports_modifyTransport]
    split
    · next here =>
      subst here
      rw [Transport.get_modifyChannel]
      split
      · next this =>
        subst this
        rw [listed]
        simp [same]
      · next elsewhere => simp [elsewhere]
    · next elsewhere => simp [elsewhere]
  · next gone =>
    cases listed : (w.transports t).channels.get name with
    | none => rfl
    | some e =>
      rw [Option.map_some, if_neg]
      rintro ⟨rfl, rfl, rfl⟩
      exact gone (by rw [(impl_eq_some w).mpr ⟨e, listed, rfl, rfl⟩]; rfl)

theorem proxies_releaseOld (c : ChannelRef ι) : (w.releaseOld c).proxies = w.proxies := by
  unfold releaseOld releaseImpl
  split
  · split <;> rfl
  · rfl

end Lookup

end World

/-- A call of a method of a proxy, or a change of the state of a channel. -/
inductive Call (ι : Type) where
  | createChannel (proxy : ι) (name contentType : String)
  | speculativelyConnectChannels (proxy : ι)
  | completeNegotiation (proxy : ι)
  | setupMux (proxy other : ι)
  | setReadable (transport : ι) (name : String) (readable : Bool)
  | setWritable (transport : ι) (name : String) (writable : Bool)
deriving DecidableEq

namespace World

variable (w : World ι γ)

/-- The statements of a call. -/
def statements : Call ι → List (Statement ι)
  | .createChannel i name contentType => (w.proxies i).createChannel i name contentType
  | .speculativelyConnectChannels i => (w.proxies i).speculativelyConnectChannels i
  | .completeNegotiation i => (w.proxies i).completeNegotiation i
  | .setupMux i other => (w.proxies other).setupMux i other
  | _ => []

/-- What the methods assert about the state they are called in. -/
def Asserts : Call ι → Prop
  | .createChannel i name _ => (w.proxies i).channels.get name = none ∧
      (w.transports (w.proxies i).transport).hasChannel name = false
  | .speculativelyConnectChannels i => ¬ (w.proxies i).negotiated
  | .setupMux _ other => (w.proxies other).negotiated
  | _ => True

def step [DecidableEq ι] [Fintype ι] (w : World ι γ) (call : Call ι) : World ι γ :=
  match call with
  | .setReadable t name readable => w.setReadable t name readable
  | .setWritable t name writable => w.setWritable t name writable
  | _ => runInputs exec w (w.statements call)

end World

end Libjingle.Channels

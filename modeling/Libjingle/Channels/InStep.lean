import Libjingle.Channels.Proxy
import Mathlib.Data.Fintype.Basic

/-!
# A channel proxy in step with its implementation

A channel proxy learns the flags of its implementation from the signals that come after
`SetImplementation`, which does not look at the flags itself. So the two agree exactly
where `SetImplementation` finds them in agreement, and then they stay so.
-/

namespace Libjingle.Channels

open Libjingle.Std

variable {ι γ : Type}

theorem TransportChannelProxy.flag_setFlag (p : TransportChannelProxy ι) (flag other : StateFlag)
    (value : Bool) :
    (p.setFlag flag value).flag other = if other = flag then value else p.flag other := by
  cases flag <;> cases other <;> rfl

namespace World

/-- A proxy that has an implementation has its flags. -/
def Agrees (w : World ι γ) : Prop :=
  ∀ c, ∀ p ∈ w.channel c, ∀ x ∈ p.impl, ∀ impl ∈ w.impl x,
    p.readable = impl.readable ∧ p.writable = impl.writable

/-- The proxies agree with their implementations and listen to them. -/
structure InStep (w : World ι γ) : Prop where
  serials : ∀ t name, ∀ e ∈ (w.transports t).channels.get name,
    e.impl.serial < (w.transports t).created
  made : ∀ c, ∀ p ∈ w.channel c, ∀ x ∈ p.impl, x.serial < (w.transports x.transport).created
  listening : ∀ c, ∀ p ∈ w.channel c, ∀ x ∈ p.impl, ∀ impl ∈ w.impl x, c ∈ impl.slots
  flags : ∀ c, ∀ p ∈ w.channel c, ∀ x ∈ p.impl, ∀ impl ∈ w.impl x, p.flag = impl.flag

namespace InStep

theorem start : InStep (start : World ι γ) where
  serials _ _ _ live := absurd live nofun
  made _ _ listed := absurd listed nofun
  listening _ _ listed := absurd listed nofun
  flags _ _ listed := absurd listed nofun

variable {w : World ι γ}

/-- Flags that change nowhere stay in agreement, and so do channels without implementation. -/
theorem of_channels (inStep : InStep w) {v : World ι γ} (transports : v.transports = w.transports)
    (channels : ∀ c, ∀ p ∈ v.channel c, p ∈ w.channel c ∨ p.impl = none) : InStep v := by
  have same (c p) (listed : p ∈ v.channel c) (x) (points : x ∈ p.impl) : p ∈ w.channel c := by
    refine (channels c p listed).resolve_right fun none => ?_
    rw [none] at points
    cases points
  have impl (x : ImplRef ι) : v.impl x = w.impl x := by simp only [World.impl, transports]
  refine { serials := ?_, made := ?_, listening := ?_, flags := ?_ }
  · rw [transports]
    exact inStep.serials
  · rw [transports]
    exact fun c p listed x points => inStep.made c p (same c p listed x points) x points
  · intro c p listed x points
    rw [impl]
    exact inStep.listening c p (same c p listed x points) x points
  · intro c p listed x points
    rw [impl]
    exact inStep.flags c p (same c p listed x points) x points

variable [DecidableEq ι]

section Calls

variable {t : ι} {f : Transport (ChannelRef ι) γ → Transport (ChannelRef ι) γ}
  (inherits : (w.transports t).Inherits (f (w.transports t)))

include inherits

theorem old_impl {x : ImplRef ι} (made : x.serial < (w.transports x.transport).created)
    {impl : ChannelImpl (ChannelRef ι)} (live : impl ∈ (w.modifyTransport t f).impl x) :
    ∃ before ∈ w.impl x, before.flag = impl.flag ∧ before.slots = impl.slots := by
  obtain ⟨e, listed, rfl, serial⟩ := (impl_eq_some _).mp live
  rw [transports_modifyTransport] at listed
  split at listed
  · next here =>
    obtain ⟨before, found, same, flag, slots⟩ := inherits.old x.name e listed
      (by rw [serial, ← here]; exact made)
    exact ⟨before.impl, (impl_eq_some _).mpr ⟨before, here ▸ found, rfl, same.trans serial⟩, flag, slots⟩
  · exact ⟨e.impl, (impl_eq_some _).mpr ⟨e, listed, rfl, serial⟩, rfl, rfl⟩

theorem created_le (u : ι) :
    (w.transports u).created ≤ ((w.modifyTransport t f).transports u).created := by
  rw [transports_modifyTransport]
  split
  · next here => rw [here]; exact inherits.created
  · exact Nat.le_refl _

theorem modifyTransport (inStep : InStep w) : InStep (w.modifyTransport t f) := by
  have old (x : ImplRef ι) (made : x.serial < (w.transports x.transport).created) (impl)
      (live : impl ∈ (w.modifyTransport t f).impl x) := old_impl inherits made live
  have grown := created_le inherits
  refine { serials := fun u => ?_, made := ?_, listening := ?_, flags := ?_ }
  · rw [transports_modifyTransport]
    split
    · exact inherits.serial (inStep.serials t)
    · exact inStep.serials u
  · exact fun c p listed x points =>
      Nat.lt_of_lt_of_le (inStep.made c p listed x points) (grown x.transport)
  · intro c p listed x points impl live
    obtain ⟨before, found, -, slots⟩ := old x (inStep.made c p listed x points) impl live
    rw [← slots]
    exact inStep.listening c p listed x points before found
  · intro c p listed x points impl live
    obtain ⟨before, found, flag, -⟩ := old x (inStep.made c p listed x points) impl live
    rw [← flag]
    exact inStep.flags c p listed x points before found

end Calls

theorem releaseImpl (inStep : InStep w) (x : ImplRef ι) : InStep (w.releaseImpl x) := by
  unfold World.releaseImpl
  split
  · exact modifyTransport (Transport.inherits_destroyChannel _ _) inStep
  · exact inStep

theorem getOrCreateImpl (inStep : InStep w) (i : ι) (name contentType : String) :
    InStep (w.getOrCreateImpl i name contentType) := by
  unfold World.getOrCreateImpl
  dsimp only
  split
  · exact inStep
  · exact modifyTransport (Transport.inherits_createChannel _ _ _) inStep

/-- An implementation that is no other one's gets a slot. -/
theorem attach (inStep : InStep w) {c : ChannelRef ι} {x : ImplRef ι}
    (made : x.serial < (w.transports x.transport).created)
    (agree : ∀ p ∈ w.channel c, ∀ impl ∈ w.impl x, p.flag = impl.flag) :
    InStep ((w.modifyChannel c fun p => { p with impl := some x }).modifyImpl x
      fun impl => { impl with slots := impl.slots ++ [c] }) := by
  have channels (d p) (listed : p ∈ ((w.modifyChannel c fun p => { p with impl := some x }).modifyImpl
      x fun impl => { impl with slots := impl.slots ++ [c] }).channel d) :
      (d = c ∧ p.impl = some x ∧ ∃ before ∈ w.channel c, before.flag = p.flag) ∨ p ∈ w.channel d := by
    rw [Option.mem_def, World.channel, proxies_modifyImpl] at listed
    change (World.modifyChannel _ _ _).channel d = some p at listed
    rw [channel_modifyChannel] at listed
    split at listed
    · next here =>
      obtain ⟨before, found, rfl⟩ := Option.map_eq_some_iff.mp listed
      refine .inl ⟨here, rfl, before, found, ?_⟩
      funext flag
      cases flag <;> rfl
    · exact .inr listed
  have impls (y impl) (live : impl ∈ ((w.modifyChannel c fun p => { p with impl := some x }).modifyImpl
      x fun impl => { impl with slots := impl.slots ++ [c] }).impl y) :
      ∃ before ∈ w.impl y, before.flag = impl.flag ∧ (∀ d ∈ before.slots, d ∈ impl.slots) ∧
        (y = x → c ∈ impl.slots) := by
    obtain ⟨e, listed, rfl, serial⟩ := (impl_eq_some _).mp live
    rw [get_modifyImpl] at listed
    obtain ⟨before, found, rfl⟩ := Option.map_eq_some_iff.mp listed
    refine ⟨before.impl, (impl_eq_some _).mpr ⟨before, found, rfl, ?_⟩, ?_, ?_, ?_⟩
    · rw [← serial]
      split <;> rfl
    · funext flag
      split <;> cases flag <;> rfl
    · intro d listens
      split
      · exact List.mem_append_left _ listens
      · exact listens
    · rintro rfl
      split
      · simp
      · next other =>
        rw [if_neg other] at serial
        exact absurd (by rw [serial]) other
  refine { serials := ?_, made := ?_, listening := ?_, flags := ?_ }
  · intro t name e listed
    rw [created_modifyImpl]
    rw [Option.mem_def, get_modifyImpl] at listed
    obtain ⟨before, found, rfl⟩ := Option.map_eq_some_iff.mp listed
    have below := inStep.serials t name before found
    split <;> exact below
  · intro d p listed y points
    rw [created_modifyImpl]
    rcases channels d p listed with ⟨-, same, -⟩ | listed
    · obtain rfl : x = y := Option.some.inj (same.symm.trans points)
      exact made
    · exact inStep.made d p listed y points
  · intro d p listed y points impl live
    obtain ⟨before, found, -, more, new⟩ := impls y impl live
    rcases channels d p listed with ⟨rfl, same, -⟩ | listed
    · exact new (Option.some.inj (points.symm.trans same))
    · exact more d (inStep.listening d p listed y points before found)
  · intro d p listed y points impl live
    obtain ⟨before, found, flag, -⟩ := impls y impl live
    rw [← flag]
    rcases channels d p listed with ⟨rfl, same, old, held, kept⟩ | listed
    · obtain rfl : x = y := Option.some.inj (same.symm.trans points)
      rw [← kept]
      exact agree old held before found
    · exact inStep.flags d p listed y points before found

/-- `SetImplementation` of an implementation in agreement. -/
theorem setImplementation (inStep : InStep w) {c : ChannelRef ι} {x : ImplRef ι}
    (made : x.serial < (w.transports x.transport).created)
    (agree : ∀ p ∈ w.channel c, ∀ impl ∈ w.impl x, p.flag = impl.flag) :
    InStep (w.setImplementation c x) := by
  have channel (d : ChannelRef ι) : (w.releaseOld c).channel d = w.channel d := by
    simp only [World.channel, proxies_releaseOld]
  have released : InStep (w.releaseOld c) ∧
      x.serial < ((w.releaseOld c).transports x.transport).created ∧
      ∀ impl ∈ (w.releaseOld c).impl x, ∃ before ∈ w.impl x, before.flag = impl.flag := by
    unfold releaseOld World.releaseImpl
    split
    · next old _ =>
      split
      · have inherits := (w.transports old.transport).inherits_destroyChannel old.name
        refine ⟨modifyTransport inherits inStep,
          Nat.lt_of_lt_of_le made (created_le inherits _), fun impl live => ?_⟩
        obtain ⟨before, found, flag, -⟩ := old_impl inherits made live
        exact ⟨before, found, flag⟩
      · exact ⟨inStep, made, fun impl live => ⟨impl, live, rfl⟩⟩
    · exact ⟨inStep, made, fun impl live => ⟨impl, live, rfl⟩⟩
  obtain ⟨stays, made, old⟩ := released
  refine stays.attach made fun p listed impl live => ?_
  obtain ⟨before, found, flag⟩ := old impl live
  rw [← flag]
  exact agree p (channel c ▸ listed) before found

end InStep

/-- The flags of the channel under a name; a new channel has none set. -/
def flagUnder (w : World ι γ) (t : ι) (name : String) (flag : StateFlag) : Bool :=
  ((w.transports t).getChannel name).elim false fun impl => impl.flag flag

/-- The proxy `c` has the flags of the channel under a name. -/
def Matches (w : World ι γ) (c : ChannelRef ι) (t : ι) (name : String) : Prop :=
  ∀ p ∈ w.channel c, p.readable = w.flagUnder t name .readable ∧
    p.writable = w.flagUnder t name .writable

/-- Where a statement sets an implementation, it finds the flags that the proxy has. -/
def Finds (w : World ι γ) : Statement ι → Prop
  | .setProxyImpl i name => w.Matches ⟨i, name⟩ (w.proxies i).transport name
  | .replaceImpl i channel index => ∀ target ∈ (w.proxies i).channels.keys[index]?,
      ∀ q ∈ w.channel channel, ∀ impl ∈ q.impl,
        w.Matches ⟨i, target⟩ impl.transport channel.name
  | _ => True

instance (w : World ι γ) : (statement : Statement ι) → Decidable (w.Finds statement)
  | .setProxyImpl _ _ => Option.decidableForallMem _
  | .replaceImpl _ _ _ =>
    have (c : ChannelRef ι) (t : ι) (name : String) : Decidable (w.Matches c t name) :=
      Option.decidableForallMem _
    Option.decidableForallMem _
  | .setState _ _ | .addChannel _ _ _ | .getOrCreateImpl _ _ _ | .connectChannels _
  | .shareTransport _ _ => .isTrue trivial

theorem Matches.flag {w : World ι γ} {c : ChannelRef ι} {t : ι} {name : String}
    (agree : w.Matches c t name) {p : TransportChannelProxy ι} (listed : p ∈ w.channel c) :
    p.flag = w.flagUnder t name := by
  obtain ⟨readable, writable⟩ := agree p listed
  funext flag
  cases flag
  · exact readable
  · exact writable

namespace InStep

variable {w : World ι γ}

/-- What is handed out for a name has been made, and has the flags found under the name. -/
theorem handed_of_getChannel (inStep : InStep w) {t : ι} {name : String} {x : ImplRef ι}
    (handed : x ∈ w.getChannel t name) :
    x.serial < (w.transports x.transport).created ∧
      ∀ impl ∈ w.impl x, impl.flag = w.flagUnder t name := by
  obtain ⟨impl, live, rfl⟩ := Option.map_eq_some_iff.mp handed
  obtain ⟨e, found, rfl⟩ := Option.map_eq_some_iff.mp live
  refine ⟨inStep.serials t name e found, fun impl pointed => ?_⟩
  obtain ⟨same, listed, rfl, -⟩ := (impl_eq_some _).mp pointed
  obtain rfl : e = same := Option.some.inj (found.symm.trans listed)
  funext flag
  simp only [flagUnder, live, Option.elim_some]

variable [DecidableEq ι]

theorem flagUnder_createChannel (t : ι) (name contentType : String) :
    (w.modifyTransport t fun t => t.createChannel name contentType).flagUnder t name =
      w.flagUnder t name := by
  obtain ⟨-, flag, -⟩ := (w.transports t).opened_same name contentType
  funext which
  simp only [flagUnder, transports_modifyTransport, if_true, Transport.getChannel,
    Transport.get_createChannel, Option.map_some, Option.elim_some, flag, Transport.found]
  cases (w.transports t).channels.get name with
  | none => cases which <;> rfl
  | some e => rfl

theorem setProxyImpl (inStep : InStep w) {i : ι} {name : String}
    (finds : w.Finds (.setProxyImpl i name)) : InStep (w.setProxyImpl ⟨i, name⟩) := by
  unfold World.setProxyImpl
  split
  · exact inStep
  next p listed =>
  have proxies : (w.getOrCreateImpl i name p.contentType).proxies = w.proxies := by
    unfold World.getOrCreateImpl
    dsimp only
    split <;> rfl
  have flags : (w.getOrCreateImpl i name p.contentType).flagUnder (w.proxies i).transport name =
      w.flagUnder (w.proxies i).transport name := by
    unfold World.getOrCreateImpl
    dsimp only
    split
    · rfl
    · exact flagUnder_createChannel _ _ _
  dsimp only
  split
  · exact inStep.getOrCreateImpl i name p.contentType
  next x handed =>
  rw [proxies] at handed
  obtain ⟨made, found⟩ := (inStep.getOrCreateImpl i name p.contentType).handed_of_getChannel handed
  refine (inStep.getOrCreateImpl i name p.contentType).setImplementation made fun q same impl live => ?_
  rw [World.channel, proxies] at same
  rw [found impl live, flags]
  exact finds.flag same

theorem replaceImpl (inStep : InStep w) {i : ι} {channel : ChannelRef ι} {index : Nat}
    (finds : w.Finds (.replaceImpl i channel index)) : InStep (w.replaceImpl i channel index) := by
  unfold World.replaceImpl
  split
  · next target p atIndex listed =>
    split
    · exact inStep
    next impl points =>
    have created : InStep (w.modifyTransport impl.transport fun t =>
        t.createChannel channel.name p.contentType) :=
      modifyTransport (Transport.inherits_createChannel _ _ _) inStep
    dsimp only
    split
    · exact created
    next x handed =>
    obtain ⟨made, found⟩ := created.handed_of_getChannel handed
    refine created.setImplementation made fun q same impl live => ?_
    rw [found impl live, flagUnder_createChannel]
    exact (finds target atIndex p listed _ points).flag same
  · exact inStep

theorem exec [Fintype ι] (inStep : InStep w) {statement : Statement ι} (finds : w.Finds statement) :
    InStep (w.exec statement) := by
  cases statement with
  | setState i state =>
    refine inStep.of_channels rfl fun c p listed => .inl ?_
    simp only [World.exec, World.channel, proxies_modifyProxy] at listed ⊢
    split at listed
    · next here => rwa [here]
    · exact listed
  | addChannel i name contentType =>
    refine inStep.of_channels rfl fun c p listed => ?_
    simp only [World.exec, World.channel, proxies_modifyProxy] at listed ⊢
    split at listed
    · next here =>
      rw [Option.mem_def, OrderedMap.get_insert] at listed
      split at listed
      · cases listed
        exact .inr rfl
      · exact .inl (by rwa [here])
    · exact .inl listed
  | getOrCreateImpl i name contentType => exact inStep.getOrCreateImpl i name contentType
  | setProxyImpl i name => exact inStep.setProxyImpl finds
  | connectChannels i => exact modifyTransport (Transport.inherits_connectChannels _) inStep
  | replaceImpl i channel index => exact inStep.replaceImpl finds
  | shareTransport i other =>
    have shared : InStep (w.modifyProxy i fun p =>
        { p with transport := (w.proxies other).transport }) := by
      refine inStep.of_channels rfl fun c p listed => .inl ?_
      simp only [World.channel, proxies_modifyProxy] at listed ⊢
      split at listed
      · next here => rwa [here]
      · exact listed
    simp only [World.exec, World.shareTransport]
    split
    · exact modifyTransport (Transport.inherits_destroyAllChannels _) shared
    · exact shared

/-! ## Changes of an implementation -/

/-- The proxies agree with their implementations, but for the flag of those still to be called. -/
structure CatchingUp (w : World ι γ) (flag : StateFlag) (waiting : List (ChannelRef ι)) : Prop where
  serials : ∀ t name, ∀ e ∈ (w.transports t).channels.get name,
    e.impl.serial < (w.transports t).created
  made : ∀ c, ∀ p ∈ w.channel c, ∀ x ∈ p.impl, x.serial < (w.transports x.transport).created
  listening : ∀ c, ∀ p ∈ w.channel c, ∀ x ∈ p.impl, ∀ impl ∈ w.impl x, c ∈ impl.slots
  flags : ∀ c, ∀ p ∈ w.channel c, ∀ x ∈ p.impl, ∀ impl ∈ w.impl x, ∀ other,
    p.flag other = impl.flag other ∨ other = flag ∧ c ∈ waiting

theorem CatchingUp.onState {flag : StateFlag} {c : ChannelRef ι} {waiting : List (ChannelRef ι)}
    (catching : CatchingUp w flag (c :: waiting)) :
    CatchingUp (w.onState flag c) flag waiting := by
  unfold World.onState
  split
  · next gone =>
    refine { catching with flags := fun d p listed x points impl live other => ?_ }
    refine (catching.flags d p listed x points impl live other).imp_right fun ⟨same, waits⟩ => ?_
    rcases List.mem_cons.mp waits with rfl | waits
    · rw [Option.mem_def.mp listed, Option.bind_some, Option.mem_def.mp points, Option.bind_some,
        Option.mem_def.mp live] at gone
      cases gone
    · exact ⟨same, waits⟩
  next current found =>
  obtain ⟨x, pointed, live⟩ := Option.bind_eq_some_iff.mp found
  obtain ⟨p, listed, points⟩ := Option.bind_eq_some_iff.mp pointed
  have kept (d q) (here : q ∈ (w.modifyChannel c fun p => p.setFlag flag (current.flag flag)).channel d) :
      d = c ∧ q = p.setFlag flag (current.flag flag) ∨ d ≠ c ∧ q ∈ w.channel d := by
    rw [Option.mem_def, channel_modifyChannel] at here
    split at here
    · next same =>
      rw [listed, Option.map_some] at here
      exact .inl ⟨same, (Option.some.inj here).symm⟩
    · next other => exact .inr ⟨other, here⟩
  have impl_setFlag : (p.setFlag flag (current.flag flag)).impl = some x := by
    rw [← points]
    cases flag <;> rfl
  refine { serials := catching.serials, made := ?_, listening := ?_, flags := ?_ }
  · intro d q here y leads
    rcases kept d q here with ⟨rfl, rfl⟩ | ⟨-, here⟩
    · exact catching.made d p listed y (by rwa [impl_setFlag, ← points] at leads)
    · exact catching.made d q here y leads
  · intro d q here y leads impl pointed
    rcases kept d q here with ⟨rfl, rfl⟩ | ⟨-, here⟩
    · exact catching.listening d p listed y (by rwa [impl_setFlag, ← points] at leads) impl pointed
    · exact catching.listening d q here y leads impl pointed
  · intro d q here y leads impl pointed other
    rcases kept d q here with ⟨rfl, rfl⟩ | ⟨elsewhere, here⟩
    · obtain rfl : x = y := Option.some.inj (impl_setFlag.symm.trans leads)
      obtain rfl : current = impl := Option.some.inj (live.symm.trans pointed)
      left
      rw [TransportChannelProxy.flag_setFlag]
      split
      · next same => rw [same]
      · next different =>
        exact (catching.flags d p listed x points current live other).resolve_right
          fun waits => different waits.1
    · refine (catching.flags d q here y leads impl pointed other).imp_right fun ⟨same, waits⟩ => ?_
      exact ⟨same, (List.mem_cons.mp waits).resolve_left elsewhere⟩

theorem CatchingUp.foldl_onState {flag : StateFlag} {waiting : List (ChannelRef ι)}
    (catching : CatchingUp w flag waiting) : InStep (waiting.foldl (World.onState flag) w) := by
  induction waiting generalizing w with
  | nil =>
    refine { catching with flags := fun c p listed x points impl live => funext fun other => ?_ }
    exact (catching.flags c p listed x points impl live other).resolve_right fun none => nomatch none.2
  | cons c waiting ih => exact ih catching.onState

theorem setState (inStep : InStep w) (flag : StateFlag) (t : ι) (name : String) (value : Bool) :
    InStep (w.setState flag t name value) := by
  unfold World.setState
  split
  · exact inStep
  next changed live =>
  split
  · exact inStep
  obtain ⟨entry, held, rfl⟩ := Option.map_eq_some_iff.mp live
  refine CatchingUp.foldl_onState ?_
  have get (u : ι) (other : String) : ((w.modifyTransport t fun t =>
      (Transport.onChannelState flag)^[entry.impl.listens] (t.modifyChannel name
        fun impl => impl.setFlag flag value)).transports u).channels.get other =
      if u = t ∧ other = name then some { entry with impl := entry.impl.setFlag flag value }
      else (w.transports u).channels.get other := by
    rw [transports_modifyTransport]
    split
    · next here =>
      rw [(Transport.iterate_onChannelState _ _ _).1, Transport.get_modifyChannel, here, held]
      simp only [true_and, Option.map_some]
    · next elsewhere => simp only [elsewhere, false_and, if_false]
  have created (u : ι) : ((w.modifyTransport t fun t =>
      (Transport.onChannelState flag)^[entry.impl.listens] (t.modifyChannel name
        fun impl => impl.setFlag flag value)).transports u).created = (w.transports u).created := by
    rw [transports_modifyTransport]
    split
    · next here => rw [(Transport.iterate_onChannelState _ _ _).2, here]; rfl
    · rfl
  have same : (entry.impl.setFlag flag value).serial = entry.impl.serial ∧
      (entry.impl.setFlag flag value).slots = entry.impl.slots := by
    cases flag <;> exact ⟨rfl, rfl⟩
  have channel (c : ChannelRef ι) : (w.modifyTransport t fun t =>
      (Transport.onChannelState flag)^[entry.impl.listens] (t.modifyChannel name
        fun impl => impl.setFlag flag value)).channel c = w.channel c := rfl
  generalize (w.modifyTransport t fun t => (Transport.onChannelState flag)^[entry.impl.listens]
    (t.modifyChannel name fun impl => impl.setFlag flag value)) = v at get created channel
  -- a pointer leads to the channel that has changed, or to what it led to before
  have old (x impl) (pointed : v.impl x = some impl) :
      (impl = entry.impl.setFlag flag value ∧ w.impl x = some entry.impl) ∨
        w.impl x = some impl := by
    obtain ⟨e, listed, rfl, serial⟩ := (impl_eq_some _).mp pointed
    rw [get] at listed
    split at listed
    · next here =>
      obtain ⟨rfl, rfl⟩ := here
      cases listed
      exact .inl ⟨rfl, (impl_eq_some _).mpr ⟨entry, held, rfl, same.1.symm.trans serial⟩⟩
    · exact .inr ((impl_eq_some _).mpr ⟨e, listed, rfl, serial⟩)
  refine { serials := ?_, made := ?_, listening := ?_, flags := ?_ }
  · intro u other e listed
    rw [Option.mem_def, get] at listed
    rw [created]
    split at listed
    · next here =>
      obtain ⟨rfl, rfl⟩ := here
      cases listed
      rw [same.1]
      exact inStep.serials u other entry held
    · exact inStep.serials u other e listed
  · intro c p listed x points
    rw [created]
    exact inStep.made c p (channel c ▸ listed) x points
  · intro c p listed x points impl pointed
    rw [channel] at listed
    rcases old x impl pointed with ⟨rfl, before⟩ | before
    · rw [same.2]
      exact inStep.listening c p listed x points entry.impl before
    · exact inStep.listening c p listed x points impl before
  · intro c p listed x points impl pointed other
    rw [channel] at listed
    rcases old x impl pointed with ⟨rfl, before⟩ | before
    · rw [ChannelImpl.flag_setFlag, inStep.flags c p listed x points entry.impl before]
      split
      · next changes => exact .inr ⟨changes, inStep.listening c p listed x points entry.impl before⟩
      · exact .inl rfl
    · exact .inl (congrFun (inStep.flags c p listed x points impl before) other)

omit [DecidableEq ι] in
theorem agrees (inStep : InStep w) : w.Agrees := fun c p listed x points impl live =>
  ⟨congrFun (inStep.flags c p listed x points impl live) .readable,
    congrFun (inStep.flags c p listed x points impl live) .writable⟩

variable [Fintype ι]

theorem step (inStep : InStep w) {call : Call ι}
    (finds : Along World.exec Finds w (w.statements call)) : InStep (w.step call) := by
  cases call with
  | setReadable t name readable => exact inStep.setState .readable t name readable
  | setWritable t name writable => exact inStep.setState .writable t name writable
  | _ => exact finds.invariant (fun _ _ ok inStep => inStep.exec ok) inStep

end InStep

/-- Where every `SetImplementation` finds the flags of the proxy, every proxy has the flags of
its implementation at all times. -/
theorem agrees_of_calls [DecidableEq ι] [Fintype ι] {calls : List (Call ι)}
    (finds : Along step (fun w call => Along exec Finds w (w.statements call))
      (start : World ι γ) calls) :
    Agrees (runInputs step (start : World ι γ) calls) :=
  (finds.invariant (P := InStep) (fun _ _ ok inStep => inStep.step ok) .start).agrees

/-- Two contents, muxed onto one transport before its channel becomes writable. -/
def sampleCalls : List (Call (Fin 2)) :=
  [.createChannel 0 "rtp" "audio", .createChannel 1 "video_rtp" "video",
    .speculativelyConnectChannels 0, .completeNegotiation 0, .completeNegotiation 1, .setupMux 1 0,
    .setWritable 0 "rtp" true, .setReadable 0 "rtp" true]

theorem agrees_of_sampleCalls :
    Agrees (runInputs step (start : World (Fin 2) Unit) sampleCalls) :=
  agrees_of_calls (by decide)

/-- A channel connected speculatively that is writable before negotiation completes: its proxy
never hears of that. -/
theorem writable_before_negotiation :
    ¬ Agrees (runInputs step (start : World (Fin 1) Unit)
      [.createChannel 0 "rtp" "audio", .speculativelyConnectChannels 0,
        .setWritable 0 "rtp" true, .completeNegotiation 0]) := by
  intro agrees
  have same := (agrees ⟨0, "rtp"⟩ _ rfl _ rfl _ rfl).2
  revert same
  decide

end World

end Libjingle.Channels

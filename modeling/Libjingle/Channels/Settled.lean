import Libjingle.Channels.Counting

/-!
# What holds of proxies between calls

A proxy that has negotiated has an implementation for each of its channels, on its own
transport and none twice, and every channel of that transport is held. Before that its
channels have no implementation, and the transport, with the channels connected
speculatively, is its own. While a method runs, this fails for the channels it has yet
to provide for.
-/

namespace Libjingle.Channels

open Libjingle.Std

variable {ι γ : Type} [DecidableEq ι] [Fintype ι]

namespace World

/-- The invariant, but for the channels in `todo`. -/
structure SettledBut (w : World ι γ) (todo : List (ChannelRef ι)) : Prop where
  counted : Counted w none
  implemented : ∀ c, ∀ p ∈ w.channel c, (w.proxies c.proxy).negotiated → c ∉ todo →
    ∃ x ∈ p.impl, x.transport = (w.proxies c.proxy).transport
  waiting : ∀ c, ∀ p ∈ w.channel c, ¬ (w.proxies c.proxy).negotiated ∨ c ∈ todo → p.impl = none
  distinct : ∀ c, ∀ p ∈ w.channel c, ∀ d, ∀ q ∈ w.channel d, c.proxy = d.proxy →
    ∀ x ∈ p.impl, x ∈ q.impl → c = d
  held : ∀ i, (w.proxies i).negotiated → ∀ x, x.transport = (w.proxies i).transport →
    ∀ e ∈ w.entry x, 1 ≤ w.holders x ∨ ⟨i, x.name⟩ ∈ todo
  own : ∀ i, ¬ (w.proxies i).negotiated →
    (w.proxies i).transport = i ∧ ∀ j, (w.proxies j).transport = i → j = i
  named : ∀ i, ¬ (w.proxies i).negotiated → ∀ x, x.transport = i → ∀ e ∈ w.entry x,
    ∃ p, w.channel ⟨i, x.name⟩ = some p
  /-- Nobody holds what a channel is to be provided with. -/
  clean : ∀ c ∈ todo, ∀ x, x.transport = (w.proxies c.proxy).transport → x.name = c.name →
    w.holders x = 0
  oneProxy : ∀ c ∈ todo, ∀ d ∈ todo, c.proxy = d.proxy

abbrev Settled (w : World ι γ) : Prop := SettledBut w []

theorem Settled.start : Settled (start : World ι γ) where
  counted := {
    live := fun _ _ listed => absurd listed nofun
    onTheWay := fun _ same => absurd same nofun
    refs := fun _ _ found => absurd found nofun }
  implemented _ _ listed := absurd listed nofun
  waiting _ _ listed := absurd listed nofun
  distinct _ _ listed := absurd listed nofun
  held _ done := absurd done nofun
  own _ _ := ⟨rfl, fun _ same => same⟩
  named _ _ _ _ _ found := absurd found nofun
  clean _ listed := absurd listed nofun
  oneProxy _ listed := absurd listed nofun

/-! ## Worlds that differ in flags and messages -/

/-- The references and pointers of two worlds are the same. -/
structure Alike (w v : World ι γ) : Prop where
  refs : ∀ x, (v.entry x).map ChannelMapEntry.ref = (w.entry x).map ChannelMapEntry.ref
  impls : ∀ c, (v.channel c).map TransportChannelProxy.impl =
    (w.channel c).map TransportChannelProxy.impl
  holders : ∀ x, v.holders x = w.holders x
  transports : ∀ i, (v.proxies i).transport = (w.proxies i).transport
  states : ∀ i, (v.proxies i).state = (w.proxies i).state

namespace Alike

variable {u v w : World ι γ}

theorem refl (w : World ι γ) : Alike w w :=
  ⟨fun _ => rfl, fun _ => rfl, fun _ => rfl, fun _ => rfl, fun _ => rfl⟩

theorem trans (first : Alike u v) (second : Alike v w) : Alike u w where
  refs x := (second.refs x).trans (first.refs x)
  impls c := (second.impls c).trans (first.impls c)
  holders x := (second.holders x).trans (first.holders x)
  transports i := (second.transports i).trans (first.transports i)
  states i := (second.states i).trans (first.states i)

theorem entry (alike : Alike w v) {x : ImplRef ι} {e : ChannelMapEntry (ChannelRef ι)}
    (found : v.entry x = some e) : ∃ e', w.entry x = some e' ∧ e'.ref = e.ref := by
  have same := alike.refs x
  rw [found, Option.map_some] at same
  obtain ⟨e', there, ref⟩ := Option.map_eq_some_iff.mp same.symm
  exact ⟨e', there, ref⟩

theorem channel (alike : Alike w v) {c : ChannelRef ι} {p : TransportChannelProxy ι}
    (listed : v.channel c = some p) : ∃ q, w.channel c = some q ∧ q.impl = p.impl := by
  have same := alike.impls c
  rw [listed, Option.map_some] at same
  obtain ⟨q, there, impl⟩ := Option.map_eq_some_iff.mp same.symm
  exact ⟨q, there, impl⟩

theorem symm (alike : Alike w v) : Alike v w where
  refs x := (alike.refs x).symm
  impls c := (alike.impls c).symm
  holders x := (alike.holders x).symm
  transports i := (alike.transports i).symm
  states i := (alike.states i).symm

/-- A transport whose counts stay. -/
theorem modifyTransport {t : ι} {f : Transport (ChannelRef ι) γ → Transport (ChannelRef ι) γ}
    (same : ∀ name, (((f (w.transports t)).channels.get name).map fun e => (e.impl.serial, e.ref)) =
      ((w.transports t).channels.get name).map fun e => (e.impl.serial, e.ref)) :
    Alike w (w.modifyTransport t f) where
  refs x := by
    have filtered (o : Option (ChannelMapEntry (ChannelRef ι))) :
        (o.filter fun e => e.impl.serial = x.serial).map ChannelMapEntry.ref =
          ((o.map fun e => (e.impl.serial, e.ref)).filter fun e => e.1 = x.serial).map Prod.snd := by
      cases o with
      | none => rfl
      | some e =>
        by_cases number : e.impl.serial = x.serial <;> simp [Option.filter_some, number]
    rw [World.entry, World.entry, transports_modifyTransport]
    split
    · next here => rw [filtered, filtered, same, here]
    · rfl
  impls _ := rfl
  holders _ := rfl
  transports _ := rfl
  states _ := rfl

/-- A channel proxy whose implementation stays. -/
theorem modifyChannel {c : ChannelRef ι} {f : TransportChannelProxy ι → TransportChannelProxy ι}
    (same : ∀ p, (f p).impl = p.impl) : Alike w (w.modifyChannel c f) where
  refs _ := rfl
  impls d := by
    rw [channel_modifyChannel]
    split
    · next here =>
      rw [here, Option.map_map]
      cases w.channel c with
      | none => rfl
      | some p => simp [same]
    · rfl
  holders x := by
    cases listed : w.channel c with
    | none =>
      have moved := w.holders_modifyProxy c.proxy
        (fun p => { p with channels := p.channels.modify c.name f }) x
      rw [OrderedMap.modify_absent listed] at moved
      exact Nat.add_right_cancel moved
    | some p =>
      have moved := w.holders_modifyChannel listed f x
      rw [same] at moved
      exact Nat.add_right_cancel moved
  transports i := by
    rw [World.modifyChannel, proxies_modifyProxy]
    split
    · next here => rw [here]
    · rfl
  states i := by
    rw [World.modifyChannel, proxies_modifyProxy]
    split
    · next here => rw [here]
    · rfl

end Alike

theorem SettledBut.alike {w v : World ι γ} {todo : List (ChannelRef ι)} (settled : SettledBut w todo)
    (alike : Alike w v) : SettledBut v todo where
  counted := {
    live := fun c p listed x points => by
      obtain ⟨q, there, impl⟩ := alike.channel listed
      obtain ⟨e, found⟩ := settled.counted.live c q there x (impl ▸ points)
      obtain ⟨e', same, -⟩ := alike.symm.entry found
      exact ⟨e', same⟩
    onTheWay := fun _ same => absurd same nofun
    refs := fun x e found => by
      obtain ⟨e', there, ref⟩ := alike.entry found
      rw [alike.holders, ← ref]
      exact settled.counted.refs x e' there }
  implemented c p listed done := by
    obtain ⟨q, there, impl⟩ := alike.channel listed
    rw [← impl, alike.transports]
    exact settled.implemented c q there ((alike.states _).symm.trans done)
  waiting c p listed := by
    obtain ⟨q, there, impl⟩ := alike.channel listed
    rw [← impl, TransportProxy.negotiated, alike.states]
    exact settled.waiting c q there
  distinct c p listed d q other same x points points' := by
    obtain ⟨p', there, impl⟩ := alike.channel listed
    obtain ⟨q', there', impl'⟩ := alike.channel other
    exact settled.distinct c p' there d q' there' same x (impl ▸ points) (impl' ▸ points')
  held i done x here e found := by
    obtain ⟨e', there, -⟩ := alike.entry found
    rw [alike.holders]
    exact settled.held i ((alike.states i).symm.trans done) x (here.trans (alike.transports i)) e' there
  own i notYet := by
    simp only [alike.transports]
    exact settled.own i fun done => notYet ((alike.states i).trans done)
  named i notYet x here e found := by
    obtain ⟨e', there, -⟩ := alike.entry found
    obtain ⟨p, listed⟩ := settled.named i (fun done => notYet ((alike.states i).trans done)) x here e' there
    obtain ⟨q, same, -⟩ := alike.symm.channel listed
    exact ⟨q, same⟩
  clean c listed x here name := by
    rw [alike.holders]
    exact settled.clean c listed x (here.trans (alike.transports _)) name
  oneProxy := settled.oneProxy

namespace SettledBut

variable {w : World ι γ} {todo : List (ChannelRef ι)}

/-- A channel proxy comes in; one of a proxy that has negotiated waits for an implementation. -/
theorem addChannel {i : ι} {name : String} (settled : Settled w) (contentType : String)
    (absent : (w.proxies i).channels.get name = none)
    (free : (w.transports (w.proxies i).transport).hasChannel name = false) :
    SettledBut (w.exec (.addChannel i name contentType))
      (if (w.proxies i).negotiated then [⟨i, name⟩] else []) := by
  have channel (d : ChannelRef ι) : (w.exec (.addChannel i name contentType)).channel d =
      if d = ⟨i, name⟩ then some { contentType } else w.channel d := by
    obtain ⟨j, other⟩ := d
    simp only [World.exec, World.channel, proxies_modifyProxy, ChannelRef.mk.injEq]
    by_cases here : j = i
    · subst here
      simp only [if_true, OrderedMap.get_insert, true_and]
    · simp only [here, if_false, false_and]
  have transports (j : ι) : ((w.exec (.addChannel i name contentType)).proxies j).transport =
      (w.proxies j).transport := by
    simp only [World.exec, proxies_modifyProxy]
    split
    · next here => rw [here]
    · rfl
  have states (j : ι) : ((w.exec (.addChannel i name contentType)).proxies j).state =
      (w.proxies j).state := by
    simp only [World.exec, proxies_modifyProxy]
    split
    · next here => rw [here]
    · rfl
  have holders (x : ImplRef ι) : (w.exec (.addChannel i name contentType)).holders x =
      w.holders x := by
    have moved := w.holders_modifyProxy i
      (fun p => { p with channels := p.channels.insert name { contentType } }) x
    have inserted : TransportProxy.holders { w.proxies i with
        channels := (w.proxies i).channels.insert name { contentType } } x =
        (w.proxies i).holders x := by
      simp only [TransportProxy.holders, OrderedMap.count_insert absent, reduceCtorEq, decide_false,
        Bool.toNat_false, Nat.add_zero]
    rw [inserted] at moved
    exact Nat.add_right_cancel moved
  have entry (x : ImplRef ι) : (w.exec (.addChannel i name contentType)).entry x = w.entry x := rfl
  have isNew (c : ChannelRef ι)
      (listed : c ∈ if (w.proxies i).negotiated then [(⟨i, name⟩ : ChannelRef ι)] else []) :
      c = ⟨i, name⟩ := by
    split at listed
    · exact List.mem_singleton.mp listed
    · cases listed
  generalize w.exec (.addChannel i name contentType) = v at *
  refine {
    counted := ?_, implemented := ?_, waiting := ?_, distinct := ?_, held := ?_
    own := ?_, named := ?_, clean := ?_, oneProxy := ?_ }
  · refine { live := ?_, onTheWay := fun _ same => (by cases same), refs := ?_ }
    · intro c p listed x points
      rw [Option.mem_def, channel] at listed
      rw [entry]
      split at listed
      · cases listed
        cases points
      · exact settled.counted.live c p listed x points
    · intro x e found
      rw [entry] at found
      rw [holders]
      exact settled.counted.refs x e found
  · intro c p listed done notNew
    rw [Option.mem_def, channel] at listed
    rw [TransportProxy.negotiated, states] at done
    rw [transports]
    split at listed
    · next same =>
      subst same
      rw [if_pos done] at notNew
      exact absurd List.mem_cons_self notNew
    · exact settled.implemented c p listed done List.not_mem_nil
  · intro c p listed still
    rw [Option.mem_def, channel] at listed
    split at listed
    · cases listed
      rfl
    · next other =>
      refine settled.waiting c p listed (.inl fun done => ?_)
      rcases still with notYet | new
      · exact notYet ((states c.proxy).trans done)
      · exact other (isNew c new)
  · intro c p listed d q listed' same x points points'
    rw [Option.mem_def, channel] at listed listed'
    split at listed
    · cases listed
      cases points
    · split at listed'
      · cases listed'
        cases points'
      · exact settled.distinct c p listed d q listed' same x points points'
  · intro j done x here e found
    rw [TransportProxy.negotiated, states] at done
    rw [entry] at found
    rw [holders]
    exact (settled.held j done x (here.trans (transports j)) e found).imp_right
      fun none => absurd none List.not_mem_nil
  · intro j notYet
    rw [TransportProxy.negotiated, states] at notYet
    simp only [transports]
    exact settled.own j notYet
  · intro j notYet x here e found
    rw [TransportProxy.negotiated, states] at notYet
    rw [entry] at found
    obtain ⟨p, listed⟩ := settled.named j notYet x here e found
    rw [channel]
    split
    · exact ⟨_, rfl⟩
    · exact ⟨p, listed⟩
  · intro c listed x here named
    obtain rfl := isNew c listed
    rw [holders]
    refine settled.counted.holders_eq_zero ?_
    rw [transports] at here
    rw [World.entry, here, named]
    have none : (w.transports (w.proxies i).transport).channels.get name = none := by
      simpa [Transport.hasChannel] using free
    rw [none]
    rfl
  · intro c listed d listed'
    rw [isNew c listed, isNew d listed']

/-- A proxy that has not negotiated changes its state; if that is to have negotiated, all its
channels wait for implementations. -/
theorem setState {i : ι} (settled : Settled w) (notYet : ¬ (w.proxies i).negotiated)
    (state : TransportState) :
    SettledBut (w.exec (.setState i state))
      (if state = .negotiated then (w.proxies i).channels.keys.map (⟨i, ·⟩) else []) := by
  have channel (d : ChannelRef ι) : (w.exec (.setState i state)).channel d = w.channel d := by
    simp only [World.exec, World.channel, proxies_modifyProxy]
    split
    · next here => rw [here]
    · rfl
  have transports (j : ι) : ((w.exec (.setState i state)).proxies j).transport =
      (w.proxies j).transport := by
    simp only [World.exec, proxies_modifyProxy]
    split
    · next here => rw [here]
    · rfl
  have states (j : ι) : ((w.exec (.setState i state)).proxies j).state =
      if j = i then state else (w.proxies j).state := by
    simp only [World.exec, proxies_modifyProxy]
    split <;> rfl
  have holders (x : ImplRef ι) : (w.exec (.setState i state)).holders x = w.holders x :=
    Nat.add_right_cancel (w.holders_modifyProxy i (fun p => { p with state }) x)
  have entry (x : ImplRef ι) : (w.exec (.setState i state)).entry x = w.entry x := rfl
  have isOne (c : ChannelRef ι) (listed : c ∈ if state = .negotiated then
      (w.proxies i).channels.keys.map (fun name => (⟨i, name⟩ : ChannelRef ι)) else []) :
      c.proxy = i := by
    split at listed
    · obtain ⟨name, -, rfl⟩ := List.mem_map.mp listed
      rfl
    · cases listed
  have before (j : ι) (done : ((w.exec (.setState i state)).proxies j).negotiated) :
      j = i ∧ state = .negotiated ∨ j ≠ i ∧ (w.proxies j).negotiated := by
    rw [TransportProxy.negotiated, states] at done
    split at done
    · next here => exact .inl ⟨here, done⟩
    · next other => exact .inr ⟨other, done⟩
  have still (j : ι) (notYet' : ¬ ((w.exec (.setState i state)).proxies j).negotiated) :
      ¬ (w.proxies j).negotiated := by
    rw [TransportProxy.negotiated, states] at notYet'
    split at notYet'
    · next here => rwa [here]
    · exact notYet'
  generalize w.exec (.setState i state) = v at *
  obtain ⟨own, alone⟩ := settled.own i notYet
  refine {
    counted := ?_, implemented := ?_, waiting := ?_, distinct := ?_, held := ?_
    own := ?_, named := ?_, clean := ?_, oneProxy := ?_ }
  · refine { live := ?_, onTheWay := fun _ same => (by cases same), refs := ?_ }
    · intro c p listed x points
      rw [channel] at listed
      rw [entry]
      exact settled.counted.live c p listed x points
    · intro x e found
      rw [entry] at found
      rw [holders]
      exact settled.counted.refs x e found
  · intro c p listed done notNew
    rw [channel] at listed
    rw [transports]
    rcases before c.proxy done with ⟨here, negotiated⟩ | ⟨-, done⟩
    · refine absurd ?_ notNew
      rw [if_pos negotiated]
      obtain ⟨j, name⟩ := c
      obtain rfl : j = i := here
      exact List.mem_map_of_mem (OrderedMap.mem_keys.mpr ⟨p, listed⟩)
    · exact settled.implemented c p listed done List.not_mem_nil
  · intro c p listed either
    rw [channel] at listed
    refine settled.waiting c p listed (.inl ?_)
    rcases either with notYet' | listed
    · exact still c.proxy notYet'
    · rwa [isOne c listed]
  · intro c p listed d q listed'
    rw [channel] at listed listed'
    exact settled.distinct c p listed d q listed'
  · intro j done x here e found
    rw [entry] at found
    rw [transports] at here
    rw [holders]
    rcases before j done with ⟨rfl, negotiated⟩ | ⟨-, done⟩
    · obtain ⟨p, listed⟩ := settled.named j notYet x (here.trans own) e found
      rw [if_pos negotiated]
      exact .inr (List.mem_map_of_mem (OrderedMap.mem_keys.mpr ⟨p, listed⟩))
    · exact (settled.held j done x here e found).imp_right fun none => absurd none List.not_mem_nil
  · intro j notYet'
    simp only [transports]
    exact settled.own j (still j notYet')
  · intro j notYet' x here e found
    rw [entry] at found
    rw [channel]
    exact settled.named j (still j notYet') x here e found
  · intro c listed x here named
    rw [transports, isOne c listed, own] at here
    rw [holders]
    by_contra some
    obtain ⟨d, p, there, points⟩ := w.exists_of_one_le_holders (Nat.one_le_iff_ne_zero.mpr some)
    by_cases done : (w.proxies d.proxy).negotiated
    · obtain ⟨y, points', at'⟩ := settled.implemented d p there done List.not_mem_nil
      obtain rfl : y = x := Option.some.inj (points'.symm.trans points)
      rw [alone d.proxy (at'.symm.trans here)] at done
      exact notYet done
    · rw [settled.waiting d p there (.inl done)] at points
      cases points
  · intro c listed d listed'
    rw [isOne c listed, isOne d listed']

/-- A channel is created that no channel proxy has as its implementation yet. -/
theorem getOrCreateImpl {i : ι} {name contentType : String} (settled : Settled w)
    (notYet : ¬ (w.proxies i).negotiated) {p : TransportChannelProxy ι}
    (listed : w.channel ⟨i, name⟩ = some p) : Settled (w.getOrCreateImpl i name contentType) := by
  unfold World.getOrCreateImpl
  dsimp only
  split
  · exact settled
  next absent =>
  obtain ⟨own, alone⟩ := settled.own i notYet
  have gone := w.entry_handed_of_absent contentType (by simpa using absent)
  have free := settled.counted.holders_eq_zero gone
  have entries := w.entry_createChannel (w.proxies i).transport name contentType
  refine { settled with counted := ?_, held := ?_, named := ?_ }
  · exact (settled.counted.createChannel fun e there => by rw [gone] at there; cases there).dropPending free
  · intro j done y here e found
    rw [Option.mem_def, entries] at found
    split at found
    · next same =>
      subst same
      have shared : (w.proxies j).transport = i := here.symm.trans own
      rw [alone j shared] at done
      exact absurd done notYet
    · exact settled.held j done y here e found
  · intro j still y here e found
    rw [Option.mem_def, entries] at found
    split at found
    · next same =>
      subst same
      have same : i = j := own.symm.trans here
      exact ⟨p, same ▸ listed⟩
    · exact settled.named j still y here e found

/-- A channel proxy gets its implementation. -/
theorem setProxyImpl {c : ChannelRef ι} {rest : List (ChannelRef ι)} (settled : SettledBut w (c :: rest))
    (new : c ∉ rest) (done : (w.proxies c.proxy).negotiated) {p : TransportChannelProxy ι}
    (listed : w.channel c = some p) :
    SettledBut (w.setProxyImpl c) rest ∧
      (∀ i, ((w.setProxyImpl c).proxies i).state = (w.proxies i).state) ∧
      ∀ d q, w.channel d = some q → ∃ q', (w.setProxyImpl c).channel d = some q' := by
  have free := settled.clean c List.mem_cons_self
    (w.handed (w.proxies c.proxy).transport c.name p.contentType) rfl rfl
  -- the channel is there, or is created; in both cases nobody holds it
  obtain ⟨v, setting, counted, proxies, entries⟩ : ∃ v : World ι γ,
      w.setProxyImpl c = v.setImplementation c
        (w.handed (w.proxies c.proxy).transport c.name p.contentType) ∧
      Counted v (some (w.handed (w.proxies c.proxy).transport c.name p.contentType)) ∧
      v.proxies = w.proxies ∧ ∀ y e, v.entry y = some e →
        y = w.handed (w.proxies c.proxy).transport c.name p.contentType ∨ w.entry y = some e := by
    cases has : (w.transports (w.proxies c.proxy).transport).hasChannel c.name with
    | true =>
      obtain ⟨there, e, found⟩ := w.getChannel_of_hasChannel p.contentType has
      refine ⟨w, ?_, settled.counted.withPending found free, rfl, fun y e found => .inr found⟩
      simp only [World.setProxyImpl, listed, World.getOrCreateImpl, has, if_true, there]
    | false =>
      have gone := w.entry_handed_of_absent p.contentType has
      have vacuous (e) (there : w.entry (w.handed (w.proxies c.proxy).transport c.name p.contentType) =
          some e) : 1 ≤ w.holders (w.handed (w.proxies c.proxy).transport c.name p.contentType) := by
        rw [gone] at there
        cases there
      refine ⟨_, ?_, settled.counted.createChannel vacuous, rfl, fun y e found => ?_⟩
      · simp only [World.setProxyImpl, listed, World.getOrCreateImpl, has, Bool.false_eq_true, if_false,
          proxies_modifyTransport, getChannel_createChannel]
      · rw [entry_createChannel] at found
        split at found
        · next same => exact .inl same
        · exact .inr found
  have unique (y e) (found : w.entry y = some e) :=
    @eq_handed _ _ w (w.proxies c.proxy).transport c.name p.contentType y e found
  generalize pointer : w.handed (w.proxies c.proxy).transport c.name p.contentType = x at *
  have here : x.transport = (w.proxies c.proxy).transport := by rw [← pointer]; rfl
  have name : x.name = c.name := by rw [← pointer]; rfl
  have channelV (d : ChannelRef ι) : v.channel d = w.channel d := by rw [World.channel, proxies]; rfl
  have attached := counted.attached ((channelV c).trans listed)
  have channel (d : ChannelRef ι) : (v.setImplementation c x).channel d =
      if d = c then some { p with impl := some x } else w.channel d := by
    rw [attached.channel, channelV, channelV, listed, Option.map_some]
  have transports (i : ι) : ((v.setImplementation c x).proxies i).transport =
      (w.proxies i).transport := by
    rw [(attached.proxies i).1, proxies]
  have states (i : ι) : ((v.setImplementation c x).proxies i).state = (w.proxies i).state := by
    rw [(attached.proxies i).2.1, proxies]
  have holders (y : ImplRef ι) : v.holders y = w.holders y := by simp only [World.holders, proxies]
  have old (y e) (found : (v.setImplementation c x).entry y = some e) :
      y = x ∨ ∃ e', w.entry y = some e' := by
    obtain ⟨e', there⟩ := attached.entries y e found
    exact (entries y e' there).imp_right fun found => ⟨e', found⟩
  rw [setting]
  refine ⟨?_, states, fun d q there => ?_⟩
  rotate_left
  · rw [channel]
    split
    · exact ⟨_, rfl⟩
    · exact ⟨q, there⟩
  refine {
    counted := attached.counted, implemented := ?_, waiting := ?_, distinct := ?_, held := ?_
    own := ?_, named := ?_, clean := ?_, oneProxy := ?_ }
  · intro d q there negotiated settledBut
    rw [Option.mem_def, channel] at there
    rw [transports]
    split at there
    · next same =>
      cases there
      exact ⟨x, rfl, same ▸ here⟩
    · next other =>
      refine settled.implemented d q there ((states d.proxy).symm.trans negotiated) ?_
      exact fun listed => (List.mem_cons.mp listed).elim other settledBut
  · intro d q there still
    have other : d ≠ c := by
      rintro rfl
      exact still.elim (fun notYet => notYet ((states d.proxy).trans done)) new
    rw [Option.mem_def, channel, if_neg other] at there
    exact settled.waiting d q there
      (still.imp (fun notYet done => notYet ((states d.proxy).trans done)) (.tail _))
  · intro d q there d' q' there' same y points points'
    rw [Option.mem_def, channel] at there there'
    -- another channel with the new implementation would have held it before
    have alone (d q) (other : d ≠ c) (there : w.channel d = some q) : ¬ q.impl = some x := by
      intro points
      have positive := w.one_le_holders there points
      omega
    split at there <;> split at there'
    · next first second => rw [first, second]
    · next _ other =>
      cases there
      obtain rfl := Option.some.inj points
      exact absurd points' (alone d' q' other there')
    · next other _ =>
      cases there'
      obtain rfl := Option.some.inj points'
      exact absurd points (alone d q other there)
    · exact settled.distinct d q there d' q' there' same y points points'
  · intro i negotiated y at' e found
    rw [transports] at at'
    rcases old y e found with same | ⟨e', there⟩
    · exact .inl (attached.held y e found (.inl same))
    · rcases settled.held i ((states i).symm.trans negotiated) y at' e' there with positive | listed
      · exact .inl (attached.held y e found (.inr (by rwa [holders])))
      · rcases List.mem_cons.mp listed with isC | listed
        · refine .inl (attached.held y e found (.inl (unique y e' there ?_ ?_)))
          · rw [at', ← isC]
          · rw [← isC]
        · exact .inr listed
  · intro i notYet
    simp only [transports]
    exact settled.own i fun done => notYet ((states i).trans done)
  · intro i notYet y at' e found
    have still : ¬ (w.proxies i).negotiated := fun done => notYet ((states i).trans done)
    rcases old y e found with same | ⟨e', there⟩
    · subst same
      rw [← (settled.own i still).2 c.proxy (here.symm.trans at')] at still
      exact absurd done still
    · obtain ⟨q, there⟩ := settled.named i still y at' e' there
      rw [channel]
      split
      · exact ⟨_, rfl⟩
      · exact ⟨q, there⟩
  · intro d listed y at' named
    rw [transports] at at'
    by_contra some
    obtain ⟨b, q, there, points⟩ :=
      (v.setImplementation c x).exists_of_one_le_holders (Nat.one_le_iff_ne_zero.mpr some)
    rw [Option.mem_def, channel] at there
    split at there
    · cases there
      obtain rfl := Option.some.inj points
      have same : d = c := by
        have proxy := settled.oneProxy d (.tail _ listed) c List.mem_cons_self
        obtain ⟨i, n⟩ := d
        obtain ⟨j, m⟩ := c
        dsimp only at proxy name named
        rw [proxy, ← named, name]
      exact new (same ▸ listed)
    · have positive := w.one_le_holders there points
      have free := settled.clean d (.tail _ listed) y at' named
      omega
  · exact fun d listed d' listed' => settled.oneProxy d (.tail _ listed) d' (.tail _ listed')

end SettledBut

/-! ## The calls -/

theorem alike_connectChannels (w : World ι γ) (i : ι) : Alike w (w.exec (.connectChannels i)) := by
  refine .modifyTransport fun name => ?_
  rw [Transport.get_connectChannels]
  split
  · rfl
  · rw [Option.map_map]
    rfl

theorem alike_setState (w : World ι γ) (flag : StateFlag) (t : ι) (name : String) (value : Bool) :
    Alike w (w.setState flag t name value) := by
  have called (w : World ι γ) (c : ChannelRef ι) : Alike w (w.onState flag c) := by
    unfold onState
    split
    · exact .refl w
    · refine .modifyChannel fun p => ?_
      cases flag <;> rfl
  have all (w : World ι γ) (slots : List (ChannelRef ι)) : Alike w (slots.foldl (onState flag) w) := by
    induction slots generalizing w with
    | nil => exact .refl w
    | cons c slots ih => exact (called w c).trans (ih _)
  unfold World.setState
  split
  · exact .refl w
  split
  · exact .refl w
  · refine Alike.trans (.modifyTransport fun other => ?_) (all _ _)
    rw [(Transport.iterate_onChannelState _ _ _).1, Transport.get_modifyChannel]
    split
    · next here =>
      rw [here, Option.map_map]
      congr 1
      funext e
      cases flag <;> rfl
    · rfl

namespace Settled

variable {w : World ι γ} {i : ι}

/-- The statements of `CreateChannel`. -/
theorem createChannel {name contentType : String} (settled : Settled w)
    (asserts : w.Asserts (.createChannel i name contentType)) :
    Settled (w.step (.createChannel i name contentType)) := by
  obtain ⟨absent, free⟩ := asserts
  have added := SettledBut.addChannel settled contentType absent free
  have state : ((w.exec (.addChannel i name contentType)).proxies i).state = (w.proxies i).state := by
    simp only [World.exec, proxies_modifyProxy, if_true]
  have listed : (w.exec (.addChannel i name contentType)).channel ⟨i, name⟩ =
      some { contentType } := by
    simp only [World.exec, World.channel, proxies_modifyProxy, if_true, OrderedMap.get_insert]
  simp only [World.step, World.statements, TransportProxy.createChannel, runInputs_cons]
  cases stands : (w.proxies i).state with
  | init =>
    rw [if_neg (by rw [TransportProxy.negotiated, stands]; decide)] at added
    exact added
  | connecting =>
    rw [if_neg (by rw [TransportProxy.negotiated, stands]; decide)] at added
    exact added.getOrCreateImpl (by rw [TransportProxy.negotiated, state, stands]; decide) listed
  | negotiated =>
    rw [if_pos stands] at added
    exact (added.setProxyImpl List.not_mem_nil (state.trans stands) listed).1

/-- The statements of `SpeculativelyConnectChannels`. -/
theorem speculativelyConnectChannels (settled : Settled w)
    (asserts : w.Asserts (.speculativelyConnectChannels i)) :
    Settled (w.step (.speculativelyConnectChannels i)) := by
  have connecting := SettledBut.setState settled asserts .connecting
  rw [if_neg (by decide)] at connecting
  have state : ((w.exec (.setState i .connecting)).proxies i).state = .connecting := by
    simp only [World.exec, proxies_modifyProxy, if_true]
  have channels (c) (listed : c ∈ (w.proxies i).channels.entries) :
      (w.exec (.setState i .connecting)).channel ⟨i, c.1⟩ = some c.2 := by
    simp only [World.exec, World.channel, proxies_modifyProxy, if_true]
    exact OrderedMap.get_eq_some.mpr listed
  simp only [World.step, World.statements, TransportProxy.speculativelyConnectChannels,
    runInputs_cons, runInputs_append, runInputs_nil]
  refine SettledBut.alike ?_ (alike_connectChannels _ i)
  generalize w.exec (.setState i .connecting) = v at *
  generalize (w.proxies i).channels.entries = entries at channels
  -- every channel is created in turn, which no proxy notices
  induction entries generalizing v with
  | nil => exact connecting
  | cons c entries ih =>
    have proxies : (v.getOrCreateImpl i c.1 c.2.contentType).proxies = v.proxies := by
      unfold World.getOrCreateImpl
      dsimp only
      split <;> rfl
    have created : Settled (v.getOrCreateImpl i c.1 c.2.contentType) := connecting.getOrCreateImpl
      (by rw [TransportProxy.negotiated, state]; decide) (channels c List.mem_cons_self)
    have states : ((v.getOrCreateImpl i c.1 c.2.contentType).proxies i).state = .connecting := by
      rw [proxies]
      exact state
    have later (d) (listed : d ∈ entries) :
        (v.getOrCreateImpl i c.1 c.2.contentType).channel ⟨i, d.1⟩ = some d.2 := by
      rw [World.channel, proxies]
      exact channels d (.tail _ listed)
    exact ih _ created states later

/-- The channels of a proxy that has just negotiated get their implementations in turn. -/
theorem setProxyImpls {names : List String} (settled : SettledBut w (names.map (⟨i, ·⟩)))
    (once : names.Nodup) (done : (w.proxies i).negotiated)
    (listed : ∀ name ∈ names, ∃ p, w.channel ⟨i, name⟩ = some p) :
    Settled (runInputs exec w (names.map fun name => .setProxyImpl i name)) := by
  induction names generalizing w with
  | nil => exact settled
  | cons name names ih =>
    obtain ⟨p, there⟩ := listed name List.mem_cons_self
    obtain ⟨new, once⟩ := List.nodup_cons.mp once
    have notLater : (⟨i, name⟩ : ChannelRef ι) ∉ names.map (⟨i, ·⟩) := by
      intro later
      obtain ⟨other, listed, same⟩ := List.mem_map.mp later
      cases same
      exact new listed
    obtain ⟨provided, states, channels⟩ := settled.setProxyImpl notLater done there
    refine ih provided once ((states i).trans done) fun other later => ?_
    obtain ⟨q, before⟩ := listed other (.tail _ later)
    exact channels _ q before

/-- The statements of `CompleteNegotiation`. -/
theorem completeNegotiation (settled : Settled w) : Settled (w.step (.completeNegotiation i)) := by
  simp only [World.step, World.statements, TransportProxy.completeNegotiation]
  split
  · exact settled
  next notYet =>
  have negotiating := SettledBut.setState settled notYet .negotiated
  rw [if_pos rfl] at negotiating
  rw [runInputs_cons, runInputs_append]
  refine SettledBut.alike (setProxyImpls negotiating ?_ ?_ ?_) (alike_connectChannels _ i)
  · exact (w.proxies i).channels.keys_nodup
  · simp only [World.exec, proxies_modifyProxy, if_true]
  · intro name listed
    obtain ⟨p, there⟩ := OrderedMap.mem_keys.mp listed
    exact ⟨p, by simp only [World.exec, World.channel, proxies_modifyProxy, if_true, there]⟩

end Settled

end World

end Libjingle.Channels

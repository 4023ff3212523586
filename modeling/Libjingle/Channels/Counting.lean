import Libjingle.Channels.Proxy
import Mathlib.Algebra.BigOperators.Group.Finset.Basic

/-!
# Counting the references to a channel

The count in a map entry is the number of channel proxies whose implementation is the
channel, and one for a channel that has been created but not handed to a proxy. While
`SetImplementation` is being called, the pointer it is called with is one more
reference.
-/

namespace Libjingle.Channels

open Libjingle.Std

variable {ι γ : Type} [DecidableEq ι]

def TransportProxy.holders (p : TransportProxy ι) (x : ImplRef ι) : Nat :=
  p.channels.count fun c => c.impl = some x

namespace World

/-- The map entry of what a pointer leads to. -/
def entry (w : World ι γ) (x : ImplRef ι) : Option (ChannelMapEntry (ChannelRef ι)) :=
  ((w.transports x.transport).channels.get x.name).filter fun e => e.impl.serial = x.serial

/-- How many channel proxies have an implementation. -/
def holders [Fintype ι] (w : World ι γ) (x : ImplRef ι) : Nat :=
  ∑ i, (w.proxies i).holders x

section Entries

variable (w : World ι γ)

omit [DecidableEq ι] in
theorem entry_eq_some {x : ImplRef ι} {e : ChannelMapEntry (ChannelRef ι)} :
    w.entry x = some e ↔ (w.transports x.transport).channels.get x.name = some e ∧
      e.impl.serial = x.serial := by
  simp only [entry, Option.filter_eq_some_iff, decide_eq_true_eq]

omit [DecidableEq ι] in
theorem impl_eq_map_entry (x : ImplRef ι) : w.impl x = (w.entry x).map ChannelMapEntry.impl := by
  refine Option.ext fun impl => ?_
  rw [impl_eq_some, Option.map_eq_some_iff]
  simp only [entry_eq_some]
  constructor
  · rintro ⟨e, live, rfl, serial⟩
    exact ⟨e, ⟨live, serial⟩, rfl⟩
  · rintro ⟨e, ⟨live, serial⟩, rfl⟩
    exact ⟨e, live, rfl, serial⟩

/-- The pointer that a transport hands out for a name. -/
def handed (t : ι) (name contentType : String) : ImplRef ι :=
  ⟨t, name, ((w.transports t).found name contentType).impl.serial⟩

omit [DecidableEq ι] in
/-- A transport hands out the pointer to the channel that it has under the name. -/
theorem eq_handed {t : ι} {name : String} (contentType : String) {x : ImplRef ι}
    {e : ChannelMapEntry (ChannelRef ι)} (found : w.entry x = some e) (here : x.transport = t)
    (named : x.name = name) : x = w.handed t name contentType := by
  obtain ⟨live, serial⟩ := (w.entry_eq_some).mp found
  subst here named
  rw [handed, Transport.found, live, Option.getD_some, serial]

omit [DecidableEq ι] in
theorem getChannel_of_hasChannel {t : ι} {name : String} (contentType : String)
    (has : (w.transports t).hasChannel name = true) :
    w.getChannel t name = some (w.handed t name contentType) ∧
      ∃ e, w.entry (w.handed t name contentType) = some e := by
  obtain ⟨e, live⟩ := Option.isSome_iff_exists.mp has
  simp only [World.getChannel, Transport.getChannel, live, Option.map_some, handed, Transport.found,
    Option.getD_some, entry_eq_some, true_and]
  exact ⟨e, rfl, rfl⟩

omit [DecidableEq ι] in
theorem entry_handed_of_absent {t : ι} {name : String} (contentType : String)
    (absent : (w.transports t).hasChannel name = false) :
    w.entry (w.handed t name contentType) = none := by
  have none : (w.transports t).channels.get name = none := by
    simpa [Transport.hasChannel] using absent
  rw [entry, handed, none]
  rfl

theorem getChannel_createChannel (t : ι) (name contentType : String) :
    (w.modifyTransport t fun t => t.createChannel name contentType).getChannel t name =
      some (w.handed t name contentType) := by
  obtain ⟨same, -⟩ := (w.transports t).opened_same name contentType
  simp only [World.getChannel, transports_modifyTransport, if_true, Transport.getChannel,
    Transport.get_createChannel, Option.map_some, same, handed]

theorem entry_createChannel (t : ι) (name contentType : String) (y : ImplRef ι) :
    (w.modifyTransport t fun t => t.createChannel name contentType).entry y =
      if y = w.handed t name contentType then some ((w.transports t).opened name contentType)
      else w.entry y := by
  obtain ⟨u, other, serial⟩ := y
  obtain ⟨same, -⟩ := (w.transports t).opened_same name contentType
  simp only [handed, ImplRef.mk.injEq, entry, transports_modifyTransport]
  by_cases here : u = t
  · subst here
    rw [if_pos rfl, Transport.get_createChannel]
    by_cases named : other = name
    · subst named
      rw [if_pos rfl]
      by_cases made : serial = ((w.transports u).found other contentType).impl.serial
      · simp [made, same]
      · have notIt : ((w.transports u).opened other contentType).impl.serial ≠ serial := by
          rw [same]
          exact Ne.symm made
        rw [if_neg (fun all => made all.2.2)]
        simp only [Option.filter_some, notIt, decide_false, Bool.false_eq_true, if_false]
        cases before : (w.transports u).channels.get other with
        | none => rfl
        | some e =>
          rw [Transport.found, before, Option.getD_some] at made
          simp [Option.filter_some, Ne.symm made]
    · rw [if_neg named, if_neg fun all => named all.2.1]
  · rw [if_neg here, if_neg fun all => here all.1]

theorem entry_releaseImpl (x y : ImplRef ι) :
    (w.releaseImpl x).entry y =
      if y = x then (w.entry x).bind fun e =>
        if e.ref - 1 = 0 then none else some { e with ref := e.ref - 1 }
      else w.entry y := by
  unfold releaseImpl
  rw [impl_eq_map_entry]
  cases held : w.entry x with
  | none =>
    simp only [Option.map_none, Option.isSome_none, Bool.false_eq_true, if_false, Option.bind_none]
    split
    · next same => rw [same, held]
    · rfl
  | some e =>
    obtain ⟨live, serial⟩ := (w.entry_eq_some).mp held
    rw [Option.map_some, Option.isSome_some, if_pos rfl, Option.bind_some]
    obtain ⟨t, name, number⟩ := x
    obtain ⟨u, other, mark⟩ := y
    dsimp only at live serial
    simp only [ImplRef.mk.injEq, entry, transports_modifyTransport]
    by_cases here : u = t
    · subst here
      rw [if_pos rfl, Transport.get_destroyChannel _ _ live]
      by_cases named : other = name
      · subst named
        rw [if_pos rfl, live]
        by_cases made : mark = number
        · subst made
          simp only [true_and, if_true]
          split
          · rfl
          · simp [serial]
        · have notIt : e.impl.serial ≠ mark := fun same => made (same.symm.trans serial)
          simp only [made, and_false, if_false, Option.filter_some, notIt, decide_false,
            Bool.false_eq_true]
          split
          · rfl
          · simp [notIt]
      · rw [if_neg named, if_neg fun all => named all.2.1]
    · rw [if_neg here, if_neg fun all => here all.1]

theorem entry_modifyImpl (x y : ImplRef ι)
    {f : ChannelImpl (ChannelRef ι) → ChannelImpl (ChannelRef ι)}
    (same : ∀ impl, (f impl).serial = impl.serial) :
    (w.modifyImpl x f).entry y = if y = x then
      (w.entry x).map fun e => { e with impl := f e.impl } else w.entry y := by
  have changed (e : ChannelMapEntry (ChannelRef ι)) (z : ImplRef ι) :
      (if z = x then { e with impl := f e.impl } else e).impl.serial = e.impl.serial := by
    split
    · exact same _
    · rfl
  rw [entry, get_modifyImpl]
  cases live : (w.transports y.transport).channels.get y.name with
  | none =>
    have gone : w.entry y = none := by rw [entry, live]; rfl
    simp only [Option.map_none, Option.filter_none, gone]
    split
    · next here => rw [← here, gone]; rfl
    · rfl
  | some e =>
    rw [Option.map_some, Option.filter_some, changed]
    by_cases number : e.impl.serial = y.serial
    · have held : w.entry y = some e := (w.entry_eq_some).mpr ⟨live, number⟩
      rw [decide_eq_true number, if_pos rfl, number, held]
      split
      · next here => rw [← here, held]; rfl
      · rfl
    · have gone : w.entry y = none := by
        rw [entry, live, Option.filter_some, decide_eq_false number]
        rfl
      rw [decide_eq_false number, if_neg Bool.false_ne_true, gone]
      split
      · next here => rw [← here, gone]; rfl
      · rfl

end Entries

section Holders

variable [Fintype ι] (w : World ι γ)

theorem holders_modifyProxy (i : ι) (f : TransportProxy ι → TransportProxy ι) (x : ImplRef ι) :
    (w.modifyProxy i f).holders x + (w.proxies i).holders x =
      w.holders x + (f (w.proxies i)).holders x := by
  have before := Finset.add_sum_erase Finset.univ (fun j => (w.proxies j).holders x)
    (Finset.mem_univ i)
  have after := Finset.add_sum_erase Finset.univ (fun j => ((w.modifyProxy i f).proxies j).holders x)
    (Finset.mem_univ i)
  have rest : ∑ j ∈ Finset.univ.erase i, ((w.modifyProxy i f).proxies j).holders x =
      ∑ j ∈ Finset.univ.erase i, (w.proxies j).holders x :=
    Finset.sum_congr rfl fun j other => by
      rw [proxies_modifyProxy, if_neg (Finset.ne_of_mem_erase other)]
  rw [rest, proxies_modifyProxy, if_pos rfl] at after
  simp only [holders] at before after ⊢
  omega

theorem holders_modifyChannel {c : ChannelRef ι} {p : TransportChannelProxy ι}
    (listed : w.channel c = some p) (f : TransportChannelProxy ι → TransportChannelProxy ι)
    (x : ImplRef ι) :
    (w.modifyChannel c f).holders x + (decide (p.impl = some x)).toNat =
      w.holders x + (decide ((f p).impl = some x)).toNat := by
  have moved := w.holders_modifyProxy c.proxy
    (fun p => { p with channels := p.channels.modify c.name f }) x
  have counted := OrderedMap.count_modify listed f fun q => decide (q.impl = some x)
  simp only [TransportProxy.holders] at moved
  unfold modifyChannel
  omega

/-- A channel proxy that points somewhere is counted there. -/
theorem one_le_holders {c : ChannelRef ι} {p : TransportChannelProxy ι} {x : ImplRef ι}
    (listed : w.channel c = some p) (points : p.impl = some x) : 1 ≤ w.holders x := by
  have moved := w.holders_modifyChannel listed (fun p => { p with impl := none }) x
  rw [decide_eq_true points] at moved
  simp only [Bool.toNat_true, reduceCtorEq, decide_false, Bool.toNat_false] at moved
  omega

/-- What is counted somewhere has a channel proxy that points there. -/
theorem exists_of_one_le_holders {x : ImplRef ι} (some : 1 ≤ w.holders x) :
    ∃ c, ∃ p ∈ w.channel c, p.impl = .some x := by
  obtain ⟨i, -, positive⟩ := Finset.exists_ne_zero_of_sum_ne_zero (Nat.one_le_iff_ne_zero.mp some)
  obtain ⟨⟨name, p⟩, listed, points⟩ := List.countP_pos_iff.mp (Nat.pos_of_ne_zero positive)
  exact ⟨⟨i, name⟩, p, OrderedMap.get_eq_some.mpr listed, of_decide_eq_true points⟩

end Holders

variable [Fintype ι]

/-- Every count is the number of references, with the pointer that is on its way to a
channel proxy. -/
structure Counted (w : World ι γ) (pending : Option (ImplRef ι)) : Prop where
  live : ∀ c, ∀ p ∈ w.channel c, ∀ x ∈ p.impl, ∃ e, w.entry x = some e
  onTheWay : ∀ x ∈ pending, ∃ e, w.entry x = some e
  refs : ∀ x, ∀ e ∈ w.entry x, e.ref = max 1 (w.holders x + (decide (pending = some x)).toNat)

namespace Counted

variable {w : World ι γ} {pending : Option (ImplRef ι)}

/-- Nothing points to a channel that is not there. -/
theorem holders_eq_zero (counted : Counted w pending) {x : ImplRef ι} (gone : w.entry x = none) :
    w.holders x = 0 := by
  by_contra some
  obtain ⟨c, p, listed, points⟩ := w.exists_of_one_le_holders (Nat.one_le_iff_ne_zero.mpr some)
  obtain ⟨e, held⟩ := counted.live c p listed x points
  rw [gone] at held
  cases held

/-- A pointer to a channel that no proxy holds is on its way. -/
theorem withPending (counted : Counted w none) {x : ImplRef ι} {e : ChannelMapEntry (ChannelRef ι)}
    (held : w.entry x = some e) (free : w.holders x = 0) : Counted w (some x) where
  live := counted.live
  onTheWay y same := by
    obtain rfl := Option.some.inj same
    exact ⟨e, held⟩
  refs y e' found := by
    rw [counted.refs y e' found]
    by_cases same : some x = some y
    · obtain rfl := Option.some.inj same
      simp [free]
    · simp [same]

/-- `createChannel`, on a name that is free or whose channel is held. -/
theorem createChannel (counted : Counted w none) {t : ι} {name contentType : String}
    (held : ∀ e, w.entry (w.handed t name contentType) = some e →
      1 ≤ w.holders (w.handed t name contentType)) :
    Counted (w.modifyTransport t fun t => t.createChannel name contentType)
      (some (w.handed t name contentType)) where
  live c p listed x points := by
    rw [entry_createChannel]
    split
    · exact ⟨_, rfl⟩
    · exact counted.live c p listed x points
  onTheWay x same := by
    obtain rfl := Option.some.inj same
    rw [entry_createChannel, if_pos rfl]
    exact ⟨_, rfl⟩
  refs x e found := by
    have same : (w.modifyTransport t fun t => t.createChannel name contentType).holders x =
        w.holders x := rfl
    rw [Option.mem_def, entry_createChannel] at found
    rw [same]
    split at found
    · next here =>
      cases found
      subst here
      rw [decide_eq_true rfl, Bool.toNat_true, Nat.max_eq_right (Nat.le_add_left 1 _)]
      cases before : (w.transports t).channels.get name with
      | none =>
        have gone : w.entry (w.handed t name contentType) = none := by
          rw [entry, handed, before]
          rfl
        rw [counted.holders_eq_zero gone]
        simp only [Transport.opened, Transport.found, before, Option.getD_none]
      | some e =>
        have there : w.entry (w.handed t name contentType) = some e := by
          rw [entry_eq_some]
          simp [handed, Transport.found, before]
        have positive := held e there
        have count := counted.refs _ e there
        simp only [Transport.opened, Transport.found, before, Option.getD_some]
        simp only [reduceCtorEq, decide_false, Bool.toNat_false, Nat.add_zero] at count
        omega
    · next other =>
      rw [counted.refs x e found]
      have otherwise : ¬ some (w.handed t name contentType) = some x := fun same =>
        other (Option.some.inj same).symm
      simp only [reduceCtorEq, otherwise]

/-- A pointer that was not handed on leaves a channel with one reference. -/
theorem dropPending {x : ImplRef ι} (counted : Counted w (some x)) (free : w.holders x = 0) :
    Counted w none where
  live := counted.live
  onTheWay _ same := absurd same nofun
  refs y e found := by
    rw [counted.refs y e found]
    by_cases same : some x = some y
    · obtain rfl := Option.some.inj same
      simp [free]
    · simp [same]

end Counted

/-- What `SetImplementation` of `x` on the channel proxy `c` makes of a world. -/
structure Attached (w v : World ι γ) (c : ChannelRef ι) (x : ImplRef ι) : Prop where
  counted : Counted v none
  channel : ∀ d, v.channel d =
    if d = c then (w.channel c).map fun p => { p with impl := some x } else w.channel d
  proxies : ∀ i, (v.proxies i).transport = (w.proxies i).transport ∧
    (v.proxies i).state = (w.proxies i).state ∧
    (v.proxies i).channels.keys = (w.proxies i).channels.keys
  entries : ∀ y, ∀ e ∈ v.entry y, ∃ e', w.entry y = some e'
  held : ∀ y, ∀ e ∈ v.entry y, y = x ∨ 1 ≤ w.holders y → 1 ≤ v.holders y

omit [Fintype ι] in
theorem proxies_setImplementation (w : World ι γ) (c : ChannelRef ι) (x : ImplRef ι) :
    (w.setImplementation c x).proxies =
      (w.modifyChannel c fun p => { p with impl := some x }).proxies := by
  rw [setImplementation, proxies_modifyImpl, modifyChannel, modifyProxy, proxies_releaseOld]
  rfl

omit [Fintype ι] in
/-- A channel proxy gives up a reference to its old implementation, whose channel goes if
that was the last one. -/
theorem ref_setImplementation (w : World ι γ) {c : ChannelRef ι} (x : ImplRef ι)
    {p : TransportChannelProxy ι} (listed : w.channel c = some p) (y : ImplRef ι) :
    ((w.setImplementation c x).entry y).map ChannelMapEntry.ref =
      if p.impl = some y then ((w.entry y).map ChannelMapEntry.ref).bind fun ref =>
        if ref - 1 = 0 then none else some (ref - 1)
      else (w.entry y).map ChannelMapEntry.ref := by
  have released : (w.releaseOld c).entry y = if p.impl = some y then (w.entry y).bind fun e =>
      if e.ref - 1 = 0 then none else some { e with ref := e.ref - 1 } else w.entry y := by
    rw [releaseOld, listed, Option.bind_some]
    cases p.impl with
    | none => rw [if_neg (by nofun)]
    | some old =>
      dsimp only
      rw [entry_releaseImpl]
      by_cases same : y = old
      · rw [if_pos same, if_pos (congrArg some same.symm), same]
      · rw [if_neg same, if_neg fun equal => same (Option.some.inj equal).symm]
  have handedOn : ((w.setImplementation c x).entry y).map ChannelMapEntry.ref =
      ((w.releaseOld c).entry y).map ChannelMapEntry.ref := by
    have slotted := (((w.releaseOld c).modifyChannel c fun p =>
      { p with impl := some x }).entry_modifyImpl x y
        (f := fun impl => { impl with slots := impl.slots ++ [c] }) fun _ => rfl)
    rw [setImplementation, slotted]
    split
    · next same =>
      subst same
      rw [Option.map_map]
      rfl
    · rfl
  rw [handedOn, released]
  split
  · cases w.entry y with
    | none => rfl
    | some e =>
      simp only [Option.bind_some, Option.map_some]
      split <;> rfl
  · rfl

theorem Counted.attached {w : World ι γ} {c : ChannelRef ι} {x : ImplRef ι}
    {p : TransportChannelProxy ι} (counted : Counted w (some x)) (listed : w.channel c = some p) :
    Attached w (w.setImplementation c x) c x := by
  have proxies := w.proxies_setImplementation c x
  have channel (d : ChannelRef ι) : (w.setImplementation c x).channel d =
      if d = c then (w.channel c).map fun p => { p with impl := some x } else w.channel d := by
    rw [← channel_modifyChannel, World.channel, proxies]
    rfl
  have holders (y : ImplRef ι) : (w.setImplementation c x).holders y +
      (decide (p.impl = some y)).toNat = w.holders y + (decide (some x = some y)).toNat := by
    rw [← w.holders_modifyChannel listed (fun p => { p with impl := some x }) y]
    simp only [World.holders, proxies]
  have ref := w.ref_setImplementation x listed
  -- where the old implementation stays, the proxy was not its only holder
  have later (y : ImplRef ι) (e) (found : (w.setImplementation c x).entry y = some e) :
      ∃ before, w.entry y = some before ∧
        e.ref = max 1 ((w.setImplementation c x).holders y) ∧
        (y = x ∨ 1 ≤ w.holders y → 1 ≤ (w.setImplementation c x).holders y) := by
    have moved := holders y
    have refY := ref y
    rw [found, Option.map_some] at refY
    cases before : w.entry y with
    | none =>
      rw [before] at refY
      split at refY <;> cases refY
    | some before' =>
      have count := counted.refs y before' before
      rw [before, Option.map_some] at refY
      refine ⟨before', rfl, ?_⟩
      split at refY
      · next old =>
        have positive := w.one_le_holders listed old
        rw [decide_eq_true old, Bool.toNat_true] at moved
        rw [Option.bind_some] at refY
        split at refY
        · cases refY
        · have same : e.ref = before'.ref - 1 := Option.some.inj refY
          omega
      · next other =>
        have same : e.ref = before'.ref := Option.some.inj refY
        rw [decide_eq_false other, Bool.toNat_false] at moved
        refine ⟨by omega, fun either => ?_⟩
        rcases either with rfl | positive
        · rw [decide_eq_true rfl, Bool.toNat_true] at moved
          omega
        · omega
  refine { counted := ?_, channel, proxies := ?_, entries := ?_, held := ?_ }
  · refine { live := ?_, onTheWay := fun _ same => (by cases same), refs := ?_ }
    · intro d q there y points
      have positive := (w.setImplementation c x).one_le_holders there points
      have before : ∃ e, w.entry y = some e := by
        rw [Option.mem_def, channel] at there
        split at there
        · rw [listed, Option.map_some] at there
          cases there
          exact counted.onTheWay y points
        · exact counted.live d q there y points
      obtain ⟨e, before⟩ := before
      have refY := ref y
      have count := counted.refs y e before
      have moved := holders y
      rw [before, Option.map_some] at refY
      split at refY
      · next old =>
        have held := w.one_le_holders listed old
        rw [decide_eq_true old, Bool.toNat_true] at moved
        rw [Option.bind_some, if_neg (by omega)] at refY
        obtain ⟨e', found, -⟩ := Option.map_eq_some_iff.mp refY
        exact ⟨e', found⟩
      · obtain ⟨e', found, -⟩ := Option.map_eq_some_iff.mp refY
        exact ⟨e', found⟩
    · intro y e found
      obtain ⟨-, -, count, -⟩ := later y e found
      simpa using count
  · intro i
    rw [proxies, modifyChannel, proxies_modifyProxy]
    split
    · next here =>
      subst here
      exact ⟨rfl, rfl, OrderedMap.keys_modify _ _ _⟩
    · exact ⟨rfl, rfl, rfl⟩
  · intro y e found
    obtain ⟨before, there, -⟩ := later y e found
    exact ⟨before, there⟩
  · intro y e found
    obtain ⟨-, -, -, held⟩ := later y e found
    exact held

end World

end Libjingle.Channels

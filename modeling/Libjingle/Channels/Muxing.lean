import Libjingle.Channels.Settled
import Mathlib.Data.Fintype.Basic

/-!
# Muxing one proxy onto the transport of another

`SetupMux` walks through the channels of the other proxy, and points the channel of the
same index to one of their transport. Where the proxy has more channels than the other
one, those that are left keep implementations on the transport that is given up.
-/

namespace Libjingle.Channels

open Libjingle.Std

variable {ι γ : Type} [DecidableEq ι] [Fintype ι]

namespace World

/-- What muxing `a` onto `b` is to make of a world. -/
structure MuxedOnto (before after : World ι γ) (a b : ι) : Prop where
  shares : (after.proxies a).transport = (after.proxies b).transport
  /-- Every channel has a live implementation, whose count is the number of its holders. -/
  implemented : ∀ name, ∀ p ∈ after.channel ⟨a, name⟩, ∃ x ∈ p.impl,
    x.transport = (after.proxies b).transport ∧
      ∃ e ∈ after.entry x, e.ref = after.holders x
  distinct : ∀ name, ∀ p ∈ after.channel ⟨a, name⟩, ∀ other, ∀ q ∈ after.channel ⟨a, other⟩,
    ∀ x ∈ p.impl, x ∈ q.impl → name = other
  /-- Nothing is left on a transport that has been given up. -/
  released : (before.proxies a).transport ≠ (after.proxies a).transport →
    ∀ name, ∀ p ∈ after.channel ⟨a, name⟩, ∀ x ∈ p.impl,
      x.transport ≠ (before.proxies a).transport

/-- The proxy `a` has no more channels than `b`, or the transports are the same already and the
channels beyond have implementations of other names than the channels of `b`. -/
def Covers (w : World ι γ) (a b : ι) : Prop :=
  ((w.proxies a).transport = (w.proxies b).transport ∨
      (w.proxies a).channels.keys.length ≤ (w.proxies b).channels.keys.length) ∧
    ∀ name ∈ (w.proxies a).channels.keys.drop (w.proxies b).channels.keys.length,
      ∀ p ∈ w.channel ⟨a, name⟩, ∀ x ∈ p.impl, x.name ∉ (w.proxies b).channels.keys

instance (w : World ι γ) (a b : ι) : Decidable (w.Covers a b) := by
  have (name : String) : Decidable (∀ p ∈ w.channel ⟨a, name⟩, ∀ x ∈ p.impl,
      x.name ∉ (w.proxies b).channels.keys) := Option.decidableForallMem _
  unfold Covers
  infer_instance

/-- The loop of `SetupMux` after `count` turns. -/
structure Muxing (w v : World ι γ) (a b : ι) (count : Nat) : Prop where
  counted : Counted v none
  proxies : ∀ i, (v.proxies i).transport = (w.proxies i).transport ∧
    (v.proxies i).state = (w.proxies i).state ∧
    (v.proxies i).channels.keys = (w.proxies i).channels.keys
  others : ∀ c, c.proxy ≠ a → v.channel c = w.channel c
  redirected : ∀ k < count, ∀ name, (w.proxies a).channels.keys[k]? = some name →
    ∀ other, (w.proxies b).channels.keys[k]? = some other →
    ∃ p ∈ v.channel ⟨a, name⟩, ∃ x ∈ p.impl,
      x.transport = (w.proxies b).transport ∧ x.name = other
  left : ∀ k, count ≤ k → ∀ name, (w.proxies a).channels.keys[k]? = some name →
    v.channel ⟨a, name⟩ = w.channel ⟨a, name⟩
  source : ∀ name, ∀ p ∈ v.channel ⟨b, name⟩, ∃ x ∈ p.impl, x.transport = (w.proxies b).transport
  held : ∀ i, (w.proxies i).negotiated → ∀ x, x.transport = (w.proxies i).transport →
    ∀ e ∈ v.entry x, 1 ≤ v.holders x
  /-- Where a proxy has not negotiated, nothing is created. -/
  early : ∀ i, ¬ (w.proxies i).negotiated → ∀ x, x.transport = i → ∀ e ∈ v.entry x,
    ∃ e', w.entry x = some e'

namespace Muxing

variable {w v : World ι γ} {a b : ι} {count : Nat}

theorem start (settled : Settled w) (b : ι) (done : (w.proxies b).negotiated) : Muxing w w a b 0 where
  counted := settled.counted
  proxies _ := ⟨rfl, rfl, rfl⟩
  others _ _ := rfl
  redirected _ none := absurd none (Nat.not_lt_zero _)
  left _ _ _ _ := rfl
  source _ p listed := settled.implemented _ p listed done List.not_mem_nil
  held i done x here e found :=
    (settled.held i done x here e found).resolve_right List.not_mem_nil
  early _ _ _ _ e found := ⟨e, found⟩

/-- One turn of the loop. -/
theorem replaceImpl (muxing : Muxing w v a b count) (settled : Settled w)
    (done : (w.proxies b).negotiated) {other : String}
    (atIndex : (w.proxies b).channels.keys[count]? = some other) :
    Muxing w (v.replaceImpl a ⟨b, other⟩ count) a b (count + 1) := by
  cases target : (w.proxies a).channels.keys[count]? with
  | none =>
    have nothing : v.replaceImpl a ⟨b, other⟩ count = v := by
      rw [World.replaceImpl, (muxing.proxies a).2.2, target]
    rw [nothing]
    refine { muxing with redirected := fun k early name found => ?_, left := fun k late => muxing.left k (by omega) }
    rcases Nat.lt_succ_iff_lt_or_eq.mp early with earlier | rfl
    · exact muxing.redirected k earlier name found
    · rw [target] at found
      cases found
  | some name =>
    have once (k : Nat) (later : k ≠ count) (n : String)
        (found : (w.proxies a).channels.keys[k]? = some n) : n ≠ name := by
      rintro rfl
      exact later (OrderedMap.index_unique found target)
    obtain ⟨q, there⟩ : ∃ q, v.channel ⟨b, other⟩ = some q := by
      refine OrderedMap.mem_keys.mp ?_
      rw [(muxing.proxies b).2.2]
      exact List.mem_of_getElem? atIndex
    obtain ⟨p, listed⟩ : ∃ p, v.channel ⟨a, name⟩ = some p := by
      refine OrderedMap.mem_keys.mp ?_
      rw [(muxing.proxies a).2.2]
      exact List.mem_of_getElem? target
    obtain ⟨y, points, at'⟩ := muxing.source other q there
    rw [Option.mem_def] at points
    have redirects : v.replaceImpl a ⟨b, other⟩ count =
        (v.modifyTransport y.transport fun t => t.createChannel other q.contentType).setImplementation
          ⟨a, name⟩ (v.handed y.transport other q.contentType) := by
      simp only [World.replaceImpl, (muxing.proxies a).2.2, target, there, points]
      rw [getChannel_createChannel]
    rw [redirects, at']
    have created : World.Counted
        (v.modifyTransport (w.proxies b).transport fun t => t.createChannel other q.contentType)
        (some (v.handed (w.proxies b).transport other q.contentType)) :=
      muxing.counted.createChannel fun e found => muxing.held b done _ rfl e found
    have entries := v.entry_createChannel (w.proxies b).transport other q.contentType
    have attached := created.attached (c := ⟨a, name⟩) (p := p) listed
    have at'' : (v.handed (w.proxies b).transport other q.contentType).transport =
        (w.proxies b).transport := rfl
    have named : (v.handed (w.proxies b).transport other q.contentType).name = other := rfl
    generalize v.handed (w.proxies b).transport other q.contentType = x at *
    have channel (d : ChannelRef ι) : ((v.modifyTransport (w.proxies b).transport fun t =>
        t.createChannel other q.contentType).setImplementation ⟨a, name⟩ x).channel d =
        if d = ⟨a, name⟩ then some { p with impl := some x } else v.channel d := by
      rw [attached.channel]
      change (if d = ⟨a, name⟩ then (v.channel ⟨a, name⟩).map _ else v.channel d) = _
      rw [listed, Option.map_some]
    have old (z e) (found : ((v.modifyTransport (w.proxies b).transport fun t =>
        t.createChannel other q.contentType).setImplementation ⟨a, name⟩ x).entry z = some e) :
        z = x ∨ ∃ e', v.entry z = some e' := by
      obtain ⟨e', before⟩ := attached.entries z e found
      rw [entries] at before
      split at before
      · next same => exact .inl same
      · exact .inr ⟨e', before⟩
    refine {
      counted := attached.counted, proxies := ?_, others := ?_, redirected := ?_, left := ?_
      source := ?_, held := ?_, early := ?_ }
    · intro i
      obtain ⟨transport, state, keys⟩ := attached.proxies i
      obtain ⟨transport', state', keys'⟩ := muxing.proxies i
      exact ⟨transport.trans transport', state.trans state', keys.trans keys'⟩
    · intro c elsewhere
      rw [channel, if_neg (by rintro rfl; exact elsewhere rfl)]
      exact muxing.others c elsewhere
    · intro k early n found m found'
      rw [channel]
      by_cases here : k = count
      · subst here
        obtain rfl : name = n := Option.some.inj (target.symm.trans found)
        obtain rfl : other = m := Option.some.inj (atIndex.symm.trans found')
        rw [if_pos rfl]
        exact ⟨_, rfl, x, rfl, at'', named⟩
      · rw [if_neg (by rintro ⟨⟩; exact once k here _ found rfl)]
        exact muxing.redirected k (by omega) n found m found'
    · intro k late n found
      rw [channel, if_neg (by rintro ⟨⟩; exact once k (by omega) _ found rfl)]
      exact muxing.left k (by omega) n found
    · intro n q' there'
      rw [Option.mem_def, channel] at there'
      split at there'
      · cases there'
        exact ⟨x, rfl, at''⟩
      · exact muxing.source n q' there'
    · intro i negotiated z here e found
      rcases old z e found with same | ⟨e', before⟩
      · exact attached.held z e found (.inl same)
      · exact attached.held z e found (.inr (muxing.held i negotiated z here e' before))
    · intro i notYet z here e found
      rcases old z e found with same | ⟨e', before⟩
      · subst same
        rw [(settled.own i notYet).2 b (at''.symm.trans here)] at done
        exact absurd done notYet
      · exact muxing.early i notYet z here e' before

/-- The whole loop. -/
theorem loop (muxing : Muxing w v a b count) (settled : Settled w)
    (done : (w.proxies b).negotiated) {rest : List String}
    (bound : count ≤ (w.proxies b).channels.keys.length)
    (atIndex : (w.proxies b).channels.keys.drop count = rest) :
    Muxing w (runInputs exec v (rest.mapIdx fun index name =>
      .replaceImpl a ⟨b, name⟩ (index + count))) a b (w.proxies b).channels.keys.length := by
  induction rest generalizing v count with
  | nil =>
    have whole : count = (w.proxies b).channels.keys.length :=
      Nat.le_antisymm bound (List.drop_eq_nil_iff.mp atIndex)
    exact whole ▸ muxing
  | cons other rest ih =>
    have here : (w.proxies b).channels.keys[count]? = some other := by
      rw [← List.head?_drop, atIndex]
      rfl
    rw [List.mapIdx_cons, runInputs_cons]
    have next := muxing.replaceImpl settled done here
    have later : (w.proxies b).channels.keys.drop (count + 1) = rest := by
      rw [← List.tail_drop, atIndex]
      rfl
    have all := ih next (List.getElem?_eq_some_iff.mp here).1 later
    simp only [Nat.zero_add, Nat.add_assoc, Nat.add_comm 1] at all ⊢
    exact all

/-- After the loop a channel has been redirected, or is as it was. -/
theorem pointer (muxing : Muxing w v a b (w.proxies b).channels.keys.length) {name : String}
    {p : TransportChannelProxy ι} (listed : v.channel ⟨a, name⟩ = some p) :
    ∃ k, (w.proxies a).channels.keys[k]? = some name ∧
      ((∃ other, (w.proxies b).channels.keys[k]? = some other ∧ ∃ x ∈ p.impl,
          x.transport = (w.proxies b).transport ∧ x.name = other) ∨
        (w.proxies b).channels.keys.length ≤ k ∧ w.channel ⟨a, name⟩ = some p) := by
  have key : name ∈ (v.proxies a).channels.keys := OrderedMap.mem_keys.mpr ⟨p, listed⟩
  rw [(muxing.proxies a).2.2] at key
  obtain ⟨k, atIndex⟩ := List.mem_iff_getElem?.mp key
  refine ⟨k, atIndex, ?_⟩
  rcases Nat.lt_or_ge k (w.proxies b).channels.keys.length with early | late
  · have other := List.getElem?_eq_getElem early
    obtain ⟨q, there, x, points, at', named⟩ := muxing.redirected k early name atIndex _ other
    obtain rfl : p = q := Option.some.inj (listed.symm.trans there)
    exact .inl ⟨_, other, x, points, at', named⟩
  · exact .inr ⟨late, (muxing.left k late name atIndex).symm.trans listed⟩

/-! ## Giving up the transport -/

/-- After the loop the transport is replaced, and destroyed if it is not shared. -/
structure Shared (w v u : World ι γ) (a b : ι) : Prop where
  channel : ∀ c, u.channel c = v.channel c
  transport : ∀ i, (u.proxies i).transport =
    if i = a then (w.proxies b).transport else (w.proxies i).transport
  state : ∀ i, (u.proxies i).state = (w.proxies i).state
  holders : ∀ x, u.holders x = v.holders x
  entry : ∀ x, u.entry x =
    if x.transport = (w.proxies a).transport ∧ ∀ i, (u.proxies i).transport ≠ (w.proxies a).transport
    then none else v.entry x

theorem shareTransport (muxing : Muxing w v a b count) : Shared w v (v.shareTransport a b) a b := by
  have transports (i : ι) : ((v.modifyProxy a fun p =>
      { p with transport := (v.proxies b).transport }).proxies i).transport =
      if i = a then (w.proxies b).transport else (w.proxies i).transport := by
    rw [proxies_modifyProxy]
    split
    · exact (muxing.proxies b).1
    · exact (muxing.proxies i).1
  have channels (c : ChannelRef ι) : (v.modifyProxy a fun p =>
      { p with transport := (v.proxies b).transport }).channel c = v.channel c := by
    simp only [World.channel, proxies_modifyProxy]
    split
    · next here => rw [here]
    · rfl
  have states (i : ι) : ((v.modifyProxy a fun p =>
      { p with transport := (v.proxies b).transport }).proxies i).state = (w.proxies i).state := by
    rw [proxies_modifyProxy]
    split
    · next here => rw [here]; exact (muxing.proxies a).2.1
    · exact (muxing.proxies i).2.1
  have holders (x : ImplRef ι) : (v.modifyProxy a fun p =>
      { p with transport := (v.proxies b).transport }).holders x = v.holders x :=
    Nat.add_right_cancel (v.holders_modifyProxy a _ x)
  have proxies : (v.shareTransport a b).proxies = (v.modifyProxy a fun p =>
      { p with transport := (v.proxies b).transport }).proxies := by
    simp only [World.shareTransport]
    split <;> rfl
  refine { channel := ?_, transport := ?_, state := ?_, holders := ?_, entry := ?_ }
  · intro c
    rw [← channels, World.channel, proxies]
    rfl
  · rw [proxies]
    exact transports
  · rw [proxies]
    exact states
  · intro x
    rw [← holders, World.holders, proxies]
    rfl
  · intro x
    rw [proxies, ← (muxing.proxies a).1]
    simp only [World.shareTransport]
    split
    · next alone =>
      simp only [World.entry, transports_modifyTransport, transports_modifyProxy]
      by_cases here : x.transport = (v.proxies a).transport
      · rw [if_pos here, if_pos ⟨here, alone⟩]
        rfl
      · rw [if_neg here, if_neg fun both => here both.1]
    · next shared =>
      rw [if_neg fun both => shared both.2]
      rfl

end Muxing

section SetupMux

variable {w : World ι γ} {a b : ι}

/-- What `SetupMux` makes of a settled world. -/
theorem setupMux_spec (settled : Settled w) (done : (w.proxies b).negotiated) :
    ∃ v, Muxing w v a b (w.proxies b).channels.keys.length ∧
      Muxing.Shared w v (w.step (.setupMux a b)) a b := by
  have loop := (Muxing.start (a := a) settled b done).loop settled done (Nat.zero_le _) rfl
  refine ⟨_, loop, ?_⟩
  have last := loop.shareTransport
  simp only [Nat.add_zero] at last ⊢
  simp only [World.step, World.statements, TransportProxy.setupMux, runInputs_append]
  exact last

omit [DecidableEq ι] [Fintype ι] in
/-- A channel that is left does not share the implementation of one that was redirected. -/
theorem left_apart (covers : w.Covers a b) {k : Nat} {name other : String} {p : TransportChannelProxy ι} {x : ImplRef ι}
    (late : (w.proxies b).channels.keys.length ≤ k)
    (atIndex : (w.proxies a).channels.keys[k]? = some name) (before : w.channel ⟨a, name⟩ = some p)
    (points : p.impl = some x) {j : Nat} (key : (w.proxies b).channels.keys[j]? = some other) :
    x.name ≠ other := by
  intro same
  have dropped : name ∈ (w.proxies a).channels.keys.drop (w.proxies b).channels.keys.length := by
    refine List.mem_iff_getElem?.mpr ⟨k - (w.proxies b).channels.keys.length, ?_⟩
    rw [List.getElem?_drop, Nat.add_sub_cancel' late]
    exact atIndex
  exact covers.2 name dropped p before x points (same ▸ List.mem_of_getElem? key)

section Covered

variable {v u : World ι γ} (settled : Settled w) (doneA : (w.proxies a).negotiated)
  (covers : w.Covers a b) (muxing : Muxing w v a b (w.proxies b).channels.keys.length)

include settled doneA covers muxing

/-- Every channel has an implementation on the shared transport. -/
theorem muxed_impl {name : String} {p : TransportChannelProxy ι}
    (listed : v.channel ⟨a, name⟩ = some p) : ∃ x ∈ p.impl, x.transport = (w.proxies b).transport := by
  obtain ⟨k, atIndex, redirected | ⟨late, before⟩⟩ := muxing.pointer listed
  · obtain ⟨-, -, x, points, at', -⟩ := redirected
    exact ⟨x, points, at'⟩
  · have more := (List.getElem?_eq_some_iff.mp atIndex).1
    obtain ⟨x, points, at'⟩ := settled.implemented _ p before doneA List.not_mem_nil
    exact ⟨x, points, at'.trans (covers.1.resolve_right (by omega))⟩

omit doneA in
/-- No two channels share an implementation. -/
theorem muxed_distinct {name other : String} {p q : TransportChannelProxy ι} {x : ImplRef ι}
    (listed : v.channel ⟨a, name⟩ = some p) (listed' : v.channel ⟨a, other⟩ = some q)
    (points : p.impl = some x) (points' : q.impl = some x) : name = other := by
  obtain ⟨k, atK, redirected | ⟨late, before⟩⟩ := muxing.pointer listed
  · obtain ⟨target, key, y, there, -, named⟩ := redirected
    obtain rfl : y = x := Option.some.inj (there.symm.trans points)
    obtain ⟨j, atJ, redirected' | ⟨late', before'⟩⟩ := muxing.pointer listed'
    · obtain ⟨target', key', z, there', -, named'⟩ := redirected'
      obtain rfl : z = y := Option.some.inj (there'.symm.trans points')
      obtain rfl : target = target' := named.symm.trans named'
      obtain rfl := OrderedMap.index_unique key key'
      exact Option.some.inj (atK.symm.trans atJ)
    · exact absurd named (left_apart covers late' atJ before' points' key)
  · obtain ⟨j, atJ, redirected' | ⟨late', before'⟩⟩ := muxing.pointer listed'
    · obtain ⟨target', key', z, there', -, named'⟩ := redirected'
      obtain rfl : z = x := Option.some.inj (there'.symm.trans points')
      exact absurd named' (left_apart covers late atK before points key')
    · have same := settled.distinct _ p before _ q before' rfl x points points'
      exact congrArg ChannelRef.name same

/-- A settled world stays settled. -/
theorem settled_of_covers (done : (w.proxies b).negotiated) (shared : Muxing.Shared w v u a b) :
    Settled u := by
  have states (i : ι) : (u.proxies i).negotiated ↔ (w.proxies i).negotiated := by
    rw [TransportProxy.negotiated, shared.state]
  have others (c : ChannelRef ι) (notA : c.proxy ≠ a) : u.channel c = w.channel c := by
    rw [shared.channel, muxing.others c notA]
  -- a channel proxy points to the transport of its own proxy
  have implemented (c p) (listed : u.channel c = some p) (negotiated : (w.proxies c.proxy).negotiated) :
      ∃ x ∈ p.impl, x.transport = (u.proxies c.proxy).transport := by
    rw [shared.transport]
    split
    · next here =>
      obtain ⟨i, name⟩ := c
      obtain rfl : i = a := here
      rw [shared.channel] at listed
      exact muxed_impl settled doneA covers muxing listed
    · next notA =>
      rw [others c notA] at listed
      exact settled.implemented c p listed negotiated List.not_mem_nil
  have early (c : ChannelRef ι) (notYet : ¬ (w.proxies c.proxy).negotiated) : c.proxy ≠ a := by
    rintro here
    exact notYet (here ▸ doneA)
  have entry (x e) (found : u.entry x = some e) : v.entry x = some e := by
    rw [shared.entry] at found
    split at found
    · cases found
    · exact found
  refine {
    counted := ?_, implemented := ?_, waiting := ?_, distinct := ?_, held := ?_
    own := ?_, named := ?_, clean := ?_, oneProxy := ?_ }
  · refine { live := ?_, onTheWay := fun _ same => (by cases same), refs := ?_ }
    · intro c p listed x points
      have before := listed
      rw [Option.mem_def, shared.channel] at before
      obtain ⟨e, found⟩ := muxing.counted.live c p before x points
      refine ⟨e, ?_⟩
      rw [shared.entry, if_neg, found]
      rintro ⟨here, alone⟩
      by_cases negotiated : (w.proxies c.proxy).negotiated
      · obtain ⟨y, points', at'⟩ := implemented c p listed negotiated
        obtain rfl : y = x := Option.some.inj (points'.symm.trans points)
        exact alone c.proxy (at'.symm.trans here)
      · rw [Option.mem_def, others c (early c negotiated)] at listed
        rw [settled.waiting c p listed (.inl negotiated)] at points
        cases points
    · intro x e found
      rw [shared.holders]
      exact muxing.counted.refs x e (entry x e found)
  · exact fun c p listed negotiated _ => implemented c p listed ((states _).mp negotiated)
  · intro c p listed still
    have notYet : ¬ (w.proxies c.proxy).negotiated :=
      fun negotiated => still.elim (fun no => no ((states _).mpr negotiated)) List.not_mem_nil
    rw [Option.mem_def, others c (early c notYet)] at listed
    exact settled.waiting c p listed (.inl notYet)
  · rintro ⟨i, name⟩ p listed ⟨j, other⟩ q listed' same x points points'
    obtain rfl : i = j := same
    by_cases here : i = a
    · subst here
      rw [Option.mem_def, shared.channel] at listed listed'
      rw [muxed_distinct settled covers muxing listed listed' points points']
    · rw [Option.mem_def, others _ here] at listed listed'
      exact settled.distinct _ p listed _ q listed' rfl x points points'
  · intro i negotiated x here e found
    rw [shared.transport] at here
    rw [shared.holders]
    left
    split at here
    · exact muxing.held b done x here e (entry x e found)
    · exact muxing.held i ((states i).mp negotiated) x here e (entry x e found)
  · intro i notYet
    have still : ¬ (w.proxies i).negotiated := fun negotiated => notYet ((states i).mpr negotiated)
    obtain ⟨own, alone⟩ := settled.own i still
    refine ⟨?_, fun j same => ?_⟩
    · rw [shared.transport, if_neg (early ⟨i, ""⟩ still), own]
    · rw [shared.transport] at same
      split at same
      · rw [alone b same] at done
        exact absurd done still
      · exact alone j same
  · intro i notYet x here e found
    have still : ¬ (w.proxies i).negotiated := fun negotiated => notYet ((states i).mpr negotiated)
    obtain ⟨e', before⟩ := muxing.early i still x here e (entry x e found)
    rw [others _ (early ⟨i, x.name⟩ still)]
    exact settled.named i still x here e' before
  · exact fun c listed => absurd listed List.not_mem_nil
  · exact fun c listed => absurd listed List.not_mem_nil

end Covered

/-- In a settled world the implementations are as muxing is to leave them, once they are all
on the shared transport. -/
theorem Settled.muxedOnto {u : World ι γ} (after : Settled u) (doneA : (u.proxies a).negotiated)
    (shares : (u.proxies a).transport = (u.proxies b).transport) : MuxedOnto w u a b where
  shares := shares
  implemented name p listed := by
    obtain ⟨x, points, at'⟩ := after.implemented _ p listed doneA List.not_mem_nil
    obtain ⟨e, found⟩ := after.counted.live _ p listed x points
    refine ⟨x, points, at'.trans shares, e, found, ?_⟩
    have positive := u.one_le_holders listed points
    have count := after.counted.refs x e found
    simp only [reduceCtorEq, decide_false, Bool.toNat_false, Nat.add_zero] at count
    omega
  distinct name p listed other q listed' x points points' :=
    congrArg ChannelRef.name (after.distinct _ p listed _ q listed' rfl x points points')
  released moved name p listed x points := by
    obtain ⟨y, points', at'⟩ := after.implemented _ p listed doneA List.not_mem_nil
    obtain rfl : y = x := Option.some.inj (points'.symm.trans points)
    rw [at']
    exact Ne.symm moved

/-- Muxing does what it is to do exactly where the other proxy covers this one. -/
theorem muxedOnto_iff_covers (settled : Settled w) (doneA : (w.proxies a).negotiated)
    (done : (w.proxies b).negotiated) :
    MuxedOnto w (w.step (.setupMux a b)) a b ↔ w.Covers a b := by
  obtain ⟨v, muxing, shared⟩ := setupMux_spec (a := a) settled done
  generalize w.step (.setupMux a b) = u at shared
  have shares : (u.proxies a).transport = (w.proxies b).transport := by
    rw [shared.transport, if_pos rfl]
  have transportB : (u.proxies b).transport = (w.proxies b).transport := by
    rw [shared.transport]
    split <;> rfl
  constructor
  · intro muxed
    -- a channel beyond those of the other proxy is as it was
    have beyond (k : Nat) (late : (w.proxies b).channels.keys.length ≤ k) (name : String)
        (atIndex : (w.proxies a).channels.keys[k]? = some name) (p)
        (listed : w.channel ⟨a, name⟩ = some p) : u.channel ⟨a, name⟩ = some p := by
      rw [shared.channel, muxing.left k late name atIndex, listed]
    refine ⟨?_, ?_⟩
    · by_contra uncovered
      obtain ⟨apart, more⟩ := not_or.mp uncovered
      have atIndex := List.getElem?_eq_getElem (Nat.lt_of_not_le more)
      obtain ⟨p, listed⟩ := OrderedMap.mem_keys.mp (List.mem_of_getElem? atIndex)
      obtain ⟨x, points, at'⟩ := settled.implemented ⟨a, _⟩ p listed doneA List.not_mem_nil
      obtain ⟨y, points', onB, -⟩ :=
        muxed.implemented _ p (beyond _ (Nat.le_refl _) _ atIndex p listed)
      obtain rfl : x = y := Option.some.inj (points.symm.trans points')
      exact apart (at'.symm.trans (onB.trans transportB))
    · intro name dropped p listed x points among
      obtain ⟨j, atJ⟩ := List.mem_iff_getElem?.mp dropped
      rw [List.getElem?_drop] at atJ
      obtain ⟨k, key⟩ := List.mem_iff_getElem?.mp among
      have early := (List.getElem?_eq_some_iff.mp key).1
      have bound := (List.getElem?_eq_some_iff.mp atJ).1
      have stays := beyond _ (Nat.le_add_right _ j) name atJ p listed
      -- the channel of the index of that name has been redirected to the same channel
      have target := List.getElem?_eq_getElem (show k < (w.proxies a).channels.keys.length by omega)
      obtain ⟨q, there, y, points', onB, named⟩ := muxing.redirected k early _ target _ key
      rw [Option.mem_def, ← shared.channel] at there
      obtain ⟨z, pointsZ, atZ, e, found, -⟩ := muxed.implemented name p stays
      obtain rfl : z = x := Option.some.inj (pointsZ.symm.trans points)
      obtain ⟨z', pointsZ', atZ', e', found', -⟩ := muxed.implemented _ q there
      obtain rfl : z' = y := Option.some.inj (pointsZ'.symm.trans points')
      have same : z = z' := by
        rw [@eq_handed _ _ u _ _ "" z e found atZ rfl, @eq_handed _ _ u _ _ "" z' e' found' atZ' named]
      have equal := muxed.distinct name p stays _ q there z points (same ▸ points')
      rw [← equal] at target
      have index := OrderedMap.index_unique target atJ
      omega
  · intro covers
    have after := settled_of_covers settled doneA covers muxing done shared
    refine after.muxedOnto ?_ (shares.trans transportB.symm)
    rw [TransportProxy.negotiated, shared.state]
    exact doneA

end SetupMux

/-- The calls of a run in which muxing happens between negotiated proxies, onto one that covers
the other. -/
def Muxes (w : World ι γ) (call : Call ι) : Prop :=
  w.Asserts call ∧ match call with
    | .setupMux a b => (w.proxies a).negotiated ∧ w.Covers a b
    | _ => True

instance (w : World ι γ) (call : Call ι) : Decidable (w.Muxes call) := by
  unfold Muxes Asserts
  cases call <;> infer_instance

theorem Settled.step {w : World ι γ} (settled : Settled w) {call : Call ι} (muxes : w.Muxes call) :
    Settled (w.step call) := by
  cases call with
  | createChannel i name contentType => exact settled.createChannel muxes.1
  | speculativelyConnectChannels i => exact settled.speculativelyConnectChannels muxes.1
  | completeNegotiation i => exact settled.completeNegotiation
  | setupMux a b =>
    obtain ⟨done, doneA, covers⟩ := muxes
    obtain ⟨v, muxing, shared⟩ := setupMux_spec (a := a) settled done
    exact settled_of_covers settled doneA covers muxing done shared
  | setReadable t name readable => exact settled.alike (alike_setState w _ t name readable)
  | setWritable t name writable => exact settled.alike (alike_setState w _ t name writable)

/-- In every world reached, muxing one negotiated proxy onto another does what it is to do
exactly where the other covers it. -/
theorem muxedOnto_iff_of_calls {calls : List (Call ι)} {a b : ι}
    (muxes : Along World.step Muxes (start : World ι γ) calls)
    (doneA : ((runInputs World.step (start : World ι γ) calls).proxies a).negotiated)
    (doneB : ((runInputs World.step (start : World ι γ) calls).proxies b).negotiated) :
    MuxedOnto (runInputs World.step (start : World ι γ) calls)
        ((runInputs World.step (start : World ι γ) calls).step (.setupMux a b)) a b ↔
      (runInputs World.step (start : World ι γ) calls).Covers a b :=
  muxedOnto_iff_covers (muxes.invariant (P := Settled) (fun _ _ ok settled => settled.step ok) .start)
    doneA doneB

/-- The channels of audio `a` and video `v`, of which audio has `audio`, after negotiation. -/
def negotiatedCalls (a v : ι) (audio : List String) : List (Call ι) :=
  audio.map (.createChannel a · "audio") ++
    [.createChannel v "video_rtp" "video", .createChannel v "video_rtcp" "video",
      .speculativelyConnectChannels v, .completeNegotiation a, .completeNegotiation v]

/-- Video is muxed onto audio, with as many channels. -/
theorem muxedOnto_of_negotiatedCalls :
    MuxedOnto (runInputs World.step (start : World (Fin 2) Unit) (negotiatedCalls 0 1 ["rtp", "rtcp"]))
      ((runInputs World.step (start : World (Fin 2) Unit) (negotiatedCalls 0 1 ["rtp", "rtcp"])).step
        (.setupMux 1 0)) 1 0 :=
  (@muxedOnto_iff_of_calls _ _ _ _ (negotiatedCalls 0 1 ["rtp", "rtcp"]) 1 0 (by decide +kernel)
    (by decide +kernel) (by decide +kernel)).mpr (by decide +kernel)

/-- Video has a channel more than audio, which keeps its implementation on the transport that
is destroyed. -/
theorem channel_left_behind :
    ¬ MuxedOnto (runInputs World.step (start : World (Fin 2) Unit) (negotiatedCalls 0 1 ["rtp"]))
      ((runInputs World.step (start : World (Fin 2) Unit) (negotiatedCalls 0 1 ["rtp"])).step
        (.setupMux 1 0)) 1 0 := by
  intro muxed
  have apart : ((runInputs World.step (start : World (Fin 2) Unit) (negotiatedCalls 0 1 ["rtp"])).step
      (.setupMux 1 0)).channel ⟨1, "video_rtp"⟩ =
      some { contentType := "video", impl := some ⟨1, "video_rtp", 1⟩ } := by decide
  obtain ⟨x, points, at', -⟩ := muxed.implemented "video_rtp" _ apart
  cases points
  revert at'
  decide

end World

end Libjingle.Channels

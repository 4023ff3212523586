import Libjingle.Std.Trace
import Libjingle.Xmpp.Constants
import Mathlib.Logic.Function.Basic

/-!
# States published in a call

`PubSubStateClient` of `talk/xmpp/hangoutpubsubclient.cc` follows the items of a node: each
sets the state of a key, or retracts one, and a change is signaled with the state before and
the state after. The old state is held by reference into the map that is changed before the
signal is filled in, so what is signaled is right exactly as long as no key that has a
state gets another one.
-/

namespace Libjingle.Xmpp

open Libjingle.Std
open Libjingle.Xml

def nsPresenter : String := "google:presenter"
def nsGoogleMucMedia : String := "google:muc#media"

def qnNick : QName := ⟨"", "nick"⟩
def qnAttrPublisher : QName := ⟨"", "publisher"⟩
def qnPubsubItem : QName := ⟨"http://jabber.org/protocol/pubsub", "item"⟩
def qnPresenterPresenter : QName := ⟨nsPresenter, "presenter"⟩
def qnPresenterPresentationItem : QName := ⟨nsPresenter, "presentation-item"⟩
def qnPresenterPresentationType : QName := ⟨nsPresenter, "presentation-type"⟩
def qnGoogleMucAudioMute : QName := ⟨nsGoogleMucMedia, "audio-mute"⟩

def kNotPresenting : String := "o"

structure PubSubItem where
  itemid : String
  elem : XmlElement

structure StateItemInfo where
  publishedNick : String
  publisherNick : String
  deriving DecidableEq, Repr

/-- What is signaled. There is no old state where the reference to it is to an entry that
was erased. -/
structure PubSubStateChange (C : Type) where
  publisherNick : String
  publishedNick : String
  oldState : Option C
  newState : C
  deriving DecidableEq, Repr

/-- `StatesEqual`: the template compares, and the presenter makes every item trigger an
event. -/
inductive Comparison where
  | ordinary
  | never
  deriving DecidableEq, Repr

/-- What makes one kind of client: the default state, the key serializer and the virtual
functions. No state is parsed from a retracted item. -/
structure StateKind (C : Type) where
  defaultState : C
  getKey : String → String → String
  parseStateItem : PubSubItem → Option (StateItemInfo × C)
  comparison : Comparison

structure PubSubStateClient (C : Type) where
  stateByKey : String → Option C
  infoByItemid : String → Option StateItemInfo

variable {C : Type}

/-! ## The kinds of clients -/

/-- `GetKey` of `PublishedNickKeySerializer`. -/
def publishedNickKey (_publisherNick publishedNick : String) : String :=
  publishedNick

/-- `GetPublisherNickFromPubSubItem`; `resource` is the resource of a `Jid`. -/
def getPublisherNickFromPubSubItem (resource : String → String) (elem : XmlElement) : String :=
  resource (elem.attr qnAttrPublisher)

/-- `PubSubStateClient` with a state serializer that reads with `parse`. -/
def StateKind.template (resource : String → String) (stateName : QName) (defaultState : C)
    (getKey : String → String → String) (parse : XmlElement → C) : StateKind C where
  defaultState := defaultState
  getKey := getKey
  parseStateItem := fun item =>
    (item.elem.firstNamed stateName).map fun stateElem =>
      (⟨stateElem.attr qnNick, getPublisherNickFromPubSubItem resource item.elem⟩, parse stateElem)
  comparison := .ordinary

/-- `PresenterStateClient`. -/
def StateKind.presenter (resource : String → String) (defaultState : Bool) : StateKind Bool where
  defaultState := defaultState
  getKey := publishedNickKey
  parseStateItem := fun item =>
    match item.elem.firstNamed qnPresenterPresenter,
      item.elem.firstNamed qnPresenterPresentationItem with
    | some presenterElem, some presentationItemElem =>
        some (⟨presenterElem.attr qnNick, getPublisherNickFromPubSubItem resource item.elem⟩,
          presentationItemElem.attr qnPresenterPresentationType ≠ kNotPresenting)
    | _, _ => none
  comparison := .never

/-- The key of an item's info. -/
def StateKind.key (kind : StateKind C) (info : StateItemInfo) : String :=
  kind.getKey info.publisherNick info.publishedNick

variable [DecidableEq C]

def StateKind.statesEqual (kind : StateKind C) (state1 state2 : C) : Bool :=
  match kind.comparison with
  | .ordinary => state1 = state2
  | .never => false

/-! ## `OnItem` -/

/-- What `old_state` is a reference to. -/
inductive StateReference where
  | entry (key : String)
  | defaultState
  deriving DecidableEq, Repr

namespace PubSubStateClient

def new : PubSubStateClient C where
  stateByKey := fun _ => none
  infoByItemid := fun _ => none

/-- The state that a reference reads now. -/
def deref (c : PubSubStateClient C) (kind : StateKind C) : StateReference → Option C
  | .entry key => c.stateByKey key
  | .defaultState => some kind.defaultState

def noteInfo (c : PubSubStateClient C) (itemid : String) (info : Option StateItemInfo) :
    PubSubStateClient C :=
  { c with infoByItemid := Function.update c.infoByItemid itemid info }

def setState (c : PubSubStateClient C) (key : String) (state : Option C) : PubSubStateClient C :=
  { c with stateByKey := Function.update c.stateByKey key state }

/-- The second half of `OnItem`, when the info of the item is noted or forgotten. -/
def onState (c : PubSubStateClient C) (kind : StateKind C) (retracted : Bool)
    (info : StateItemInfo) (newState : C) :
    PubSubStateClient C × Option (PubSubStateChange C) :=
  let key := kind.key info
  let hasOldState := (c.stateByKey key).isSome
  let oldState : StateReference := if hasOldState then .entry key else .defaultState
  if (retracted && !hasOldState) || (c.deref kind oldState).any (kind.statesEqual newState) then
    -- Nothing changes, so it does not bother signaling.
    (c, none)
  else
    -- A default state is treated like a retract.
    let c := c.setState key
      (if retracted || kind.statesEqual newState kind.defaultState then none else some newState)
    -- The reference is read only here.
    (c, some ⟨info.publisherNick, info.publishedNick, c.deref kind oldState, newState⟩)

def onItem (c : PubSubStateClient C) (kind : StateKind C) (item : PubSubItem) :
    PubSubStateClient C × Option (PubSubStateChange C) :=
  match kind.parseStateItem item with
  | none =>
      match c.infoByItemid item.itemid with
      -- Nothing to retract: probably a different state type.
      | none => (c, none)
      | some info => (c.noteInfo item.itemid none).onState kind true info kind.defaultState
  | some (info, newState) => (c.noteInfo item.itemid (some info)).onState kind false info newState

end PubSubStateClient

/-! ## What items do to the states -/

/-- The state of every key, and the key that each item id stands for. -/
structure Published (C : Type) where
  state : String → C
  info : String → Option StateItemInfo

namespace Published

def new (kind : StateKind C) : Published C where
  state := fun _ => kind.defaultState
  info := fun _ => none

/-- The info of the key that an item is about, and the state that the key gets. -/
def effect (p : Published C) (kind : StateKind C) (item : PubSubItem) :
    Option (StateItemInfo × C) :=
  match kind.parseStateItem item with
  | none => (p.info item.itemid).map fun info => (info, kind.defaultState)
  | some published => some published

def apply (p : Published C) (kind : StateKind C) (item : PubSubItem) : Published C where
  state :=
    match p.effect kind item with
    | none => p.state
    | some (info, state) => Function.update p.state (kind.key info) state
  info := Function.update p.info item.itemid ((kind.parseStateItem item).map Prod.fst)

end Published

/-- A client among the states that it follows. -/
structure Followed (C : Type) where
  client : PubSubStateClient C
  published : Published C

namespace Followed

variable (kind : StateKind C)

def new : Followed C where
  client := .new
  published := .new kind

def step (s : Followed C) (item : PubSubItem) : Followed C where
  client := (s.client.onItem kind item).1
  published := s.published.apply kind item

/-- The map holds exactly the states that are not the default. -/
def Holds (s : Followed C) : Prop :=
  ∀ key state, s.client.stateByKey key = some state ↔
    s.published.state key = state ∧ state ≠ kind.defaultState

/-- A signaled change has the states of its key before and after the item, the map holds
what it should afterwards, and the ordinary comparison signals no item that leaves the state
as it is. -/
structure Reports (s : Followed C) (item : PubSubItem) : Prop where
  signal : ∀ change, (s.client.onItem kind item).2 = some change →
    change.oldState = some (s.published.state (kind.getKey change.publisherNick change.publishedNick)) ∧
    change.newState =
      (s.step kind item).published.state (kind.getKey change.publisherNick change.publishedNick)
  holds : (s.step kind item).Holds kind
  quiet : kind.comparison = .ordinary → (s.step kind item).published.state = s.published.state →
    (s.client.onItem kind item).2 = none

/-- The item gives no other state to a key that has one; and no default state, where the
comparison is not the ordinary one. -/
def Unaltered (s : Followed C) (item : PubSubItem) : Prop :=
  ∀ info state, s.published.effect kind item = some (info, state) →
    (s.published.state (kind.key info) = kind.defaultState ∨
      s.published.state (kind.key info) = state) ∧
    (kind.comparison = .never → (kind.parseStateItem item).isSome → state ≠ kind.defaultState)

end Followed

/-! ## One item -/

namespace PubSubStateClient

variable {c : PubSubStateClient C} {kind : StateKind C} {info : StateItemInfo} {newState old : C}
  {retracted : Bool}

theorem onState_absent (absent : c.stateByKey (kind.key info) = none) :
    c.onState kind retracted info newState =
      if retracted || kind.statesEqual newState kind.defaultState then (c, none)
      else (c.setState (kind.key info) (some newState),
        some ⟨info.publisherNick, info.publishedNick, some kind.defaultState, newState⟩) := by
  by_cases same : (retracted || kind.statesEqual newState kind.defaultState) = true
  · simp [onState, absent, deref, same]
  · simp [onState, absent, deref, same]

/-- Where the key has a state, the signal reads back what was put in its place. -/
theorem onState_present (present : c.stateByKey (kind.key info) = some old) :
    c.onState kind retracted info newState =
      if kind.statesEqual newState old then (c, none)
      else
        let left := if retracted || kind.statesEqual newState kind.defaultState then none
          else some newState
        (c.setState (kind.key info) left,
          some ⟨info.publisherNick, info.publishedNick, left, newState⟩) := by
  simp [onState, present, deref, setState]

end PubSubStateClient

namespace Followed

variable {kind : StateKind C} {s : Followed C} {item : PubSubItem}

/-- The client knows the item ids, and holds the states that are not the default. -/
structure Agrees (kind : StateKind C) (s : Followed C) : Prop where
  holds : s.Holds kind
  info : s.client.infoByItemid = s.published.info

omit [DecidableEq C] in
theorem Agrees.new (kind : StateKind C) : Agrees kind (.new kind) where
  holds := fun key state => by
    constructor
    · intro held
      cases held
    · rintro ⟨rfl, other⟩
      exact absurd rfl other
  info := rfl

theorem Agrees.absent_iff (agrees : Agrees kind s) (key : String) :
    s.client.stateByKey key = none ↔ s.published.state key = kind.defaultState := by
  constructor
  · intro absent
    by_contra other
    have held := (agrees.holds key _).mpr ⟨rfl, other⟩
    rw [absent] at held
    cases held
  · intro default
    cases found : s.client.stateByKey key with
    | none => rfl
    | some state =>
      obtain ⟨same, other⟩ := (agrees.holds key state).mp found
      exact absurd (same.symm.trans default) other

/-- Nothing happens to the states through an item without effect. -/
theorem onItem_idle (agrees : Agrees kind s) (idle : s.published.effect kind item = none) :
    s.client.onItem kind item = (s.client, none) ∧
      (s.step kind item).published.state = s.published.state := by
  have same : (s.step kind item).published.state = s.published.state := by
    simp only [step, Published.apply, idle]
  refine ⟨?_, same⟩
  unfold Published.effect at idle
  unfold PubSubStateClient.onItem
  split at idle
  · next retracted =>
    have unknown : s.client.infoByItemid item.itemid = none := by
      rw [agrees.info]
      exact Option.map_eq_none_iff.mp idle
    rw [retracted]
    simp only [unknown]
  · cases idle

/-- An item with an effect comes to the second half of `OnItem`, and a retracted one
with the default state. -/
theorem onItem_effect (agrees : Agrees kind s) {info : StateItemInfo} {state : C}
    (effect : s.published.effect kind item = some (info, state)) :
    s.client.onItem kind item =
      (s.client.noteInfo item.itemid ((kind.parseStateItem item).map Prod.fst)).onState kind
        (kind.parseStateItem item).isNone info state ∧
    ((kind.parseStateItem item).isNone → state = kind.defaultState) ∧
    (s.step kind item).published.state =
      Function.update s.published.state (kind.key info) state := by
  refine ⟨?_, ?_, by simp only [step, Published.apply, effect]⟩
  · unfold Published.effect at effect
    unfold PubSubStateClient.onItem
    split at effect
    · next retracted =>
      obtain ⟨found, known, same⟩ := Option.map_eq_some_iff.mp effect
      cases same
      rw [retracted, agrees.info]
      simp only [known]
      rfl
    · next published parsed =>
      cases effect
      rw [parsed]
      rfl
  · intro retracted
    unfold Published.effect at effect
    rw [Option.isNone_iff_eq_none.mp retracted] at effect
    obtain ⟨found, known, same⟩ := Option.map_eq_some_iff.mp effect
    cases same
    rfl

/-- What is left in the map under a key is what it should hold there, if it held what it
should everywhere. -/
theorem holds_setState (agrees : Agrees kind s) {key : String} {left : Option C} {state : C}
    (stateByKey : (s.step kind item).client.stateByKey =
      Function.update s.client.stateByKey key left)
    (published : (s.step kind item).published.state =
      Function.update s.published.state key state) :
    (s.step kind item).Holds kind ↔
      left = if state = kind.defaultState then none else some state := by
  unfold Holds
  rw [stateByKey, published]
  constructor
  · intro holds
    have here := holds key
    simp only [Function.update_self] at here
    split
    · next default =>
      cases left with
      | none => rfl
      | some held =>
        obtain ⟨rfl, other⟩ := (here held).mp rfl
        exact absurd default other
    · next other => exact (here state).mpr ⟨rfl, other⟩
  · rintro rfl other found
    by_cases same : other = key
    · subst same
      simp only [Function.update_self]
      split
      · next default =>
        constructor
        · intro none
          cases none
        · rintro ⟨rfl, other⟩
          exact absurd default other
      · next nonDefault =>
        constructor
        · intro held
          cases held
          exact ⟨rfl, nonDefault⟩
        · rintro ⟨rfl, -⟩
          rfl
    · simp only [Function.update_of_ne same]
      exact agrees.holds other found

/-- A client that ignores an item holds what it should if the item changes no state. -/
theorem holds_ignored (agrees : Agrees kind s)
    (stateByKey : (s.step kind item).client.stateByKey = s.client.stateByKey)
    (published : (s.step kind item).published.state = s.published.state) :
    (s.step kind item).Holds kind := by
  unfold Holds
  rw [stateByKey, published]
  exact agrees.holds

theorem reports_ignored (agrees : Agrees kind s) {c : PubSubStateClient C}
    (ignored : s.client.onItem kind item = (c, none))
    (stateByKey : c.stateByKey = s.client.stateByKey)
    (published : (s.step kind item).published.state = s.published.state) :
    s.Reports kind item := by
  refine ⟨fun change signaled => ?_, holds_ignored agrees ?_ published, fun _ _ => ?_⟩
  · rw [ignored] at signaled
    cases signaled
  · simp only [step, ignored]
    exact stateByKey
  · rw [ignored]

/-- What a signaled item has to come to. -/
theorem reports_signaled (agrees : Agrees kind s) {c : PubSubStateClient C}
    {info : StateItemInfo} {old left : Option C} {state : C}
    (signaled : s.client.onItem kind item =
      (c, some ⟨info.publisherNick, info.publishedNick, old, state⟩))
    (stateByKey : c.stateByKey = Function.update s.client.stateByKey (kind.key info) left)
    (published : (s.step kind item).published.state =
      Function.update s.published.state (kind.key info) state) :
    s.Reports kind item ↔
      old = some (s.published.state (kind.key info)) ∧
      left = (if state = kind.defaultState then none else some state) ∧
      (kind.comparison = .ordinary → state ≠ s.published.state (kind.key info)) := by
  have stepped : (s.step kind item).client.stateByKey =
      Function.update s.client.stateByKey (kind.key info) left := by
    simp only [step, signaled]
    exact stateByKey
  have holds := holds_setState agrees stepped published
  have quiet : (s.step kind item).published.state = s.published.state ↔
      state = s.published.state (kind.key info) := by
    rw [published, Function.update_eq_self_iff]
  constructor
  · intro reports
    refine ⟨(reports.signal _ (congrArg Prod.snd signaled)).1, holds.mp reports.holds,
      fun ordinary same => ?_⟩
    have silent := reports.quiet ordinary (quiet.mpr same)
    rw [signaled] at silent
    cases silent
  · rintro ⟨before, fits, differs⟩
    refine ⟨fun change emitted => ?_, holds.mpr fits, fun ordinary same => ?_⟩
    · rw [signaled] at emitted
      cases emitted
      refine ⟨before, ?_⟩
      rw [published]
      exact (Function.update_self (kind.key info) state s.published.state).symm
    · exact absurd (quiet.mp same) (differs ordinary)

theorem reports_idle (agrees : Agrees kind s) (idle : s.published.effect kind item = none) :
    s.Reports kind item ↔ s.Unaltered kind item := by
  obtain ⟨ignored, published⟩ := onItem_idle agrees idle
  have unaltered : s.Unaltered kind item := by
    intro info state effect
    rw [idle] at effect
    cases effect
  exact iff_of_true (reports_ignored agrees ignored rfl published) unaltered

omit [DecidableEq C] in
theorem unaltered_effect {info : StateItemInfo} {state : C}
    (effect : s.published.effect kind item = some (info, state)) :
    s.Unaltered kind item ↔
      (s.published.state (kind.key info) = kind.defaultState ∨
        s.published.state (kind.key info) = state) ∧
      (kind.comparison = .never → (kind.parseStateItem item).isSome →
        state ≠ kind.defaultState) := by
  constructor
  · exact fun unaltered => unaltered info state effect
  · rintro fine info' state' effect'
    rw [effect] at effect'
    cases effect'
    exact fine

theorem statesEqual_iff (kind : StateKind C) (state1 state2 : C) :
    kind.statesEqual state1 state2 = true ↔ kind.comparison = .ordinary ∧ state1 = state2 := by
  unfold StateKind.statesEqual
  cases kind.comparison <;> simp

/-- The key has the default state: whatever it gets is reported, but a default state that
is never equal to the default goes into the map. -/
theorem reports_absent (agrees : Agrees kind s) {info : StateItemInfo} {state : C}
    (effect : s.published.effect kind item = some (info, state))
    (default : s.published.state (kind.key info) = kind.defaultState) :
    s.Reports kind item ↔ s.Unaltered kind item := by
  obtain ⟨onItem, retracted, published⟩ := onItem_effect agrees effect
  have absent : s.client.stateByKey (kind.key info) = none := (agrees.absent_iff _).mpr default
  rw [PubSubStateClient.onState_absent (by exact absent)] at onItem
  rw [unaltered_effect effect]
  split at onItem
  · next ignored =>
    have unchanged : state = kind.defaultState := by
      rcases Bool.or_eq_true_iff.mp ignored with none | same
      · exact retracted none
      · exact ((statesEqual_iff kind state _).mp same).2
    refine iff_of_true (reports_ignored agrees onItem rfl ?_) ⟨.inl default, fun never some => ?_⟩
    · rw [published, unchanged, ← default, Function.update_eq_self]
    · rcases Bool.or_eq_true_iff.mp ignored with none | same
      · rw [Option.isNone_iff_eq_none.mp none] at some
        cases some
      · have ordinary := ((statesEqual_iff kind state _).mp same).1
        rw [never] at ordinary
        cases ordinary
  · next handled =>
    rw [Bool.or_eq_true_iff, not_or, statesEqual_iff] at handled
    have parsed : (kind.parseStateItem item).isSome := by
      simpa [Option.isSome_iff_ne_none] using handled.1
    rw [reports_signaled agrees onItem rfl published, default]
    constructor
    · rintro ⟨-, fits, -⟩
      refine ⟨.inl rfl, fun _ _ same => ?_⟩
      rw [if_pos same] at fits
      cases fits
    · rintro ⟨-, nonDefault⟩
      have other : state ≠ kind.defaultState := by
        intro same
        cases compare : kind.comparison with
        | ordinary => exact handled.2 ⟨compare, same⟩
        | never => exact nonDefault compare parsed same
      exact ⟨rfl, (if_neg other).symm, fun _ => other⟩

/-- The key has a state: it is reported exactly if it stays. -/
theorem reports_present (agrees : Agrees kind s) {info : StateItemInfo} {state : C}
    (effect : s.published.effect kind item = some (info, state))
    (other : s.published.state (kind.key info) ≠ kind.defaultState) :
    s.Reports kind item ↔ s.Unaltered kind item := by
  obtain ⟨onItem, retracted, published⟩ := onItem_effect agrees effect
  have present : s.client.stateByKey (kind.key info) = some (s.published.state (kind.key info)) :=
    (agrees.holds _ _).mpr ⟨rfl, other⟩
  rw [PubSubStateClient.onState_present (by exact present)] at onItem
  rw [unaltered_effect effect]
  split at onItem
  · next ignored =>
    obtain ⟨ordinary, same⟩ := (statesEqual_iff kind _ _).mp ignored
    refine iff_of_true (reports_ignored agrees onItem rfl ?_) ⟨.inr same.symm, fun never => ?_⟩
    · rw [published, same, Function.update_eq_self]
    · rw [ordinary] at never
      cases never
  · next handled =>
    rw [statesEqual_iff] at handled
    rw [reports_signaled agrees onItem rfl published]
    constructor
    · rintro ⟨read, -, -⟩
      split at read
      · cases read
      · have same : state = s.published.state (kind.key info) := Option.some.inj read
        exact ⟨.inr same.symm, fun _ _ default => other (same ▸ default)⟩
    · rintro ⟨default | same, -⟩
      · exact absurd default other
      · have nonDefault : state ≠ kind.defaultState := same ▸ other
        have kept : ¬ ((kind.parseStateItem item).isNone ||
            kind.statesEqual state kind.defaultState) = true := by
          rw [Bool.or_eq_true_iff, statesEqual_iff]
          rintro (none | ⟨-, default⟩)
          · exact nonDefault (retracted none)
          · exact nonDefault default
        rw [if_neg kept, if_neg nonDefault, same]
        exact ⟨rfl, rfl, fun ordinary => absurd ⟨ordinary, same.symm⟩ handled⟩

/-- An item is reported exactly if it alters no state. -/
theorem reports_iff_unaltered (agrees : Agrees kind s) (item : PubSubItem) :
    s.Reports kind item ↔ s.Unaltered kind item := by
  cases effect : s.published.effect kind item with
  | none => exact reports_idle agrees effect
  | some published =>
    obtain ⟨info, state⟩ := published
    by_cases default : s.published.state (kind.key info) = kind.defaultState
    · exact reports_absent agrees effect default
    · exact reports_present agrees effect default

/-- The item ids are noted and forgotten as the items come. -/
theorem info_step (agrees : Agrees kind s) (item : PubSubItem) :
    (s.step kind item).client.infoByItemid = (s.step kind item).published.info := by
  have noted : ∀ c : PubSubStateClient C, ∀ retracted info state,
      (c.onState kind retracted info state).1.infoByItemid = c.infoByItemid := by
    intro c retracted info state
    cases found : c.stateByKey (kind.key info) with
    | none =>
      rw [PubSubStateClient.onState_absent found]
      split <;> rfl
    | some old =>
      rw [PubSubStateClient.onState_present found]
      split <;> rfl
  cases effect : s.published.effect kind item with
  | none =>
    obtain ⟨ignored, -⟩ := onItem_idle agrees effect
    simp only [step, ignored, Published.apply]
    rw [agrees.info]
    unfold Published.effect at effect
    split at effect
    · next retracted =>
      rw [retracted, Option.map_none, eq_comm, Function.update_eq_self_iff]
      exact (Option.map_eq_none_iff.mp effect).symm
    · cases effect
  | some published =>
    obtain ⟨info, state⟩ := published
    obtain ⟨onItem, -⟩ := onItem_effect agrees effect
    simp only [step, onItem, noted, PubSubStateClient.noteInfo, Published.apply, agrees.info]

/-- Every signaled change of a run has the old and the new state of its key, and the map
holds the states that are not the default, exactly if no item of the run alters a state. -/
theorem states_reported (kind : StateKind C) (items : List PubSubItem) :
    Along (step kind) (Reports kind) (.new kind) items ↔
      Along (step kind) (Unaltered kind) (.new kind) items :=
  along_congr_of_invariant (P := Agrees kind)
    (fun _ item agrees reports => ⟨reports.holds, info_step agrees item⟩)
    (fun _ item agrees => reports_iff_unaltered agrees item) (Agrees.new kind) items

end Followed

/-! ## A state that is altered -/

/-- An item by which Ann publishes that she is muted, or the retraction of such an item. -/
private def audioMute (muted : Bool) : PubSubItem where
  itemid := "audio-mute:ann"
  elem := .mk qnPubsubItem [⟨qnAttrPublisher, "room/ann"⟩] false
    (if muted then [.element (.mk qnGoogleMucAudioMute [⟨qnNick, "ann"⟩] false [])] else [])

/-- The client of the audio mute states. -/
private def audioMuteKind : StateKind Bool :=
  .template (fun jid => String.ofList ((jid.toList.dropWhile (· ≠ '/')).drop 1))
    qnGoogleMucAudioMute false publishedNickKey fun _ => true

/-- Ann is muted and then is not. The old state is read from the entry that was erased. -/
theorem retraction_misreported :
    ¬ ∀ (kind : StateKind Bool) (items : List PubSubItem),
      Along (Followed.step kind) (Followed.Reports kind) (.new kind) items := by
  intro claim
  obtain ⟨-, reports, -⟩ := claim audioMuteKind [audioMute true, audioMute false]
  have signaled : (((Followed.new audioMuteKind).step audioMuteKind (audioMute true)).client.onItem
      audioMuteKind (audioMute false)).2 = some ⟨"ann", "ann", none, false⟩ := by
    decide +kernel
  have read := (reports.signal _ signaled).1
  cases read

end Libjingle.Xmpp

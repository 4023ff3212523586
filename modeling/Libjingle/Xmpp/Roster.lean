import Libjingle.Std.Trace
import Libjingle.Xmpp.Constants
import Mathlib.Data.List.Induction
import Mathlib.Data.List.Nodup
import Mathlib.Logic.Function.Basic

/-!
# The roster

`XmppRosterModuleImpl` of `talk/xmpp/rostermoduleimpl.cc` keeps the contacts that the
server's roster items describe, and tells a handler what changes. Items that come while there
is no contact are taken as they come, without a look at the contacts before them or at
whether they remove one; later items look up their contact first, and one that removes a
contact nobody knows adds it.
-/

namespace Libjingle.Xmpp

open Libjingle.Std
open Libjingle.Xml

def nsRoster : String := "jabber:iq:roster"

def qnRosterQuery : QName := ⟨nsRoster, "query"⟩
def qnRosterItem : QName := ⟨nsRoster, "item"⟩
def qnJid : QName := ⟨"", "jid"⟩
def qnSubscription : QName := ⟨"", "subscription"⟩

/-- What the handler is told. -/
inductive RosterNotification where
  | contactsAdded (index number : Nat)
  | contactChanged (oldContact : XmlElement) (index : Nat)
  | contactRemoved (oldContact : XmlElement) (index : Nat)
  | rosterError (stanza : XmlElement)

/-- The contacts, each the item it was last described by. -/
structure RosterModule where
  contacts : List XmlElement

/-- What happens to the module: a response to a roster request, or a stanza. -/
inductive RosterInput where
  | iqResponse (stanza : XmlElement)
  | handleStanza (stanza : XmlElement)

variable {J : Type} [DecidableEq J]

/-! ## The module

`parse` makes a `Jid` of a string, or nothing if it is not valid. -/

/-- The `Jid` of a roster item, and of a contact. -/
def itemJid (parse : String → Option J) (item : XmlElement) : Option J :=
  parse (item.attr qnJid)

def removes (item : XmlElement) : Bool :=
  item.attr qnSubscription = "remove"

/-- The notifications, each with the contacts at that time, which the handler can read. -/
abbrev Notified := List (RosterNotification × List XmlElement)

namespace RosterModule

/-- The body of the loop over the items. -/
def rosterItem (parse : String → Option J) (allNew : Bool) (contacts : List XmlElement)
    (item : XmlElement) : List XmlElement × Notified :=
  match itemJid parse item with
  | none => (contacts, [])
  | some jid =>
      match if allNew then none else contacts.findIdx? fun c => itemJid parse c = some jid with
      | some pos =>
          let old := contacts[pos]?.getD item
          if removes item then
            let contacts := contacts.eraseIdx pos
            (contacts, [(.contactRemoved old pos, contacts)])
          else
            let contacts := contacts.set pos item
            (contacts, [(.contactChanged old pos, contacts)])
      | none =>
          let contacts := contacts ++ [item]
          (contacts, if allNew then [] else [(.contactsAdded (contacts.length - 1) 1, contacts)])

def rosterItems (parse : String → Option J) (allNew : Bool) :
    List XmlElement → List XmlElement → List XmlElement × Notified
  | contacts, [] => (contacts, [])
  | contacts, item :: rest =>
      let (contacts, first) := rosterItem parse allNew contacts item
      let (contacts, later) := rosterItems parse allNew contacts rest
      (contacts, first ++ later)

def internalRosterItems (parse : String → Option J) (s : RosterModule) (stanza : XmlElement) :
    RosterModule × Notified :=
  match stanza.firstNamed qnRosterQuery with
  | none => (s, [])
  | some resultData =>
      let allNew := s.contacts.isEmpty
      let (contacts, notified) :=
        rosterItems parse allNew s.contacts (resultData.allNamed qnRosterItem)
      -- A consolidated update if all contacts are new.
      (⟨contacts⟩,
        if allNew then notified ++ [(.contactsAdded 0 contacts.length, contacts)] else notified)

def iqResponse (parse : String → Option J) (s : RosterModule) (stanza : XmlElement) :
    RosterModule × Notified :=
  if stanza.attr qnType = "error" then (s, [(.rosterError stanza, s.contacts)])
  else s.internalRosterItems parse stanza

/-- `HandleStanza` for an IQ, with the answer that it sends. Presences change no contact. -/
def handleStanza (parse : String → Option J) (s : RosterModule) (stanza : XmlElement) :
    RosterModule × Notified × List XmlElement :=
  if stanza.name = qnIq ∧ (stanza.firstNamed qnRosterQuery).isSome ∧
      stanza.attr qnType = "set" then
    let (s, notified) := s.internalRosterItems parse stanza
    (s, notified,
      [.mk qnIq [⟨qnType, "result"⟩, ⟨qnTo, stanza.attr qnFrom⟩, ⟨qnId, stanza.attr qnId⟩] false []])
  else (s, [], [])

def input (parse : String → Option J) (s : RosterModule) : RosterInput → RosterModule × Notified
  | .iqResponse stanza => s.iqResponse parse stanza
  | .handleStanza stanza => ((s.handleStanza parse stanza).1, (s.handleStanza parse stanza).2.1)

end RosterModule

/-! ## The roster of the server -/

/-- The contact that each `Jid` has. -/
abbrev ServerRoster (J : Type) := J → Option XmlElement

/-- The most recent item of a `Jid` counts. -/
def ServerRoster.apply (parse : String → Option J) (roster : ServerRoster J) (item : XmlElement) :
    ServerRoster J :=
  match itemJid parse item with
  | none => roster
  | some jid => Function.update roster jid (if removes item then none else some item)

/-- The items that a stanza brings, if it is a roster result or a roster push. -/
def RosterInput.items : RosterInput → List XmlElement
  | .iqResponse stanza =>
      if stanza.attr qnType = "error" then []
      else ((stanza.firstNamed qnRosterQuery).map (·.allNamed qnRosterItem)).getD []
  | .handleStanza stanza =>
      if stanza.name = qnIq ∧ stanza.attr qnType = "set" then
        ((stanza.firstNamed qnRosterQuery).map (·.allNamed qnRosterItem)).getD []
      else []

/-- What a list becomes by a notification, with the contacts that can be read. -/
def applyNotification (seen : List XmlElement) :
    RosterNotification × List XmlElement → List XmlElement
  | (.contactsAdded index number, contacts) =>
      seen.take index ++ (contacts.drop index).take number ++ seen.drop index
  | (.contactChanged _ index, contacts) =>
      match contacts[index]? with
      | some contact => seen.set index contact
      | none => seen
  | (.contactRemoved _ index, _) => seen.eraseIdx index
  | (.rosterError _, _) => seen

/-- A module, the roster of the server, and the list that a handler keeps. -/
structure Mirror (J : Type) where
  module : RosterModule
  server : ServerRoster J
  seen : List XmlElement

namespace Mirror

variable (parse : String → Option J)

def new : Mirror J := ⟨⟨[]⟩, fun _ => none, []⟩

def step (s : Mirror J) (input : RosterInput) : Mirror J where
  module := (s.module.input parse input).1
  server := input.items.foldl (ServerRoster.apply parse) s.server
  seen := (s.module.input parse input).2.foldl applyNotification s.seen

/-- The contacts are, each once, those of the server. -/
structure Mirrors (contacts : List XmlElement) (server : ServerRoster J) : Prop where
  valid : ∀ contact ∈ contacts, (itemJid parse contact).isSome
  distinct : (contacts.map (itemJid parse)).Nodup
  same : ∀ jid, contacts.find? (fun c => itemJid parse c = some jid) = server jid

/-- After the stanza the contacts are those of the server, and the notifications reproduce
them. -/
structure Reproduces (s : Mirror J) (input : RosterInput) : Prop where
  mirrors : Mirrors parse (s.step parse input).module.contacts (s.step parse input).server
  seen : (s.step parse input).seen = (s.step parse input).module.contacts

/-- How many of the items of a `Jid` at the end remove it. -/
def lastRemovals (items : List XmlElement) : Nat :=
  (items.reverse.takeWhile removes).length

/-- Where there are no contacts the items are about different `Jid`s and remove none. Later,
the removals at the end of the items of a `Jid` are one, or three and so on, where it is
known before them, and two or four and so on where it is not. -/
def Orderly (s : Mirror J) (input : RosterInput) : Prop :=
  let items := input.items.filter fun item => (itemJid parse item).isSome
  if s.module.contacts.isEmpty then
    (items.map (itemJid parse)).Nodup ∧ ∀ item ∈ items, ¬ removes item
  else
    ∀ jid, let mine := items.filter fun item => itemJid parse item = some jid
      lastRemovals mine = 0 ∨
        (((s.server jid).isSome ∨ lastRemovals mine < mine.length) ↔ lastRemovals mine % 2 = 1)

end Mirror

/-! ## The items of one `Jid` -/

/-- What the module makes of a contact by an item, where it looks the contact up. -/
def toggle (contact : Option XmlElement) (item : XmlElement) : Option XmlElement :=
  if removes item && contact.isSome then none else some item

/-- What the server makes of it. -/
def latest (_ : Option XmlElement) (item : XmlElement) : Option XmlElement :=
  if removes item then none else some item

open Mirror (lastRemovals)

theorem lastRemovals_append_removal {items : List XmlElement} {item : XmlElement}
    (removal : removes item = true) :
    lastRemovals (items ++ [item]) = lastRemovals items + 1 := by
  simp [lastRemovals, removal]

theorem lastRemovals_append_update {items : List XmlElement} {item : XmlElement}
    (update : removes item = false) : lastRemovals (items ++ [item]) = 0 := by
  simp [lastRemovals, update]

theorem lastRemovals_le (items : List XmlElement) : lastRemovals items ≤ items.length := by
  have le := (List.takeWhile_sublist (l := items.reverse) removes).length_le
  rwa [List.length_reverse] at le

/-- The module has a contact if it was known before the last removals and these are even in
number, or if it was not and they are odd. -/
theorem toggle_isSome (contact : Option XmlElement) (items : List XmlElement) :
    (items.foldl toggle contact).isSome = true ↔
      ((contact.isSome = true ∨ lastRemovals items < items.length) ↔
        lastRemovals items % 2 = 0) := by
  induction items using List.reverseRecOn with
  | nil => simp [lastRemovals]
  | append_singleton items item ih =>
    rw [List.foldl_append, List.foldl_cons, List.foldl_nil, List.length_append,
      List.length_singleton]
    have le := lastRemovals_le items
    cases kind : removes item with
    | true =>
      rw [lastRemovals_append_removal kind]
      have flips : (toggle (items.foldl toggle contact) item).isSome = true ↔
          ¬ (items.foldl toggle contact).isSome = true := by
        cases known : (items.foldl toggle contact).isSome <;> simp [toggle, kind, known]
      have parity : (lastRemovals items + 1) % 2 = 0 ↔ ¬ lastRemovals items % 2 = 0 := by omega
      have shorter : lastRemovals items + 1 < items.length + 1 ↔
          lastRemovals items < items.length := by omega
      rw [flips, ih, parity, shorter]
      tauto
    | false =>
      rw [lastRemovals_append_update kind]
      simp [toggle, kind]

/-- The module and the server agree exactly if the last removals are orderly. -/
theorem toggle_eq_latest (contact : Option XmlElement) (items : List XmlElement) :
    items.foldl toggle contact = items.foldl latest contact ↔
      lastRemovals items = 0 ∨
        ((contact.isSome = true ∨ lastRemovals items < items.length) ↔
          lastRemovals items % 2 = 1) := by
  cases items using List.reverseRecOn with
  | nil => simp [lastRemovals]
  | append_singleton items item =>
    rw [List.foldl_append, List.foldl_append, List.foldl_cons, List.foldl_cons, List.foldl_nil,
      List.foldl_nil, List.length_append, List.length_singleton]
    cases kind : removes item with
    | true =>
      rw [lastRemovals_append_removal kind]
      have agree : toggle (items.foldl toggle contact) item =
          latest (items.foldl latest contact) item ↔
            (items.foldl toggle contact).isSome = true := by
        cases known : (items.foldl toggle contact).isSome <;> simp [toggle, latest, kind, known]
      have parity : (lastRemovals items + 1) % 2 = 1 ↔ lastRemovals items % 2 = 0 := by omega
      have shorter : lastRemovals items + 1 < items.length + 1 ↔
          lastRemovals items < items.length := by omega
      rw [agree, toggle_isSome, parity, shorter]
      simp
    | false =>
      rw [lastRemovals_append_update kind]
      simp [toggle, latest, kind]

/-! ## The contacts -/

namespace RosterModule

variable {parse : String → Option J}

/-- The contact of a `Jid`. -/
def lookup (parse : String → Option J) (contacts : List XmlElement) (jid : J) :
    Option XmlElement :=
  contacts.find? fun c => itemJid parse c = some jid

/-- The items of a `Jid`. -/
def ofJid (parse : String → Option J) (jid : J) (items : List XmlElement) : List XmlElement :=
  items.filter fun item => itemJid parse item = some jid

/-- The contacts have different `Jid`s. -/
structure Distinct (parse : String → Option J) (contacts : List XmlElement) : Prop where
  valid : ∀ contact ∈ contacts, (itemJid parse contact).isSome
  distinct : (contacts.map (itemJid parse)).Nodup

theorem findIdx?_split {p : XmlElement → Bool} {contacts : List XmlElement} {pos : Nat}
    (found : contacts.findIdx? p = some pos) :
    ∃ front c back, contacts = front ++ c :: back ∧ front.length = pos ∧ p c = true ∧
      ∀ other ∈ front, p other = false := by
  obtain ⟨inside, here, before⟩ := List.findIdx?_eq_some_iff_getElem.mp found
  refine ⟨contacts.take pos, contacts[pos], contacts.drop (pos + 1), ?_,
    List.length_take_of_le (Nat.le_of_lt inside), here, fun other listed => ?_⟩
  · rw [← List.drop_eq_getElem_cons inside, List.take_append_drop]
  · obtain ⟨index, low, rfl⟩ := List.mem_take_iff_getElem.mp listed
    exact Bool.eq_false_iff.mpr (before index (Nat.lt_of_lt_of_le low (Nat.min_le_left _ _)))

variable {contacts : List XmlElement} {item : XmlElement} {jid : J}

theorem lookup_append (front back : List XmlElement) (jid : J) :
    lookup parse (front ++ back) jid = (lookup parse front jid).or (lookup parse back jid) :=
  List.find?_append

theorem lookup_eq_none_iff :
    lookup parse contacts jid = none ↔ ∀ c ∈ contacts, itemJid parse c ≠ some jid := by
  simp [lookup]

theorem lookup_cons_self (same : itemJid parse item = some jid) (rest : List XmlElement) :
    lookup parse (item :: rest) jid = some item := by
  simp [lookup, same]

theorem lookup_cons_other {other : J} (same : itemJid parse item = some jid) (differs : other ≠ jid)
    (rest : List XmlElement) : lookup parse (item :: rest) other = lookup parse rest other := by
  simp [lookup, same, Ne.symm differs]

theorem Distinct.split {front back : List XmlElement} {c : XmlElement}
    (distinct : Distinct parse (front ++ c :: back)) (same : itemJid parse c = some jid) :
    lookup parse front jid = none ∧ lookup parse back jid = none ∧
      Distinct parse (front ++ back) := by
  have nodup := distinct.distinct
  rw [List.map_append, List.map_cons, List.nodup_middle, List.nodup_cons, same,
    ← List.map_append] at nodup
  have absent : ∀ b ∈ front ++ back, itemJid parse b ≠ some jid := fun b listed equal =>
    nodup.1 (List.mem_map.mpr ⟨b, listed, equal⟩)
  refine ⟨lookup_eq_none_iff.mpr fun b listed => absent b (List.mem_append_left _ listed),
    lookup_eq_none_iff.mpr fun b listed => absent b (List.mem_append_right _ listed),
    fun b listed => distinct.valid b ?_, nodup.2⟩
  rcases List.mem_append.mp listed with before | after
  · exact List.mem_append_left _ before
  · exact List.mem_append_right _ (List.mem_cons_of_mem _ after)

theorem Distinct.insert {front back : List XmlElement} (distinct : Distinct parse (front ++ back))
    (same : itemJid parse item = some jid) (absent : lookup parse (front ++ back) jid = none) :
    Distinct parse (front ++ item :: back) := by
  refine ⟨fun b listed => ?_, ?_⟩
  · rw [List.mem_append, List.mem_cons] at listed
    rcases listed with before | rfl | after
    · exact distinct.valid b (List.mem_append_left _ before)
    · rw [same]
      rfl
    · exact distinct.valid b (List.mem_append_right _ after)
  · rw [List.map_append, List.map_cons, List.nodup_middle, List.nodup_cons, ← List.map_append]
    refine ⟨fun listed => ?_, distinct.distinct⟩
    obtain ⟨b, inside, equal⟩ := List.mem_map.mp listed
    exact lookup_eq_none_iff.mp absent b inside (equal.trans same)

/-- What one item makes of the contacts, where it looks its contact up: those of other
`Jid`s stay, and the handler's list becomes the contacts. -/
theorem rosterItem_spec (distinct : Distinct parse contacts) (same : itemJid parse item = some jid) :
    Distinct parse (rosterItem parse false contacts item).1 ∧
    (∀ other, lookup parse (rosterItem parse false contacts item).1 other =
      if other = jid then toggle (lookup parse contacts jid) item
      else lookup parse contacts other) ∧
    (rosterItem parse false contacts item).2.foldl applyNotification contacts =
      (rosterItem parse false contacts item).1 := by
  unfold rosterItem
  rw [same]
  dsimp only
  rw [if_neg Bool.false_ne_true]
  cases found : contacts.findIdx? fun c => decide (itemJid parse c = some jid) with
  | some pos =>
    obtain ⟨front, c, back, rfl, rfl, here, before⟩ := findIdx?_split found
    have here : itemJid parse c = some jid := of_decide_eq_true here
    obtain ⟨noFront, noBack, fewer⟩ := distinct.split here
    have absent : lookup parse (front ++ back) jid = none := by
      rw [lookup_append, noFront, noBack]
      rfl
    have old : lookup parse (front ++ c :: back) jid = some c := by
      rw [lookup_append, noFront, lookup_cons_self here]
      rfl
    rw [old]
    cases kind : removes item with
    | true =>
      have erased : (front ++ c :: back).eraseIdx front.length = front ++ back := by
        simp [List.eraseIdx_append_of_length_le]
      simp only [if_true, erased]
      refine ⟨fewer, fun other => ?_, by simp [applyNotification, erased]⟩
      split
      · next equal => simp [equal, absent, toggle, kind]
      · next differs =>
        rw [lookup_append, lookup_append, lookup_cons_other here differs]
    | false =>
      have changed : (front ++ c :: back).set front.length item = front ++ item :: back := by
        simp
      simp only [Bool.false_eq_true, if_false, changed]
      refine ⟨fewer.insert same absent, fun other => ?_, by simp [applyNotification]⟩
      split
      · next equal =>
        rw [equal, lookup_append, noFront, lookup_cons_self same]
        simp [toggle, kind]
      · next differs =>
        rw [lookup_append, lookup_append, lookup_cons_other here differs,
          lookup_cons_other same differs]
  | none =>
    have absent : lookup parse contacts jid = none := by
      rw [lookup_eq_none_iff]
      intro c listed equal
      have differs := List.findIdx?_eq_none_iff.mp found c listed
      rw [decide_eq_false_iff_not] at differs
      exact differs equal
    refine ⟨Distinct.insert (by rwa [List.append_nil]) same (by rwa [List.append_nil]),
      fun other => ?_, ?_⟩
    · dsimp only
      rw [lookup_append]
      split
      · next equal =>
        rw [equal, absent, lookup_cons_self same]
        simp [toggle]
      · next differs =>
        rw [lookup_cons_other same differs]
        simp [lookup]
    · simp [applyNotification]

theorem rosterItem_invalid (allNew : Bool) (invalid : itemJid parse item = none) :
    rosterItem parse allNew contacts item = (contacts, []) := by
  unfold rosterItem
  rw [invalid]

theorem rosterItem_allNew (same : itemJid parse item = some jid) :
    rosterItem parse true contacts item = (contacts ++ [item], []) := by
  unfold rosterItem
  rw [same]
  rfl

/-- Items that are looked up: the contact of every `Jid` goes through the items of that
`Jid`. -/
theorem rosterItems_lookup (items : List XmlElement) (distinct : Distinct parse contacts) :
    Distinct parse (rosterItems parse false contacts items).1 ∧
    (∀ jid, lookup parse (rosterItems parse false contacts items).1 jid =
      (ofJid parse jid items).foldl toggle (lookup parse contacts jid)) ∧
    (rosterItems parse false contacts items).2.foldl applyNotification contacts =
      (rosterItems parse false contacts items).1 := by
  induction items generalizing contacts with
  | nil => exact ⟨distinct, fun _ => rfl, rfl⟩
  | cons item rest ih =>
    simp only [rosterItems]
    cases valid : itemJid parse item with
    | none =>
      obtain ⟨kept, looked, seen⟩ := ih distinct
      rw [rosterItem_invalid false valid]
      refine ⟨kept, fun jid => ?_, by simpa using seen⟩
      rw [looked jid, ofJid, ofJid, List.filter_cons_of_neg (by simp [valid])]
    | some jid =>
      obtain ⟨one, first, told⟩ := rosterItem_spec distinct valid
      obtain ⟨kept, looked, seen⟩ := ih one
      refine ⟨kept, fun other => ?_, ?_⟩
      · rw [looked other, first other]
        split
        · next equal =>
          rw [equal, ofJid, ofJid, List.filter_cons_of_pos (by simp [valid]), List.foldl_cons]
        · next differs =>
          rw [ofJid, ofJid, List.filter_cons_of_neg (by simp [valid, Ne.symm differs])]
      · rw [List.foldl_append, told, seen]

/-- Items that are taken as they come. -/
theorem rosterItems_allNew (items : List XmlElement) :
    rosterItems parse true contacts items =
      (contacts ++ items.filter fun item => (itemJid parse item).isSome, []) := by
  induction items generalizing contacts with
  | nil => simp [rosterItems]
  | cons item rest ih =>
    simp only [rosterItems]
    cases valid : itemJid parse item with
    | none =>
      rw [rosterItem_invalid true valid]
      simp [ih, valid]
    | some jid =>
      rw [rosterItem_allNew valid]
      simp [ih, valid]

/-- The items of a stanza's query. -/
def queryItems (stanza : XmlElement) : List XmlElement :=
  ((stanza.firstNamed qnRosterQuery).map (·.allNamed qnRosterItem)).getD []

theorem internalRosterItems_contacts (s : RosterModule) (stanza : XmlElement) :
    (s.internalRosterItems parse stanza).1.contacts =
      (rosterItems parse s.contacts.isEmpty s.contacts (queryItems stanza)).1 := by
  unfold internalRosterItems queryItems
  cases stanza.firstNamed qnRosterQuery with
  | none => rfl
  | some resultData => rfl

/-- A handler's list that is the contacts stays so. -/
theorem internalRosterItems_seen (s : RosterModule) (stanza : XmlElement)
    (distinct : Distinct parse s.contacts) :
    (s.internalRosterItems parse stanza).2.foldl applyNotification s.contacts =
      (s.internalRosterItems parse stanza).1.contacts := by
  unfold internalRosterItems
  cases stanza.firstNamed qnRosterQuery with
  | none => rfl
  | some resultData =>
    dsimp only
    cases empty : s.contacts.isEmpty with
    | true =>
      rw [if_pos rfl, rosterItems_allNew, List.isEmpty_iff.mp empty]
      simp [applyNotification]
    | false =>
      rw [if_neg Bool.false_ne_true]
      exact (rosterItems_lookup _ distinct).2.2

theorem input_contacts (s : RosterModule) (input : RosterInput) :
    (s.input parse input).1.contacts =
      (rosterItems parse s.contacts.isEmpty s.contacts input.items).1 := by
  cases input with
  | iqResponse stanza =>
    simp only [RosterModule.input, iqResponse, RosterInput.items]
    split
    · rfl
    · exact internalRosterItems_contacts s stanza
  | handleStanza stanza =>
    simp only [RosterModule.input, handleStanza, RosterInput.items]
    by_cases push : stanza.name = qnIq ∧ stanza.attr qnType = "set"
    · rw [if_pos push]
      cases query : stanza.firstNamed qnRosterQuery with
      | none => simp [rosterItems]
      | some resultData =>
        rw [if_pos ⟨push.1, rfl, push.2⟩]
        have contacts := @internalRosterItems_contacts J _ parse s stanza
        rw [queryItems, query] at contacts
        exact contacts
    · rw [if_neg push, if_neg fun whole => push ⟨whole.1, whole.2.2⟩]
      rfl

theorem input_seen (s : RosterModule) (input : RosterInput)
    (distinct : Distinct parse s.contacts) :
    (s.input parse input).2.foldl applyNotification s.contacts =
      (s.input parse input).1.contacts := by
  cases input with
  | iqResponse stanza =>
    simp only [RosterModule.input, iqResponse]
    split
    · rfl
    · exact internalRosterItems_seen s stanza distinct
  | handleStanza stanza =>
    simp only [RosterModule.input, handleStanza]
    split
    · exact internalRosterItems_seen s stanza distinct
    · rfl

end RosterModule

/-! ## Stanzas -/

theorem server_ofJid {parse : String → Option J} (items : List XmlElement)
    (server : ServerRoster J) (jid : J) :
    items.foldl (ServerRoster.apply parse) server jid =
      (RosterModule.ofJid parse jid items).foldl latest (server jid) := by
  induction items generalizing server with
  | nil => rfl
  | cons item rest ih =>
    rw [List.foldl_cons, ih, RosterModule.ofJid, RosterModule.ofJid]
    cases valid : itemJid parse item with
    | none =>
      rw [List.filter_cons_of_neg (by simp [valid])]
      simp [ServerRoster.apply, valid]
    | some owner =>
      by_cases same : owner = jid
      · rw [List.filter_cons_of_pos (by simp [valid, same]), List.foldl_cons]
        simp [ServerRoster.apply, valid, same, latest]
      · rw [List.filter_cons_of_neg (by simp [valid, same])]
        simp [ServerRoster.apply, valid, Function.update_of_ne (Ne.symm same)]

namespace Mirror

open RosterModule (lookup ofJid rosterItems)

variable {parse : String → Option J} {s : Mirror J} {input : RosterInput}

/-- The valid items of a `Jid`. -/
theorem ofJid_valid (items : List XmlElement) (jid : J) :
    (items.filter fun item => (itemJid parse item).isSome).filter
      (fun item => itemJid parse item = some jid) = ofJid parse jid items := by
  rw [List.filter_filter, ofJid]
  refine List.filter_congr fun item _ => ?_
  by_cases same : itemJid parse item = some jid <;> simp [same]

/-- A handler that has followed the contacts so far has the server's contacts. -/
structure Follows (parse : String → Option J) (s : Mirror J) : Prop where
  mirrors : Mirrors parse s.module.contacts s.server
  seen : s.seen = s.module.contacts

theorem Follows.distinct (follows : s.Follows parse) :
    RosterModule.Distinct parse s.module.contacts :=
  ⟨follows.mirrors.valid, follows.mirrors.distinct⟩

theorem seen_step (follows : s.Follows parse) (input : RosterInput) :
    (s.step parse input).seen = (s.step parse input).module.contacts := by
  simp only [step, follows.seen]
  exact RosterModule.input_seen s.module input follows.distinct

/-- Contacts that are looked up. -/
theorem mirrors_lookup (follows : s.Follows parse) (known : s.module.contacts.isEmpty = false) :
    Mirrors parse (s.step parse input).module.contacts (s.step parse input).server ↔
      ∀ jid, lastRemovals (ofJid parse jid input.items) = 0 ∨
        (((s.server jid).isSome ∨
            lastRemovals (ofJid parse jid input.items) < (ofJid parse jid input.items).length) ↔
          lastRemovals (ofJid parse jid input.items) % 2 = 1) := by
  have contacts := @RosterModule.input_contacts J _ parse s.module input
  rw [known] at contacts
  obtain ⟨distinct, looked, -⟩ := RosterModule.rosterItems_lookup input.items follows.distinct
  rw [← contacts] at distinct looked
  have agree : ∀ jid, (lookup parse (s.step parse input).module.contacts jid =
      (s.step parse input).server jid) ↔
        (ofJid parse jid input.items).foldl toggle (s.server jid) =
          (ofJid parse jid input.items).foldl latest (s.server jid) := fun jid => by
    have before : lookup parse s.module.contacts jid = s.server jid := follows.mirrors.same jid
    simp only [step]
    rw [looked jid, server_ofJid, before]
  constructor
  · intro mirrors jid
    exact (toggle_eq_latest _ _).mp ((agree jid).mp (mirrors.same jid))
  · intro orderly
    exact ⟨distinct.valid, distinct.distinct, fun jid =>
      (agree jid).mpr ((toggle_eq_latest _ _).mpr (orderly jid))⟩

/-- An item of a `Jid` that no other item has. -/
theorem ofJid_once {contacts : List XmlElement} {item : XmlElement} {jid : J}
    (distinct : RosterModule.Distinct parse contacts) (listed : item ∈ contacts)
    (same : itemJid parse item = some jid) : ofJid parse jid contacts = [item] := by
  obtain ⟨front, back, rfl⟩ := List.append_of_mem listed
  obtain ⟨noFront, noBack, -⟩ := distinct.split same
  have others : ∀ part, lookup parse part jid = none → ofJid parse jid part = [] := by
    intro part absent
    rw [RosterModule.lookup_eq_none_iff] at absent
    simpa [ofJid] using absent
  have split : ofJid parse jid (front ++ item :: back) =
      ofJid parse jid front ++ item :: ofJid parse jid back := by
    simp [ofJid, same]
  rw [split, others front noFront, others back noBack, List.nil_append]

/-- Contacts that are taken as they come. -/
theorem mirrors_allNew (follows : s.Follows parse) (known : s.module.contacts = []) :
    Mirrors parse (s.step parse input).module.contacts (s.step parse input).server ↔
      ((input.items.filter fun item => (itemJid parse item).isSome).map (itemJid parse)).Nodup ∧
        ∀ item ∈ input.items.filter fun item => (itemJid parse item).isSome, ¬ removes item := by
  have contacts := @RosterModule.input_contacts J _ parse s.module input
  rw [known, List.isEmpty_nil, RosterModule.rosterItems_allNew, List.nil_append] at contacts
  have server : ∀ jid, (s.step parse input).server jid =
      (ofJid parse jid input.items).foldl latest none := fun jid => by
    have nothing := follows.mirrors.same jid
    rw [known] at nothing
    simp only [step]
    rw [server_ofJid, ← nothing]
    rfl
  simp only [step] at server ⊢
  rw [contacts]
  dsimp only
  have mine := fun jid => @ofJid_valid J _ parse input.items jid
  have valid : ∀ item ∈ input.items.filter fun item => (itemJid parse item).isSome,
      (itemJid parse item).isSome := fun item listed => by simpa using (List.mem_filter.mp listed).2
  generalize input.items.filter (fun item => (itemJid parse item).isSome) = items at mine valid ⊢
  constructor
  · intro mirrors
    refine ⟨mirrors.distinct, fun item listed removal => ?_⟩
    obtain ⟨jid, same⟩ := Option.isSome_iff_exists.mp (valid item listed)
    have gone := mirrors.same jid
    rw [server, ← mine, ← ofJid, ofJid_once ⟨valid, mirrors.distinct⟩ listed same, List.foldl_cons,
      List.foldl_nil, latest, if_pos removal] at gone
    exact RosterModule.lookup_eq_none_iff.mp gone item listed same
  · rintro ⟨distinct, updates⟩
    refine ⟨valid, distinct, fun jid => ?_⟩
    rw [server, ← mine, ← ofJid]
    cases found : lookup parse items jid with
    | none =>
      have none : ofJid parse jid items = [] := by
        simpa [ofJid] using RosterModule.lookup_eq_none_iff.mp found
      rw [none]
      exact found
    | some item =>
      have same : itemJid parse item = some jid := by
        simpa using List.find?_some found
      have listed := List.mem_of_find?_eq_some found
      rw [ofJid_once ⟨valid, distinct⟩ listed same, List.foldl_cons, List.foldl_nil, latest,
        if_neg (updates item listed)]
      exact found

/-- A stanza is reproduced exactly if its items are orderly. -/
theorem reproduces_iff_orderly (follows : s.Follows parse) (input : RosterInput) :
    s.Reproduces parse input ↔ s.Orderly parse input := by
  have mirrors : s.Reproduces parse input ↔
      Mirrors parse (s.step parse input).module.contacts (s.step parse input).server :=
    ⟨fun reproduces => reproduces.mirrors, fun mirrors => ⟨mirrors, seen_step follows input⟩⟩
  rw [mirrors]
  unfold Orderly
  dsimp only
  split
  · next none => exact mirrors_allNew follows (List.isEmpty_iff.mp none)
  · next known =>
    simp only [ofJid_valid]
    exact mirrors_lookup follows (Bool.eq_false_iff.mpr known)

theorem Follows.new : (Mirror.new : Mirror J).Follows parse :=
  ⟨⟨by simp [Mirror.new], by simp [Mirror.new], fun _ => rfl⟩, rfl⟩

/-- The contacts are those of the server after every stanza, and a handler that applies the
notifications has them, exactly if every stanza is orderly. -/
theorem roster_reproduced (parse : String → Option J) (inputs : List RosterInput) :
    Along (step parse) (Reproduces parse) .new inputs ↔
      Along (step parse) (Orderly parse) .new inputs :=
  along_congr_of_invariant (P := Follows parse)
    (fun _ _ _ reproduces => ⟨reproduces.mirrors, reproduces.seen⟩)
    (fun _ input follows => reproduces_iff_orderly follows input) Follows.new inputs

/-! ## A removal of an unknown contact -/

/-- A roster push of one item. -/
private def push (attrs : List XmlAttr) : RosterInput :=
  .handleStanza (.mk qnIq [⟨qnType, "set"⟩] false
    [.element (.mk qnRosterQuery [] false [.element (.mk qnRosterItem attrs false [])])])

/-- The first push removes a contact that is not there, and adds it. -/
theorem removal_adds :
    ¬ ∀ inputs : List RosterInput, Along (step some) (Reproduces some) (.new : Mirror String) inputs := by
  intro claim
  obtain ⟨reproduces, -⟩ :=
    claim [push [⟨qnJid, "ann@example.com"⟩, ⟨qnSubscription, "remove"⟩]]
  have gone := reproduces.mirrors.same "ann@example.com"
  have contact : ((step some (.new : Mirror String)
      (push [⟨qnJid, "ann@example.com"⟩, ⟨qnSubscription, "remove"⟩])).module.contacts.find?
        fun c => itemJid some c = some "ann@example.com").isSome = true := by
    decide +kernel
  have none : ((step some (.new : Mirror String)
      (push [⟨qnJid, "ann@example.com"⟩, ⟨qnSubscription, "remove"⟩])).server
        "ann@example.com").isSome = false := by
    decide +kernel
  rw [gone, none] at contact
  cases contact

end Mirror

end Libjingle.Xmpp

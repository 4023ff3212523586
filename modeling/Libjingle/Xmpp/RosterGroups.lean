import Libjingle.Std.Trace
import Libjingle.Xml.ElementLists
import Libjingle.Xmpp.Roster
import Mathlib.Algebra.Order.Ring.Nat

/-!
# The groups of a roster contact

`XmppRosterContactImpl` of `talk/xmpp/rostermoduleimpl.cc` keeps a contact as the XML element
of a roster item, and reads its groups from there. It remembers how many there are, and the
last one that it returned, so that going through them in order is fast.

A pointer to a child of the element is the number of the child here, and what follows a null
pointer has no result.
-/

namespace Libjingle.Xmpp

open Libjingle.Std
open Libjingle.Xml

def qnRosterGroup : QName := ⟨nsRoster, "group"⟩
def qnAsk : QName := ⟨"", "ask"⟩

inductive RosterStatus where
  | ok
  | badArgument
  deriving DecidableEq, Repr

structure RosterContact where
  rawXml : Option XmlElement
  /-- A negative number is none. -/
  groupCount : Int
  groupIndexReturned : Int
  groupReturned : Option Nat

/-- `FirstNamed`, and `NextNamed` of the child before: the first child of the name from a place
on. -/
def namedFrom (name : QName) (children : List XmlChild) (start : Nat) : Option Nat :=
  ((children.drop start).findIdx? (XmlChild.isNamed name)).map (· + start)

/-- `BodyText` of a child that is an element. -/
def childText (child : XmlChild) : String :=
  (child.asElement.map XmlElement.bodyText).getD ""

/-- A group of that name. -/
def isGroup (group : String) (child : XmlChild) : Bool :=
  child.isNamed qnRosterGroup && childText child = group

/-- `FindGroup`: the child before the group. -/
def findGroup (group : String) (children : List XmlChild) : Option (Option Nat) :=
  (children.findIdx? (isGroup group)).map fun child => if child = 0 then none else some (child - 1)

namespace RosterContact

/-- `ResetGroupCache`. -/
def resetGroupCache (c : RosterContact) : RosterContact :=
  { c with groupCount := -1, groupIndexReturned := -1, groupReturned := none }

/-- `Create`. -/
def new : RosterContact := ⟨none, -1, -1, none⟩

/-- The element, or that of `CreateRawXmlSkeleton`. -/
def skeleton (c : RosterContact) : XmlElement :=
  c.rawXml.getD (.new qnRosterItem)

def setXmlFromWire (c : RosterContact) (xml : Option XmlElement) : RosterContact :=
  { c.resetGroupCache with rawXml := xml }

def setRawXml (c : RosterContact) : Option XmlElement → RosterStatus × RosterContact
  | none => (.badArgument, c)
  | some xml =>
      if xml.name ≠ qnRosterItem ∨ xml.hasAttr qnSubscription ∨ xml.hasAttr qnAsk then
        (.badArgument, c)
      else (.ok, { c.resetGroupCache with rawXml := some xml })

def getGroupCount (c : RosterContact) : Int × RosterContact :=
  match c.rawXml with
  | none => (0, c)
  | some xml =>
      let c := if c.groupCount = -1
        then { c with groupCount := (xml.children.countP (XmlChild.isNamed qnRosterGroup) : Nat) }
        else c
      (c.groupCount, c)

/-- The loop of `GetGroup`: so many times the next group after the first. -/
def groupAt (children : List XmlChild) : Nat → Option Nat
  | 0 => namedFrom qnRosterGroup children 0
  | index + 1 =>
      (groupAt children index).bind fun child => namedFrom qnRosterGroup children (child + 1)

def getGroup (c : RosterContact) (index : Nat) : Option (String × RosterContact) :=
  let counted := c.getGroupCount
  let c := counted.2
  if counted.1 ≤ index then some ("", c)
  else
    match c.rawXml with
    | none => none
    | some xml =>
        let moved :=
          if 0 ≤ c.groupIndexReturned ∧ (index : Int) = c.groupIndexReturned + 1 then
            c.groupReturned.map fun child =>
              { c with
                groupReturned := namedFrom qnRosterGroup xml.children (child + 1)
                groupIndexReturned := c.groupIndexReturned + 1 }
          else if c.groupIndexReturned < 0 ∨ c.groupIndexReturned ≠ index then
            some { c with groupIndexReturned := index, groupReturned := groupAt xml.children index }
          else some c
        moved.bind fun c =>
          (c.groupReturned.bind (xml.children[·]?)).map fun child => (childText child, c)

def addGroup (c : RosterContact) (group : String) : RosterStatus × RosterContact :=
  if group = "" then (.badArgument, c)
  else
    let xml := c.skeleton
    if (findGroup group xml.children).isSome then (.ok, { c with rawXml := some xml })
    else
      (.ok,
        { c with
          rawXml := some (xml.addElement ((XmlElement.new qnRosterGroup).addText group))
          groupCount := c.groupCount + 1 })

def removeGroup (c : RosterContact) (group : String) : RosterStatus × RosterContact :=
  if group = "" then (.badArgument, c)
  else
    match c.rawXml with
    | none => (.ok, c)
    | some xml =>
        match findGroup group xml.children with
        | none => (.ok, c)
        | some childBefore =>
            (.ok, { c.resetGroupCache with rawXml := some (xml.removeChildAfter childBefore) })

end RosterContact

/-- What happens to a contact. -/
inductive ContactCall where
  | setXmlFromWire (xml : Option XmlElement)
  | setRawXml (xml : Option XmlElement)
  | addGroup (group : String)
  | removeGroup (group : String)
  | getGroupCount
  | getGroup (index : Nat)

namespace RosterContact

def step (c : RosterContact) : ContactCall → RosterContact
  | .setXmlFromWire xml => c.setXmlFromWire xml
  | .setRawXml xml => (c.setRawXml xml).2
  | .addGroup group => (c.addGroup group).2
  | .removeGroup group => (c.removeGroup group).2
  | .getGroupCount => c.getGroupCount.2
  | .getGroup index => ((c.getGroup index).map Prod.snd).getD c

/-! ## What is there to be read -/

/-- The texts of the group elements. -/
def groupsOf (children : List XmlChild) : List String :=
  (children.filter (XmlChild.isNamed qnRosterGroup)).map childText

def children (c : RosterContact) : List XmlChild :=
  (c.rawXml.map XmlElement.children).getD []

def groups (c : RosterContact) : List String :=
  groupsOf c.children

/-- The count is that of the groups, and each group is read at its place. -/
structure Reads (c : RosterContact) : Prop where
  count : c.getGroupCount.1 = (c.groups.length : Nat)
  group : ∀ index text, c.groups[index]? = some text →
    ∃ c', c.getGroup index = some (text, c')

/-- No element that is set has two groups of one name. -/
def OnlyAdded : ContactCall → Prop
  | .setXmlFromWire (some xml) | .setRawXml (some xml) => (groupsOf xml.children).Nodup
  | _ => True

/-- The groups are read right before and after every call, and no name occurs twice among groups
that have been added. -/
structure Consistent (calls : List ContactCall) : Prop where
  reads : Along step (fun c call => c.Reads ∧ (c.step call).Reads) new calls
  distinct : (∀ call ∈ calls, OnlyAdded call) → (runInputs step new calls).groups.Nodup

/-- A group is added when the count is known. -/
def Clear (c : RosterContact) : ContactCall → Prop
  | .addGroup group => group ≠ "" → group ∉ c.groups → c.groupCount ≠ -1
  | _ => True

/-! ## Places of groups -/

/-- A child is a group, with so many groups before it. -/
def IsAt (children : List XmlChild) (index child : Nat) : Prop :=
  ∃ before group after, children = before ++ group :: after ∧ before.length = child ∧
    before.countP (XmlChild.isNamed qnRosterGroup) = index ∧ group.isNamed qnRosterGroup = true

variable {children : List XmlChild} {index child start : Nat}

theorem length_groupsOf (children : List XmlChild) :
    (groupsOf children).length = children.countP (XmlChild.isNamed qnRosterGroup) := by
  rw [groupsOf, List.length_map, List.countP_eq_length_filter]

/-- The next group from a place on. -/
theorem namedFrom_isAt
    (before : (children.take start).countP (XmlChild.isNamed qnRosterGroup) = index)
    (more : index < children.countP (XmlChild.isNamed qnRosterGroup)) :
    ∃ child, namedFrom qnRosterGroup children start = some child ∧ IsAt children index child := by
  have whole := List.take_append_drop start children
  have counts := congrArg (List.countP (XmlChild.isNamed qnRosterGroup)) whole
  rw [List.countP_append] at counts
  have some_ : 0 < (children.drop start).countP (XmlChild.isNamed qnRosterGroup) := by omega
  obtain ⟨group, listed, named⟩ := List.countP_pos_iff.mp some_
  have inside : start ≤ children.length := by
    refine Nat.le_of_lt (Nat.lt_of_not_le fun beyond => ?_)
    rw [List.drop_eq_nil_of_le beyond] at listed
    cases listed
  cases found : (children.drop start).findIdx? (XmlChild.isNamed qnRosterGroup) with
  | none =>
    rw [List.findIdx?_eq_none_iff.mp found group listed] at named
    cases named
  | some place =>
    refine ⟨place + start, by rw [namedFrom, found, Option.map_some], ?_⟩
    obtain ⟨short, here, others⟩ := List.findIdx?_eq_some_iff_getElem.mp found
    refine ⟨children.take start ++ (children.drop start).take place, (children.drop start)[place],
      (children.drop start).drop (place + 1), ?_, ?_, ?_, here⟩
    · rw [List.append_assoc, ← List.drop_eq_getElem_cons short, List.take_append_drop, whole]
    · rw [List.length_append, List.length_take, List.length_take]
      omega
    · have none : ((children.drop start).take place).countP (XmlChild.isNamed qnRosterGroup) = 0 := by
        refine List.countP_eq_zero.mpr fun other early => ?_
        obtain ⟨at_, below, rfl⟩ := List.mem_take_iff_getElem.mp early
        exact others at_ (by omega)
      rw [List.countP_append, before, none, Nat.add_zero]

/-- Behind a group there is one more before. -/
theorem IsAt.take (isAt : IsAt children index child) :
    (children.take (child + 1)).countP (XmlChild.isNamed qnRosterGroup) = index + 1 := by
  obtain ⟨before, group, after, rfl, rfl, rfl, named⟩ := isAt
  have front : (before ++ group :: after).take (before.length + 1) = before ++ [group] := by
    rw [List.take_append, List.take_of_length_le (Nat.le_succ _)]
    simp
  rw [front, List.countP_append, List.countP_singleton, if_pos named]

theorem IsAt.lt (isAt : IsAt children index child) : index < (groupsOf children).length := by
  obtain ⟨before, group, after, rfl, rfl, rfl, named⟩ := isAt
  rw [length_groupsOf, List.countP_append, List.countP_cons_of_pos named]
  omega

/-- The loop of `GetGroup` comes to the group of that number. -/
theorem groupAt_isAt (more : index < children.countP (XmlChild.isNamed qnRosterGroup)) :
    ∃ child, groupAt children index = some child ∧ IsAt children index child := by
  induction index with
  | zero => exact namedFrom_isAt (by simp) more
  | succ index ih =>
    obtain ⟨child, found, isAt⟩ := ih (Nat.lt_of_succ_lt more)
    rw [groupAt, found]
    exact namedFrom_isAt isAt.take more

theorem IsAt.text (isAt : IsAt children index child) :
    ∃ group, children[child]? = some group ∧
      (groupsOf children)[index]? = some (childText group) := by
  obtain ⟨before, group, after, rfl, rfl, rfl, named⟩ := isAt
  refine ⟨group, by simp, ?_⟩
  rw [groupsOf, List.filter_append, List.filter_cons_of_pos named, List.map_append, List.map_cons,
    List.getElem?_append_right (by rw [List.length_map, List.countP_eq_length_filter]),
    List.length_map, List.countP_eq_length_filter, Nat.sub_self]
  rfl

theorem IsAt.append (isAt : IsAt children index child) (more : List XmlChild) :
    IsAt (children ++ more) index child := by
  obtain ⟨before, group, after, rfl, length, count, named⟩ := isAt
  exact ⟨before, group, after ++ more, by simp, length, count, named⟩

/-! ## The cache -/

/-- The count is unknown or right, and the group that was returned last is where it was. -/
structure Cached (c : RosterContact) : Prop where
  count : c.groupCount = -1 ∨ c.groupCount = (c.groups.length : Nat)
  cursor : 0 ≤ c.groupIndexReturned → ∃ child, c.groupReturned = some child ∧
    IsAt c.children c.groupIndexReturned.toNat child

variable {c : RosterContact}

theorem cached_new : new.Cached :=
  ⟨.inl rfl, fun known => absurd known (by decide)⟩

/-- Nothing is remembered. -/
theorem cached_reset (c : RosterContact) (xml : Option XmlElement) :
    Cached { c.resetGroupCache with rawXml := xml } :=
  ⟨.inl rfl, fun known => absurd known (by decide : ¬ (0 : Int) ≤ -1)⟩

theorem children_of_rawXml {c c' : RosterContact} (same : c'.rawXml = c.rawXml) :
    c'.children = c.children :=
  congrArg (fun xml => (xml.map XmlElement.children).getD []) same

theorem getGroupCount_rawXml (c : RosterContact) : c.getGroupCount.2.rawXml = c.rawXml := by
  obtain ⟨rawXml, count, index, returned⟩ := c
  unfold RosterContact.getGroupCount
  cases rawXml with
  | none => rfl
  | some xml =>
    dsimp only
    split
    · rfl
    · rfl

/-- `GetGroupCount` counts right, and remembers. -/
theorem Cached.getGroupCount (cached : c.Cached) :
    c.getGroupCount.1 = (c.groups.length : Nat) ∧ c.getGroupCount.2.Cached := by
  obtain ⟨rawXml, count, index, returned⟩ := c
  unfold RosterContact.getGroupCount
  cases rawXml with
  | none => exact ⟨rfl, cached⟩
  | some xml =>
    have length := congrArg Int.ofNat (length_groupsOf xml.children)
    dsimp only
    split
    · exact ⟨length.symm, .inr length.symm, cached.cursor⟩
    · next known => exact ⟨cached.count.resolve_left known, cached⟩

/-- `GetGroup` reads the group of that number, and remembers where it is. -/
theorem Cached.getGroup (cached : c.Cached) {index : Nat} (inside : index < c.groups.length) :
    ∃ text c', c.groups[index]? = some text ∧ c.getGroup index = some (text, c') ∧ c'.Cached := by
  obtain ⟨count, cached'⟩ := cached.getGroupCount
  unfold RosterContact.getGroup
  rw [if_neg (by omega)]
  have same : c.children = c.getGroupCount.2.children :=
    (children_of_rawXml (getGroupCount_rawXml c)).symm
  generalize c.getGroupCount.2 = c₁ at *
  cases found : c₁.rawXml with
  | none =>
    have none : c₁.children = [] := by simp [RosterContact.children, found]
    rw [groups, same, none] at inside
    cases inside
  | some xml =>
    have children : c₁.children = xml.children := by simp [RosterContact.children, found]
    have groups_eq : c.groups = groupsOf xml.children := by rw [groups, same, children]
    have more : index < xml.children.countP (XmlChild.isNamed qnRosterGroup) := by
      rwa [groups_eq, length_groupsOf] at inside
    -- Wherever the group is found, its text is returned.
    have returns : ∀ c₂ : RosterContact, c₂.rawXml = some xml → c₂.groupCount = c₁.groupCount →
        c₂.groupIndexReturned = index → ∀ child, c₂.groupReturned = some child →
        IsAt xml.children index child →
        ∃ text c', c.groups[index]? = some text ∧
          ((c₂.groupReturned.bind (xml.children[·]?)).map fun child => (childText child, c₂)) =
            some (text, c') ∧ c'.Cached := by
      intro c₂ raw count₂ index₂ child returned isAt
      obtain ⟨group, here, text⟩ := isAt.text
      have children₂ : c₂.children = xml.children := by simp [RosterContact.children, raw]
      refine ⟨childText group, c₂, by rw [groups_eq, text], ?_, ⟨?_, fun _ => ?_⟩⟩
      · rw [returned, Option.bind_some, here, Option.map_some]
      · rw [count₂, groups, children₂, ← groups_eq]
        have known := cached'.count
        rwa [groups, children, ← groups_eq] at known
      · refine ⟨child, returned, ?_⟩
        rwa [children₂, index₂, Int.toNat_natCast]
    dsimp only
    by_cases next : 0 ≤ c₁.groupIndexReturned ∧ (index : Int) = c₁.groupIndexReturned + 1
    · -- The one behind the last one.
      obtain ⟨child, returned, isAt⟩ := cached'.cursor next.1
      rw [children] at isAt
      have step : c₁.groupIndexReturned.toNat + 1 = index := by omega
      obtain ⟨child', found', isAt'⟩ := namedFrom_isAt (step ▸ isAt.take) more
      rw [if_pos next, returned, Option.map_some, Option.bind_some]
      exact returns _ rfl rfl next.2.symm child' found' isAt'
    rw [if_neg next]
    by_cases other : c₁.groupIndexReturned < 0 ∨ c₁.groupIndexReturned ≠ index
    · -- From the first one on.
      obtain ⟨child, found', isAt⟩ := groupAt_isAt more
      rw [if_pos other, Option.bind_some]
      exact returns _ rfl rfl rfl child found' isAt
    · -- The last one again.
      have again : c₁.groupIndexReturned = index := by omega
      obtain ⟨child, returned, isAt⟩ := cached'.cursor (by omega)
      rw [if_neg other, Option.bind_some]
      rw [children, again, Int.toNat_natCast] at isAt
      exact returns _ found rfl again child returned isAt

theorem Cached.reads (cached : c.Cached) : c.Reads := by
  refine ⟨cached.getGroupCount.1, fun index text here => ?_⟩
  obtain ⟨text', c', here', read, -⟩ := cached.getGroup (List.getElem?_eq_some_iff.mp here).1
  rw [here] at here'
  cases here'
  exact ⟨c', read⟩

/-! ## The calls -/

theorem groupsOf_append (before after : List XmlChild) :
    groupsOf (before ++ after) = groupsOf before ++ groupsOf after := by
  rw [groupsOf, List.filter_append, List.map_append]
  rfl

/-- `FindGroup` finds a group if there is one of that name. -/
theorem findGroup_isSome (group : String) (children : List XmlChild) :
    (findGroup group children).isSome = true ↔ group ∈ groupsOf children := by
  rw [findGroup, Option.isSome_map, List.findIdx?_isSome, List.any_eq_true]
  simp only [isGroup, groupsOf, Bool.and_eq_true, decide_eq_true_eq, List.mem_map, List.mem_filter]
  constructor
  · rintro ⟨child, listed, named, text⟩
    exact ⟨child, ⟨listed, named⟩, text⟩
  · rintro ⟨child, ⟨listed, named⟩, text⟩
    exact ⟨child, listed, named, text⟩

/-- The element that `AddGroup` adds. -/
def added (group : String) : XmlChild :=
  .element ((XmlElement.new qnRosterGroup).addText group)

theorem groupsOf_added {group : String} (named : group ≠ "") : groupsOf [added group] = [group] := by
  have text : (XmlElement.new qnRosterGroup).addText group =
      .mk qnRosterGroup [] false [.text group] := by
    rw [XmlElement.addText, if_neg named]
    rfl
  rw [added, text]
  rfl

/-- The contact behind `AddGroup`. -/
theorem addGroup_cases (c : RosterContact) (group : String) :
    ((group = "" ∨ group ∈ c.groups) ∧ (c.addGroup group).2.groupCount = c.groupCount ∧
        (c.addGroup group).2.children = c.children ∨
      (group ≠ "" ∧ group ∉ c.groups) ∧ (c.addGroup group).2.groupCount = c.groupCount + 1 ∧
        (c.addGroup group).2.children = c.children ++ [added group]) ∧
    (c.addGroup group).2.groupIndexReturned = c.groupIndexReturned ∧
    (c.addGroup group).2.groupReturned = c.groupReturned := by
  have skeleton : c.skeleton.children = c.children := by
    unfold RosterContact.skeleton RosterContact.children
    cases c.rawXml <;> rfl
  unfold RosterContact.addGroup
  by_cases empty : group = ""
  · rw [if_pos empty]
    exact ⟨.inl ⟨.inl empty, rfl, rfl⟩, rfl, rfl⟩
  rw [if_neg empty]
  dsimp only
  by_cases found : (findGroup group c.skeleton.children).isSome = true
  · rw [if_pos found]
    rw [findGroup_isSome, skeleton] at found
    exact ⟨.inl ⟨.inr found, rfl, skeleton⟩, rfl, rfl⟩
  · rw [if_neg found]
    rw [findGroup_isSome, skeleton] at found
    refine ⟨.inr ⟨⟨empty, found⟩, rfl, ?_⟩, rfl, rfl⟩
    exact congrArg (· ++ [added group]) skeleton

/-- A group that is added is counted if the count is known. -/
theorem Cached.addGroup (cached : c.Cached) {group : String} (clear : c.Clear (.addGroup group)) :
    (c.addGroup group).2.Cached := by
  obtain ⟨⟨-, count, same⟩ | ⟨⟨named, new⟩, count, more⟩, index, returned⟩ := addGroup_cases c group
  · refine ⟨?_, ?_⟩
    · rw [count, groups, same]
      exact cached.count
    · rw [index, returned, same]
      exact cached.cursor
  · refine ⟨.inr ?_, fun known => ?_⟩
    · have before := cached.count.resolve_left (clear named new)
      rw [count, groups, more, groupsOf_append, groupsOf_added named, before]
      simp [groups]
    · rw [index] at known ⊢
      obtain ⟨child, here, isAt⟩ := cached.cursor known
      rw [returned, more]
      exact ⟨child, here, isAt.append _⟩

/-- One that is added when the count is unknown is not. -/
theorem not_reads_addGroup {group : String} (named : group ≠ "") (new : group ∉ c.groups)
    (unknown : c.groupCount = -1) : ¬ (c.addGroup group).2.Reads := by
  intro reads
  obtain ⟨⟨old, -⟩ | ⟨-, count, more⟩, -⟩ := addGroup_cases c group
  · exact old.elim named new
  have zero : (c.addGroup group).2.groupCount = 0 := by
    rw [count, unknown]
    rfl
  have counted := reads.count
  rw [groups, more, groupsOf_append, groupsOf_added named, List.length_append] at counted
  unfold RosterContact.getGroupCount at counted
  split at counted
  · simp at counted
    omega
  · dsimp only at counted
    rw [if_neg (by rw [zero]; decide), zero] at counted
    simp at counted
    omega

theorem Cached.step (cached : c.Cached) {call : ContactCall} (clear : c.Clear call) :
    (c.step call).Cached := by
  cases call with
  | setXmlFromWire xml => exact cached_reset c xml
  | setRawXml xml =>
    cases xml with
    | none => exact cached
    | some xml =>
      simp only [RosterContact.step, setRawXml]
      split
      · exact cached
      · exact cached_reset c (some xml)
  | addGroup group => exact cached.addGroup clear
  | removeGroup group =>
    simp only [RosterContact.step, removeGroup]
    split
    · exact cached
    split
    · exact cached
    split
    · exact cached
    · exact cached_reset c _
  | getGroupCount => exact cached.getGroupCount.2
  | getGroup index =>
    simp only [RosterContact.step]
    rcases Nat.lt_or_ge index c.groups.length with inside | beyond
    · obtain ⟨text, c', -, read, cached'⟩ := cached.getGroup inside
      rw [read]
      exact cached'
    · obtain ⟨count, cached'⟩ := cached.getGroupCount
      have past : c.getGroup index = some ("", c.getGroupCount.2) := by
        unfold RosterContact.getGroup
        rw [if_pos (by omega)]
      rw [past]
      exact cached'

/-- The groups are read right before and behind a call if and only if the call adds no group while
the count is unknown. -/
theorem Cached.reads_iff (cached : c.Cached) (call : ContactCall) :
    c.Reads ∧ (c.step call).Reads ↔ c.Clear call := by
  constructor
  · rintro ⟨-, after⟩
    cases call with
    | addGroup group => exact fun named new unknown => not_reads_addGroup named new unknown after
    | _ => trivial
  · exact fun clear => ⟨cached.reads, (cached.step clear).reads⟩

/-! ## The names of groups -/

/-- `GetGroup` keeps the element. -/
theorem getGroup_rawXml {c c' : RosterContact} {index : Nat} {text : String}
    (read : c.getGroup index = some (text, c')) : c'.rawXml = c.rawXml := by
  have kept := getGroupCount_rawXml c
  unfold RosterContact.getGroup at read
  generalize c.getGroupCount = counted at *
  obtain ⟨count, c₁⟩ := counted
  dsimp only at read kept
  by_cases beyond : count ≤ index
  · rw [if_pos beyond] at read
    cases read
    exact kept
  rw [if_neg beyond] at read
  cases found : c₁.rawXml with
  | none =>
    rw [found] at read
    cases read
  | some xml =>
    simp only [found, Option.bind_eq_some_iff, Option.map_eq_some_iff] at read
    obtain ⟨c₂, moved, child, -, same⟩ := read
    cases same
    rw [← kept]
    split at moved
    · obtain ⟨child, -, rfl⟩ := Option.map_eq_some_iff.mp moved
      exact found.symm
    split at moved
    · cases moved
      exact found.symm
    · cases moved
      rfl

theorem groupsOf_sublist {fewer children : List XmlChild} (sublist : fewer.Sublist children) :
    (groupsOf fewer).Sublist (groupsOf children) :=
  (sublist.filter _).map _

/-- A group is added only where there is none of its name. -/
theorem step_nodup (distinct : c.groups.Nodup) {call : ContactCall} (added : OnlyAdded call) :
    (c.step call).groups.Nodup := by
  cases call with
  | setXmlFromWire xml =>
    cases xml with
    | none => exact List.nodup_nil
    | some xml => exact added
  | setRawXml xml =>
    cases xml with
    | none => exact distinct
    | some xml =>
      simp only [RosterContact.step, setRawXml]
      split
      · exact distinct
      · exact added
  | addGroup group =>
    rw [groups, RosterContact.step]
    obtain ⟨⟨-, -, same⟩ | ⟨⟨named, new⟩, -, more⟩, -⟩ := addGroup_cases c group
    · rwa [same]
    · rw [more, groupsOf_append, groupsOf_added named]
      exact List.nodup_append.mpr ⟨distinct, List.nodup_singleton _, fun old listed text here =>
        fun same => new (by rw [List.mem_singleton.mp here] at same; exact same ▸ listed)⟩
  | removeGroup group =>
    simp only [RosterContact.step, removeGroup]
    split
    · exact distinct
    split
    · exact distinct
    · next xml found =>
      split
      · exact distinct
      · have before : c.groups = groupsOf xml.children := by
          rw [groups, RosterContact.children, found]
          rfl
        rw [before] at distinct
        exact distinct.sublist (groupsOf_sublist (List.eraseIdx_sublist ..))
  | getGroupCount =>
    rwa [groups, RosterContact.step, children_of_rawXml (getGroupCount_rawXml c)]
  | getGroup index =>
    rw [groups, RosterContact.step]
    cases read : c.getGroup index with
    | none => exact distinct
    | some result =>
      obtain ⟨text, c'⟩ := result
      have kept : (((some (text, c')).map Prod.snd).getD c).children = c.children :=
        children_of_rawXml (getGroup_rawXml read)
      rwa [kept]

theorem runInputs_nodup (distinct : c.groups.Nodup) {calls : List ContactCall}
    (added : ∀ call ∈ calls, OnlyAdded call) : (runInputs step c calls).groups.Nodup := by
  induction calls generalizing c with
  | nil => exact distinct
  | cons call calls ih =>
    exact ih (step_nodup distinct (added call (List.mem_cons_self ..)))
      fun later listed => added later (List.mem_cons_of_mem _ listed)

end RosterContact

end Libjingle.Xmpp

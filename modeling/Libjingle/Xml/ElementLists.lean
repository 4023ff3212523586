import Libjingle.Std.LinkedList
import Libjingle.Std.Trace
import Libjingle.Xml.Element
import Mathlib.Algebra.Order.Ring.Nat

/-!
# The lists of an XML element

An `XmlElement` of `talk/xmllite/xmlelement.cc` keeps its attributes and its children in two
singly linked lists, each with a pointer to the first and to the last node. Here are the
functions that change these lists, on the nodes, and beside them what each of them is to do
with the element as a value.

A child is a value as well: the text that it holds, or the element.
-/

namespace Libjingle.Xml

open Libjingle.Std

def XmlChild.isText : XmlChild → Bool
  | .text _ => true
  | .element _ => false

/-- An element of that name. -/
def XmlChild.isNamed (name : QName) : XmlChild → Bool
  | .text _ => false
  | .element e => e.name = name

/-- `XmlText::AddText` and `AddParsedText`. -/
def XmlChild.append (text : String) : XmlChild → XmlChild
  | .text before => .text (before ++ text)
  | .element e => .element e

structure LinkedElement where
  name : QName
  /-- `first_attr_` and `last_attr_`. -/
  attrs : LinkedList XmlAttr
  /-- `first_child_` and `last_child_`. -/
  children : LinkedList XmlChild
  cdata : Bool

namespace LinkedElement

def new (name : QName) : LinkedElement := ⟨name, .empty, .empty, false⟩

/-- The constructor that declares the namespace of the name as the default. -/
def newDefaultNs (name : QName) : LinkedElement where
  name := name
  attrs := { LinkedList.empty.allocate ⟨⟨qnXmlns, name.ns⟩, none⟩ with
    first := some 0
    last := some 0 }
  children := .empty
  cdata := false

def withAttrs (e : LinkedElement) (attrs : Option (LinkedList XmlAttr)) : Option LinkedElement :=
  attrs.map fun attrs => { e with attrs := attrs }

def withChildren (e : LinkedElement) (children : Option (LinkedList XmlChild)) :
    Option LinkedElement :=
  children.map fun children => { e with children := children }

/-- The loop of the copy constructor, where the newest copy is the last node. -/
def copyList {β : Type} (l : LinkedList β) : Option (LinkedList β) := do
  let cells ← l.cells
  cells.foldlM (fun copies cell => copies.addLast cell.2) .empty

/-- The copy constructor. -/
def copy (e : LinkedElement) : Option LinkedElement := do
  let attrs ← copyList e.attrs
  let children ← copyList e.children
  some ⟨e.name, attrs, children, e.cdata⟩

/-! ## Attributes -/

def setAttr (e : LinkedElement) (name : QName) (value : String) : Option LinkedElement := do
  let attrs ← e.attrs.cells
  match attrs.find? fun attr => attr.2.name = name with
  | none => e.withAttrs (e.attrs.addLast ⟨name, value⟩)
  | some attr => e.withAttrs (e.attrs.setValue attr.1 fun attr => { attr with value := value })

def addAttr (e : LinkedElement) (name : QName) (value : String) : Option LinkedElement :=
  e.withAttrs (e.attrs.addLast ⟨name, value⟩)

/-- The loop of `ClearAttr`: the attribute before the first of the name. -/
def findBefore (name : QName) : Option Nat → List (Nat × XmlAttr) → Option (Option Nat)
  | _, [] => none
  | lastAttr, attr :: rest =>
      if attr.2.name = name then some lastAttr else findBefore name (some attr.1) rest

def clearAttr (e : LinkedElement) (name : QName) : Option LinkedElement := do
  let attrs ← e.attrs.cells
  match findBefore name none attrs with
  | none => some e
  -- This is `RemoveChildAfter` for attributes.
  | some lastAttr => e.withAttrs (e.attrs.removeAfter lastAttr)

def clearAttributes (e : LinkedElement) : Option LinkedElement :=
  e.withAttrs e.attrs.clear

/-! ## Children -/

/-- The pointer to a child, which a caller gets through `FirstChild` and `NextChild`. -/
def childAt (e : LinkedElement) (index : Nat) : Option Nat := do
  let children ← e.children.cells
  let child ← children[index]?
  some child.1

def insertChildAfter (e : LinkedElement) (predecessor : Option Nat) (next : XmlChild) :
    Option LinkedElement :=
  e.withChildren (e.children.insertAfter predecessor next)

def removeChildAfter (e : LinkedElement) (predecessor : Option Nat) : Option LinkedElement :=
  e.withChildren (e.children.removeAfter predecessor)

/-- `AddText`, and `AddParsedText` of so many characters. -/
def addText (e : LinkedElement) (text : String) : Option LinkedElement :=
  if text = "" then some e
  else
    match e.children.last with
    | none => e.withChildren (e.children.addLast (.text text))
    | some last => do
        let node ← e.children.heap last
        if node.value.isText then e.withChildren (e.children.setValue last (.append text))
        else e.withChildren (e.children.addLast (.text text))

def addElement (e : LinkedElement) : Option XmlElement → Option LinkedElement
  | none => some e
  | some child => e.withChildren (e.children.addLast (.element child))

/-- The loop of `ClearNamedChildren` from a child on. -/
def clearNamedFrom (name : QName) :
    Nat → Option Nat → Option Nat → LinkedList XmlChild → Option (LinkedList XmlChild)
  | _, _, none, l => some l
  | 0, _, some _, _ => none
  | fuel + 1, prevChild, some child, l => do
      let node ← l.heap child
      if node.value.isNamed name then
        let l ← l.removeAfter prevChild
        clearNamedFrom name fuel prevChild node.next l
      else clearNamedFrom name fuel (some child) node.next l

def clearNamedChildren (e : LinkedElement) (name : QName) : Option LinkedElement :=
  e.withChildren (clearNamedFrom name e.children.fresh none e.children.first e.children)

def clearChildren (e : LinkedElement) : Option LinkedElement :=
  e.withChildren e.children.clear

def setBodyText (e : LinkedElement) (text : String) : Option LinkedElement :=
  if text = "" then e.clearChildren
  else
    match e.children.first with
    | none => e.addText text
    | some first => do
        let node ← e.children.heap first
        if node.value.isText ∧ e.children.last = some first then
          e.withChildren (e.children.setValue first fun _ => .text text)
        else
          let e ← e.clearChildren
          e.addText text

end LinkedElement

/-! ## The element as a value -/

namespace XmlElement

def withAttrs (e : XmlElement) (attrs : List XmlAttr) : XmlElement :=
  .mk e.name attrs e.cdata e.children

def withChildren (e : XmlElement) (children : List XmlChild) : XmlElement :=
  .mk e.name e.attrs e.cdata children

/-- A child comes in behind another one, or as the first. -/
def insertChildAfter (e : XmlElement) (predecessor : Option Nat) (next : XmlChild) : XmlElement :=
  let place := (predecessor.map (· + 1)).getD 0
  e.withChildren (e.children.take place ++ next :: e.children.drop place)

/-- The child behind another one, or the first, is taken out. -/
def removeChildAfter (e : XmlElement) (predecessor : Option Nat) : XmlElement :=
  e.withChildren (e.children.eraseIdx ((predecessor.map (· + 1)).getD 0))

end XmlElement

/-- A change of an element. A predecessor is the number of a child, or null. -/
inductive ElementChange where
  | setAttr (name : QName) (value : String)
  | addAttr (name : QName) (value : String)
  | clearAttr (name : QName)
  | clearAttributes
  | addText (text : String)
  | addParsedText (text : String)
  | addElement (child : Option XmlElement)
  | insertChildAfter (predecessor : Option Nat) (next : XmlChild)
  | removeChildAfter (predecessor : Option Nat)
  | clearNamedChildren (name : QName)
  | clearChildren
  | setBodyText (text : String)
  /-- What follows happens to the copy. -/
  | copy

/-- What a change is to do. -/
def XmlElement.change (e : XmlElement) : ElementChange → XmlElement
  | .setAttr name value => e.setAttr name value
  | .addAttr name value => e.addAttr name value
  | .clearAttr name => e.withAttrs (e.attrs.eraseP (·.name = name))
  | .clearAttributes => e.withAttrs []
  | .addText text => e.addText text
  | .addParsedText text => e.addText text
  | .addElement child => (child.map e.addElement).getD e
  | .insertChildAfter predecessor next => e.insertChildAfter predecessor next
  | .removeChildAfter predecessor => e.removeChildAfter predecessor
  | .clearNamedChildren name => e.withChildren (e.children.filter fun child => !child.isNamed name)
  | .clearChildren => e.withChildren []
  | .setBodyText text => e.withChildren (if text = "" then [] else [.text text])
  | .copy => e

/-- What it does to the nodes. -/
def LinkedElement.change (e : LinkedElement) : ElementChange → Option LinkedElement
  | .setAttr name value => e.setAttr name value
  | .addAttr name value => e.addAttr name value
  | .clearAttr name => e.clearAttr name
  | .clearAttributes => e.clearAttributes
  | .addText text => e.addText text
  | .addParsedText text => e.addText text
  | .addElement child => e.addElement child
  | .insertChildAfter none next => e.insertChildAfter none next
  | .insertChildAfter (some index) next =>
      (e.childAt index).bind fun predecessor => e.insertChildAfter (some predecessor) next
  | .removeChildAfter none => e.removeChildAfter none
  | .removeChildAfter (some index) =>
      (e.childAt index).bind fun predecessor => e.removeChildAfter (some predecessor)
  | .clearNamedChildren name => e.clearNamedChildren name
  | .clearChildren => e.clearChildren
  | .setBodyText text => e.setBodyText text
  | .copy => e.copy

/-! ## The lists and the value -/

/-- The lists of an element hold what it has, their pointers are right, and no two attributes
have one name. -/
structure LinkedElement.Shows (e : LinkedElement) (x : XmlElement) : Prop where
  name : e.name = x.name
  attrs : e.attrs.Holds x.attrs
  children : e.children.Holds x.children
  cdata : e.cdata = x.cdata
  distinct : (x.attrs.map XmlAttr.name).Nodup

namespace LinkedElement

variable {e : LinkedElement} {x : XmlElement}

theorem shows_new (name : QName) : (new name).Shows (.new name) :=
  ⟨rfl, LinkedList.holds_empty, LinkedList.holds_empty, rfl, .nil⟩

theorem shows_newDefaultNs (name : QName) : (newDefaultNs name).Shows (.newDefaultNs name) := by
  refine ⟨rfl, ⟨[(0, ⟨qnXmlns, name.ns⟩)], ⟨?_, rfl, ?_, ?_⟩, rfl⟩, LinkedList.holds_empty, rfl, ?_⟩
  · exact .cons rfl (.nil none)
  · exact List.nodup_singleton _
  · intro cell listed
    rw [List.mem_singleton.mp listed]
    exact Nat.zero_lt_one
  · exact List.nodup_singleton _

theorem Shows.withAttrs (shows_ : e.Shows x) {attrs : List XmlAttr}
    {made : Option (LinkedList XmlAttr)} (holds : ∃ l, made = some l ∧ l.Holds attrs)
    (distinct : (attrs.map XmlAttr.name).Nodup) :
    ∃ e', e.withAttrs made = some e' ∧ e'.Shows (x.withAttrs attrs) := by
  obtain ⟨l, rfl, holds⟩ := holds
  exact ⟨_, rfl, shows_.name, holds, shows_.children, shows_.cdata, distinct⟩

theorem Shows.withChildren (shows_ : e.Shows x) {children : List XmlChild}
    {made : Option (LinkedList XmlChild)} (holds : ∃ l, made = some l ∧ l.Holds children) :
    ∃ e', e.withChildren made = some e' ∧ e'.Shows (x.withChildren children) := by
  obtain ⟨l, rfl, holds⟩ := holds
  exact ⟨_, rfl, shows_.name, shows_.attrs, holds, shows_.cdata, shows_.distinct⟩

/-! ## Changes of the attributes -/

theorem set_of_absent {name : QName} {value : String} {attrs : List XmlAttr}
    (absent : ∀ attr ∈ attrs, attr.name ≠ name) :
    XmlElement.setAttr.set name value attrs = attrs ++ [⟨name, value⟩] := by
  induction attrs with
  | nil => rfl
  | cons attr rest ih =>
    rw [XmlElement.setAttr.set, if_neg (absent attr List.mem_cons_self),
      ih fun attr listed => absent attr (List.mem_cons_of_mem _ listed)]
    rfl

theorem set_of_first {name : QName} {value : String} {before after : List XmlAttr} {attr : XmlAttr}
    (absent : ∀ attr ∈ before, attr.name ≠ name) (named : attr.name = name) :
    XmlElement.setAttr.set name value (before ++ attr :: after) =
      before ++ ⟨name, value⟩ :: after := by
  induction before with
  | nil => rw [List.nil_append, XmlElement.setAttr.set, if_pos named, List.nil_append]
  | cons other rest ih =>
    rw [List.cons_append, XmlElement.setAttr.set, if_neg (absent other List.mem_cons_self),
      ih fun attr listed => absent attr (List.mem_cons_of_mem _ listed), List.cons_append]

theorem distinct_concat {attrs : List XmlAttr} {attr : XmlAttr}
    (distinct : (attrs.map XmlAttr.name).Nodup) (absent : ∀ other ∈ attrs, other.name ≠ attr.name) :
    ((attrs ++ [attr]).map XmlAttr.name).Nodup := by
  rw [List.map_append, List.nodup_append]
  refine ⟨distinct, List.nodup_singleton _, fun name listed last here => ?_⟩
  obtain ⟨other, inside, rfl⟩ := List.mem_map.mp listed
  rw [List.map_singleton, List.mem_singleton] at here
  exact fun same => absent other inside (same.trans here)

theorem Shows.addAttr (shows_ : e.Shows x) {name : QName} {value : String}
    (absent : ∀ attr ∈ x.attrs, attr.name ≠ name) :
    ∃ e', e.addAttr name value = some e' ∧ e'.Shows (x.addAttr name value) :=
  shows_.withAttrs (shows_.attrs.addLast _) (distinct_concat shows_.distinct absent)

theorem Shows.setAttr (shows_ : e.Shows x) (name : QName) (value : String) :
    ∃ e', e.setAttr name value = some e' ∧ e'.Shows (x.setAttr name value) := by
  obtain ⟨cells, represents, values⟩ := shows_.attrs
  have distinct := shows_.distinct
  have value_eq : x.setAttr name value =
      x.withAttrs (XmlElement.setAttr.set name value x.attrs) := rfl
  unfold LinkedElement.setAttr
  rw [represents.cells, value_eq]
  rw [← values] at distinct ⊢
  cases found : cells.find? fun attr => attr.2.name = name with
  | none =>
    have absent : ∀ attr ∈ cells.map Prod.snd, attr.name ≠ name := by
      intro attr listed
      obtain ⟨cell, here, rfl⟩ := List.mem_map.mp listed
      simpa using List.find?_eq_none.mp found cell here
    simp only [Option.bind_eq_bind, Option.bind_some, found]
    rw [set_of_absent absent]
    exact shows_.withAttrs (LinkedList.Holds.addLast ⟨cells, represents, rfl⟩ _)
      (distinct_concat distinct absent)
  | some cell =>
    obtain ⟨named, before, after, rfl, absent⟩ := List.find?_eq_some_iff_append.mp found
    have named : cell.2.name = name := by simpa using named
    have absent : ∀ attr ∈ before.map Prod.snd, attr.name ≠ name := by
      intro attr listed
      obtain ⟨cell, here, rfl⟩ := List.mem_map.mp listed
      simpa using absent cell here
    obtain ⟨l, made, represents'⟩ :=
      represents.setValue fun attr : XmlAttr => { attr with value := value }
    simp only [Option.bind_eq_bind, Option.bind_some, found]
    rw [List.map_append, List.map_cons, set_of_first absent named]
    have same : ({ cell.2 with value := value } : XmlAttr) = ⟨name, value⟩ := by rw [← named]
    refine shows_.withAttrs ⟨l, made, _, represents', by simp [same]⟩ ?_
    rw [List.map_append, List.map_cons] at distinct ⊢
    rw [List.map_append, List.map_cons] at distinct
    rwa [named] at distinct

/-- The loop of `ClearAttr` stops at the first attribute of the name. -/
theorem findBefore_spec (name : QName) (front attrs : List (Nat × XmlAttr)) :
    (findBefore name (front.getLast?.map Prod.fst) attrs = none ∧
        ∀ attr ∈ attrs, attr.2.name ≠ name) ∨
      ∃ before attr after, attrs = before ++ attr :: after ∧ attr.2.name = name ∧
        (∀ other ∈ before, other.2.name ≠ name) ∧
        findBefore name (front.getLast?.map Prod.fst) attrs =
          some ((front ++ before).getLast?.map Prod.fst) := by
  induction attrs generalizing front with
  | nil => exact .inl ⟨rfl, fun attr listed => by cases listed⟩
  | cons attr rest ih =>
    unfold findBefore
    by_cases named : attr.2.name = name
    · rw [if_pos named]
      exact .inr ⟨[], attr, rest, rfl, named, fun _ none => (by cases none), by simp⟩
    · rw [if_neg named]
      have later := ih (front ++ [attr])
      rw [List.getLast?_concat, Option.map_some] at later
      rcases later with ⟨none, absent⟩ | ⟨before, found, after, rfl, named', absent, stops⟩
      · exact .inl ⟨none, List.forall_mem_cons.mpr ⟨named, absent⟩⟩
      · refine .inr ⟨attr :: before, found, after, rfl, named', ?_, ?_⟩
        · exact List.forall_mem_cons.mpr ⟨named, absent⟩
        · rw [stops, List.append_assoc]
          rfl

theorem Shows.clearAttr (shows_ : e.Shows x) (name : QName) :
    ∃ e', e.clearAttr name = some e' ∧ e'.Shows (x.change (.clearAttr name)) := by
  obtain ⟨cells, represents, values⟩ := shows_.attrs
  have distinct := shows_.distinct
  unfold LinkedElement.clearAttr XmlElement.change
  rw [represents.cells]
  rcases findBefore_spec name [] cells with ⟨none, absent⟩ |
    ⟨before, attr, after, rfl, named, absent, stops⟩
  · have kept : x.attrs.eraseP (fun attr => attr.name = name) = x.attrs := by
      refine List.eraseP_of_forall_not fun attr listed => ?_
      rw [← values] at listed
      obtain ⟨cell, here, rfl⟩ := List.mem_map.mp listed
      simpa using absent cell here
    rw [List.getLast?_nil, Option.map_none] at none
    simp only [Option.bind_eq_bind, Option.bind_some, none]
    exact ⟨e, rfl, shows_.name, by rw [kept]; exact shows_.attrs, shows_.children, shows_.cdata,
      by rw [kept]; exact distinct⟩
  · have erased : x.attrs.eraseP (fun attr => attr.name = name) =
        (before ++ after).map Prod.snd := by
      rw [← values, List.map_append, List.eraseP_append_right, List.map_cons,
        List.eraseP_cons_of_pos (by simpa using named), List.map_append]
      intro attr listed
      obtain ⟨cell, here, rfl⟩ := List.mem_map.mp listed
      simpa using absent cell here
    obtain ⟨l, made, represents'⟩ := represents.removeAfter
    rw [List.getLast?_nil, Option.map_none, List.nil_append] at stops
    simp only [Option.bind_eq_bind, Option.bind_some, stops]
    rw [erased]
    refine shows_.withAttrs ⟨l, made, _, represents', rfl⟩ ?_
    rw [← erased]
    exact (List.eraseP_sublist.map _).nodup distinct

/-! ## Changes of the children -/

theorem addTextTo_text (text last : String) (before : List XmlChild) :
    XmlElement.addTextTo text (before ++ [.text last]) = before ++ [.text (last ++ text)] := by
  induction before with
  | nil => rfl
  | cons child rest ih =>
    cases rest with
    | nil => cases child <;> rfl
    | cons next rest => cases child <;> exact congrArg (_ :: ·) ih

theorem addTextTo_element (text : String) (last : XmlElement) (before : List XmlChild) :
    XmlElement.addTextTo text (before ++ [.element last]) =
      before ++ [.element last] ++ [.text text] := by
  induction before with
  | nil => rfl
  | cons child rest ih =>
    cases rest with
    | nil => cases child <;> rfl
    | cons next rest => cases child <;> exact congrArg (_ :: ·) ih

theorem Shows.addText (shows_ : e.Shows x) (text : String) :
    ∃ e', e.addText text = some e' ∧ e'.Shows (x.addText text) := by
  unfold LinkedElement.addText XmlElement.addText
  split
  · exact ⟨e, rfl, shows_⟩
  change ∃ e', _ ∧ LinkedElement.Shows e' (x.withChildren (XmlElement.addTextTo text x.children))
  obtain ⟨cells, represents, values⟩ := shows_.children
  have holds : e.children.Holds x.children := shows_.children
  rw [represents.last_eq, ← values] at *
  rcases List.eq_nil_or_concat' cells with rfl | ⟨before, ⟨last, child⟩, rfl⟩
  · exact shows_.withChildren (holds.addLast _)
  · obtain ⟨q, -, back⟩ := represents.segment.split
    obtain ⟨-, next, here, -⟩ := back.here
    rw [List.getLast?_concat, List.map_append, List.map_singleton] at *
    simp only [Option.map_some, here, Option.bind_eq_bind, Option.bind_some]
    cases child with
    | text before' =>
      rw [addTextTo_text]
      obtain ⟨l, made, represents'⟩ := represents.setValue (XmlChild.append text)
      exact shows_.withChildren ⟨l, made, _, represents', by simp [XmlChild.append]⟩
    | element before' =>
      rw [addTextTo_element]
      exact shows_.withChildren (holds.addLast _)

theorem Shows.addElement (shows_ : e.Shows x) (child : Option XmlElement) :
    ∃ e', e.addElement child = some e' ∧ e'.Shows (x.change (.addElement child)) := by
  cases child with
  | none => exact ⟨e, rfl, shows_⟩
  | some child => exact shows_.withChildren (shows_.children.addLast _)

/-- The loop of `ClearNamedChildren`: what is behind the place loses the children of the name. -/
theorem clearNamedFrom_spec (name : QName) {l : LinkedList XmlChild}
    {before later : List (Nat × XmlChild)} (represents : l.Represents (before ++ later)) {fuel : Nat}
    (enough : later.length ≤ fuel) :
    ∃ l', clearNamedFrom name fuel (before.getLast?.map Prod.fst) (later.head?.map Prod.fst) l =
        some l' ∧ l'.Represents (before ++ later.filter fun cell => !cell.2.isNamed name) := by
  induction later generalizing l before fuel with
  | nil =>
    refine ⟨l, ?_, represents⟩
    cases fuel <;> rfl
  | cons cell rest ih =>
    obtain ⟨fuel, rfl⟩ : ∃ n, fuel = n + 1 := ⟨fuel - 1, by simp at enough; omega⟩
    obtain ⟨q, -, back⟩ := represents.segment.split
    obtain ⟨-, next, here, behind⟩ := back.here
    rw [behind.first_eq] at here
    have enough := Nat.le_of_succ_le_succ enough
    simp only [clearNamedFrom, List.head?_cons, Option.map_some, here, Option.bind_eq_bind,
      Option.bind_some]
    cases named : cell.2.isNamed name with
    | true =>
      obtain ⟨l₁, removed, represents₁⟩ := represents.removeAfter
      obtain ⟨l', made, represents'⟩ := ih represents₁ enough
      rw [if_pos rfl, removed, List.filter_cons, named]
      exact ⟨l', made, represents'⟩
    | false =>
      have shifted : l.Represents ((before ++ [cell]) ++ rest) := by
        rwa [List.append_assoc]
      obtain ⟨l', made, represents'⟩ := ih shifted enough
      rw [List.getLast?_concat, Option.map_some] at made
      rw [if_neg (by decide), List.filter_cons, named]
      rw [List.append_assoc] at represents'
      exact ⟨l', made, represents'⟩

theorem Shows.clearNamedChildren (shows_ : e.Shows x) (name : QName) :
    ∃ e', e.clearNamedChildren name = some e' ∧ e'.Shows (x.change (.clearNamedChildren name)) := by
  obtain ⟨cells, represents, values⟩ := shows_.children
  obtain ⟨l, made, represents'⟩ :=
    @clearNamedFrom_spec name _ [] _ represents _ represents.length_le
  rw [← represents.segment.first_eq] at made
  refine shows_.withChildren ⟨l, made, _, represents', ?_⟩
  rw [← values, List.nil_append, List.filter_map]
  rfl

theorem Shows.clearChildren (shows_ : e.Shows x) :
    ∃ e', e.clearChildren = some e' ∧ e'.Shows (x.withChildren []) :=
  shows_.withChildren shows_.children.clear

theorem Shows.setBodyText (shows_ : e.Shows x) (text : String) :
    ∃ e', e.setBodyText text = some e' ∧ e'.Shows (x.change (.setBodyText text)) := by
  unfold LinkedElement.setBodyText XmlElement.change
  dsimp only
  by_cases none : text = ""
  · rw [if_pos none, if_pos none]
    exact shows_.clearChildren
  rw [if_neg none, if_neg none]
  -- After everything is cleared, the text is the only child.
  have only : ∀ {e : LinkedElement}, e.Shows (x.withChildren []) →
      ∃ e', e.addText text = some e' ∧ e'.Shows (x.withChildren [.text text]) := by
    intro e cleared
    obtain ⟨e', made, shows'⟩ := cleared.addText text
    rw [XmlElement.addText, if_neg none] at shows'
    exact ⟨e', made, shows'⟩
  obtain ⟨cells, represents, values⟩ := shows_.children
  rw [represents.segment.first_eq]
  rcases cells with _ | ⟨⟨first, child⟩, rest⟩
  · refine only ⟨shows_.name, shows_.attrs, ?_, shows_.cdata, shows_.distinct⟩
    exact ⟨[], represents, rfl⟩
  · obtain ⟨-, next, here, -⟩ := represents.segment.here
    simp only [List.head?_cons, Option.map_some, here, Option.bind_eq_bind, Option.bind_some]
    split
    · next alone =>
      -- The only child is a text, and changes.
      obtain ⟨-, last⟩ := alone
      obtain rfl : rest = [] := by
        by_contra more
        rw [represents.last_eq, List.getLast?_cons_of_ne_nil more] at last
        obtain ⟨other, least, same⟩ := Option.map_eq_some_iff.mp last
        have nodup := represents.nodup
        rw [List.map_cons, List.nodup_cons] at nodup
        have listed := List.mem_map_of_mem (f := Prod.fst) (List.mem_of_getLast? least)
        rw [same] at listed
        exact nodup.1 listed
      obtain ⟨l, made, represents'⟩ := @LinkedList.Represents.setValue _ _ [] _ _ represents
        fun _ => .text text
      exact shows_.withChildren ⟨l, made, _, represents', rfl⟩
    · obtain ⟨cleared, made, shows'⟩ := shows_.clearChildren
      simp only [made, Option.bind_some]
      exact only shows'

theorem copyList_spec {β : Type} {l : LinkedList β} {values : List β} (holds : l.Holds values) :
    ∃ l', copyList l = some l' ∧ l'.Holds values := by
  obtain ⟨cells, represents, rfl⟩ := holds
  obtain ⟨l', made, holds'⟩ := LinkedList.holds_empty.addAll cells
  refine ⟨l', ?_, holds'⟩
  simp only [copyList, represents.cells, Option.bind_eq_bind, Option.bind_some, made]

theorem Shows.copy (shows_ : e.Shows x) : ∃ e', e.copy = some e' ∧ e'.Shows x := by
  obtain ⟨attrs, attrsMade, attrsHold⟩ := copyList_spec shows_.attrs
  obtain ⟨children, childrenMade, childrenHold⟩ := copyList_spec shows_.children
  refine ⟨⟨e.name, attrs, children, e.cdata⟩, ?_, shows_.name, attrsHold, childrenHold,
    shows_.cdata, shows_.distinct⟩
  simp only [LinkedElement.copy, attrsMade, childrenMade, Option.bind_eq_bind, Option.bind_some]

/-! ## Predecessors -/

/-- Where a child comes in or is taken out. -/
def place (predecessor : Option Nat) : Nat :=
  (predecessor.map (· + 1)).getD 0

/-- A predecessor is a child, or null. -/
def IsChild (x : XmlElement) (predecessor : Option Nat) : Prop :=
  place predecessor ≤ x.children.length

/-- There is a child behind the predecessor. -/
def HasNext (x : XmlElement) (predecessor : Option Nat) : Prop :=
  place predecessor < x.children.length

/-- The pointer to a predecessor, as a caller has it. -/
def pointer (e : LinkedElement) : Option Nat → Option (Option Nat)
  | none => some none
  | some index => (e.childAt index).map some

/-- A predecessor divides the nodes, and the pointer to it is that of the last one before. -/
theorem Shows.pointer (shows_ : e.Shows x) {predecessor : Option Nat}
    (child : IsChild x predecessor) :
    ∃ before later, e.children.Represents (before ++ later) ∧
      before.map Prod.snd = x.children.take (place predecessor) ∧
      later.map Prod.snd = x.children.drop (place predecessor) ∧
      e.pointer predecessor = some (before.getLast?.map Prod.fst) := by
  obtain ⟨cells, represents, values⟩ := shows_.children
  refine ⟨cells.take (place predecessor), cells.drop (place predecessor), ?_, ?_, ?_, ?_⟩
  · rwa [List.take_append_drop]
  · rw [← values, List.map_take]
  · rw [← values, List.map_drop]
  · cases predecessor with
    | none => rfl
    | some index =>
      have inside : index < cells.length := by
        have length := congrArg List.length values
        rw [List.length_map] at length
        exact length ▸ child
      have there : cells[index]? = some cells[index] := List.getElem?_eq_getElem inside
      have last : (cells.take (index + 1)).getLast? = some cells[index] := by
        rw [List.take_succ_eq_append_getElem inside, List.getLast?_concat]
      change (e.childAt index).map some = _
      simp only [childAt, represents.cells, there, Option.bind_eq_bind, Option.bind_some]
      change _ = some ((cells.take (index + 1)).getLast?.map Prod.fst)
      rw [last]
      rfl

theorem change_insertChildAfter (e : LinkedElement) (predecessor : Option Nat) (next : XmlChild) :
    e.change (.insertChildAfter predecessor next) =
      (e.pointer predecessor).bind fun p => e.insertChildAfter p next := by
  cases predecessor with
  | none => rfl
  | some index => cases found : e.childAt index <;> simp [LinkedElement.change, pointer, found]

theorem change_removeChildAfter (e : LinkedElement) (predecessor : Option Nat) :
    e.change (.removeChildAfter predecessor) = (e.pointer predecessor).bind e.removeChildAfter := by
  cases predecessor with
  | none => rfl
  | some index => cases found : e.childAt index <;> simp [LinkedElement.change, pointer, found]

/-- A change does to the nodes what it is to do. -/
def Does (e : LinkedElement) (x : XmlElement) (c : ElementChange) : Prop :=
  ∃ e', e.change c = some e' ∧ e'.Shows (x.change c)

/-- An insertion does what it is to do if and only if it does not make a last child. -/
theorem Shows.insertChildAfter_iff (shows_ : e.Shows x) {predecessor : Option Nat}
    (child : IsChild x predecessor) (next : XmlChild) :
    e.Does x (.insertChildAfter predecessor next) ↔ HasNext x predecessor := by
  obtain ⟨before, later, represents, front, back, pointed⟩ := shows_.pointer child
  obtain ⟨l, made, -⟩ := represents.insertAfter next
  have more : later ≠ [] ↔ HasNext x predecessor := by
    have length := congrArg List.length back
    rw [List.length_map, List.length_drop] at length
    rw [← List.length_pos_iff, length, HasNext]
    omega
  have inserted : x.change (.insertChildAfter predecessor next) =
      x.withChildren ((before ++ (e.children.fresh, next) :: later).map Prod.snd) := by
    rw [List.map_append, List.map_cons, front, back]
    rfl
  have changed : e.change (.insertChildAfter predecessor next) = some { e with children := l } := by
    rw [change_insertChildAfter, pointed]
    simp only [Option.bind_some, LinkedElement.insertChildAfter, made, LinkedElement.withChildren,
      Option.map_some]
  rw [← more, ← represents.insertAfter_iff next made]
  constructor
  · rintro ⟨e', made', shows'⟩
    rw [changed] at made'
    cases made'
    rw [inserted] at shows'
    exact shows'.children
  · intro holds
    rw [Does, inserted]
    exact ⟨_, changed, shows_.name, shows_.attrs, holds, shows_.cdata, shows_.distinct⟩

/-- A removal does what it is to do if and only if there is something to remove. -/
theorem Shows.removeChildAfter_iff (shows_ : e.Shows x) {predecessor : Option Nat}
    (child : IsChild x predecessor) :
    e.Does x (.removeChildAfter predecessor) ↔ HasNext x predecessor := by
  obtain ⟨before, later, represents, front, back, pointed⟩ := shows_.pointer child
  have length := congrArg List.length back
  rw [List.length_map, List.length_drop] at length
  unfold Does
  rw [change_removeChildAfter, pointed, HasNext]
  cases later with
  | nil =>
    rw [List.append_nil] at represents
    have fails := represents.removeAfter_nil
    refine iff_of_false ?_ (by simp at length; omega)
    rintro ⟨e', made, -⟩
    simp only [Option.bind_some, LinkedElement.removeChildAfter, fails, LinkedElement.withChildren,
      Option.map_none] at made
    cases made
  | cons cell rest =>
    refine iff_of_true ?_ (by simp at length; omega)
    obtain ⟨l, made, represents'⟩ := represents.removeAfter
    have removed : x.change (.removeChildAfter predecessor) =
        x.withChildren ((before ++ rest).map Prod.snd) := by
      have behind := congrArg List.tail back
      rw [List.map_cons, List.tail_cons, List.tail_drop] at behind
      rw [List.map_append, front, behind, ← List.eraseIdx_eq_take_drop_succ]
      rfl
    rw [removed]
    exact shows_.withChildren ⟨l, made, _, represents', rfl⟩

/-! ## Runs -/

/-- A predecessor is a child, and an attribute that is added has a new name. -/
def Valid (x : XmlElement) : ElementChange → Prop
  | .addAttr name _ => ∀ attr ∈ x.attrs, attr.name ≠ name
  | .insertChildAfter predecessor _ => IsChild x predecessor
  | .removeChildAfter predecessor => IsChild x predecessor
  | _ => True

/-- An insertion does not make a last child, and a removal finds one. -/
def Clear (x : XmlElement) : ElementChange → Prop
  | .insertChildAfter predecessor _ => HasNext x predecessor
  | .removeChildAfter predecessor => HasNext x predecessor
  | _ => True

theorem Shows.does_iff (shows_ : e.Shows x) {c : ElementChange} (valid : Valid x c) :
    e.Does x c ↔ Clear x c := by
  cases c with
  | setAttr name value => exact iff_of_true (shows_.setAttr name value) trivial
  | addAttr name value => exact iff_of_true (shows_.addAttr valid) trivial
  | clearAttr name => exact iff_of_true (shows_.clearAttr name) trivial
  | clearAttributes => exact iff_of_true (shows_.withAttrs shows_.attrs.clear .nil) trivial
  | addText text => exact iff_of_true (shows_.addText text) trivial
  | addParsedText text => exact iff_of_true (shows_.addText text) trivial
  | addElement child => exact iff_of_true (shows_.addElement child) trivial
  | insertChildAfter predecessor next => exact shows_.insertChildAfter_iff valid next
  | removeChildAfter predecessor => exact shows_.removeChildAfter_iff valid
  | clearNamedChildren name => exact iff_of_true (shows_.clearNamedChildren name) trivial
  | clearChildren => exact iff_of_true shows_.clearChildren trivial
  | setBodyText text => exact iff_of_true (shows_.setBodyText text) trivial
  | copy => exact iff_of_true shows_.copy trivial

/-- An element on the nodes and as a value, after a change of both. -/
def step (s : LinkedElement × XmlElement) (c : ElementChange) : LinkedElement × XmlElement :=
  ((s.1.change c).getD s.1, s.2.change c)

/-- What a constructor makes. -/
inductive Made : LinkedElement × XmlElement → Prop
  | new (name : QName) : Made (new name, .new name)
  | newDefaultNs (name : QName) : Made (newDefaultNs name, .newDefaultNs name)

/-- By induction on the changes. After a change that does what it is to do, the lists hold what
the element has. -/
theorem Shows.along_iff (shows_ : e.Shows x) (changes : List ElementChange)
    (valid : Along step (fun s => Valid s.2) (e, x) changes) :
    Along step (fun s => s.1.Does s.2) (e, x) changes ↔
      Along step (fun s => Clear s.2) (e, x) changes := by
  induction changes generalizing e x with
  | nil => exact Iff.rfl
  | cons c rest ih =>
    obtain ⟨here, later⟩ := valid
    have first := shows_.does_iff here
    constructor
    · rintro ⟨does, rest⟩
      obtain ⟨e', made, shows'⟩ := does
      have stepped : step (e, x) c = (e', x.change c) := by simp only [step, made, Option.getD_some]
      rw [stepped] at later rest
      refine ⟨first.mp ⟨e', made, shows'⟩, ?_⟩
      rw [stepped]
      exact (ih shows' later).mp rest
    · rintro ⟨clear, rest⟩
      obtain ⟨e', made, shows'⟩ := first.mpr clear
      have stepped : step (e, x) c = (e', x.change c) := by simp only [step, made, Option.getD_some]
      rw [stepped] at later rest
      refine ⟨⟨e', made, shows'⟩, ?_⟩
      rw [stepped]
      exact (ih shows' later).mpr rest

/-- The lists of an element follow the element as a value in the runs in which no insertion makes
a last child and every removal finds one, and only in these. -/
theorem follows_iff_clear {start : LinkedElement × XmlElement} (made : Made start)
    {changes : List ElementChange} (valid : Along step (fun s => Valid s.2) start changes) :
    Along step (fun s => s.1.Does s.2) start changes ↔
      Along step (fun s => Clear s.2) start changes := by
  cases made with
  | new name => exact (shows_new name).along_iff changes valid
  | newDefaultNs name => exact (shows_newDefaultNs name).along_iff changes valid

/-! ## An insertion at the end -/

private def bare (localPart : String) : XmlElement := .new ⟨"", localPart⟩

/-- A child that comes in before another one stays when a third one is added. -/
theorem follows_first :
    Along step (fun s => s.1.Does s.2) (new ⟨"", "x"⟩, .new ⟨"", "x"⟩)
      [.addElement (some (bare "a")), .insertChildAfter none (.element (bare "b")),
        .addElement (some (bare "c"))] := by
  refine (follows_iff_clear (.new _) ?_).mpr ?_
  · exact ⟨trivial, Nat.zero_le _, trivial, trivial⟩
  · exact ⟨trivial, Nat.zero_lt_one, trivial, trivial⟩

/-- One that comes in behind the last one does not. -/
theorem not_follows_last :
    ¬ Along step (fun s => s.1.Does s.2) (new ⟨"", "x"⟩, .new ⟨"", "x"⟩)
      [.addElement (some (bare "a")), .insertChildAfter (some 0) (.element (bare "b")),
        .addElement (some (bare "c"))] := by
  rintro ⟨⟨e', made, shows'⟩, does, -⟩
  have stepped : (step (new ⟨"", "x"⟩, .new ⟨"", "x"⟩) (.addElement (some (bare "a")))).1 = e' := by
    simp only [step, made, Option.getD_some]
  rw [stepped] at does
  have child : IsChild (XmlElement.change (.new ⟨"", "x"⟩) (.addElement (some (bare "a")))) (some 0) :=
    Nat.le_refl 1
  exact absurd ((shows'.insertChildAfter_iff child _).mp does) (Nat.lt_irrefl 1)

end LinkedElement

end Libjingle.Xml

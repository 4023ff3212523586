import Libjingle.Xml.PrintedDocument

/-!
# Parsing

`XmlParser` and `XmlBuilder` of `talk/xmllite`, on the pieces that a processor reports. The parser
has a stack of namespaces of its own, and the builder the elements that are open. A printed element
comes back with the declarations that the printer has added, and with its texts joined.
-/

namespace Libjingle.Xml

open Libjingle.Std.XmlDocument

namespace XmlnsStack

/-- `ResolveQName`: the empty name where the prefix is not bound. -/
def resolveQName (s : XmlnsStack) (qname : List Char) (isAttr : Bool) : QName :=
  match splitBefore [':'] qname with
  | some (pre, localPart) =>
      match s.nsForPrefix (String.ofList pre) with
      | some ns => ⟨ns, String.ofList localPart⟩
      | none => ⟨"", ""⟩
  | none =>
      if isAttr = true then ⟨"", String.ofList qname⟩
      else
        match s.nsForPrefix "" with
        | some ns => ⟨ns, String.ofList qname⟩
        | none => ⟨"", ""⟩

/-- The namespaces that the attributes of a tag start. Only the default one may be empty. -/
def startNamespaces : List (List Char × List Char) → XmlnsStack → Option XmlnsStack
  | [], s => some s
  | (name, value) :: atts, s =>
      match strip "xmlns".toList name with
      | none => startNamespaces atts s
      | some [] => startNamespaces atts (s.addXmlns "" (String.ofList value))
      | some (c :: pre) =>
          if c = ':' then
            if value = [] then none
            else startNamespaces atts (s.addXmlns (String.ofList pre) (String.ofList value))
          else startNamespaces atts s

/-- The loop of `BuildElement`. Names in a namespace are unique. -/
def buildAttrs (s : XmlnsStack) : List (List Char × List Char) → List QName → Option (List XmlAttr)
  | [], _ => some []
  | (name, value) :: atts, seen =>
      let attName := s.resolveQName name true
      if attName.isEmpty = true then none
      else if attName.ns ≠ "" ∧ attName ∈ seen then none
      else
        let seen := if attName.ns ≠ "" then attName :: seen else seen
        (buildAttrs s atts seen).map fun attrs => ⟨attName, String.ofList value⟩ :: attrs

end XmlnsStack

structure XmlBuilder where
  stack : XmlnsStack
  root : Option XmlElement
  /-- The elements that are open, the innermost first. -/
  parents : List XmlElement

namespace XmlBuilder

def characterData (b : XmlBuilder) (text : List Char) : XmlBuilder :=
  match b.parents with
  | [] => b
  | current :: parents => { b with parents := current.addText (String.ofList text) :: parents }

/-- Nothing where an error is raised. -/
def startElement (b : XmlBuilder) (name : List Char) (atts : List (List Char × List Char)) :
    Option XmlBuilder :=
  (XmlnsStack.startNamespaces atts b.stack.pushFrame).bind fun stack =>
    let tagName := stack.resolveQName name false
    if tagName.isEmpty = true then none
    else (stack.buildAttrs atts []).map fun attrs =>
      { b with stack := stack, parents := .mk tagName attrs false [] :: b.parents }

def endElement (b : XmlBuilder) : XmlBuilder :=
  match b.parents with
  | [] => { b with stack := b.stack.popFrame }
  | [current] => ⟨b.stack.popFrame, some current, []⟩
  | current :: parent :: parents =>
      { b with stack := b.stack.popFrame, parents := parent.addElement current :: parents }

def piece (b : XmlBuilder) (p : Piece) : Option XmlBuilder :=
  let b := b.characterData p.text
  match p.markup with
  | .start name atts closed =>
      (b.startElement name atts).map fun b => if closed = true then b.endElement else b
  | .close _ => some b.endElement
  | .comment _ => some b
  | .instruction _ _ => some b

def pieces : List Piece → XmlBuilder → Option XmlBuilder
  | [], b => some b
  | p :: rest, b => (b.piece p).bind (pieces rest)

end XmlBuilder

/-- `XmlElement::ForStr`. -/
def forStr (text : List Char) : Option XmlElement :=
  (readDocument text).bind fun pieces =>
    (XmlBuilder.pieces pieces ⟨.empty, none, []⟩).bind XmlBuilder.root

/-! ## What comes back -/

def textChild (text : List Char) : List XmlChild :=
  if text = [] then [] else [.text (String.ofList text)]

/-- The attributes that declare the new prefixes. -/
def declarations (new : List (String × String)) : List XmlAttr :=
  new.map fun decl => ⟨⟨nsXmlns, decl.1⟩, decl.2⟩

mutual

def readBack (s : XmlnsStack) : XmlElement → XmlElement
  | .mk name attrs _ children =>
      let new := s.frame name attrs
      .mk name (attrs ++ declarations new.1) false (readBackChildren new.2 [] children)

def readBackChildren (s : XmlnsStack) (text : List Char) : List XmlChild → List XmlChild
  | [] => textChild text
  | .text more :: rest => readBackChildren s (text ++ more.toList) rest
  | .element e :: rest => textChild text ++ .element (readBack s e) :: readBackChildren s [] rest

end

mutual

/-- No prefix is declared for the empty namespace. -/
def Declares (s : XmlnsStack) : XmlElement → Prop
  | .mk name attrs _ children =>
      (∀ attr ∈ attrs ++ declarations (s.frame name attrs).1,
        attr.name.ns = nsXmlns → attr.value ≠ "") ∧
      DeclaresIn (s.frame name attrs).2 children

def DeclaresIn (s : XmlnsStack) : List XmlChild → Prop
  | [] => True
  | .text _ :: rest => DeclaresIn s rest
  | .element e :: rest => Declares s e ∧ DeclaresIn s rest

end

/-! ## Names -/

namespace XmlnsStack

variable {s t : XmlnsStack} {name : QName} {attrs : List XmlAttr} {pre ns : String}

theorem prefixForNs_element (found : s.prefixForNs ns false = some pre) :
    s.nsForPrefix pre = some ns := by
  unfold prefixForNs at found
  split at found
  · next xml =>
    cases found
    rw [xml]
    rfl
  split at found
  · next xmlns =>
    cases found
    rw [xmlns]
    rfl
  rw [if_neg (show ¬ false = true by decide)] at found
  split at found
  · next default =>
    cases found
    exact of_decide_eq_true default
  · obtain ⟨pos, here, rfl⟩ := Option.map_eq_some_iff.mp found
    have holds := List.find?_some here
    simp only [Bool.and_eq_true] at holds
    exact of_decide_eq_true holds.2

theorem prefixForNs_xmlns (s : XmlnsStack) : s.prefixForNs nsXmlns true = some "xmlns" := by
  unfold prefixForNs
  rw [if_neg (by decide), if_pos rfl]

theorem splitBefore_none {text : List Char} (absent : ':' ∉ text) :
    splitBefore [':'] text = none := by
  cases split : splitBefore [':'] text with
  | none => rfl
  | some found =>
    have whole := splitBefore_eq_some split
    rw [whole] at absent
    exact absurd (List.mem_append_right _ List.mem_cons_self) absent

/-- A printed name is resolved to the name, where its namespace has a prefix. -/
theorem resolveQName_formatQName (named : s.Named) (local_ : IsNCName name.localPart)
    (isAttr : Bool) (found : (s.prefixForNs name.ns isAttr).isSome = true) :
    s.resolveQName (s.formatQName name isAttr).toList isAttr = name := by
  obtain ⟨pre, found⟩ := Option.isSome_iff_exists.mp found
  obtain ⟨ns, localPart⟩ := name
  unfold resolveQName
  rcases formatQName_cases named ⟨ns, localPart⟩ isAttr with
    ⟨empty, printed⟩ | ⟨other, here, ncName, printed⟩
  · rw [found, Option.getD_some] at empty
    rw [printed, splitBefore_none local_.2, String.ofList_toList]
    dsimp only
    cases isAttr with
    | true =>
      have noNs : ns = "" := ((prefixForNs_attr found).resolve_right fun bound => bound.1 empty).2
      rw [if_pos rfl, noNs]
    | false =>
      rw [if_neg (by decide), ← empty, prefixForNs_element found]
  · have bound : s.nsForPrefix other = some ns := by
      cases isAttr with
      | true => exact ((prefixForNs_attr here).resolve_left fun none => ncName.ne_empty none.1).2
      | false => exact prefixForNs_element here
    rw [printed, splitBefore_singleton ncName.2]
    dsimp only
    rw [String.ofList_toList, bound, String.ofList_toList]

/-! ## Attributes -/

/-- An attribute as it is printed. -/
def printed (s : XmlnsStack) (attr : XmlAttr) : List Char × List Char :=
  ((s.formatQName attr.name true).toList, attr.value.toList)

/-- An attribute with a name that can be printed, and a value if it declares a prefix. -/
structure Writes (s : XmlnsStack) (attr : XmlAttr) : Prop where
  local_ : IsNCName attr.name.localPart
  found : (s.prefixForNs attr.name.ns true).isSome = true
  value : attr.name.ns = nsXmlns → attr.value ≠ ""

theorem strip_xmlns (named : s.Named) {attr : XmlAttr} (writes : s.Writes attr) :
    (attr.name = qnXmlns → strip "xmlns".toList (s.printed attr).1 = some []) ∧
    (attr.name ≠ qnXmlns → attr.name.ns = nsXmlns →
      strip "xmlns".toList (s.printed attr).1 = some (':' :: attr.name.localPart.toList)) ∧
    (attr.name ≠ qnXmlns → attr.name.ns ≠ nsXmlns →
      strip "xmlns".toList (s.printed attr).1 ≠ some [] ∧
        ∀ pre, strip "xmlns".toList (s.printed attr).1 ≠ some (':' :: pre)) := by
  obtain ⟨⟨ns, localPart⟩, value⟩ := attr
  obtain ⟨local_, found, -⟩ := writes
  obtain ⟨pre, found⟩ := Option.isSome_iff_exists.mp found
  have meaning := prefixForNs_attr found
  dsimp only [printed] at *
  rcases formatQName_cases named ⟨ns, localPart⟩ true with
    ⟨empty, shape⟩ | ⟨other, here, ncName, shape⟩
  · rw [found, Option.getD_some] at empty
    have noNs : ns = "" := (meaning.resolve_right fun bound => bound.1 empty).2
    refine ⟨fun same => ?_, fun _ declares => ?_, fun different _ => ⟨fun stripped => ?_,
      fun pre stripped => ?_⟩⟩
    · rw [shape, show localPart = "xmlns" from congrArg QName.localPart same]
      exact show strip "xmlns".toList "xmlns".toList = some [] by decide
    · rw [noNs] at declares
      exact absurd declares (by decide)
    · have text := strip_eq_some.mp stripped
      rw [shape, List.append_nil] at text
      exact different (congrArg₂ QName.mk noNs (String.toList_inj.mp text))
    · have text := strip_eq_some.mp stripped
      rw [shape] at text
      exact local_.2 (text ▸ List.mem_append_right _ List.mem_cons_self)
  · have bound := (prefixForNs_attr here).resolve_left fun none => ncName.ne_empty none.1
    have foreign : (⟨ns, localPart⟩ : QName) ≠ qnXmlns := by
      intro same
      have noNs : ns = "" := congrArg QName.ns same
      rw [noNs] at here
      cases here
      exact ncName.ne_empty rfl
    refine ⟨fun same => absurd same foreign, fun _ declares => ?_, fun _ other_ => ⟨fun stripped => ?_,
      fun pre stripped => ?_⟩⟩
    · rw [declares, prefixForNs_xmlns] at here
      cases here
      rw [shape]
      exact strip_append _ _
    · have text := strip_eq_some.mp stripped
      rw [shape, List.append_nil] at text
      exact absurd (text ▸ List.mem_append_right _ List.mem_cons_self)
        (show ':' ∉ "xmlns".toList by decide)
    · have text := strip_eq_some.mp stripped
      have split : splitBefore [':'] _ = some (_, localPart.toList) :=
        splitBefore_singleton ncName.2
      rw [← shape, text, splitBefore_singleton (by decide)] at split
      have same := String.toList_inj.mp (Prod.mk.inj (Option.some.inj split)).1
      rw [← same] at bound
      exact other_ (Option.some.inj bound.2).symm

/-- The parser starts the namespaces that the printer has in scope. -/
theorem startNamespaces_printed (named : s.Named) (writes : ∀ attr ∈ attrs, s.Writes attr) :
    startNamespaces (attrs.map s.printed) t = some (addAttrs attrs t) := by
  induction attrs generalizing t with
  | nil => rfl
  | cons attr attrs ih =>
    have later := fun other listed => writes other (List.mem_cons_of_mem _ listed)
    have here := writes attr List.mem_cons_self
    obtain ⟨default, declares, foreign⟩ := strip_xmlns named here
    rw [List.map_cons, startNamespaces, addAttrs]
    by_cases same : attr.name = qnXmlns
    · rw [default same, if_pos same, ← attr.value.ofList_toList]
      exact ih later
    rw [if_neg same]
    by_cases xmlns : attr.name.ns = nsXmlns
    · have value : (s.printed attr).2 ≠ [] := fun empty =>
        here.value xmlns (String.toList_inj.mp empty)
      rw [declares same xmlns, if_pos xmlns]
      dsimp only
      rw [if_pos rfl, if_neg value, String.ofList_toList, printed, String.ofList_toList]
      exact ih later
    · obtain ⟨notDefault, notPrefix⟩ := foreign same xmlns
      rw [if_neg xmlns]
      split
      · exact ih later
      · next stripped => exact absurd stripped notDefault
      · next c pre stripped =>
        split
        · next colon => exact absurd (colon ▸ stripped) (notPrefix pre)
        · exact ih later

theorem buildAttrs_printed (named : s.Named) (writes : ∀ attr ∈ attrs, s.Writes attr)
    {seen : List QName} (distinct : (attrs.map XmlAttr.name).Nodup)
    (fresh : ∀ attr ∈ attrs, attr.name ∉ seen) :
    s.buildAttrs (attrs.map s.printed) seen = some attrs := by
  induction attrs generalizing seen with
  | nil => rfl
  | cons attr attrs ih =>
    have here := writes attr List.mem_cons_self
    rw [List.map_cons, List.nodup_cons] at distinct
    have resolved := resolveQName_formatQName named here.local_ true here.found
    have nonempty : attr.name.isEmpty ≠ true := fun empty =>
      here.local_.ne_empty (of_decide_eq_true empty).2
    rw [List.map_cons, printed, buildAttrs, resolved]
    dsimp only
    rw [if_neg nonempty, if_neg fun both => fresh attr List.mem_cons_self both.2, ih
      (fun other listed => writes other (List.mem_cons_of_mem _ listed)) distinct.2 ?_,
      Option.map_some, String.ofList_toList]
    intro other listed seen'
    have old := fresh other (List.mem_cons_of_mem _ listed)
    split at seen'
    · rcases List.mem_cons.mp seen' with same | before
      · exact distinct.1 (same ▸ List.mem_map_of_mem listed)
      · exact old before
    · exact old seen'

/-! ## Tags -/

theorem addAttrs_append (first second : List XmlAttr) (s : XmlnsStack) :
    addAttrs (first ++ second) s = addAttrs second (addAttrs first s) := by
  induction first generalizing s with
  | nil => rfl
  | cons attr first ih => rw [List.cons_append, addAttrs, addAttrs, ih]

/-- The new prefixes are declared by attributes. -/
theorem addAttrs_declarations (names : List (String × Bool)) (s : XmlnsStack) :
    addAttrs (declarations (addPrefixes names s).1) s = (addPrefixes names s).2 := by
  induction names generalizing s with
  | nil => rfl
  | cons name names ih =>
    obtain ⟨ns, isAttr⟩ := name
    rcases addNewPrefix_cases s ns isAttr with ⟨-, same⟩ | ⟨-, pre, added, -, -⟩
    · rw [addPrefixes, same]
      exact ih s
    · rw [addPrefixes, added]
      dsimp only
      rw [declarations, List.map_cons, addAttrs, if_neg (fun same =>
        (by decide : nsXmlns ≠ qnXmlns.ns) (congrArg QName.ns same)), if_pos rfl]
      exact ih _

theorem printed_declaration (s : XmlnsStack) {decl : String × String} (nonempty : decl.1 ≠ "") :
    s.printed ⟨⟨nsXmlns, decl.1⟩, decl.2⟩ = (xmlnsName decl.1, decl.2.toList) := by
  rw [printed, formatQName, xmlnsName_of_ne nonempty]
  dsimp only
  rw [prefixForNs_xmlns, Option.getD_some, if_neg (by decide), String.toList_append, String.toList_append,
    List.append_assoc]
  rfl

/-- All attributes of a start tag. -/
def tagAttrs (s : XmlnsStack) (name : QName) (attrs : List XmlAttr) : List XmlAttr :=
  attrs ++ declarations (s.frame name attrs).1

theorem startOf_eq (s : XmlnsStack) (name : QName) (attrs : List XmlAttr) (closed : Bool) :
    startOf s name attrs closed = .start ((s.frame name attrs).2.formatQName name false).toList
      ((s.tagAttrs name attrs).map (s.frame name attrs).2.printed) closed := by
  have declared : (s.frame name attrs).1.map (fun new => (xmlnsName new.1, new.2.toList)) =
      (declarations (s.frame name attrs).1).map (s.frame name attrs).2.printed := by
    rw [declarations, List.map_map]
    refine List.map_congr_left fun decl listed => ?_
    have ncName := ((added_frame s name attrs).free _ (List.mem_map_of_mem listed)).2
    exact (printed_declaration _ ncName.ne_empty).symm
  rw [startOf, tagAttrs, List.map_append, ← declared]
  rfl

theorem tagAttrs_nodup (distinct : (attrs.map XmlAttr.name).Nodup) :
    ((s.tagAttrs name attrs).map XmlAttr.name).Nodup := by
  have added := added_frame s name attrs
  rw [tagAttrs, List.map_append]
  refine List.nodup_append.mpr ⟨distinct, ?_, ?_⟩
  · have names := added.distinct.map (f := QName.mk nsXmlns)
      (fun _ _ same => (QName.mk.inj same).2)
    rw [List.map_map] at names
    rw [declarations, List.map_map]
    exact names
  · intro first here second declared same
    subst same
    obtain ⟨⟨_, value⟩, listed, rfl⟩ := List.mem_map.mp here
    obtain ⟨attr', declared, same⟩ := List.mem_map.mp declared
    obtain ⟨decl, fresh, rfl⟩ := List.mem_map.mp declared
    cases same
    exact not_free_addAttrs listed (added.free _ (List.mem_map_of_mem fresh)).1

theorem writes_tagAttrs (local_ : ∀ attr ∈ attrs, IsNCName attr.name.localPart)
    (declares : ∀ attr ∈ s.tagAttrs name attrs, attr.name.ns = nsXmlns → attr.value ≠ "") :
    ∀ attr ∈ s.tagAttrs name attrs, (s.frame name attrs).2.Writes attr := by
  have added := added_frame s name attrs
  intro attr listed
  have value := declares attr listed
  rcases List.mem_append.mp listed with here | declared
  · exact ⟨local_ attr here, added.found (attr.name.ns, true)
      (List.mem_cons_of_mem _ (List.mem_map_of_mem here)), value⟩
  · obtain ⟨decl, fresh, rfl⟩ := List.mem_map.mp declared
    exact ⟨(added.free _ (List.mem_map_of_mem fresh)).2,
      Option.isSome_iff_exists.mpr ⟨_, prefixForNs_xmlns _⟩, value⟩

end XmlnsStack

/-! ## Elements -/

variable {name : QName} {attrs : List XmlAttr} {b : XmlBuilder}

/-- A start tag opens the element, in the scope that the printer has for it. -/
theorem XmlBuilder.startElement_printed (named : b.stack.Named) (local_ : IsNCName name.localPart)
    (locals : ∀ attr ∈ attrs, IsNCName attr.name.localPart)
    (distinct : (attrs.map XmlAttr.name).Nodup)
    (declares : ∀ attr ∈ b.stack.tagAttrs name attrs, attr.name.ns = nsXmlns → attr.value ≠ "") :
    b.startElement ((b.stack.frame name attrs).2.formatQName name false).toList
        ((b.stack.tagAttrs name attrs).map (b.stack.frame name attrs).2.printed) =
      some { b with
        stack := (b.stack.frame name attrs).2
        parents := .mk name (b.stack.tagAttrs name attrs) false [] :: b.parents } := by
  have inside := named.frame name locals
  have writes := XmlnsStack.writes_tagAttrs locals declares
  have scope : XmlnsStack.addAttrs (b.stack.tagAttrs name attrs) b.stack.pushFrame =
      (b.stack.frame name attrs).2 := by
    rw [XmlnsStack.tagAttrs, XmlnsStack.addAttrs_append]
    exact XmlnsStack.addAttrs_declarations _ _
  have tag := XmlnsStack.resolveQName_formatQName inside local_ false
    ((XmlnsStack.added_frame b.stack name attrs).found (name.ns, false) List.mem_cons_self)
  have nonempty : name.isEmpty ≠ true := fun empty => local_.ne_empty (of_decide_eq_true empty).2
  rw [startElement, XmlnsStack.startNamespaces_printed inside writes, scope, Option.bind_some]
  dsimp only
  rw [tag, if_neg nonempty, XmlnsStack.buildAttrs_printed inside writes
    (XmlnsStack.tagAttrs_nodup distinct) fun _ _ => List.not_mem_nil, Option.map_some]

theorem XmlBuilder.stack_characterData (b : XmlBuilder) (text : List Char) :
    (b.characterData text).stack = b.stack := by
  unfold characterData
  split <;> rfl

/-- The children are at the end of the element. -/
def XmlElement.extend (e : XmlElement) (children : List XmlChild) : XmlElement :=
  .mk e.name e.attrs e.cdata (e.children ++ children)

/-- A text that comes next is a child of its own. -/
def XmlElement.Ends (e : XmlElement) : Prop :=
  ∀ last, e.children.getLast? ≠ some (.text last)

theorem addTextTo_of_ends {text : String} {children : List XmlChild}
    (ends : ∀ last, children.getLast? ≠ some (.text last)) :
    XmlElement.addTextTo text children = children ++ [.text text] := by
  induction children using XmlElement.addTextTo.induct with
  | case1 => rfl
  | case2 last => exact absurd rfl (ends last)
  | case3 child rest lone ih =>
    rw [XmlElement.addTextTo.eq_3 _ _ _ lone, List.cons_append, ih]
    intro last same
    cases rest with
    | nil => cases same
    | cons next more => exact ends last (by rw [List.getLast?_cons_cons]; exact same)

theorem XmlElement.Ends.addText {e : XmlElement} (ends : e.Ends) (text : List Char) :
    e.addText (String.ofList text) = e.extend (textChild text) := by
  obtain ⟨name, attrs, cdata, children⟩ := e
  unfold XmlElement.addText extend textChild
  by_cases empty : text = []
  · rw [if_pos empty, if_pos (by rw [empty]), List.append_nil]
    rfl
  · rw [if_neg empty, if_neg fun same => empty (String.ofList_eq_empty_iff.mp same),
      addTextTo_of_ends ends]

/-- An element is finished, behind a text. -/
def XmlBuilder.finish (b : XmlBuilder) (text : List Char) (scope : XmlnsStack) (e : XmlElement) :
    XmlBuilder :=
  let b := b.characterData text
  XmlBuilder.endElement { b with stack := scope, parents := e :: b.parents }

/-- The pieces of a printed element build the element that comes back. -/
theorem pieces_report {e : XmlElement} (named : e.Named) (text : List Char) (more : List Piece)
    (b : XmlBuilder) (scope : b.stack.Named) (declares : Declares b.stack e) :
    XmlBuilder.pieces (report b.stack text e ++ more) b =
      XmlBuilder.pieces more (b.finish text (b.stack.frame e.name e.attrs).2 (readBack b.stack e)) := by
  induction e using XmlElement.induct (Q := fun children => ∀ (s : XmlnsStack) (text close : List Char)
    (more : List Piece) (root : Option XmlElement) (current : XmlElement) (parents : List XmlElement),
    s.Named → XmlElement.EverywhereIn XmlElement.HereNamed children → DeclaresIn s children →
    current.Ends →
    XmlBuilder.pieces (reportChildren s text close children ++ more) ⟨s, root, current :: parents⟩ =
      XmlBuilder.pieces more (XmlBuilder.endElement
        ⟨s, root, current.extend (readBackChildren s text children) :: parents⟩))
    generalizing text more b with
  | mk name attrs cdata children ih =>
    have start := @XmlBuilder.startElement_printed name attrs (b.characterData text)
      (by rw [b.stack_characterData]; exact scope) named.1.isNCName named.1.attrs named.1.distinct
      (by rw [b.stack_characterData]; exact declares.1)
    rw [b.stack_characterData] at start
    rw [report, XmlnsStack.startOf_eq, List.cons_append, XmlBuilder.pieces, XmlBuilder.piece]
    dsimp only
    rw [start, Option.map_some, Option.bind_some]
    by_cases empty : children.isEmpty = true
    · rw [if_pos empty, if_pos empty, List.nil_append, List.isEmpty_iff.mp empty]
      rfl
    · rw [if_neg empty, if_neg empty]
      exact ih _ [] _ more _ _ _ (scope.frame name named.1.attrs) named.2 declares.2
        (fun last same => by cases same)
  | nil s text close more root current parents _ _ _ ends =>
    rw [reportChildren, List.cons_append, XmlBuilder.pieces, XmlBuilder.piece]
    dsimp only [XmlBuilder.characterData]
    rw [ends.addText, Option.bind_some]
    rfl
  | text more rest ih s text close pieces root current parents scope named declares ends =>
    exact ih s (text ++ more.toList) close pieces root current parents scope named declares ends
  | element e rest ihe ih s text close pieces root current parents scope named declares ends =>
    rw [reportChildren, List.append_assoc, ihe named.1 text _ ⟨s, root, current :: parents⟩ scope
      declares.1]
    have back : XmlBuilder.finish ⟨s, root, current :: parents⟩ text (s.frame e.name e.attrs).2
        (readBack s e) =
          ⟨s, root, current.extend (textChild text ++ [.element (readBack s e)]) :: parents⟩ := by
      unfold XmlBuilder.finish
      dsimp only [XmlBuilder.characterData, XmlBuilder.endElement]
      rw [ends.addText, XmlnsStack.popFrame_frame]
      unfold XmlElement.addElement XmlElement.extend
      rw [← List.append_assoc]
      rfl
    have tail := ih s [] close pieces root
      (current.extend (textChild text ++ [.element (readBack s e)])) parents scope named.2 declares.2
      (fun last same => by
        unfold XmlElement.extend at same
        rw [← List.append_assoc] at same
        simp [XmlElement.children] at same)
    refine ((congrArg _ back).trans tail).trans ?_
    rw [readBackChildren]
    unfold XmlElement.extend
    dsimp only [XmlElement.children, XmlElement.name, XmlElement.attrs, XmlElement.cdata]
    rw [List.append_assoc, List.append_assoc]
    rfl

end Libjingle.Xml

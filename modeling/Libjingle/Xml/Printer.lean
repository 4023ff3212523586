import Libjingle.Xml.NsStack
import Mathlib.Algebra.Order.Ring.Nat

/-!
# Printing XML

`XmlPrinterImpl` of `talk/xmllite/xmlprinter.cc`, and what a processor of XML reports of the document
that is printed: the names with their prefixes, and the values and texts of the element.

What is written on the stream is a list of characters here.
-/

namespace Libjingle.Xml

open Libjingle.Std.XmlDocument

/-! ## Texts -/

def isSafe (escape : Char → Option String) (c : Char) : Bool :=
  (escape c).isNone

/-- The loop of `PrintQuotedValue` and `PrintBodyText`: what is safe is written as it is, and what
is behind begins with a character that is escaped. -/
def printEscaped (escape : Char → Option String) (text : List Char) : List Char :=
  let safe := text.takeWhile (isSafe escape)
  match _behind : text.dropWhile (isSafe escape) with
  | [] => safe
  | c :: rest => safe ++ ((escape c).getD "").toList ++ printEscaped escape rest
termination_by text.length
decreasing_by
  have shorter := length_dropWhile_le (isSafe escape) text
  rw [_behind] at shorter
  exact shorter

def bodyEscape (c : Char) : Option String :=
  if c = '<' then some "&lt;"
  else if c = '>' then some "&gt;"
  else if c = '&' then some "&amp;"
  else none

def quotedEscape (c : Char) : Option String :=
  if c = '"' then some "&quot;" else bodyEscape c

def printQuotedValue (text : List Char) : List Char :=
  printEscaped quotedEscape text

def printBodyText (text : List Char) : List Char :=
  printEscaped bodyEscape text

def printCDATAText (text : List Char) : List Char :=
  sectionStart ++ (text ++ sectionEnd)

/-- A text of an element. -/
def printText (cdata : Bool) (text : List Char) : List Char :=
  if cdata = true then printCDATAText text else printBodyText text

/-! ## Elements -/

namespace XmlnsStack

/-- The definitions that attributes are. -/
def addAttrs : List XmlAttr → XmlnsStack → XmlnsStack
  | [], s => s
  | attr :: rest, s =>
      addAttrs rest
        (if attr.name = qnXmlns then s.addXmlns "" attr.value
        else if attr.name.ns = nsXmlns then s.addXmlns attr.name.localPart attr.value
        else s)

/-- Prefixes for namespaces that have none, and the stack with them. A flag tells whether the name is
that of an attribute. -/
def addPrefixes : List (String × Bool) → XmlnsStack → List (String × String) × XmlnsStack
  | [], s => ([], s)
  | (ns, isAttr) :: rest, s =>
      let added := s.addNewPrefix ns isAttr
      let more := addPrefixes rest added.2
      match added.1 with
      | some pre => ((pre, ns) :: more.1, more.2)
      | none => more

/-- What is declared newly for an element, and the stack in it. -/
def frame (s : XmlnsStack) (name : QName) (attrs : List XmlAttr) :
    List (String × String) × XmlnsStack :=
  addPrefixes ((name.ns, false) :: attrs.map fun attr => (attr.name.ns, true))
    (addAttrs attrs s.pushFrame)

end XmlnsStack

/-- A name and a value in quotes. -/
def printPair (name value : List Char) : List Char :=
  ' ' :: (name ++ '=' :: '"' :: (value ++ ['"']))

/-- The name of the attribute that declares a prefix. -/
def xmlnsName (pre : String) : List Char :=
  if pre = "" then "xmlns".toList else "xmlns:".toList ++ pre.toList

def printAttr (s : XmlnsStack) (attr : XmlAttr) : List Char :=
  printPair (s.formatQName attr.name true).toList (printQuotedValue attr.value.toList)

def printXmlns (new : String × String) : List Char :=
  printPair (xmlnsName new.1) new.2.toList

mutual

def printElement : XmlElement → XmlnsStack → List Char × XmlnsStack
  | .mk name attrs cdata children, s =>
      let new := s.frame name attrs
      let s := new.2
      let start := '<' :: ((s.formatQName name false).toList ++
        (attrs.flatMap (printAttr s) ++ new.1.flatMap printXmlns))
      if children.isEmpty = true then (start ++ ['/', '>'], s.popFrame)
      else
        let inner := printChildren cdata children s
        (start ++ '>' :: (inner.1 ++
          '<' :: '/' :: ((inner.2.formatQName name false).toList ++ ['>'])), inner.2.popFrame)

def printChildren (cdata : Bool) : List XmlChild → XmlnsStack → List Char × XmlnsStack
  | [], s => ([], s)
  | .text text :: rest, s =>
      let more := printChildren cdata rest s
      (printText cdata text.toList ++ more.1, more.2)
  | .element e :: rest, s =>
      let first := printElement e s
      let more := printChildren cdata rest first.2
      (first.1 ++ more.1, more.2)

end

/-- `PrintXml`. It begins with an empty stack if none is given. -/
def printXml (e : XmlElement) (s : XmlnsStack) : List Char :=
  (printElement e s).1

/-! ## What is to be reported -/

/-- The tag as it was meant. -/
def startOf (s : XmlnsStack) (name : QName) (attrs : List XmlAttr) (closed : Bool) : Markup :=
  let new := s.frame name attrs
  .start (new.2.formatQName name false).toList
    (attrs.map (fun attr => ((new.2.formatQName attr.name true).toList, attr.value.toList)) ++
      new.1.map fun new => (xmlnsName new.1, new.2.toList))
    closed

mutual

/-- The pieces of an element behind a text. -/
def report (s : XmlnsStack) (text : List Char) : XmlElement → List Piece
  | .mk name attrs _ children =>
      ⟨text, startOf s name attrs children.isEmpty⟩ ::
        if children.isEmpty = true then []
        else
          let inside := (s.frame name attrs).2
          reportChildren inside [] (inside.formatQName name false).toList children

/-- The pieces up to the end tag of an element. Texts that follow each other are one. -/
def reportChildren (s : XmlnsStack) (text close : List Char) : List XmlChild → List Piece
  | [] => [⟨text, .close close⟩]
  | .text more :: rest => reportChildren s (text ++ more.toList) close rest
  | .element e :: rest => report s text e ++ reportChildren s [] close rest

end

/-- A processor reports the values and the texts of the element. -/
def SurvivesIn (s : XmlnsStack) (e : XmlElement) : Prop :=
  readDocument (printXml e s) = some (report s [] e)

/-! ## Conditions -/

mutual

/-- An element and all that are in it. -/
def XmlElement.Everywhere (P : XmlElement → Prop) : XmlElement → Prop
  | .mk name attrs cdata children =>
      P (.mk name attrs cdata children) ∧ XmlElement.EverywhereIn P children

def XmlElement.EverywhereIn (P : XmlElement → Prop) : List XmlChild → Prop
  | [] => True
  | .text _ :: rest => XmlElement.EverywhereIn P rest
  | .element e :: rest => XmlElement.Everywhere P e ∧ XmlElement.EverywhereIn P rest

end

/-- The local parts are names without colons, and no two attributes have one name. -/
structure XmlElement.HereNamed (e : XmlElement) : Prop where
  isNCName : IsNCName e.name.localPart
  attrs : ∀ attr ∈ e.attrs, IsNCName attr.name.localPart
  distinct : (e.attrs.map XmlAttr.name).Nodup

def XmlElement.Named : XmlElement → Prop :=
  XmlElement.Everywhere XmlElement.HereNamed

/-- A string of characters that a document may have. -/
def Allowed (text : String) : Prop :=
  ∀ c ∈ text.toList, isChar c = true

structure XmlElement.HereAllowed (e : XmlElement) : Prop where
  ns : Xml.Allowed e.name.ns
  attrs : ∀ attr ∈ e.attrs, Xml.Allowed attr.name.ns ∧ Xml.Allowed attr.value
  texts : ∀ text, .text text ∈ e.children → Xml.Allowed text

def XmlElement.Allowed : XmlElement → Prop :=
  XmlElement.Everywhere XmlElement.HereAllowed

/-- The only white space is spaces. -/
def ValueClear (value : List Char) : Prop :=
  '\t' ∉ value ∧ '\n' ∉ value ∧ '\r' ∉ value

/-- A namespace that can be declared as it is. -/
def NsClear (ns : List Char) : Prop :=
  ('"' ∉ ns ∧ '&' ∉ ns ∧ '<' ∉ ns) ∧ ValueClear ns

/-- No carriage return is in a text, nor the end of a section where it is written as one. -/
def TextClear (cdata : Bool) (text : List Char) : Prop :=
  '\r' ∉ text ∧ (cdata = true → ¬ sectionEnd <:+: text)

mutual

def ClearIn (s : XmlnsStack) : XmlElement → Prop
  | .mk name attrs cdata children =>
      (∀ attr ∈ attrs, ValueClear attr.value.toList) ∧
        (∀ new ∈ (s.frame name attrs).1, NsClear new.2.toList) ∧
          ChildrenClear (s.frame name attrs).2 cdata children

def ChildrenClear (s : XmlnsStack) (cdata : Bool) : List XmlChild → Prop
  | [] => True
  | .text text :: rest => TextClear cdata text.toList ∧ ChildrenClear s cdata rest
  | .element e :: rest => ClearIn s e ∧ ChildrenClear s cdata rest

end

/-! ## Laws of texts -/

variable {escape : Char → Option String} {text rest : List Char}

/-- What is written for a character. -/
def escaped (escape : Char → Option String) (c : Char) : List Char :=
  ((escape c).map String.toList).getD [c]

theorem flatMap_escaped_safe (safe : ∀ c ∈ text, isSafe escape c = true) :
    text.flatMap (escaped escape) = text := by
  induction text with
  | nil => rfl
  | cons c rest ih =>
    have here := Option.isNone_iff_eq_none.mp (safe c List.mem_cons_self)
    rw [List.flatMap_cons, ih fun d later => safe d (List.mem_cons_of_mem _ later), escaped, here]
    rfl

/-- The loop writes one character after the other. -/
theorem printEscaped_eq (escape : Char → Option String) (text : List Char) :
    printEscaped escape text = text.flatMap (escaped escape) := by
  induction size : text.length using Nat.strong_induction_on generalizing text with
  | _ length ih =>
  subst size
  have whole := List.takeWhile_append_dropWhile (p := isSafe escape) (l := text)
  have safe : (text.takeWhile (isSafe escape)).flatMap (escaped escape) =
      text.takeWhile (isSafe escape) :=
    flatMap_escaped_safe fun c listed => List.mem_takeWhile_imp listed
  rw [printEscaped]
  split
  · next behind =>
    rw [behind, List.append_nil] at whole
    rw [whole] at safe ⊢
    exact safe.symm
  · next c rest behind =>
    have here : isSafe escape c = false := by
      have stops := List.head?_dropWhile_not (isSafe escape) text
      rw [behind] at stops
      simpa using stops
    have shorter : rest.length < text.length := by
      have fewer := length_dropWhile_le (isSafe escape) text
      rw [behind] at fewer
      exact fewer
    cases some_ : escape c with
    | none =>
      rw [isSafe, some_] at here
      cases here
    | some written =>
      conv_rhs => rw [← whole, behind, List.flatMap_append, List.flatMap_cons, safe]
      rw [ih rest.length shorter rest rfl, escaped, some_, List.append_assoc]
      rfl

/-- The reference of a name to a character. -/
structure Refers (name : List Char) (c : Char) : Prop where
  refers : referent name = some c
  noFeed : '\n' ∉ name
  noReturn : '\r' ∉ name
  noMark : ';' ∉ name ∧ '>' ∉ name

/-- What is written for a character is a reference to it. White space is written as it is. -/
structure Escapes (escape : Char → Option String) : Prop where
  reads : ∀ {c written}, escape c = some written →
    ∃ name, written.toList = '&' :: (name ++ [';']) ∧ Refers name c
  marks : ∀ {c}, escape c = none → c ≠ '&' ∧ c ≠ '<' ∧ c ≠ '>'
  plain : ∀ {c}, isSpace c = true → escape c = none
  allowed : ∀ {c written}, escape c = some written → written.toList.all isChar = true

theorem bodyEscape_escapes : Escapes bodyEscape where
  reads := by
    intro c written some_
    unfold bodyEscape at some_
    split at some_
    · next same =>
      cases some_
      exact ⟨['l', 't'], rfl, by rw [same]; rfl, by decide, by decide, by decide⟩
    split at some_
    · next same =>
      cases some_
      exact ⟨['g', 't'], rfl, by rw [same]; rfl, by decide, by decide, by decide⟩
    split at some_
    · next same =>
      cases some_
      exact ⟨['a', 'm', 'p'], rfl, by rw [same]; rfl, by decide, by decide, by decide⟩
    · cases some_
  marks := by
    intro c none
    refine ⟨?_, ?_, ?_⟩
    · rintro rfl
      cases none
    · rintro rfl
      cases none
    · rintro rfl
      cases none
  plain := by
    intro c space
    simp only [isSpace, Bool.or_eq_true, decide_eq_true_eq] at space
    rcases space with ((rfl | rfl) | rfl) | rfl
    · rfl
    · rfl
    · rfl
    · rfl
  allowed := by
    intro c written some_
    unfold bodyEscape at some_
    split at some_
    · cases some_
      decide
    split at some_
    · cases some_
      decide
    split at some_
    · cases some_
      decide
    · cases some_

theorem quotedEscape_escapes : Escapes quotedEscape where
  reads := by
    intro c written some_
    unfold quotedEscape at some_
    split at some_
    · next same =>
      cases some_
      exact ⟨['q', 'u', 'o', 't'], rfl, by rw [same]; rfl, by decide, by decide, by decide⟩
    · exact bodyEscape_escapes.reads some_
  marks := by
    intro c none
    unfold quotedEscape at none
    split at none
    · cases none
    · exact bodyEscape_escapes.marks none
  plain := by
    intro c space
    unfold quotedEscape
    split
    · next same =>
      rw [same] at space
      cases space
    · exact bodyEscape_escapes.plain space
  allowed := by
    intro c written some_
    unfold quotedEscape at some_
    split at some_
    · cases some_
      decide
    · exact bodyEscape_escapes.allowed some_

variable (escapes : Escapes escape)
include escapes

/-- A character is written as it is, or as a reference. -/
theorem Escapes.escaped_cases (c : Char) :
    escaped escape c = [c] ∧ escape c = none ∨
      (∃ name, escaped escape c = '&' :: (name ++ [';']) ∧ Refers name c) ∧ isSpace c = false := by
  unfold escaped
  cases some_ : escape c with
  | none => exact .inl ⟨rfl, rfl⟩
  | some written =>
    refine .inr ⟨escapes.reads some_, Bool.eq_false_iff.mpr fun space => ?_⟩
    rw [escapes.plain space] at some_
    cases some_

omit escapes in
theorem not_mem_written {d : Char} {name : List Char} (none : d ∉ name) (ne : d ≠ '&' ∧ d ≠ ';') :
    d ∉ '&' :: (name ++ [';']) := by
  rw [List.mem_cons, List.mem_append, List.mem_singleton]
  rintro (amp | inside | last)
  · exact ne.1 amp
  · exact none inside
  · exact ne.2 last

/-- Line ends are as in the text. -/
theorem Escapes.normalized (behindReturn : Bool) (text : List Char) :
    normalizeFrom behindReturn (text.flatMap (escaped escape)) =
      (normalizeFrom behindReturn text).flatMap (escaped escape) := by
  induction text generalizing behindReturn with
  | nil => rfl
  | cons c rest ih =>
    rw [List.flatMap_cons, normalizeFrom]
    rcases escapes.escaped_cases c with ⟨written, -⟩ | ⟨⟨name, written, refers⟩, noSpace⟩
    · rw [written, List.singleton_append, normalizeFrom]
      by_cases feed : c = '\n' ∧ behindReturn = true
      · rw [if_pos feed, if_pos feed, ih]
      · rw [if_neg feed, if_neg feed, ih, List.flatMap_cons]
        by_cases back : c = '\r'
        · have feeds : escaped escape '\n' = ['\n'] := by
            rw [escaped, escapes.plain rfl]
            rfl
          rw [if_pos back, feeds]
          rfl
        · rw [if_neg back, written]
          rfl
    · have noFeed : c ≠ '\n' := by
        rintro rfl
        cases noSpace
      have noReturn : c ≠ '\r' := by
        rintro rfl
        cases noSpace
      rw [if_neg (fun feed => noFeed feed.1), if_neg noReturn, decide_eq_false noReturn,
        List.flatMap_cons, written,
        normalizeFrom_plain (not_mem_written refers.noFeed ⟨by decide, by decide⟩)
          (not_mem_written refers.noReturn ⟨by decide, by decide⟩) (List.cons_ne_nil _ _), ih]

omit escapes in
theorem Refers.readReference {c : Char} {name : List Char} (refers : Refers name c)
    (rest : List Char) : Std.XmlDocument.readReference (name ++ [';'] ++ rest) = some (c, rest) := by
  rw [List.append_assoc]
  exact readReference_append refers.refers refers.noMark.1 rest

/-- No `>` is written. -/
theorem Escapes.not_mem (text : List Char) : '>' ∉ text.flatMap (escaped escape) := by
  intro listed
  obtain ⟨c, -, here⟩ := List.mem_flatMap.mp listed
  rcases escapes.escaped_cases c with ⟨written, none⟩ | ⟨⟨name, written, refers⟩, -⟩
  · rw [written] at here
    exact (escapes.marks none).2.2 (List.mem_singleton.mp here).symm
  · rw [written] at here
    exact not_mem_written refers.noMark.2 ⟨by decide, by decide⟩ here

/-- What is written has characters that a document may have. -/
theorem Escapes.all_isChar (allowed : ∀ c ∈ text, isChar c = true) :
    (text.flatMap (escaped escape)).all isChar = true := by
  refine List.all_eq_true.mpr fun d listed => ?_
  obtain ⟨c, inside, here⟩ := List.mem_flatMap.mp listed
  unfold escaped at here
  cases some_ : escape c with
  | none =>
    rw [some_] at here
    exact List.mem_singleton.mp here ▸ allowed c inside
  | some written =>
    rw [some_] at here
    exact List.all_eq_true.mp (escapes.allowed some_) d here

omit escapes in
/-- The end of a section does not begin before a tag where no `>` is. -/
theorem not_sectionEnd_prefix {front : List Char} (none : '>' ∉ front) (rest : List Char) :
    ¬ sectionEnd <+: front ++ '<' :: rest := by
  rintro ⟨behind, whole⟩
  rcases List.append_eq_append_iff.mp whole with ⟨more, rfl, -⟩ | ⟨later, ends, here⟩
  · exact none (List.mem_append_left _ (by decide))
  · cases later with
    | nil =>
      rw [List.append_nil] at ends
      rw [← ends] at none
      exact none (by decide)
    | cons first later =>
      obtain ⟨rfl, -⟩ := List.cons.inj here
      have noTag : '<' ∉ sectionEnd := by decide
      rw [ends] at noTag
      exact noTag (List.mem_append_right _ List.mem_cons_self)

/-- A text that is escaped is read back. -/
theorem Escapes.readText_escaped (tag : rest.head? ≠ some '!') (text : List Char) :
    readText (text.flatMap (escaped escape) ++ '<' :: rest) = some (text, '<' :: rest) := by
  induction text with
  | nil => exact readText_tag tag
  | cons c text ih =>
    rw [List.flatMap_cons, List.append_assoc]
    rcases escapes.escaped_cases c with ⟨written, none⟩ | ⟨⟨name, written, refers⟩, -⟩
    · have marks := escapes.marks none
      rw [written, List.singleton_append, readText_char ⟨marks.1, marks.2.1⟩, ih]
      · rfl
      · have noEnd := not_sectionEnd_prefix (escapes.not_mem (c :: text)) rest
        rwa [List.flatMap_cons, written] at noEnd
    · rw [written, List.cons_append, readText_reference (refers.readReference _), ih]
      rfl

omit escapes in
/-- A value that is escaped is read with spaces. -/
theorem value_escaped (text rest : List Char) :
    many (nextValue '"') (text.flatMap (escaped quotedEscape) ++ '"' :: rest) =
      some (spaced text, '"' :: rest) := by
  induction text with
  | nil => exact value_quote _ _
  | cons c text ih =>
    rw [List.flatMap_cons, List.append_assoc]
    rcases quotedEscape_escapes.escaped_cases c with
      ⟨written, none⟩ | ⟨⟨name, written, refers⟩, noSpace⟩
    · have marks := quotedEscape_escapes.marks none
      have noQuote : c ≠ '"' := by
        rintro rfl
        cases none
      rw [written, List.singleton_append, value_char ⟨noQuote, marks.1, marks.2.1⟩, ih]
      rfl
    · rw [written, List.cons_append,
        value_reference (by decide) (refers.readReference _), ih, spaced, spaced,
        List.map_cons, noSpace]
      rfl

omit escapes

/-! ## Runs of texts -/

/-- Sections have no more characters than their texts, and fewer if one ends early. -/
theorem readText_sections (tag : rest.head? ≠ some '!') (texts : List (List Char)) :
    (∀ text ∈ texts, ¬ sectionEnd <:+: text) ∧
        readText (texts.flatMap printCDATAText ++ '<' :: rest) = some (texts.flatten, '<' :: rest) ∨
      (∃ text ∈ texts, sectionEnd <:+: text) ∧
        ∀ {found behind}, readText (texts.flatMap printCDATAText ++ '<' :: rest) =
          some (found, behind) → found.length < texts.flatten.length := by
  induction texts with
  | nil => exact .inl ⟨fun _ listed => absurd listed List.not_mem_nil, readText_tag tag⟩
  | cons text texts ih =>
    have printed : (text :: texts).flatMap printCDATAText ++ '<' :: rest =
        sectionStart ++ (text ++ (sectionEnd ++ (texts.flatMap printCDATAText ++ '<' :: rest))) := by
      rw [List.flatMap_cons, printCDATAText]
      simp only [List.append_assoc]
    rw [printed, List.flatten_cons]
    rcases splitBefore_sectionEnd text (texts.flatMap printCDATAText ++ '<' :: rest) with
      ⟨split, noEnd⟩ | ⟨early, late, rfl, split⟩
    · rw [readText_section split]
      rcases ih with ⟨noEnds, read⟩ | ⟨⟨other, listed, ends⟩, fewer⟩
      · refine .inl ⟨fun other listed => ?_, by rw [read]; rfl⟩
        rcases List.mem_cons.mp listed with rfl | later
        · exact noEnd
        · exact noEnds other later
      · refine .inr ⟨⟨other, List.mem_cons_of_mem _ listed, ends⟩, fun read => ?_⟩
        obtain ⟨⟨more, behind⟩, readMore, same⟩ := Option.map_eq_some_iff.mp read
        cases same
        have short := fewer readMore
        rw [List.length_append, List.length_append]
        exact Nat.add_lt_add_left short _
    · refine .inr ⟨⟨_, List.mem_cons_self, early, late, by simp⟩, fun read => ?_⟩
      rw [readText_section split] at read
      obtain ⟨⟨more, behind⟩, readMore, same⟩ := Option.map_eq_some_iff.mp read
      cases same
      have bound : ∀ {found behind}, readText (texts.flatMap printCDATAText ++ '<' :: rest) =
          some (found, behind) → found.length ≤ texts.flatten.length := by
        intro found behind read
        rcases ih with ⟨-, all⟩ | ⟨-, fewer⟩
        · rw [all] at read
          cases read
          exact Nat.le_refl _
        · exact Nat.le_of_lt (fewer read)
      have short := readText_length_lt bound readMore
      simp only [List.length_append, show sectionEnd.length = 3 from rfl]
      omega

/-- Line ends of sections. -/
theorem normalizeLineEnds_sections (texts : List (List Char)) :
    normalizeLineEnds (texts.flatMap printCDATAText) =
      (texts.map normalizeLineEnds).flatMap printCDATAText := by
  have starts : ∀ rest,
      normalizeFrom false (sectionStart ++ rest) = sectionStart ++ normalizeFrom false rest :=
    normalizeFrom_plain (by decide) (by decide) (List.cons_ne_nil _ _) false
  have ends : ∀ before rest, normalizeFrom false (before ++ (sectionEnd ++ rest)) =
      normalizeFrom false before ++ (sectionEnd ++ normalizeFrom false rest) := by
    intro before rest
    have plain : normalizeFrom false (sectionEnd ++ rest) = sectionEnd ++ normalizeFrom false rest :=
      normalizeFrom_plain (by decide) (by decide) (List.cons_ne_nil _ _) false rest
    rw [← plain]
    exact normalizeFrom_append (by decide) false before _
  induction texts with
  | nil => rfl
  | cons text texts ih =>
    rw [List.flatMap_cons, printCDATAText, List.append_assoc, List.append_assoc, normalizeLineEnds,
      starts, ends, ← normalizeLineEnds, ← normalizeLineEnds, ih, List.map_cons, List.flatMap_cons,
      printCDATAText]
    simp only [List.append_assoc]

theorem length_normalized_le (texts : List (List Char)) :
    (texts.map normalizeLineEnds).flatten.length ≤ texts.flatten.length := by
  induction texts with
  | nil => exact Nat.le_refl _
  | cons text texts ih =>
    rw [List.map_cons, List.flatten_cons, List.flatten_cons, List.length_append, List.length_append]
    exact Nat.add_le_add (length_normalizeFrom_le _ _) ih

theorem flatten_normalized {texts : List (List Char)} :
    (texts.map normalizeLineEnds).flatten = texts.flatten ↔ ∀ text ∈ texts, '\r' ∉ text := by
  constructor
  · intro same text listed inside
    have here : '\r' ∈ texts.flatten := List.mem_flatten.mpr ⟨text, listed, inside⟩
    rw [← same] at here
    obtain ⟨normal, listed, inside⟩ := List.mem_flatten.mp here
    obtain ⟨text, -, rfl⟩ := List.mem_map.mp listed
    exact return_not_mem_normalizeFrom _ _ inside
  · intro none
    rw [List.map_congr_left fun text listed => normalizeLineEnds_eq_self.mpr (none text listed),
      List.map_id']

/-- The texts of an element are read back if and only if they are clear. -/
theorem readText_run (tag : rest.head? ≠ some '!') (cdata : Bool) (texts : List (List Char))
    (behind : List Char) :
    readText (normalizeLineEnds (texts.flatMap (printText cdata)) ++ '<' :: rest) =
        some (texts.flatten, behind) ↔
      (∀ text ∈ texts, TextClear cdata text) ∧ behind = '<' :: rest := by
  cases cdata with
  | false =>
    have printed : texts.flatMap (printText false) = texts.flatten.flatMap (escaped bodyEscape) := by
      rw [List.flatten_eq_flatMap, List.flatMap_assoc]
      exact congrArg (texts.flatMap ·) (funext fun text => printEscaped_eq bodyEscape text)
    rw [printed, normalizeLineEnds, bodyEscape_escapes.normalized,
      bodyEscape_escapes.readText_escaped tag, ← normalizeLineEnds]
    constructor
    · intro read
      obtain ⟨same, rfl⟩ := Prod.mk.inj (Option.some.inj read)
      have none := normalizeLineEnds_eq_self.mp same
      refine ⟨fun text listed => ⟨fun inside => none ?_, fun cdata => Bool.noConfusion cdata⟩, rfl⟩
      exact List.mem_flatten.mpr ⟨text, listed, inside⟩
    · rintro ⟨clear, rfl⟩
      rw [normalizeLineEnds_eq_self.mpr]
      intro inside
      obtain ⟨text, listed, inside⟩ := List.mem_flatten.mp inside
      exact (clear text listed).1 inside
  | true =>
    have printed : printText true = printCDATAText := funext fun text => if_pos rfl
    rw [printed, normalizeLineEnds_sections]
    constructor
    · intro read
      rcases readText_sections tag (texts.map normalizeLineEnds) with ⟨noEnds, all⟩ | ⟨-, fewer⟩
      · rw [all] at read
        obtain ⟨same, rfl⟩ := Prod.mk.inj (Option.some.inj read)
        have noReturn := flatten_normalized.mp same
        refine ⟨fun text listed => ⟨noReturn text listed, fun _ => ?_⟩, rfl⟩
        have noEnd := noEnds _ (List.mem_map_of_mem listed)
        rwa [normalizeLineEnds_eq_self.mpr (noReturn text listed)] at noEnd
      · exact absurd (fewer read) (Nat.not_lt.mpr (length_normalized_le texts))
    · rintro ⟨clear, rfl⟩
      have same : texts.map normalizeLineEnds = texts := by
        rw [List.map_congr_left fun text listed =>
          normalizeLineEnds_eq_self.mpr (clear text listed).1, List.map_id']
      rw [same]
      rcases readText_sections tag texts with ⟨-, all⟩ | ⟨⟨text, listed, ends⟩, -⟩
      · exact all
      · exact absurd ends ((clear text listed).2 rfl)

end Libjingle.Xml

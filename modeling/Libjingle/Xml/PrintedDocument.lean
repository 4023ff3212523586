import Libjingle.Xml.Printer
import Mathlib.Algebra.Order.Ring.Nat

/-!
# Documents that are printed

The tags of an element that is printed are read back, and the texts between them, so that its values
and its texts are reported if they are clear, and only then.
-/

namespace Libjingle.Xml

open Libjingle.Std.XmlDocument

namespace XmlnsStack

variable {s : XmlnsStack} {name : QName} {attrs : List XmlAttr}

/-! ## Frames -/

/-- What prefixes that are added are. -/
structure Added (s : XmlnsStack) (names : List (String × Bool))
    (new : List (String × String) × XmlnsStack) : Prop where
  grows : ∃ more, new.2 = { s with xmlns := more ++ s.xmlns }
  keeps : ∀ {ns isAttr}, (s.prefixForNs ns isAttr).isSome = true →
    (new.2.prefixForNs ns isAttr).isSome = true
  found : ∀ name ∈ names, (new.2.prefixForNs name.1 name.2).isSome = true
  free : ∀ pre ∈ new.1.map Prod.fst, s.Free pre ∧ IsNCName pre
  distinct : (new.1.map Prod.fst).Nodup
  named : s.Named → new.2.Named
  ns : ∀ decl ∈ new.1, decl.2 ∈ names.map Prod.fst

theorem added_addPrefixes (names : List (String × Bool)) (s : XmlnsStack) :
    Added s names (addPrefixes names s) := by
  induction names generalizing s with
  | nil =>
    exact ⟨⟨[], rfl⟩, fun found => found, fun _ listed => absurd listed List.not_mem_nil,
      fun _ listed => absurd listed List.not_mem_nil, List.nodup_nil, fun named => named,
      fun _ listed => absurd listed List.not_mem_nil⟩
  | cons name names ih =>
    obtain ⟨ns, isAttr⟩ := name
    rcases addNewPrefix_cases s ns isAttr with ⟨found, same⟩ | ⟨-, pre, added, free, ncName⟩
    · have more := ih s
      rw [addPrefixes, same]
      refine ⟨more.grows, more.keeps, fun name listed => ?_, more.free, more.distinct, more.named,
        fun decl listed => List.mem_cons_of_mem _ (more.ns decl listed)⟩
      rcases List.mem_cons.mp listed with rfl | later
      · exact more.keeps found
      · exact more.found name later
    · have more := ih (s.addXmlns pre ns)
      rw [addPrefixes, added]
      have bound : (s.addXmlns pre ns).nsForPrefix pre = some ns := nsForPrefix_addXmlns free.ordinary
      have others : ∀ other ∈ (addPrefixes names (s.addXmlns pre ns)).1.map Prod.fst, other ≠ pre := by
        rintro other listed rfl
        rw [(more.free other listed).1.unbound] at bound
        cases bound
      refine ⟨?_, fun found => more.keeps (prefixForNs_addXmlns free found), fun name listed => ?_,
        fun other listed => ?_, ?_, fun named => more.named (named.addXmlns (.inr ncName) ns),
        fun decl listed => ?_⟩
      · obtain ⟨front, grows⟩ := more.grows
        exact ⟨front ++ [(pre, ns)], by rw [grows, addXmlns, List.append_assoc]; rfl⟩
      · rcases List.mem_cons.mp listed with rfl | later
        · exact more.keeps (prefixForNs_addXmlns_self free ns isAttr)
        · exact more.found name later
      · rcases List.mem_cons.mp listed with rfl | later
        · exact ⟨free, ncName⟩
        · obtain ⟨⟨unbound, ordinary⟩, ncName'⟩ := more.free other later
          rw [nsForPrefix_addXmlns_ne (others other later)] at unbound
          exact ⟨⟨unbound, ordinary⟩, ncName'⟩
      · exact List.nodup_cons.mpr ⟨fun listed => others pre listed rfl, more.distinct⟩
      · rcases List.mem_cons.mp listed with rfl | later
        · exact List.mem_cons_self
        · exact List.mem_cons_of_mem _ (more.ns decl later)

theorem addAttrs_grows (attrs : List XmlAttr) (s : XmlnsStack) :
    ∃ more, addAttrs attrs s = { s with xmlns := more ++ s.xmlns } := by
  induction attrs generalizing s with
  | nil => exact ⟨[], rfl⟩
  | cons attr attrs ih =>
    rw [addAttrs]
    split
    · obtain ⟨more, grows⟩ := ih (s.addXmlns "" attr.value)
      exact ⟨more ++ [("", attr.value)], by rw [grows, addXmlns, List.append_assoc]; rfl⟩
    split
    · obtain ⟨more, grows⟩ := ih (s.addXmlns attr.name.localPart attr.value)
      exact ⟨more ++ [(attr.name.localPart, attr.value)],
        by rw [grows, addXmlns, List.append_assoc]; rfl⟩
    · exact ih s

theorem Named.addAttrs (named : s.Named) (local_ : ∀ attr ∈ attrs, IsNCName attr.name.localPart) :
    (XmlnsStack.addAttrs attrs s).Named := by
  induction attrs generalizing s with
  | nil => exact named
  | cons attr attrs ih =>
    have later : ∀ other ∈ attrs, IsNCName other.name.localPart := fun other listed =>
      local_ other (List.mem_cons_of_mem _ listed)
    rw [XmlnsStack.addAttrs]
    split
    · exact ih (named.addXmlns (.inl rfl) _) later
    split
    · exact ih (named.addXmlns (.inr (local_ attr List.mem_cons_self)) _) later
    · exact ih named later

/-- A prefix that an attribute declares is not free. -/
theorem not_free_addAttrs {pre value : String} (listed : ⟨⟨nsXmlns, pre⟩, value⟩ ∈ attrs)
    (free : (addAttrs attrs s).Free pre) : False := by
  have here : pre ∈ (addAttrs attrs s).xmlns.map Prod.fst := by
    clear free
    induction attrs generalizing s with
    | nil => cases listed
    | cons attr attrs ih =>
      rcases List.mem_cons.mp listed with rfl | later
      · rw [addAttrs, if_neg (fun same =>
          (by decide : nsXmlns ≠ qnXmlns.ns) (congrArg QName.ns same)), if_pos rfl]
        obtain ⟨more, grows⟩ := addAttrs_grows attrs (s.addXmlns pre value)
        rw [grows]
        exact List.mem_map_of_mem (List.mem_append_right more List.mem_cons_self)
      · rw [addAttrs]
        exact ih later
  have unbound := free.unbound
  unfold nsForPrefix at unbound
  rw [if_neg (by rw [free.ordinary]; decide)] at unbound
  split at unbound
  · cases unbound
  · next missing =>
    obtain ⟨pos, bound, rfl⟩ := List.mem_map.mp here
    have other := List.find?_eq_none.mp missing pos bound
    exact other (decide_eq_true rfl)

theorem added_frame (s : XmlnsStack) (name : QName) (attrs : List XmlAttr) :
    Added (addAttrs attrs s.pushFrame)
      ((name.ns, false) :: attrs.map fun attr => (attr.name.ns, true)) (s.frame name attrs) :=
  added_addPrefixes _ _

theorem popFrame_frame (s : XmlnsStack) (name : QName) (attrs : List XmlAttr) :
    (s.frame name attrs).2.popFrame = s := by
  obtain ⟨first, attrsGrow⟩ := addAttrs_grows attrs s.pushFrame
  obtain ⟨second, grows⟩ := (added_frame s name attrs).grows
  rw [grows, attrsGrow]
  have popped := popFrame_pushFrame s (second ++ first)
  rwa [List.append_assoc] at popped

theorem Named.frame (named : s.Named) (name : QName)
    (local_ : ∀ attr ∈ attrs, IsNCName attr.name.localPart) : (s.frame name attrs).2.Named :=
  (added_frame _ _ _).named ((show s.pushFrame.Named from named).addAttrs local_)

/-- The names of the attributes of a start tag. -/
def startNames (s : XmlnsStack) (name : QName) (attrs : List XmlAttr) : List (List Char) :=
  attrs.map (fun attr => ((s.frame name attrs).2.formatQName attr.name true).toList) ++
    (s.frame name attrs).1.map fun new => xmlnsName new.1

theorem xmlnsName_of_ne {pre : String} (nonempty : pre ≠ "") :
    xmlnsName pre = "xmlns".toList ++ ':' :: pre.toList := by
  unfold xmlnsName
  rw [if_neg nonempty]
  rfl

theorem isName_startNames (named : s.Named) (name : QName)
    (local_ : ∀ attr ∈ attrs, IsNCName attr.name.localPart) :
    ∀ printed ∈ s.startNames name attrs, IsName printed := by
  intro printed listed
  rcases List.mem_append.mp listed with here | here
  · obtain ⟨attr, inside, rfl⟩ := List.mem_map.mp here
    exact isName_formatQName (named.frame name local_) (local_ attr inside) true
  · obtain ⟨new, inside, rfl⟩ := List.mem_map.mp here
    have ncName := ((added_frame s name attrs).free _ (List.mem_map_of_mem inside)).2
    rw [xmlnsName_of_ne ncName.ne_empty]
    refine ⟨by decide, fun ch later => ?_⟩
    rcases List.mem_append.mp later with front | behind
    · have letters : ∀ ch ∈ ['m', 'l', 'n', 's'], isNameChar ch = true :=
        List.all_eq_true.mp (by decide)
      exact letters ch front
    rcases List.mem_cons.mp behind with rfl | behind
    · decide
    · exact ncName.1.chars ch behind

/-- An attribute that is printed as a declaration is one. -/
theorem eq_of_xmlnsName {printed : QName} {pre : String} (named : s.Named)
    (local_ : IsNCName printed.localPart) (found : (s.prefixForNs printed.ns true).isSome = true)
    (ncName : IsNCName pre) (same : (s.formatQName printed true).toList = xmlnsName pre) :
    printed = ⟨nsXmlns, pre⟩ := by
  have declared : s.prefixForNs nsXmlns true = some "xmlns" := by
    unfold prefixForNs
    rw [if_neg (by decide), if_pos rfl]
  refine formatQName_inj named local_ ncName found (by rw [declared]; rfl) ?_
  refine String.toList_inj.mp (same.trans ?_)
  rw [xmlnsName_of_ne ncName.ne_empty, formatQName]
  dsimp only
  rw [declared, Option.getD_some, if_neg (by decide), String.toList_append, String.toList_append,
    List.append_assoc]
  rfl

/-- No two attributes of a start tag have one name. -/
theorem startNames_nodup (named : s.Named) (name : QName)
    (local_ : ∀ attr ∈ attrs, IsNCName attr.name.localPart)
    (distinct : (attrs.map XmlAttr.name).Nodup) : (s.startNames name attrs).Nodup := by
  have added := added_frame s name attrs
  have inside := named.frame name local_
  have found : ∀ attr ∈ attrs, ((s.frame name attrs).2.prefixForNs attr.name.ns true).isSome = true :=
    fun attr listed => added.found (attr.name.ns, true)
      (List.mem_cons_of_mem _ (List.mem_map_of_mem listed))
  refine List.nodup_append.mpr ⟨?_, ?_, ?_⟩
  · rw [show (fun attr : XmlAttr => ((s.frame name attrs).2.formatQName attr.name true).toList) =
      (fun printed => ((s.frame name attrs).2.formatQName printed true).toList) ∘ XmlAttr.name
        from rfl, ← List.map_map, List.nodup_map_iff_inj_on distinct]
    intro first listed second listed' same
    obtain ⟨attr, here, rfl⟩ := List.mem_map.mp listed
    obtain ⟨attr', here', rfl⟩ := List.mem_map.mp listed'
    exact formatQName_inj inside (local_ attr here) (local_ attr' here') (found attr here)
      (found attr' here') (String.toList_inj.mp same)
  · rw [show (fun new : String × String => xmlnsName new.1) = xmlnsName ∘ Prod.fst from rfl,
      ← List.map_map, List.nodup_map_iff_inj_on added.distinct]
    intro first listed second listed' same
    rw [xmlnsName_of_ne (added.free first listed).2.ne_empty,
      xmlnsName_of_ne (added.free second listed').2.ne_empty] at same
    exact String.toList_inj.mp (List.cons.inj (List.append_cancel_left same)).2
  · intro printed here other declared same
    subst same
    obtain ⟨attr, listed, rfl⟩ := List.mem_map.mp here
    obtain ⟨new, fresh, same⟩ := List.mem_map.mp declared
    obtain ⟨free, ncName⟩ := added.free _ (List.mem_map_of_mem fresh)
    have is := eq_of_xmlnsName inside (local_ attr listed) (found attr listed) ncName same.symm
    obtain ⟨attrName, value⟩ := attr
    dsimp only at is
    subst is
    exact not_free_addAttrs listed free

end XmlnsStack

/-! ## Tags -/

variable {name text input rest value : List Char}

theorem IsName.noReturn (named : IsName name) : '\r' ∉ name := fun listed =>
  absurd (named.chars _ listed) (by decide)

/-- Line ends behind a name. -/
theorem normalizeLineEnds_name (named : IsName name) (rest : List Char) :
    normalizeLineEnds (name ++ rest) = name ++ normalizeLineEnds rest := by
  have noFeed : '\n' ∉ name := fun listed => absurd (named.chars _ listed) (by decide)
  refine normalizeFrom_plain noFeed (IsName.noReturn named) ?_ false rest
  rintro rfl
  exact named

theorem normalizeLineEnds_pair (named : IsName name) (value rest : List Char) :
    normalizeLineEnds (printPair name value ++ rest) =
      ' ' :: (name ++ '=' :: '"' :: (normalizeLineEnds value ++ '"' :: normalizeLineEnds rest)) := by
  rw [printPair, List.cons_append, List.append_assoc, normalizeLineEnds_cons (by decide),
    normalizeLineEnds_name named, List.cons_append, List.cons_append,
    normalizeLineEnds_cons (by decide), normalizeLineEnds_cons (by decide), List.append_assoc,
    List.singleton_append, normalizeLineEnds_append (by decide), normalizeLineEnds_cons (by decide)]

/-- An attribute is read if its value is. -/
theorem readAttrs_pair {P : Prop} (named : IsName name) {printed : List Char}
    (reads : ∀ input behind,
      many (nextValue '"') (normalizeLineEnds printed ++ '"' :: input) = some (value, behind) ↔
        P ∧ behind = '"' :: input)
    {more : List (List Char × List Char)} {behind : List Char} :
    many nextAttr (normalizeLineEnds (printPair name printed ++ rest)) =
        some ((name, value) :: more, behind) ↔
      P ∧ many nextAttr (normalizeLineEnds rest) = some (more, behind) := by
  rw [normalizeLineEnds_pair named, readAttrs_cons named]
  constructor
  · intro read
    obtain ⟨⟨value', end_⟩, here, later⟩ := Option.bind_eq_some_iff.mp read
    obtain ⟨⟨more', behind'⟩, others, same⟩ := Option.map_eq_some_iff.mp later
    cases same
    obtain ⟨holds, rfl⟩ := (reads _ _).mp here
    exact ⟨holds, others⟩
  · rintro ⟨holds, others⟩
    rw [(reads _ _).mpr ⟨holds, rfl⟩, Option.bind_some]
    show (many nextAttr (normalizeLineEnds rest)).map _ = _
    rw [others]
    rfl

theorem value_printed (value : String) (input behind : List Char) :
    many (nextValue '"') (normalizeLineEnds (printQuotedValue value.toList) ++ '"' :: input) =
        some (value.toList, behind) ↔
      ValueClear value.toList ∧ behind = '"' :: input := by
  rw [printQuotedValue, printEscaped_eq, normalizeLineEnds, quotedEscape_escapes.normalized,
    value_escaped, ← normalizeLineEnds]
  constructor
  · intro read
    obtain ⟨same, rfl⟩ := Prod.mk.inj (Option.some.inj read)
    exact ⟨spaced_normalizeLineEnds.mp same, rfl⟩
  · rintro ⟨clear, rfl⟩
    rw [spaced_normalizeLineEnds.mpr clear]

theorem value_declared (ns : String) (input behind : List Char) :
    many (nextValue '"') (normalizeLineEnds ns.toList ++ '"' :: input) = some (ns.toList, behind) ↔
      NsClear ns.toList ∧ behind = '"' :: input :=
  value_raw_iff

variable {s : XmlnsStack} {attrs : List XmlAttr} {new : List (String × String)}
  {more : List (List Char × List Char)} {behind : List Char}

/-- The attributes are read back if and only if their values are clear. -/
theorem readAttrs_attrs (named : ∀ attr ∈ attrs, IsName (s.formatQName attr.name true).toList) :
    many nextAttr (normalizeLineEnds (attrs.flatMap (printAttr s) ++ rest)) =
        some (attrs.map (fun attr =>
          ((s.formatQName attr.name true).toList, attr.value.toList)) ++ more, behind) ↔
      (∀ attr ∈ attrs, ValueClear attr.value.toList) ∧
        many nextAttr (normalizeLineEnds rest) = some (more, behind) := by
  induction attrs with
  | nil =>
    rw [List.flatMap_nil, List.nil_append, List.map_nil, List.nil_append]
    exact ⟨fun read => ⟨fun _ listed => absurd listed List.not_mem_nil, read⟩, fun both => both.2⟩
  | cons attr attrs ih =>
    have later := ih fun other listed => named other (List.mem_cons_of_mem _ listed)
    rw [List.flatMap_cons, List.append_assoc, List.map_cons, List.cons_append, printAttr,
      readAttrs_pair (named attr List.mem_cons_self) (value_printed attr.value), later,
      List.forall_mem_cons, and_assoc]

/-- So are the namespaces that are declared. -/
theorem readAttrs_new (named : ∀ decl ∈ new, IsName (xmlnsName decl.1)) :
    many nextAttr (normalizeLineEnds (new.flatMap printXmlns ++ rest)) =
        some (new.map (fun decl => (xmlnsName decl.1, decl.2.toList)) ++ more, behind) ↔
      (∀ decl ∈ new, NsClear decl.2.toList) ∧
        many nextAttr (normalizeLineEnds rest) = some (more, behind) := by
  induction new with
  | nil =>
    rw [List.flatMap_nil, List.nil_append, List.map_nil, List.nil_append]
    exact ⟨fun read => ⟨fun _ listed => absurd listed List.not_mem_nil, read⟩, fun both => both.2⟩
  | cons decl new ih =>
    have later := ih fun other listed => named other (List.mem_cons_of_mem _ listed)
    rw [List.flatMap_cons, List.append_assoc, List.map_cons, List.cons_append, printXmlns,
      readAttrs_pair (named decl List.mem_cons_self) (value_declared decl.2), later,
      List.forall_mem_cons, and_assoc]

/-- The end of a start tag. -/
def closing (closed : Bool) : List Char :=
  if closed = true then ['/', '>'] else ['>']

/-- The attributes of a start tag as they are printed. -/
def printAttrs (s : XmlnsStack) (name : QName) (attrs : List XmlAttr) : List Char :=
  attrs.flatMap (printAttr (s.frame name attrs).2) ++ (s.frame name attrs).1.flatMap printXmlns

/-- Behind the name of a start tag is no character of a name. -/
theorem printAttrs_begins (s : XmlnsStack) (name : QName) (attrs : List XmlAttr) (closed : Bool)
    (tail : List Char) :
    ∃ c behind, printAttrs s name attrs ++ (closing closed ++ tail) = c :: behind ∧
      isNameChar c = false ∧ c ≠ '\r' := by
  unfold printAttrs
  cases attrs with
  | cons attr attrs => exact ⟨' ', _, rfl, by decide, by decide⟩
  | nil =>
    cases (s.frame name []).1 with
    | cons decl new => exact ⟨' ', _, rfl, by decide, by decide⟩
    | nil =>
      cases closed with
      | false => exact ⟨'>', _, rfl, by decide, by decide⟩
      | true => exact ⟨'/', _, rfl, by decide, by decide⟩

/-- The tag that is read has the attributes that have been read. -/
theorem endStart_attrs {name' : List Char} {attrs attrs' : List (List Char × List Char)}
    {closed : Bool} (found : endStart name attrs input = some (.start name' attrs' closed, rest)) :
    attrs = attrs' := by
  unfold endStart at found
  split at found
  · split at found
    · cases found
      rfl
    · obtain ⟨behind, -, same⟩ := Option.map_eq_some_iff.mp found
      cases same
      rfl
  · cases found

theorem endStart_closing {attrs : List (List Char × List Char)} (closed : Bool)
    (distinct : (attrs.map Prod.fst).Nodup) (tail : List Char) :
    endStart name attrs (closing closed ++ tail) = some (.start name attrs closed, tail) := by
  cases closed with
  | false => exact (endStart_open distinct tail).1
  | true => exact (endStart_open distinct tail).2

theorem normalizeLineEnds_closing (closed : Bool) (tail : List Char) :
    normalizeLineEnds (closing closed ++ tail) = closing closed ++ normalizeLineEnds tail := by
  cases closed with
  | false => exact normalizeLineEnds_cons (by decide) tail
  | true =>
    refine (normalizeLineEnds_cons (by decide) ('>' :: tail)).trans ?_
    rw [normalizeLineEnds_cons (by decide)]
    rfl

theorem readAttrs_closing (closed : Bool) (tail : List Char) :
    many nextAttr (closing closed ++ tail) = some ([], closing closed ++ tail) := by
  cases closed with
  | false => exact readAttrs_end (.inl rfl) tail
  | true => exact readAttrs_end (.inr rfl) ('>' :: tail)

/-- A start tag is read back if and only if its values and the namespaces that it declares are
clear. -/
theorem readMarkup_startOf {name : QName} (named : s.Named) (local_ : IsNCName name.localPart)
    (locals : ∀ attr ∈ attrs, IsNCName attr.name.localPart)
    (distinct : (attrs.map XmlAttr.name).Nodup) (closed : Bool) (tail rest : List Char) :
    readMarkup (normalizeLineEnds ('<' :: (((s.frame name attrs).2.formatQName name false).toList ++
        (printAttrs s name attrs ++ (closing closed ++ tail))))) =
        some (startOf s name attrs closed, rest) ↔
      ((∀ attr ∈ attrs, ValueClear attr.value.toList) ∧
        ∀ decl ∈ (s.frame name attrs).1, NsClear decl.2.toList) ∧ rest = normalizeLineEnds tail := by
  have isName := XmlnsStack.isName_formatQName (named.frame name locals) local_ false
  have names := XmlnsStack.isName_startNames named name locals
  have nodup := XmlnsStack.startNames_nodup named name locals distinct
  obtain ⟨c, behind, begins, stop, noReturn⟩ := printAttrs_begins s name attrs closed tail
  have expected : ((attrs.map fun attr =>
      (((s.frame name attrs).2.formatQName attr.name true).toList, attr.value.toList)) ++
        (s.frame name attrs).1.map fun decl => (xmlnsName decl.1, decl.2.toList)).map Prod.fst =
      s.startNames name attrs := by
    rw [List.map_append, List.map_map, List.map_map]
    rfl
  -- The attributes first, then the declarations, then the end of the tag.
  have reads : ∀ end_, many nextAttr (normalizeLineEnds (printAttrs s name attrs ++
      (closing closed ++ tail))) = some ((attrs.map fun attr =>
      (((s.frame name attrs).2.formatQName attr.name true).toList, attr.value.toList)) ++
        (s.frame name attrs).1.map fun decl => (xmlnsName decl.1, decl.2.toList), end_) ↔
      ((∀ attr ∈ attrs, ValueClear attr.value.toList) ∧
        ∀ decl ∈ (s.frame name attrs).1, NsClear decl.2.toList) ∧
          end_ = closing closed ++ normalizeLineEnds tail := by
    intro end_
    have attrNames : ∀ attr ∈ attrs,
        IsName ((s.frame name attrs).2.formatQName attr.name true).toList :=
      fun attr listed => names _ (List.mem_append_left _ (List.mem_map_of_mem listed))
    have newNames : ∀ decl ∈ (s.frame name attrs).1, IsName (xmlnsName decl.1) :=
      fun decl listed => names _ (List.mem_append_right _ (List.mem_map_of_mem listed))
    rw [printAttrs, List.append_assoc, readAttrs_attrs attrNames, ← List.append_nil (List.map _ _),
      readAttrs_new newNames, normalizeLineEnds_closing, readAttrs_closing, and_assoc]
    constructor
    · rintro ⟨values, spaces, same⟩
      exact ⟨values, spaces, (Prod.mk.inj (Option.some.inj same)).2.symm⟩
    · rintro ⟨values, spaces, rfl⟩
      exact ⟨values, spaces, rfl⟩
  rw [normalizeLineEnds_cons (by decide), normalizeLineEnds_name isName]
  rw [begins, normalizeLineEnds_cons noReturn] at reads ⊢
  rw [readMarkup_start isName stop]
  constructor
  · intro read
    obtain ⟨⟨found, end_⟩, here, ended⟩ := Option.bind_eq_some_iff.mp read
    have same := endStart_attrs ended
    dsimp only at same
    subst same
    obtain ⟨clear, rfl⟩ := (reads end_).mp here
    rw [endStart_closing closed (expected ▸ nodup)] at ended
    exact ⟨clear, (Prod.mk.inj (Option.some.inj ended)).2.symm⟩
  · rintro ⟨clear, rfl⟩
    rw [(reads _).mpr ⟨clear, rfl⟩, Option.bind_some]
    exact endStart_closing closed (expected ▸ nodup) _

/-! ## Pieces -/

/-- A piece of a run of texts and a tag. -/
theorem readPiece_run {c : Char} (plain : c ≠ '!' ∧ c ≠ '\r') (cdata : Bool)
    (texts : List (List Char)) (tail : List Char) {markup : Markup} :
    readPiece (normalizeLineEnds (texts.flatMap (printText cdata) ++ '<' :: c :: tail)) =
        some (⟨texts.flatten, markup⟩, rest) ↔
      (∀ text ∈ texts, TextClear cdata text) ∧
        readMarkup (normalizeLineEnds ('<' :: c :: tail)) = some (markup, rest) := by
  have tag : (c :: normalizeLineEnds tail).head? ≠ some '!' := fun same =>
    plain.1 (Option.some.inj same)
  have behind : normalizeLineEnds ('<' :: c :: tail) = '<' :: c :: normalizeLineEnds tail := by
    rw [normalizeLineEnds_cons (by decide), normalizeLineEnds_cons plain.2]
  rw [normalizeLineEnds_append (by decide), behind, readPiece]
  constructor
  · intro read
    obtain ⟨⟨found, middle⟩, before, read⟩ := Option.bind_eq_some_iff.mp read
    obtain ⟨⟨tagFound, end_⟩, marked, same⟩ := Option.map_eq_some_iff.mp read
    cases same
    obtain ⟨clear, rfl⟩ := (readText_run tag cdata texts middle).mp before
    exact ⟨clear, marked⟩
  · rintro ⟨clear, marked⟩
    rw [(readText_run tag cdata texts _).mpr ⟨clear, rfl⟩, Option.bind_some, marked]
    rfl

theorem readMarkup_printed_close (named : IsName name) (tail : List Char) :
    readMarkup (normalizeLineEnds ('<' :: '/' :: (name ++ '>' :: tail))) =
      some (.close name, normalizeLineEnds tail) := by
  rw [normalizeLineEnds_cons (by decide), normalizeLineEnds_cons (by decide),
    normalizeLineEnds_name named, normalizeLineEnds_cons (by decide)]
  exact readMarkup_close named _

/-! ## Elements -/

/-- Induction on elements and lists of children. -/
theorem XmlElement.induct {P : XmlElement → Prop} {Q : List XmlChild → Prop}
    (mk : ∀ name attrs cdata children, Q children → P (.mk name attrs cdata children))
    (nil : Q []) (text : ∀ text rest, Q rest → Q (.text text :: rest))
    (element : ∀ e rest, P e → Q rest → Q (.element e :: rest)) (e : XmlElement) : P e :=
  @XmlElement.rec P (fun child => ∀ rest, Q rest → Q (child :: rest)) Q mk text
    (fun e isP rest isQ => element e rest isP isQ) nil (fun _ _ here later => here _ later) e

/-- The stack is as before. -/
theorem printElement_snd (e : XmlElement) (s : XmlnsStack) : (printElement e s).2 = s := by
  induction e using XmlElement.induct (Q := fun children => ∀ cdata s,
    (printChildren cdata children s).2 = s) generalizing s with
  | mk name attrs cdata children ih =>
    rw [printElement]
    split
    · exact XmlnsStack.popFrame_frame s name attrs
    · dsimp only
      rw [ih]
      exact XmlnsStack.popFrame_frame s name attrs
  | nil cdata s => rw [printChildren]
  | text text rest ih cdata s =>
    rw [printChildren]
    exact ih cdata s
  | element e rest ihe ih cdata s =>
    rw [printChildren]
    dsimp only
    rw [ihe]
    exact ih cdata s

theorem printChildren_snd (cdata : Bool) (children : List XmlChild) (s : XmlnsStack) :
    (printChildren cdata children s).2 = s := by
  induction children with
  | nil => rw [printChildren]
  | cons child rest ih =>
    cases child with
    | text text =>
      rw [printChildren]
      exact ih
    | element e =>
      rw [printChildren]
      dsimp only
      rw [printElement_snd]
      exact ih

/-- What is printed of an element, and what is behind. -/
theorem printElement_fst (name : QName) (attrs : List XmlAttr) (cdata : Bool)
    (children : List XmlChild) (s : XmlnsStack) (tail : List Char) :
    (printElement (.mk name attrs cdata children) s).1 ++ tail =
      '<' :: (((s.frame name attrs).2.formatQName name false).toList ++
        (printAttrs s name attrs ++ (closing children.isEmpty ++
          (if children.isEmpty = true then tail
          else (printChildren cdata children (s.frame name attrs).2).1 ++
            '<' :: '/' :: (((s.frame name attrs).2.formatQName name false).toList ++
              '>' :: tail))))) := by
  rw [printElement]
  by_cases empty : children.isEmpty = true
  · rw [if_pos empty, if_pos empty, empty]
    simp only [printAttrs, closing, if_true, List.append_assoc, List.cons_append]
  · rw [if_neg empty, if_neg empty, Bool.eq_false_iff.mpr empty]
    dsimp only
    rw [printChildren_snd]
    simp [printAttrs, closing]

/-- What is to be shown of the children of an element behind a run of texts. -/
def ChildrenRead (children : List XmlChild) : Prop :=
  XmlElement.EverywhereIn XmlElement.HereNamed children →
    ∀ (s : XmlnsStack) (cdata : Bool) (texts : List (List Char)) (close tail rest : List Char),
      s.Named → IsName close →
      (Reads (normalizeLineEnds (texts.flatMap (printText cdata) ++
          ((printChildren cdata children s).1 ++ '<' :: '/' :: (close ++ '>' :: tail))))
          (reportChildren s texts.flatten close children) rest ↔
        (∀ text ∈ texts, TextClear cdata text) ∧ ChildrenClear s cdata children ∧
          rest = normalizeLineEnds tail)

/-- A start tag behind a run of texts. -/
theorem readPiece_name (named : IsName name) (cdata : Bool) (texts : List (List Char))
    (tail : List Char) {markup : Markup} :
    readPiece (normalizeLineEnds (texts.flatMap (printText cdata) ++ '<' :: (name ++ tail))) =
        some (⟨texts.flatten, markup⟩, rest) ↔
      (∀ text ∈ texts, TextClear cdata text) ∧
        readMarkup (normalizeLineEnds ('<' :: (name ++ tail))) = some (markup, rest) := by
  obtain ⟨first, others, begins, -, -, noBang, -, -⟩ := named.head
  have noReturn : first ≠ '\r' := by
    rintro rfl
    exact IsName.noReturn named (begins ▸ List.mem_cons_self)
  rw [begins, List.cons_append]
  exact readPiece_run ⟨noBang, noReturn⟩ cdata texts _

/-- An element is read back behind a run of texts if and only if they and the element are clear. -/
theorem reads_element {e : XmlElement} (named : e.Named) (scope : s.Named) (cdata : Bool)
    (texts : List (List Char)) (tail rest : List Char) :
    Reads (normalizeLineEnds (texts.flatMap (printText cdata) ++ ((printElement e s).1 ++ tail)))
        (report s texts.flatten e) rest ↔
      (∀ text ∈ texts, TextClear cdata text) ∧ ClearIn s e ∧ rest = normalizeLineEnds tail := by
  induction e using XmlElement.induct (Q := ChildrenRead)
    generalizing s cdata texts tail rest with
  | mk name attrs cdata' children ih =>
    obtain ⟨here, inside⟩ := named
    have local_ : IsNCName name.localPart := here.isNCName
    have locals : ∀ attr ∈ attrs, IsNCName attr.name.localPart := here.attrs
    have distinct : (attrs.map XmlAttr.name).Nodup := here.distinct
    have frame := scope.frame name locals
    have isName := XmlnsStack.isName_formatQName frame local_ false
    rw [printElement_fst, report, Reads, ClearIn]
    simp only [readPiece_name isName, readMarkup_startOf scope local_ locals distinct]
    cases children with
    | nil =>
      constructor
      · rintro ⟨middle, ⟨clear, ⟨values, news⟩, rfl⟩, later⟩
        exact ⟨clear, ⟨values, news, trivial⟩, later.symm⟩
      · rintro ⟨clear, ⟨values, news, -⟩, rfl⟩
        exact ⟨_, ⟨clear, ⟨values, news⟩, rfl⟩, rfl⟩
    | cons child children =>
      have within := ih inside (s.frame name attrs).2 cdata' [] _ tail rest frame isName
      constructor
      · rintro ⟨middle, ⟨clear, ⟨values, news⟩, rfl⟩, later⟩
        obtain ⟨-, childrenClear, same⟩ := within.mp later
        exact ⟨clear, ⟨values, news, childrenClear⟩, same⟩
      · rintro ⟨clear, ⟨values, news, childrenClear⟩, same⟩
        refine ⟨_, ⟨clear, ⟨values, news⟩, rfl⟩, within.mpr ⟨?_, childrenClear, same⟩⟩
        exact fun _ listed => absurd listed List.not_mem_nil
  | nil =>
    intro _ s cdata texts close tail rest scope isName
    rw [printChildren, List.nil_append, reportChildren, ChildrenClear, Reads]
    simp only [readPiece_run (c := '/') ⟨by decide, by decide⟩, readMarkup_printed_close isName]
    constructor
    · rintro ⟨middle, ⟨clear, same⟩, later⟩
      cases same
      exact ⟨clear, trivial, later.symm⟩
    · rintro ⟨clear, -, rfl⟩
      exact ⟨_, ⟨clear, rfl⟩, rfl⟩
  | text text more ih =>
    intro named s cdata texts close tail rest scope isName
    have later := ih named s cdata (texts ++ [text.toList]) close tail rest scope isName
    rw [printChildren, reportChildren, ChildrenClear]
    rw [List.flatMap_append, List.flatMap_singleton, List.flatten_append, List.flatten_singleton,
      List.append_assoc, List.forall_mem_append, List.forall_mem_singleton, and_assoc] at later
    rw [List.append_assoc, later, and_assoc]
  | element e more ihe ih =>
    intro named s cdata texts close tail rest scope isName
    have first := fun middle => ihe named.1 scope cdata texts
      ((printChildren cdata more s).1 ++ '<' :: '/' :: (close ++ '>' :: tail)) middle
    have later := ih named.2 s cdata [] close tail rest scope isName
    rw [printChildren, reportChildren, ChildrenClear, reads_append]
    dsimp only
    rw [printElement_snd, List.append_assoc]
    simp only [first]
    constructor
    · rintro ⟨middle, ⟨clear, elementClear, rfl⟩, behind⟩
      obtain ⟨-, childrenClear, same⟩ := later.mp behind
      exact ⟨clear, ⟨elementClear, childrenClear⟩, same⟩
    · rintro ⟨clear, ⟨elementClear, childrenClear⟩, same⟩
      refine ⟨_, ⟨clear, elementClear, rfl⟩, later.mpr ⟨?_, childrenClear, same⟩⟩
      exact fun _ listed => absurd listed List.not_mem_nil

/-! ## Documents -/

/-- The tags of an element close what they open. -/
theorem closes_report (e : XmlElement) {pieces : List Piece} {opened : List (List Char)}
    (open_ : opened ≠ []) (closes : Closes opened pieces) (s : XmlnsStack) (text : List Char) :
    Closes opened (report s text e ++ pieces) := by
  induction e using XmlElement.induct (Q := fun children => ∀ (s : XmlnsStack)
      (text close : List Char) {pieces : List Piece} {opened : List (List Char)},
      Closes opened pieces → Closes (close :: opened) (reportChildren s text close children ++ pieces))
    generalizing pieces opened s text with
  | mk name attrs cdata children ih =>
    rw [report, List.cons_append]
    refine ⟨open_, ?_⟩
    by_cases empty : children.isEmpty = true
    · rw [if_pos empty, startOf, empty]
      exact ⟨opened, rfl, closes⟩
    · rw [if_neg empty, startOf, Bool.eq_false_iff.mpr empty]
      exact ⟨_, rfl, ih _ _ _ closes⟩
  | nil s text close closes =>
    rw [reportChildren]
    exact ⟨List.cons_ne_nil _ _, _, if_pos rfl, closes⟩
  | text more rest ih s text close closes =>
    rw [reportChildren]
    exact ih _ _ _ closes
  | element e rest ihe ih s text close closes =>
    rw [reportChildren, List.append_assoc]
    exact ihe (List.cons_ne_nil _ _) (ih _ _ _ closes) _ _

theorem closes_reportChildren (children : List XmlChild) {pieces : List Piece}
    {opened : List (List Char)} (closes : Closes opened pieces) (s : XmlnsStack)
    (text close : List Char) :
    Closes (close :: opened) (reportChildren s text close children ++ pieces) := by
  induction children generalizing text with
  | nil =>
    rw [reportChildren]
    exact ⟨List.cons_ne_nil _ _, _, if_pos rfl, closes⟩
  | cons child rest ih =>
    cases child with
    | text more =>
      rw [reportChildren]
      exact ih _
    | element e =>
      rw [reportChildren, List.append_assoc]
      exact closes_report e (List.cons_ne_nil _ _) (ih _) _ _

/-- A root is read as a piece that has no text before it. -/
theorem readRoot_report {e : XmlElement} (named : e.Named) (scope : s.Named) :
    readRoot (normalizeLineEnds (printElement e s).1) = some (report s [] e, rest) ↔
      ClearIn s e ∧ rest = [] := by
  have reads := reads_element named scope false [] [] rest
  rw [List.flatMap_nil, List.nil_append] at reads
  have only : ∀ text ∈ ([] : List (List Char)), TextClear false text :=
    fun _ listed => absurd listed List.not_mem_nil
  obtain ⟨name, attrs, cdata, children⟩ := e
  have frame := scope.frame name named.1.attrs
  have isName := XmlnsStack.isName_formatQName frame named.1.isNCName false
  have printed := printElement_fst name attrs cdata children s []
  rw [printed] at reads
  rw [List.append_nil] at printed
  rw [List.flatten_nil, report, Reads] at reads
  rw [printed, report, startOf, readRoot_iff, ← startOf]
  have piece : ∀ {tail middle : List Char} {markup : Markup},
      readPiece (normalizeLineEnds ('<' ::
          (((s.frame name attrs).2.formatQName name false).toList ++ tail))) =
          some (⟨[], markup⟩, middle) ↔
        readMarkup (normalizeLineEnds ('<' ::
          (((s.frame name attrs).2.formatQName name false).toList ++ tail))) = some (markup, middle) := by
    intro tail middle markup
    exact (readPiece_name isName false [] tail).trans
      ⟨fun both => both.2, fun marked => ⟨only, marked⟩⟩
  constructor
  · rintro ⟨middle, marked, later, -⟩
    exact (reads.mp ⟨middle, piece.mpr marked, later⟩).2
  · rintro ⟨clear, same⟩
    obtain ⟨middle, read, later⟩ := reads.mpr ⟨only, clear, same⟩
    refine ⟨middle, piece.mp read, later, ?_⟩
    by_cases empty : children.isEmpty = true
    · rw [if_pos empty, if_pos empty]
      rfl
    · rw [if_neg empty, if_neg empty]
      have closes := closes_reportChildren children (show Closes [] [] from rfl)
        (s.frame name attrs).2 [] ((s.frame name attrs).2.formatQName name false).toList
      rwa [List.append_nil] at closes

theorem all_isChar_name (named : IsName name) : name.all isChar = true :=
  List.all_eq_true.mpr fun c listed => isChar_of_isNameChar (named.chars c listed)

theorem all_isChar_pair (named : IsName name) (allowed : value.all isChar = true) :
    (printPair name value).all isChar = true := by
  have quote : isChar ' ' = true ∧ isChar '=' = true ∧ isChar '"' = true := by decide
  simp only [printPair, List.all_cons, List.all_append, List.all_nil, all_isChar_name named, allowed,
    quote, Bool.and_self]

theorem all_isChar_printText (cdata : Bool) {text : String} (allowed : Allowed text) :
    (printText cdata text.toList).all isChar = true := by
  cases cdata with
  | false =>
    rw [printText, if_neg (by decide), printBodyText, printEscaped_eq]
    exact bodyEscape_escapes.all_isChar allowed
  | true =>
    rw [printText, if_pos rfl, printCDATAText, List.all_append, List.all_append,
      List.all_eq_true.mpr allowed]
    decide

theorem all_isChar_printAttrs (scope : s.Named) (name : QName)
    (locals : ∀ attr ∈ attrs, IsNCName attr.name.localPart) (allowedNs : Allowed name.ns)
    (allowed : ∀ attr ∈ attrs, Allowed attr.name.ns ∧ Allowed attr.value) :
    (printAttrs s name attrs).all isChar = true := by
  have names := XmlnsStack.isName_startNames scope name locals
  have added := XmlnsStack.added_frame s name attrs
  rw [printAttrs, List.all_append, Bool.and_eq_true]
  constructor
  · rw [List.all_flatMap, List.all_eq_true]
    intro attr listed
    have isName := names _ (List.mem_append_left _ (List.mem_map_of_mem listed))
    refine all_isChar_pair isName ?_
    rw [printQuotedValue, printEscaped_eq]
    exact quotedEscape_escapes.all_isChar (allowed attr listed).2
  · rw [List.all_flatMap, List.all_eq_true]
    intro decl listed
    have isName := names _ (List.mem_append_right _ (List.mem_map_of_mem listed))
    refine all_isChar_pair isName (List.all_eq_true.mpr ?_)
    have ns := added.ns decl listed
    rw [List.map_cons, List.map_map] at ns
    rcases List.mem_cons.mp ns with same | other
    · rw [same]
      exact allowedNs
    · obtain ⟨attr, inside, same⟩ := List.mem_map.mp other
      rw [← same]
      exact (allowed attr inside).1

/-- The characters that are printed are allowed. -/
theorem all_isChar_printElement {e : XmlElement} (named : e.Named) (allowed : e.Allowed)
    (scope : s.Named) : (printElement e s).1.all isChar = true := by
  induction e using XmlElement.induct (Q := fun children =>
      XmlElement.EverywhereIn XmlElement.HereNamed children →
      XmlElement.EverywhereIn XmlElement.HereAllowed children →
      (∀ text, .text text ∈ children → Allowed text) → ∀ (cdata : Bool) (s : XmlnsStack), s.Named →
      (printChildren cdata children s).1.all isChar = true) generalizing s with
  | mk name attrs cdata children ih =>
    have locals : ∀ attr ∈ attrs, IsNCName attr.name.localPart := named.1.attrs
    have frame := scope.frame name locals
    have isName : IsName ((s.frame name attrs).2.formatQName name false).toList :=
      XmlnsStack.isName_formatQName frame named.1.isNCName false
    have printed := printElement_fst name attrs cdata children s []
    rw [List.append_nil] at printed
    have start := all_isChar_printAttrs scope name locals allowed.1.ns allowed.1.attrs
    have marks : isChar '<' = true ∧ isChar '/' = true ∧ isChar '>' = true := by decide
    have inside := ih named.2 allowed.2 allowed.1.texts cdata _ frame
    rw [printed, List.all_cons, List.all_append, List.all_append, List.all_append,
      all_isChar_name isName, start]
    by_cases empty : children.isEmpty = true
    · rw [if_pos empty, empty]
      decide
    · rw [if_neg empty, Bool.eq_false_iff.mpr empty]
      simp only [closing, List.all_append, List.all_cons, List.all_nil, inside,
        all_isChar_name isName, marks, Bool.and_self, if_neg Bool.false_ne_true]
  | nil _ _ _ cdata s scope =>
    rw [printChildren]
    rfl
  | text text rest ih named allowed texts cdata s scope =>
    rw [printChildren, List.all_append, Bool.and_eq_true]
    exact ⟨all_isChar_printText cdata (texts text List.mem_cons_self),
      ih named allowed (fun other listed => texts other (List.mem_cons_of_mem _ listed)) cdata s scope⟩
  | element e rest ihe ih named allowed texts cdata s scope =>
    rw [printChildren]
    dsimp only
    rw [List.all_append, Bool.and_eq_true, printElement_snd]
    exact ⟨ihe named.1 allowed.1 scope, ih named.2 allowed.2
      (fun other listed => texts other (List.mem_cons_of_mem _ listed)) cdata s scope⟩

theorem clearIn_of_survivesIn {e : XmlElement} (named : e.Named) (scope : s.Named)
    (survives : SurvivesIn s e) : ClearIn s e := by
  unfold SurvivesIn readDocument printXml at survives
  split at survives
  · obtain ⟨⟨pieces, rest⟩, read, same⟩ := Option.bind_eq_some_iff.mp survives
    split at same
    · cases same
      exact ((readRoot_report named scope).mp read).1
    · cases same
  · cases survives

/-- A document is read back if and only if no value has white space other than spaces, no text has a
carriage return, no text of a section has the end of one, and no namespace that has to be declared
has what would have to be escaped. -/
theorem survivesIn_iff_clear {e : XmlElement} (named : e.Named) (allowed : e.Allowed)
    (scope : s.Named) : SurvivesIn s e ↔ ClearIn s e := by
  constructor
  · exact clearIn_of_survivesIn named scope
  · intro clear
    unfold SurvivesIn readDocument printXml
    rw [if_pos (all_isChar_printElement named allowed scope),
      (readRoot_report named scope).mpr ⟨clear, rfl⟩, Option.bind_some]
    rfl

theorem named_empty : XmlnsStack.empty.Named :=
  fun _ listed => absurd listed List.not_mem_nil

/-- An element with an attribute and a text. -/
def sample (cdata : Bool) (value text : String) : XmlElement :=
  .mk ⟨"jabber:client", "message"⟩ [⟨⟨"", "id"⟩, value⟩] cdata [.text text]

theorem named_sample (cdata : Bool) (value text : String) : (sample cdata value text).Named := by
  have message : IsNCName "message" := isNCName_of_all (by decide) (by decide) (by decide)
  have id_ : IsNCName "id" := isNCName_of_all (by decide) (by decide) (by decide)
  refine ⟨⟨message, fun attr listed => ?_, List.nodup_singleton _⟩, trivial⟩
  cases List.mem_singleton.mp listed
  exact id_

theorem allowed_sample (cdata : Bool) {value text : String} (allowedValue : Allowed value)
    (allowedText : Allowed text) : (sample cdata value text).Allowed := by
  have client : Allowed "jabber:client" := List.all_eq_true.mp (by decide)
  have none : Allowed "" := fun _ listed => absurd listed List.not_mem_nil
  refine ⟨⟨client, fun attr listed => ?_, fun other listed => ?_⟩, trivial⟩
  · cases List.mem_singleton.mp listed
    exact ⟨none, allowedValue⟩
  · cases List.mem_singleton.mp listed
    exact allowedText

theorem clearIn_sample (cdata : Bool) (value text : String) :
    ClearIn .empty (sample cdata value text) ↔
      ValueClear value.toList ∧ TextClear cdata text.toList := by
  have new : (XmlnsStack.empty.frame ⟨"jabber:client", "message"⟩ [⟨⟨"", "id"⟩, value⟩]).1 =
      [("cli", "jabber:client")] := rfl
  have ns : NsClear "jabber:client".toList :=
    ⟨⟨by decide, by decide, by decide⟩, by decide, by decide, by decide⟩
  rw [sample, ClearIn, new, ChildrenClear, ChildrenClear, List.forall_mem_singleton,
    List.forall_mem_singleton]
  exact ⟨fun clear => ⟨clear.1, clear.2.2.1⟩, fun clear => ⟨clear.1, ns, clear.2, trivial⟩⟩

/-- Characters that are escaped come back. -/
theorem survives_escaped : SurvivesIn .empty (sample false "<&\">" "a]]>b\n") :=
  (survivesIn_iff_clear (named_sample _ _ _) (allowed_sample _ (List.all_eq_true.mp (by decide))
    (List.all_eq_true.mp (by decide))) named_empty).mpr ((clearIn_sample _ _ _).mpr
      ⟨⟨by decide, by decide, by decide⟩, by decide, fun cdata => Bool.noConfusion cdata⟩)

/-- A tab in a value, a carriage return in a text and the end of a section in one do not. -/
theorem not_survives_controls :
    ((sample false "\t" "").Allowed ∧ ¬ SurvivesIn .empty (sample false "\t" "")) ∧
      ((sample false "" "\r").Allowed ∧ ¬ SurvivesIn .empty (sample false "" "\r")) ∧
        (sample true "" "]]>").Allowed ∧ ¬ SurvivesIn .empty (sample true "" "]]>") := by
  have clear : ∀ {cdata : Bool} {value text : String},
      SurvivesIn .empty (sample cdata value text) →
        ValueClear value.toList ∧ TextClear cdata text.toList := fun survives =>
    (clearIn_sample _ _ _).mp (clearIn_of_survivesIn (named_sample _ _ _) named_empty survives)
  have allowed : Allowed "\t" ∧ Allowed "\r" ∧ Allowed "]]>" ∧ Allowed "" :=
    ⟨List.all_eq_true.mp (by decide), List.all_eq_true.mp (by decide),
      List.all_eq_true.mp (by decide), fun _ listed => absurd listed List.not_mem_nil⟩
  obtain ⟨tab, back, ends, none⟩ := allowed
  refine ⟨⟨allowed_sample _ tab none, fun survives => ?_⟩,
    ⟨allowed_sample _ none back, fun survives => ?_⟩, allowed_sample _ none ends, fun survives => ?_⟩
  · exact (clear survives).1.1 (by decide)
  · exact (clear survives).2.1 (by decide)
  · exact (clear survives).2.2 rfl (List.infix_refl _)

end Libjingle.Xml

import Mathlib.Algebra.Order.Ring.Nat

/-!
# Reading XML

What a processor of XML 1.0 that does not validate reports of a document: the tags with the names
and the values of their attributes, comments and instructions, and the character data before each.
Line ends are normalised first, and white space of attribute values where it is read.

A document is an element alone, that is, it has no prolog and nothing but white space behind. As no
entities are declared, references are those to characters and to the five predefined entities.
-/

namespace Libjingle.Std.XmlDocument

/-! ## Characters -/

/-- A character that a document may have. -/
def isChar (c : Char) : Bool :=
  c = '\t' || c = '\n' || c = '\r' || (0x20 ≤ c.toNat && c.toNat ≠ 0xFFFE && c.toNat ≠ 0xFFFF)

def isSpace (c : Char) : Bool :=
  c = ' ' || c = '\t' || c = '\n' || c = '\r'

/-- The first and the last of a range. -/
def inRanges (ranges : List (Nat × Nat)) (c : Char) : Bool :=
  ranges.any fun range => range.1 ≤ c.toNat && c.toNat ≤ range.2

def nameStartRanges : List (Nat × Nat) :=
  [(0x3A, 0x3A), (0x41, 0x5A), (0x5F, 0x5F), (0x61, 0x7A), (0xC0, 0xD6), (0xD8, 0xF6),
    (0xF8, 0x2FF), (0x370, 0x37D), (0x37F, 0x1FFF), (0x200C, 0x200D), (0x2070, 0x218F),
    (0x2C00, 0x2FEF), (0x3001, 0xD7FF), (0xF900, 0xFDCF), (0xFDF0, 0xFFFD), (0x10000, 0xEFFFF)]

def isNameStart (c : Char) : Bool :=
  inRanges nameStartRanges c

def isNameChar (c : Char) : Bool :=
  isNameStart c ||
    inRanges [(0x2D, 0x2E), (0x30, 0x39), (0xB7, 0xB7), (0x300, 0x36F), (0x203F, 0x2040)] c

def IsName : List Char → Prop
  | [] => False
  | c :: rest => isNameStart c = true ∧ ∀ d ∈ rest, isNameChar d = true

/-! ## Line ends -/

/-- A carriage return is a line feed, and one right behind it is dropped. -/
def normalizeFrom (behindReturn : Bool) : List Char → List Char
  | [] => []
  | c :: rest =>
      if c = '\n' ∧ behindReturn = true then normalizeFrom false rest
      else (if c = '\r' then '\n' else c) :: normalizeFrom (c = '\r') rest

def normalizeLineEnds (input : List Char) : List Char :=
  normalizeFrom false input

/-! ## Pieces of a text -/

variable {β : Type}

/-- What is behind a mark. -/
def strip (mark input : List Char) : Option (List Char) :=
  if mark.isPrefixOf input then some (input.drop mark.length) else none

/-- What is before the first mark, and what is behind. -/
def splitBefore (mark : List Char) : List Char → Option (List Char × List Char)
  | [] => none
  | c :: rest =>
      match strip mark (c :: rest) with
      | some behind => some ([], behind)
      | none => (splitBefore mark rest).map fun split => (c :: split.1, split.2)

/-- What is found one after the other, until nothing more is read. -/
def many (next : List Char → Option (List β × List Char)) (input : List Char) :
    Option (List β × List Char) :=
  match next input with
  | none => none
  | some (found, rest) =>
      if rest.length < input.length then
        (many next rest).map fun more => (found ++ more.1, more.2)
      else some ([], input)
termination_by input.length

/-! ## References -/

def digitValue (base : Nat) (c : Char) : Option Nat :=
  let value :=
    if '0' ≤ c ∧ c ≤ '9' then some (c.toNat - '0'.toNat)
    else if 'a' ≤ c ∧ c ≤ 'f' then some (c.toNat - 'a'.toNat + 10)
    else if 'A' ≤ c ∧ c ≤ 'F' then some (c.toNat - 'A'.toNat + 10)
    else none
  value.filter (· < base)

def numberValue (base : Nat) (digits : List Char) : Option Nat :=
  if digits = [] then none
  else digits.foldlM (fun value c => (digitValue base c).map (value * base + ·)) 0

/-- The character of a number that is that of one. -/
def charOfNumber (number : Nat) : Option Char :=
  if number.isValidChar then some (Char.ofNat number) else none

/-- What the name between `&` and `;` stands for. -/
def referent (name : List Char) : Option Char :=
  if name = "lt".toList then some '<'
  else if name = "gt".toList then some '>'
  else if name = "amp".toList then some '&'
  else if name = "apos".toList then some '\''
  else if name = "quot".toList then some '"'
  else
    match strip "#x".toList name with
    | some digits => ((numberValue 16 digits).bind charOfNumber).filter isChar
    | none =>
        (strip "#".toList name).bind fun digits =>
          ((numberValue 10 digits).bind charOfNumber).filter isChar

/-- The reference behind `&`. -/
def readReference (input : List Char) : Option (Char × List Char) :=
  (splitBefore [';'] input).bind fun split =>
    (referent split.1).map fun c => (c, split.2)

/-! ## Character data and values -/

def sectionStart : List Char := "<![CDATA[".toList

def sectionEnd : List Char := "]]>".toList

/-- The character data that comes next. There is none before a tag. -/
def nextText : List Char → Option (List Char × List Char)
  | [] => some ([], [])
  | c :: rest =>
      if c = '&' then (readReference rest).map fun read => ([read.1], read.2)
      else if c = '<' then
        match strip sectionStart (c :: rest) with
        | some inside => splitBefore sectionEnd inside
        | none => some ([], c :: rest)
      else if sectionEnd.isPrefixOf (c :: rest) then none
      else some ([c], rest)

def readText : List Char → Option (List Char × List Char) :=
  many nextText

/-- What comes next of a value in quotes. White space is a space. -/
def nextValue (quote : Char) : List Char → Option (List Char × List Char)
  | [] => none
  | c :: rest =>
      if c = quote then some ([], c :: rest)
      else if c = '&' then (readReference rest).map fun read => ([read.1], read.2)
      else if c = '<' then none
      else some ([if isSpace c then ' ' else c], rest)

def readValue : List Char → Option (List Char × List Char)
  | [] => none
  | quote :: rest =>
      if quote = '"' ∨ quote = '\'' then
        (many (nextValue quote) rest).map fun value => (value.1, value.2.drop 1)
      else none

/-! ## Tags -/

def readName (input : List Char) : Option (List Char × List Char) :=
  let name := input.takeWhile isNameChar
  if (name.head?.any isNameStart) = true then some (name, input.dropWhile isNameChar) else none

inductive Markup where
  /-- The flag tells whether it is an end tag, too. -/
  | start (name : List Char) (attrs : List (List Char × List Char)) (closed : Bool)
  | close (name : List Char)
  | comment (text : List Char)
  | instruction (target text : List Char)
  deriving DecidableEq, Repr

/-- The attribute that comes next. -/
def nextAttr (input : List Char) : Option (List (List Char × List Char) × List Char) :=
  let rest := input.dropWhile isSpace
  if rest.head? = some '>' ∨ rest.head? = some '/' then some ([], input)
  else if rest.length = input.length then none
  else
    (readName rest).bind fun name =>
      (strip ['='] (name.2.dropWhile isSpace)).bind fun rest =>
        (readValue (rest.dropWhile isSpace)).map fun value => ([(name.1, value.1)], value.2)

/-- The end of a start tag. No two attributes have one name. -/
def endStart (name : List Char) (attrs : List (List Char × List Char)) (input : List Char) :
    Option (Markup × List Char) :=
  if (attrs.map Prod.fst).Nodup then
    match strip "/>".toList (input.dropWhile isSpace) with
    | some rest => some (.start name attrs true, rest)
    | none =>
        (strip ">".toList (input.dropWhile isSpace)).map fun rest => (.start name attrs false, rest)
  else none

/-- A start tag behind `<`. -/
def readStart (input : List Char) : Option (Markup × List Char) :=
  (readName input).bind fun name =>
    (many nextAttr name.2).bind fun attrs => endStart name.1 attrs.1 attrs.2

/-- An end tag behind `</`. -/
def readClose (input : List Char) : Option (Markup × List Char) :=
  (readName input).bind fun name =>
    (strip ">".toList (name.2.dropWhile isSpace)).map fun rest => (.close name.1, rest)

/-- A comment behind `<!--`. Two hyphens are its end. -/
def readComment (input : List Char) : Option (Markup × List Char) :=
  (splitBefore "--".toList input).bind fun split =>
    (strip ">".toList split.2).map fun rest => (.comment split.1, rest)

/-- An instruction behind `<?`. -/
def readInstruction (input : List Char) : Option (Markup × List Char) :=
  (readName input).bind fun target =>
    (splitBefore "?>".toList target.2).bind fun split =>
      if target.1.map Char.toLower ≠ "xml".toList ∧ split.1.head?.all isSpace = true then
        some (.instruction target.1 (split.1.dropWhile isSpace), split.2)
      else none

def readMarkup (input : List Char) : Option (Markup × List Char) :=
  match strip "</".toList input with
  | some rest => readClose rest
  | none =>
      match strip "<!--".toList input with
      | some rest => readComment rest
      | none =>
          match strip "<?".toList input with
          | some rest => readInstruction rest
          | none => (strip "<".toList input).bind readStart

/-! ## Documents -/

/-- Character data and the markup behind it. -/
structure Piece where
  text : List Char
  markup : Markup
  deriving DecidableEq, Repr

def readPiece (input : List Char) : Option (Piece × List Char) :=
  (readText input).bind fun text =>
    (readMarkup text.2).map fun markup => (⟨text.1, markup.1⟩, markup.2)

/-- The names of the elements that are open, the innermost first. -/
def Markup.nest (opened : List (List Char)) : Markup → Option (List (List Char))
  | .start name _ closed => if closed = true then some opened else some (name :: opened)
  | .close name =>
      match opened with
      | [] => none
      | innermost :: outer => if innermost = name then some outer else none
  | .comment _ => some opened
  | .instruction _ _ => some opened

/-- The pieces up to the end of the outermost element that is open. -/
def readPieces (opened : List (List Char)) (input : List Char) :
    Option (List Piece × List Char) :=
  if opened = [] then some ([], input)
  else
    match readPiece input with
    | none => none
    | some (piece, rest) =>
        if rest.length < input.length then
          (piece.markup.nest opened).bind fun opened =>
            (readPieces opened rest).map fun more => (piece :: more.1, more.2)
        else none
termination_by input.length

/-- The pieces from the start tag of the root on. -/
def readRoot (input : List Char) : Option (List Piece × List Char) :=
  (readMarkup input).bind fun root =>
    match root.1 with
    | .start _ _ _ =>
        (root.1.nest []).bind fun opened =>
          (readPieces opened root.2).map fun more => (⟨[], root.1⟩ :: more.1, more.2)
    | _ => none

def readDocument (input : List Char) : Option (List Piece) :=
  if input.all isChar = true then
    (readRoot (normalizeLineEnds input)).bind fun pieces =>
      if pieces.2.all isSpace = true then some pieces.1 else none
  else none

/-! ## Laws of line ends -/

variable {c d : Char} {input rest text : List Char}

attribute [local simp] normalizeFrom

/-- What is not a line feed begins anew. -/
theorem normalizeFrom_append (other : c ≠ '\n') (behindReturn : Bool) (before behind : List Char) :
    normalizeFrom behindReturn (before ++ c :: behind) =
      normalizeFrom behindReturn before ++ normalizeFrom false (c :: behind) := by
  induction before generalizing behindReturn with
  | nil =>
    simp [other]
  | cons first before ih =>
    rw [List.cons_append, normalizeFrom, normalizeFrom]
    split
    · exact ih false
    · rw [ih, List.cons_append]

theorem normalizeLineEnds_append (other : c ≠ '\n') (before behind : List Char) :
    normalizeLineEnds (before ++ c :: behind) =
      normalizeLineEnds before ++ normalizeLineEnds (c :: behind) :=
  normalizeFrom_append other false before behind

/-- What has no line ends is as it is. -/
theorem normalizeFrom_plain (noFeed : '\n' ∉ text) (noReturn : '\r' ∉ text) (nonempty : text ≠ [])
    (behindReturn : Bool) (rest : List Char) :
    normalizeFrom behindReturn (text ++ rest) = text ++ normalizeFrom false rest := by
  induction text generalizing behindReturn with
  | nil => exact absurd rfl nonempty
  | cons c text ih =>
    rw [List.mem_cons, not_or] at noFeed noReturn
    have other : c ≠ '\r' := fun same => noReturn.1 same.symm
    rw [List.cons_append, normalizeFrom, if_neg (fun feed => noFeed.1 feed.1.symm), if_neg other,
      decide_eq_false other]
    cases text with
    | nil => rfl
    | cons d text =>
      rw [ih noFeed.2 noReturn.2 (List.cons_ne_nil d text)]
      rfl

theorem normalizeLineEnds_cons (other : c ≠ '\r') (rest : List Char) :
    normalizeLineEnds (c :: rest) = c :: normalizeLineEnds rest := by
  rw [normalizeLineEnds, normalizeFrom, if_neg (fun feed => Bool.noConfusion feed.2), if_neg other,
    decide_eq_false other]
  rfl

theorem return_not_mem_normalizeFrom (behindReturn : Bool) (input : List Char) :
    '\r' ∉ normalizeFrom behindReturn input := by
  induction input generalizing behindReturn with
  | nil => exact List.not_mem_nil
  | cons c rest ih =>
    rw [normalizeFrom]
    split
    · exact ih false
    · rw [List.mem_cons]
      rintro (here | later)
      · split at here
        · cases here
        · next other => exact other here.symm
      · exact ih _ later

theorem normalizeFrom_of_not_mem (none : '\r' ∉ input) : normalizeFrom false input = input := by
  induction input with
  | nil => rfl
  | cons c rest ih =>
    rw [List.mem_cons, not_or] at none
    have other : c ≠ '\r' := fun same => none.1 same.symm
    rw [normalizeFrom, if_neg (fun feed => Bool.noConfusion feed.2), if_neg other,
      decide_eq_false other, ih none.2]

/-- A text without carriage returns is as it is. -/
theorem normalizeLineEnds_eq_self : normalizeLineEnds input = input ↔ '\r' ∉ input := by
  constructor
  · intro same
    have none := return_not_mem_normalizeFrom false input
    rwa [← normalizeLineEnds, same] at none
  · exact normalizeFrom_of_not_mem

theorem length_normalizeFrom_le (behindReturn : Bool) (input : List Char) :
    (normalizeFrom behindReturn input).length ≤ input.length := by
  induction input generalizing behindReturn with
  | nil => exact Nat.le_refl _
  | cons c rest ih =>
    rw [normalizeFrom]
    split
    · exact Nat.le_succ_of_le (ih false)
    · exact Nat.succ_le_succ (ih _)

/-! ## Laws of marks -/

theorem strip_eq_some {mark : List Char} :
    strip mark input = some rest ↔ input = mark ++ rest := by
  unfold strip
  split
  · next leads =>
    have whole := List.prefix_iff_eq_append.mp (List.isPrefixOf_iff_prefix.mp leads)
    constructor
    · intro same
      cases same
      exact whole.symm
    · intro same
      rw [same, List.drop_left]
  · next other =>
    constructor
    · intro same
      cases same
    · rintro rfl
      exact absurd (List.isPrefixOf_iff_prefix.mpr (List.prefix_append mark rest)) other

theorem strip_append (mark rest : List Char) : strip mark (mark ++ rest) = some rest :=
  strip_eq_some.mpr rfl

theorem strip_of_ne {mark : List Char} (other : c ≠ d) : strip (c :: mark) (d :: rest) = none := by
  unfold strip
  rw [List.isPrefixOf, beq_eq_false_iff_ne.mpr other]
  rfl

/-- Before a mark and behind it is all. -/
theorem splitBefore_eq_some {mark : List Char}
    (split : splitBefore mark input = some (text, rest)) : input = text ++ (mark ++ rest) := by
  induction input generalizing text with
  | nil => cases split
  | cons c behind ih =>
    rw [splitBefore] at split
    cases here : strip mark (c :: behind) with
    | some after =>
      rw [here] at split
      cases split
      rw [List.nil_append]
      exact strip_eq_some.mp here
    | none =>
      rw [here] at split
      obtain ⟨⟨early, after⟩, found, same⟩ := Option.map_eq_some_iff.mp split
      cases same
      rw [ih found, List.cons_append]

/-- A mark of one character. -/
theorem splitBefore_singleton (none : d ∉ text) :
    splitBefore [d] (text ++ d :: rest) = some (text, rest) := by
  induction text with
  | nil =>
    rw [List.nil_append, splitBefore, show d :: rest = [d] ++ rest from rfl, strip_append]
  | cons c text ih =>
    rw [List.mem_cons, not_or] at none
    rw [List.cons_append, splitBefore, strip_of_ne none.1]
    dsimp only
    rw [ih none.2]
    rfl

/-! ## Laws of repeated reading -/

variable {next : List Char → Option (List β × List Char)} {found : List β}

theorem many_of_none (nothing : next input = none) : many next input = none := by
  rw [many, nothing]

/-- Nothing more is read. -/
theorem many_of_stop (stop : next input = some ([], input)) : many next input = some ([], input) := by
  rw [many, stop]
  exact if_neg (Nat.lt_irrefl _)

theorem many_of_next (read : next input = some (found, rest)) (shorter : rest.length < input.length) :
    many next input = (many next rest).map fun more => (found ++ more.1, more.2) := by
  rw [many, read]
  exact if_pos shorter

/-! ## Laws of references -/

/-- A digit is a letter or a decimal digit. -/
theorem digitValue_isSome {base : Nat} (digit : (digitValue base c).isSome = true) :
    c ≠ ']' ∧ c ≠ '"' := by
  constructor
  · rintro rfl
    exact absurd digit (Bool.eq_false_iff.mp rfl)
  · rintro rfl
    exact absurd digit (Bool.eq_false_iff.mp rfl)

theorem numberValue_digits {base number : Nat} {digits : List Char}
    (value : numberValue base digits = some number) (listed : d ∈ digits) :
    (digitValue base d).isSome = true := by
  unfold numberValue at value
  split at value
  · cases value
  · clear * - value listed
    revert value
    generalize (0 : Nat) = before
    intro value
    induction digits generalizing before with
    | nil => cases listed
    | cons c digits ih =>
      rw [List.foldlM_cons] at value
      obtain ⟨one, here, later⟩ := Option.bind_eq_some_iff.mp value
      obtain ⟨digit, some_, -⟩ := Option.map_eq_some_iff.mp here
      rcases List.mem_cons.mp listed with rfl | behind
      · rw [some_]
        rfl
      · exact ih behind one later

/-- No name of a reference has a bracket or a quote. -/
theorem referent_isSome {name : List Char} (some_ : referent name = some c) (listed : d ∈ name) :
    d ≠ ']' ∧ d ≠ '"' := by
  have numbers : ∀ {base : Nat} {digits : List Char},
      ((numberValue base digits).bind charOfNumber).filter isChar = some c →
      d ∈ digits → d ≠ ']' ∧ d ≠ '"' := by
    intro base digits value listed
    obtain ⟨value, -⟩ := Option.filter_eq_some_iff.mp value
    obtain ⟨number, value, -⟩ := Option.bind_eq_some_iff.mp value
    exact digitValue_isSome (numberValue_digits value listed)
  have literal : ∀ {text : List Char}, ']' ∉ text → '"' ∉ text → d ∈ text → d ≠ ']' ∧ d ≠ '"' :=
    fun noBracket noQuote listed =>
      ⟨fun same => noBracket (same ▸ listed), fun same => noQuote (same ▸ listed)⟩
  unfold referent at some_
  split at some_
  · next same => exact literal (by decide) (by decide) (same ▸ listed)
  split at some_
  · next same => exact literal (by decide) (by decide) (same ▸ listed)
  split at some_
  · next same => exact literal (by decide) (by decide) (same ▸ listed)
  split at some_
  · next same => exact literal (by decide) (by decide) (same ▸ listed)
  split at some_
  · next same => exact literal (by decide) (by decide) (same ▸ listed)
  split at some_
  · next digits stripped =>
    rw [strip_eq_some.mp stripped, List.mem_append] at listed
    rcases listed with mark | digit
    · exact literal (by decide) (by decide) mark
    · exact numbers some_ digit
  · obtain ⟨digits, stripped, value⟩ := Option.bind_eq_some_iff.mp some_
    rw [strip_eq_some.mp stripped, List.mem_append] at listed
    rcases listed with mark | digit
    · exact literal (by decide) (by decide) mark
    · exact numbers value digit

theorem readReference_append {name : List Char} (some_ : referent name = some c) (none : ';' ∉ name)
    (rest : List Char) : readReference (name ++ ';' :: rest) = some (c, rest) := by
  rw [readReference, splitBefore_singleton none, Option.bind_some, some_]
  rfl

theorem readReference_length (read : readReference input = some (c, rest)) :
    rest.length < input.length := by
  obtain ⟨⟨name, behind⟩, split, found⟩ := Option.bind_eq_some_iff.mp read
  obtain ⟨c, -, same⟩ := Option.map_eq_some_iff.mp found
  cases same
  rw [splitBefore_eq_some split, List.length_append, List.length_append]
  exact Nat.lt_add_left _ (Nat.lt_add_of_pos_left Nat.one_pos)

/-- A reference ends before a bracket or a quote. -/
theorem readReference_before {mark : Char} (marks : mark = ']' ∨ mark = '"')
    (read : readReference (text ++ mark :: input) = some (c, rest)) :
    ∃ later, rest = later ++ mark :: input ∧ later.length < text.length := by
  obtain ⟨⟨name, behind⟩, split, found⟩ := Option.bind_eq_some_iff.mp read
  obtain ⟨c, some_, same⟩ := Option.map_eq_some_iff.mp found
  cases same
  have none : mark ∉ name := fun listed => by
    rcases marks with rfl | rfl
    · exact (referent_isSome some_ listed).1 rfl
    · exact (referent_isSome some_ listed).2 rfl
  have whole := splitBefore_eq_some split
  rcases List.append_eq_append_iff.mp whole with ⟨more, rfl, here⟩ | ⟨later, rfl, here⟩
  · cases more with
    | nil =>
      rw [List.nil_append, List.cons_append] at here
      obtain ⟨same, -⟩ := List.cons.inj here
      rcases marks with rfl | rfl
      · cases same
      · cases same
    | cons first more =>
      obtain ⟨same, -⟩ := List.cons.inj here
      exact absurd (List.mem_append_right _ (same ▸ List.mem_cons_self)) none
  · cases later with
    | nil =>
      rw [List.nil_append, List.cons_append] at here
      obtain ⟨same, -⟩ := List.cons.inj here
      rcases marks with rfl | rfl
      · cases same
      · cases same
    | cons first later =>
      obtain ⟨-, here⟩ := List.cons.inj here
      refine ⟨later, here, ?_⟩
      rw [List.length_append, List.length_cons]
      omega

/-! ## Laws of character data -/

theorem readText_stop (noSection : strip sectionStart ('<' :: rest) = none) :
    readText ('<' :: rest) = some ([], '<' :: rest) := by
  have stop : nextText ('<' :: rest) = some ([], '<' :: rest) := by
    rw [nextText, if_neg (by decide), if_pos rfl, noSection]
  exact many_of_stop stop

/-- A tag is no character data. -/
theorem readText_tag (noSection : rest.head? ≠ some '!') :
    readText ('<' :: rest) = some ([], '<' :: rest) := by
  refine readText_stop ?_
  cases stripped : strip sectionStart ('<' :: rest) with
  | none => rfl
  | some inside =>
    obtain ⟨-, begins⟩ := List.cons.inj (strip_eq_some.mp stripped)
    rw [begins] at noSection
    exact absurd rfl noSection

theorem readText_char (plain : c ≠ '&' ∧ c ≠ '<') (noEnd : ¬ sectionEnd <+: c :: rest) :
    readText (c :: rest) = (readText rest).map fun more => (c :: more.1, more.2) := by
  have next : nextText (c :: rest) = some ([c], rest) := by
    rw [nextText, if_neg plain.1, if_neg plain.2,
      if_neg (fun leads => noEnd (List.isPrefixOf_iff_prefix.mp leads))]
  exact many_of_next next (Nat.lt_succ_self _)

theorem readText_reference (read : readReference input = some (c, rest)) :
    readText ('&' :: input) = (readText rest).map fun more => (c :: more.1, more.2) := by
  have next : nextText ('&' :: input) = some ([c], rest) := by
    rw [nextText, if_pos rfl, read]
    rfl
  exact many_of_next next (Nat.lt_succ_of_lt (readReference_length read))

theorem readText_section (split : splitBefore sectionEnd input = some (text, rest)) :
    readText (sectionStart ++ input) =
      (readText rest).map fun more => (text ++ more.1, more.2) := by
  refine many_of_next ?_ ?_
  · rw [show sectionStart ++ input = '<' :: (sectionStart.tail ++ input) from rfl, nextText,
      if_neg (by decide), if_pos rfl,
      show '<' :: (sectionStart.tail ++ input) = sectionStart ++ input from rfl, strip_append]
    exact split
  · rw [splitBefore_eq_some split, List.length_append, List.length_append, List.length_append]
    exact Nat.lt_add_left _ (Nat.lt_add_left _ (Nat.lt_add_of_pos_left (by decide)))

/-- The first end of a section is that behind a text, or one in it. -/
theorem splitBefore_sectionEnd (text rest : List Char) :
    splitBefore sectionEnd (text ++ (sectionEnd ++ rest)) = some (text, rest) ∧
        ¬ sectionEnd <:+: text ∨
      ∃ early late, text = early ++ (sectionEnd ++ late) ∧
        splitBefore sectionEnd (text ++ (sectionEnd ++ rest)) =
          some (early, late ++ (sectionEnd ++ rest)) := by
  induction text with
  | nil => exact .inl ⟨rfl, by decide⟩
  | cons c text ih =>
    rw [List.cons_append, splitBefore]
    cases here : strip sectionEnd (c :: (text ++ (sectionEnd ++ rest))) with
    | some behind =>
      -- An end that begins here ends here, as brackets follow the text.
      refine .inr ?_
      have begins := strip_eq_some.mp here
      rcases text with _ | ⟨first, _ | ⟨second, late⟩⟩
      · cases begins
      · cases begins
      · cases begins
        exact ⟨[], late, rfl, rfl⟩
    | none =>
      dsimp only
      rcases ih with ⟨split, none⟩ | ⟨early, late, rfl, split⟩
      · refine .inl ⟨by rw [split]; rfl, fun inside => ?_⟩
        rcases List.infix_cons_iff.mp inside with leads | later
        · obtain ⟨behind, whole⟩ := leads
          rw [← List.cons_append, ← whole, List.append_assoc, strip_append] at here
          cases here
        · exact none later
      · exact .inr ⟨c :: early, late, rfl, by rw [split]; rfl⟩

/-- A section does not begin with a part of its end. -/
theorem sectionStart_before (begins : text ++ (sectionEnd ++ input) = sectionStart ++ rest) :
    ∃ inside, text = sectionStart ++ inside ∧ rest = inside ++ (sectionEnd ++ input) := by
  rcases List.append_eq_append_iff.mp begins with ⟨more, start, behind⟩ | ⟨inside, front, behind⟩
  · cases more with
    | nil => exact ⟨[], by rw [start, List.append_nil, List.append_nil], behind.symm⟩
    | cons first more =>
      obtain ⟨rfl, -⟩ := List.cons.inj behind
      have none : ']' ∉ sectionStart := by decide
      rw [start] at none
      exact absurd (List.mem_append_right _ List.mem_cons_self) none
  · exact ⟨inside, front, behind⟩

/-- What is read up to the end of a section that has not begun is shorter than what stands there. -/
theorem readText_length_lt {limit : Nat} {found : List Char}
    (bound : ∀ {found behind}, readText input = some (found, behind) → found.length ≤ limit)
    (read : readText (text ++ (sectionEnd ++ input)) = some (found, rest)) :
    found.length < text.length + 3 + limit := by
  induction size : text.length using Nat.strong_induction_on generalizing text found rest with
  | _ length ih =>
  have later : ∀ late front : List Char, late.length < text.length →
      ((readText (late ++ (sectionEnd ++ input))).map fun more => (front ++ more.1, more.2)) =
        some (found, rest) → found.length < front.length + late.length + 3 + limit := by
    intro late front shorter readLater
    obtain ⟨⟨more, behind⟩, readMore, same⟩ := Option.map_eq_some_iff.mp readLater
    cases same
    have short : more.length < late.length + 3 + limit :=
      ih late.length (size ▸ shorter) readMore rfl
    rw [List.length_append]
    dsimp only
    omega
  subst size
  cases text with
  | nil =>
    rw [readText, many_of_none rfl] at read
    cases read
  | cons c text =>
    rw [List.length_cons] at later ⊢
    rw [List.cons_append] at read
    by_cases amp : c = '&'
    · subst amp
      cases reference : readReference (text ++ (sectionEnd ++ input)) with
      | none =>
        rw [readText, many_of_none (by rw [nextText, if_pos rfl, reference]; rfl)] at read
        cases read
      | some found =>
        obtain ⟨d, behind⟩ := found
        obtain ⟨late, rfl, shorter⟩ := readReference_before (.inl rfl) reference
        rw [readText_reference reference] at read
        have short := later late [d] (Nat.lt_succ_of_lt shorter) read
        rw [List.length_singleton] at short
        omega
    by_cases tag : c = '<'
    · subst tag
      cases stripped : strip sectionStart ('<' :: (text ++ (sectionEnd ++ input))) with
      | none =>
        rw [readText_stop stripped] at read
        cases read
        exact Nat.lt_of_lt_of_le (Nat.succ_pos _) (Nat.le_add_right ..)
      | some behind =>
        have begins := strip_eq_some.mp stripped
        rw [← List.cons_append] at begins
        obtain ⟨inside, front, rfl⟩ := sectionStart_before begins
        have length := congrArg List.length front
        rw [List.length_cons, List.length_append] at length
        rw [← List.cons_append, begins] at read
        rcases splitBefore_sectionEnd inside input with ⟨split, -⟩ | ⟨early, late, rfl, split⟩
        · rw [readText_section split] at read
          obtain ⟨⟨more, behind⟩, readMore, same⟩ := Option.map_eq_some_iff.mp read
          cases same
          have short := bound readMore
          rw [List.length_append]
          dsimp only at short ⊢
          omega
        · rw [readText_section split] at read
          rw [show sectionStart.length = 9 from rfl, List.length_append, List.length_append] at length
          have short := later late early (by omega) read
          omega
    · by_cases ends : sectionEnd <+: c :: (text ++ (sectionEnd ++ input))
      · have none : nextText (c :: (text ++ (sectionEnd ++ input))) = none := by
          rw [nextText, if_neg amp, if_neg tag, if_pos (List.isPrefixOf_iff_prefix.mpr ends)]
        rw [readText, many_of_none none] at read
        cases read
      · rw [readText_char ⟨amp, tag⟩ ends] at read
        have short := later text [c] (Nat.lt_succ_self _) read
        rw [List.length_singleton] at short
        omega

/-! ## Laws of values -/

/-- A value with white space as it is read. -/
def spaced (text : List Char) : List Char :=
  text.map fun c => if isSpace c then ' ' else c

/-- There is no white space but spaces. -/
theorem not_mem_spaced (text : List Char) :
    '\t' ∉ spaced text ∧ '\n' ∉ spaced text ∧ '\r' ∉ spaced text := by
  have none : ∀ c, isSpace c = true → c ≠ ' ' → c ∉ spaced text := by
    intro c space other listed
    obtain ⟨d, -, here⟩ := List.mem_map.mp listed
    split at here
    · exact other here.symm
    · next noSpace =>
      rw [here] at noSpace
      exact noSpace space
  exact ⟨none _ rfl (by decide), none _ rfl (by decide), none _ rfl (by decide)⟩

theorem spaced_eq_self : spaced text = text ↔ '\t' ∉ text ∧ '\n' ∉ text ∧ '\r' ∉ text := by
  constructor
  · intro same
    have none := not_mem_spaced text
    rwa [same] at none
  · rintro ⟨noTab, noFeed, noReturn⟩
    refine (List.map_congr_left fun c listed => ?_).trans (List.map_id text)
    split
    · next space =>
      simp only [isSpace, Bool.or_eq_true, decide_eq_true_eq] at space
      rcases space with ((rfl | rfl) | rfl) | rfl
      · rfl
      · exact absurd listed noTab
      · exact absurd listed noFeed
      · exact absurd listed noReturn
    · rfl

/-- A value is read as it is meant if it has no line ends or tabs. -/
theorem spaced_normalizeLineEnds :
    spaced (normalizeLineEnds text) = text ↔ '\t' ∉ text ∧ '\n' ∉ text ∧ '\r' ∉ text := by
  constructor
  · intro same
    have none := not_mem_spaced (normalizeLineEnds text)
    rwa [same] at none
  · intro none
    rw [normalizeLineEnds_eq_self.mpr none.2.2, spaced_eq_self.mpr none]

theorem value_quote (quote : Char) (rest : List Char) :
    many (nextValue quote) (quote :: rest) = some ([], quote :: rest) :=
  many_of_stop (if_pos rfl)

theorem value_char {quote : Char} (plain : c ≠ quote ∧ c ≠ '&' ∧ c ≠ '<') :
    many (nextValue quote) (c :: rest) =
      (many (nextValue quote) rest).map
        fun more => ((if isSpace c then ' ' else c) :: more.1, more.2) := by
  have next : nextValue quote (c :: rest) = some ([if isSpace c then ' ' else c], rest) := by
    rw [nextValue, if_neg plain.1, if_neg plain.2.1, if_neg plain.2.2]
  exact many_of_next next (Nat.lt_succ_self _)

theorem value_reference {quote : Char} (other : quote ≠ '&')
    (read : readReference input = some (c, rest)) :
    many (nextValue quote) ('&' :: input) =
      (many (nextValue quote) rest).map fun more => (c :: more.1, more.2) := by
  have next : nextValue quote ('&' :: input) = some ([c], rest) := by
    rw [nextValue, if_neg other.symm, if_pos rfl, read]
    rfl
  exact many_of_next next (Nat.lt_succ_of_lt (readReference_length read))

/-- A text that is written as it is has more characters than what is read, or it is read as it is. -/
theorem value_raw {value : List Char}
    (read : many (nextValue '"') (text ++ '"' :: input) = some (value, rest)) :
    value.length < text.length ∨
      (∀ c ∈ text, c ≠ '"' ∧ c ≠ '&' ∧ c ≠ '<') ∧ value = spaced text ∧ rest = '"' :: input := by
  induction size : text.length using Nat.strong_induction_on generalizing text value rest with
  | _ length ih =>
  subst size
  cases text with
  | nil =>
    rw [List.nil_append, value_quote] at read
    cases read
    exact .inr ⟨fun c listed => absurd listed List.not_mem_nil, rfl, rfl⟩
  | cons c text =>
    rw [List.cons_append] at read
    by_cases quote : c = '"'
    · subst quote
      rw [value_quote] at read
      cases read
      exact .inl (Nat.succ_pos _)
    by_cases amp : c = '&'
    · subst amp
      cases reference : readReference (text ++ '"' :: input) with
      | none =>
        rw [many_of_none (by rw [nextValue, if_neg (by decide), if_pos rfl, reference]; rfl)] at read
        cases read
      | some found =>
        obtain ⟨d, behind⟩ := found
        obtain ⟨late, rfl, shorter⟩ := readReference_before (.inr rfl) reference
        rw [value_reference (by decide) reference] at read
        obtain ⟨⟨more, behind⟩, readMore, same⟩ := Option.map_eq_some_iff.mp read
        cases same
        refine .inl (Nat.succ_lt_succ ?_)
        rcases ih late.length (Nat.lt_succ_of_lt shorter) readMore rfl with short | ⟨-, all, -⟩
        · exact Nat.lt_trans short shorter
        · rw [all, spaced, List.length_map]
          exact shorter
    by_cases tag : c = '<'
    · rw [many_of_none (by rw [nextValue, if_neg quote, if_neg amp, if_pos tag])] at read
      cases read
    · rw [value_char ⟨quote, amp, tag⟩] at read
      obtain ⟨⟨more, behind⟩, readMore, same⟩ := Option.map_eq_some_iff.mp read
      cases same
      rcases ih text.length (Nat.lt_succ_self _) readMore rfl with short | ⟨plain, all, end_⟩
      · exact .inl (Nat.succ_lt_succ short)
      · refine .inr ⟨?_, congrArg _ all, end_⟩
        intro d listed
        rcases List.mem_cons.mp listed with rfl | later
        · exact ⟨quote, amp, tag⟩
        · exact plain d later

theorem value_plain (plain : ∀ c ∈ text, c ≠ '"' ∧ c ≠ '&' ∧ c ≠ '<') (input : List Char) :
    many (nextValue '"') (text ++ '"' :: input) = some (spaced text, '"' :: input) := by
  induction text with
  | nil => exact value_quote _ _
  | cons c text ih =>
    rw [List.cons_append, value_char (plain c List.mem_cons_self),
      ih fun d later => plain d (List.mem_cons_of_mem _ later)]
    rfl

theorem plain_iff :
    (∀ c ∈ text, c ≠ '"' ∧ c ≠ '&' ∧ c ≠ '<') ↔ '"' ∉ text ∧ '&' ∉ text ∧ '<' ∉ text := by
  constructor
  · exact fun plain => ⟨fun listed => (plain _ listed).1 rfl, fun listed => (plain _ listed).2.1 rfl,
      fun listed => (plain _ listed).2.2 rfl⟩
  · rintro ⟨noQuote, noAmp, noTag⟩ c listed
    exact ⟨fun same => noQuote (same ▸ listed), fun same => noAmp (same ▸ listed),
      fun same => noTag (same ▸ listed)⟩

/-- A value that is written as it is and with its line ends is read back if and only if it has no
quote, no markup and no white space but spaces. -/
theorem value_raw_iff {raw : List Char} :
    many (nextValue '"') (normalizeLineEnds raw ++ '"' :: input) = some (raw, rest) ↔
      (('"' ∉ raw ∧ '&' ∉ raw ∧ '<' ∉ raw) ∧ '\t' ∉ raw ∧ '\n' ∉ raw ∧ '\r' ∉ raw) ∧
        rest = '"' :: input := by
  rw [← plain_iff]
  constructor
  · intro read
    have fewer := length_normalizeFrom_le false raw
    rcases value_raw read with short | ⟨plain, same, end_⟩
    · exact absurd short (Nat.not_lt.mpr fewer)
    · have noSpace := spaced_normalizeLineEnds.mp same.symm
      rw [normalizeLineEnds_eq_self.mpr noSpace.2.2] at plain
      exact ⟨⟨plain, noSpace⟩, end_⟩
  · rintro ⟨⟨plain, noSpace⟩, rfl⟩
    rw [normalizeLineEnds_eq_self.mpr noSpace.2.2, value_plain plain, spaced_eq_self.mpr noSpace]

end Libjingle.Std.XmlDocument

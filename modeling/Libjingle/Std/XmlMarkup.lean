import Libjingle.Std.XmlDocument
import Mathlib.Algebra.Order.Ring.Nat

/-!
# Reading XML tags

What the readers of tags find where a tag is written in the plainest way, and how the pieces of a
document follow each other.
-/

namespace Libjingle.Std.XmlDocument

variable {c d : Char} {name input rest text : List Char}

/-! ## Names -/

theorem IsName.chars (named : IsName name) : ∀ c ∈ name, isNameChar c = true := by
  cases name with
  | nil => exact named.elim
  | cons first others =>
    intro c listed
    rcases List.mem_cons.mp listed with rfl | later
    · rw [isNameChar, named.1, Bool.true_or]
    · exact named.2 c later

theorem readName_append (named : IsName name) (stop : isNameChar c = false) (rest : List Char) :
    readName (name ++ c :: rest) = some (name, c :: rest) := by
  have front : (name ++ c :: rest).takeWhile isNameChar = name := by
    rw [List.takeWhile_append_of_pos named.chars, List.takeWhile_cons_of_neg (by rw [stop]; decide),
      List.append_nil]
  have behind : (name ++ c :: rest).dropWhile isNameChar = c :: rest := by
    rw [List.dropWhile_append_of_pos named.chars, List.dropWhile_cons_of_neg (by rw [stop]; decide)]
  unfold readName
  dsimp only
  rw [front, behind]
  cases name with
  | nil => exact named.elim
  | cons first others => exact if_pos named.1

theorem ne_of_isNameChar (here : isNameChar c = true) (other : isNameChar d = false) : c ≠ d := by
  rintro rfl
  rw [here] at other
  cases other

/-- The characters of names are allowed. -/
theorem isChar_of_isNameChar (here : isNameChar c = true) : isChar c = true := by
  have ranges : ∀ {ranges : List (Nat × Nat)}, inRanges ranges c = true →
      (∀ range ∈ ranges, 0x20 ≤ range.1 ∧ range.2 ≠ 0xFFFF ∧ (range.2 < 0xFFFE ∨ 0xFFFF < range.1)) →
      isChar c = true := by
    intro ranges inside all
    obtain ⟨range, listed, within⟩ := List.any_eq_true.mp inside
    simp only [Bool.and_eq_true, decide_eq_true_eq] at within
    have limits := all range listed
    simp only [isChar, Bool.or_eq_true, Bool.and_eq_true, decide_eq_true_eq]
    exact .inr ⟨⟨by omega, by omega⟩, by omega⟩
  rcases Bool.or_eq_true_iff.mp here with start | other
  · exact ranges start (by decide)
  · exact ranges other (by decide)

/-- What the first character of a name is not. -/
theorem IsName.head (named : IsName name) :
    ∃ first others, name = first :: others ∧ isSpace first = false ∧
      first ≠ '/' ∧ first ≠ '!' ∧ first ≠ '?' ∧ first ≠ '>' := by
  cases name with
  | nil => exact named.elim
  | cons first others =>
    have here := named.chars first List.mem_cons_self
    refine ⟨first, others, rfl, ?_, ne_of_isNameChar here (by decide),
      ne_of_isNameChar here (by decide), ne_of_isNameChar here (by decide),
      ne_of_isNameChar here (by decide)⟩
    cases space : isSpace first with
    | false => rfl
    | true =>
      simp only [isSpace, Bool.or_eq_true, decide_eq_true_eq] at space
      rcases space with ((rfl | rfl) | rfl) | rfl
      · exact absurd here (by decide)
      · exact absurd here (by decide)
      · exact absurd here (by decide)
      · exact absurd here (by decide)

/-! ## Lengths -/

section Lengths

theorem strip_length {mark : List Char} (read : strip mark input = some rest) :
    mark.length + rest.length = input.length := by
  rw [strip_eq_some.mp read, List.length_append]

theorem splitBefore_length {mark : List Char} {split : List Char × List Char}
    (read : splitBefore mark input = some split) : split.2.length ≤ input.length := by
  have whole := congrArg List.length (splitBefore_eq_some read)
  rw [List.length_append, List.length_append] at whole
  omega

theorem length_dropWhile_le (p : Char → Bool) (input : List Char) :
    (input.dropWhile p).length ≤ input.length :=
  (List.dropWhile_sublist p).length_le

theorem readName_length {read : List Char × List Char} (found : readName input = some read) :
    read.2.length ≤ input.length := by
  unfold readName at found
  dsimp only at found
  split at found
  · cases found
    exact length_dropWhile_le _ _
  · cases found

variable {β : Type} {next : List Char → Option (List β × List Char)}

theorem many_length {read : List β × List Char} (found : many next input = some read) :
    read.2.length ≤ input.length := by
  induction size : input.length using Nat.strong_induction_on generalizing input read with
  | _ length ih =>
  subst size
  rw [many] at found
  cases here : next input with
  | none =>
    rw [here] at found
    cases found
  | some step =>
    rw [here] at found
    dsimp only at found
    split at found
    · next shorter =>
      obtain ⟨more, later, rfl⟩ := Option.map_eq_some_iff.mp found
      have fewer := ih _ shorter later rfl
      exact Nat.le_trans fewer (Nat.le_of_lt shorter)
    · cases found
      exact Nat.le_refl _

variable {read : Markup × List Char}

theorem endStart_length {attrs : List (List Char × List Char)}
    (found : endStart name attrs input = some read) : read.2.length ≤ input.length := by
  have spaces := length_dropWhile_le isSpace input
  unfold endStart at found
  split at found
  · split at found
    · next stripped =>
      cases found
      have := strip_length stripped
      dsimp only
      omega
    · obtain ⟨rest, stripped, rfl⟩ := Option.map_eq_some_iff.mp found
      have := strip_length stripped
      dsimp only
      omega
  · cases found

/-- A tag has characters. -/
theorem readMarkup_length (found : readMarkup input = some read) :
    read.2.length < input.length := by
  unfold readMarkup at found
  split at found
  · next stripped =>
    obtain ⟨name, named, found⟩ := Option.bind_eq_some_iff.mp found
    obtain ⟨rest, ended, rfl⟩ := Option.map_eq_some_iff.mp found
    have front := strip_length stripped
    have shorter := readName_length named
    have spaces := length_dropWhile_le isSpace name.2
    have behind := strip_length ended
    rw [show "</".toList.length = 2 from rfl] at front
    dsimp only
    omega
  split at found
  · next stripped =>
    obtain ⟨split, before, found⟩ := Option.bind_eq_some_iff.mp found
    obtain ⟨rest, ended, rfl⟩ := Option.map_eq_some_iff.mp found
    have front := strip_length stripped
    have shorter := splitBefore_length before
    have behind := strip_length ended
    rw [show "<!--".toList.length = 4 from rfl] at front
    dsimp only
    omega
  split at found
  · next stripped =>
    obtain ⟨target, named, found⟩ := Option.bind_eq_some_iff.mp found
    obtain ⟨split, before, found⟩ := Option.bind_eq_some_iff.mp found
    split at found
    · cases found
      have front := strip_length stripped
      have shorter := readName_length named
      have behind := splitBefore_length before
      rw [show "<?".toList.length = 2 from rfl] at front
      dsimp only
      omega
    · cases found
  · obtain ⟨rest, stripped, found⟩ := Option.bind_eq_some_iff.mp found
    obtain ⟨name, named, found⟩ := Option.bind_eq_some_iff.mp found
    obtain ⟨attrs, listed, found⟩ := Option.bind_eq_some_iff.mp found
    have front := strip_length stripped
    have shorter := readName_length named
    have fewer := many_length listed
    have behind := endStart_length found
    rw [show "<".toList.length = 1 from rfl] at front
    omega

theorem readPiece_length {read : Piece × List Char} (found : readPiece input = some read) :
    read.2.length < input.length := by
  obtain ⟨text, before, found⟩ := Option.bind_eq_some_iff.mp found
  obtain ⟨markup, behind, rfl⟩ := Option.map_eq_some_iff.mp found
  exact Nat.lt_of_lt_of_le (readMarkup_length behind) (many_length before)

end Lengths

/-! ## Tags -/

/-- A value in quotes behind a name. -/
theorem nextAttr_next (named : IsName name) (input : List Char) :
    nextAttr (' ' :: (name ++ '=' :: '"' :: input)) =
      (many (nextValue '"') input).map fun value => ([(name, value.1)], value.2.drop 1) := by
  obtain ⟨first, others, begins, noSpace, noSlash, -, -, noEnd⟩ := named.head
  have spaces : (' ' :: (name ++ '=' :: '"' :: input)).dropWhile isSpace =
      name ++ '=' :: '"' :: input := by
    rw [List.dropWhile_cons_of_pos rfl, begins, List.cons_append,
      List.dropWhile_cons_of_neg (by rw [noSpace]; decide)]
  unfold nextAttr
  dsimp only
  rw [spaces, readName_append named (by decide), if_neg, if_neg]
  · rw [Option.bind_some, List.dropWhile_cons_of_neg (by decide),
      show '=' :: '"' :: input = ['='] ++ '"' :: input from rfl, strip_append, Option.bind_some,
      List.dropWhile_cons_of_neg (by decide), readValue, if_pos (.inl rfl), Option.map_map]
    rfl
  · rw [List.length_cons]
    exact Nat.ne_of_lt (Nat.lt_succ_self _)
  · rw [begins]
    rintro (same | same)
    · exact noEnd (Option.some.inj same)
    · exact noSlash (Option.some.inj same)

theorem readAttrs_cons (named : IsName name) (input : List Char) :
    many nextAttr (' ' :: (name ++ '=' :: '"' :: input)) =
      (many (nextValue '"') input).bind fun value =>
        (many nextAttr (value.2.drop 1)).map fun more => ((name, value.1) :: more.1, more.2) := by
  have next := nextAttr_next named input
  cases read : many (nextValue '"') input with
  | none =>
    rw [read] at next
    rw [many_of_none next]
    rfl
  | some value =>
    rw [read] at next
    have shorter := many_length read
    refine many_of_next next ?_
    rw [List.length_drop, List.length_cons, List.length_append, List.length_cons, List.length_cons]
    omega

/-- No attribute is behind the last one. -/
theorem readAttrs_end (ends : c = '>' ∨ c = '/') (rest : List Char) :
    many nextAttr (c :: rest) = some ([], c :: rest) := by
  refine many_of_stop ?_
  unfold nextAttr
  rcases ends with rfl | rfl
  · exact if_pos (.inl rfl)
  · exact if_pos (.inr rfl)

theorem readMarkup_start (named : IsName name) (stop : isNameChar c = false) (input : List Char) :
    readMarkup ('<' :: (name ++ c :: input)) =
      (many nextAttr (c :: input)).bind fun attrs => endStart name attrs.1 attrs.2 := by
  obtain ⟨first, others, begins, -, noSlash, noBang, noMark, -⟩ := named.head
  have strips : ∀ d more, first ≠ d →
      strip ('<' :: d :: more) ('<' :: (name ++ c :: input)) = none := by
    intro d more other
    cases stripped : strip ('<' :: d :: more) ('<' :: (name ++ c :: input)) with
    | none => rfl
    | some rest =>
      have same := (List.cons.inj (strip_eq_some.mp stripped)).2
      rw [begins] at same
      exact absurd (List.cons.inj same).1 other
  unfold readMarkup
  rw [show strip "</".toList ('<' :: (name ++ c :: input)) = none from strips '/' [] noSlash,
    show strip "<!--".toList ('<' :: (name ++ c :: input)) = none from strips '!' ['-', '-'] noBang,
    show strip "<?".toList ('<' :: (name ++ c :: input)) = none from strips '?' [] noMark]
  dsimp only
  rw [show '<' :: (name ++ c :: input) = "<".toList ++ (name ++ c :: input) from rfl, strip_append,
    Option.bind_some, readStart, readName_append named stop, Option.bind_some]

theorem readMarkup_close (named : IsName name) (rest : List Char) :
    readMarkup ('<' :: '/' :: (name ++ '>' :: rest)) = some (.close name, rest) := by
  unfold readMarkup
  rw [show '<' :: '/' :: (name ++ '>' :: rest) = "</".toList ++ (name ++ '>' :: rest) from rfl,
    strip_append]
  dsimp only
  rw [readClose, readName_append named (by decide), Option.bind_some,
    List.dropWhile_cons_of_neg (by decide),
    show '>' :: rest = ">".toList ++ rest from rfl, strip_append]
  rfl

theorem endStart_open {attrs : List (List Char × List Char)} (distinct : (attrs.map Prod.fst).Nodup)
    (rest : List Char) :
    endStart name attrs ('>' :: rest) = some (.start name attrs false, rest) ∧
      endStart name attrs ('/' :: '>' :: rest) = some (.start name attrs true, rest) := by
  constructor
  · unfold endStart
    rw [if_pos distinct, List.dropWhile_cons_of_neg (by decide),
      show strip "/>".toList ('>' :: rest) = none from strip_of_ne (by decide)]
    dsimp only
    rw [show '>' :: rest = ">".toList ++ rest from rfl, strip_append]
    rfl
  · unfold endStart
    rw [if_pos distinct, List.dropWhile_cons_of_neg (by decide),
      show '/' :: '>' :: rest = "/>".toList ++ rest from rfl, strip_append]

/-! ## Documents -/

variable {pieces more : List Piece} {opened : List (List Char)}

/-- The pieces that are read one after the other. -/
def Reads : List Char → List Piece → List Char → Prop
  | input, [], rest => input = rest
  | input, piece :: pieces, rest =>
      ∃ middle, readPiece input = some (piece, middle) ∧ Reads middle pieces rest

theorem reads_append :
    Reads input (pieces ++ more) rest ↔
      ∃ middle, Reads input pieces middle ∧ Reads middle more rest := by
  induction pieces generalizing input with
  | nil =>
    constructor
    · exact fun reads => ⟨input, rfl, reads⟩
    · rintro ⟨middle, rfl, reads⟩
      exact reads
  | cons piece pieces ih =>
    constructor
    · rintro ⟨next, here, later⟩
      obtain ⟨middle, front, behind⟩ := ih.mp later
      exact ⟨middle, ⟨next, here, front⟩, behind⟩
    · rintro ⟨middle, ⟨next, here, front⟩, behind⟩
      exact ⟨next, here, ih.mpr ⟨middle, front, behind⟩⟩

/-- The pieces go as far as the end of what is open. -/
def Closes : List (List Char) → List Piece → Prop
  | opened, [] => opened = []
  | opened, piece :: pieces =>
      opened ≠ [] ∧ ∃ next, piece.markup.nest opened = some next ∧ Closes next pieces

theorem readPieces_iff :
    readPieces opened input = some (pieces, rest) ↔
      Reads input pieces rest ∧ Closes opened pieces := by
  induction pieces generalizing opened input with
  | nil =>
    rw [readPieces]
    split
    · next closed => simp [Reads, Closes, closed]
    · next still =>
      constructor
      · intro found
        split at found
        · cases found
        split at found
        · obtain ⟨next, -, found⟩ := Option.bind_eq_some_iff.mp found
          obtain ⟨more, -, same⟩ := Option.map_eq_some_iff.mp found
          cases same
        · cases found
      · exact fun both => absurd both.2 still
  | cons piece pieces ih =>
    rw [readPieces]
    split
    · next closed =>
      constructor
      · intro found
        cases found
      · exact fun both => absurd closed both.2.1
    · next still =>
      cases here : readPiece input with
      | none =>
        constructor
        · intro found
          cases found
        · rintro ⟨⟨middle, read, -⟩, -⟩
          rw [here] at read
          cases read
      | some read =>
        obtain ⟨first, middle⟩ := read
        dsimp only
        rw [if_pos (readPiece_length here)]
        constructor
        · intro found
          obtain ⟨next, nested, found⟩ := Option.bind_eq_some_iff.mp found
          obtain ⟨⟨more, end_⟩, later, same⟩ := Option.map_eq_some_iff.mp found
          cases same
          obtain ⟨reads, closes⟩ := ih.mp later
          exact ⟨⟨middle, here, reads⟩, still, next, nested, closes⟩
        · rintro ⟨⟨middle', read, reads⟩, -, next, nested, closes⟩
          rw [here] at read
          cases read
          rw [nested, Option.bind_some, ih.mpr ⟨reads, closes⟩]
          rfl

/-- The pieces of a root that is read. -/
theorem readRoot_iff {attrs : List (List Char × List Char)} {closed : Bool} :
    readRoot input = some (⟨[], .start name attrs closed⟩ :: pieces, rest) ↔
      ∃ middle, readMarkup input = some (.start name attrs closed, middle) ∧
        Reads middle pieces rest ∧ Closes (if closed = true then [] else [name]) pieces := by
  have nests : (Markup.start name attrs closed).nest [] =
      some (if closed = true then [] else [name]) := by
    cases closed with
    | false => rfl
    | true => rfl
  unfold readRoot
  constructor
  · intro found
    obtain ⟨⟨root, middle⟩, marked, found⟩ := Option.bind_eq_some_iff.mp found
    cases root with
    | start name' attrs' closed' =>
      obtain ⟨opened, nested, found⟩ := Option.bind_eq_some_iff.mp found
      obtain ⟨⟨more, end_⟩, read, same⟩ := Option.map_eq_some_iff.mp found
      cases same
      rw [nests] at nested
      cases nested
      exact ⟨middle, marked, readPieces_iff.mp read⟩
    | close name' => cases found
    | comment text => cases found
    | instruction target text => cases found
  · rintro ⟨middle, marked, read⟩
    rw [marked, Option.bind_some]
    dsimp only
    rw [nests, Option.bind_some, readPieces_iff.mpr read]
    rfl

end Libjingle.Std.XmlDocument

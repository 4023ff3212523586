import Libjingle.Std.CString

/-!
# Tokenizing with marks

The text before a start mark is cut one character short. That character is lost, unless it is a
delimiter.
-/

namespace Libjingle.Strings

/-! ## The functions -/

/-- The fields from a place on, `field` being what was read since the last delimiter. -/
def tokenizeFrom (delimiter : UInt8) (field : List UInt8) : List UInt8 → List (List UInt8)
  | [] => if field ≠ [] then [field] else []
  | ch :: source =>
      if ch = delimiter then
        (if field ≠ [] then [field] else []) ++ tokenizeFrom delimiter [] source
      else tokenizeFrom delimiter (field ++ [ch]) source

def tokenize (source : List UInt8) (delimiter : UInt8) : List (List UInt8) :=
  tokenizeFrom delimiter [] source

def tokenizeAppend (source : List UInt8) (delimiter : UInt8) (fields : List (List UInt8)) :
    List (List UInt8) :=
  fields ++ tokenize source delimiter

/-- `find` of a character from a position on. -/
def find (source : List UInt8) (ch : UInt8) (pos : Nat) : Option Nat :=
  ((source.drop pos).idxOf? ch).map (pos + ·)

def tokenizeMarkedFrom (delimiter startMark endMark : UInt8) (remainSource : List UInt8)
    (fields : List (List UInt8)) : List (List UInt8) :=
  if _ : remainSource = [] then tokenizeAppend remainSource delimiter fields
  else
    match find remainSource startMark 0 with
    | none => tokenizeAppend remainSource delimiter fields
    | some startPos =>
        let preMark := if 0 < startPos then remainSource.take (startPos - 1) else []
        match find remainSource endMark (startPos + 1) with
        | none => tokenizeAppend remainSource delimiter fields
        | some endPos =>
            let marked := (remainSource.drop (startPos + 1)).take (endPos - (startPos + 1))
            tokenizeMarkedFrom delimiter startMark endMark (remainSource.drop (endPos + 1))
              (tokenizeAppend preMark delimiter fields ++ [marked])
termination_by remainSource.length
decreasing_by
  have positive := List.length_pos_of_ne_nil ‹¬ remainSource = []›
  rw [List.length_drop]
  omega

/-- `tokenize` with marks. -/
def tokenizeMarked (source : List UInt8) (delimiter startMark endMark : UInt8) :
    List (List UInt8) :=
  tokenizeMarkedFrom delimiter startMark endMark source []

/-! ## Pieces -/

/-- The pieces of a text between delimiters that are not empty. -/
def pieces (text : List UInt8) (delimiter : UInt8) : List (List UInt8) :=
  (text.splitOn delimiter).filter (· ≠ [])

section

variable {delimiter : UInt8}

theorem modifyHead_nil (fields : List (List UInt8)) : fields.modifyHead ([] ++ ·) = fields := by
  cases fields <;> rfl

theorem tokenizeFrom_eq (field source : List UInt8) : tokenizeFrom delimiter field source =
    ((source.splitOn delimiter).modifyHead (field ++ ·)).filter (· ≠ []) := by
  induction source generalizing field with
  | nil =>
    rw [tokenizeFrom, List.splitOn_nil]
    simp [List.filter_singleton]
  | cons ch source ih =>
    rw [tokenizeFrom, List.splitOn_cons_eq_if_modifyHead]
    split
    · next same =>
      rw [ih, if_pos (beq_iff_eq.mpr same), modifyHead_nil]
      by_cases none : field = [] <;> simp [none]
    · next apart =>
      rw [ih, if_neg (by simpa using apart)]
      cases source.splitOn delimiter <;> simp

theorem tokenize_eq_pieces (source : List UInt8) (delimiter : UInt8) :
    tokenize source delimiter = pieces source delimiter := by
  rw [tokenize, tokenizeFrom_eq, modifyHead_nil]
  rfl

theorem flatten_tokenizeFrom (field source : List UInt8) :
    (tokenizeFrom delimiter field source).flatten = field ++ source.filter (· ≠ delimiter) := by
  induction source generalizing field with
  | nil =>
    rw [tokenizeFrom]
    split
    · simp
    · next none => simp [not_not.mp none]
  | cons ch source ih =>
    rw [tokenizeFrom]
    split
    · next same =>
      rw [List.flatten_append, ih]
      by_cases none : field = [] <;> simp [none, same]
    · next apart => simp [ih, apart]

/-- The fields hold the text without the delimiters. -/
theorem flatten_tokenize (source : List UInt8) :
    (tokenize source delimiter).flatten = source.filter (· ≠ delimiter) :=
  flatten_tokenizeFrom [] source

/-- A delimiter at the end makes no difference. -/
theorem tokenizeFrom_concat (field source : List UInt8) :
    tokenizeFrom delimiter field (source ++ [delimiter]) = tokenizeFrom delimiter field source := by
  induction source generalizing field with
  | nil => simp [tokenizeFrom]
  | cons ch source ih =>
    rw [List.cons_append, tokenizeFrom, tokenizeFrom, ih, ih]

/-! ## Pairs of marks -/

/-- The text before the first of a mark, and the text behind it. -/
def cut (mark : UInt8) : List UInt8 → Option (List UInt8 × List UInt8)
  | [] => none
  | ch :: text =>
      if ch = mark then some ([], text)
      else (cut mark text).map fun (before, behind) => (ch :: before, behind)

/-- The text outside the first complete pair of marks, the text inside, and the text behind it. -/
def cutPair (startMark endMark : UInt8) (text : List UInt8) :
    Option (List UInt8 × List UInt8 × List UInt8) := do
  let (outside, behind) ← cut startMark text
  let (inside, rest) ← cut endMark behind
  some (outside, inside, rest)

variable {mark startMark endMark : UInt8} {text before behind outside inside rest : List UInt8}

theorem cut_spec (found : cut mark text = some (before, behind)) :
    text = before ++ mark :: behind ∧ mark ∉ before := by
  induction text generalizing before with
  | nil => cases found
  | cons ch text ih =>
    rw [cut] at found
    split at found
    · next same =>
      obtain ⟨rfl, rfl⟩ := Prod.mk.inj (Option.some.inj found)
      exact ⟨by rw [same]; rfl, List.not_mem_nil⟩
    · next apart =>
      obtain ⟨⟨before', behind'⟩, found', same⟩ := Option.map_eq_some_iff.mp found
      obtain ⟨rfl, rfl⟩ := Prod.mk.inj same
      obtain ⟨parts, none⟩ := ih found'
      refine ⟨by rw [parts]; rfl, ?_⟩
      rw [List.mem_cons, not_or]
      exact ⟨fun same => apart same.symm, none⟩

theorem cut_append (behind : List UInt8) (none : mark ∉ before) :
    cut mark (before ++ mark :: behind) = some (before, behind) := by
  induction before with
  | nil => exact if_pos rfl
  | cons ch before ih =>
    rw [List.mem_cons, not_or] at none
    rw [List.cons_append, cut, if_neg fun same => none.1 same.symm, ih none.2]
    rfl

theorem idxOf?_eq_cut (mark : UInt8) (text : List UInt8) :
    text.idxOf? mark = (cut mark text).map fun parts => parts.1.length := by
  induction text with
  | nil => rfl
  | cons ch text ih =>
    rw [List.idxOf?_cons, cut, ih]
    by_cases same : ch = mark
    · simp [same]
    · cases cut mark text <;> simp [same]

/-- `find` from a position on looks at the text there. -/
theorem find_eq_cut (text : List UInt8) (mark : UInt8) (pos : Nat) :
    find text mark pos = (cut mark (text.drop pos)).map fun parts => pos + parts.1.length := by
  rw [find, idxOf?_eq_cut]
  cases cut mark (text.drop pos) <;> rfl

theorem drop_of_parts (parts : text = before ++ mark :: behind) :
    text.drop (before.length + 1) = behind := by
  rw [parts, ← List.drop_drop, List.drop_left, List.drop_one, List.tail_cons]

theorem cutPair_parts (found : cutPair startMark endMark text = some (outside, inside, rest)) :
    ∃ behind, cut startMark text = some (outside, behind) ∧
      cut endMark behind = some (inside, rest) := by
  obtain ⟨⟨before, behind⟩, first, found⟩ := Option.bind_eq_some_iff.mp found
  obtain ⟨⟨inside', rest'⟩, second, same⟩ := Option.bind_eq_some_iff.mp found
  obtain ⟨rfl, tail⟩ := Prod.mk.inj (Option.some.inj same)
  obtain ⟨rfl, rfl⟩ := Prod.mk.inj tail
  exact ⟨behind, first, second⟩

theorem length_cutPair (found : cutPair startMark endMark text = some (outside, inside, rest)) :
    rest.length < text.length := by
  obtain ⟨behind, first, second⟩ := cutPair_parts found
  rw [(cut_spec first).1, (cut_spec second).1]
  simp only [List.length_append, List.length_cons]
  omega

/-- The complete pairs of marks of a text, each with the text before it, and the text behind them. -/
def markedPairs (startMark endMark : UInt8) (text : List UInt8) :
    List (List UInt8 × List UInt8) × List UInt8 :=
  match _ : cutPair startMark endMark text with
  | none => ([], text)
  | some (outside, inside, rest) =>
      let (pairs, last) := markedPairs startMark endMark rest
      ((outside, inside) :: pairs, last)
termination_by text.length
decreasing_by exact length_cutPair ‹_›

/-- The fields of a text with marks, as they should be. -/
def markedFields (delimiter : UInt8) (marked : List (List UInt8 × List UInt8) × List UInt8) :
    List (List UInt8) :=
  marked.1.flatMap (fun pair => pieces pair.1 delimiter ++ [pair.2]) ++ pieces marked.2 delimiter

/-- The fields as the loop leaves them. -/
def droppedFields (delimiter : UInt8) (marked : List (List UInt8 × List UInt8) × List UInt8) :
    List (List UInt8) :=
  marked.1.flatMap (fun pair => pieces pair.1.dropLast delimiter ++ [pair.2]) ++
    pieces marked.2 delimiter

/-! ## The loop -/

variable {fields : List (List UInt8)}

theorem tokenizeMarkedFrom_last (unmarked : cutPair startMark endMark text = none) :
    tokenizeMarkedFrom delimiter startMark endMark text fields =
      fields ++ pieces text delimiter := by
  have last : tokenizeAppend text delimiter fields = fields ++ pieces text delimiter := by
    rw [tokenizeAppend, tokenize_eq_pieces]
  rw [tokenizeMarkedFrom, last]
  split
  · rfl
  rw [find_eq_cut, List.drop_zero]
  cases first : cut startMark text with
  | none => rfl
  | some parts =>
    obtain ⟨outside, behind⟩ := parts
    have second : cut endMark behind = none := by
      cases second : cut endMark behind with
      | none => rfl
      | some parts => simp [cutPair, first, second] at unmarked
    have dropped := drop_of_parts (cut_spec first).1
    simp only [Option.map_some, Nat.zero_add, find_eq_cut, dropped, second, Option.map_none]

theorem tokenizeMarkedFrom_pair
    (found : cutPair startMark endMark text = some (outside, inside, rest)) :
    tokenizeMarkedFrom delimiter startMark endMark text fields =
      tokenizeMarkedFrom delimiter startMark endMark rest
        (fields ++ pieces outside.dropLast delimiter ++ [inside]) := by
  have shorter := length_cutPair found
  obtain ⟨behind, first, second⟩ := cutPair_parts found
  have parts := (cut_spec first).1
  have dropped := drop_of_parts parts
  have some_text : text ≠ [] := List.ne_nil_of_length_pos (Nat.zero_lt_of_lt shorter)
  have preMark : (if 0 < outside.length then text.take (outside.length - 1) else []) =
      outside.dropLast := by
    rw [List.dropLast_eq_take]
    split
    · rw [parts, List.take_append_of_le_length (Nat.sub_le _ _)]
    · next none => rw [List.eq_nil_of_length_eq_zero (Nat.eq_zero_of_not_pos none), List.take_nil]
  have marked : behind.take inside.length = inside := by
    rw [(cut_spec second).1, List.take_left]
  have left : text.drop (outside.length + 1 + inside.length + 1) = rest := by
    rw [Nat.add_assoc _ inside.length 1, ← List.drop_drop, dropped,
      drop_of_parts (cut_spec second).1]
  rw [tokenizeMarkedFrom, dif_neg some_text, find_eq_cut, List.drop_zero, first]
  simp only [Option.map_some, Nat.zero_add, find_eq_cut, dropped, second, preMark,
    Nat.add_sub_cancel_left, marked, left, tokenizeAppend, tokenize_eq_pieces]

/-- The loop adds the fields of what is left of the text. -/
theorem tokenizeMarkedFrom_eq (text : List UInt8) (fields : List (List UInt8)) :
    tokenizeMarkedFrom delimiter startMark endMark text fields =
      fields ++ droppedFields delimiter (markedPairs startMark endMark text) := by
  rw [markedPairs]
  split
  · next none => exact tokenizeMarkedFrom_last none
  · next found =>
    have shorter := length_cutPair found
    rw [tokenizeMarkedFrom_pair found, tokenizeMarkedFrom_eq]
    simp [droppedFields]
termination_by text.length

/-! ## What is lost -/

/-- The fields of a piece hold its text without the delimiters. -/
theorem flatten_pieces (text : List UInt8) (delimiter : UInt8) :
    (pieces text delimiter).flatten = text.filter (· ≠ delimiter) := by
  rw [← tokenize_eq_pieces, flatten_tokenize]

/-- The last character of the text outside a pair makes no difference. -/
def Ends (delimiter : UInt8) (outside : List UInt8) : Prop :=
  outside = [] ∨ outside.getLast? = some delimiter

theorem pieces_dropLast (ends : Ends delimiter outside) :
    pieces outside.dropLast delimiter = pieces outside delimiter := by
  rcases ends with rfl | last
  · rfl
  · obtain ⟨text, rfl⟩ := List.getLast?_eq_some_iff.mp last
    rw [List.dropLast_concat, ← tokenize_eq_pieces, ← tokenize_eq_pieces]
    exact (tokenizeFrom_concat [] text).symm

/-- A character that is no delimiter is lost otherwise. -/
theorem length_pieces_dropLast (outside : List UInt8) :
    (pieces outside.dropLast delimiter).flatten.length ≤ (pieces outside delimiter).flatten.length ∧
      ((pieces outside.dropLast delimiter).flatten.length =
        (pieces outside delimiter).flatten.length → Ends delimiter outside) := by
  rw [flatten_pieces, flatten_pieces]
  rcases List.eq_nil_or_concat outside with rfl | ⟨text, last, rfl⟩
  · exact ⟨Nat.le_refl _, fun _ => .inl rfl⟩
  · rw [List.concat_eq_append, List.dropLast_concat, List.filter_append, List.length_append]
    refine ⟨Nat.le_add_right _ _, fun same => .inr ?_⟩
    have none : [last].filter (· ≠ delimiter) = [] :=
      List.eq_nil_of_length_eq_zero (by omega)
    rw [List.getLast?_concat]
    simpa using none

theorem length_dropped (pairs : List (List UInt8 × List UInt8)) :
    (pairs.flatMap fun pair => pieces pair.1.dropLast delimiter ++ [pair.2]).flatten.length ≤
        (pairs.flatMap fun pair => pieces pair.1 delimiter ++ [pair.2]).flatten.length ∧
      ((pairs.flatMap fun pair => pieces pair.1.dropLast delimiter ++ [pair.2]).flatten.length =
          (pairs.flatMap fun pair => pieces pair.1 delimiter ++ [pair.2]).flatten.length →
        ∀ pair ∈ pairs, Ends delimiter pair.1) := by
  induction pairs with
  | nil => exact ⟨Nat.le_refl _, fun _ pair pair_mem => by cases pair_mem⟩
  | cons pair pairs ih =>
    obtain ⟨fewer, whole⟩ := @length_pieces_dropLast delimiter pair.1
    simp only [List.flatMap_cons, List.flatten_append, List.length_append]
    refine ⟨by omega, fun same => ?_⟩
    rw [List.forall_mem_cons]
    exact ⟨whole (by omega), ih.2 (by omega)⟩

/-- The fields are as they should be if and only if, in every complete pair, nothing stands directly
before the start mark, or a delimiter does. -/
theorem tokenizeMarked_iff (source : List UInt8) (delimiter startMark endMark : UInt8) :
    tokenizeMarked source delimiter startMark endMark =
        markedFields delimiter (markedPairs startMark endMark source) ↔
      ∀ pair ∈ (markedPairs startMark endMark source).1, Ends delimiter pair.1 := by
  rw [tokenizeMarked, tokenizeMarkedFrom_eq, List.nil_append]
  constructor
  · intro same
    have lengths := congrArg (fun fields => fields.flatten.length) same
    simp only [droppedFields, markedFields, List.flatten_append, List.length_append] at lengths
    exact (length_dropped _).2 (by omega)
  · intro ends
    rw [droppedFields, markedFields]
    refine congrArg (· ++ _) (List.flatMap_congr fun pair pair_mem => ?_)
    rw [pieces_dropLast (ends pair pair_mem)]

/-- The `b` of `ab"cd"` is lost. -/
theorem tokenizeMarked_loses : ¬ ∀ (source : List UInt8) (delimiter startMark endMark : UInt8),
    delimiter ≠ startMark → delimiter ≠ endMark →
      tokenizeMarked source delimiter startMark endMark =
        markedFields delimiter (markedPairs startMark endMark source) := by
  intro right
  have pairs : markedPairs 0x22 0x22 [0x61, 0x62, 0x22, 0x63, 0x64, 0x22] =
      ([([0x61, 0x62], [0x63, 0x64])], []) := by
    simp [markedPairs, cutPair, cut]
  have same := right [0x61, 0x62, 0x22, 0x63, 0x64, 0x22] 0x20 0x22 0x22 (by decide) (by decide)
  rw [tokenizeMarked, tokenizeMarkedFrom_eq, pairs] at same
  exact absurd same (by decide)

end

end Libjingle.Strings

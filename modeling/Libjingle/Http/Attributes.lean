import Libjingle.Strings.RoundTrips

/-!
# Attribute lists

`HttpComposeAttributes` and `HttpParseAttributes` in `talk/base/httpcommon.cc`. A name ends at white
space or at an equal sign before a value, but not at a comma, so that a name without a value takes
the comma behind it.
-/

namespace Libjingle.Http

open Libjingle.Std CString Strings

abbrev HttpAttribute := List UInt8 × List UInt8

/-! ## Composing -/

/-- `EscapeAttribute`. -/
def escapeAttribute (value : List UInt8) : List UInt8 :=
  (escape (value.length * 2 + 1) value [0x22] 0x5C).text

def composeAttribute (attr : HttpAttribute) : List UInt8 :=
  attr.1 ++ if attr.2 = [] then [] else 0x3D :: 0x22 :: (escapeAttribute attr.2 ++ [0x22])

/-- `HttpComposeAttributes`. -/
def httpComposeAttributes (attributes : List HttpAttribute) (separator : UInt8) : List UInt8 :=
  [separator, 0x20].intercalate (attributes.map composeAttribute)

/-! ## Parsing -/

/-- `IsEndOfAttributeName`, where the text begins at the position. -/
def isEndOfAttributeName : List UInt8 → Bool
  | [] => true
  | ch :: rest =>
      isSpace ch || match rest with
        | [] => false
        | next :: _ => ch == 0x3D && !isSpace next && next != 0x3D

/-- The name up to its end. -/
def takeName : List UInt8 → List UInt8 × List UInt8
  | [] => ([], [])
  | ch :: rest =>
      if isEndOfAttributeName (ch :: rest) then ([], ch :: rest)
      else (ch :: (takeName rest).1, (takeName rest).2)

/-- The value behind an opening quote. -/
def takeQuoted : List UInt8 → List UInt8 × List UInt8
  | [] => ([], [])
  | ch :: rest =>
      if ch = 0x22 then ([], rest)
      else
        match rest with
        | [] => ([ch], [])
        | next :: behind =>
            if ch = 0x5C then (next :: (takeQuoted behind).1, (takeQuoted behind).2)
            else (ch :: (takeQuoted (next :: behind)).1, (takeQuoted (next :: behind)).2)

/-- A value without quotes goes on up to here. -/
def inValue (ch : UInt8) : Bool :=
  !isSpace ch && ch != 0x2C

/-- The value behind a name, if there is one. -/
def takeAttributeValue : List UInt8 → List UInt8 × List UInt8
  | 0x3D :: 0x22 :: rest => takeQuoted rest
  | 0x3D :: rest => (rest.takeWhile inValue, rest.dropWhile inValue)
  | text => ([], text)

def skipComma : List UInt8 → List UInt8
  | 0x2C :: rest => rest
  | text => text

/-- A round of the loop: an attribute, unless there is only white space. -/
def attributeRound : Codec.Round UInt8 HttpAttribute := fun _ text =>
  match skipSpace text with
  | [] => none
  | start =>
      let named := takeName start
      let valued := takeAttributeValue named.2
      some ([(named.1, valued.1)], skipComma valued.2)

/-- `HttpParseAttributes`. -/
def httpParseAttributes (data : List UInt8) : List HttpAttribute :=
  Codec.translate (fun _ => true) attributeRound 0 data

/-! ## Every round reads something -/

theorem length_takeName (text : List UInt8) :
    (takeName text).1.length + (takeName text).2.length = text.length := by
  fun_induction takeName text with
  | case1 => rfl
  | case2 ch rest ends => simp
  | case3 ch rest goes ih => simp only [List.length_cons]; omega

theorem length_takeQuoted (text : List UInt8) : (takeQuoted text).2.length ≤ text.length := by
  fun_induction takeQuoted text with
  | case1 => exact Nat.le_refl _
  | case2 ch => simp
  | case3 ch => simp
  | case4 next behind ih => simp only [List.length_cons]; omega
  | case5 ch next behind ih => simp only [List.length_cons] at *; omega

theorem length_takeAttributeValue (text : List UInt8) :
    (takeAttributeValue text).2.length ≤ text.length ∧
      (text.head? = some 0x3D → (takeAttributeValue text).2.length < text.length) := by
  unfold takeAttributeValue
  split
  · next rest =>
    have shorter := length_takeQuoted rest
    simp only [List.length_cons]
    omega
  · next rest _ =>
    have shorter := rest.length_dropWhile_le inValue
    simp only [List.length_cons]
    omega
  · next plain =>
    refine ⟨Nat.le_refl _, fun head => ?_⟩
    cases text with
    | nil => cases head
    | cons ch rest =>
      obtain rfl := Option.some.inj head
      exact absurd rfl (plain rest)

theorem length_skipComma (text : List UInt8) : (skipComma text).length ≤ text.length := by
  unfold skipComma
  split <;> simp

theorem head_of_takeName_nil {ch : UInt8} {rest : List UInt8} (solid : isSpace ch = false)
    (none : (takeName (ch :: rest)).1 = []) : (takeName (ch :: rest)).2.head? = some 0x3D := by
  unfold takeName at none ⊢
  split at none
  · next ends =>
    rw [if_pos ends]
    unfold isEndOfAttributeName at ends
    cases rest with
    | nil => simp [solid] at ends
    | cons next behind =>
      simp only [solid, Bool.false_or, Bool.and_eq_true, beq_iff_eq] at ends
      rw [List.head?_cons, ends.1.1]
  · cases none

theorem attributeRound_consumes : Codec.Consumes attributeRound := by
  intro pos text chunk rest turn
  unfold attributeRound at turn
  have skipped : (skipSpace text).length ≤ text.length := text.length_dropWhile_le isSpace
  split at turn
  · cases turn
  · next start some_start =>
    obtain ⟨-, rfl⟩ := Prod.mk.inj (Option.some.inj turn)
    obtain ⟨ch, others, whole⟩ := List.exists_cons_of_ne_nil (l := skipSpace text) some_start
    have solid : isSpace ch = false := by
      have first := text.head?_dropWhile_not isSpace
      rw [← skipSpace, whole] at first
      exact first
    have named := length_takeName (skipSpace text)
    have valued := length_takeAttributeValue (takeName (skipSpace text)).2
    have comma := length_skipComma (takeAttributeValue (takeName (skipSpace text)).2).2
    by_cases none : (takeName (skipSpace text)).1 = []
    · rw [whole] at none
      have head := head_of_takeName_nil solid none
      rw [← whole] at head
      have shorter := valued.2 head
      omega
    · have some_name := List.length_pos_of_ne_nil none
      omega

/-! ## Composed lists read back -/

/-- The names that lists are composed of. -/
def IsAttributeName (name : List UInt8) : Prop :=
  name ≠ [] ∧ ∀ ch ∈ name, isSpace ch = false ∧ ch ≠ 0x2C ∧ ch ≠ 0x3D ∧ ch ≠ 0x22

theorem takeName_append {name rest : List UInt8}
    (goes : ∀ ch ∈ name, isSpace ch = false ∧ ch ≠ 0x3D) (ends : isEndOfAttributeName rest = true) :
    takeName (name ++ rest) = (name, rest) := by
  induction name with
  | nil =>
    rw [List.nil_append]
    cases rest with
    | nil => rfl
    | cons ch rest => rw [takeName, if_pos ends]
  | cons ch name ih =>
    obtain ⟨solid, apart⟩ := goes ch List.mem_cons_self
    have on : ¬ isEndOfAttributeName (ch :: (name ++ rest)) = true := by
      unfold isEndOfAttributeName
      cases name ++ rest <;> simp [solid, apart]
    rw [List.cons_append, takeName, if_neg on, ih fun c mem => goes c (List.mem_cons_of_mem _ mem)]

theorem takeQuoted_escaped (value rest : List UInt8) :
    takeQuoted (value.flatMap (escapeUnit [0x22] 0x5C) ++ 0x22 :: rest) = (value, rest) := by
  induction value with
  | nil =>
    rw [List.flatMap_nil, List.nil_append]
    unfold takeQuoted
    rfl
  | cons ch value ih =>
    rw [List.flatMap_cons, List.append_assoc, escapeUnit]
    split
    · rw [List.cons_append, List.singleton_append, takeQuoted.eq_def]
      simp [ih]
    · next plain =>
      have not_escape : ch ≠ 0x5C := fun same => plain (.inl same)
      have not_quote : ch ≠ 0x22 := fun same => plain (.inr (by rw [same]; rfl))
      obtain ⟨next, behind, whole⟩ :=
        List.exists_cons_of_ne_nil (l := value.flatMap (escapeUnit [0x22] 0x5C) ++ 0x22 :: rest) (by simp)
      rw [whole] at ih
      rw [List.singleton_append, whole, takeQuoted.eq_def]
      simp [not_quote, not_escape, ih]

theorem escapeAttribute_eq (value : List UInt8) :
    escapeAttribute value = value.flatMap (escapeUnit [0x22] 0x5C) := by
  have few : ∀ ch, (escapeUnit [0x22] 0x5C ch).length ≤ 2 := fun ch => by
    unfold escapeUnit
    split <;> simp
  obtain ⟨taken, -, written, -, whole⟩ :=
    roundTrips_of_units (escapeRound_encodes [0x22] 0x5C (value.length * 2 + 1)) escapeRound_modest
      (fun _ => unescapeRound_decodes [0x22] 0x5C)
      (fun room => (@unescapeRound_modest room 0x5C).consumes) few value
  rw [escapeAttribute, escape, written, whole (by omega)]

theorem takeAttributeValue_quoted (value rest : List UInt8) :
    takeAttributeValue (0x3D :: 0x22 :: (escapeAttribute value ++ 0x22 :: rest)) = (value, rest) := by
  rw [escapeAttribute_eq]
  exact takeQuoted_escaped value rest

/-- A name that ends in the text is taken with what stands behind it. -/
theorem attributeRound_name {name blanks rest : List UInt8} (pos : Nat)
    (blank : ∀ ch ∈ blanks, isSpace ch = true) (some_name : name ≠ [])
    (goes : ∀ ch ∈ name, isSpace ch = false ∧ ch ≠ 0x3D) (ends : isEndOfAttributeName rest = true) :
    attributeRound pos (blanks ++ (name ++ rest)) =
      some ([(name, (takeAttributeValue rest).1)], skipComma (takeAttributeValue rest).2) := by
  have skipped : skipSpace (blanks ++ (name ++ rest)) = name ++ rest := by
    refine skipSpace_blanks blank fun c behind whole => ?_
    obtain ⟨first, others, rfl⟩ := List.exists_cons_of_ne_nil some_name
    obtain ⟨rfl, -⟩ := List.cons.inj whole
    exact (goes _ List.mem_cons_self).1
  unfold attributeRound
  rw [skipped]
  split
  · next none => exact absurd (List.append_eq_nil_iff.mp none).1 some_name
  · dsimp only
    rw [takeName_append goes ends]

theorem parse_of_round {text rest : List UInt8} {attr : HttpAttribute} {pos : Nat}
    (round : ∀ pos, attributeRound pos text = some ([attr], rest)) :
    Codec.translate (fun _ => true) attributeRound pos text =
      attr :: Codec.translate (fun _ => true) attributeRound (pos + 1) rest := by
  have left : text ≠ [] := by
    rintro rfl
    cases round 0
  exact Codec.translate_of_goes attributeRound_consumes ⟨left, rfl, round pos⟩

/-- What stands behind an attribute in a list. -/
def composeRest (attributes : List HttpAttribute) : List UInt8 :=
  attributes.flatMap fun attr => 0x2C :: 0x20 :: composeAttribute attr

theorem httpComposeAttributes_cons (attr : HttpAttribute) (attributes : List HttpAttribute) :
    httpComposeAttributes (attr :: attributes) 0x2C = composeAttribute attr ++ composeRest attributes := by
  rw [httpComposeAttributes, List.map_cons]
  induction attributes generalizing attr with
  | nil => simp [composeRest]
  | cons next attributes ih =>
    rw [List.map_cons, List.intercalate_cons_cons, ih]
    simp [composeRest]

section

variable {attr : HttpAttribute} {attributes : List HttpAttribute} {blanks : List UInt8}

/-- An attribute with a value is read, whatever stands behind it. -/
theorem attributeRound_valued (pos : Nat) (blank : ∀ ch ∈ blanks, isSpace ch = true)
    (name : IsAttributeName attr.1) (some_value : attr.2 ≠ []) (rest : List UInt8) :
    attributeRound pos (blanks ++ (composeAttribute attr ++ rest)) = some ([attr], skipComma rest) := by
  have goes : ∀ ch ∈ attr.1, isSpace ch = false ∧ ch ≠ 0x3D :=
    fun ch mem => ⟨(name.2 ch mem).1, (name.2 ch mem).2.2.1⟩
  have ends : isEndOfAttributeName (0x3D :: 0x22 :: (escapeAttribute attr.2 ++ 0x22 :: rest)) = true := rfl
  have whole : composeAttribute attr ++ rest =
      attr.1 ++ 0x3D :: 0x22 :: (escapeAttribute attr.2 ++ 0x22 :: rest) := by
    simp [composeAttribute, some_value]
  rw [whole, attributeRound_name pos blank name.1 goes ends, takeAttributeValue_quoted]

/-- A name without a value is read with the comma behind it. -/
theorem attributeRound_bare (pos : Nat) (blank : ∀ ch ∈ blanks, isSpace ch = true)
    (name : IsAttributeName attr.1) (no_value : attr.2 = []) (rest : List UInt8) :
    attributeRound pos (blanks ++ (composeAttribute attr ++ 0x2C :: 0x20 :: rest)) =
      some ([(attr.1 ++ [0x2C], [])], 0x20 :: rest) := by
  have goes : ∀ ch ∈ attr.1 ++ [0x2C], isSpace ch = false ∧ ch ≠ 0x3D := by
    intro ch mem
    rcases List.mem_append.mp mem with mem | comma
    · exact ⟨(name.2 ch mem).1, (name.2 ch mem).2.2.1⟩
    · obtain rfl := List.mem_singleton.mp comma
      decide
  have whole : composeAttribute attr ++ 0x2C :: 0x20 :: rest = (attr.1 ++ [0x2C]) ++ 0x20 :: rest := by
    simp [composeAttribute, no_value]
  rw [whole, attributeRound_name pos blank (by simp) goes rfl]
  rfl

theorem attributeRound_last (pos : Nat) (blank : ∀ ch ∈ blanks, isSpace ch = true)
    (name : IsAttributeName attr.1) :
    attributeRound pos (blanks ++ composeAttribute attr) = some ([attr], []) := by
  by_cases no_value : attr.2 = []
  · have goes : ∀ ch ∈ attr.1, isSpace ch = false ∧ ch ≠ 0x3D :=
      fun ch mem => ⟨(name.2 ch mem).1, (name.2 ch mem).2.2.1⟩
    have whole : composeAttribute attr = attr.1 ++ [] := by simp [composeAttribute, no_value]
    rw [whole, attributeRound_name pos blank name.1 goes rfl]
    exact congrArg (fun value => some ([(attr.1, value)], [])) no_value.symm
  · have round := attributeRound_valued pos blank name no_value []
    rwa [List.append_nil] at round

theorem parse_iff (blank : ∀ ch ∈ blanks, isSpace ch = true) (pos : Nat)
    (names : ∀ attr' ∈ attr :: attributes, IsAttributeName attr'.1) :
    Codec.translate (fun _ => true) attributeRound pos
        (blanks ++ (composeAttribute attr ++ composeRest attributes)) = attr :: attributes ↔
      ∀ attr' ∈ (attr :: attributes).dropLast, attr'.2 ≠ [] := by
  induction attributes generalizing attr blanks pos with
  | nil =>
    have name := names attr List.mem_cons_self
    rw [composeRest, List.flatMap_nil, List.append_nil,
      parse_of_round fun pos => attributeRound_last pos blank name]
    exact iff_of_true (congrArg _ (Codec.translate_of_stops (.inl rfl))) nofun
  | cons next attributes ih =>
    have name := names attr List.mem_cons_self
    have rest : composeRest (next :: attributes) =
        0x2C :: 0x20 :: (composeAttribute next ++ composeRest attributes) := by
      simp [composeRest]
    rw [rest, List.dropLast_cons_cons, List.forall_mem_cons]
    by_cases no_value : attr.2 = []
    · rw [parse_of_round fun pos => attributeRound_bare pos blank name no_value _]
      refine iff_of_false (fun same => ?_) fun valued => valued.1 no_value
      have length := congrArg List.length (congrArg Prod.fst (List.cons.inj same).1)
      simp at length
    · rw [parse_of_round fun pos => attributeRound_valued pos blank name no_value _]
      have spaces : ∀ ch ∈ [(0x20 : UInt8)], isSpace ch = true := by
        intro ch mem
        obtain rfl := List.mem_singleton.mp mem
        rfl
      have on := ih spaces (pos + 1) fun attr' mem => names attr' (List.mem_cons_of_mem _ mem)
      rw [List.cons_inj_right]
      exact on.trans ⟨fun valued => ⟨no_value, valued⟩, And.right⟩

end

/-- A list is read back exactly if every attribute but the last one has a value. -/
theorem httpParseAttributes_iff (attributes : List HttpAttribute)
    (names : ∀ attr ∈ attributes, IsAttributeName attr.1) :
    httpParseAttributes (httpComposeAttributes attributes 0x2C) = attributes ↔
      ∀ attr ∈ attributes.dropLast, attr.2 ≠ [] := by
  cases attributes with
  | nil => exact iff_of_true rfl nofun
  | cons attr attributes =>
    rw [httpComposeAttributes_cons]
    exact @parse_iff attr attributes [] nofun 0 names

theorem isAttributeName_ascii {first : UInt8} {others : List UInt8}
    (all : (first :: others).all (fun ch => !isSpace ch && ch != 0x2C && ch != 0x3D && ch != 0x22) =
      true) : IsAttributeName (first :: others) := by
  refine ⟨List.cons_ne_nil _ _, fun ch mem => ?_⟩
  have plain := List.all_eq_true.mp all ch mem
  simpa [and_assoc] using plain

/-- A realm with quotes and commas, and a flag behind it. -/
theorem realm_parsed : httpParseAttributes (httpComposeAttributes
      [(ofString "realm", ofString "a \"b\", c=\\d"), (ofString "stale", [])] 0x2C) =
    [(ofString "realm", ofString "a \"b\", c=\\d"), (ofString "stale", [])] := by
  refine (httpParseAttributes_iff _ fun attr mem => ?_).mpr fun attr mem => ?_
  · simp only [List.mem_cons, List.not_mem_nil, or_false] at mem
    rcases mem with rfl | rfl
    · exact isAttributeName_ascii (by decide +kernel)
    · exact isAttributeName_ascii (by decide +kernel)
  · obtain rfl := List.mem_singleton.mp mem
    decide +kernel

/-- A flag that is not the last attribute is read with a comma. -/
theorem flag_misparsed :
    ¬ ∀ attributes : List HttpAttribute, (∀ attr ∈ attributes, IsAttributeName attr.1) →
      (∀ attr ∈ attributes, 0 ∉ attr.2) →
        httpParseAttributes (httpComposeAttributes attributes 0x2C) = attributes := by
  intro all
  have names : ∀ attr ∈ [((ofString "stale", []) : HttpAttribute), (ofString "realm", [])],
      IsAttributeName attr.1 := by
    intro attr mem
    simp only [List.mem_cons, List.not_mem_nil, or_false] at mem
    rcases mem with rfl | rfl
    · exact isAttributeName_ascii (by decide +kernel)
    · exact isAttributeName_ascii (by decide +kernel)
  have parsed := all _ names fun attr mem => by
    simp only [List.mem_cons, List.not_mem_nil, or_false] at mem
    rcases mem with rfl | rfl <;> exact List.not_mem_nil
  exact absurd parsed (by decide +kernel)

end Libjingle.Http

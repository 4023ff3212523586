import Libjingle.Strings.UrlEncode

/-!
# HTML

The texts that `html_encode` is for are sequences of UTF-8: each is decoded to its code point, the
code point written in decimal digits, these read again, and the code point encoded.
-/

namespace Libjingle.Strings

open Libjingle.Std

/-! ## UTF-8 -/

/-- A value that has a sequence of at most four bytes. -/
abbrev CodePoint :=
  {value : Nat // value ≤ 0x1FFFFF}

/-- The shortest sequence of a code point. -/
def sequence (point : CodePoint) : List UInt8 :=
  let value := point.val
  let trail (shift : Nat) := UInt8.ofNat (0x80 + value / 2 ^ shift % 64)
  if value ≤ 0x7F then [UInt8.ofNat value]
  else if value ≤ 0x7FF then [UInt8.ofNat (0xC0 + value / 2 ^ 6), trail 0]
  else if value ≤ 0xFFFF then [UInt8.ofNat (0xE0 + value / 2 ^ 12), trail 6, trail 0]
  else [UInt8.ofNat (0xF0 + value / 2 ^ 18), trail 12, trail 6, trail 0]

theorem leader_eq (value shift : Nat) :
    (value / 2 ^ shift < 32 → leader 0xC0 value shift = UInt8.ofNat (0xC0 + value / 2 ^ shift)) ∧
    (value / 2 ^ shift < 16 → leader 0xE0 value shift = UInt8.ofNat (0xE0 + value / 2 ^ shift)) ∧
    (value / 2 ^ shift < 8 → leader 0xF0 value shift = UInt8.ofNat (0xF0 + value / 2 ^ shift)) := by
  have two : ∀ n : Fin 32, 0xC0 ||| UInt8.ofNat n = UInt8.ofNat (0xC0 + n) := by decide
  have three : ∀ n : Fin 16, 0xE0 ||| UInt8.ofNat n = UInt8.ofNat (0xE0 + n) := by decide
  have four : ∀ n : Fin 8, 0xF0 ||| UInt8.ofNat n = UInt8.ofNat (0xF0 + n) := by decide
  unfold leader
  rw [Nat.shiftRight_eq_div_pow]
  exact ⟨fun small => two ⟨_, small⟩, fun small => three ⟨_, small⟩, fun small => four ⟨_, small⟩⟩

theorem trailer_eq (value shift : Nat) :
    trailer value shift = UInt8.ofNat (0x80 + value / 2 ^ shift % 64) := by
  have all : ∀ n : Fin 64, 0x80 ||| UInt8.ofNat n = UInt8.ofNat (0x80 + n) := by decide
  have low : (value >>> shift) &&& 0x3F = value / 2 ^ shift % 64 := by
    rw [Nat.shiftRight_eq_div_pow]
    exact Nat.and_two_pow_sub_one_eq_mod _ 6
  unfold trailer
  rw [low]
  exact all ⟨_, Nat.mod_lt _ (by decide)⟩

/-- `utf8_encode` writes the shortest sequence, if it fits. -/
theorem utf8Encode_sequence {room : Nat} {point : CodePoint} (fits : (sequence point).length ≤ room) :
    utf8Encode room point.val = some (sequence point) := by
  obtain ⟨value, small⟩ := point
  unfold sequence at fits ⊢
  unfold utf8Encode
  simp only [trailer_eq] at fits ⊢
  by_cases one : value ≤ 0x7F
  · rw [if_pos one] at fits ⊢
    rw [if_pos ⟨one, fits⟩]
  rw [if_neg one] at fits ⊢
  rw [if_neg (fun h => one h.1)]
  by_cases two : value ≤ 0x7FF
  · rw [if_pos two] at fits ⊢
    rw [if_pos ⟨two, fits⟩, (leader_eq value 6).1 (by omega)]
  rw [if_neg two] at fits ⊢
  rw [if_neg (fun h => two h.1)]
  by_cases three : value ≤ 0xFFFF
  · rw [if_pos three] at fits ⊢
    rw [if_pos ⟨three, fits⟩, (leader_eq value 12).2.1 (by omega)]
  rw [if_neg three] at fits ⊢
  rw [if_neg (fun h => three h.1), if_pos ⟨small, fits⟩, (leader_eq value 18).2.2 (by omega)]

/-- A byte behind the first of a sequence. -/
theorem trail_byte {bitsOf : Nat} (low : bitsOf < 64) :
    isTrailer (UInt8.ofNat (0x80 + bitsOf)) = true ∧
      (UInt8.ofNat (0x80 + bitsOf) &&& 0x3F).toNat = bitsOf := by
  have all : ∀ n : Fin 64, isTrailer (UInt8.ofNat (0x80 + n)) = true ∧
      (UInt8.ofNat (0x80 + n) &&& 0x3F).toNat = n := by decide
  exact all ⟨bitsOf, low⟩

theorem lead_two {bitsOf : Nat} (low : bitsOf < 32) :
    ¬ UInt8.ofNat (0xC0 + bitsOf) &&& 0x80 = 0 ∧ UInt8.ofNat (0xC0 + bitsOf) &&& 0xE0 = 0xC0 ∧
      (UInt8.ofNat (0xC0 + bitsOf) &&& 0x1F).toNat = bitsOf := by
  have all : ∀ n : Fin 32, ¬ UInt8.ofNat (0xC0 + n) &&& 0x80 = 0 ∧
      UInt8.ofNat (0xC0 + n) &&& 0xE0 = 0xC0 ∧ (UInt8.ofNat (0xC0 + n) &&& 0x1F).toNat = n := by
    decide
  exact all ⟨bitsOf, low⟩

theorem lead_three {bitsOf : Nat} (low : bitsOf < 16) :
    ¬ UInt8.ofNat (0xE0 + bitsOf) &&& 0x80 = 0 ∧ ¬ UInt8.ofNat (0xE0 + bitsOf) &&& 0xE0 = 0xC0 ∧
      UInt8.ofNat (0xE0 + bitsOf) &&& 0xF0 = 0xE0 ∧
      (UInt8.ofNat (0xE0 + bitsOf) &&& 0x0F).toNat = bitsOf := by
  have all : ∀ n : Fin 16, ¬ UInt8.ofNat (0xE0 + n) &&& 0x80 = 0 ∧
      ¬ UInt8.ofNat (0xE0 + n) &&& 0xE0 = 0xC0 ∧ UInt8.ofNat (0xE0 + n) &&& 0xF0 = 0xE0 ∧
      (UInt8.ofNat (0xE0 + n) &&& 0x0F).toNat = n := by decide
  exact all ⟨bitsOf, low⟩

theorem lead_four {bitsOf : Nat} (low : bitsOf < 8) :
    ¬ UInt8.ofNat (0xF0 + bitsOf) &&& 0x80 = 0 ∧ ¬ UInt8.ofNat (0xF0 + bitsOf) &&& 0xE0 = 0xC0 ∧
      ¬ UInt8.ofNat (0xF0 + bitsOf) &&& 0xF0 = 0xE0 ∧ UInt8.ofNat (0xF0 + bitsOf) &&& 0xF8 = 0xF0 ∧
      (UInt8.ofNat (0xF0 + bitsOf) &&& 0x07).toNat = bitsOf := by
  have all : ∀ n : Fin 8, ¬ UInt8.ofNat (0xF0 + n) &&& 0x80 = 0 ∧
      ¬ UInt8.ofNat (0xF0 + n) &&& 0xE0 = 0xC0 ∧ ¬ UInt8.ofNat (0xF0 + n) &&& 0xF0 = 0xE0 ∧
      UInt8.ofNat (0xF0 + n) &&& 0xF8 = 0xF0 ∧ (UInt8.ofNat (0xF0 + n) &&& 0x07).toNat = n := by
    decide
  exact all ⟨bitsOf, low⟩

/-- `utf8_decode` reads the value of a sequence, whatever stands behind it. -/
theorem utf8Decode_sequence (point : CodePoint) (rest : List UInt8) :
    utf8Decode (sequence point ++ rest) = some (point.val, (sequence point).length) := by
  obtain ⟨value, small⟩ := point
  have join : ∀ {high low bitsOf : Nat}, low < 2 ^ bitsOf →
      high <<< bitsOf ||| low = high * 2 ^ bitsOf + low := fun fits => by
    rw [← Nat.shiftLeft_add_eq_or_of_lt fits, Nat.shiftLeft_eq]
  have trail : ∀ shift, isTrailer (UInt8.ofNat (0x80 + value / 2 ^ shift % 64)) = true ∧
      (UInt8.ofNat (0x80 + value / 2 ^ shift % 64) &&& 0x3F).toNat = value / 2 ^ shift % 64 :=
    fun _ => trail_byte (Nat.mod_lt _ (by decide))
  have low_two : (value / 2 ^ 6 % 64) <<< 6 ||| value / 2 ^ 0 % 64 =
      value / 2 ^ 6 % 64 * 2 ^ 6 + value / 2 ^ 0 % 64 := join (by omega)
  have high_two : (value / 2 ^ 12 % 64) <<< 6 ||| value / 2 ^ 6 % 64 =
      value / 2 ^ 12 % 64 * 2 ^ 6 + value / 2 ^ 6 % 64 := join (by omega)
  have all_three : (value / 2 ^ 12 % 64 * 2 ^ 6 + value / 2 ^ 6 % 64) <<< 6 ||| value / 2 ^ 0 % 64 =
      (value / 2 ^ 12 % 64 * 2 ^ 6 + value / 2 ^ 6 % 64) * 2 ^ 6 + value / 2 ^ 0 % 64 :=
    join (by omega)
  unfold sequence
  by_cases one : value ≤ 0x7F
  · rw [if_pos one]
    have ascii : ∀ n : Fin 128, UInt8.ofNat n &&& 0x80 = 0 ∧ (UInt8.ofNat n).toNat = n := by decide
    obtain ⟨first, same⟩ := ascii ⟨value, Nat.lt_succ_of_le one⟩
    simp only [List.cons_append, utf8Decode]
    rw [if_pos first, same]
    rfl
  rw [if_neg one]
  by_cases two : value ≤ 0x7FF
  · rw [if_pos two]
    obtain ⟨first, mark, lead⟩ := lead_two (by omega : value / 2 ^ 6 < 32)
    simp only [List.cons_append, utf8Decode]
    rw [if_neg first, if_neg (not_not.mpr (trail 0).1), if_pos mark, lead, (trail 0).2, join (by omega)]
    exact congrArg some (Prod.ext (by simp only; omega) rfl)
  rw [if_neg two]
  by_cases three : value ≤ 0xFFFF
  · rw [if_pos three]
    obtain ⟨first, two', mark, lead⟩ := lead_three (by omega : value / 2 ^ 12 < 16)
    simp only [List.cons_append, utf8Decode]
    rw [if_neg first, if_neg (not_not.mpr (trail 6).1), if_neg two', if_neg (not_not.mpr (trail 0).1),
      if_pos mark, lead, (trail 6).2, (trail 0).2, low_two, join (by omega)]
    exact congrArg some (Prod.ext (by simp only; omega) rfl)
  · rw [if_neg three]
    obtain ⟨first, two', three', mark, lead⟩ := lead_four (by omega : value / 2 ^ 18 < 8)
    simp only [List.cons_append, utf8Decode]
    rw [if_neg first, if_neg (not_not.mpr (trail 12).1), if_neg two', if_neg (not_not.mpr (trail 6).1),
      if_neg three', if_neg (not_not.mpr (trail 0).1), if_pos mark, lead, (trail 12).2, (trail 6).2,
      (trail 0).2, high_two, all_three, join (by omega)]
    exact congrArg some (Prod.ext (by simp only; omega) rfl)

/-! ## Units -/

/-- What `html_encode` writes for a code point. -/
def htmlUnit (point : CodePoint) : List UInt8 :=
  if point.val < 128 then
    let ch := UInt8.ofNat point.val
    if inClass htmlUnsafe ch then namedEscape (ascii ['&', '#', '3', '9', ';']) ch else [ch]
  else numericEscape point.val

theorem sequence_of_ascii {point : CodePoint} (small : point.val < 128) :
    sequence point = [UInt8.ofNat point.val] ∧ UInt8.ofNat point.val < 128 := by
  have below : ∀ n : Fin 128, UInt8.ofNat n < 128 := by decide
  exact ⟨if_pos (Nat.le_of_lt_succ small), below ⟨point.val, small⟩⟩

theorem sequence_ne_nil (point : CodePoint) : sequence point ≠ [] := by
  unfold sequence
  dsimp only
  split
  · exact List.cons_ne_nil _ _
  split
  · exact List.cons_ne_nil _ _
  split <;> exact List.cons_ne_nil _ _

/-- A round of the encoder finds a sequence and writes its unit. -/
theorem htmlSequence_sequence (point : CodePoint) (rest : List UInt8) :
    htmlSequence (sequence point ++ rest) = some (htmlUnit point, rest) := by
  by_cases small : point.val < 128
  · obtain ⟨single, below⟩ := sequence_of_ascii small
    unfold htmlUnit
    rw [single, if_pos small, List.singleton_append]
    simp only [htmlSequence, if_pos below]
    split <;> rfl
  · obtain ⟨first, others, parts⟩ := List.exists_cons_of_ne_nil (sequence_ne_nil point)
    have decoded := utf8Decode_sequence point rest
    have high : ¬ first < 128 := by
      intro below
      have mark : ∀ ch : UInt8, ch < 128 → ch &&& 0x80 = 0 ∧ ch.toNat < 128 :=
        CString.forall_byte (by decide +kernel)
      obtain ⟨plain, low⟩ := mark first below
      rw [parts, List.cons_append] at decoded
      simp only [utf8Decode, if_pos plain] at decoded
      have value := (Prod.mk.inj (Option.some.inj decoded)).1
      omega
    unfold htmlUnit
    rw [if_neg small]
    rw [parts, List.cons_append] at decoded ⊢
    simp only [htmlSequence, if_neg high, decoded]
    rw [← List.cons_append, List.drop_left]

theorem characterReference_decimal {bits value : Nat} (fits : value < 2 ^ bits)
    (rest : List UInt8) :
    characterReference bits (CString.decimal value ++ 0x3B :: rest) = some (value, rest) := by
  have read : CString.strtoul bits 10 (CString.decimal value ++ 0x3B :: rest) =
      (value, 0x3B :: rest) := by
    refine CString.strtoul_decimal fits fun c behind same => ?_
    obtain ⟨rfl, -⟩ := List.cons.inj same
    decide
  obtain ⟨first, digits, whole⟩ := List.exists_cons_of_ne_nil (CString.decimal_ne_nil value)
  have range := CString.decimal_range (whole ▸ List.mem_cons_self : first ∈ CString.decimal value)
  have apart : first ≠ 0x78 := by
    rintro rfl
    exact absurd range (by decide)
  unfold characterReference
  split
  next intBase text same =>
  rw [whole, List.cons_append] at same
  split at same
  · next hex => exact absurd (List.cons.inj hex).1 apart
  · obtain ⟨rfl, rfl⟩ := Prod.mk.inj same
    rw [← List.cons_append, ← whole, read]
    rfl

/-- A numeric escape is decoded to the sequence of its value, if that fits. -/
theorem xmlDecodeRound_numericEscape {bits buflen pos value : Nat} (fits : value < 2 ^ bits)
    (rest : List UInt8) :
    xmlDecodeRound bits buflen pos (numericEscape value ++ rest) =
      (utf8Encode (buflen - pos) value).map fun chunk => (chunk, rest) := by
  have text : numericEscape value ++ rest =
      0x26 :: 0x23 :: (CString.decimal value ++ 0x3B :: rest) := by
    simp [numericEscape, ascii]
  have none : ∀ name : List Char, ascii name ≠ [] → (ascii name).head? ≠ some 0x23 →
      afterName name (0x23 :: (CString.decimal value ++ 0x3B :: rest)) = none := by
    intro name some apart
    unfold afterName
    rw [if_neg]
    intro named
    obtain ⟨first, others, parts⟩ := List.exists_cons_of_ne_nil some
    rw [parts, List.cons_prefix_cons] at named
    rw [parts, named.1] at apart
    exact apart rfl
  rw [text]
  simp only [xmlDecodeRound, none ['l', 't', ';'] (by decide) (by decide),
    none ['g', 't', ';'] (by decide) (by decide),
    none ['a', 'p', 'o', 's', ';'] (by decide) (by decide),
    none ['q', 'u', 'o', 't', ';'] (by decide) (by decide),
    none ['a', 'm', 'p', ';'] (by decide) (by decide), characterReference_decimal fits]
  simp

/-- The unit of a code point is a plain character, a named escape or a numeric one. -/
theorem htmlUnit_cases (point : CodePoint) :
    (∃ ch, ch < 128 ∧ ch ∉ [0x22, 0x26, 0x27, 0x3C, 0x3E] ∧ sequence point = [ch] ∧
        htmlUnit point = [ch]) ∨
      (∃ ch, ch ∈ [0x22, 0x26, 0x3C, 0x3E] ∧ sequence point = [ch] ∧
        htmlUnit point = namedEscape (ascii ['&', '#', '3', '9', ';']) ch) ∨
      htmlUnit point = numericEscape point.val := by
  by_cases small : point.val < 128
  · obtain ⟨single, below⟩ := sequence_of_ascii small
    have apostrophe : ∀ n : Fin 128, UInt8.ofNat n = 0x27 → n.val = 39 := by decide
    unfold htmlUnit
    rw [if_pos small]
    dsimp only
    split
    · next markup =>
      have chars := (xmlUnsafe_iff (UInt8.ofNat point.val)).mp markup
      by_cases quote : UInt8.ofNat point.val = 0x27
      · right; right
        have value : point.val = 39 := apostrophe ⟨point.val, small⟩ quote
        rw [quote, value]
        decide
      · right; left
        refine ⟨_, ?_, single, rfl⟩
        simpa [quote] using chars
    · next plain =>
      left
      refine ⟨_, below, fun markup => plain ?_, single, rfl⟩
      exact (xmlUnsafe_iff (UInt8.ofNat point.val)).mpr (by simpa using markup)
  · right; right
    exact if_neg small

/-- A unit is read back as its sequence, if that fits. -/
theorem xmlDecodeRound_htmlUnit {bits buflen pos : Nat} (long : 32 ≤ bits) (point : CodePoint)
    (rest : List UInt8) (fits : pos + (sequence point).length < buflen) :
    xmlDecodeRound bits buflen pos (htmlUnit point ++ rest) = some (sequence point, rest) := by
  rcases htmlUnit_cases point with ⟨ch, -, plain, single, unit⟩ | ⟨ch, markup, single, unit⟩ | unit
  · have apart : ch ≠ 0x26 := by
      rintro rfl
      exact plain (by decide)
    rw [unit, single]
    simp [xmlDecodeRound, apart]
  · rw [unit, single]
    simp only [List.mem_cons, List.not_mem_nil, or_false] at markup
    rcases markup with rfl | rfl | rfl | rfl
    · simp [namedEscape, ascii, xmlDecodeRound, afterName]
    · simp [namedEscape, ascii, xmlDecodeRound, afterName]
    · simp [namedEscape, ascii, xmlDecodeRound, afterName]
    · simp [namedEscape, ascii, xmlDecodeRound, afterName]
  · have width : point.val < 2 ^ bits := by
      have least : 2 ^ 32 ≤ 2 ^ bits := Nat.pow_le_pow_right (by decide) long
      have small := point.property
      omega
    rw [unit, xmlDecodeRound_numericEscape width, utf8Encode_sequence (by omega)]
    rfl

/-- A unit takes at most six bytes for each of its sequence. -/
theorem length_htmlUnit (point : CodePoint) :
    0 < (htmlUnit point).length ∧ (htmlUnit point).length ≤ 6 * (sequence point).length := by
  have some_byte := List.length_pos_of_ne_nil (sequence_ne_nil point)
  rcases htmlUnit_cases point with ⟨ch, -, -, -, unit⟩ | ⟨ch, markup, -, unit⟩ | unit
  · rw [unit, List.length_singleton]
    omega
  · have few : 0 < (htmlUnit point).length ∧ (htmlUnit point).length ≤ 6 := by
      rw [unit]
      simp only [List.mem_cons, List.not_mem_nil, or_false] at markup
      rcases markup with rfl | rfl | rfl | rfl <;> decide
    omega
  · have length : (htmlUnit point).length = (CString.decimal point.val).length + 3 := by
      rw [unit]
      simp [numericEscape, ascii]
    have small := point.property
    have longest : (CString.decimal point.val).length ≤ 7 := CString.length_decimal_le (by omega)
    rw [length]
    refine ⟨Nat.succ_pos _, ?_⟩
    by_cases two : 2 ≤ (sequence point).length
    · omega
    · have short : (CString.decimal point.val).length ≤ 3 := by
        refine CString.length_decimal_le (Nat.lt_of_le_of_lt ?_ (by decide : 0x7F < 10 ^ 3))
        by_contra above
        unfold sequence at two
        dsimp only at two
        rw [if_neg above] at two
        split at two
        · exact two (by simp)
        split at two <;> exact two (by simp)
      omega

theorem length_flatMap_htmlUnit (points : List CodePoint) :
    (points.flatMap htmlUnit).length ≤ 6 * (points.flatMap sequence).length := by
  induction points with
  | nil => exact Nat.zero_le _
  | cons point points ih =>
    have here := (length_htmlUnit point).2
    simp only [List.flatMap_cons, List.length_append]
    omega

/-! ## Texts without markup -/

/-- An escape sequence. -/
def IsEscape (word : List UInt8) : Prop :=
  word ∈ [ascii ['&', 'l', 't', ';'], ascii ['&', 'g', 't', ';'],
    ascii ['&', 'q', 'u', 'o', 't', ';'], ascii ['&', 'a', 'm', 'p', ';']] ∨
  ∃ digits, digits ≠ [] ∧ (∀ c ∈ digits, 0x30 ≤ c ∧ c ≤ 0x39) ∧
    word = ascii ['&', '#'] ++ digits ++ [0x3B]

/-- An ASCII text without `<`, `>`, `'` and `"`, in which `&` starts escape sequences only. -/
structure Escaped (text : List UInt8) : Prop where
  ascii : ∀ c ∈ text, c < 128
  plain : ∀ c ∈ text, c ∉ [0x3C, 0x3E, 0x27, 0x22]
  escapes : ∀ before after, text = before ++ 0x26 :: after →
    ∃ word rest, IsEscape word ∧ 0x26 :: after = word ++ rest

/-- The characters of a unit, and where `&` stands in it. -/
structure UnitEscaped (unit : List UInt8) : Prop where
  ascii : ∀ c ∈ unit, c < 128
  plain : ∀ c ∈ unit, c ∉ [0x3C, 0x3E, 0x27, 0x22]
  escapes : ∀ before after, unit = before ++ 0x26 :: after → before = [] ∧ IsEscape unit

theorem htmlUnit_escaped (point : CodePoint) : UnitEscaped (htmlUnit point) := by
  -- An escape begins with the only ampersand of it.
  have head : ∀ {others : List UInt8}, 0x26 ∉ others → IsEscape (0x26 :: others) →
      ∀ before after, 0x26 :: others = before ++ 0x26 :: after →
        before = [] ∧ IsEscape (0x26 :: others) := by
    intro others none escape before after parts
    refine ⟨?_, escape⟩
    cases before with
    | nil => rfl
    | cons first before =>
      obtain ⟨-, rfl⟩ := List.cons.inj parts
      exact absurd (List.mem_append_right before List.mem_cons_self) none
  rcases htmlUnit_cases point with ⟨ch, below, plain, -, unit⟩ | ⟨ch, markup, -, unit⟩ | unit
  · rw [unit]
    refine ⟨by simpa using below, ?_, ?_⟩
    · simp only [List.mem_cons, List.not_mem_nil, or_false, not_or] at plain
      simp [plain]
    · intro before after parts
      have ampersand : (0x26 : UInt8) ∈ [ch] := by
        rw [parts]
        exact List.mem_append_right before List.mem_cons_self
      obtain rfl := List.mem_singleton.mp ampersand
      exact absurd (by decide) plain
  · have named : IsEscape (htmlUnit point) ∧ (∀ c ∈ htmlUnit point, c < 128) ∧
        (∀ c ∈ htmlUnit point, c ∉ [0x3C, 0x3E, 0x27, 0x22]) ∧
        ∃ others, htmlUnit point = 0x26 :: others ∧ 0x26 ∉ others := by
      rw [unit]
      simp only [List.mem_cons, List.not_mem_nil, or_false] at markup
      rcases markup with rfl | rfl | rfl | rfl
      · exact ⟨.inl (by decide), by decide +kernel, by decide +kernel, _, rfl, by decide⟩
      · exact ⟨.inl (by decide), by decide +kernel, by decide +kernel, _, rfl, by decide⟩
      · exact ⟨.inl (by decide), by decide +kernel, by decide +kernel, _, rfl, by decide⟩
      · exact ⟨.inl (by decide), by decide +kernel, by decide +kernel, _, rfl, by decide⟩
    obtain ⟨escape, ascii, plain, others, whole, none⟩ := named
    refine ⟨ascii, plain, ?_⟩
    rw [whole] at escape ⊢
    exact head none escape
  · have digits : ∀ c ∈ CString.decimal point.val, 0x30 ≤ c ∧ c ≤ 0x39 :=
      fun c c_mem => CString.decimal_range c_mem
    have whole : htmlUnit point = 0x26 :: 0x23 :: (CString.decimal point.val ++ [0x3B]) := by
      rw [unit]
      simp [numericEscape, Strings.ascii]
    have chars : ∀ c ∈ htmlUnit point, c = 0x26 ∨ c = 0x23 ∨ (0x30 ≤ c ∧ c ≤ 0x39) ∨ c = 0x3B := by
      intro c c_mem
      rw [whole] at c_mem
      simp only [List.mem_cons, List.mem_append, List.not_mem_nil, or_false] at c_mem
      rcases c_mem with rfl | rfl | digit | rfl
      · exact .inl rfl
      · exact .inr (.inl rfl)
      · exact .inr (.inr (.inl (digits c digit)))
      · exact .inr (.inr (.inr rfl))
    have safe : ∀ c : UInt8, c = 0x26 ∨ c = 0x23 ∨ (0x30 ≤ c ∧ c ≤ 0x39) ∨ c = 0x3B →
        c < 128 ∧ c ∉ [0x3C, 0x3E, 0x27, 0x22] := CString.forall_byte (by decide +kernel)
    refine ⟨fun c c_mem => (safe c (chars c c_mem)).1, fun c c_mem => (safe c (chars c c_mem)).2, ?_⟩
    rw [whole]
    refine head ?_ (.inr ⟨_, CString.decimal_ne_nil point.val, digits, ?_⟩)
    · simp only [List.mem_cons, List.mem_append, List.not_mem_nil, or_false, not_or]
      exact ⟨by decide, fun digit => absurd (digits _ digit) (by decide), by decide⟩
    · simp [Strings.ascii]

theorem flatMap_escaped (points : List CodePoint) : Escaped (points.flatMap htmlUnit) where
  ascii c c_mem := by
    obtain ⟨point, -, c_mem⟩ := List.mem_flatMap.mp c_mem
    exact (htmlUnit_escaped point).ascii c c_mem
  plain c c_mem := by
    obtain ⟨point, -, c_mem⟩ := List.mem_flatMap.mp c_mem
    exact (htmlUnit_escaped point).plain c c_mem
  escapes := by
    induction points with
    | nil =>
      intro before after parts
      exact absurd parts.symm (List.append_ne_nil_of_right_ne_nil _ (List.cons_ne_nil _ _))
    | cons point points ih =>
      intro before after parts
      rw [List.flatMap_cons] at parts
      rcases List.append_eq_append_iff.mp parts with ⟨middle, -, behind⟩ | ⟨middle, unit, behind⟩
      · exact ih middle after behind
      · cases middle with
        | nil => exact ih [] after behind.symm
        | cons first middle =>
          obtain ⟨rfl, behind⟩ := List.cons.inj behind
          obtain ⟨rfl, escape⟩ := (htmlUnit_escaped point).escapes before middle unit
          exact ⟨htmlUnit point, points.flatMap htmlUnit, escape, parts.symm⟩

/-! ## The round trip -/

theorem htmlEncodeRound_translates (buflen : Nat) :
    Codec.Translates (guard buflen) (htmlEncodeRound buflen) buflen sequence htmlUnit where
  filled := sequence_ne_nil
  fits point pos room := by
    have some_byte := (length_htmlUnit point).1
    exact decide_eq_true (by omega)
  turn point rest pos room := by
    simp only [htmlEncodeRound, htmlSequence_sequence]
    rw [if_neg (Nat.not_le.mpr room)]

theorem xmlDecodeRound_translates {bits : Nat} (long : 32 ≤ bits) (buflen : Nat) :
    Codec.Translates (guard buflen) (xmlDecodeRound bits buflen) buflen htmlUnit sequence where
  filled point := List.ne_nil_of_length_pos (length_htmlUnit point).1
  fits point pos room := by
    have some_byte := List.length_pos_of_ne_nil (sequence_ne_nil point)
    exact decide_eq_true (by omega)
  turn point rest pos room := xmlDecodeRound_htmlUnit long point rest room

/-- A text in UTF-8 is encoded without markup, and decoded again. -/
theorem html_roundTrip {bits buflen room : Nat} (long : 32 ≤ bits) (points : List CodePoint)
    (ample : 6 * (points.flatMap sequence).length < buflen)
    (ample' : (points.flatMap sequence).length < room) :
    (htmlDecode bits room (htmlEncode buflen (points.flatMap sequence)).text).text =
        points.flatMap sequence ∧
      Escaped (htmlEncode buflen (points.flatMap sequence)).text := by
  have length := length_flatMap_htmlUnit points
  have encoded : (htmlEncode buflen (points.flatMap sequence)).text = points.flatMap htmlUnit := by
    rw [htmlEncode, codec_text]
    exact (htmlEncodeRound_translates buflen).whole htmlEncodeRound_modest.consumes (by omega)
  rw [encoded]
  refine ⟨?_, flatMap_escaped points⟩
  rw [htmlDecode, xmlDecode, codec_text]
  exact (xmlDecodeRound_translates long room).whole xmlDecodeRound_consumes (by omega)

/-- `<`, a character of two bytes and NUL. -/
theorem html_roundTrip_markup :
    (htmlDecode 64 5 (htmlEncode 25 [0x3C, 0xC3, 0xA9, 0]).text).text = [0x3C, 0xC3, 0xA9, 0] ∧
      Escaped (htmlEncode 25 [0x3C, 0xC3, 0xA9, 0]).text := by
  have text : List.flatMap sequence [⟨0x3C, by decide⟩, ⟨0xE9, by decide⟩, ⟨0, by decide⟩] =
      [0x3C, 0xC3, 0xA9, 0] := by decide
  rw [← text]
  exact html_roundTrip (by decide) _ (by decide) (by decide)

end Libjingle.Strings

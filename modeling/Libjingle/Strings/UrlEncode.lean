import Libjingle.Strings.HexDigits

/-!
# `urlencode.cc`

The loop of the encoder leaves room for a terminator behind an escape, but not behind a plain
character: one may fill the buffer, and the terminator is then written behind the end. The string
functions give the encoder room enough.
-/

namespace Libjingle.Strings

open Libjingle.Std

/-! ## Decoding -/

/-- A digit of `HexPairValue`. -/
def hexPairDigit (digit : UInt8) : Option Nat :=
  if 0x30 ≤ digit ∧ digit ≤ 0x39 then some (digit.toNat - 0x30)
  else if 0x41 ≤ digit ∧ digit ≤ 0x46 then some (digit.toNat - 0x41 + 10)
  else if 0x61 ≤ digit ∧ digit ≤ 0x66 then some (digit.toNat - 0x61 + 10)
  else none

/-- `HexPairValue`; nothing stands for -1. -/
def hexPairValue (code1 code2 : UInt8) : Option Nat :=
  match hexPairDigit code1, hexPairDigit code2 with
  | some high, some low => some ((high <<< 4) + low)
  | _, _ => none

def internalUrlDecodeRound (encodeSpaceAsPlus : Bool) : Codec.Round UInt8 UInt8
  | _, [] => none
  | _, ch :: source =>
      if ch = 0x2B then some ([if encodeSpaceAsPlus then 0x20 else ch], source)
      else if ch = 0x25 then
        match source with
        | code1 :: code2 :: rest =>
            match hexPairValue code1 code2 with
            | some value => some ([UInt8.ofNat value], rest)
            | none => some ([0x3F], source)
        | _ => some ([0x3F], source)
      else some ([ch], source)

/-- `InternalUrlDecodeString`. -/
def internalUrlDecodeString (encoded : List UInt8) (encodeSpaceAsPlus : Bool) : List UInt8 :=
  let bytes := Codec.translate (fun _ => true) (internalUrlDecodeRound encodeSpaceAsPlus) 0
    (CString.terminated encoded)
  CString.terminated (bytes ++ [0])

def urlDecodeString (encoded : List UInt8) : List UInt8 :=
  internalUrlDecodeString encoded true

def urlDecodeStringWithoutEncodingSpaceAsPlus (encoded : List UInt8) : List UInt8 :=
  internalUrlDecodeString encoded false

/-! ## Encoding -/

/-- The characters that are unsafe beside controls and the space: `\ " ^ & < > [ ] { }` and the
backquote. -/
def unsafeCharacters : List UInt8 :=
  [0x5C, 0x22, 0x5E, 0x26, 0x60, 0x3C, 0x3E, 0x5B, 0x5D, 0x7B, 0x7D]

/-- The characters that are valid beside letters and digits: `- _ . ! ~ * ( )` and the apostrophe. -/
def markCharacters : List UInt8 :=
  [0x2D, 0x5F, 0x2E, 0x21, 0x7E, 0x2A, 0x27, 0x28, 0x29]

/-- `IsValidUrlChar`. Whether a `char` has a sign is left to the platform. -/
def isValidUrlChar (signed : Bool) (ch : UInt8) (unsafeOnly : Bool) : Bool :=
  if unsafeOnly then
    ¬ ((ch ≤ 0x20 ∨ (signed ∧ 128 ≤ ch)) ∨ strchr unsafeCharacters ch)
  else CString.isAlnum ch ∨ strchr markCharacters ch

/-- `digits`. -/
def upperDigits : List UInt8 :=
  ascii ['0', '1', '2', '3', '4', '5', '6', '7', '8', '9', 'A', 'B', 'C', 'D', 'E', 'F']

def upperPair (ch : UInt8) : List UInt8 :=
  [0x25, upperDigits.getD ((ch >>> 4) &&& 0x0F).toNat 0, upperDigits.getD (ch &&& 0x0F).toNat 0]

/-- The flags of the encoder, and the platform's `char`. -/
structure UrlFlags where
  signed : Bool
  encodeSpaceAsPlus : Bool
  unsafeOnly : Bool
  deriving DecidableEq, Repr

/-- What is written for a character. -/
def urlUnit (flags : UrlFlags) (ch : UInt8) : List UInt8 :=
  if ch = 0x20 ∧ flags.encodeSpaceAsPlus ∧ ¬ flags.unsafeOnly then [0x2B]
  else if isValidUrlChar flags.signed ch flags.unsafeOnly then [ch]
  else upperPair ch

/-- The length is taken for an `unsigned int` in both tests. -/
def internalUrlEncodeRound (flags : UrlFlags) (max : Nat) : Codec.Round UInt8 UInt8
  | _, [] => none
  | pos, ch :: source =>
      if ch = 0x20 ∧ flags.encodeSpaceAsPlus ∧ ¬ flags.unsafeOnly then some ([0x2B], source)
      else if isValidUrlChar flags.signed ch flags.unsafeOnly then some ([ch], source)
      else if max < (pos % 2 ^ 32 + 4) % 2 ^ 32 then none
      else some (upperPair ch, source)

/-- `InternalUrlEncode`, `max` being an `unsigned int`. -/
def internalUrlEncode (flags : UrlFlags) (source : List UInt8) (max : Nat) : Written :=
  if max = 0 then ⟨[], 0⟩
  else
    let bytes := Codec.translate (fun pos => pos % 2 ^ 32 < max) (internalUrlEncodeRound flags max) 0
      (CString.terminated source)
    ⟨bytes ++ [0], bytes.length⟩

/-- `InternalUrlEncodeString`. The array has room for three bytes a character; its length is taken
for an `unsigned int`. What an array holds that nothing was written to is not said. -/
def internalUrlEncodeString (flags : UrlFlags) (decoded : List UInt8) : Option (List UInt8) :=
  let neededLength := decoded.length * 3 + 1
  match (internalUrlEncode flags decoded (neededLength % 2 ^ 32)).buffer with
  | [] => none
  | buffer => some (CString.terminated buffer)

def urlEncodeString (signed : Bool) (decoded : List UInt8) : Option (List UInt8) :=
  internalUrlEncodeString ⟨signed, true, false⟩ decoded

def urlEncodeStringWithoutEncodingSpaceAsPlus (signed : Bool) (decoded : List UInt8) :
    Option (List UInt8) :=
  internalUrlEncodeString ⟨signed, false, false⟩ decoded

/-! ## Characters -/

section

variable {flags : UrlFlags} {max pos : Nat}

theorem length_urlUnit (flags : UrlFlags) (ch : UInt8) :
    (urlUnit flags ch).length = 1 ∨ (urlUnit flags ch).length = 3 := by
  unfold urlUnit
  split
  · exact .inl rfl
  split
  · exact .inl rfl
  · exact .inr rfl

theorem internalUrlEncodeRound_cons (ch : UInt8) (source : List UInt8) :
    internalUrlEncodeRound flags max pos (ch :: source) =
      if (urlUnit flags ch).length = 3 ∧ max < (pos % 2 ^ 32 + 4) % 2 ^ 32 then none
      else some (urlUnit flags ch, source) := by
  simp only [internalUrlEncodeRound, urlUnit]
  split
  · simp
  split
  · simp
  · simp [upperPair]

theorem internalUrlEncodeRound_consumes : Codec.Consumes (internalUrlEncodeRound flags max) := by
  intro pos source chunk rest turn
  cases source with
  | nil => cases turn
  | cons ch source =>
    rw [internalUrlEncodeRound_cons] at turn
    split at turn
    · cases turn
    · obtain ⟨-, rfl⟩ := Prod.mk.inj (Option.some.inj turn)
      exact Nat.lt_succ_self _

theorem internalUrlDecodeRound_consumes {plus : Bool} :
    Codec.Consumes (internalUrlDecodeRound plus) := by
  intro pos source chunk rest turn
  cases source with
  | nil => cases turn
  | cons ch source =>
    simp only [internalUrlDecodeRound] at turn
    split at turn
    · obtain ⟨-, rfl⟩ := Prod.mk.inj (Option.some.inj turn)
      exact Nat.lt_succ_self _
    split at turn
    · split at turn
      · split at turn
        · obtain ⟨-, rfl⟩ := Prod.mk.inj (Option.some.inj turn)
          simp only [List.length_cons]
          omega
        · obtain ⟨-, rfl⟩ := Prod.mk.inj (Option.some.inj turn)
          exact Nat.lt_succ_self _
      · obtain ⟨-, rfl⟩ := Prod.mk.inj (Option.some.inj turn)
        exact Nat.lt_succ_self _
    · obtain ⟨-, rfl⟩ := Prod.mk.inj (Option.some.inj turn)
      exact Nat.lt_succ_self _

/-- The digits of an escape are read as its character. -/
theorem hexPairValue_upperPair (ch : UInt8) : ∃ code1 code2,
    upperPair ch = [0x25, code1, code2] ∧ code1 ≠ 0 ∧ code2 ≠ 0 ∧
      hexPairValue code1 code2 = some ch.toNat := by
  have digits : ∀ ch : UInt8,
      upperDigits.getD ((ch >>> 4) &&& 0x0F).toNat 0 ≠ 0 ∧
        upperDigits.getD (ch &&& 0x0F).toNat 0 ≠ 0 ∧
        hexPairValue (upperDigits.getD ((ch >>> 4) &&& 0x0F).toNat 0)
          (upperDigits.getD (ch &&& 0x0F).toNat 0) = some ch.toNat :=
    CString.forall_byte (by decide +kernel)
  exact ⟨_, _, rfl, digits ch⟩

/-- What is written for a character is read back by the decoder of the same kind. -/
theorem internalUrlDecodeRound_urlUnit (every : flags.unsafeOnly = false) (ch : UInt8)
    (rest : List UInt8) :
    internalUrlDecodeRound flags.encodeSpaceAsPlus pos (urlUnit flags ch ++ rest) =
      some ([ch], rest) := by
  have plain : ∀ ch : UInt8, isValidUrlChar flags.signed ch false → ch ≠ 0x2B ∧ ch ≠ 0x25 :=
    CString.forall_byte (by cases flags.signed <;> decide +kernel)
  unfold urlUnit
  rw [every]
  split
  · next space =>
    obtain ⟨rfl, plus, -⟩ := space
    simp [internalUrlDecodeRound, plus]
  split
  · next valid =>
    obtain ⟨notPlus, notPercent⟩ := plain ch valid
    simp [internalUrlDecodeRound, notPlus, notPercent]
  · obtain ⟨code1, code2, digits, -, -, value⟩ := hexPairValue_upperPair ch
    rw [digits]
    simp [internalUrlDecodeRound, value]

theorem zero_notMem_urlUnit {ch : UInt8} (solid : ch ≠ 0) : 0 ∉ urlUnit flags ch := by
  unfold urlUnit
  split
  · simp
  split
  · simpa using solid.symm
  · obtain ⟨code1, code2, digits, solid1, solid2, -⟩ := hexPairValue_upperPair ch
    rw [digits]
    simp [solid1.symm, solid2.symm]

/-! ## The loop -/

/-- What the loop writes, from some place on. -/
def urlEncodeFrom (flags : UrlFlags) (max pos : Nat) (source : List UInt8) : List UInt8 :=
  Codec.translate (fun pos => pos % 2 ^ 32 < max) (internalUrlEncodeRound flags max) pos source

/-- The loop writes a character at a place. -/
def Writes (flags : UrlFlags) (max pos : Nat) (ch : UInt8) : Prop :=
  pos % 2 ^ 32 < max ∧ ¬ ((urlUnit flags ch).length = 3 ∧ max < (pos % 2 ^ 32 + 4) % 2 ^ 32)

theorem urlEncodeFrom_of_writes {ch : UInt8} {source : List UInt8}
    (writes : Writes flags max pos ch) : urlEncodeFrom flags max pos (ch :: source) =
      urlUnit flags ch ++ urlEncodeFrom flags max (pos + (urlUnit flags ch).length) source := by
  refine Codec.translate_of_goes internalUrlEncodeRound_consumes ?_
  exact ⟨List.cons_ne_nil _ _, decide_eq_true writes.1,
    by rw [internalUrlEncodeRound_cons, if_neg writes.2]⟩

theorem urlEncodeFrom_of_not_writes {ch : UInt8} {source : List UInt8}
    (stops : ¬ Writes flags max pos ch) : urlEncodeFrom flags max pos (ch :: source) = [] := by
  refine Codec.translate_of_stops ?_
  by_cases room : pos % 2 ^ 32 < max
  · have full : (urlUnit flags ch).length = 3 ∧ max < (pos % 2 ^ 32 + 4) % 2 ^ 32 :=
      by_contra fun fits => stops ⟨room, fits⟩
    right; right
    rw [internalUrlEncodeRound_cons, if_pos full]
  · right; left
    exact decide_eq_false room

/-- Places of a text and the characters that stand there, given by what is written before them. -/
def SomeCharacter (flags : UrlFlags) (p : Nat → UInt8 → Prop) (pos : Nat) (source : List UInt8) :
    Prop :=
  ∃ before ch after, source = before ++ ch :: after ∧
    p (pos + (before.flatMap (urlUnit flags)).length) ch

theorem someCharacter_cons {p : Nat → UInt8 → Prop} {ch : UInt8} {source : List UInt8} :
    SomeCharacter flags p pos (ch :: source) ↔
      p pos ch ∨ SomeCharacter flags p (pos + (urlUnit flags ch).length) source := by
  constructor
  · rintro ⟨before, ch', after, parts, holds⟩
    cases before with
    | nil =>
      obtain ⟨rfl, rfl⟩ := List.cons.inj parts
      exact .inl holds
    | cons first before =>
      obtain ⟨rfl, tail⟩ := List.cons.inj parts
      rw [List.flatMap_cons, List.length_append, ← Nat.add_assoc] at holds
      exact .inr ⟨before, ch', after, tail, holds⟩
  · rintro (holds | ⟨before, ch', after, rfl, holds⟩)
    · exact ⟨[], ch, source, rfl, holds⟩
    · refine ⟨ch :: before, ch', after, rfl, ?_⟩
      rwa [List.flatMap_cons, List.length_append, ← Nat.add_assoc]

theorem not_someCharacter_nil {p : Nat → UInt8 → Prop} : ¬ SomeCharacter flags p pos [] := by
  rintro ⟨before, ch, after, parts, -⟩
  exact absurd parts.symm (List.append_ne_nil_of_right_ne_nil _ (List.cons_ne_nil _ _))

/-- A character is written at a place of the buffer which leaves no room for the terminator: a plain
one is the last of the buffer, or the test for an escape overflows. -/
def LeavesNoRoom (flags : UrlFlags) (max pos : Nat) (ch : UInt8) : Prop :=
  pos < max ∧ ((urlUnit flags ch).length = 1 ∧ pos + 1 = max ∨
    (urlUnit flags ch).length = 3 ∧ 2 ^ 32 ≤ pos + 4)

/-- The loop stops in the buffer but for such a character. -/
theorem length_urlEncodeFrom_lt_iff (word : max < 2 ^ 32) (source : List UInt8) (inside : pos < max) :
    pos + (urlEncodeFrom flags max pos source).length < max ↔
      ¬ SomeCharacter flags (LeavesNoRoom flags max) pos source := by
  induction source generalizing pos with
  | nil =>
    have none : urlEncodeFrom flags max pos [] = [] := rfl
    simp only [none, not_someCharacter_nil, not_false_iff, iff_true]
    exact inside
  | cons ch source ih =>
    have same : pos % 2 ^ 32 = pos := Nat.mod_eq_of_lt (by omega)
    have lengths := length_urlUnit flags ch
    have behind : ¬ pos + (urlUnit flags ch).length < max →
        ¬ SomeCharacter flags (LeavesNoRoom flags max) (pos + (urlUnit flags ch).length) source := by
      rintro outside ⟨before, ch', after, -, inside, -⟩
      omega
    rw [someCharacter_cons]
    by_cases writes : Writes flags max pos ch
    · rw [urlEncodeFrom_of_writes writes, List.length_append, ← Nat.add_assoc]
      by_cases inside' : pos + (urlUnit flags ch).length < max
      · rw [ih inside']
        have room : ¬ LeavesNoRoom flags max pos ch := by
          rintro ⟨-, plain | escaped⟩ <;> omega
        simp only [room, false_or]
      · have noRoom : LeavesNoRoom flags max pos ch := by
          refine ⟨inside, ?_⟩
          have test := writes.2
          rw [same] at test
          omega
        simp only [noRoom, true_or, not_true, iff_false]
        omega
    · rw [urlEncodeFrom_of_not_writes writes]
      have test : (urlUnit flags ch).length = 3 ∧ max < (pos % 2 ^ 32 + 4) % 2 ^ 32 :=
        by_contra fun fits => writes ⟨by omega, fits⟩
      rw [same] at test
      have room : ¬ LeavesNoRoom flags max pos ch := by
        rintro ⟨-, plain | escaped⟩ <;> omega
      have outside := behind (by omega)
      simp only [room, outside, or_self, not_false_iff, iff_true]
      exact inside

/-- The whole text is written if every character of it is. -/
theorem urlEncodeFrom_eq_iff (source : List UInt8) :
    urlEncodeFrom flags max pos source = source.flatMap (urlUnit flags) ↔
      ¬ SomeCharacter flags (fun pos ch => ¬ Writes flags max pos ch) pos source := by
  induction source generalizing pos with
  | nil =>
    simp only [not_someCharacter_nil, not_false_iff, iff_true]
    rfl
  | cons ch source ih =>
    rw [someCharacter_cons, List.flatMap_cons]
    by_cases writes : Writes flags max pos ch
    · rw [urlEncodeFrom_of_writes writes, List.append_cancel_left_eq, ih]
      simp only [writes, not_true, false_or]
    · rw [urlEncodeFrom_of_not_writes writes]
      have some : urlUnit flags ch ≠ [] := by
        have lengths := length_urlUnit flags ch
        refine List.ne_nil_of_length_pos ?_
        omega
      simp [writes, some]

end

/-! ## Buffers -/

section

variable {flags : UrlFlags} {max : Nat} {source : List UInt8}

/-- The encoder stays in its buffer, and its assertion holds. -/
structure StaysInside (flags : UrlFlags) (max : Nat) (source : List UInt8) : Prop where
  inBounds : (internalUrlEncode flags source max).InBounds max
  asserted : (internalUrlEncode flags source max).length % 2 ^ 32 < max

theorem staysInside_iff (positive : 1 ≤ max) (word : max < 2 ^ 32) (solid : 0 ∉ source) :
    StaysInside flags max source ↔ ¬ SomeCharacter flags (LeavesNoRoom flags max) 0 source := by
  have written : internalUrlEncode flags source max =
      ⟨urlEncodeFrom flags max 0 source ++ [0], (urlEncodeFrom flags max 0 source).length⟩ := by
    unfold internalUrlEncode
    rw [if_neg (by omega), CString.terminated_of_solid solid]
    rfl
  rw [← length_urlEncodeFrom_lt_iff word source positive, Nat.zero_add]
  constructor
  · rintro ⟨inBounds, -⟩
    rw [written] at inBounds
    exact inBounds.below
  · intro below
    refine ⟨by rw [written, inBounds_iff]; exact below, ?_⟩
    rw [written]
    exact Nat.lt_of_le_of_lt (Nat.mod_le _ _) below

/-! ## Strings -/

/-- The length of the array, as the encoder is told it. -/
def neededLength (source : List UInt8) : Nat :=
  (source.length * 3 + 1) % 2 ^ 32

theorem zero_notMem_flatMap (solid : 0 ∉ source) : 0 ∉ source.flatMap (urlUnit flags) := by
  intro zero
  obtain ⟨ch, ch_mem, zero⟩ := List.mem_flatMap.mp zero
  exact zero_notMem_urlUnit (fun same => solid (same ▸ ch_mem)) zero

theorem flatMap_eq_nil (empty : source.flatMap (urlUnit flags) = []) : source = [] := by
  cases source with
  | nil => rfl
  | cons ch source =>
    have lengths := length_urlUnit flags ch
    rw [List.flatMap_cons, List.append_eq_nil_iff] at empty
    rw [empty.1] at lengths
    rcases lengths with none | none <;> cases none

/-- The decoder reads back what was written for a text. -/
theorem internalUrlDecodeString_flatMap (every : flags.unsafeOnly = false) (solid : 0 ∉ source) :
    internalUrlDecodeString (source.flatMap (urlUnit flags)) flags.encodeSpaceAsPlus = source := by
  have units : Codec.Translates (fun _ => true) (internalUrlDecodeRound flags.encodeSpaceAsPlus)
      (source.length + 1) (urlUnit flags) fun ch => [ch] := {
    filled := fun ch empty => by
      have none : [ch].flatMap (urlUnit flags) = [] := by rw [List.flatMap_singleton, empty]
      cases flatMap_eq_nil none
    fits := fun _ _ _ => rfl
    turn := fun ch rest _ _ => internalUrlDecodeRound_urlUnit every ch rest }
  have single : source.flatMap (fun ch => [ch]) = source := List.flatMap_singleton' source
  have room : 0 + (source.flatMap fun ch => [ch]).length < source.length + 1 := by
    rw [single, Nat.zero_add]
    exact Nat.lt_succ_self _
  have decoded := units.whole internalUrlDecodeRound_consumes room
  unfold internalUrlDecodeString
  rw [CString.terminated_of_solid (zero_notMem_flatMap solid), decoded, single]
  exact CString.terminated_append [] solid

/-- The string is encoded and read back. -/
def ReadsBack (flags : UrlFlags) (source : List UInt8) : Prop :=
  ∃ encoded, internalUrlEncodeString flags source = some encoded ∧
    internalUrlDecodeString encoded flags.encodeSpaceAsPlus = source

theorem readsBack_iff (every : flags.unsafeOnly = false) (solid : 0 ∉ source) :
    ReadsBack flags source ↔ ¬ SomeCharacter flags
      (fun pos ch => ¬ Writes flags (neededLength source) pos ch) 0 source := by
  rw [← urlEncodeFrom_eq_iff]
  obtain ⟨taken, first, written⟩ : ∃ taken, taken <+: source ∧
      urlEncodeFrom flags (neededLength source) 0 source = taken.flatMap (urlUnit flags) := by
    refine Codec.translate_prefix internalUrlEncodeRound_consumes (fun pos ch rest => ?_) 0 source
    rw [internalUrlEncodeRound_cons]
    split
    · exact .inl rfl
    · exact .inr rfl
  have solid' : 0 ∉ taken := fun zero => solid (first.subset zero)
  have decoded : ReadsBack flags source ↔ neededLength source ≠ 0 ∧ taken = source := by
    have string : internalUrlEncodeString flags source = if neededLength source = 0 then none
        else some (taken.flatMap (urlUnit flags)) := by
      unfold internalUrlEncodeString internalUrlEncode
      simp only [CString.terminated_of_solid solid]
      split
      · next none =>
        have zero : neededLength source = 0 := by
          by_contra some
          unfold neededLength at some
          rw [if_neg some] at none
          exact absurd none (List.append_ne_nil_of_right_ne_nil _ (List.cons_ne_nil _ _))
        rw [if_pos zero]
      · next some =>
        have positive : neededLength source ≠ 0 := by
          intro zero
          unfold neededLength at zero
          rw [if_pos zero] at some
          exact some rfl
        have bytes := CString.terminated_append [] (@zero_notMem_flatMap flags _ solid')
        rw [if_neg positive, ← bytes, ← written]
        unfold neededLength at positive ⊢
        rw [if_neg positive]
        rfl
    unfold ReadsBack
    rw [string]
    by_cases zero : neededLength source = 0
    · simp [zero]
    · simp [zero, internalUrlDecodeString_flatMap every solid']
  rw [decoded, written]
  constructor
  · rintro ⟨-, rfl⟩
    rfl
  · intro same
    obtain ⟨left, rfl⟩ := first
    rw [List.flatMap_append, List.self_eq_append_right] at same
    obtain rfl := flatMap_eq_nil same
    rw [List.append_nil] at written ⊢
    refine ⟨fun zero => ?_, rfl⟩
    have stuck : urlEncodeFrom flags (neededLength taken) 0 taken = [] :=
      Codec.translate_of_stops (.inr (.inl (decide_eq_false (by omega))))
    obtain rfl := flatMap_eq_nil (written.symm.trans stuck)
    exact absurd zero (by decide)

/-- A string that is not too long for an `unsigned int` always finds room. -/
theorem writes_of_short (short : source.length * 3 + 1 < 2 ^ 32) :
    ¬ SomeCharacter flags (fun pos ch => ¬ Writes flags (neededLength source) pos ch) 0 source := by
  rintro ⟨before, ch, after, parts, stops⟩
  have most : (before.flatMap (urlUnit flags)).length ≤ 3 * before.length := by
    refine length_flatMap_le (fun ch => ?_) before
    have lengths := length_urlUnit flags ch
    omega
  have length : source.length = before.length + (after.length + 1) := by
    rw [parts, List.length_append, List.length_cons]
  have needed : neededLength source = source.length * 3 + 1 := Nat.mod_eq_of_lt short
  refine stops ?_
  rw [Nat.zero_add, needed]
  constructor
  · rw [Nat.mod_eq_of_lt (by omega)]
    omega
  · rintro ⟨-, full⟩
    rw [Nat.mod_eq_of_lt (by omega : (before.flatMap (urlUnit flags)).length < 2 ^ 32),
      Nat.mod_eq_of_lt (by omega)] at full
    omega

end

/-- The encoder stays in a buffer of `max` bytes in each of its variants, and the two kinds of
strings are read back. -/
structure UrlEncodeSound (signed : Bool) (max : Nat) (source : List UInt8) : Prop where
  inside : ∀ encodeSpaceAsPlus unsafeOnly,
    StaysInside ⟨signed, encodeSpaceAsPlus, unsafeOnly⟩ max source
  readsBack : ∃ encoded, urlEncodeString signed source = some encoded ∧
    urlDecodeString encoded = source
  readsBackWithoutPlus : ∃ encoded,
    urlEncodeStringWithoutEncodingSpaceAsPlus signed source = some encoded ∧
      urlDecodeStringWithoutEncodingSpaceAsPlus encoded = source

/-- No character leaves no room for the terminator, and every character of the strings is written,
which needs a condition only where three bytes a character are too many for an `unsigned int`. -/
structure UrlEncodeFits (signed : Bool) (max : Nat) (source : List UInt8) : Prop where
  inside : ∀ encodeSpaceAsPlus unsafeOnly,
    ¬ SomeCharacter ⟨signed, encodeSpaceAsPlus, unsafeOnly⟩
      (LeavesNoRoom ⟨signed, encodeSpaceAsPlus, unsafeOnly⟩ max) 0 source
  written : 2 ^ 32 ≤ source.length * 3 + 1 → ∀ encodeSpaceAsPlus,
    ¬ SomeCharacter ⟨signed, encodeSpaceAsPlus, false⟩
      (fun pos ch => ¬ Writes ⟨signed, encodeSpaceAsPlus, false⟩ (neededLength source) pos ch) 0 source

theorem urlEncodeSound_iff (signed : Bool) {max : Nat} (positive : 1 ≤ max) (word : max < 2 ^ 32)
    {source : List UInt8} (solid : 0 ∉ source) :
    UrlEncodeSound signed max source ↔ UrlEncodeFits signed max source := by
  constructor
  · intro sound
    refine ⟨fun plus unsafeOnly => (staysInside_iff positive word solid).mp
      (sound.inside plus unsafeOnly), fun _ plus => (readsBack_iff rfl solid).mp ?_⟩
    cases plus with
    | true => exact sound.readsBack
    | false => exact sound.readsBackWithoutPlus
  · intro fits
    have readsBack : ∀ plus, ReadsBack ⟨signed, plus, false⟩ source := by
      intro plus
      rw [readsBack_iff rfl solid]
      by_cases short : source.length * 3 + 1 < 2 ^ 32
      · exact writes_of_short short
      · exact fits.written (Nat.le_of_not_lt short) plus
    exact ⟨fun plus unsafeOnly => (staysInside_iff positive word solid).mpr
      (fits.inside plus unsafeOnly), readsBack true, readsBack false⟩

/-- A plain character fills a buffer of one byte. -/
theorem urlEncodeSound_iff_letter :
    (UrlEncodeSound true 1 [0x61] ↔ UrlEncodeFits true 1 [0x61]) ∧
      (internalUrlEncode ⟨true, true, false⟩ [0x61] 1).buffer = [0x61, 0] :=
  ⟨urlEncodeSound_iff true (by decide) (by decide) (by decide), by decide⟩

theorem letter_fills_buffer : ¬ ∀ (signed : Bool) (max : Nat) (source : List UInt8),
    1 ≤ max → max < 2 ^ 32 → 0 ∉ source → UrlEncodeSound signed max source := by
  intro sound
  have inside := (sound true 1 [0x61] (by decide) (by decide) (by decide)).inside true false
  exact absurd inside.asserted (by decide)

end Libjingle.Strings

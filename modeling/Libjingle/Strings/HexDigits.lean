import Libjingle.Strings.RoundTrips

/-!
# Letters past `F`

`hex_decode` of a character takes every letter for a digit. The decoders are compared with those
that take hexadecimal digits only: they differ where two letters or digits, not both hexadecimal,
stand behind an escape character that is read as one.
-/

namespace Libjingle.Strings

open Libjingle.Std

/-! ## The decoders as they are meant -/

/-- A hexadecimal digit. -/
def hexDigit (ch : UInt8) : Option UInt8 :=
  if 0x30 ≤ ch ∧ ch ≤ 0x39 then some (ch - 0x30)
  else if 0x41 ≤ ch ∧ ch ≤ 0x46 then some (ch - 0x41 + 10)
  else if 0x61 ≤ ch ∧ ch ≤ 0x66 then some (ch - 0x61 + 10)
  else none

/-- The byte that two hexadecimal digits denote. -/
def exactHexByte : List UInt8 → Option (UInt8 × List UInt8)
  | c1 :: c2 :: rest =>
      match hexDigit c1, hexDigit c2 with
      | some h1, some h2 => some (16 * h1 + h2, rest)
      | _, _ => none
  | _ => none

def exactDecodeRound (escape : UInt8) : Codec.Round UInt8 UInt8
  | _, [] => none
  | _, ch :: source =>
      match if ch = escape then exactHexByte source else none with
      | some (byte, rest) => some ([byte], rest)
      | none => some ([ch], source)

def exactUrlDecodeRound : Codec.Round UInt8 UInt8
  | _, [] => none
  | _, ch :: source =>
      if ch = 0x2B then some ([0x20], source)
      else
        match if ch = 0x25 then exactHexByte source else none with
        | some (byte, rest) => some ([byte], rest)
        | none => some ([ch], source)

def exactHexDecodeRound : Codec.Round UInt8 UInt8 := fun _ source =>
  (exactHexByte source).map fun (byte, rest) => ([byte], rest)

/-! ## Single characters -/

theorem hexDecodeChar_table (ch : UInt8) : (hexDecodeChar ch).isSome = CString.isAlnum ch ∧
    (hexDigit ch).all (fun value => hexDecodeChar ch = some value ∧ value < 16) = true := by
  revert ch
  exact CString.forall_byte (by decide +kernel)

theorem isSome_hexDecodeChar (ch : UInt8) : (hexDecodeChar ch).isSome = CString.isAlnum ch :=
  (hexDecodeChar_table ch).1

theorem hexDecodeChar_of_hexDigit {ch value : UInt8} (digit : hexDigit ch = some value) :
    hexDecodeChar ch = some value ∧ value < 16 := by
  have here := (hexDecodeChar_table ch).2
  rw [digit] at here
  exact of_decide_eq_true here

/-- Two letters or digits, not both hexadecimal, stand at the front. -/
def PastF : List UInt8 → Prop
  | c1 :: c2 :: _ =>
      CString.isAlnum c1 ∧ CString.isAlnum c2 ∧ ¬ ((hexDigit c1).isSome ∧ (hexDigit c2).isSome)
  | _ => False

theorem shift_or (h1 h2 : UInt8) (small1 : h1 < 16) (small2 : h2 < 16) :
    (h1 <<< 4) ||| h2 = 16 * h1 + h2 := by
  have all : ∀ m n : Fin 16, (UInt8.ofNat m <<< 4) ||| UInt8.ofNat n =
      16 * UInt8.ofNat m + UInt8.ofNat n := by decide +kernel
  have here := all ⟨h1.toNat, UInt8.lt_iff_toNat_lt.mp small1⟩
    ⟨h2.toNat, UInt8.lt_iff_toNat_lt.mp small2⟩
  simpa only [UInt8.ofNat_toNat] using here

/-- Two such characters are taken for a byte that they do not denote. -/
theorem hexByte_of_pastF {source : List UInt8} (misread : PastF source) :
    exactHexByte source = none ∧ ∃ byte rest, hexByte source = some (byte, rest) := by
  match source with
  | [] => exact misread.elim
  | [_] => exact misread.elim
  | c1 :: c2 :: rest =>
    obtain ⟨first, second, exact⟩ := misread
    rw [← isSome_hexDecodeChar, Option.isSome_iff_exists] at first second
    obtain ⟨h1, first⟩ := first
    obtain ⟨h2, second⟩ := second
    constructor
    · simp only [exactHexByte]
      split
      · next digit1 digit2 => exact absurd ⟨by simp [digit1], by simp [digit2]⟩ exact
      · rfl
    · exact ⟨(h1 <<< 4) ||| h2, rest, by simp only [hexByte, first, second]⟩

/-- Any others are read as they should be. -/
theorem hexByte_of_not_pastF {source : List UInt8} (right : ¬ PastF source) :
    hexByte source = exactHexByte source := by
  match source with
  | [] => rfl
  | [_] => rfl
  | c1 :: c2 :: rest =>
    simp only [hexByte, exactHexByte]
    by_cases both : (hexDigit c1).isSome ∧ (hexDigit c2).isSome
    · obtain ⟨h1, digit1⟩ := Option.isSome_iff_exists.mp both.1
      obtain ⟨h2, digit2⟩ := Option.isSome_iff_exists.mp both.2
      obtain ⟨first, small1⟩ := hexDecodeChar_of_hexDigit digit1
      obtain ⟨second, small2⟩ := hexDecodeChar_of_hexDigit digit2
      simp only [first, second, digit1, digit2, shift_or h1 h2 small1 small2]
    · have none : ¬ ((hexDecodeChar c1).isSome ∧ (hexDecodeChar c2).isSome) := by
        rw [isSome_hexDecodeChar, isSome_hexDecodeChar]
        exact fun letters => right ⟨letters.1, letters.2, both⟩
      split
      · next first second => exact absurd ⟨by simp [first], by simp [second]⟩ none
      · split
        · next digit1 digit2 => exact absurd ⟨by simp [digit1], by simp [digit2]⟩ both
        · rfl

/-! ## Rounds -/

/-- An escape character stands at the front and two characters behind it that are misread. -/
def EscapesPastF (escape : UInt8) (source : List UInt8) : Prop :=
  ∃ rest, source = escape :: rest ∧ PastF rest

section

variable {escape : UInt8} {bufpos : Nat} {source : List UInt8}

theorem decodeRound_exact_iff :
    decodeRound escape bufpos source = exactDecodeRound escape bufpos source ↔
      ¬ EscapesPastF escape source := by
  constructor
  · rintro same ⟨rest, rfl, misread⟩
    obtain ⟨none, byte, behind, some⟩ := hexByte_of_pastF misread
    have length := length_hexByte some
    simp only [decodeRound, exactDecodeRound, if_true, none, some] at same
    obtain ⟨-, rfl⟩ := Prod.mk.inj (Option.some.inj same)
    omega
  · intro right
    cases source with
    | nil => rfl
    | cons ch source =>
      simp only [decodeRound, exactDecodeRound]
      by_cases escaped : ch = escape
      · have reads := hexByte_of_not_pastF fun misread => right ⟨source, by rw [escaped], misread⟩
        cases digits : exactHexByte source with
        | none => simp only [if_pos escaped, reads, digits]
        | some pair => simp only [if_pos escaped, reads, digits]
      · rw [if_neg escaped, if_neg escaped]

theorem urlDecodeRound_exact_iff :
    urlDecodeRound bufpos source = exactUrlDecodeRound bufpos source ↔
      ¬ EscapesPastF 0x25 source := by
  cases source with
  | nil => simp [urlDecodeRound, exactUrlDecodeRound, EscapesPastF]
  | cons ch source =>
    by_cases plus : ch = 0x2B
    · simp [urlDecodeRound, exactUrlDecodeRound, EscapesPastF, plus]
    · have plain : urlDecodeRound bufpos (ch :: source) = decodeRound 0x25 bufpos (ch :: source) := by
        simp only [urlDecodeRound, decodeRound, plus, if_false]
      have exact : exactUrlDecodeRound bufpos (ch :: source) =
          exactDecodeRound 0x25 bufpos (ch :: source) := by
        simp only [exactUrlDecodeRound, exactDecodeRound, plus, if_false]
      rw [plain, exact]
      exact decodeRound_exact_iff

theorem hexDecodeRound_exact_iff :
    hexDecodeRound bufpos source = exactHexDecodeRound bufpos source ↔ ¬ PastF source := by
  unfold hexDecodeRound exactHexDecodeRound
  constructor
  · intro same misread
    obtain ⟨none, byte, behind, some⟩ := hexByte_of_pastF misread
    rw [none, some] at same
    cases same
  · intro right
    rw [hexByte_of_not_pastF right]

end

/-! ## Texts -/

/-- Two decoders do the same at every place that the first comes to. -/
def ReadsAs (buflen : Nat) (round exact : Codec.Round UInt8 UInt8) (source : List UInt8) : Prop :=
  ∀ pos at', Codec.Reaches (guard buflen) round 0 source pos at' → at' ≠ [] → guard buflen pos →
    round pos at' = exact pos at'

/-- No place that a decoder comes to is of some kind. -/
def Avoids (buflen : Nat) (round : Codec.Round UInt8 UInt8) (kind : List UInt8 → Prop)
    (source : List UInt8) : Prop :=
  ∀ pos at', Codec.Reaches (guard buflen) round 0 source pos at' → guard buflen pos → ¬ kind at'

section

variable {buflen : Nat} {round exact : Codec.Round UInt8 UInt8} {kind : List UInt8 → Prop}
  {source : List UInt8}

theorem readsAs_iff (some_text : ¬ kind [])
    (same_iff : ∀ pos at', round pos at' = exact pos at' ↔ ¬ kind at') :
    ReadsAs buflen round exact source ↔ Avoids buflen exact kind source := by
  constructor
  · intro alike pos at' reached room
    have reached : Codec.Reaches (guard buflen) round 0 source pos at' :=
      Codec.agree_symm alike reached
    by_cases empty : at' = []
    · rw [empty]
      exact some_text
    · exact (same_iff pos at').mp (alike pos at' reached empty room)
  · intro avoids pos at' reached _ room
    have reached : Codec.Reaches (guard buflen) exact 0 source pos at' := by
      refine Codec.agree_symm (fun pos at' reached _ room => ?_) reached
      exact ((same_iff pos at').mpr (avoids pos at' reached room)).symm
    exact (same_iff pos at').mpr (avoids pos at' reached room)

end

/-- The decoders take nothing but hexadecimal digits for digits, in `source`. -/
structure HexExact (buflen : Nat) (escape : UInt8) (source : List UInt8) : Prop where
  decode : ReadsAs buflen (decodeRound escape) (exactDecodeRound escape) source
  urlDecode : ReadsAs buflen urlDecodeRound exactUrlDecodeRound source
  hexDecode : ReadsAs buflen hexDecodeRound exactHexDecodeRound source

/-- Wherever the decoders come to, reading as they should, no escape character, and for `hex_decode`
no place, has two letters or digits behind it that are not both hexadecimal. -/
structure NothingPastF (buflen : Nat) (escape : UInt8) (source : List UInt8) : Prop where
  decode : Avoids buflen (exactDecodeRound escape) (EscapesPastF escape) source
  urlDecode : Avoids buflen exactUrlDecodeRound (EscapesPastF 0x25) source
  hexDecode : Avoids buflen exactHexDecodeRound PastF source

end Libjingle.Strings

import Libjingle.Strings.Bounds

/-!
# What the codecs write reads back

Each encoder writes a unit for each character of the source, and stops before a unit that does not
fit. Its decoder reads the units back, so that a text cut short by its buffer is that of the first
characters of the source.
-/

namespace Libjingle.Strings

open Libjingle.Std

/-! ## The text in the buffer -/

/-- The loop goes round at a place that has room for a byte and the terminator. -/
def guard (buflen bufpos : Nat) : Bool :=
  bufpos + 1 < buflen

theorem codec_text (buflen : Nat) (round : Codec.Round UInt8 UInt8) (source : List UInt8) :
    (codec buflen round source).text = Codec.translate (guard buflen) round 0 source := by
  unfold codec
  split
  · next none =>
    have full : guard buflen 0 = false := decide_eq_false (by omega)
    rw [Codec.translate_of_stops (.inr (.inl full))]
    rfl
  · exact List.take_left

/-! ## Units -/

section

variable {buflen : Nat} {unit : UInt8 → List UInt8} {round : Codec.Round UInt8 UInt8}

/-- The round writes the unit of a character, if it fits. The guard of the loop has room for a single
byte. -/
structure Encodes (buflen : Nat) (round : Codec.Round UInt8 UInt8) (unit : UInt8 → List UInt8) :
    Prop where
  some_byte : ∀ ch, 0 < (unit ch).length
  turn : ∀ bufpos ch source, round bufpos (ch :: source) =
    if 1 < (unit ch).length ∧ buflen ≤ bufpos + (unit ch).length then none
    else some (unit ch, source)

theorem Encodes.translates (encodes : Encodes buflen round unit) :
    Codec.Translates (guard buflen) round buflen (fun ch => [ch]) unit where
  filled _ := List.cons_ne_nil _ _
  fits ch pos room := by
    have some_byte := encodes.some_byte ch
    exact decide_eq_true (by omega)
  turn ch rest pos room := by
    rw [List.singleton_append, encodes.turn, if_neg]
    omega

theorem Encodes.stuck (encodes : Encodes buflen round unit) (ch : UInt8) (rest : List UInt8)
    {pos : Nat} (full : buflen ≤ pos + (unit ch).length) :
    Codec.Stops (guard buflen) round pos ([ch] ++ rest) := by
  by_cases single : 1 < (unit ch).length
  · right; right
    rw [List.singleton_append, encodes.turn, if_pos ⟨single, full⟩]
  · right; left
    exact decide_eq_false (by omega)

/-- The round reads a unit back. -/
def Decodes (round : Codec.Round UInt8 UInt8) (unit : UInt8 → List UInt8) : Prop :=
  ∀ bufpos ch rest, round bufpos (unit ch ++ rest) = some ([ch], rest)

theorem Decodes.translates (decodes : Decodes round unit) (some_byte : ∀ ch, 0 < (unit ch).length) :
    Codec.Translates (guard buflen) round buflen unit fun ch => [ch] where
  filled ch := List.ne_nil_of_length_pos (some_byte ch)
  fits _ _ room := decide_eq_true room
  turn ch rest pos _ := decodes pos ch rest

end

/-- A source is encoded up to some character, no unit being cut, and what is written is decoded to the
characters encoded. These are all of them in a buffer of the worst size. -/
def RoundTrips (unit : UInt8 → List UInt8) (decoder : Nat → List UInt8 → Written)
    (worst buflen : Nat) (source : List UInt8) (encoded : Written) : Prop :=
  ∃ taken, taken <+: source ∧ encoded.text = taken.flatMap unit ∧
    (∀ room, encoded.text.length < room → (decoder room encoded.text).text = taken) ∧
    (worst ≤ buflen → taken = source)

section

variable {buflen most : Nat} {unit : UInt8 → List UInt8} {round : Codec.Round UInt8 UInt8}
  {decodeRound : Nat → Codec.Round UInt8 UInt8}

theorem length_flatMap_le (few : ∀ ch, (unit ch).length ≤ most) (source : List UInt8) :
    (source.flatMap unit).length ≤ most * source.length := by
  induction source with
  | nil => exact Nat.zero_le _
  | cons ch source ih =>
    have here := few ch
    rw [List.flatMap_cons, List.length_append, List.length_cons, Nat.mul_add]
    omega

theorem length_le_flatMap (some_byte : ∀ ch, 0 < (unit ch).length) (source : List UInt8) :
    source.length ≤ (source.flatMap unit).length := by
  induction source with
  | nil => exact Nat.le_refl _
  | cons ch source ih =>
    have here := some_byte ch
    rw [List.flatMap_cons, List.length_append, List.length_cons]
    omega

/-- An encoder and a decoder of the same units. -/
theorem roundTrips_of_units (encodes : Encodes buflen round unit) (modest : Modest buflen round)
    (decodes : ∀ room, Decodes (decodeRound room) unit)
    (consumes : ∀ room, Codec.Consumes (decodeRound room))
    (few : ∀ ch, (unit ch).length ≤ most) (source : List UInt8) :
    RoundTrips unit (fun room => codec room (decodeRound room)) (most * source.length + 1) buflen
      source (codec buflen round source) := by
  have reads : ∀ (taken : List UInt8) (room : Nat), (taken.flatMap unit).length < room →
      (codec room (decodeRound room) (taken.flatMap unit)).text = taken := by
    intro taken room ample
    have shorter := length_le_flatMap encodes.some_byte taken
    rw [codec_text, ((decodes room).translates encodes.some_byte).whole (consumes room)]
    · exact List.flatMap_singleton' taken
    · rw [List.flatMap_singleton', Nat.zero_add]
      omega
  have single : source.flatMap (fun ch => [ch]) = source := List.flatMap_singleton' source
  by_cases fits : (source.flatMap unit).length < buflen
  · have written : (codec buflen round source).text = source.flatMap unit := by
      have room : 0 + (source.flatMap unit).length < buflen := by omega
      have whole := encodes.translates.whole modest.consumes room
      rw [single] at whole
      rw [codec_text, whole]
    exact ⟨source, List.prefix_refl source, written,
      fun room ample => by rw [written] at ample ⊢; exact reads source room ample, fun _ => rfl⟩
  · obtain ⟨taken, left, parts, truncated⟩ :=
      encodes.translates.truncated modest.consumes encodes.stuck 0 source
    rw [single] at truncated
    have written : (codec buflen round source).text = taken.flatMap unit := by
      rw [codec_text, truncated]
    refine ⟨taken, ⟨left, parts.symm⟩, written,
      fun room ample => by rw [written] at ample ⊢; exact reads taken room ample, fun large => ?_⟩
    have least := length_flatMap_le few source
    omega

end

/-! ## Escape characters -/

section

variable (illegal : List UInt8) (esc : UInt8)

def escapeUnit (ch : UInt8) : List UInt8 :=
  if ch = esc ∨ strchr illegal ch then [esc, ch] else [ch]

theorem escapeRound_encodes (buflen : Nat) :
    Encodes buflen (escapeRound buflen illegal esc) (escapeUnit illegal esc) where
  some_byte ch := by
    unfold escapeUnit
    split <;> exact Nat.succ_pos _
  turn bufpos ch source := by
    simp only [escapeRound, escapeUnit]
    split
    · simp
    · simp

theorem unescapeRound_decodes : Decodes (unescapeRound esc) (escapeUnit illegal esc) := by
  intro bufpos ch rest
  unfold escapeUnit
  split
  · simp [unescapeRound]
  · next plain =>
    have apart : ch ≠ esc := fun same => plain (.inl same)
    simp [unescapeRound, apart]

def encodeUnit (ch : UInt8) : List UInt8 :=
  if ch ≠ esc ∧ ¬ strchr illegal ch then [ch] else hexPair esc ch

theorem encodeRound_encodes (buflen : Nat) :
    Encodes buflen (encodeRound buflen illegal esc) (encodeUnit illegal esc) where
  some_byte ch := by
    unfold encodeUnit
    split <;> exact Nat.succ_pos _
  turn bufpos ch source := by
    simp only [encodeRound, encodeUnit]
    split
    · simp
    · simp [hexPair]

end

/-! ## Hexadecimal digits -/

/-- The two digits of a byte are read as it. -/
theorem hexByte_hexPair (ch : UInt8) (rest : List UInt8) :
    hexByte (hexEncodeChar ((ch >>> 4) &&& 0xF) :: hexEncodeChar (ch &&& 0xF) :: rest) =
      some (ch, rest) := by
  have digits : hexDecodeChar (hexEncodeChar ((ch >>> 4) &&& 0xF)) = some ((ch >>> 4) &&& 0xF) ∧
      hexDecodeChar (hexEncodeChar (ch &&& 0xF)) = some (ch &&& 0xF) ∧
      ((((ch >>> 4) &&& 0xF) <<< 4) ||| (ch &&& 0xF)) = ch := by
    revert ch
    exact CString.forall_byte (by decide +kernel)
  obtain ⟨high, low, both⟩ := digits
  simp only [hexByte, high, low, both]

theorem decodeRound_decodes (illegal : List UInt8) (esc : UInt8) :
    Decodes (decodeRound esc) (encodeUnit illegal esc) := by
  intro bufpos ch rest
  unfold encodeUnit
  split
  · next plain => simp [decodeRound, plain.1]
  · simp [decodeRound, hexPair, hexByte_hexPair]

/-! ## URLs -/

def urlEncodeUnit (ch : UInt8) : List UInt8 :=
  if inClass urlUnsafe ch then hexPair 0x25 ch else [ch]

theorem urlEncodeRound_encodes (buflen : Nat) :
    Encodes buflen (urlEncodeRound buflen) urlEncodeUnit where
  some_byte ch := by
    unfold urlEncodeUnit
    split <;> exact Nat.succ_pos _
  turn bufpos ch source := by
    simp only [urlEncodeRound, urlEncodeUnit]
    split
    · simp [hexPair]
    · simp

theorem urlDecodeRound_decodes : Decodes urlDecodeRound urlEncodeUnit := by
  intro bufpos ch rest
  unfold urlEncodeUnit
  split
  · simp [urlDecodeRound, hexPair, hexByte_hexPair]
  · next plain =>
    have plus : ch ≠ 0x2B := by
      rintro rfl
      exact plain (by decide)
    have percent : ch ≠ 0x25 := by
      rintro rfl
      exact plain (by decide)
    simp [urlDecodeRound, plus, percent]

/-! ## XML -/

def xmlEncodeUnit (ch : UInt8) : List UInt8 :=
  if inClass xmlUnsafe ch then namedEscape (ascii ['&', 'a', 'p', 'o', 's', ';']) ch else [ch]

/-- The characters of XML that are escaped. -/
theorem xmlUnsafe_iff (ch : UInt8) :
    inClass xmlUnsafe ch ↔ ch = 0x22 ∨ ch = 0x26 ∨ ch = 0x27 ∨ ch = 0x3C ∨ ch = 0x3E := by
  revert ch
  exact CString.forall_byte (by decide +kernel)

theorem length_xmlEncodeUnit (ch : UInt8) :
    0 < (xmlEncodeUnit ch).length ∧ (xmlEncodeUnit ch).length ≤ 6 := by
  unfold xmlEncodeUnit
  split
  · next markup =>
    rcases (xmlUnsafe_iff ch).mp markup with rfl | rfl | rfl | rfl | rfl <;> decide
  · exact ⟨Nat.succ_pos _, by simp⟩

theorem xmlEncodeRound_encodes (buflen : Nat) :
    Encodes buflen (xmlEncodeRound buflen) xmlEncodeUnit where
  some_byte ch := (length_xmlEncodeUnit ch).1
  turn bufpos ch source := by
    have several : inClass xmlUnsafe ch →
        1 < (namedEscape (ascii ['&', 'a', 'p', 'o', 's', ';']) ch).length := by
      intro markup
      rcases (xmlUnsafe_iff ch).mp markup with rfl | rfl | rfl | rfl | rfl <;> decide
    simp only [xmlEncodeRound, xmlEncodeUnit]
    split
    · next markup => simp only [several markup, true_and]
    · simp

theorem xmlDecodeRound_decodes (bits buflen : Nat) :
    Decodes (xmlDecodeRound bits buflen) xmlEncodeUnit := by
  intro bufpos ch rest
  unfold xmlEncodeUnit
  split
  · next markup =>
    rcases (xmlUnsafe_iff ch).mp markup with rfl | rfl | rfl | rfl | rfl
    · simp [namedEscape, ascii, xmlDecodeRound, afterName]
    · simp [namedEscape, ascii, xmlDecodeRound, afterName]
    · simp [namedEscape, ascii, xmlDecodeRound, afterName]
    · simp [namedEscape, ascii, xmlDecodeRound, afterName]
    · simp [namedEscape, ascii, xmlDecodeRound, afterName]
  · next plain =>
    have apart : ch ≠ 0x26 := by
      rintro rfl
      exact plain (by decide)
    simp [xmlDecodeRound, apart]

/-! ## All of them -/

/-- What is encoded of a source in `buflen` bytes is decoded again. -/
structure CodecsRoundTrip (bits buflen : Nat) (source : List UInt8) : Prop where
  escape : ∀ illegal esc, RoundTrips (escapeUnit illegal esc)
    (fun room encoded => unescape room encoded esc) (2 * source.length + 1) buflen source
    (escape buflen source illegal esc)
  encode : ∀ illegal esc, RoundTrips (encodeUnit illegal esc)
    (fun room encoded => decode room encoded esc) (3 * source.length + 1) buflen source
    (encode buflen source illegal esc)
  url : RoundTrips urlEncodeUnit urlDecode (3 * source.length + 1) buflen source
    (urlEncode buflen source)
  xml : RoundTrips xmlEncodeUnit (xmlDecode bits) (6 * source.length + 1) buflen source
    (xmlEncode buflen source)

theorem codecs_roundTrip (bits buflen : Nat) (source : List UInt8) :
    CodecsRoundTrip bits buflen source where
  escape illegal esc :=
    roundTrips_of_units (escapeRound_encodes illegal esc buflen) escapeRound_modest
      (fun _ => unescapeRound_decodes illegal esc)
      (fun room => (@unescapeRound_modest room esc).consumes)
      (fun ch => by unfold escapeUnit; split <;> simp) source
  encode illegal esc :=
    roundTrips_of_units (encodeRound_encodes illegal esc buflen) encodeRound_modest
      (fun _ => decodeRound_decodes illegal esc)
      (fun room => (@decodeRound_modest room esc).consumes)
      (fun ch => by unfold encodeUnit; split <;> simp [hexPair]) source
  url :=
    roundTrips_of_units (urlEncodeRound_encodes buflen) urlEncodeRound_modest
      (fun _ => urlDecodeRound_decodes) (fun room => (@urlDecodeRound_modest room).consumes)
      (fun ch => by unfold urlEncodeUnit; split <;> simp [hexPair]) source
  xml :=
    roundTrips_of_units (xmlEncodeRound_encodes buflen) xmlEncodeRound_modest
      (fun room => xmlDecodeRound_decodes bits room) (fun _ => xmlDecodeRound_consumes)
      (fun ch => (length_xmlEncodeUnit ch).2) source

end Libjingle.Strings

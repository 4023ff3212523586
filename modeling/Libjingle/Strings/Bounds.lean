import Libjingle.Strings.Codecs

/-!
# What the codecs write stays in the buffer

Each round but one leaves room for the terminator. A character reference of `xml_decode` is tested
for the room of its bytes alone: it may fill the buffer, and the terminator is then written behind
the end.
-/

namespace Libjingle.Strings

open Libjingle.Std

/-! ## Rounds -/

/-- A round reads something, and what it writes leaves room for the terminator: the guard of the
loop has room for a single byte. -/
def Modest (buflen : Nat) (round : Codec.Round UInt8 UInt8) : Prop :=
  ∀ pos source chunk rest, round pos source = some (chunk, rest) →
    rest.length < source.length ∧ (chunk.length ≤ 1 ∨ pos + chunk.length < buflen)

theorem Modest.consumes {buflen : Nat} {round : Codec.Round UInt8 UInt8}
    (modest : Modest buflen round) : Codec.Consumes round :=
  fun _ _ _ _ turn => (modest _ _ _ _ turn).1

variable {buflen : Nat} {illegal : List UInt8} {esc : UInt8}

theorem escapeRound_modest : Modest buflen (escapeRound buflen illegal esc) := by
  intro pos source chunk rest turn
  cases source with
  | nil => cases turn
  | cons ch source =>
    simp only [escapeRound] at turn
    split at turn
    · split at turn
      · cases turn
      · next room =>
        obtain ⟨rfl, rfl⟩ := Prod.mk.inj (Option.some.inj turn)
        exact ⟨Nat.lt_succ_self _, .inr (Nat.not_le.mp room)⟩
    · obtain ⟨rfl, rfl⟩ := Prod.mk.inj (Option.some.inj turn)
      exact ⟨Nat.lt_succ_self _, .inl (Nat.le_refl _)⟩

theorem unescapeRound_modest : Modest buflen (unescapeRound esc) := by
  intro pos source chunk rest turn
  cases source with
  | nil => cases turn
  | cons ch source =>
    simp only [unescapeRound] at turn
    split at turn
    · split at turn
      · obtain ⟨rfl, rfl⟩ := Prod.mk.inj (Option.some.inj turn)
        exact ⟨Nat.lt_succ_self _, .inl (Nat.le_refl _)⟩
      · obtain ⟨rfl, rfl⟩ := Prod.mk.inj (Option.some.inj turn)
        exact ⟨by simp only [List.length_cons]; omega, .inl (Nat.le_refl _)⟩
    · obtain ⟨rfl, rfl⟩ := Prod.mk.inj (Option.some.inj turn)
      exact ⟨Nat.lt_succ_self _, .inl (Nat.le_refl _)⟩

theorem encodeRound_modest : Modest buflen (encodeRound buflen illegal esc) := by
  intro pos source chunk rest turn
  cases source with
  | nil => cases turn
  | cons ch source =>
    simp only [encodeRound] at turn
    split at turn
    · obtain ⟨rfl, rfl⟩ := Prod.mk.inj (Option.some.inj turn)
      exact ⟨Nat.lt_succ_self _, .inl (Nat.le_refl _)⟩
    · split at turn
      · cases turn
      · next room =>
        obtain ⟨rfl, rfl⟩ := Prod.mk.inj (Option.some.inj turn)
        exact ⟨Nat.lt_succ_self _, .inr (Nat.not_le.mp room)⟩

theorem length_hexByte {source rest : List UInt8} {byte : UInt8}
    (found : hexByte source = some (byte, rest)) : rest.length + 2 = source.length := by
  unfold hexByte at found
  split at found
  · split at found
    · obtain ⟨-, rfl⟩ := Prod.mk.inj (Option.some.inj found)
      rfl
    · cases found
  · cases found

theorem decodeRound_modest : Modest buflen (decodeRound esc) := by
  intro pos source chunk rest turn
  cases source with
  | nil => cases turn
  | cons ch source =>
    simp only [decodeRound] at turn
    split at turn
    · next byte behind found =>
      obtain ⟨rfl, rfl⟩ := Prod.mk.inj (Option.some.inj turn)
      split at found
      · have length := length_hexByte found
        exact ⟨by simp only [List.length_cons]; omega, .inl (Nat.le_refl _)⟩
      · cases found
    · obtain ⟨rfl, rfl⟩ := Prod.mk.inj (Option.some.inj turn)
      exact ⟨Nat.lt_succ_self _, .inl (Nat.le_refl _)⟩

theorem urlEncodeRound_modest : Modest buflen (urlEncodeRound buflen) := by
  intro pos source chunk rest turn
  cases source with
  | nil => cases turn
  | cons ch source =>
    simp only [urlEncodeRound] at turn
    split at turn
    · split at turn
      · cases turn
      · next room =>
        obtain ⟨rfl, rfl⟩ := Prod.mk.inj (Option.some.inj turn)
        exact ⟨Nat.lt_succ_self _, .inr (Nat.not_le.mp room)⟩
    · obtain ⟨rfl, rfl⟩ := Prod.mk.inj (Option.some.inj turn)
      exact ⟨Nat.lt_succ_self _, .inl (Nat.le_refl _)⟩

theorem urlDecodeRound_modest : Modest buflen urlDecodeRound := by
  intro pos source chunk rest turn
  cases source with
  | nil => cases turn
  | cons ch source =>
    simp only [urlDecodeRound] at turn
    split at turn
    · obtain ⟨rfl, rfl⟩ := Prod.mk.inj (Option.some.inj turn)
      exact ⟨Nat.lt_succ_self _, .inl (Nat.le_refl _)⟩
    · exact @decodeRound_modest buflen 0x25 pos (ch :: source) chunk rest turn

/-- A sequence is as long as its decoder says at least once. -/
theorem utf8Decode_pos {source : List UInt8} {val vallen : Nat}
    (found : utf8Decode source = some (val, vallen)) : 0 < vallen := by
  have pos_of : ∀ {a b : Nat}, 0 < b → some (a, b) = some (val, vallen) → 0 < vallen := by
    intro a b positive same
    obtain ⟨-, rfl⟩ := Prod.mk.inj (Option.some.inj same)
    exact positive
  match source with
  | [] => cases found
  | [s0] =>
    simp only [utf8Decode] at found
    split at found
    · exact pos_of (by decide) found
    · cases found
  | [s0, s1] =>
    simp only [utf8Decode] at found
    split at found
    · exact pos_of (by decide) found
    · split at found
      · cases found
      · split at found
        · exact pos_of (by decide) found
        · cases found
  | [s0, s1, s2] =>
    simp only [utf8Decode] at found
    repeat' split at found
    all_goals first | exact pos_of (by decide) found | cases found
  | s0 :: s1 :: s2 :: s3 :: rest =>
    simp only [utf8Decode] at found
    repeat' split at found
    all_goals first | exact pos_of (by decide) found | cases found

theorem htmlSequence_consumes {source chunk rest : List UInt8}
    (found : htmlSequence source = some (chunk, rest)) : rest.length < source.length := by
  cases source with
  | nil => cases found
  | cons ch source =>
    simp only [htmlSequence] at found
    split at found
    · split at found
      · obtain ⟨-, rfl⟩ := Prod.mk.inj (Option.some.inj found)
        exact Nat.lt_succ_self _
      · obtain ⟨-, rfl⟩ := Prod.mk.inj (Option.some.inj found)
        exact Nat.lt_succ_self _
    · split at found
      · next val vallen valid =>
        have positive := utf8Decode_pos valid
        obtain ⟨-, rfl⟩ := Prod.mk.inj (Option.some.inj found)
        simp only [List.length_drop, List.length_cons]
        omega
      · obtain ⟨-, rfl⟩ := Prod.mk.inj (Option.some.inj found)
        exact Nat.lt_succ_self _

theorem htmlEncodeRound_modest : Modest buflen (htmlEncodeRound buflen) := by
  intro pos source chunk rest turn
  simp only [htmlEncodeRound] at turn
  split at turn
  · cases turn
  · next found =>
    have shorter := htmlSequence_consumes found
    split at turn
    · cases turn
    · next room =>
      obtain ⟨rfl, rfl⟩ := Prod.mk.inj (Option.some.inj turn)
      exact ⟨shorter, .inr (Nat.not_le.mp room)⟩

theorem xmlEncodeRound_modest : Modest buflen (xmlEncodeRound buflen) := by
  intro pos source chunk rest turn
  cases source with
  | nil => cases turn
  | cons ch source =>
    simp only [xmlEncodeRound] at turn
    split at turn
    · split at turn
      · cases turn
      · next room =>
        obtain ⟨rfl, rfl⟩ := Prod.mk.inj (Option.some.inj turn)
        exact ⟨Nat.lt_succ_self _, .inr (Nat.not_le.mp room)⟩
    · obtain ⟨rfl, rfl⟩ := Prod.mk.inj (Option.some.inj turn)
      exact ⟨Nat.lt_succ_self _, .inl (Nat.le_refl _)⟩

theorem hexDecodeRound_modest : Modest buflen hexDecodeRound := by
  intro pos source chunk rest turn
  obtain ⟨⟨byte, behind⟩, found, same⟩ := Option.map_eq_some_iff.mp turn
  obtain ⟨rfl, rfl⟩ := Prod.mk.inj same
  have length := length_hexByte found
  exact ⟨by omega, .inl (Nat.le_refl _)⟩

/-! ## Character references -/

/-- A sequence is encoded if it fits, and the room changes nothing else. -/
theorem utf8Encode_room {room : Nat} (any : 1 ≤ room) (val : Nat) :
    utf8Encode room val = (utf8Encode 4 val).filter fun chunk => chunk.length ≤ room := by
  unfold utf8Encode
  by_cases one : val ≤ 0x7F
  · simp only [one, any, true_and, if_true, Nat.reduceLeDiff, Option.filter_some]
    rw [if_pos (by simpa using any)]
  by_cases two : val ≤ 0x7FF
  · by_cases fits : 2 ≤ room
    · simp [one, two, fits, Option.filter]
    · have three : ¬ 3 ≤ room := by omega
      have four : ¬ 4 ≤ room := by omega
      simp [one, two, fits, three, four, Option.filter]
  by_cases three : val ≤ 0xFFFF
  · by_cases fits : 3 ≤ room
    · simp [one, two, three, fits, Option.filter]
    · have four : ¬ 4 ≤ room := by omega
      simp [one, two, three, fits, four, Option.filter]
  by_cases four : val ≤ 0x1FFFFF
  · by_cases fits : 4 ≤ room
    · simp [one, two, three, four, fits, Option.filter]
    · simp [one, two, three, four, fits, Option.filter]
  · simp [one, two, three, four, Option.filter]

theorem length_takeNumber (base : Nat) (text : List UInt8) :
    (CString.takeNumber base text).2.2.length ≤ text.length := by
  have sign : ∀ text : List UInt8, (CString.takeSign text).2.length ≤ text.length := by
    intro text
    cases text with
    | nil => exact Nat.le_refl _
    | cons c text =>
      simp only [CString.takeSign]
      split
      · exact Nat.le_succ _
      · split
        · exact Nat.le_succ _
        · exact Nat.le_refl _
  have hex : ∀ text : List UInt8, (CString.dropHexPrefix text).length ≤ text.length := by
    intro text
    unfold CString.dropHexPrefix
    split
    · split
      · simp only [List.length_cons]
        omega
      · exact Nat.le_refl _
    · exact Nat.le_refl _
  have space : (CString.skipSpace text).length ≤ text.length :=
    (List.dropWhile_suffix _).length_le
  have unsigned := sign (CString.skipSpace text)
  unfold CString.takeNumber
  generalize CString.takeSign (CString.skipSpace text) = signed at unsigned
  obtain ⟨negative, number⟩ := signed
  refine Nat.le_trans (List.dropWhile_suffix _).length_le ?_
  have fewer : number.length ≤ text.length := Nat.le_trans unsigned space
  split
  · exact Nat.le_trans (hex number) fewer
  · exact fewer

theorem length_strtoul (bits base : Nat) (text : List UInt8) :
    (CString.strtoul bits base text).2.length ≤ text.length := by
  have number := length_takeNumber base text
  unfold CString.strtoul
  split
  · exact Nat.le_refl _
  · next found =>
    rw [found] at number
    exact number

theorem length_characterReference {bits val : Nat} {source rest : List UInt8}
    (found : characterReference bits source = some (val, rest)) :
    rest.length < source.length := by
  unfold characterReference at found
  split at found
  next intBase digits base =>
  have short : digits.length ≤ source.length := by
    split at base
    · obtain ⟨-, rfl⟩ := Prod.mk.inj base
      exact Nat.le_succ _
    · obtain ⟨-, rfl⟩ := Prod.mk.inj base
      exact Nat.le_refl _
  have length := length_strtoul bits intBase digits
  split at found
  · next same =>
    obtain ⟨rfl, rfl⟩ := Prod.mk.inj (Option.some.inj found)
    rw [same] at length
    simp only [List.length_cons] at length
    omega
  · cases found

theorem afterName_le {name : List Char} {source rest : List UInt8}
    (found : afterName name source = some rest) : rest.length ≤ source.length := by
  unfold afterName at found
  split at found
  · obtain rfl := Option.some.inj found
    exact (List.drop_sublist _ _).length_le
  · cases found

section

variable {bits pos : Nat} {source chunk rest : List UInt8}

/-- A round of `xml_decode` writes a byte, or what a character reference stands for. -/
theorem xmlDecodeRound_cases (turn : xmlDecodeRound bits buflen pos source = some (chunk, rest)) :
    rest.length < source.length ∧
      (chunk.length = 1 ∨ ∃ val, utf8Encode (buflen - pos) val = some chunk) := by
  cases source with
  | nil => cases turn
  | cons ch source =>
    have single : ∀ {byte : UInt8} {behind : List UInt8}, behind.length ≤ source.length →
        some ([byte], behind) = some (chunk, rest) →
        rest.length < (ch :: source).length ∧
          (chunk.length = 1 ∨ ∃ val, utf8Encode (buflen - pos) val = some chunk) := by
      intro byte behind shorter same
      obtain ⟨rfl, rfl⟩ := Prod.mk.inj (Option.some.inj same)
      exact ⟨Nat.lt_succ_of_le shorter, .inl rfl⟩
    simp only [xmlDecodeRound] at turn
    split at turn
    · exact single (Nat.le_refl _) turn
    split at turn
    · next name => exact single (afterName_le name) turn
    split at turn
    · next name => exact single (afterName_le name) turn
    split at turn
    · next name => exact single (afterName_le name) turn
    split at turn
    · next name => exact single (afterName_le name) turn
    split at turn
    · next name => exact single (afterName_le name) turn
    split at turn
    · split at turn
      · cases turn
      · next number =>
        have shorter := length_characterReference number
        obtain ⟨bytes, encoded, same⟩ := Option.map_eq_some_iff.mp turn
        obtain ⟨rfl, rfl⟩ := Prod.mk.inj same
        exact ⟨by simp only [List.length_cons]; omega, .inr ⟨_, encoded⟩⟩
    · cases turn

theorem xmlDecodeRound_consumes : Codec.Consumes (xmlDecodeRound bits buflen) :=
  fun _ _ _ _ turn => (xmlDecodeRound_cases turn).1

/-- `xml_decode` in a buffer that has room for every character. -/
def xmlUnlimitedRound (bits : Nat) : Codec.Round UInt8 UInt8 :=
  fun bufpos source => xmlDecodeRound bits (bufpos + 4) bufpos source

/-- The test for room changes nothing but whether there is room up to the end of the buffer. -/
theorem xmlDecodeRound_room (room : pos < buflen) (source : List UInt8) :
    xmlDecodeRound bits buflen pos source =
      (xmlUnlimitedRound bits pos source).filter fun result => pos + result.1.length ≤ buflen := by
  have single : ∀ (byte : UInt8) (behind : List UInt8),
      (some ([byte], behind) : Option (List UInt8 × List UInt8)) =
        (some ([byte], behind)).filter fun result => pos + result.1.length ≤ buflen := by
    intro byte behind
    have fits : pos + [byte].length ≤ buflen := room
    rw [Option.filter_some, if_pos (decide_eq_true fits)]
  unfold xmlUnlimitedRound
  cases source with
  | nil => rfl
  | cons ch source =>
    simp only [xmlDecodeRound, Nat.add_sub_cancel_left]
    split
    · exact single _ _
    split
    · exact single _ _
    split
    · exact single _ _
    split
    · exact single _ _
    split
    · exact single _ _
    split
    · exact single _ _
    split
    · split
      · rfl
      · next val behind _ =>
        rw [utf8Encode_room (by omega : 1 ≤ buflen - pos)]
        cases utf8Encode 4 val with
        | none => rfl
        | some bytes =>
          simp only [Option.filter_some, Option.map_some]
          by_cases fits : pos + bytes.length ≤ buflen
          · rw [if_pos (by simp; omega), if_pos (by simpa using fits)]
            rfl
          · rw [if_neg (by simp; omega), if_neg (by simpa using fits)]
            rfl
    · rfl

end

/-! ## Buffers -/

/-- What is written lies in the buffer, with a terminator at the length returned. -/
structure Written.InBounds (buflen : Nat) (written : Written) : Prop where
  within : written.buffer.length ≤ buflen
  terminated : written.buffer[written.length]? = some 0
  below : written.length < buflen

/-- A terminated buffer is in bounds if what stands before the terminator is. -/
theorem inBounds_iff {bytes : List UInt8} :
    Written.InBounds buflen ⟨bytes ++ [0], bytes.length⟩ ↔ bytes.length < buflen where
  mp within := within.below
  mpr below := ⟨by simpa using Nat.succ_le_of_lt below, by simp, below⟩

theorem codec_inBounds {round : Codec.Round UInt8 UInt8} (modest : Modest buflen round)
    (positive : 1 ≤ buflen) (source : List UInt8) : (codec buflen round source).InBounds buflen := by
  unfold codec
  rw [if_neg (by omega), inBounds_iff]
  have below : 0 + (Codec.translate (fun bufpos => bufpos + 1 < buflen) round 0 source).length <
      buflen := by
    refine Codec.length_translate_lt modest.consumes ?_ positive
    intro pos source chunk rest goes
    have guard : pos + 1 < buflen := of_decide_eq_true goes.room
    rcases (modest _ _ _ _ goes.turn).2 with single | fits
    · omega
    · exact fits
  rwa [Nat.zero_add] at below

theorem hexEncode_inBounds (positive : 1 ≤ buflen) (source : List UInt8) :
    (hexEncode buflen source).InBounds buflen := by
  have length : ∀ (pos : Nat) (source : List UInt8),
      (Codec.translate (fun _ => true) hexEncodeRound pos source).length = 2 * source.length := by
    intro pos source
    induction source generalizing pos with
    | nil => rfl
    | cons ch source ih =>
      have consumes : Codec.Consumes hexEncodeRound := by
        intro pos source chunk rest turn
        cases source with
        | nil => cases turn
        | cons ch source =>
          obtain ⟨-, rfl⟩ := Prod.mk.inj (Option.some.inj turn)
          exact Nat.lt_succ_self _
      rw [Codec.translate_of_goes consumes ⟨List.cons_ne_nil _ _, rfl, rfl⟩, List.length_append, ih]
      simp only [List.length_cons, List.length_nil]
      omega
  unfold hexEncode
  rw [if_neg (by omega), inBounds_iff, length, List.length_take]
  omega

/-! ## `xml_decode` -/

/-- The decoder comes to a character reference whose sequence, of more than one byte, ends where the
buffer does. -/
def FillsExactly (bits buflen : Nat) (source : List UInt8) : Prop :=
  ∃ pos at' chunk rest,
    Codec.Reaches (fun _ => true) (xmlUnlimitedRound bits) 0 source pos at' ∧
      Codec.Goes (fun _ => true) (xmlUnlimitedRound bits) pos at' chunk rest ∧
      1 < chunk.length ∧ pos + chunk.length = buflen

section

variable {bits : Nat} {source : List UInt8}

/-- In the buffer the decoder goes round as it does without one, as long as the characters fit. -/
theorem goes_iff {pos : Nat} {at' chunk rest : List UInt8} :
    Codec.Goes (fun bufpos => bufpos + 1 < buflen) (xmlDecodeRound bits buflen) pos at' chunk rest ↔
      Codec.Goes (fun _ => true) (xmlUnlimitedRound bits) pos at' chunk rest ∧
        pos + 1 < buflen ∧ pos + chunk.length ≤ buflen where
  mp goes := by
    have guard : pos + 1 < buflen := of_decide_eq_true goes.room
    have turn := goes.turn
    rw [xmlDecodeRound_room (by omega), Option.filter_eq_some_iff] at turn
    exact ⟨⟨goes.left, rfl, turn.1⟩, guard, of_decide_eq_true turn.2⟩
  mpr := by
    rintro ⟨goes, guard, fits⟩
    refine ⟨goes.left, decide_eq_true guard, ?_⟩
    rw [xmlDecodeRound_room (by omega), Option.filter_eq_some_iff]
    exact ⟨goes.turn, decide_eq_true fits⟩

theorem reaches_unlimited {pos : Nat} {at' : List UInt8}
    (reached : Codec.Reaches (fun bufpos => bufpos + 1 < buflen) (xmlDecodeRound bits buflen) 0
      source pos at') :
    Codec.Reaches (fun _ => true) (xmlUnlimitedRound bits) 0 source pos at' := by
  induction reached with
  | start => exact .start
  | next _ goes ih => exact ih.next (goes_iff.mp goes).1

/-- A round writes something, so that what comes before a place in the buffer is in the buffer. -/
theorem reaches_limited {pos : Nat} {at' : List UInt8}
    (reached : Codec.Reaches (fun _ => true) (xmlUnlimitedRound bits) 0 source pos at')
    (inside : pos + 1 < buflen) :
    Codec.Reaches (fun bufpos => bufpos + 1 < buflen) (xmlDecodeRound bits buflen) 0 source pos
      at' := by
  induction reached with
  | start => exact .start
  | next _ goes ih =>
    exact (ih (by omega)).next (goes_iff.mpr ⟨goes, by omega, by omega⟩)

theorem xmlDecode_inBounds_iff (positive : 1 ≤ buflen) :
    (xmlDecode bits buflen source).InBounds buflen ↔ ¬ FillsExactly bits buflen source := by
  unfold xmlDecode codec
  rw [if_neg (by omega), inBounds_iff]
  constructor
  · rintro below ⟨pos, at', chunk, rest, reached, goes, multi, full⟩
    have limited : Codec.Reaches (fun bufpos => bufpos + 1 < buflen) (xmlDecodeRound bits buflen) 0
        source pos at' := reaches_limited reached (by omega)
    have written := (limited.next (goes_iff.mpr ⟨goes, by omega, by omega⟩)).length
      xmlDecodeRound_consumes
    omega
  · intro apart
    have inside : ∀ {pos at'}, Codec.Reaches (fun bufpos => bufpos + 1 < buflen)
        (xmlDecodeRound bits buflen) 0 source pos at' → pos < buflen := by
      intro pos at' reached
      cases reached with
      | start => exact positive
      | next before goes =>
        obtain ⟨unlimited, guard, fits⟩ := goes_iff.mp goes
        refine Nat.lt_of_le_of_ne fits fun full => apart ?_
        exact ⟨_, _, _, _, reaches_unlimited before, unlimited, by omega, full⟩
    have consumes : Codec.Consumes (xmlDecodeRound bits buflen) := xmlDecodeRound_consumes
    obtain ⟨left, reached, stops⟩ :=
      @Codec.translate_reaches _ _ (fun bufpos => bufpos + 1 < buflen) _ consumes 0 source
    have below := inside reached
    rwa [Nat.zero_add] at below

end

/-! ## All of them -/

/-- Every codec stays in a buffer of `buflen` bytes, on a source. -/
structure CodecsInBounds (bits buflen : Nat) (source : List UInt8) : Prop where
  escape : ∀ illegal esc, (escape buflen source illegal esc).InBounds buflen
  unescape : ∀ esc, (unescape buflen source esc).InBounds buflen
  encode : ∀ illegal esc, (encode buflen source illegal esc).InBounds buflen
  decode : ∀ esc, (decode buflen source esc).InBounds buflen
  urlEncode : (urlEncode buflen source).InBounds buflen
  urlDecode : (urlDecode buflen source).InBounds buflen
  htmlEncode : (htmlEncode buflen source).InBounds buflen
  htmlDecode : (htmlDecode bits buflen source).InBounds buflen
  xmlEncode : (xmlEncode buflen source).InBounds buflen
  xmlDecode : (xmlDecode bits buflen source).InBounds buflen
  hexEncode : (hexEncode buflen source).InBounds buflen
  hexDecode : (hexDecode buflen source).InBounds buflen

/-- The codecs stay in their buffers but for a character reference that fills one. -/
theorem codecsInBounds_iff (bits : Nat) {buflen : Nat} (positive : 1 ≤ buflen)
    (source : List UInt8) : CodecsInBounds bits buflen source ↔ ¬ FillsExactly bits buflen source where
  mp inBounds := (xmlDecode_inBounds_iff positive).mp inBounds.xmlDecode
  mpr apart := {
    escape := fun _ _ => codec_inBounds escapeRound_modest positive source
    unescape := fun _ => codec_inBounds unescapeRound_modest positive source
    encode := fun _ _ => codec_inBounds encodeRound_modest positive source
    decode := fun _ => codec_inBounds decodeRound_modest positive source
    urlEncode := codec_inBounds urlEncodeRound_modest positive source
    urlDecode := codec_inBounds urlDecodeRound_modest positive source
    htmlEncode := codec_inBounds htmlEncodeRound_modest positive source
    htmlDecode := (xmlDecode_inBounds_iff positive).mpr apart
    xmlEncode := codec_inBounds xmlEncodeRound_modest positive source
    xmlDecode := (xmlDecode_inBounds_iff positive).mpr apart
    hexEncode := hexEncode_inBounds positive source
    hexDecode := codec_inBounds hexDecodeRound_modest positive source }

/-- `&#128;`, decoded in two bytes, fills them, and the terminator is the third. -/
theorem codecsInBounds_iff_reference :
    (CodecsInBounds 64 2 (numericEscape 128) ↔ ¬ FillsExactly 64 2 (numericEscape 128)) ∧
      (xmlDecode 64 2 (numericEscape 128)).buffer = [0xC2, 0x80, 0] :=
  ⟨codecsInBounds_iff 64 (by decide) _, by decide⟩

theorem reference_fills_buffer :
    ¬ ∀ (buflen : Nat) (source : List UInt8), 1 ≤ buflen → CodecsInBounds 64 buflen source :=
  fun inBounds => absurd (inBounds 2 (numericEscape 128) (by decide)).xmlDecode.below (by decide)

end Libjingle.Strings

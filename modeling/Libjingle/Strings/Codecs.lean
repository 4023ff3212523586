import Libjingle.Std.CString
import Libjingle.Std.Codec

/-!
# The codecs of `stringencode.cc`

Each writes a translation of a source text into a buffer of `buflen` bytes, and a terminator. The
loops differ in their rounds only: how much of the source one looks at, and the test for the room
that its output needs. A position `bufpos` is one of the buffer; the source is what is left of it.
-/

namespace Libjingle.Strings

open Libjingle.Std

/-- The bytes of an ASCII text. -/
def ascii (text : List Char) : List UInt8 :=
  text.map fun c => UInt8.ofNat c.toNat

/-! ## Single characters -/

/-- `HEX`. -/
def hexTable : List UInt8 :=
  ascii ['0', '1', '2', '3', '4', '5', '6', '7', '8', '9', 'a', 'b', 'c', 'd', 'e', 'f']

/-- `hex_encode` of a digit. -/
def hexEncodeChar (val : UInt8) : UInt8 :=
  if val < 16 then hexTable.getD val.toNat 0 else 0x21

/-- `hex_decode` of a character. -/
def hexDecodeChar (ch : UInt8) : Option UInt8 :=
  if 0x30 ≤ ch ∧ ch ≤ 0x39 then some (ch - 0x30)
  else if 0x41 ≤ ch ∧ ch ≤ 0x5A then some (ch - 0x41 + 10)
  else if 0x61 ≤ ch ∧ ch ≤ 0x7A then some (ch - 0x61 + 10)
  else none

/-- `strchr`, in a string without NUL: the terminator is found too. -/
def strchr (text : List UInt8) (ch : UInt8) : Bool :=
  ch = 0 ∨ ch ∈ text

def urlUnsafe : Nat := 1
def xmlUnsafe : Nat := 2
def htmlUnsafe : Nat := 2

/-- `ASCII_CLASS`. -/
def asciiClass : List Nat :=
  [1, 1, 1, 1, 1, 1, 1, 1, 1, 1, 1, 1, 1, 1, 1, 1, 1, 1, 1, 1, 1, 1, 1, 1, 1, 1, 1, 1, 1, 1, 1, 1,
   1, 0, 3, 1, 1, 1, 3, 2, 0, 0, 0, 1, 1, 0, 0, 1, 0, 0, 0, 0, 0, 0, 0, 0, 0, 0, 1, 1, 3, 1, 3, 1,
   1, 0, 0, 0, 0, 0, 0, 0, 0, 0, 0, 0, 0, 0, 0, 0, 0, 0, 0, 0, 0, 0, 0, 0, 0, 0, 0, 1, 1, 1, 1, 0,
   1, 0, 0, 0, 0, 0, 0, 0, 0, 0, 0, 0, 0, 0, 0, 0, 0, 0, 0, 0, 0, 0, 0, 0, 0, 0, 0, 1, 1, 1, 0, 1]

/-- The character is one of a class. -/
def inClass (cls : Nat) (ch : UInt8) : Bool :=
  ch < 128 ∧ asciiClass.getD ch.toNat 0 &&& cls ≠ 0

/-! ## What a codec leaves -/

/-- The buffer from its beginning on, as far as it was written, and the value returned. -/
structure Written where
  buffer : List UInt8
  length : Nat
  deriving DecidableEq, Repr

/-- The text that a caller takes from the buffer. -/
def Written.text (written : Written) : List UInt8 :=
  written.buffer.take written.length

/-- The common loop: while there is source, and room for a byte and the terminator. -/
def codec (buflen : Nat) (round : Codec.Round UInt8 UInt8) (source : List UInt8) : Written :=
  if buflen = 0 then ⟨[], 0⟩
  else
    let bytes := Codec.translate (fun bufpos => bufpos + 1 < buflen) round 0 source
    ⟨bytes ++ [0], bytes.length⟩

/-! ## Escape characters -/

def escapeRound (buflen : Nat) (illegal : List UInt8) (escape : UInt8) : Codec.Round UInt8 UInt8
  | _, [] => none
  | bufpos, ch :: source =>
      if ch = escape ∨ strchr illegal ch then
        if buflen ≤ bufpos + 2 then none else some ([escape, ch], source)
      else some ([ch], source)

def escape (buflen : Nat) (source illegal : List UInt8) (escape : UInt8) : Written :=
  codec buflen (escapeRound buflen illegal escape) source

def unescapeRound (escape : UInt8) : Codec.Round UInt8 UInt8
  | _, [] => none
  | _, ch :: source =>
      if ch = escape then
        match source with
        | [] => some ([ch], [])
        | next :: rest => some ([next], rest)
      else some ([ch], source)

def unescape (buflen : Nat) (source : List UInt8) (escape : UInt8) : Written :=
  codec buflen (unescapeRound escape) source

/-- An escape character and the two digits of a byte. -/
def hexPair (escape ch : UInt8) : List UInt8 :=
  [escape, hexEncodeChar ((ch >>> 4) &&& 0xF), hexEncodeChar (ch &&& 0xF)]

def encodeRound (buflen : Nat) (illegal : List UInt8) (escape : UInt8) : Codec.Round UInt8 UInt8
  | _, [] => none
  | bufpos, ch :: source =>
      if ch ≠ escape ∧ ¬ strchr illegal ch then some ([ch], source)
      else if buflen ≤ bufpos + 3 then none
      else some (hexPair escape ch, source)

def encode (buflen : Nat) (source illegal : List UInt8) (escape : UInt8) : Written :=
  codec buflen (encodeRound buflen illegal escape) source

/-- The byte that two digits stand for, and what is left behind them. -/
def hexByte : List UInt8 → Option (UInt8 × List UInt8)
  | c1 :: c2 :: rest =>
      match hexDecodeChar c1, hexDecodeChar c2 with
      | some h1, some h2 => some ((h1 <<< 4) ||| h2, rest)
      | _, _ => none
  | _ => none

def decodeRound (escape : UInt8) : Codec.Round UInt8 UInt8
  | _, [] => none
  | _, ch :: source =>
      match if ch = escape then hexByte source else none with
      | some (byte, rest) => some ([byte], rest)
      | none => some ([ch], source)

def decode (buflen : Nat) (source : List UInt8) (escape : UInt8) : Written :=
  codec buflen (decodeRound escape) source

/-! ## URLs -/

def urlEncodeRound (buflen : Nat) : Codec.Round UInt8 UInt8
  | _, [] => none
  | bufpos, ch :: source =>
      if inClass urlUnsafe ch then
        if buflen ≤ bufpos + 3 then none else some (hexPair 0x25 ch, source)
      else some ([ch], source)

def urlEncode (buflen : Nat) (source : List UInt8) : Written :=
  codec buflen (urlEncodeRound buflen) source

def urlDecodeRound : Codec.Round UInt8 UInt8
  | _, [] => none
  | _, ch :: source =>
      if ch = 0x2B then some ([0x20], source)
      else
        match if ch = 0x25 then hexByte source else none with
        | some (byte, rest) => some ([byte], rest)
        | none => some ([ch], source)

def urlDecode (buflen : Nat) (source : List UInt8) : Written :=
  codec buflen urlDecodeRound source

/-! ## UTF-8 -/

/-- The byte continues a sequence. -/
def isTrailer (ch : UInt8) : Bool :=
  ch &&& 0xC0 = 0x80

/-- The value of the sequence at the front, and its length. -/
def utf8Decode : List UInt8 → Option (Nat × Nat)
  | [] => none
  | s0 :: source =>
      if s0 &&& 0x80 = 0 then some (s0.toNat, 1)
      else
        match source with
        | [] => none
        | s1 :: source =>
            if ¬ isTrailer s1 then none
            else
              let value := (s1 &&& 0x3F).toNat
              if s0 &&& 0xE0 = 0xC0 then some ((s0 &&& 0x1F).toNat <<< 6 ||| value, 2)
              else
                match source with
                | [] => none
                | s2 :: source =>
                    if ¬ isTrailer s2 then none
                    else
                      let value := value <<< 6 ||| (s2 &&& 0x3F).toNat
                      if s0 &&& 0xF0 = 0xE0 then some ((s0 &&& 0x0F).toNat <<< 12 ||| value, 3)
                      else
                        match source with
                        | [] => none
                        | s3 :: _ =>
                            if ¬ isTrailer s3 then none
                            else
                              let value := value <<< 6 ||| (s3 &&& 0x3F).toNat
                              if s0 &&& 0xF8 = 0xF0 then
                                some ((s0 &&& 0x07).toNat <<< 18 ||| value, 4)
                              else none

/-- The bits of the value from some bit on, behind the mark of a sequence. -/
def leader (mark : UInt8) (value shift : Nat) : UInt8 :=
  mark ||| UInt8.ofNat (value >>> shift)

/-- Six bits of the value from some bit on. -/
def trailer (value shift : Nat) : UInt8 :=
  0x80 ||| UInt8.ofNat ((value >>> shift) &&& 0x3F)

/-- Nothing stands for a value that has no sequence, or none that fits in the buffer. -/
def utf8Encode (buflen value : Nat) : Option (List UInt8) :=
  if value ≤ 0x7F ∧ 1 ≤ buflen then some [UInt8.ofNat value]
  else if value ≤ 0x7FF ∧ 2 ≤ buflen then
    some [leader 0xC0 value 6, trailer value 0]
  else if value ≤ 0xFFFF ∧ 3 ≤ buflen then
    some [leader 0xE0 value 12, trailer value 6, trailer value 0]
  else if value ≤ 0x1FFFFF ∧ 4 ≤ buflen then
    some [leader 0xF0 value 18, trailer value 12, trailer value 6, trailer value 0]
  else none

/-! ## HTML and XML -/

/-- The escape sequences, `apos` being that of the apostrophe. -/
def namedEscape (apos : List UInt8) (ch : UInt8) : List UInt8 :=
  if ch = 0x3C then ascii ['&', 'l', 't', ';']
  else if ch = 0x3E then ascii ['&', 'g', 't', ';']
  else if ch = 0x27 then apos
  else if ch = 0x22 then ascii ['&', 'q', 'u', 'o', 't', ';']
  else if ch = 0x26 then ascii ['&', 'a', 'm', 'p', ';']
  else []

/-- `"&#%lu;"`. -/
def numericEscape (val : Nat) : List UInt8 :=
  ascii ['&', '#'] ++ CString.decimal val ++ [0x3B]

/-- What a round of `html_encode` looks for at the front, and what is left. -/
def htmlSequence : List UInt8 → Option (List UInt8 × List UInt8)
  | [] => none
  | ch :: source =>
      if ch < 128 then
        if inClass htmlUnsafe ch then
          some (namedEscape (ascii ['&', '#', '3', '9', ';']) ch, source)
        else some ([ch], source)
      else
        match utf8Decode (ch :: source) with
        | some (val, vallen) => some (numericEscape val, (ch :: source).drop vallen)
        -- Not a valid utf8 sequence, just use the raw character.
        | none => some (numericEscape ch.toNat, source)

/-- The guard of the loop has room for a single byte, so that the test is that of the escape
sequences. -/
def htmlEncodeRound (buflen : Nat) : Codec.Round UInt8 UInt8 := fun bufpos source =>
  match htmlSequence source with
  | none => none
  | some (chunk, rest) => if buflen ≤ bufpos + chunk.length then none else some (chunk, rest)

def htmlEncode (buflen : Nat) (source : List UInt8) : Written :=
  codec buflen (htmlEncodeRound buflen) source

def xmlEncodeRound (buflen : Nat) : Codec.Round UInt8 UInt8
  | _, [] => none
  | bufpos, ch :: source =>
      if inClass xmlUnsafe ch then
        let escseq := namedEscape (ascii ['&', 'a', 'p', 'o', 's', ';']) ch
        if buflen ≤ bufpos + escseq.length then none else some (escseq, source)
      else some ([ch], source)

def xmlEncode (buflen : Nat) (source : List UInt8) : Written :=
  codec buflen (xmlEncodeRound buflen) source

/-- What is left behind a name at the front, the `&` read already. -/
def afterName (name : List Char) (source : List UInt8) : Option (List UInt8) :=
  if ascii name <+: source then some (source.drop name.length) else none

/-- The number behind `&#`, and what is left behind its semicolon. An `unsigned long` has `bits`
bits. Digits at the end of the source go on behind it for `strtoul`, but then the escape sequence
is not accepted. -/
def characterReference (bits : Nat) (source : List UInt8) : Option (Nat × List UInt8) :=
  let (intBase, digits) :=
    match source with
    | 0x78 :: rest => (16, rest)
    | _ => (10, source)
  match CString.strtoul bits intBase digits with
  | (val, 0x3B :: rest) => some (val, rest)
  | _ => none

def xmlDecodeRound (bits buflen : Nat) : Codec.Round UInt8 UInt8
  | _, [] => none
  | bufpos, ch :: source =>
      if ch ≠ 0x26 then some ([ch], source)
      else
        match afterName ['l', 't', ';'] source with
        | some rest => some ([0x3C], rest)
        | none =>
        match afterName ['g', 't', ';'] source with
        | some rest => some ([0x3E], rest)
        | none =>
        match afterName ['a', 'p', 'o', 's', ';'] source with
        | some rest => some ([0x27], rest)
        | none =>
        match afterName ['q', 'u', 'o', 't', ';'] source with
        | some rest => some ([0x22], rest)
        | none =>
        match afterName ['a', 'm', 'p', ';'] source with
        | some rest => some ([0x26], rest)
        | none =>
        match source with
        | 0x23 :: source =>
            match characterReference bits source with
            | none => none
            | some (val, rest) =>
                -- Not enough room to encode the character, or illegal character.
                (utf8Encode (buflen - bufpos) val).map fun chunk => (chunk, rest)
        | _ => none

def xmlDecode (bits buflen : Nat) (source : List UInt8) : Written :=
  codec buflen (xmlDecodeRound bits buflen) source

def htmlDecode (bits buflen : Nat) (source : List UInt8) : Written :=
  xmlDecode bits buflen source

/-! ## Hexadecimal texts -/

def hexEncodeRound : Codec.Round UInt8 UInt8
  | _, [] => none
  | _, ch :: source =>
      some ([hexEncodeChar ((ch >>> 4) &&& 0xF), hexEncodeChar (ch &&& 0xF)], source)

/-- `hex_encode`, which cuts the source to what fits. -/
def hexEncode (buflen : Nat) (source : List UInt8) : Written :=
  if buflen = 0 then ⟨[], 0⟩
  else
    let source := source.take ((buflen - 1) / 2)
    let bytes := Codec.translate (fun _ => true) hexEncodeRound 0 source
    ⟨bytes ++ [0], bytes.length⟩

def hexDecodeRound : Codec.Round UInt8 UInt8 := fun _ source =>
  (hexByte source).map fun (byte, rest) => ([byte], rest)

def hexDecode (buflen : Nat) (source : List UInt8) : Written :=
  codec buflen hexDecodeRound source

end Libjingle.Strings

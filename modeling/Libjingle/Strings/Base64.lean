import Libjingle.Std.CString
import Libjingle.Std.Sextets

/-!
# `base64.cc`

The decoder reads up to four characters of data at a time, and then the padding of a last group that
is not full. Whether that group was one is decided by what the flags say of padding, of the bits left
over, and of the end of the text. A position in the text is what is left of it there.
-/

namespace Libjingle.Strings.Base64

open Libjingle.Std

/-! ## Tables -/

def kPad : UInt8 := 0x3D
/-- Padding, whitespace and illegal characters of the table. -/
def pd : UInt8 := 0xFD
def sp : UInt8 := 0xFE
def il : UInt8 := 0xFF

/-- `Base64Table`: capital letters, small letters, digits, `+` and `/`. -/
def base64Table : List UInt8 :=
  (List.range 26).map (fun n => UInt8.ofNat (0x41 + n)) ++
    (List.range 26).map (fun n => UInt8.ofNat (0x61 + n)) ++
    (List.range 10).map (fun n => UInt8.ofNat (0x30 + n)) ++ [0x2B, 0x2F]

/-- The character of a value. -/
def tableChar (c : UInt8) : UInt8 :=
  base64Table.getD c.toNat 0

/-- `DecodeTable`. -/
def decodeTable (ch : UInt8) : UInt8 :=
  if 0x41 ≤ ch ∧ ch ≤ 0x5A then ch - 0x41
  else if 0x61 ≤ ch ∧ ch ≤ 0x7A then ch - 0x61 + 26
  else if 0x30 ≤ ch ∧ ch ≤ 0x39 then ch - 0x30 + 52
  else if ch = 0x2B then 62
  else if ch = 0x2F then 63
  else if ch = kPad then pd
  else if (9 ≤ ch ∧ ch ≤ 13) ∨ ch = 0x20 then sp
  else il

/-! ## Encoding -/

/-- `EncodeFromArray`. -/
def encode : List UInt8 → List UInt8
  | [] => []
  | [a] => [tableChar ((a >>> 2) &&& 0x3F), tableChar ((a <<< 4) &&& 0x3F), kPad, kPad]
  | [a, b] =>
      [tableChar ((a >>> 2) &&& 0x3F), tableChar (((a <<< 4) &&& (0x3F : UInt8)) ||| ((b >>> 4) &&& (0x0F : UInt8))),
        tableChar ((b <<< 2) &&& 0x3F), kPad]
  | a :: b :: c :: data =>
      tableChar ((a >>> 2) &&& 0x3F) ::
        tableChar (((a <<< 4) &&& (0x3F : UInt8)) ||| ((b >>> 4) &&& (0x0F : UInt8))) ::
        tableChar (((b <<< 2) &&& (0x3F : UInt8)) ||| ((c >>> 6) &&& (0x03 : UInt8))) ::
        tableChar (c &&& 0x3F) :: encode data

/-! ## Decoding -/

/-- Parse only characters of data, also whitespace, or all characters. -/
inductive ParseFlags where
  | strict
  | white
  | any
  deriving DecidableEq, Repr

/-- Padding is required, optional or disallowed. -/
inductive PadFlags where
  | yes
  | any
  | no
  deriving DecidableEq, Repr

/-- The text must end at the end of the buffer, may end at any character, or at any bit. -/
inductive TermFlags where
  | buffer
  | char
  | any
  deriving DecidableEq, Repr

structure DecodeFlags where
  parse : ParseFlags
  pad : PadFlags
  term : TermFlags
  deriving DecidableEq, Repr

/-- `DO_STRICT`. -/
def doStrict : DecodeFlags :=
  ⟨.strict, .yes, .buffer⟩

/-- Where the loop of `GetNextQuantum` is: the values found, the pads behind them, where these begin,
and what is left of the data. -/
structure Scan where
  qbuf : List UInt8
  padLen : Nat
  padStart : List UInt8
  left : List UInt8
  deriving DecidableEq, Repr

/-- The loop of `GetNextQuantum`. -/
def scan (parseFlags : ParseFlags) (illegalPads : Bool) (qbuf : List UInt8) (padLen : Nat)
    (padStart : List UInt8) : List UInt8 → Scan
  | [] => ⟨qbuf, padLen, padStart, []⟩
  | ch :: data =>
      if ¬ qbuf.length < 4 then ⟨qbuf, padLen, padStart, ch :: data⟩
      else
        let value := decodeTable ch
        if value = il ∨ (illegalPads ∧ value = pd) then
          if parseFlags ≠ .any then ⟨qbuf, padLen, padStart, ch :: data⟩
          else scan parseFlags illegalPads qbuf padLen padStart data
        else if value = sp then
          if parseFlags = .strict then ⟨qbuf, padLen, padStart, ch :: data⟩
          else scan parseFlags illegalPads qbuf padLen padStart data
        else if value = pd then
          if qbuf.length < 2 then
            if parseFlags ≠ .any then ⟨qbuf, padLen, padStart, ch :: data⟩
            -- Ignore unexpected padding
            else scan parseFlags illegalPads qbuf padLen padStart data
          else if 4 ≤ qbuf.length + padLen then
            if parseFlags ≠ .any then ⟨qbuf, padLen, padStart, ch :: data⟩
            -- Ignore extra pads
            else scan parseFlags illegalPads qbuf padLen padStart data
          else
            scan parseFlags illegalPads qbuf (padLen + 1)
              (if padLen + 1 = 1 then ch :: data else padStart) data
        else if 0 < padLen then
          if parseFlags ≠ .any then ⟨qbuf, padLen, padStart, ch :: data⟩
          -- Ignore pads which are followed by data
          else scan parseFlags illegalPads (qbuf ++ [value]) 0 padStart data
        else scan parseFlags illegalPads (qbuf ++ [value]) padLen padStart data

/-- The values of a group, whether it was padded, and what is left of the data. -/
structure Quantum where
  qbuf : List UInt8
  padded : Bool
  left : List UInt8
  deriving DecidableEq, Repr

/-- `GetNextQuantum`. -/
def getNextQuantum (parseFlags : ParseFlags) (illegalPads : Bool) (data : List UInt8) : Quantum :=
  let found := scan parseFlags illegalPads [] 0 [] data
  if found.qbuf.length + found.padLen = 4 then ⟨found.qbuf, true, found.left⟩
  -- Roll back illegal padding
  else ⟨found.qbuf, false, if found.padLen ≠ 0 then found.padStart else found.left⟩

/-- The bytes of a group, and the bits left over. -/
def quantumBytes (qbuf : List UInt8) : List UInt8 × UInt8 :=
  let q (i : Nat) := qbuf.getD i 0
  let c0 := (q 0 <<< 2) ||| ((q 1 >>> 4) &&& (0x3 : UInt8))
  let c1 := ((q 1 <<< 4) &&& (0xF0 : UInt8)) ||| ((q 2 >>> 2) &&& (0xF : UInt8))
  let c2 := ((q 2 <<< 6) &&& (0xC0 : UInt8)) ||| q 3
  if 4 ≤ qbuf.length then ([c0, c1, c2], 0)
  else if 3 ≤ qbuf.length then ([c0, c1], c2)
  else if 2 ≤ qbuf.length then ([c0], c1)
  else ([], c0)

structure Decoded where
  success : Bool
  result : List UInt8
  left : List UInt8
  deriving DecidableEq, Repr

/-- The loop of `DecodeFromArrayTemplate`, with fuel for its groups. -/
def decodeFrom (flags : DecodeFlags) : Nat → List UInt8 → Decoded
  | 0, data => ⟨true, [], data⟩
  | fuel + 1, data =>
      if data = [] then ⟨true, [], []⟩
      else
        let quantum := getNextQuantum flags.parse (flags.pad = .no) data
        let (bytes, c) := quantumBytes quantum.qbuf
        if quantum.qbuf.length < 4 then
          -- Unused bits, and expected padding.
          ⟨¬ (flags.term ≠ .any ∧ c ≠ 0) ∧ ¬ (flags.pad = .yes ∧ ¬ quantum.padded), bytes,
            quantum.left⟩
        else
          let decoded := decodeFrom flags fuel quantum.left
          ⟨decoded.success, bytes ++ decoded.result, decoded.left⟩

/-- What `DecodeFromArray` returns and stores. -/
structure Outcome where
  success : Bool
  result : List UInt8
  dataUsed : Nat
  deriving DecidableEq, Repr

/-- `DecodeFromArrayTemplate`. A group that is full was read from the data, so that there is fuel
enough. -/
def decodeFromArray (flags : DecodeFlags) (data : List UInt8) : Outcome :=
  let decoded := decodeFrom flags data.length data
  ⟨decoded.success ∧ ¬ (flags.term = .buffer ∧ decoded.left ≠ []), decoded.result,
    data.length - decoded.left.length⟩

/-! ## Values and characters -/

theorem decodeTable_tableChar {v : UInt8} (small : v < 64) : decodeTable (tableChar v) = v := by
  have all : ∀ v : UInt8, v < 64 → decodeTable (tableChar v) = v :=
    CString.forall_byte (by decide +kernel)
  exact all v small

/-- What the table says of a character: a value it stands for, the padding, or a mark. -/
theorem decodeTable_char (ch : UInt8) :
    (decodeTable ch < 64 → tableChar (decodeTable ch) = ch) ∧ (decodeTable ch = pd ↔ ch = kPad) ∧
      (decodeTable ch < 64 ∨ ch = kPad ∨ decodeTable ch = il ∨ decodeTable ch = sp) := by
  revert ch
  exact CString.forall_byte (by decide +kernel)

theorem tableChar_decodeTable {ch : UInt8} (data : decodeTable ch < 64) :
    tableChar (decodeTable ch) = ch :=
  (decodeTable_char ch).1 data

/-- A value that is no mark of the table. -/
theorem not_mark {v : UInt8} (small : v < 64) : v ≠ il ∧ v ≠ sp ∧ v ≠ pd := by
  refine ⟨?_, ?_, ?_⟩ <;> rintro rfl <;> exact absurd small (by decide)

theorem decodeTable_cases (ch : UInt8) :
    decodeTable ch < 64 ∨ ch = kPad ∨ decodeTable ch = il ∨ decodeTable ch = sp :=
  (decodeTable_char ch).2.2

/-- Nothing, or a text that does not begin with a character of data. -/
def NoData (text : List UInt8) : Prop :=
  ∀ ch rest, text = ch :: rest → ¬ decodeTable ch < 64

/-! ## Groups

All of them are of the strict parser, which ends a group where something unexpected stands. -/

section

variable {illegalPads : Bool} {qbuf padStart data : List UInt8} {padLen : Nat}

theorem scan_full (full : qbuf.length = 4) :
    scan .strict illegalPads qbuf padLen padStart data = ⟨qbuf, padLen, padStart, data⟩ := by
  cases data with
  | nil => rfl
  | cons ch data => rw [scan, if_pos (by omega)]

theorem scan_data {v : UInt8} (small : v < 64) (few : qbuf.length < 4) :
    scan .strict illegalPads qbuf 0 padStart (tableChar v :: data) =
      scan .strict illegalPads (qbuf ++ [v]) 0 padStart data := by
  obtain ⟨legal, solid, unpadded⟩ := not_mark small
  rw [scan, if_neg (by omega)]
  simp only [decodeTable_tableChar small, legal, solid, unpadded, and_false, or_self, if_false,
    Nat.lt_irrefl]

theorem scan_values {values : List UInt8} (small : ∀ v ∈ values, v < 64)
    (few : qbuf.length + values.length ≤ 4) :
    scan .strict illegalPads qbuf 0 padStart (values.map tableChar ++ data) =
      scan .strict illegalPads (qbuf ++ values) 0 padStart data := by
  induction values generalizing qbuf with
  | nil => rw [List.append_nil]; rfl
  | cons v values ih =>
    rw [List.length_cons] at few
    rw [List.forall_mem_cons] at small
    rw [List.map_cons, List.cons_append, scan_data small.1 (by omega),
      ih small.2 (by rw [List.length_append, List.length_singleton]; omega), List.append_assoc]
    rfl

/-- A pad that is expected. -/
theorem scan_pad (few : 2 ≤ qbuf.length) (room : qbuf.length + padLen < 4) :
    scan .strict false qbuf padLen padStart (kPad :: data) =
      scan .strict false qbuf (padLen + 1) (if padLen + 1 = 1 then kPad :: data else padStart)
        data := by
  have value : decodeTable kPad = pd := by decide
  have mark : pd ≠ il ∧ pd ≠ sp := by decide
  rw [scan, if_neg (by omega)]
  simp only [value, mark, Bool.false_eq_true, false_and, or_self, if_false, if_true]
  rw [if_neg (by omega), if_neg (by omega)]

/-- The group ends before something else than a value or a pad that is expected. -/
theorem scan_stop (stops : NoData data ∨ 0 < padLen)
    (unpadded : illegalPads = true ∨ qbuf.length < 2 ∨ 4 ≤ qbuf.length + padLen ∨
      data.head? ≠ some kPad) :
    scan .strict illegalPads qbuf padLen padStart data = ⟨qbuf, padLen, padStart, data⟩ := by
  cases data with
  | nil => rfl
  | cons ch data =>
    rw [scan]
    split
    · rfl
    rcases decodeTable_cases ch with small | rfl | illegal | space
    · rcases stops with noData | padded
      · exact absurd small (noData ch data rfl)
      · obtain ⟨legal, solid, unpadded⟩ := not_mark small
        simp [legal, solid, unpadded, padded]
    · have value : decodeTable kPad = pd := by decide
      have mark : pd ≠ il ∧ pd ≠ sp := by decide
      simp only [value, mark, false_or, and_true, if_true, if_false, ne_eq, reduceCtorEq,
        not_false_iff]
      split
      · rfl
      · next legal =>
        split
        · rfl
        split
        · rfl
        · next several full =>
          rcases unpadded with illegal | short | long | apart
          · exact absurd illegal legal
          · exact absurd short several
          · exact absurd long full
          · exact absurd rfl apart
    · simp [illegal]
    · have mark : sp ≠ il ∧ sp ≠ pd := by decide
      simp [space, mark]

variable {values : List UInt8} (small : ∀ v ∈ values, v < 64)

include small in
theorem quantum_full (full : values.length = 4) :
    getNextQuantum .strict illegalPads (values.map tableChar ++ data) = ⟨values, true, data⟩ := by
  unfold getNextQuantum
  rw [scan_values small (by simp [full]), List.nil_append, scan_full full]
  simp [full]

include small in
/-- A group that is not full, and its padding. -/
theorem quantum_padded (some_bits : 2 ≤ values.length) (few : values.length < 4) :
    getNextQuantum .strict false
        (values.map tableChar ++ (List.replicate (4 - values.length) kPad ++ data)) =
      ⟨values, true, data⟩ := by
  have pads : scan .strict false values 0 [] (List.replicate (4 - values.length) kPad ++ data) =
      ⟨values, 4 - values.length, List.replicate (4 - values.length) kPad ++ data, data⟩ := by
    obtain two | three : values.length = 2 ∨ values.length = 3 := by omega
    · simp only [two, Nat.reduceSub, List.replicate, List.cons_append, List.nil_append]
      rw [scan_pad (by omega) (by omega), scan_pad (by omega) (by omega),
        scan_stop (.inr (by omega)) (.inr (.inr (.inl (by omega))))]
      rfl
    · simp only [three, Nat.reduceSub, List.replicate, List.cons_append, List.nil_append]
      rw [scan_pad (by omega) (by omega),
        scan_stop (.inr (by omega)) (.inr (.inr (.inl (by omega))))]
      rfl
  unfold getNextQuantum
  rw [scan_values small (by simp; omega), List.nil_append, pads]
  simp only
  rw [if_pos (by omega)]

include small in
/-- A group that is not full, without its padding. -/
theorem quantum_unpadded (few : values.length < 4) (noData : NoData data)
    (unpadded : illegalPads = true ∨ values.length < 2 ∨
      ¬ List.replicate (4 - values.length) kPad <+: data) :
    getNextQuantum .strict illegalPads (values.map tableChar ++ data) = ⟨values, false, data⟩ := by
  unfold getNextQuantum
  rw [scan_values small (by simp; omega), List.nil_append]
  by_cases stops : illegalPads = true ∨ values.length < 2 ∨ data.head? ≠ some kPad
  · have unexpected : illegalPads = true ∨ values.length < 2 ∨ 4 ≤ values.length + 0 ∨
        data.head? ≠ some kPad := by
      rcases stops with legal | short | apart
      · exact .inl legal
      · exact .inr (.inl short)
      · exact .inr (.inr (.inr apart))
    rw [scan_stop (.inl noData) unexpected]
    simp only
    rw [if_neg (by omega)]
    rfl
  · simp only [not_or, Bool.not_eq_true, Nat.not_lt, not_not] at stops
    obtain ⟨rfl, several, padded⟩ := stops
    obtain ⟨rest, rfl⟩ : ∃ rest, data = kPad :: rest := by
      cases data with
      | nil => cases padded
      | cons ch rest => exact ⟨rest, by rw [Option.some.inj padded]⟩
    have missing : ¬ List.replicate (4 - values.length) kPad <+: kPad :: rest := by
      rcases unpadded with legal | short | missing
      · cases legal
      · exact absurd several (Nat.not_le.mpr short)
      · exact missing
    obtain two | three : values.length = 2 ∨ values.length = 3 := by omega
    · have apart : rest.head? ≠ some kPad := by
        intro second
        refine missing ?_
        cases rest with
        | nil => cases second
        | cons ch rest =>
          obtain rfl := Option.some.inj second
          simp [two, List.replicate]
      rw [scan_pad (by omega) (by omega), scan_stop (.inr (by omega)) (.inr (.inr (.inr apart)))]
      simp [two]
    · exact absurd (by simp [three]) missing

end

/-! ## Texts -/

/-- The bytes of values. -/
def bytesOf : List UInt8 → List UInt8
  | u :: v :: w :: x :: values => (quantumBytes [u, v, w, x]).1 ++ bytesOf values
  | values => (quantumBytes values).1

/-- The strict decoder accepts values and what stands behind them: the bits left over are zero, and
the last group ends with the text or is padded, as the flags will have it. -/
def Accepts (pad : PadFlags) (text : List UInt8) : List UInt8 → Prop
  | _ :: _ :: _ :: _ :: values => Accepts pad text values
  | values =>
      (quantumBytes values).2 = 0 ∧
        (text = [] ∧ (values = [] ∨ pad ≠ .yes) ∨
          2 ≤ values.length ∧ pad ≠ .no ∧ text = List.replicate (4 - values.length) kPad)

theorem length_lt_four {values : List UInt8}
    (few : ∀ u v w x rest, values = u :: v :: w :: x :: rest → False) : values.length < 4 := by
  match values with
  | [] => decide
  | [_] => simp
  | [_, _] => simp
  | [_, _, _] => simp
  | u :: v :: w :: x :: rest => exact (few u v w x rest rfl).elim

/-- The loop over a last group. -/
theorem decodeFrom_last {pad : PadFlags} {values text : List UInt8} {fuel : Nat}
    (small : ∀ v ∈ values, v < 64) (few : values.length < 4) (noData : NoData text)
    (some_text : values.map tableChar ++ text ≠ []) :
    let decoded := decodeFrom ⟨.strict, pad, .buffer⟩ (fuel + 1) (values.map tableChar ++ text)
    (decoded.success = true ∧ decoded.left = [] ↔ (quantumBytes values).2 = 0 ∧
        (text = [] ∧ pad ≠ .yes ∨
          2 ≤ values.length ∧ pad ≠ .no ∧ text = List.replicate (4 - values.length) kPad)) ∧
      decoded.result = (quantumBytes values).1 := by
  intro decoded
  have unfolded : ∀ quantum, getNextQuantum .strict (pad = .no) (values.map tableChar ++ text) =
      quantum → quantum.qbuf = values → decoded =
        ⟨¬ ((quantumBytes values).2 ≠ 0) ∧ ¬ (pad = .yes ∧ ¬ quantum.padded),
          (quantumBytes values).1, quantum.left⟩ := by
    intro quantum found same
    simp only [decoded, decodeFrom, if_neg some_text, found, same, if_pos few]
    simp
  by_cases padded : pad ≠ .no ∧ 2 ≤ values.length ∧ List.replicate (4 - values.length) kPad <+: text
  · obtain ⟨allowed, several, rest, rfl⟩ := padded
    have quantum := @quantum_padded rest values small several few
    rw [unfolded ⟨values, true, rest⟩ (by simpa [allowed] using quantum) rfl]
    have some_pads : List.replicate (4 - values.length) kPad ++ rest ≠ [] := by
      simp only [ne_eq, List.append_eq_nil_iff, List.replicate_eq_nil_iff, not_and]
      omega
    simp [several, allowed, some_pads]
  · have quantum : getNextQuantum .strict (pad = .no) (values.map tableChar ++ text) =
        ⟨values, false, text⟩ := by
      refine quantum_unpadded small few noData ?_
      by_cases legal : pad = .no
      · exact .inl (decide_eq_true legal)
      · by_cases short : values.length < 2
        · exact .inr (.inl short)
        · exact .inr (.inr fun pads => padded ⟨legal, Nat.not_lt.mp short, pads⟩)
    rw [unfolded _ quantum rfl]
    have unpadded : ¬ (2 ≤ values.length ∧ pad ≠ .no ∧
        text = List.replicate (4 - values.length) kPad) := by
      rintro ⟨several, allowed, rfl⟩
      exact padded ⟨allowed, several, List.prefix_refl _⟩
    simp [unpadded]
    tauto

theorem accepts_last {pad : PadFlags} {text values : List UInt8} (few : values.length < 4) :
    Accepts pad text values ↔ (quantumBytes values).2 = 0 ∧
      (text = [] ∧ (values = [] ∨ pad ≠ .yes) ∨
        2 ≤ values.length ∧ pad ≠ .no ∧ text = List.replicate (4 - values.length) kPad) := by
  match values with
  | [] => rfl
  | [_] => rfl
  | [_, _] => rfl
  | [_, _, _] => rfl
  | _ :: _ :: _ :: _ :: rest =>
    simp only [List.length_cons] at few
    omega

theorem bytesOf_last {values : List UInt8} (few : values.length < 4) :
    bytesOf values = (quantumBytes values).1 := by
  match values with
  | [] => rfl
  | [_] => rfl
  | [_, _] => rfl
  | [_, _, _] => rfl
  | _ :: _ :: _ :: _ :: rest =>
    simp only [List.length_cons] at few
    omega

/-- The loop over a text: it comes to the end with success if the text is accepted. -/
theorem decodeFrom_spec {pad : PadFlags} {values text : List UInt8} {fuel : Nat}
    (small : ∀ v ∈ values, v < 64) (noData : NoData text)
    (enough : (values.map tableChar ++ text).length ≤ fuel) :
    let decoded := decodeFrom ⟨.strict, pad, .buffer⟩ fuel (values.map tableChar ++ text)
    (decoded.success = true ∧ decoded.left = [] ↔ Accepts pad text values) ∧
      decoded.result = bytesOf values := by
  induction values using bytesOf.induct generalizing fuel with
  | case1 u v w x values ih =>
    obtain ⟨fuel, rfl⟩ : ∃ n, fuel = n + 1 := ⟨fuel - 1, by simp at enough; omega⟩
    have group : ∀ value ∈ [u, v, w, x], value < 64 := fun value value_mem =>
      small value (List.mem_append_left values value_mem)
    have others : ∀ value ∈ values, value < 64 := fun value value_mem =>
      small value (List.mem_append_right [u, v, w, x] value_mem)
    have less : (values.map tableChar ++ text).length ≤ fuel := by
      simp only [List.length_append, List.length_map, List.length_cons] at enough ⊢
      omega
    obtain ⟨accepted, result⟩ := ih others less
    have quantum : getNextQuantum .strict (pad = .no)
        ((u :: v :: w :: x :: values).map tableChar ++ text) =
          ⟨[u, v, w, x], true, values.map tableChar ++ text⟩ := quantum_full group rfl
    have step : decodeFrom ⟨.strict, pad, .buffer⟩ (fuel + 1)
        ((u :: v :: w :: x :: values).map tableChar ++ text) =
          let decoded := decodeFrom ⟨.strict, pad, .buffer⟩ fuel (values.map tableChar ++ text)
          ⟨decoded.success, (quantumBytes [u, v, w, x]).1 ++ decoded.result, decoded.left⟩ := by
      rw [decodeFrom, if_neg (by simp)]
      simp only [quantum]
      rfl
    intro decoded
    simp only [decoded, step, Accepts, bytesOf, result]
    exact ⟨accepted, trivial⟩
  | case2 values last =>
    have few := length_lt_four last
    rw [accepts_last few, bytesOf_last few]
    by_cases empty : values.map tableChar ++ text = []
    · obtain ⟨none, rfl⟩ := List.append_eq_nil_iff.mp empty
      obtain rfl := List.map_eq_nil_iff.mp none
      cases fuel with
      | zero => exact ⟨by simp [decodeFrom, quantumBytes], rfl⟩
      | succ fuel => exact ⟨by simp [decodeFrom, quantumBytes], rfl⟩
    · have some_fuel := List.length_pos_of_ne_nil empty
      obtain ⟨fuel, rfl⟩ : ∃ n, fuel = n + 1 := ⟨fuel - 1, by omega⟩
      obtain ⟨accepted, result⟩ := @decodeFrom_last pad values text fuel small few noData empty
      refine ⟨accepted.trans ?_, result⟩
      have either : (text = [] ∧ (values = [] ∨ pad ≠ .yes)) ↔ (text = [] ∧ pad ≠ .yes) := by
        refine and_congr_right fun none => or_iff_right fun none' => empty ?_
        rw [none, none']
        rfl
      rw [either]

/-- What the strict decoder does with values and what stands behind them. -/
theorem decodeFromArray_spec {pad : PadFlags} {values text : List UInt8}
    (small : ∀ v ∈ values, v < 64) (noData : NoData text) :
    let outcome := decodeFromArray ⟨.strict, pad, .buffer⟩ (values.map tableChar ++ text)
    (outcome.success = true ↔ Accepts pad text values) ∧ outcome.result = bytesOf values ∧
      (outcome.success = true → outcome.dataUsed = (values.map tableChar ++ text).length) := by
  obtain ⟨accepted, result⟩ := @decodeFrom_spec pad values text _ small noData (Nat.le_refl _)
  intro outcome
  have success : outcome.success = true ↔ Accepts pad text values := by
    rw [← accepted]
    simp [outcome, decodeFromArray]
  refine ⟨success, result, fun accepts => ?_⟩
  have ended := (accepted.mpr (success.mp accepts)).2
  simp only [outcome, decodeFromArray, ended, List.length_nil, Nat.sub_zero]

end Libjingle.Strings.Base64

import Libjingle.Strings.Base64
import Mathlib.Data.List.DropRight

/-!
# What the strict Base64 decoder accepts

The values of a text are the sextets of its bytes. With padding required, a text is accepted if it is
what the encoder writes. Without it, so is one that has a character `A` too many: its bits are all
left over, and zero.
-/

namespace Libjingle.Strings.Base64

open Libjingle.Std

/-! ## Values as numbers -/

/-- What holds of the numbers below 64 holds of two values. -/
theorem forall_values {p : UInt8 → UInt8 → Prop}
    (all : ∀ m n : Fin 64, p (UInt8.ofNat m) (UInt8.ofNat n)) {u v : UInt8} (hu : u < 64)
    (hv : v < 64) : p u v := by
  have here := all ⟨u.toNat, UInt8.lt_iff_toNat_lt.mp hu⟩ ⟨v.toNat, UInt8.lt_iff_toNat_lt.mp hv⟩
  rwa [UInt8.ofNat_toNat, UInt8.ofNat_toNat] at here

theorem toNat_join {u v : UInt8} (hu : u < 64) (hv : v < 64) :
    ((u <<< 2) ||| ((v >>> 4) &&& (0x3 : UInt8))).toNat = u.toNat * 4 + v.toNat / 16 ∧
      (((u <<< 4) &&& (0xF0 : UInt8)) ||| ((v >>> 2) &&& (0xF : UInt8))).toNat =
        u.toNat % 16 * 16 + v.toNat / 4 ∧
      (((u <<< 6) &&& (0xC0 : UInt8)) ||| v).toNat = u.toNat % 4 * 64 + v.toNat := by
  refine forall_values (p := fun u v =>
    ((u <<< 2) ||| ((v >>> 4) &&& (0x3 : UInt8))).toNat = u.toNat * 4 + v.toNat / 16 ∧
      (((u <<< 4) &&& (0xF0 : UInt8)) ||| ((v >>> 2) &&& (0xF : UInt8))).toNat =
        u.toNat % 16 * 16 + v.toNat / 4 ∧
      (((u <<< 6) &&& (0xC0 : UInt8)) ||| v).toNat = u.toNat % 4 * 64 + v.toNat) ?_ hu hv
  decide +kernel

theorem toNat_split (a b : UInt8) :
    ((a >>> 2) &&& 0x3F).toNat = a.toNat / 4 ∧ ((a <<< 4) &&& 0x3F).toNat = a.toNat % 4 * 16 ∧
      (((a <<< 4) &&& (0x3F : UInt8)) ||| ((b >>> 4) &&& (0x0F : UInt8))).toNat =
        a.toNat % 4 * 16 + b.toNat / 16 ∧
      ((a <<< 2) &&& 0x3F).toNat = a.toNat % 16 * 4 ∧
      (((a <<< 2) &&& (0x3F : UInt8)) ||| ((b >>> 6) &&& (0x03 : UInt8))).toNat =
        a.toNat % 16 * 4 + b.toNat / 64 ∧
      (a &&& 0x3F).toNat = a.toNat % 64 := by
  have single : ∀ a : UInt8, ((a >>> 2) &&& 0x3F).toNat = a.toNat / 4 ∧
      (a <<< 4) &&& 0x3F = UInt8.ofNat (a.toNat % 4 * 16) ∧
      (a >>> 4) &&& 0x0F = UInt8.ofNat (a.toNat / 16) ∧
      (a <<< 2) &&& 0x3F = UInt8.ofNat (a.toNat % 16 * 4) ∧
      (a >>> 6) &&& 0x03 = UInt8.ofNat (a.toNat / 64) ∧ (a &&& 0x3F).toNat = a.toNat % 64 :=
    CString.forall_byte (by decide +kernel)
  have four : ∀ (m : Fin 4) (n : Fin 16),
      (UInt8.ofNat (m * 16) ||| UInt8.ofNat n).toNat = m * 16 + n := by decide
  have sixteen : ∀ (m : Fin 16) (n : Fin 4),
      (UInt8.ofNat (m * 4) ||| UInt8.ofNat n).toNat = m * 4 + n := by decide
  obtain ⟨a1, a2, -, a4, -, a6⟩ := single a
  obtain ⟨-, -, b3, -, b5, -⟩ := single b
  have hb := b.toNat_lt
  rw [a1, a2, a4, a6, b3, b5]
  refine ⟨rfl, ?_, ?_, ?_, ?_, rfl⟩
  · simp only [UInt8.toNat_ofNat']
    omega
  · exact four ⟨a.toNat % 4, by omega⟩ ⟨b.toNat / 16, by omega⟩
  · simp only [UInt8.toNat_ofNat']
    omega
  · exact sixteen ⟨a.toNat % 16, by omega⟩ ⟨b.toNat / 64, by omega⟩

/-- The bytes of values are the octets of sextets. -/
theorem toNat_bytesOf {values : List UInt8} (small : ∀ v ∈ values, v < 64) :
    (bytesOf values).map UInt8.toNat = Sextets.toOctets (values.map UInt8.toNat) := by
  have zero : (0 : UInt8) < 64 := by decide
  induction values using bytesOf.induct with
  | case1 u v w x values ih =>
    simp only [List.forall_mem_cons] at small
    obtain ⟨hu, hv, hw, hx, small⟩ := small
    have first := (toNat_join hu hv).1
    have second := (toNat_join hv hw).2.1
    have third := (toNat_join hw hx).2.2
    simp only [bytesOf, List.map_append, ih small, List.map_cons, Sextets.toOctets]
    simp [quantumBytes, first, second, third]
  | case2 values last =>
    have few := length_lt_four last
    rw [bytesOf_last few]
    rcases values with _ | ⟨u, _ | ⟨v, _ | ⟨w, _ | ⟨x, rest⟩⟩⟩⟩
    · rfl
    · rfl
    · simp only [List.forall_mem_cons] at small
      have first := (toNat_join small.1 small.2.1).1
      simp [quantumBytes, first, Sextets.toOctets]
    · simp only [List.forall_mem_cons] at small
      have first := (toNat_join small.1 small.2.1).1
      have second := (toNat_join small.2.1 small.2.2.1).2.1
      simp [quantumBytes, first, second, Sextets.toOctets]
    · simp only [List.length_cons] at few
      omega

/-! ## Padding -/

/-- The padding behind a number of values. -/
def padding (count : Nat) : List UInt8 :=
  List.replicate ((4 - count % 4) % 4) kPad

/-- The last group is a single value, and it is zero. -/
def Dangling : List UInt8 → Prop
  | [] => False
  | [u] => u = 0
  | [_, _] => False
  | [_, _, _] => False
  | _ :: _ :: _ :: _ :: values => Dangling values

theorem unused_one {u : UInt8} (hu : u < 64) : (quantumBytes [u]).2 = 0 ↔ u = 0 := by
  have zero : (0 : UInt8) < 64 := by decide
  have first := (toNat_join hu zero).1
  simp only [quantumBytes, List.length_singleton, List.getD_cons_zero, List.getD_cons_succ,
    List.getD_nil, Nat.reduceLeDiff, if_false]
  rw [← UInt8.toNat_inj, first, ← UInt8.toNat_inj, UInt8.toNat_zero]
  omega

theorem unused_two {u v : UInt8} (hv : v < 64) :
    (quantumBytes [u, v]).2 = 0 ↔ v.toNat % 16 = 0 := by
  have zero : (0 : UInt8) < 64 := by decide
  have second := (toNat_join hv zero).2.1
  simp only [quantumBytes, List.length_cons, List.length_nil, List.getD_cons_zero,
    List.getD_cons_succ, List.getD_nil, Nat.reduceLeDiff, Nat.reduceAdd, if_false, if_true]
  rw [← UInt8.toNat_inj, second, UInt8.toNat_zero]
  omega

theorem unused_three {u v w : UInt8} (hw : w < 64) :
    (quantumBytes [u, v, w]).2 = 0 ↔ w.toNat % 4 = 0 := by
  have zero : (0 : UInt8) < 64 := by decide
  have third := (toNat_join hw zero).2.2
  simp only [quantumBytes, List.length_cons, List.length_nil, List.getD_cons_zero,
    List.getD_cons_succ, List.getD_nil, Nat.reduceLeDiff, Nat.reduceAdd, if_false, if_true]
  rw [← UInt8.toNat_inj, third, UInt8.toNat_zero]
  omega

/-- A text is accepted with whole sextets, and padding as the flags will have it; or with a value too
many. -/
theorem accepts_iff {pad : PadFlags} {text values : List UInt8} (small : ∀ v ∈ values, v < 64) :
    Accepts pad text values ↔
      (Sextets.Whole (values.map UInt8.toNat) ∧
        (text = [] ∧ (values.length % 4 = 0 ∨ pad ≠ .yes) ∨
          values.length % 4 ≠ 0 ∧ pad ≠ .no ∧ text = padding values.length)) ∨
      (Dangling values ∧ text = [] ∧ pad ≠ .yes) := by
  induction values using bytesOf.induct with
  | case1 u v w x values ih =>
    simp only [List.forall_mem_cons] at small
    have length : (u :: v :: w :: x :: values).length % 4 = values.length % 4 := by
      simp only [List.length_cons]
      omega
    have pads : padding (u :: v :: w :: x :: values).length = padding values.length := by
      rw [padding, length]
      rfl
    rw [length, pads]
    exact ih small.2.2.2.2
  | case2 values last =>
    have few := length_lt_four last
    rw [accepts_last few]
    rcases values with _ | ⟨u, _ | ⟨v, _ | ⟨w, _ | ⟨x, rest⟩⟩⟩⟩
    · have bits : (quantumBytes []).2 = 0 := by decide
      simp [bits, Sextets.Whole, Dangling]
    · rw [unused_one (small u (by simp))]
      simp [Sextets.Whole, Dangling]
    · rw [unused_two (small v (by simp))]
      have pads : padding [u, v].length = List.replicate 2 kPad := rfl
      rw [pads]
      simp [Sextets.Whole, Dangling]
    · rw [unused_three (small w (by simp))]
      have pads : padding [u, v, w].length = List.replicate 1 kPad := rfl
      rw [pads]
      simp [Sextets.Whole, Dangling]
    · simp only [List.length_cons] at few
      omega

/-! ## What the encoder writes -/

/-- The values of bytes. -/
def valuesOf (data : List UInt8) : List UInt8 :=
  (Sextets.ofOctets (data.map UInt8.toNat)).map UInt8.ofNat

theorem toNat_lt_of_mem {data : List UInt8} : ∀ a ∈ data.map UInt8.toNat, a < 256 := by
  intro a a_mem
  obtain ⟨byte, -, rfl⟩ := List.mem_map.mp a_mem
  exact byte.toNat_lt

theorem toNat_valuesOf (data : List UInt8) :
    (valuesOf data).map UInt8.toNat = Sextets.ofOctets (data.map UInt8.toNat) := by
  rw [valuesOf, List.map_map]
  refine (List.map_congr_left fun u u_mem => ?_).trans (List.map_id _)
  have small := Sextets.ofOctets_lt toNat_lt_of_mem u u_mem
  rw [Function.comp_apply, UInt8.toNat_ofNat', id]
  omega

theorem valuesOf_lt (data : List UInt8) : ∀ v ∈ valuesOf data, v < 64 := by
  intro v v_mem
  have small := Sextets.ofOctets_lt toNat_lt_of_mem v.toNat
    (toNat_valuesOf data ▸ List.mem_map_of_mem v_mem)
  exact UInt8.lt_iff_toNat_lt.mpr small

theorem toNat_inj {a b : List UInt8} (same : a.map UInt8.toNat = b.map UInt8.toNat) : a = b :=
  List.map_injective_iff.mpr (fun _ _ => UInt8.toNat_inj.mp) same

theorem bytesOf_valuesOf (data : List UInt8) : bytesOf (valuesOf data) = data := by
  refine toNat_inj ?_
  rw [toNat_bytesOf (valuesOf_lt data), toNat_valuesOf, Sextets.toOctets_ofOctets toNat_lt_of_mem]

theorem whole_valuesOf (data : List UInt8) :
    Sextets.Whole ((valuesOf data).map UInt8.toNat) := by
  rw [toNat_valuesOf]
  exact Sextets.whole_ofOctets _

theorem valuesOf_bytesOf {values : List UInt8} (small : ∀ v ∈ values, v < 64)
    (whole : Sextets.Whole (values.map UInt8.toNat)) : valuesOf (bytesOf values) = values := by
  refine toNat_inj ?_
  rw [toNat_valuesOf, toNat_bytesOf small]
  refine Sextets.ofOctets_toOctets (fun u u_mem => ?_) whole
  obtain ⟨v, v_mem, rfl⟩ := List.mem_map.mp u_mem
  exact UInt8.lt_iff_toNat_lt.mp (small v v_mem)

/-- The encoder writes the characters of the values, and the padding. -/
theorem encode_eq (data : List UInt8) :
    encode data = (valuesOf data).map tableChar ++ padding (valuesOf data).length := by
  have chars : ∀ {v : UInt8} {n : Nat}, v.toNat = n → tableChar v = tableChar (UInt8.ofNat n) := by
    rintro v _ rfl
    rw [UInt8.ofNat_toNat]
  induction data using encode.induct with
  | case1 => rfl
  | case2 a =>
    obtain ⟨first, second, -⟩ := toNat_split a 0
    rw [encode, chars first, chars second]
    rfl
  | case3 a b =>
    obtain ⟨first, -, second, -⟩ := toNat_split a b
    obtain ⟨-, -, -, third, -⟩ := toNat_split b 0
    rw [encode, chars first, chars second, chars third]
    rfl
  | case4 a b c data ih =>
    obtain ⟨first, -, second, -⟩ := toNat_split a b
    obtain ⟨-, -, -, -, third, -⟩ := toNat_split b c
    obtain ⟨-, -, -, -, -, fourth⟩ := toNat_split c 0
    have length : (valuesOf (a :: b :: c :: data)).length = (valuesOf data).length + 4 := rfl
    have pads : padding ((valuesOf data).length + 4) = padding (valuesOf data).length := by
      rw [padding, Nat.add_mod_right]
      rfl
    rw [encode, ih, length, pads, chars first, chars second, chars third, chars fourth]
    rfl

/-! ## Texts -/

/-- Every text is characters of values and something else. -/
theorem exists_values (text : List UInt8) : ∃ values behind : List UInt8, (∀ v ∈ values, v < 64) ∧
    NoData behind ∧ text = values.map tableChar ++ behind := by
  induction text with
  | nil => exact ⟨[], [], List.forall_mem_nil _, nofun, rfl⟩
  | cons ch text ih =>
    by_cases data : decodeTable ch < 64
    · obtain ⟨values, behind, small, noData, rfl⟩ := ih
      refine ⟨decodeTable ch :: values, behind, List.forall_mem_cons.mpr ⟨data, small⟩, noData, ?_⟩
      rw [List.map_cons, tableChar_decodeTable data]
      rfl
    · refine ⟨[], ch :: text, List.forall_mem_nil _, ?_, rfl⟩
      rintro _ _ ⟨⟩
      exact data

theorem values_unique {values values' behind behind' : List UInt8} (small : ∀ v ∈ values, v < 64)
    (small' : ∀ v ∈ values', v < 64) (noData : NoData behind) (noData' : NoData behind')
    (same : values.map tableChar ++ behind = values'.map tableChar ++ behind') :
    values = values' ∧ behind = behind' := by
  have read : ∀ {v : UInt8}, v < 64 → decodeTable (tableChar v) < 64 := fun hv => by
    rwa [decodeTable_tableChar hv]
  induction values generalizing values' with
  | nil =>
    cases values' with
    | nil => exact ⟨rfl, same⟩
    | cons v values' => exact absurd (read (small' v List.mem_cons_self)) (noData _ _ same)
  | cons u values ih =>
    rw [List.forall_mem_cons] at small
    cases values' with
    | nil => exact absurd (read small.1) (noData' _ _ same.symm)
    | cons v values' =>
      rw [List.forall_mem_cons] at small'
      obtain ⟨first, others⟩ := List.cons.inj same
      obtain ⟨rfl, rfl⟩ := ih small.2 small'.2 others
      have value := congrArg decodeTable first
      rw [decodeTable_tableChar small.1, decodeTable_tableChar small'.1] at value
      exact ⟨by rw [value], rfl⟩

theorem noData_nil : NoData [] :=
  fun _ _ parts => by cases parts

theorem noData_padding (count : Nat) : NoData (padding count) := by
  intro ch rest parts
  have pad_mem : ch ∈ padding count := by
    rw [parts]
    exact List.mem_cons_self
  rw [List.eq_of_mem_replicate pad_mem]
  decide

theorem padding_eq_nil_iff (count : Nat) : padding count = [] ↔ count % 4 = 0 := by
  rw [padding, List.replicate_eq_nil_iff]
  omega

/-- Values without bits left over are those of their bytes. -/
theorem whole_and_bytesOf_iff {values data : List UInt8} (small : ∀ v ∈ values, v < 64) :
    Sextets.Whole (values.map UInt8.toNat) ∧ bytesOf values = data ↔ values = valuesOf data := by
  constructor
  · rintro ⟨whole, rfl⟩
    exact (valuesOf_bytesOf small whole).symm
  · rintro rfl
    exact ⟨whole_valuesOf data, bytesOf_valuesOf data⟩

/-- The strict decoder succeeds on a text, with a result. -/
def Decodes (pad : PadFlags) (text result : List UInt8) : Prop :=
  (decodeFromArray ⟨.strict, pad, .buffer⟩ text).success = true ∧
    (decodeFromArray ⟨.strict, pad, .buffer⟩ text).result = result

section

variable {pad : PadFlags} {values behind data : List UInt8} (small : ∀ v ∈ values, v < 64)
  (noData : NoData behind)

include small noData

theorem decodes_iff : Decodes pad (values.map tableChar ++ behind) data ↔
    Accepts pad behind values ∧ bytesOf values = data := by
  obtain ⟨accepted, result, -⟩ := @decodeFromArray_spec pad values behind small noData
  rw [Decodes, accepted, result]

theorem eq_encode_iff : values.map tableChar ++ behind = encode data ↔
    values = valuesOf data ∧ behind = padding values.length := by
  rw [encode_eq]
  constructor
  · intro same
    obtain ⟨rfl, rfl⟩ := values_unique small (valuesOf_lt data) noData (noData_padding _) same
    exact ⟨rfl, rfl⟩
  · rintro ⟨rfl, rfl⟩
    rfl

theorem decodes_yes_iff : Decodes .yes (values.map tableChar ++ behind) data ↔
    values.map tableChar ++ behind = encode data := by
  rw [decodes_iff small noData, accepts_iff small, eq_encode_iff small noData,
    ← whole_and_bytesOf_iff small]
  have ends := padding_eq_nil_iff values.length
  by_cases whole : values.length % 4 = 0
  · rw [ends.mpr whole]
    simp [whole]
    tauto
  · simp [whole]
    tauto

end

/-- The strict decoder inverts the encoder, and reads nothing else. -/
theorem decode_strict_iff (text data : List UInt8) :
    ((decodeFromArray doStrict text).success = true ∧ (decodeFromArray doStrict text).result = data ↔
        text = encode data) ∧
      (decodeFromArray doStrict (encode data)).dataUsed = (encode data).length := by
  have inverse : ∀ text, Decodes .yes text data ↔ text = encode data := by
    intro text
    obtain ⟨values, behind, small, noData, rfl⟩ := exists_values text
    exact decodes_yes_iff small noData
  refine ⟨inverse text, ?_⟩
  obtain ⟨values, behind, small, noData, parts⟩ := exists_values (encode data)
  obtain ⟨-, -, used⟩ := @decodeFromArray_spec .yes values behind small noData
  have success := ((inverse (encode data)).mpr rfl).1
  rw [parts] at success ⊢
  exact used success

/-! ## Without padding -/

/-- A text without its trailing `=`. -/
def withoutPadding (text : List UInt8) : List UInt8 :=
  text.rdropWhile (· = kPad)

theorem withoutPadding_encode (data : List UInt8) :
    withoutPadding (encode data) = (valuesOf data).map tableChar := by
  have chars : ∀ ch ∈ (valuesOf data).map tableChar, ch ≠ kPad := by
    intro ch ch_mem
    obtain ⟨v, v_mem, rfl⟩ := List.mem_map.mp ch_mem
    have small := valuesOf_lt data v v_mem
    intro pad
    have value := decodeTable_tableChar small
    rw [pad] at value
    rw [← value] at small
    exact absurd small (by decide)
  rw [encode_eq, withoutPadding, padding]
  generalize (4 - (valuesOf data).length % 4) % 4 = count
  induction count with
  | zero =>
    rw [List.replicate_zero, List.append_nil, List.rdropWhile_eq_self_iff]
    intro some pad
    exact chars _ (List.getLast_mem some) (of_decide_eq_true pad)
  | succ count ih =>
    rw [List.replicate_succ', ← List.append_assoc, List.rdropWhile_concat_pos _ _ _ (by simp), ih]

theorem dangling_iff (values : List UInt8) :
    Dangling values ↔ ∃ front, values = front ++ [0] ∧ front.length % 4 = 0 := by
  induction values using bytesOf.induct with
  | case1 u v w x values ih =>
    rw [Dangling, ih]
    constructor
    · rintro ⟨front, rfl, groups⟩
      refine ⟨u :: v :: w :: x :: front, rfl, ?_⟩
      simp only [List.length_cons]
      omega
    · rintro ⟨front, parts, groups⟩
      rcases front with _ | ⟨_, _ | ⟨_, _ | ⟨_, _ | ⟨_, front⟩⟩⟩⟩
      · simp at parts
      · simp at groups
      · simp at groups
      · simp at groups
      · simp only [List.cons_append, List.cons.injEq] at parts
        simp only [List.length_cons] at groups
        exact ⟨front, parts.2.2.2.2, by omega⟩
  | case2 values last =>
    have few := length_lt_four last
    constructor
    · intro dangling
      rcases values with _ | ⟨u, _ | ⟨v, _ | ⟨w, _ | ⟨x, rest⟩⟩⟩⟩
      · exact dangling.elim
      · exact ⟨[], congrArg (List.cons · []) dangling, rfl⟩
      · exact dangling.elim
      · exact dangling.elim
      · simp only [List.length_cons] at few
        omega
    · rintro ⟨front, rfl, groups⟩
      rw [List.length_append, List.length_singleton] at few
      obtain rfl := List.eq_nil_of_length_eq_zero (by omega : front.length = 0)
      rfl

theorem whole_of_groups {values : List Nat} (groups : values.length % 4 = 0) :
    Sextets.Whole values := by
  induction values using Sextets.Whole.induct with
  | case1 => trivial
  | case2 u => simp at groups
  | case3 u v => simp at groups
  | case4 u v w => simp at groups
  | case5 u v w x values ih =>
    simp only [List.length_cons] at groups
    exact ih (by omega)

theorem not_whole_of_dangling {values : List UInt8} (dangling : Dangling values) :
    ¬ Sextets.Whole (values.map UInt8.toNat) := by
  induction values using bytesOf.induct with
  | case1 u v w x values ih => exact ih dangling
  | case2 values last =>
    have few := length_lt_four last
    rcases values with _ | ⟨u, _ | ⟨v, _ | ⟨w, _ | ⟨x, rest⟩⟩⟩⟩
    · exact dangling.elim
    · exact id
    · exact dangling.elim
    · exact dangling.elim
    · simp only [List.length_cons] at few
      omega

/-- An encoded text of whole groups, and a single `A` behind it. -/
def EndsAlone (text : List UInt8) : Prop :=
  ∃ data : List UInt8, data.length % 3 = 0 ∧ text = encode data ++ [0x41]

section

variable {pad : PadFlags} {values behind data : List UInt8} (small : ∀ v ∈ values, v < 64)
  (noData : NoData behind)

include small noData

theorem eq_withoutPadding_iff : values.map tableChar ++ behind = withoutPadding (encode data) ↔
    values = valuesOf data ∧ behind = [] := by
  rw [withoutPadding_encode]
  constructor
  · intro same
    refine values_unique small (valuesOf_lt data) noData noData_nil ?_
    rw [same, List.append_nil]
  · rintro ⟨rfl, rfl⟩
    exact List.append_nil _

theorem endsAlone_iff : EndsAlone (values.map tableChar ++ behind) ↔ Dangling values ∧ behind = [] := by
  have groups_iff : ∀ data : List UInt8, data.length % 3 = 0 ↔ (valuesOf data).length % 4 = 0 := by
    intro data
    have counted := (Sextets.length_ofOctets_mod (data.map UInt8.toNat)).1
    rwa [List.length_map, ← toNat_valuesOf, List.length_map] at counted
  have alone : ∀ data : List UInt8, (valuesOf data).length % 4 = 0 →
      encode data ++ [0x41] = (valuesOf data ++ [0]).map tableChar ++ [] := by
    intro data groups
    rw [encode_eq, (padding_eq_nil_iff _).mpr groups, List.map_append, List.append_nil,
      List.append_nil]
    rfl
  rw [dangling_iff]
  constructor
  · rintro ⟨data, groups, same⟩
    rw [alone data ((groups_iff data).mp groups)] at same
    have small' : ∀ v ∈ valuesOf data ++ [0], v < 64 := by
      intro v v_mem
      rcases List.mem_append.mp v_mem with v_mem | v_mem
      · exact valuesOf_lt data v v_mem
      · rw [List.mem_singleton.mp v_mem]
        decide
    obtain ⟨rfl, rfl⟩ := values_unique small small' noData noData_nil same
    exact ⟨⟨_, rfl, (groups_iff data).mp groups⟩, rfl⟩
  · rintro ⟨⟨front, rfl, groups⟩, rfl⟩
    have whole : Sextets.Whole (front.map UInt8.toNat) :=
      whole_of_groups (by rwa [List.length_map])
    have values := valuesOf_bytesOf (fun v v_mem => small v (List.mem_append_left _ v_mem)) whole
    refine ⟨bytesOf front, ?_, ?_⟩
    · rw [groups_iff, values]
      exact groups
    · rw [alone _ (by rw [values]; exact groups), values]

theorem decodes_no_iff : Decodes .no (values.map tableChar ++ behind) data ↔
    values.map tableChar ++ behind = withoutPadding (encode data) ∨
      (Dangling values ∧ behind = []) ∧ bytesOf values = data := by
  rw [decodes_iff small noData, accepts_iff small, eq_withoutPadding_iff small noData,
    ← whole_and_bytesOf_iff small]
  simp
  tauto

theorem decodes_any_iff : Decodes .any (values.map tableChar ++ behind) data ↔
    (values.map tableChar ++ behind = encode data ∨
      values.map tableChar ++ behind = withoutPadding (encode data)) ∨
      (Dangling values ∧ behind = []) ∧ bytesOf values = data := by
  rw [decodes_iff small noData, accepts_iff small, eq_withoutPadding_iff small noData,
    eq_encode_iff small noData, ← whole_and_bytesOf_iff small]
  have ends := padding_eq_nil_iff values.length
  by_cases whole : values.length % 4 = 0
  · rw [ends.mpr whole]
    simp [whole]
    tauto
  · simp [whole]
    tauto

end

/-- Decoding without padding is canonical on a text. -/
structure Canonical (text : List UInt8) : Prop where
  padNo : ∀ data, Decodes .no text data ↔ text = withoutPadding (encode data)
  padAny : ∀ data, Decodes .any text data ↔
    text = encode data ∨ text = withoutPadding (encode data)

/-- Decoding without padding is canonical but for a single `A` behind whole groups. -/
theorem canonical_iff (text : List UInt8) : Canonical text ↔ ¬ EndsAlone text := by
  obtain ⟨values, behind, small, noData, rfl⟩ := exists_values text
  rw [endsAlone_iff small noData]
  constructor
  · rintro canonical dangling
    have accepted := (decodes_no_iff small noData).mpr (.inr ⟨dangling, rfl⟩)
    have whole := (eq_withoutPadding_iff small noData).mp ((canonical.padNo _).mp accepted)
    have again := (whole_and_bytesOf_iff small).mpr whole.1
    exact not_whole_of_dangling dangling.1 again.1
  · intro regular
    refine ⟨fun data => ?_, fun data => ?_⟩
    · rw [decodes_no_iff small noData]
      exact or_iff_left fun alone => regular alone.1
    · rw [decodes_any_iff small noData]
      exact or_iff_left fun alone => regular alone.1

/-- `A` is accepted, with no bytes. -/
theorem not_canonical : ¬ ∀ text, Canonical text := by
  intro canonical
  have accepted : Decodes .no [0x41] [] := ⟨by decide, by decide⟩
  exact absurd (((canonical [0x41]).padNo []).mp accepted) (by decide)

end Libjingle.Strings.Base64

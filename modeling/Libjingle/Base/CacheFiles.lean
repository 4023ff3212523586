import Mathlib.Algebra.Order.Ring.Nat
import Mathlib.Data.Fin.Basic
import Mathlib.Data.Nat.Digits.Lemmas

/-!
# The file names of the disk cache

`IdToFilename` of `talk/base/diskcache.cc` escapes the id of a resource and appends the index
of a stream. No two streams have one file, as long as the index fits the `%u` that prints it.
-/

namespace Libjingle.Base

/-- A byte of a `std::string`. -/
abbrev Byte := Fin 256

/-- `unsafe_filename_characters`: `\/:*?"<>|`. -/
def unsafeFilenameCharacters : List Byte :=
  [92, 47, 58, 42, 63, 34, 60, 62, 124]

def hexEncode (digit : Nat) : Byte :=
  if digit < 10 then Fin.ofNat 256 (48 + digit) else Fin.ofNat 256 (87 + digit)

/-- `encode` with the escape `%`. The terminator of the string of illegal characters is found
by `strchr` too, so that a zero is escaped as well. -/
def encodeFilename (id : List Byte) : List Byte :=
  id.flatMap fun ch =>
    if ch = 37 ∨ ch = 0 ∨ ch ∈ unsafeFilenameCharacters then
      [37, hexEncode (ch.val / 16), hexEncode (ch.val % 16)]
    else [ch]

/-- What `%u` prints. -/
def printUnsigned (n : Nat) : List Byte :=
  if n = 0 then [48] else ((Nat.digits 10 n).map fun digit => Fin.ofNat 256 (48 + digit)).reverse

/-- `IdToFilename`, behind the folder. The index is printed as an `unsigned`. -/
def idToFilename (id : List Byte) (index : Nat) : List Byte :=
  encodeFilename id ++ 46 :: printUnsigned (index % 2 ^ 32)

theorem hexEncode_injective {n m : Nat} (low : n < 16) (low' : m < 16)
    (same : hexEncode n = hexEncode m) : n = m := by
  have values := congrArg Fin.val same
  unfold hexEncode at values
  split at values <;> split at values <;> simp only [Fin.ofNat] at values <;> omega

/-- The code of a byte says where it ends. -/
theorem encodeFilename_injective {id id' : List Byte}
    (same : encodeFilename id = encodeFilename id') : id = id' := by
  induction id generalizing id' with
  | nil =>
    cases id' with
    | nil => rfl
    | cons ch rest =>
      simp only [encodeFilename, List.flatMap_nil, List.flatMap_cons] at same
      split at same <;> simp at same
  | cons ch rest ih =>
    cases id' with
    | nil =>
      simp only [encodeFilename, List.flatMap_nil, List.flatMap_cons] at same
      split at same <;> simp at same
    | cons ch' rest' =>
      simp only [encodeFilename, List.flatMap_cons] at same
      have rests : ch = ch' ∧ encodeFilename rest = encodeFilename rest' := by
        split at same
        · split at same
          · simp only [List.cons_append, List.nil_append, List.cons.injEq, true_and] at same
            obtain ⟨high, low, rests⟩ := same
            have high : ch.val / 16 = ch'.val / 16 := hexEncode_injective (by omega) (by omega) high
            have low : ch.val % 16 = ch'.val % 16 := hexEncode_injective (by omega) (by omega) low
            exact ⟨Fin.ext (by omega), rests⟩
          · next plain =>
            simp only [List.cons_append, List.nil_append, List.cons.injEq] at same
            exact absurd (.inl same.1.symm) plain
        · next plain =>
          split at same
          · simp only [List.cons_append, List.nil_append, List.cons.injEq] at same
            exact absurd (.inl same.1) plain
          · simp only [List.cons_append, List.nil_append, List.cons.injEq] at same
            exact same
      rw [rests.1, ih rests.2]

/-- A digit as a character. -/
theorem printed_digit {digit : Nat} (low : digit < 10) :
    (Fin.ofNat 256 (48 + digit)).val = 48 + digit := by
  simp only [Fin.ofNat]
  omega

theorem printed_digits_injective {digits digits' : List Nat} (low : ∀ d ∈ digits, d < 10)
    (low' : ∀ d ∈ digits', d < 10)
    (same : (digits.map fun digit => Fin.ofNat 256 (48 + digit)) =
      digits'.map fun digit => Fin.ofNat 256 (48 + digit)) : digits = digits' := by
  induction digits generalizing digits' with
  | nil => exact (List.map_eq_nil_iff.mp same.symm).symm
  | cons d rest ih =>
    cases digits' with
    | nil => cases same
    | cons d' rest' =>
      simp only [List.map_cons, List.cons.injEq] at same
      have first := congrArg Fin.val same.1
      rw [printed_digit (low d List.mem_cons_self), printed_digit (low' d' List.mem_cons_self)]
        at first
      have others := ih (fun d listed => low d (List.mem_cons_of_mem _ listed))
        (fun d listed => low' d (List.mem_cons_of_mem _ listed)) same.2
      rw [others, Nat.add_left_cancel first]

/-- The digits that are printed, with the lowest first. -/
def printedDigits (n : Nat) : List Nat :=
  if n = 0 then [0] else Nat.digits 10 n

theorem printUnsigned_eq (n : Nat) :
    printUnsigned n = ((printedDigits n).map fun digit => Fin.ofNat 256 (48 + digit)).reverse := by
  unfold printUnsigned printedDigits
  split <;> rfl

theorem printedDigits_lt {n : Nat} : ∀ d ∈ printedDigits n, d < 10 := by
  intro d listed
  unfold printedDigits at listed
  split at listed
  · rw [List.mem_singleton.mp listed]
    decide
  · exact Nat.digits_lt_base (by decide) listed

theorem ofDigits_printedDigits (n : Nat) : Nat.ofDigits 10 (printedDigits n) = n := by
  unfold printedDigits
  split
  · next zero =>
    rw [zero]
    rfl
  · exact Nat.ofDigits_digits 10 n

theorem printUnsigned_injective {n m : Nat} (same : printUnsigned n = printUnsigned m) :
    n = m := by
  rw [printUnsigned_eq, printUnsigned_eq, List.reverse_inj] at same
  have digits := printed_digits_injective printedDigits_lt printedDigits_lt same
  rw [← ofDigits_printedDigits n, digits, ofDigits_printedDigits]

theorem dot_not_mem_printUnsigned (n : Nat) : (46 : Byte) ∉ printUnsigned n := by
  rw [printUnsigned_eq, List.mem_reverse, List.mem_map]
  rintro ⟨digit, listed, same⟩
  have value := congrArg Fin.val same
  rw [printed_digit (printedDigits_lt digit listed)] at value
  have dot : ((46 : Byte)).val = 46 := rfl
  omega

theorem split_at_mark {α : Type} {mark : α} {front front' back back' : List α}
    (clear : mark ∉ front) (clear' : mark ∉ front')
    (same : front ++ mark :: back = front' ++ mark :: back') : front = front' ∧ back = back' := by
  induction front generalizing front' with
  | nil =>
    cases front' with
    | nil => exact ⟨rfl, (List.cons.inj same).2⟩
    | cons first rest => exact absurd ((List.cons.inj same).1 ▸ List.mem_cons_self) clear'
  | cons first rest ih =>
    cases front' with
    | nil => exact absurd ((List.cons.inj same).1 ▸ List.mem_cons_self) clear
    | cons first' rest' =>
      obtain ⟨here, later⟩ := List.cons.inj same
      obtain ⟨fronts, backs⟩ := ih (fun listed => clear (List.mem_cons_of_mem _ listed))
        (fun listed => clear' (List.mem_cons_of_mem _ listed)) later
      exact ⟨by rw [here, fronts], backs⟩

/-- What follows the last mark, and what is before it. -/
theorem split_at_last {α : Type} {mark : α} {front front' back back' : List α}
    (clear : mark ∉ back) (clear' : mark ∉ back')
    (same : front ++ mark :: back = front' ++ mark :: back') : front = front' ∧ back = back' := by
  have reversed := congrArg List.reverse same
  simp only [List.reverse_append, List.reverse_cons, List.append_assoc, List.cons_append,
    List.nil_append] at reversed
  have split := split_at_mark (by simpa using clear) (by simpa using clear') reversed
  exact ⟨List.reverse_injective split.2, List.reverse_injective split.1⟩

theorem idToFilename_distinct {id id' : List Byte} {index index' : Nat} (whole : index < 2 ^ 32)
    (whole' : index' < 2 ^ 32) (same : idToFilename id index = idToFilename id' index') :
    id = id' ∧ index = index' := by
  unfold idToFilename at same
  rw [Nat.mod_eq_of_lt whole, Nat.mod_eq_of_lt whole'] at same
  obtain ⟨ids, indexes⟩ := split_at_last (dot_not_mem_printUnsigned _)
    (dot_not_mem_printUnsigned _) same
  exact ⟨encodeFilename_injective ids, printUnsigned_injective indexes⟩

/-- The width of `size_t`, and the names of files: two streams have different files as long
as an index is printed whole. -/
structure Platform (κ φ : Type) where
  bits : Nat
  idToFilename : κ → Nat → φ
  distinct : ∀ {id id' : κ} {index index' : Nat}, index < 2 ^ 32 → index' < 2 ^ 32 →
    idToFilename id index = idToFilename id' index' → id = id' ∧ index = index'

/-- The names that the cache gives its files. -/
def Platform.named (bits : Nat) : Platform (List Byte) (List Byte) where
  bits := bits
  idToFilename := Base.idToFilename
  distinct := idToFilename_distinct

end Libjingle.Base

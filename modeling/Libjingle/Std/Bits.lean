import Mathlib.Algebra.Order.Ring.Nat
import Mathlib.Data.List.Basic

/-!
# Bits of words

Words as lists of bits, the most significant bit first. A mask of leading ones keeps as many bits and
clears the others, and a word is counted by shifting out its leading ones.
-/

namespace Libjingle.Std.Bits

variable {w v : Nat}

/-- The bits of a word, the most significant first. -/
def bits (x : BitVec w) : List Bool :=
  (List.range w).map x.getMsbD

/-- The ones that a list of bits starts with. -/
def leadingOnes (bits : List Bool) : Nat :=
  (bits.takeWhile id).length

/-- The first bits, and zeros for the others. -/
def keepFirst (n : Nat) (bits : List Bool) : List Bool :=
  bits.take n ++ List.replicate (bits.length - n) false

@[simp] theorem length_bits (x : BitVec w) : (bits x).length = w := by
  simp [bits]

theorem getElem_bits (x : BitVec w) {i : Nat} (inside : i < (bits x).length) :
    (bits x)[i] = x.getMsbD i := by
  simp [bits]

theorem bits_inj {x y : BitVec w} (same : bits x = bits y) : x = y := by
  refine BitVec.eq_of_getMsbD_eq fun i inside => ?_
  have here := List.map_eq_map_iff.mp same i (List.mem_range.mpr inside)
  exact here

theorem bits_append (x : BitVec w) (y : BitVec v) : bits (x ++ y) = bits x ++ bits y := by
  refine List.ext_getElem (by simp) fun i inside _ => ?_
  rw [getElem_bits, BitVec.getMsbD_append, List.getElem_append]
  simp only [length_bits, getElem_bits]
  split <;> split <;> first | rfl | omega

/-! ## Keeping the first bits -/

@[simp] theorem keepFirst_nil (n : Nat) : keepFirst n [] = [] := by
  simp [keepFirst]

@[simp] theorem keepFirst_zero (l : List Bool) : keepFirst 0 l = List.replicate l.length false := by
  simp [keepFirst]

@[simp] theorem keepFirst_succ_cons (n : Nat) (b : Bool) (l : List Bool) :
    keepFirst (n + 1) (b :: l) = b :: keepFirst n l := by
  simp [keepFirst]

theorem keepFirst_of_le {n : Nat} {l : List Bool} (all : l.length ≤ n) : keepFirst n l = l := by
  rw [keepFirst, List.take_of_length_le all, Nat.sub_eq_zero_of_le all, List.replicate_zero,
    List.append_nil]

theorem keepFirst_append (n : Nat) (l m : List Bool) :
    keepFirst n (l ++ m) = keepFirst n l ++ keepFirst (n - l.length) m := by
  induction l generalizing n with
  | nil => simp
  | cons b l ih =>
    cases n with
    | zero => simp [List.replicate_succ]
    | succ n => simp [ih]

theorem keepFirst_zeros (n k : Nat) :
    keepFirst n (List.replicate k false) = List.replicate k false := by
  induction k generalizing n with
  | zero => simp
  | succ k ih =>
    cases n with
    | zero => simp
    | succ n => rw [List.replicate_succ, keepFirst_succ_cons, ih]

@[simp] theorem length_keepFirst (n : Nat) (l : List Bool) : (keepFirst n l).length = l.length := by
  rw [keepFirst, List.length_append, List.length_take, List.length_replicate]
  omega

theorem keepFirst_keepFirst (n k : Nat) (l : List Bool) :
    keepFirst k (keepFirst n l) = keepFirst (min n k) l := by
  induction l generalizing n k with
  | nil => simp
  | cons b l ih =>
    cases n with
    | zero => rw [Nat.zero_min, keepFirst_zero, keepFirst_zeros]
    | succ n =>
      cases k with
      | zero => simp
      | succ k => simp [ih, Nat.add_min_add_right]

/-- A mask of leading ones. -/
theorem bits_mask (x : BitVec w) {n : Nat} (le : n ≤ w) :
    bits (x &&& (BitVec.allOnes w <<< (w - n))) = keepFirst n (bits x) := by
  refine List.ext_getElem (by simp) fun i inside _ => ?_
  have small : i < w := by simpa using inside
  have mask : (BitVec.allOnes w <<< (w - n)).getMsbD i = decide (i < n) := by
    rw [BitVec.getMsbD_shiftLeft, BitVec.getMsbD_allOnes]
    exact decide_eq_decide.mpr (by omega)
  simp only [keepFirst, getElem_bits, BitVec.getMsbD_and, mask, List.getElem_append, List.getElem_take,
    List.length_take, length_bits, List.getElem_replicate, Nat.min_eq_left le]
  by_cases kept : i < n <;> simp [kept]

/-! ## Counting leading ones -/

theorem leadingOnes_keepFirst (n k : Nat) :
    leadingOnes (keepFirst n (List.replicate k true)) = min n k := by
  induction k generalizing n with
  | zero => simp [leadingOnes]
  | succ k ih =>
    cases n with
    | zero => simp [leadingOnes, List.replicate_succ]
    | succ n =>
      have tail := ih n
      rw [leadingOnes] at tail
      rw [List.replicate_succ, keepFirst_succ_cons, leadingOnes, List.takeWhile_cons]
      simp [tail, Nat.add_min_add_right]

/-- Ones are counted through to what stands behind them. -/
theorem leadingOnes_append {l : List Bool} (ones : ∀ b ∈ l, b = true) (m : List Bool) :
    leadingOnes (l ++ m) = l.length + leadingOnes m := by
  rw [leadingOnes, List.takeWhile_append_of_pos (by simpa using ones), List.length_append]
  rfl

/-- A zero stops the count. -/
theorem leadingOnes_append_of_zero {l : List Bool} (zero : false ∈ l) (m : List Bool) :
    leadingOnes (l ++ m) = leadingOnes l := by
  induction l with
  | nil => cases zero
  | cons b l ih =>
    cases b with
    | false => rfl
    | true =>
      have later := ih (by simpa using zero)
      simp only [leadingOnes, List.cons_append, List.takeWhile_cons, id, if_true,
        List.length_cons] at later ⊢
      rw [later]

theorem leadingOnes_le (l : List Bool) : leadingOnes l ≤ l.length :=
  (List.takeWhile_sublist _).length_le

theorem leadingOnes_zero_behind (l : List Bool) : leadingOnes (l ++ [false]) = leadingOnes l := by
  induction l with
  | nil => rfl
  | cons b l ih =>
    cases b with
    | false => rfl
    | true =>
      simp only [leadingOnes, List.cons_append, List.takeWhile_cons, id, if_true,
        List.length_cons] at ih ⊢
      rw [ih]

theorem bits_allOnes : bits (BitVec.allOnes w) = List.replicate w true := by
  refine List.ext_getElem (by simp) fun i inside _ => ?_
  have small : i < w := by simpa using inside
  rw [getElem_bits, BitVec.getMsbD_allOnes, List.getElem_replicate]
  exact decide_eq_true small

/-- A word with a zero among its bits is not all ones. -/
theorem zero_mem_bits {x : BitVec w} (other : x ≠ BitVec.allOnes w) : false ∈ bits x := by
  by_contra none
  refine other (bits_inj (bits_allOnes ▸ List.eq_replicate_iff.mpr ⟨by simp, fun b mem => ?_⟩))
  cases b with
  | true => rfl
  | false => exact absurd mem none

/-- The first bit is shifted out, and a zero comes in at the end. -/
theorem bits_shift (x : BitVec (w + 1)) :
    bits x = x.msb :: (bits x).tail ∧ bits (x <<< 1) = (bits x).tail ++ [false] := by
  constructor
  · rw [bits, List.range_succ_eq_map, List.map_cons, List.tail_cons, BitVec.msb]
  · refine List.ext_getElem (by simp) fun i inside _ => ?_
    have small : i < w + 1 := by simpa using inside
    rw [getElem_bits, BitVec.getMsbD_shiftLeft, List.getElem_append]
    simp only [List.getElem_tail, getElem_bits, List.length_tail, length_bits, Nat.add_sub_cancel]
    split
    · rfl
    · have last : w + 1 ≤ i + 1 := by omega
      simp [BitVec.getMsbD_of_ge x _ last]

theorem leadingOnes_shift (x : BitVec (w + 1)) :
    leadingOnes (bits x) = if x.msb then leadingOnes (bits (x <<< 1)) + 1 else 0 := by
  obtain ⟨front, behind⟩ := bits_shift x
  cases first : x.msb with
  | false => rw [front, first]; rfl
  | true =>
    rw [behind, leadingOnes_zero_behind, front, first]
    rfl

end Libjingle.Std.Bits

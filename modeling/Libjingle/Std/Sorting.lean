import Mathlib.Algebra.Order.Ring.Nat
import Mathlib.Data.List.Sort

/-!
# Sorting by a relation that respects a key

The relation that a list is sorted by may be finer than a key and need not be an
order. As long as it puts smaller keys first, so does the sorted list.
-/

namespace Libjingle.Std

variable {α : Type} (r : α → α → Prop) [DecidableRel r] (key : α → Nat)

/-- Smaller keys come first. -/
structure Respects : Prop where
  first : ∀ a b, key a < key b → r a b
  last : ∀ a b, key b < key a → ¬ r a b

variable {r key}

namespace Respects

theorem orderedInsert (respects : Respects r key) (a : α) {l : List α}
    (ordered : l.Pairwise (key · ≤ key ·)) :
    (l.orderedInsert r a).Pairwise (key · ≤ key ·) := by
  induction l with
  | nil => simp
  | cons b l ih =>
    obtain ⟨least, rest⟩ := List.pairwise_cons.mp ordered
    rw [List.orderedInsert_cons]
    split
    · next before =>
      have le : key a ≤ key b := Nat.le_of_not_lt fun lt => respects.last a b lt before
      refine List.pairwise_cons.mpr ⟨fun c mem => ?_, ordered⟩
      rcases List.mem_cons.mp mem with rfl | mem
      · exact le
      · exact le.trans (least c mem)
    · next after =>
      have le : key b ≤ key a := Nat.le_of_not_lt fun lt => after (respects.first a b lt)
      refine List.pairwise_cons.mpr ⟨fun c mem => ?_, ih rest⟩
      rcases (List.mem_orderedInsert r).mp mem with rfl | mem
      · exact le
      · exact least c mem

/-- The sorted list is in the order of the keys. -/
theorem insertionSort (respects : Respects r key) (l : List α) :
    (l.insertionSort r).Pairwise (key · ≤ key ·) := by
  induction l with
  | nil => simp
  | cons a l ih => exact respects.orderedInsert a ih

/-- The head of the sorted list has the least key. -/
theorem head_le (respects : Respects r key) {l : List α} {a : α}
    (head : (l.insertionSort r).head? = some a) : ∀ b ∈ l, key a ≤ key b := by
  intro b mem
  have mem : b ∈ l.insertionSort r := (List.mem_insertionSort r).mpr mem
  have ordered := respects.insertionSort l
  obtain ⟨rest, sorted⟩ := List.head?_eq_some_iff.mp head
  rw [sorted] at mem ordered
  rcases List.mem_cons.mp mem with rfl | mem
  · exact le_rfl
  · exact (List.pairwise_cons.mp ordered).1 b mem

end Respects

end Libjingle.Std

import Mathlib.Algebra.Order.Ring.Nat
import Mathlib.Data.List.Sort

/-!
# Heaps in a sequence

The heap operations of the standard library over a comparison. The standard says
which elements are in the result and that it is a heap again, and leaves open where
in it they are; everything here holds for every such choice.
-/

namespace Libjingle.Std

variable {α : Type}

/-- No element is greater than its parent. -/
def IsHeap (lt : α → α → Prop) (l : List α) : Prop :=
  ∀ i parent child, 0 < i → l[(i - 1) / 2]? = some parent → l[i]? = some child →
    ¬ lt parent child

/-- A comparison for which incomparable elements can stand for each other. -/
structure WeakOrder (lt : α → α → Prop) : Prop where
  irrefl : ∀ a, ¬ lt a a
  trans : ∀ a b c, ¬ lt a b → ¬ lt b c → ¬ lt a c
  total : ∀ a b, ¬ lt a b ∨ ¬ lt b a

/-- `push_heap` behind `push_back`, `pop_heap` with `pop_back` behind it, and
`make_heap`. -/
structure HeapOps (lt : α → α → Prop) where
  push : List α → α → List α
  pop : List α → List α
  make : List α → List α
  push_perm : ∀ l a, IsHeap lt l → (push l a).Perm (a :: l)
  push_heap : ∀ l a, IsHeap lt l → IsHeap lt (push l a)
  pop_perm : ∀ a l, IsHeap lt (a :: l) → (pop (a :: l)).Perm l
  pop_heap : ∀ a l, IsHeap lt (a :: l) → IsHeap lt (pop (a :: l))
  make_perm : ∀ l, (make l).Perm l
  make_heap : ∀ l, IsHeap lt (make l)

variable {lt : α → α → Prop}

theorem isHeap_nil : IsHeap lt [] := fun _ _ _ _ found => by simp at found

/-- No element is greater than the first one. -/
theorem IsHeap.first_greatest {a : α} {l : List α} (heap : IsHeap lt (a :: l))
    (order : WeakOrder lt) : ∀ x ∈ a :: l, ¬ lt a x := by
  have at_index : ∀ (i : Nat) (x : α), (a :: l)[i]? = some x → ¬ lt a x := by
    intro i
    induction i using Nat.strongRecOn with
    | ind i ih =>
      intro x found
      rcases Nat.eq_zero_or_pos i with rfl | positive
      · obtain rfl : a = x := by simpa using found
        exact order.irrefl a
      have smaller : (i - 1) / 2 < i := by omega
      have inside := (List.getElem?_eq_some_iff.mp found).1
      obtain ⟨parent, above⟩ : ∃ parent, (a :: l)[(i - 1) / 2]? = some parent :=
        ⟨_, List.getElem?_eq_getElem (smaller.trans inside)⟩
      exact order.trans a parent x (ih _ smaller parent above) (heap i parent x positive above found)
  intro x listed
  obtain ⟨i, found⟩ := List.mem_iff_getElem?.mp listed
  exact at_index i x found

/-- A sequence in descending order is a heap. -/
theorem isHeap_of_pairwise {l : List α} (sorted : l.Pairwise (¬ lt · ·)) : IsHeap lt l := by
  intro i parent child positive above found
  obtain ⟨inside, rfl⟩ := List.getElem?_eq_some_iff.mp found
  obtain ⟨higher, rfl⟩ := List.getElem?_eq_some_iff.mp above
  exact List.pairwise_iff_getElem.mp sorted _ _ higher inside (by omega)

/-- Heaps that are kept in descending order. -/
def sortedHeaps (lt : α → α → Prop) [DecidableRel lt] (order : WeakOrder lt) : HeapOps lt :=
  have : Std.Total (¬ lt · · : α → α → Prop) := ⟨order.total⟩
  have : IsTrans α (¬ lt · ·) := ⟨order.trans⟩
  { push := fun l a => (a :: l).insertionSort (¬ lt · ·)
    pop := fun l => l.tail.insertionSort (¬ lt · ·)
    make := fun l => l.insertionSort (¬ lt · ·)
    push_perm := fun _ _ _ => List.perm_insertionSort _ _
    push_heap := fun _ _ _ => isHeap_of_pairwise (List.pairwise_insertionSort _ _)
    pop_perm := fun _ _ _ => List.perm_insertionSort _ _
    pop_heap := fun _ _ _ => isHeap_of_pairwise (List.pairwise_insertionSort _ _)
    make_perm := fun _ => List.perm_insertionSort _ _
    make_heap := fun _ => isHeap_of_pairwise (List.pairwise_insertionSort _ _) }

end Libjingle.Std

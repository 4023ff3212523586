import Mathlib.Algebra.Order.Ring.Nat
import Mathlib.Data.List.Basic

/-!
# The last elements of a sequence

A ring of cells that are written in turn holds the last elements of what is written to it.
Until every cell has been written once, the others hold what they held at the start.
-/

namespace Libjingle.Std

structure Recent (α : Type) where
  cells : List α
  next : Nat
  inside : next < cells.length

namespace Recent

variable {α : Type}

def fresh (size : Nat) (positive : 0 < size) (fill : α) : Recent α :=
  ⟨List.replicate size fill, 0, by rwa [List.length_replicate]⟩

/-- The cell that is written next. -/
def oldest (r : Recent α) : α :=
  r.cells.get ⟨r.next, r.inside⟩

def write (r : Recent α) (x : α) : Recent α where
  cells := r.cells.set r.next x
  next := (r.next + 1) % r.cells.length
  inside := by
    rw [List.length_set]
    exact Nat.mod_lt _ (Nat.zero_lt_of_lt r.inside)

/-- The cells in the order in which they were written. -/
def inOrder (r : Recent α) : List α :=
  r.cells.drop r.next ++ r.cells.take r.next

theorem inOrder_fresh (size : Nat) (positive : 0 < size) (fill : α) :
    (fresh size positive fill).inOrder = List.replicate size fill := by
  simp [inOrder, fresh]

theorem inOrder_eq_cons (r : Recent α) :
    r.inOrder = r.oldest :: (r.cells.drop (r.next + 1) ++ r.cells.take r.next) := by
  rw [inOrder, List.drop_eq_getElem_cons r.inside]
  rfl

/-- A new element takes the place of the oldest. -/
theorem inOrder_write (r : Recent α) (x : α) : (r.write x).inOrder = r.inOrder.tail ++ [x] := by
  have inside := r.inside
  have before : (r.cells.set r.next x).take (r.next + 1) = r.cells.take r.next ++ [x] := by
    have written : r.next < (r.cells.set r.next x).length := by rwa [List.length_set]
    rw [List.take_succ_eq_append_getElem written, List.getElem_set_self,
      List.take_set_of_le (Nat.le_refl _)]
  have after : (r.cells.set r.next x).drop (r.next + 1) = r.cells.drop (r.next + 1) :=
    List.drop_set_of_lt (Nat.lt_succ_self _)
  rw [r.inOrder_eq_cons, List.tail_cons, List.append_assoc, ← before, ← after]
  unfold write inOrder
  dsimp only
  rcases Nat.lt_or_ge (r.next + 1) r.cells.length with more | last
  · rw [Nat.mod_eq_of_lt more]
  · -- The last cell: the ring starts over.
    obtain whole : r.next + 1 = r.cells.length := by omega
    rw [whole, Nat.mod_self]
    simp [List.drop_eq_nil_of_le, List.take_of_length_le]

/-- The ring has been written the past, over cells that held the same at the start. -/
def Holds (r : Recent α) (size : Nat) (fill : α) (past : List α) : Prop :=
  r.inOrder = (List.replicate size fill ++ past).drop past.length

variable {r : Recent α} {size : Nat} {fill : α} {past : List α}

theorem holds_fresh (positive : 0 < size) (fill : α) :
    (fresh size positive fill).Holds size fill [] := by
  simp [Holds, inOrder_fresh]

theorem Holds.write (holds : r.Holds size fill past) (x : α) :
    (r.write x).Holds size fill (past ++ [x]) := by
  have nonempty : past.length < (List.replicate size fill ++ past).length := by
    have shape := congrArg List.length holds
    rw [inOrder_eq_cons, List.length_cons, List.length_drop] at shape
    omega
  unfold Holds at holds ⊢
  rw [inOrder_write, holds, List.tail_drop, ← List.append_assoc, List.length_append,
    List.length_singleton, List.drop_append_of_le_length nonempty]

theorem Holds.length_cells (holds : r.Holds size fill past) : r.cells.length = size := by
  have shape := congrArg List.length holds
  simp only [inOrder, List.length_append, List.length_drop, List.length_take,
    List.length_replicate] at shape
  omega

/-- A cell that has not been written yet is next. -/
theorem Holds.oldest_of_lt (holds : r.Holds size fill past) (few : past.length < size) :
    r.oldest = fill := by
  have first := congrArg List.head? holds
  rw [inOrder_eq_cons, List.head?_cons, List.head?_drop, List.getElem?_append_left (by simpa),
    List.getElem?_replicate_of_lt few] at first
  exact Option.some.inj first

/-- The element that was written a whole round before is next. -/
theorem Holds.oldest_of_le (holds : r.Holds size fill past) (many : size ≤ past.length) :
    past[past.length - size]? = some r.oldest := by
  have first := congrArg List.head? holds
  rw [inOrder_eq_cons, List.head?_cons, List.head?_drop, List.getElem?_append_right (by simpa),
    List.length_replicate] at first
  exact first.symm

end Recent

/-- Where a test holds from some element on, that it holds for some of them means that it holds
for the one that is as many from the end. -/
theorem holds_of_le_countP {α : Type} {p : α → Bool} {events : List α} {count : Nat}
    (upwards : events.Pairwise fun a b => p a = true → p b = true) (positive : 0 < count)
    (enough : count ≤ events.countP p) :
    ∃ e, events[events.length - count]? = some e ∧ p e = true := by
  have long : count ≤ events.length := enough.trans List.countP_le_length
  have inside : events.length - count < events.length := by omega
  refine ⟨_, List.getElem?_eq_getElem inside, ?_⟩
  by_contra fails
  have split := List.take_append_drop (events.length - count) events
  rw [List.drop_eq_getElem_cons inside] at split
  rw [← split, List.pairwise_append] at upwards
  have early : (events.take (events.length - count)).countP p = 0 := by
    refine List.countP_eq_zero.mpr fun e listed holds => fails ?_
    exact upwards.2.2 e listed _ List.mem_cons_self holds
  have late : (events.drop (events.length - count + 1)).countP p ≤ count - 1 := by
    refine List.countP_le_length.trans ?_
    rw [List.length_drop]
    omega
  rw [← split, List.countP_append, early, List.countP_cons_of_neg fails] at enough
  omega

end Libjingle.Std

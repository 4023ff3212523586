import Mathlib.Algebra.Order.Ring.Nat
import Mathlib.Data.List.Basic
import Mathlib.Data.List.Forall2
import Mathlib.Tactic.Common

/-!
# A bounded queue with a staging area

The purpose of a ring buffer that also accepts writes past its readable part:
a first-in first-out queue, and behind it a staging area whose elements join
the queue when they are published. A cell nobody has stored into is `none`, so
a reader that meets one is promised nothing about it.
-/

namespace Libjingle.Std

structure StagedQueue (α : Type) where
  capacity : Nat
  queue : List (Option α)
  /-- The staging area, counted from the end of the queue. -/
  staged : Nat → Option α

namespace StagedQueue

variable {α : Type}

def new (capacity : Nat) : StagedQueue α where
  capacity := capacity
  queue := []
  staged := fun _ => none

/-- The places between the queue and the capacity. -/
def free (q : StagedQueue α) : Nat :=
  q.capacity - q.queue.length

/-- Store `source` from the staging place `offset` on. -/
def stage (q : StagedQueue α) (source : List α) (offset : Nat) : StagedQueue α :=
  { q with staged := fun place =>
      if offset ≤ place then (source[place - offset]?).or (q.staged place) else q.staged place }

/-- The first `amount` staging places join the queue. -/
def publish (q : StagedQueue α) (amount : Nat) : StagedQueue α :=
  { q with
    queue := q.queue ++ (List.range amount).map q.staged
    staged := fun place => q.staged (amount + place) }

/-- The oldest `amount` elements leave the queue. -/
def pop (q : StagedQueue α) (amount : Nat) : StagedQueue α :=
  { q with queue := q.queue.drop amount }

/-- Nothing is promised about the staging area any more. -/
def forget (q : StagedQueue α) : StagedQueue α :=
  { q with staged := fun _ => none }

/-- A new capacity under which what was staged in the new free places stays. -/
def resizeKeeping (q : StagedQueue α) (capacity : Nat) : StagedQueue α :=
  { q with
    capacity := capacity
    staged := fun place => if place < capacity - q.queue.length then q.staged place else none }

/-- A new capacity under which only the queue itself stays. -/
def resizeForgetting (q : StagedQueue α) (capacity : Nat) : StagedQueue α :=
  { q.forget with capacity := capacity }

/-- The elements `values` are what the cells say wherever they say something. -/
def Known (cells : List (Option α)) (values : List α) : Prop :=
  List.Forall₂ (fun cell value => ∀ stored, cell = some stored → value = stored) cells values

theorem Known.length_eq {cells : List (Option α)} {values : List α} (known : Known cells values) :
    cells.length = values.length :=
  List.Forall₂.length_eq known

theorem Known.drop {cells : List (Option α)} {values : List α} (known : Known cells values)
    (count : Nat) : Known (cells.drop count) (values.drop count) :=
  List.forall₂_drop count known

theorem Known.take {cells : List (Option α)} {values : List α} (known : Known cells values)
    (count : Nat) : Known (cells.take count) (values.take count) :=
  List.forall₂_take count known

theorem Known.append {first second : List (Option α)} {values more : List α}
    (left : Known first values) (right : Known second more) :
    Known (first ++ second) (values ++ more) :=
  List.rel_append left right

/-- Cells and values computed place by place agree when each place does. -/
theorem known_map (cells : Nat → Option α) (values : Nat → α) (count : Nat)
    (agree : ∀ index < count, ∀ stored, cells index = some stored → values index = stored) :
    Known ((List.range count).map cells) ((List.range count).map values) := by
  rw [Known, List.forall₂_map_left_iff, List.forall₂_map_right_iff, List.forall₂_same]
  intro index inside
  exact agree index (by simpa using inside)

end StagedQueue

end Libjingle.Std

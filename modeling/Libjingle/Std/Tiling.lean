import Mathlib.Data.List.Basic
import Libjingle.Std.Word

/-!
# Pieces that tile a circular range

A list of pieces, each with a start and a size, tiles the range that begins at a
word when every piece starts where the one before it ends. Positions are
`uint32` values and wrap; the total size does not.
-/

namespace Libjingle.Std

variable {α : Type} (start size : α → Nat)

/-- The total size of a list of pieces. -/
def extent (pieces : List α) : Nat :=
  (pieces.map size).sum

/-- The pieces follow one another without gap or overlap from `from` on. -/
def Tiles : Nat → List α → Prop
  | _, [] => True
  | position, piece :: rest => start piece = position ∧ Tiles (add32 position (size piece)) rest

@[simp] theorem extent_nil : extent size [] = 0 := rfl

@[simp] theorem extent_cons (piece : α) (pieces : List α) :
    extent size (piece :: pieces) = size piece + extent size pieces := by
  simp [extent]

@[simp] theorem extent_append (first second : List α) :
    extent size (first ++ second) = extent size first + extent size second := by
  simp [extent]

variable {start size}

/-- Two tilings that meet form one tiling. -/
theorem tiles_append {position : Nat} {first second : List α} (word : position < 2 ^ 32) :
    Tiles start size position (first ++ second) ↔
      Tiles start size position first ∧
        Tiles start size (add32 position (extent size first)) second := by
  induction first generalizing position with
  | nil => simp [Tiles, add32_of_lt (show position + 0 < 2 ^ 32 from word)]
  | cons piece rest ih =>
    simp only [List.cons_append, Tiles, extent_cons, ih (add32_lt _ _), and_assoc]
    rw [add32_assoc]

/-- A piece of a tiling starts at the extent of the pieces before it. -/
theorem Tiles.start_eq {position : Nat} {before after : List α} {piece : α}
    (word : position < 2 ^ 32) (tiles : Tiles start size position (before ++ piece :: after)) :
    start piece = add32 position (extent size before) :=
  ((tiles_append word).mp tiles).2.1

/-- A piece of a tiling may be replaced by pieces that tile its own range. -/
theorem Tiles.replace {position : Nat} {before middle after : List α} {piece : α}
    (word : position < 2 ^ 32) (tiles : Tiles start size position (before ++ piece :: after))
    (inner : Tiles start size (start piece) middle)
    (same : extent size middle = size piece) :
    Tiles start size position (before ++ middle ++ after) := by
  obtain ⟨front, starts, back⟩ := (tiles_append word).mp tiles
  rw [List.append_assoc, tiles_append word, tiles_append (add32_lt _ _), same]
  exact ⟨front, starts ▸ inner, back⟩

end Libjingle.Std

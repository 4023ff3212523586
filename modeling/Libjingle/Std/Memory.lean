import Mathlib.Algebra.Order.Ring.Nat
import Mathlib.Data.List.Basic
import Mathlib.Tactic.Common

/-!
# Addressable memory

A buffer is a total map from addresses to stored elements. Its allocated length
is kept by whoever owns it, so an address past the end still reads as some
unspecified element. `Memory.slice` and `Memory.copy` are the two halves of
`memcpy`; the lemmas below say what each address holds afterwards.
-/

namespace Libjingle.Std

/-- The element stored at every address. -/
abbrev Memory (α : Type) := Nat → α

namespace Memory

variable {α : Type}

/-- The `count` elements stored from `start` on. -/
def slice (memory : Memory α) (start count : Nat) : List α :=
  (List.range count).map fun index => memory (start + index)

/-- Store `source` from `start` on and leave every other address alone. -/
def copy (memory : Memory α) (start : Nat) (source : List α) : Memory α := fun address =>
  if start ≤ address then (source[address - start]?).getD (memory address) else memory address

/-- A C pointer to the elements of `source`; what lies past them is `beyond`. -/
def ofList (source : List α) (beyond : Memory α) : Memory α :=
  copy beyond 0 source

@[simp] theorem length_slice (memory : Memory α) (start count : Nat) :
    (memory.slice start count).length = count := by
  simp [slice]

@[simp] theorem slice_zero (memory : Memory α) (start : Nat) : memory.slice start 0 = [] := rfl

@[simp] theorem getElem_slice (memory : Memory α) (start count index : Nat)
    (inside : index < (memory.slice start count).length) :
    (memory.slice start count)[index] = memory (start + index) := by
  simp [slice]

@[simp] theorem copy_nil (memory : Memory α) (start : Nat) : memory.copy start [] = memory := by
  funext address
  simp [copy]

/-- Addresses before the target of a copy keep their element. -/
theorem copy_before (memory : Memory α) {start address : Nat} (source : List α)
    (before : address < start) : memory.copy start source address = memory address := by
  simp [copy, Nat.not_le.mpr before]

/-- Addresses after the target of a copy keep their element. -/
theorem copy_after (memory : Memory α) {start address : Nat} (source : List α)
    (after : start + source.length ≤ address) :
    memory.copy start source address = memory address := by
  have outside : source[address - start]? = none := by
    rw [List.getElem?_eq_none_iff]
    omega
  simp [copy, outside]

/-- Addresses in the target of a copy hold the element copied there. -/
theorem copy_inside (memory : Memory α) {start address : Nat} (source : List α)
    (notBefore : start ≤ address) (inside : address - start < source.length) :
    memory.copy start source address = source[address - start] := by
  simp [copy, notBefore, inside]

/-- What a pointer to a list reads inside the list. -/
theorem ofList_of_lt (source : List α) (beyond : Memory α) {index : Nat}
    (inside : index < source.length) : ofList source beyond index = source[index] := by
  simpa [ofList] using copy_inside beyond source (Nat.zero_le index) (by simpa using inside)

/-- Reading back a whole list through a pointer to it. -/
theorem slice_ofList (source : List α) (beyond : Memory α) {start count : Nat}
    (fits : start + count ≤ source.length) :
    (ofList source beyond).slice start count = (source.drop start).take count := by
  apply List.ext_getElem
  · simp
    omega
  · intro index left right
    have inside : start + index < source.length := by simp at left; omega
    simp [ofList_of_lt source beyond inside]

end Memory

end Libjingle.Std

import Mathlib.Algebra.Order.Ring.Nat
import Mathlib.Data.List.Basic
import Mathlib.Order.Defs.LinearOrder

/-!
# Maps and sets with a comparator

A comparator may look at parts of its keys only. A map holds keys together neither of which is less
than the other, and finds a value by any of them. Where the comparator compares images of the keys,
the keys held together are those with equal images.
-/

namespace Libjingle.Std

/-- A comparator that compares the images of keys. -/
def Compares {κ ο : Type} [LT ο] (less : κ → κ → Bool) (key : κ → ο) : Prop :=
  ∀ a b, less a b = true ↔ key a < key b

/-- Neither key is less than the other. -/
def equivalent {κ : Type} (less : κ → κ → Bool) (a b : κ) : Bool :=
  !less a b && !less b a

theorem Compares.equivalent_iff {κ ο : Type} [LinearOrder ο] {less : κ → κ → Bool} {key : κ → ο}
    (compares : Compares less key) (a b : κ) : equivalent less a b = true ↔ key a = key b := by
  unfold equivalent
  rw [Bool.and_eq_true, Bool.not_eq_true', Bool.not_eq_true', ← Bool.not_eq_true, ← Bool.not_eq_true,
    compares, compares, not_lt, not_lt]
  exact ⟨fun both => le_antisymm both.2 both.1, fun same => ⟨same.ge, same.le⟩⟩

/-- The keys of a map with their values. -/
abbrev ComparatorMap (κ β : Type) := List (κ × β)

namespace ComparatorMap

variable {κ β ο : Type} {less : κ → κ → Bool} {key : κ → ο}

def find (less : κ → κ → Bool) (m : ComparatorMap κ β) (k : κ) : Option β :=
  (List.find? (fun e => equivalent less e.1 k) m).map Prod.snd

/-- `m[k] = v`, which keeps the key that is there. -/
def assign (less : κ → κ → Bool) (m : ComparatorMap κ β) (k : κ) (v : β) : ComparatorMap κ β :=
  if (find less m k).isSome then
    m.map fun e => if equivalent less e.1 k then (e.1, v) else e
  else m ++ [(k, v)]

@[simp] theorem find_nil (less : κ → κ → Bool) (k : κ) :
    find less ([] : ComparatorMap κ β) k = none := rfl

/-- The keys that are held together with a key depend on its image. -/
theorem equivalent_congr [LinearOrder ο] (compares : Compares less key) {k k' : κ} (same : key k = key k') :
    (fun e : κ × β => equivalent less e.1 k) = fun e => equivalent less e.1 k' := by
  funext e
  rw [Bool.eq_iff_iff, compares.equivalent_iff, compares.equivalent_iff, same]

theorem find_congr [LinearOrder ο] (compares : Compares less key) (m : ComparatorMap κ β) {k k' : κ}
    (same : key k = key k') : find less m k = find less m k' := by
  rw [find, equivalent_congr compares same]
  rfl

theorem find_assign [LinearOrder ο] (compares : Compares less key) (m : ComparatorMap κ β) (k k' : κ)
    (v : β) : find less (assign less m k v) k' = if key k = key k' then some v else find less m k' := by
  have held {e : κ × β} (found : List.find? (fun e => equivalent less e.1 k') m = some e) :
      equivalent less e.1 k' = true := by
    have holds := List.find?_some found
    exact holds
  unfold assign
  split
  · next present =>
    have kept : (fun e : κ × β => equivalent less e.1 k') ∘
        (fun e => if equivalent less e.1 k then (e.1, v) else e) = fun e => equivalent less e.1 k' := by
      funext e
      simp only [Function.comp_apply]
      split <;> rfl
    rw [find, List.find?_map, kept, Option.map_map]
    split
    · next same =>
      rw [find, equivalent_congr compares same, Option.isSome_map] at present
      obtain ⟨e, found⟩ := Option.isSome_iff_exists.mp present
      have equal : equivalent less e.1 k = true := by
        rw [compares.equivalent_iff, same, ← compares.equivalent_iff]
        exact held found
      simp [found, equal]
    · next apart =>
      rw [find]
      cases found : List.find? (fun e => equivalent less e.1 k') m with
      | none => rfl
      | some e =>
        have equal := (compares.equivalent_iff _ _).mp (held found)
        have different : ¬ equivalent less e.1 k = true := fun also =>
          apart (((compares.equivalent_iff _ _).mp also).symm.trans equal)
        simp [different]
  · next absent =>
    rw [find, List.find?_append]
    split
    · next same =>
      rw [find, equivalent_congr compares same, Option.isSome_map, Bool.not_eq_true, Option.isSome_eq_false_iff,
        Option.isNone_iff_eq_none] at absent
      have equal := (compares.equivalent_iff k k').mpr same
      simp [absent, equal]
    · next apart =>
      have different : ¬ equivalent less k k' = true := fun also =>
        apart ((compares.equivalent_iff _ _).mp also)
      simp [different, find]

end ComparatorMap

/-- The keys of a set. -/
abbrev ComparatorSet (κ : Type) := List κ

namespace ComparatorSet

variable {κ ο : Type} {less : κ → κ → Bool} {key : κ → ο}

def contains (less : κ → κ → Bool) (s : ComparatorSet κ) (k : κ) : Bool :=
  s.any fun e => equivalent less e k

def insert (less : κ → κ → Bool) (s : ComparatorSet κ) (k : κ) : ComparatorSet κ :=
  if contains less s k then s else s ++ [k]

theorem contains_iff [LinearOrder ο] (compares : Compares less key) (s : ComparatorSet κ) (k : κ) :
    contains less s k = true ↔ ∃ e ∈ s, key e = key k := by
  simp only [contains, List.any_eq_true, compares.equivalent_iff]

theorem contains_insert [LinearOrder ο] (compares : Compares less key) (s : ComparatorSet κ) (k k' : κ) :
    contains less (insert less s k) k' = true ↔ contains less s k' = true ∨ key k = key k' := by
  unfold insert
  split
  · next present =>
    refine ⟨.inl, fun either => either.elim id fun same => ?_⟩
    rw [contains_iff compares] at present ⊢
    rwa [← same]
  · rw [contains_iff compares, contains_iff compares]
    simp [or_and_right, exists_or]

end ComparatorSet

end Libjingle.Std

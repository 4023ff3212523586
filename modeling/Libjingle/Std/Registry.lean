import Mathlib.Algebra.Order.Ring.Nat
import Mathlib.Logic.Function.Basic

/-!
# Objects and an index

Objects live in a heap under handles that are never used twice, and an index maps
the key of an object to its handle. Adding an object overwrites what the index
has under its key, and removing one erases what the index has there, whosever it
is. The index is in order when it leads to every object; adding an object keeps
that exactly when its key is free.
-/

namespace Libjingle.Std

structure Registry (κ ο : Type) where
  objects : Nat → Option ο
  index : κ → Option Nat
  /-- Handles from here on have not been used. -/
  next : Nat

namespace Registry

variable {κ ο : Type}

def empty : Registry κ ο where
  objects _ := none
  index _ := none
  next := 0

def modify (r : Registry κ ο) (handle : Nat) (f : ο → ο) : Registry κ ο :=
  { r with objects := Function.update r.objects handle ((r.objects handle).map f) }

/-- The index leads to every object. -/
def Reachable (key : ο → κ) (r : Registry κ ο) : Prop :=
  ∀ handle object, r.objects handle = some object → r.index (key object) = some handle

/-- The index leads to every object and to nothing else. -/
structure Indexed (key : ο → κ) (r : Registry κ ο) : Prop where
  reachable : r.Reachable key
  live : ∀ k handle, r.index k = some handle → ∃ object, r.objects handle = some object ∧
    key object = k
  fresh : ∀ handle, r.next ≤ handle → r.objects handle = none

/-- The index leads to objects only, which holds of any registry in use. -/
structure Backed (key : ο → κ) (r : Registry κ ο) : Prop where
  live : ∀ k handle, r.index k = some handle → ∃ object, r.objects handle = some object ∧
    key object = k
  fresh : ∀ handle, r.next ≤ handle → r.objects handle = none

section Unkeyed

variable {key : ο → κ} {r : Registry κ ο} {handle : Nat} {object : ο}

@[simp] theorem objects_modify (handle other : Nat) (f : ο → ο) :
    (r.modify handle f).objects other =
      if other = handle then (r.objects handle).map f else r.objects other :=
  Function.update_apply _ _ _ _

theorem modify_none (gone : r.objects handle = none) (f : ο → ο) : r.modify handle f = r := by
  have same : Function.update r.objects handle ((r.objects handle).map f) = r.objects := by
    rw [Function.update_eq_iff, gone]
    exact ⟨rfl, fun _ _ => rfl⟩
  rw [modify, same]

@[simp] theorem index_modify (handle : Nat) (f : ο → ο) : (r.modify handle f).index = r.index := rfl

theorem Backed.empty : Backed key (.empty : Registry κ ο) :=
  ⟨nofun, fun _ _ => rfl⟩

theorem Backed.modify (backed : Backed key r) {f : ο → ο}
    (same : ∀ object, r.objects handle = some object → key (f object) = key object) :
    Backed key (r.modify handle f) where
  live k other leads := by
    obtain ⟨object, found, named⟩ := backed.live k other leads
    rw [objects_modify]
    split
    · next here =>
      subst here
      exact ⟨f object, by rw [found]; rfl, (same object found).trans named⟩
    · exact ⟨object, found, named⟩
  fresh other later := by
    rw [objects_modify]
    split
    · next here =>
      subst here
      rw [backed.fresh other later]
      rfl
    · exact backed.fresh other later

theorem Indexed.empty : Indexed key (.empty : Registry κ ο) :=
  ⟨nofun, nofun, fun _ _ => rfl⟩

/-- Objects with the same key are the same. -/
theorem Indexed.unique (indexed : Indexed key r) {other : Nat} {object' : ο}
    (found : r.objects handle = some object) (found' : r.objects other = some object')
    (same : key object = key object') : handle = other := by
  have here := indexed.reachable handle object found
  rw [same, indexed.reachable other object' found'] at here
  exact (Option.some.inj here).symm

/-- The index leads to an object exactly under its key. -/
theorem Indexed.index_eq_some (indexed : Indexed key r) {k : κ} :
    r.index k = some handle ↔ ∃ object, r.objects handle = some object ∧ key object = k := by
  constructor
  · exact indexed.live k handle
  · rintro ⟨object, found, rfl⟩
    exact indexed.reachable handle object found

theorem Indexed.backed (indexed : Indexed key r) : Backed key r :=
  ⟨indexed.live, indexed.fresh⟩

theorem Backed.indexed (backed : Backed key r) (reachable : r.Reachable key) : Indexed key r :=
  ⟨reachable, backed.live, backed.fresh⟩

theorem Indexed.modify (indexed : Indexed key r) {f : ο → ο}
    (same : ∀ object, r.objects handle = some object → key (f object) = key object) :
    Indexed key (r.modify handle f) := by
  refine (indexed.backed.modify same).indexed fun other object' found => ?_
  rw [objects_modify] at found
  split at found
  · next here =>
    obtain ⟨object, before, rfl⟩ := Option.map_eq_some_iff.mp found
    rw [index_modify, same object before, here]
    exact indexed.reachable handle object before
  · exact indexed.reachable other object' found

theorem Reachable.of_modify {f : ο → ο} (reachable : (r.modify handle f).Reachable key)
    (same : ∀ object, r.objects handle = some object → key (f object) = key object) :
    r.Reachable key := by
  intro other object found
  have after := reachable other
  simp only [objects_modify, index_modify] at after
  by_cases here : other = handle
  · subst here
    rw [← same object found]
    exact after (f object) (by rw [if_pos rfl, found]; rfl)
  · exact after object (by rw [if_neg here, found])

end Unkeyed

variable [DecidableEq κ]

/-- The new object gets the handle `next`. -/
def add (key : ο → κ) (r : Registry κ ο) (object : ο) : Registry κ ο where
  objects := Function.update r.objects r.next (some object)
  index := Function.update r.index (key object) (some r.next)
  next := r.next + 1

/-- The object is gone, and what the index has under its key. -/
def remove (key : ο → κ) (r : Registry κ ο) (handle : Nat) : Registry κ ο :=
  match r.objects handle with
  | none => r
  | some object =>
      { r with
        objects := Function.update r.objects handle none
        index := Function.update r.index (key object) none }

def removeAll (key : ο → κ) (r : Registry κ ο) (handles : List Nat) : Registry κ ο :=
  handles.foldl (fun r handle => r.remove key handle) r

variable {key : ο → κ} {r : Registry κ ο} {handle : Nat} {object : ο}

@[simp] theorem objects_add (handle : Nat) :
    (r.add key object).objects handle =
      if handle = r.next then some object else r.objects handle :=
  Function.update_apply _ _ _ _

@[simp] theorem index_add (k : κ) :
    (r.add key object).index k = if k = key object then some r.next else r.index k :=
  Function.update_apply _ _ _ _

theorem objects_remove (found : r.objects handle = some object) (other : Nat) :
    (r.remove key handle).objects other = if other = handle then none else r.objects other := by
  simp [remove, found, Function.update_apply]

theorem index_remove (found : r.objects handle = some object) (k : κ) :
    (r.remove key handle).index k = if k = key object then none else r.index k := by
  simp [remove, found, Function.update_apply]

theorem remove_none (gone : r.objects handle = none) : r.remove key handle = r := by
  simp [remove, gone]

theorem objects_remove_eq (handle other : Nat) :
    (r.remove key handle).objects other = if other = handle then none else r.objects other := by
  cases found : r.objects handle with
  | some object => exact objects_remove found other
  | none =>
    rw [remove_none found]
    split
    · next same => rw [same, found]
    · rfl

theorem next_removeAll (handles : List Nat) : (r.removeAll key handles).next = r.next := by
  induction handles generalizing r with
  | nil => rfl
  | cons handle rest ih =>
    have step : r.removeAll key (handle :: rest) = (r.remove key handle).removeAll key rest := rfl
    rw [step, ih, remove]
    split <;> rfl

theorem objects_removeAll (handles : List Nat) (other : Nat) :
    (r.removeAll key handles).objects other =
      if other ∈ handles then none else r.objects other := by
  induction handles generalizing r with
  | nil => simp [removeAll]
  | cons handle rest ih =>
    have step : r.removeAll key (handle :: rest) = (r.remove key handle).removeAll key rest := rfl
    rw [step, ih, objects_remove_eq]
    by_cases later : other ∈ rest <;> by_cases here : other = handle <;> simp [later, here]

namespace Backed

theorem add (backed : Backed key r) : Backed key (r.add key object) where
  live k other leads := by
    rw [index_add] at leads
    split at leads
    · next same =>
      cases leads
      exact ⟨object, by simp, same.symm⟩
    · obtain ⟨object', found, same⟩ := backed.live k other leads
      refine ⟨object', ?_, same⟩
      rw [objects_add, if_neg, found]
      rintro rfl
      exact absurd (found.symm.trans (backed.fresh _ (Nat.le_refl _))) (by simp)
  fresh other later := by
    have later : r.next + 1 ≤ other := later
    rw [objects_add, if_neg (by omega)]
    exact backed.fresh other (by omega)

theorem remove (backed : Backed key r) : Backed key (r.remove key handle) := by
  cases found : r.objects handle with
  | none => rwa [remove_none found]
  | some object =>
    refine ⟨fun k other leads => ?_, fun other later => ?_⟩
    · rw [index_remove found] at leads
      split at leads
      · cases leads
      · next different =>
        obtain ⟨object', kept, named⟩ := backed.live k other leads
        refine ⟨object', ?_, named⟩
        rw [objects_remove found, if_neg, kept]
        rintro rfl
        rw [found] at kept
        cases kept
        exact different named.symm
    · have later : r.next ≤ other := by
        simpa [Registry.remove, found] using later
      rw [objects_remove found]
      split
      · rfl
      · exact backed.fresh other later

theorem removeAll (backed : Backed key r) (handles : List Nat) :
    Backed key (r.removeAll key handles) := by
  induction handles generalizing r with
  | nil => exact backed
  | cons handle rest ih => exact ih backed.remove

end Backed

namespace Indexed

theorem add (indexed : Indexed key r) (free : r.index (key object) = none) :
    Indexed key (r.add key object) := by
  refine indexed.backed.add.indexed fun handle object' found => ?_
  rw [objects_add] at found
  rw [index_add]
  split at found
  · next same =>
    cases found
    rw [if_pos rfl, same]
  · have here := indexed.reachable handle object' found
    rw [if_neg, here]
    intro same
    exact absurd (here.symm.trans (same ▸ free)) (by simp)

theorem remove (indexed : Indexed key r) : Indexed key (r.remove key handle) := by
  refine indexed.backed.remove.indexed fun other object' kept => ?_
  cases found : r.objects handle with
  | none =>
    rw [remove_none found] at kept ⊢
    exact indexed.reachable other object' kept
  | some object =>
    rw [objects_remove found] at kept
    split at kept
    · cases kept
    · next different =>
      rw [index_remove found, if_neg fun same => different (indexed.unique kept found same)]
      exact indexed.reachable other object' kept

theorem removeAll (indexed : Indexed key r) (handles : List Nat) :
    Indexed key (r.removeAll key handles) := by
  induction handles generalizing r with
  | nil => exact indexed
  | cons handle rest ih => exact ih indexed.remove

/-- An object under a key that is in use hides the one that uses it. -/
theorem not_reachable_add (indexed : Indexed key r) (used : r.index (key object) = some handle) :
    ¬ (r.add key object).Reachable key := by
  intro reachable
  obtain ⟨old, found, same⟩ := indexed.live _ _ used
  have different : handle ≠ r.next := by
    rintro rfl
    exact absurd (found.symm.trans (indexed.fresh _ (Nat.le_refl _))) (by simp)
  have here := reachable handle old (by rw [objects_add, if_neg different, found])
  rw [index_add, if_pos same] at here
  exact different (Option.some.inj here).symm

end Indexed

end Registry

end Libjingle.Std

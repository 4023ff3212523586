import Mathlib.Algebra.Order.Ring.Nat
import Mathlib.Data.List.Basic
import Mathlib.Data.Prod.Basic
import Mathlib.Order.Basic
import Mathlib.Order.Defs.LinearOrder

/-!
# Maps in the order of their keys

An ordered map is the list of its entries, each key once and in increasing order,
so that a walk through it meets the entries in this order. Every operation is
defined by the parts below and above a key.
-/

namespace Libjingle.Std

structure OrderedMap (κ β : Type) [LinearOrder κ] where
  entries : List (κ × β)
  sorted : entries.Pairwise fun a b => a.1 < b.1

namespace OrderedMap

variable {κ β β' : Type} [LinearOrder κ]

def empty : OrderedMap κ β := ⟨[], .nil⟩

instance : Inhabited (OrderedMap κ β) := ⟨empty⟩

def below (m : OrderedMap κ β) (k : κ) : List (κ × β) := m.entries.filter fun e => e.1 < k

def above (m : OrderedMap κ β) (k : κ) : List (κ × β) := m.entries.filter fun e => k < e.1

def get (m : OrderedMap κ β) (k : κ) : Option β :=
  (m.entries.find? fun e => e.1 = k).map Prod.snd

theorem sorted_insert (m : OrderedMap κ β) (k : κ) (v : β) :
    (m.below k ++ (k, v) :: m.above k).Pairwise fun a b => a.1 < b.1 := by
  rw [List.pairwise_append, List.pairwise_cons]
  refine ⟨m.sorted.filter _, ⟨fun e later => ?_, m.sorted.filter _⟩, fun e before d listed => ?_⟩
  · simpa using (List.mem_filter.mp later).2
  · have low : e.1 < k := by simpa using (List.mem_filter.mp before).2
    rcases List.mem_cons.mp listed with rfl | later
    · exact low
    · exact low.trans (by simpa using (List.mem_filter.mp later).2)

def insert (m : OrderedMap κ β) (k : κ) (v : β) : OrderedMap κ β :=
  ⟨m.below k ++ (k, v) :: m.above k, m.sorted_insert k v⟩

theorem sorted_erase (m : OrderedMap κ β) (k : κ) :
    (m.below k ++ m.above k).Pairwise fun a b => a.1 < b.1 := by
  by_cases present : ∃ v, (k, v) ∈ m.entries
  · obtain ⟨v, -⟩ := present
    exact (m.sorted_insert k v).sublist ((List.sublist_cons_self _ _).append_left _)
  · refine List.pairwise_append.mpr ⟨m.sorted.filter _, m.sorted.filter _, fun e before d later => ?_⟩
    have low : e.1 < k := by simpa using (List.mem_filter.mp before).2
    exact low.trans (by simpa using (List.mem_filter.mp later).2)

def erase (m : OrderedMap κ β) (k : κ) : OrderedMap κ β :=
  ⟨m.below k ++ m.above k, m.sorted_erase k⟩

/-- The value under a key is changed, if there is one. -/
def modify (m : OrderedMap κ β) (k : κ) (f : β → β) : OrderedMap κ β :=
  match m.get k with
  | none => m
  | some v => m.insert k (f v)

def mapValues (f : β → β') (m : OrderedMap κ β) : OrderedMap κ β' where
  entries := m.entries.map fun e => (e.1, f e.2)
  sorted := List.pairwise_map.mpr m.sorted

def keys (m : OrderedMap κ β) : List κ := m.entries.map Prod.fst

def values (m : OrderedMap κ β) : List β := m.entries.map Prod.snd

def size (m : OrderedMap κ β) : Nat := m.entries.length

def isEmpty (m : OrderedMap κ β) : Bool := m.entries.isEmpty

/-! ## What is under a key -/

variable {m : OrderedMap κ β} {k k' : κ} {v : β}

theorem get_eq_some : m.get k = some v ↔ (k, v) ∈ m.entries := by
  rw [get]
  constructor
  · intro found
    obtain ⟨⟨k', w⟩, first, rfl⟩ := Option.map_eq_some_iff.mp found
    obtain rfl : k' = k := by simpa using List.find?_some first
    exact List.mem_of_find?_eq_some first
  · intro listed
    obtain ⟨before, after, shape⟩ := List.append_of_mem listed
    have sorted := m.sorted
    rw [shape, List.pairwise_append] at sorted
    have skipped : before.find? (fun e => e.1 = k) = none := by
      refine List.find?_eq_none.mpr fun e here => ?_
      have low : e.1 < k := sorted.2.2 e here (k, v) (by simp)
      simpa using low.ne
    simp [shape, List.find?_append, skipped]

@[simp] theorem get_empty : (empty : OrderedMap κ β).get k = none := rfl

theorem mem_insert : (k', v) ∈ (m.insert k w).entries ↔
    k' = k ∧ v = w ∨ k' ≠ k ∧ (k', v) ∈ m.entries := by
  simp only [insert, below, above, List.mem_append, List.mem_cons, List.mem_filter,
    decide_eq_true_eq, Prod.mk.injEq]
  constructor
  · rintro (⟨listed, low⟩ | same | ⟨listed, high⟩)
    · exact .inr ⟨low.ne, listed⟩
    · exact .inl same
    · exact .inr ⟨high.ne', listed⟩
  · rintro (same | ⟨other, listed⟩)
    · exact .inr (.inl same)
    · rcases lt_or_gt_of_ne other with low | high
      · exact .inl ⟨listed, low⟩
      · exact .inr (.inr ⟨listed, high⟩)

theorem mem_erase : (k', v) ∈ (m.erase k).entries ↔ k' ≠ k ∧ (k', v) ∈ m.entries := by
  simp only [erase, below, above, List.mem_append, List.mem_filter, decide_eq_true_eq]
  constructor
  · rintro (⟨listed, low⟩ | ⟨listed, high⟩)
    · exact ⟨low.ne, listed⟩
    · exact ⟨high.ne', listed⟩
  · rintro ⟨other, listed⟩
    exact (lt_or_gt_of_ne other).imp (⟨listed, ·⟩) (⟨listed, ·⟩)

theorem get_insert (m : OrderedMap κ β) (k k' : κ) (v : β) :
    (m.insert k v).get k' = if k' = k then some v else m.get k' := by
  refine Option.ext fun w => ?_
  rw [get_eq_some, mem_insert]
  split
  · next same => simp [same, eq_comm]
  · next other => simp [other, get_eq_some]

theorem get_erase (m : OrderedMap κ β) (k k' : κ) :
    (m.erase k).get k' = if k' = k then none else m.get k' := by
  refine Option.ext fun w => ?_
  rw [get_eq_some, mem_erase]
  split
  · next same => simp [same]
  · next other => simp [other, get_eq_some]

theorem get_modify (m : OrderedMap κ β) (k k' : κ) (f : β → β) :
    (m.modify k f).get k' = if k' = k then (m.get k).map f else m.get k' := by
  rw [modify]
  split
  · next absent =>
    split
    · next same => rw [same, absent, Option.map_none]
    · rfl
  · next v present => rw [get_insert, present, Option.map_some]

theorem modify_absent (absent : m.get k = none) (f : β → β) : m.modify k f = m := by
  rw [modify, absent]

theorem get_mapValues (m : OrderedMap κ β) (f : β → β') (k : κ) :
    (m.mapValues f).get k = (m.get k).map f := by
  simp only [get, mapValues, List.find?_map, Option.map_map]
  rfl

theorem get_of_isEmpty (empty : m.isEmpty) (k : κ) : m.get k = none := by
  rw [isEmpty, List.isEmpty_iff] at empty
  rw [get, empty]
  rfl

/-! ## The entries as a list -/

theorem nodup (m : OrderedMap κ β) : m.entries.Nodup :=
  m.sorted.imp fun {a b} (before : a.1 < b.1) same => absurd before (by rw [same]; exact lt_irrefl _)

theorem ext_get {m m' : OrderedMap κ β} (same : ∀ k, m.get k = m'.get k) : m = m' := by
  have perm : m.entries.Perm m'.entries := by
    refine (List.perm_ext_iff_of_nodup m.nodup m'.nodup).mpr fun ⟨k, v⟩ => ?_
    rw [← get_eq_some, ← get_eq_some, same]
  have equal := perm.eq_of_pairwise (fun a b _ _ up down => absurd (up.trans down) (lt_irrefl _))
    m.sorted m'.sorted
  cases m
  cases m'
  cases equal
  rfl

theorem modify_modify (m : OrderedMap κ β) (k : κ) (f g : β → β) :
    (m.modify k f).modify k g = m.modify k (g ∘ f) := by
  refine ext_get fun k' => ?_
  simp only [get_modify, if_true, Option.map_map]
  split <;> rfl

/-- Around a key in use lie what is below and what is above. -/
theorem entries_of_get (present : m.get k = some v) :
    m.entries = m.below k ++ (k, v) :: m.above k := by
  have same : m = m.insert k v := by
    refine ext_get fun k' => ?_
    rw [get_insert]
    split
    · next here => rw [here, present]
    · rfl
  exact congrArg entries same

theorem entries_of_absent (absent : m.get k = none) : m.entries = m.below k ++ m.above k := by
  have same : m = m.erase k := by
    refine ext_get fun k' => ?_
    rw [get_erase]
    split
    · next here => rw [here, absent]
    · rfl
  exact congrArg entries same

/-- How many values satisfy a test. -/
def count (m : OrderedMap κ β) (p : β → Bool) : Nat := m.entries.countP fun e => p e.2

theorem count_insert (absent : m.get k = none) (p : β → Bool) :
    (m.insert k v).count p = m.count p + (p v).toNat := by
  rw [count, count, entries_of_absent absent, insert, List.countP_append, List.countP_append,
    List.countP_cons]
  cases p v <;> simp [Nat.add_assoc]

theorem count_modify (present : m.get k = some v) (f : β → β) (p : β → Bool) :
    (m.modify k f).count p + (p v).toNat = m.count p + (p (f v)).toNat := by
  rw [modify, present, count, count, entries_of_get present]
  simp only [insert, List.countP_append, List.countP_cons]
  cases p v <;> cases p (f v) <;> simp [Nat.add_assoc]

/-- The sum of a measure of the values. -/
def total (m : OrderedMap κ β) (f : β → Nat) : Nat := (m.entries.map fun e => f e.2).sum

theorem total_insert (absent : m.get k = none) (f : β → Nat) :
    (m.insert k v).total f = m.total f + f v := by
  simp only [total, insert, entries_of_absent absent, List.map_append, List.map_cons,
    List.sum_append, List.sum_cons]
  omega

theorem total_modify (present : m.get k = some v) (g : β → β) (f : β → Nat) :
    (m.modify k g).total f + f v = m.total f + f (g v) := by
  rw [modify, present]
  simp only [total, insert, entries_of_get present, List.map_append, List.map_cons,
    List.sum_append, List.sum_cons]
  omega

theorem total_erase (present : m.get k = some v) (f : β → Nat) :
    (m.erase k).total f + f v = m.total f := by
  simp only [total, erase, entries_of_get present, List.map_append, List.map_cons,
    List.sum_append, List.sum_cons]
  omega

theorem size_erase (present : m.get k = some v) : (m.erase k).size + 1 = m.size := by
  simp only [size, erase, entries_of_get present, List.length_append, List.length_cons]
  omega

theorem le_total (present : m.get k = some v) (f : β → Nat) : f v ≤ m.total f :=
  Nat.le.intro ((Nat.add_comm _ _).trans (total_erase present f))

theorem keys_modify (m : OrderedMap κ β) (k : κ) (f : β → β) : (m.modify k f).keys = m.keys := by
  rw [modify]
  split
  · rfl
  · next v present =>
    rw [keys, keys, entries_of_get present]
    simp [insert]

theorem mem_keys : k ∈ m.keys ↔ ∃ v, m.get k = some v := by
  simp only [keys, List.mem_map, get_eq_some]
  constructor
  · rintro ⟨⟨_, v⟩, listed, rfl⟩
    exact ⟨v, listed⟩
  · rintro ⟨v, listed⟩
    exact ⟨(k, v), listed, rfl⟩

theorem keys_nodup (m : OrderedMap κ β) : m.keys.Nodup :=
  List.pairwise_map.mpr (m.sorted.imp ne_of_lt)

/-- A key has one index. -/
theorem index_unique {i j : Nat} (first : m.keys[i]? = some k) (second : m.keys[j]? = some k) :
    i = j :=
  (List.getElem?_inj (List.getElem?_eq_some_iff.mp first).1 m.keys_nodup).mp
    (first.trans second.symm)

end OrderedMap

end Libjingle.Std

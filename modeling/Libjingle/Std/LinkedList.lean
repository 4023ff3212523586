import Mathlib.Algebra.Order.Ring.Nat
import Mathlib.Data.List.Basic
import Mathlib.Data.List.Nodup
import Mathlib.Data.List.Perm.Subperm
import Mathlib.Data.Option.Basic
import Mathlib.Logic.Function.Basic

/-!
# Singly linked lists

A list of nodes, each of which points to the next one, with pointers to its first and its last
node. Nodes are found through their addresses, and what follows a null pointer or one to a
node that has been deleted has no result. `Represents` says which values a list has, and that
its pointers are right.
-/

namespace Libjingle.Std

structure Node (β : Type) where
  value : β
  next : Option Nat

structure LinkedList (β : Type) where
  heap : Nat → Option (Node β)
  first : Option Nat
  last : Option Nat
  /-- The addresses that have been used are below. -/
  fresh : Nat

variable {β : Type}

/-- Between two pointers lie these addresses with their values. -/
inductive Segment (heap : Nat → Option (Node β)) : Option Nat → List (Nat × β) → Option Nat → Prop
  | nil (p : Option Nat) : Segment heap p [] p
  | cons {a : Nat} {v : β} {next q : Option Nat} {rest : List (Nat × β)}
      (here : heap a = some ⟨v, next⟩) (later : Segment heap next rest q) :
      Segment heap (some a) ((a, v) :: rest) q

namespace Segment

variable {heap heap' : Nat → Option (Node β)} {p q r : Option Nat} {xs ys : List (Nat × β)}

theorem append (front : Segment heap p xs q) (back : Segment heap q ys r) :
    Segment heap p (xs ++ ys) r := by
  induction front with
  | nil => exact back
  | cons here _ ih => exact .cons here (ih back)

theorem split (whole : Segment heap p (xs ++ ys) r) :
    ∃ q, Segment heap p xs q ∧ Segment heap q ys r := by
  induction xs generalizing p with
  | nil => exact ⟨p, .nil p, whole⟩
  | cons cell rest ih =>
    cases whole with
    | cons here later =>
      obtain ⟨q, front, back⟩ := ih later
      exact ⟨q, .cons here front, back⟩

/-- A segment depends on the nodes in it. -/
theorem congr (segment : Segment heap p xs q) (same : ∀ cell ∈ xs, heap' cell.1 = heap cell.1) :
    Segment heap' p xs q := by
  induction segment with
  | nil => exact .nil _
  | cons here later ih =>
    refine .cons ((same _ List.mem_cons_self).trans here) (ih fun cell listed => ?_)
    exact same cell (List.mem_cons_of_mem _ listed)

/-- A change elsewhere leaves a segment as it is. -/
theorem update (segment : Segment heap p xs q) {a : Nat} (other : a ∉ xs.map Prod.fst)
    (node : Option (Node β)) : Segment (Function.update heap a node) p xs q :=
  segment.congr fun cell listed => by
    refine Function.update_of_ne (fun same => other ?_) _ _
    rw [← same]
    exact List.mem_map_of_mem listed

/-- The nodes up to the end are those that are found there. -/
theorem unique (segment : Segment heap p xs none) (segment' : Segment heap p ys none) :
    xs = ys := by
  induction xs generalizing p ys with
  | nil =>
    cases segment
    cases segment'
    rfl
  | cons cell rest ih =>
    cases segment with
    | cons here later =>
      cases segment' with
      | cons here' later' =>
        rw [here] at here'
        cases here'
        rw [ih later later']

theorem first_eq (segment : Segment heap p xs none) : p = xs.head?.map Prod.fst := by
  cases segment <;> rfl

theorem nil_eq (segment : Segment heap p [] q) : p = q := by
  cases segment
  rfl

theorem here {cell : Nat × β} (segment : Segment heap p (cell :: xs) q) :
    p = some cell.1 ∧ ∃ next, heap cell.1 = some ⟨cell.2, next⟩ ∧ Segment heap next xs q := by
  cases segment with
  | cons here later => exact ⟨rfl, _, here, later⟩

end Segment

namespace LinkedList

def empty : LinkedList β := ⟨fun _ => none, none, none, 0⟩

/-! ## Nodes -/

/-- A new node, at the address `fresh` from before. -/
def allocate (l : LinkedList β) (node : Node β) : LinkedList β :=
  { l with heap := Function.update l.heap l.fresh (some node), fresh := l.fresh + 1 }

def setNext (l : LinkedList β) (a : Nat) (next : Option Nat) : Option (LinkedList β) :=
  (l.heap a).map fun node =>
    { l with heap := Function.update l.heap a (some { node with next := next }) }

def setValue (l : LinkedList β) (a : Nat) (change : β → β) : Option (LinkedList β) :=
  (l.heap a).map fun node =>
    { l with heap := Function.update l.heap a (some { node with value := change node.value }) }

/-- The node is deleted. -/
def delete (l : LinkedList β) (a : Nat) : LinkedList β :=
  { l with heap := Function.update l.heap a none }

/-- The pointer behind a node, or the one to the first node. -/
def after (l : LinkedList β) : Option Nat → Option (Option Nat)
  | none => some l.first
  | some a => (l.heap a).map Node.next

/-- The pointer behind a node, or the one to the first node, is set. -/
def setAfter (l : LinkedList β) : Option Nat → Option Nat → Option (LinkedList β)
  | none, next => some { l with first := next }
  | some a, next => l.setNext a next

/-- What a loop from a pointer to the end meets. -/
def walk (heap : Nat → Option (Node β)) : Nat → Option Nat → Option (List (Nat × β))
  | _, none => some []
  | 0, some _ => none
  | fuel + 1, some a => do
      let node ← heap a
      let rest ← walk heap fuel node.next
      some ((a, node.value) :: rest)

def cells (l : LinkedList β) : Option (List (Nat × β)) :=
  walk l.heap l.fresh l.first

/-- A loop that deletes the nodes from a pointer on. -/
def deleteFrom (heap : Nat → Option (Node β)) : Nat → Option Nat → Option (Nat → Option (Node β))
  | _, none => some heap
  | 0, some _ => none
  | fuel + 1, some a => do
      let node ← heap a
      deleteFrom (Function.update heap a none) fuel node.next

/-! ## Lists -/

/-- A new last node. -/
def addLast (l : LinkedList β) (v : β) : Option (LinkedList β) :=
  ((l.allocate ⟨v, none⟩).setAfter l.last (some l.fresh)).map fun l' =>
    { l' with last := some l.fresh }

/-- A new node behind another one, or at the front. The pointer to the last node stays. -/
def insertAfter (l : LinkedList β) (predecessor : Option Nat) (v : β) : Option (LinkedList β) := do
  let next ← l.after predecessor
  (l.allocate ⟨v, next⟩).setAfter predecessor (some l.fresh)

/-- The node behind another one, or at the front, is taken out and deleted. -/
def removeAfter (l : LinkedList β) (predecessor : Option Nat) : Option (LinkedList β) := do
  let next ← l.after predecessor
  let a ← next
  let node ← l.heap a
  let l ← l.setAfter predecessor node.next
  let l := if l.last = some a then { l with last := predecessor } else l
  some (l.delete a)

def clear (l : LinkedList β) : Option (LinkedList β) :=
  (deleteFrom l.heap l.fresh l.first).map fun heap =>
    { l with heap := heap, first := none, last := none }

/-- The nodes of a list, with their addresses; the pointers to the first and the last are so. -/
structure Represents (l : LinkedList β) (xs : List (Nat × β)) : Prop where
  segment : Segment l.heap l.first xs none
  last_eq : l.last = xs.getLast?.map Prod.fst
  nodup : (xs.map Prod.fst).Nodup
  below : ∀ cell ∈ xs, cell.1 < l.fresh

variable {l : LinkedList β} {xs before later : List (Nat × β)} {v : β}

theorem represents_empty : (empty : LinkedList β).Represents [] :=
  ⟨.nil _, rfl, List.nodup_nil, fun cell listed => by cases listed⟩

theorem Represents.fresh_notMem (represents : l.Represents xs) : l.fresh ∉ xs.map Prod.fst := by
  intro listed
  obtain ⟨cell, here, same⟩ := List.mem_map.mp listed
  exact absurd (represents.below cell here) (by omega)

theorem Represents.unique {ys : List (Nat × β)} (represents : l.Represents xs)
    (represents' : l.Represents ys) : xs = ys :=
  represents.segment.unique represents'.segment

/-- A list has at most as many nodes as addresses have been used. -/
theorem Represents.length_le (represents : l.Represents xs) : xs.length ≤ l.fresh := by
  have inside : xs.map Prod.fst ⊆ List.range l.fresh := by
    intro a listed
    obtain ⟨cell, here, rfl⟩ := List.mem_map.mp listed
    exact List.mem_range.mpr (represents.below cell here)
  have fewer := (List.subperm_of_subset represents.nodup inside).length_le
  rwa [List.length_map, List.length_range] at fewer

theorem walk_eq {heap : Nat → Option (Node β)} {p : Option Nat} (segment : Segment heap p xs none)
    {fuel : Nat} (enough : xs.length ≤ fuel) : walk heap fuel p = some xs := by
  induction xs generalizing p fuel with
  | nil =>
    cases segment
    cases fuel <;> rfl
  | cons cell rest ih =>
    obtain ⟨rfl, next, here, later⟩ := segment.here
    obtain ⟨fuel, rfl⟩ : ∃ n, fuel = n + 1 := ⟨fuel - 1, by simp at enough; omega⟩
    have rest := ih later (Nat.le_of_succ_le_succ enough)
    simp only [walk, here, Option.bind_eq_bind, Option.bind_some, rest]

theorem Represents.cells (represents : l.Represents xs) : l.cells = some xs :=
  walk_eq represents.segment represents.length_le

/-- Where the nodes of a list are before and behind a place, the pointer behind the ones before
leads to the others. -/
theorem after_eq (segment : Segment l.heap l.first (before ++ later) none) :
    l.after (before.getLast?.map Prod.fst) = some (later.head?.map Prod.fst) := by
  obtain ⟨q, front, back⟩ := segment.split
  rcases List.eq_nil_or_concat' before with rfl | ⟨init, cell, rfl⟩
  · exact congrArg some (front.nil_eq.trans back.first_eq)
  · obtain ⟨middle, -, last⟩ := front.split
    obtain ⟨-, next, here, rest⟩ := last.here
    cases rest
    rw [List.getLast?_concat, Option.map_some]
    simp only [after, here, Option.map_some]
    exact congrArg some back.first_eq

/-- The pointer behind the first nodes of a list is set. -/
theorem setAfter_spec (segment : Segment l.heap l.first (before ++ later) none)
    (nodup : (before.map Prod.fst).Nodup) (q : Option Nat) :
    ∃ l', l.setAfter (before.getLast?.map Prod.fst) q = some l' ∧
      Segment l'.heap l'.first before q ∧ l'.last = l.last ∧ l'.fresh = l.fresh ∧
      ∀ a ∉ before.map Prod.fst, l'.heap a = l.heap a := by
  obtain ⟨_, front, -⟩ := segment.split
  rcases List.eq_nil_or_concat' before with rfl | ⟨init, cell, rfl⟩
  · exact ⟨_, rfl, .nil q, rfl, rfl, fun _ _ => rfl⟩
  · obtain ⟨middle, start, last⟩ := front.split
    obtain ⟨rfl, next, here, -⟩ := last.here
    rw [List.map_append, List.nodup_append] at nodup
    have other : cell.1 ∉ init.map Prod.fst := fun listed =>
      nodup.2.2 _ listed _ List.mem_cons_self rfl
    have set : l.setNext cell.1 q =
        some { l with heap := Function.update l.heap cell.1 (some ⟨cell.2, q⟩) } := by
      rw [setNext, here, Option.map_some]
    rw [List.getLast?_concat, Option.map_some]
    refine ⟨_, set, ?_, rfl, rfl, ?_⟩
    · exact (start.update other _).append (.cons (Function.update_self _ _ _) (.nil q))
    · intro a outside
      refine Function.update_of_ne (fun same => outside ?_) _ _
      rw [same, List.map_append]
      exact List.mem_append_right _ List.mem_cons_self

/-! ## The operations -/

theorem allocate_segment (represents : l.Represents xs) (node : Node β) :
    Segment (l.allocate node).heap (l.allocate node).first xs none :=
  represents.segment.update represents.fresh_notMem _

theorem nodup_concat (represents : l.Represents xs) : ((xs ++ [(l.fresh, v)]).map Prod.fst).Nodup := by
  rw [List.map_append, List.nodup_append]
  refine ⟨represents.nodup, List.nodup_singleton _, fun a listed b here => ?_⟩
  rw [List.map_singleton, List.mem_singleton] at here
  intro same
  rw [same, here] at listed
  exact represents.fresh_notMem listed

/-- A new last node is linked behind the others. -/
theorem Represents.addLast (represents : l.Represents xs) (v : β) :
    ∃ l', l.addLast v = some l' ∧ l'.Represents (xs ++ [(l.fresh, v)]) := by
  have segment := allocate_segment represents ⟨v, none⟩
  rw [← List.append_nil xs] at segment
  obtain ⟨l', set, front, -, fresh, others⟩ :=
    setAfter_spec segment represents.nodup (some l.fresh)
  rw [← represents.last_eq] at set
  have node : l'.heap l.fresh = some ⟨v, none⟩ :=
    (others _ represents.fresh_notMem).trans (Function.update_self _ _ _)
  refine ⟨{ l' with last := some l.fresh }, ?_, ⟨?_, ?_, nodup_concat represents, ?_⟩⟩
  · simp only [LinkedList.addLast, set, Option.map_some]
  · exact front.append (.cons node (.nil none))
  · rw [List.getLast?_concat, Option.map_some]
  · intro cell listed
    have below : cell.1 < l.fresh + 1 := by
      rcases List.mem_append.mp listed with early | new
      · exact Nat.lt_succ_of_lt (represents.below cell early)
      · rw [List.mem_singleton.mp new]
        exact Nat.lt_succ_self _
    exact fresh ▸ below

/-- A new node comes between those before and those behind a place. -/
theorem Represents.insertAfter (represents : l.Represents (before ++ later)) (v : β) :
    ∃ l', l.insertAfter (before.getLast?.map Prod.fst) v = some l' ∧
      Segment l'.heap l'.first (before ++ (l.fresh, v) :: later) none ∧ l'.last = l.last ∧
      l'.fresh = l.fresh + 1 := by
  have notMem := represents.fresh_notMem
  rw [List.map_append, List.mem_append, not_or] at notMem
  have nodup := represents.nodup
  rw [List.map_append, List.nodup_append] at nodup
  have next := after_eq represents.segment
  have segment := allocate_segment represents ⟨v, later.head?.map Prod.fst⟩
  obtain ⟨l', set, front, last, fresh, others⟩ := setAfter_spec segment nodup.1 (some l.fresh)
  refine ⟨l', ?_, ?_, last, fresh⟩
  · simp only [LinkedList.insertAfter, next, Option.bind_eq_bind, Option.bind_some, set]
  · have node : l'.heap l.fresh = some ⟨v, later.head?.map Prod.fst⟩ :=
      (others _ notMem.1).trans (Function.update_self _ _ _)
    obtain ⟨q, -, back⟩ := represents.segment.split
    rw [← back.first_eq] at node
    refine front.append (.cons node (back.congr fun cell listed => ?_))
    have here := List.mem_map_of_mem (f := Prod.fst) listed
    have old : cell.1 ≠ l.fresh := fun same => notMem.2 (same ▸ here)
    rw [others _ fun early => nodup.2.2 _ early _ here rfl]
    exact Function.update_of_ne old _ _

/-- The pointer to the last node is right behind an insertion if it did not make a last one. -/
theorem Represents.insertAfter_iff (represents : l.Represents (before ++ later)) (v : β)
    {l' : LinkedList β} (inserted : l.insertAfter (before.getLast?.map Prod.fst) v = some l') :
    (∃ ys, l'.Represents ys ∧ ys.map Prod.snd = (before ++ (l.fresh, v) :: later).map Prod.snd) ↔
      later ≠ [] := by
  obtain ⟨l'', inserted', segment, last, fresh⟩ := represents.insertAfter v
  rw [inserted] at inserted'
  cases inserted'
  constructor
  · rintro ⟨ys, represents', -⟩ rfl
    have whole := represents'.segment.unique segment
    have newest := represents'.last_eq
    rw [whole, List.getLast?_concat, last, represents.last_eq, List.append_nil,
      Option.map_some] at newest
    obtain ⟨cell, least, same⟩ := Option.map_eq_some_iff.mp newest
    have listed := List.mem_map_of_mem (f := Prod.fst) (List.mem_of_getLast? least)
    rw [same] at listed
    rw [List.append_nil] at represents
    exact represents.fresh_notMem listed
  · intro more
    refine ⟨_, ⟨segment, ?_, ?_, ?_⟩, rfl⟩
    · rw [last, represents.last_eq, List.getLast?_append_of_ne_nil _ more,
        List.getLast?_append_of_ne_nil _ (List.cons_ne_nil _ _), List.getLast?_cons_of_ne_nil more]
    · have nodup := nodup_concat (v := v) represents
      refine (List.Perm.map Prod.fst ?_).nodup_iff.mp nodup
      rw [List.append_assoc]
      exact (List.perm_append_comm).append_left before
    · intro cell listed
      rw [fresh]
      rcases List.mem_append.mp listed with early | here
      · exact Nat.lt_succ_of_lt (represents.below cell (List.mem_append_left _ early))
      · rcases List.mem_cons.mp here with rfl | late
        · exact Nat.lt_succ_self _
        · exact Nat.lt_succ_of_lt (represents.below cell (List.mem_append_right _ late))

/-- What is behind a place is taken out. -/
theorem Represents.removeAfter {cell : Nat × β} (represents : l.Represents (before ++ cell :: later)) :
    ∃ l', l.removeAfter (before.getLast?.map Prod.fst) = some l' ∧
      l'.Represents (before ++ later) := by
  have nodup := represents.nodup
  rw [List.map_append, List.nodup_append, List.map_cons, List.nodup_cons] at nodup
  obtain ⟨first, ⟨away, rest⟩, apart⟩ := nodup
  have early : cell.1 ∉ before.map Prod.fst := fun listed => apart _ listed _ List.mem_cons_self rfl
  have next := after_eq represents.segment
  obtain ⟨q, -, middle⟩ := represents.segment.split
  obtain ⟨-, node, here, back⟩ := middle.here
  obtain ⟨l', set, front, last, fresh, others⟩ := setAfter_spec represents.segment first node
  have kept : Segment l'.heap node later none := by
    refine back.congr fun other listed => others _ fun early => ?_
    exact apart _ early _ (List.mem_cons_of_mem _ (List.mem_map_of_mem listed)) rfl
  have whole := front.append kept
  have notMem : cell.1 ∉ (before ++ later).map Prod.fst := by
    rw [List.map_append, List.mem_append]
    exact fun either => either.elim early away
  have sublist : (before ++ later).Sublist (before ++ cell :: later) :=
    (List.sublist_cons_self cell later).append_left before
  have nodup' := (sublist.map Prod.fst).nodup represents.nodup
  have below : ∀ other ∈ before ++ later, other.1 < l'.fresh := fun other listed =>
    fresh ▸ represents.below other (sublist.subset listed)
  have removed : l.removeAfter (before.getLast?.map Prod.fst) = some
      ((if l'.last = some cell.1 then { l' with last := before.getLast?.map Prod.fst } else l').delete
        cell.1) := by
    simp only [LinkedList.removeAfter, next, Option.bind_eq_bind, Option.bind_some, List.head?_cons,
      Option.map_some, here, set]
  refine ⟨_, removed, ?_⟩
  split
  · next newest =>
    -- The last node goes.
    rw [last, represents.last_eq] at newest
    obtain rfl : later = [] := by
      by_contra more
      rw [List.getLast?_append_of_ne_nil _ (List.cons_ne_nil _ _),
        List.getLast?_cons_of_ne_nil more] at newest
      obtain ⟨other, least, same⟩ := Option.map_eq_some_iff.mp newest
      exact away (same ▸ List.mem_map_of_mem (List.mem_of_getLast? least))
    refine ⟨whole.update notMem none, ?_, nodup', below⟩
    rw [List.append_nil]
    rfl
  · next older =>
    refine ⟨whole.update notMem none, ?_, nodup', below⟩
    rw [last, represents.last_eq] at older
    have more : later ≠ [] := by
      rintro rfl
      rw [List.getLast?_concat] at older
      exact older rfl
    change l'.last = _
    rw [last, represents.last_eq, List.getLast?_append_of_ne_nil _ more,
      List.getLast?_append_of_ne_nil _ (List.cons_ne_nil _ _), List.getLast?_cons_of_ne_nil more]

/-- Where there is nothing behind a place, a null pointer is followed. -/
theorem Represents.removeAfter_nil (represents : l.Represents before) :
    l.removeAfter (before.getLast?.map Prod.fst) = none := by
  have segment := represents.segment
  rw [← List.append_nil before] at segment
  have next := after_eq segment
  simp only [LinkedList.removeAfter, next, Option.bind_eq_bind, Option.bind_some, List.head?_nil,
    Option.map_none, Option.bind_none]

/-- The value of a node is changed. -/
theorem Represents.setValue {cell : Nat × β} (represents : l.Represents (before ++ cell :: later))
    (change : β → β) :
    ∃ l', l.setValue cell.1 change = some l' ∧
      l'.Represents (before ++ (cell.1, change cell.2) :: later) := by
  have nodup := represents.nodup
  rw [List.map_append, List.nodup_append, List.map_cons, List.nodup_cons] at nodup
  obtain ⟨-, ⟨away, -⟩, apart⟩ := nodup
  have early : cell.1 ∉ before.map Prod.fst := fun listed => apart _ listed _ List.mem_cons_self rfl
  obtain ⟨q, front, middle⟩ := represents.segment.split
  obtain ⟨rfl, node, here, back⟩ := middle.here
  have addresses : (before ++ (cell.1, change cell.2) :: later).map Prod.fst =
      (before ++ cell :: later).map Prod.fst := by simp
  refine ⟨_, by rw [LinkedList.setValue, here, Option.map_some], ⟨?_, ?_, ?_, ?_⟩⟩
  · exact (front.update early _).append (.cons (Function.update_self _ _ _) (back.update away _))
  · change l.last = _
    rw [represents.last_eq, ← List.getLast?_map, ← List.getLast?_map, addresses]
  · rw [addresses]
    exact represents.nodup
  · intro other listed
    have listed := List.mem_map_of_mem (f := Prod.fst) listed
    rw [addresses] at listed
    obtain ⟨old, here, same⟩ := List.mem_map.mp listed
    exact same ▸ represents.below old here

theorem deleteFrom_isSome {heap : Nat → Option (Node β)} {p : Option Nat}
    (segment : Segment heap p xs none) (nodup : (xs.map Prod.fst).Nodup) {fuel : Nat}
    (enough : xs.length ≤ fuel) : ∃ heap', deleteFrom heap fuel p = some heap' := by
  induction xs generalizing heap p fuel with
  | nil =>
    cases segment
    cases fuel <;> exact ⟨heap, rfl⟩
  | cons cell rest ih =>
    obtain ⟨rfl, next, here, later⟩ := segment.here
    obtain ⟨fuel, rfl⟩ : ∃ n, fuel = n + 1 := ⟨fuel - 1, by simp at enough; omega⟩
    rw [List.map_cons, List.nodup_cons] at nodup
    obtain ⟨heap', deleted⟩ := ih (later.update nodup.1 none) nodup.2 (Nat.le_of_succ_le_succ enough)
    refine ⟨heap', ?_⟩
    simp only [deleteFrom, here, Option.bind_eq_bind, Option.bind_some, deleted]

theorem Represents.clear (represents : l.Represents xs) :
    ∃ l', l.clear = some l' ∧ l'.Represents [] := by
  obtain ⟨heap', deleted⟩ :=
    deleteFrom_isSome represents.segment represents.nodup represents.length_le
  refine ⟨_, by rw [LinkedList.clear, deleted, Option.map_some], ⟨.nil _, rfl, .nil, ?_⟩⟩
  exact fun cell listed => by cases listed

/-! ## Values -/

/-- The values of the nodes. -/
def Holds (l : LinkedList β) (values : List β) : Prop :=
  ∃ xs, l.Represents xs ∧ xs.map Prod.snd = values

theorem holds_empty : (empty : LinkedList β).Holds [] :=
  ⟨[], represents_empty, rfl⟩

theorem Holds.addLast {values : List β} (holds : l.Holds values) (v : β) :
    ∃ l', l.addLast v = some l' ∧ l'.Holds (values ++ [v]) := by
  obtain ⟨xs, represents, rfl⟩ := holds
  obtain ⟨l', made, represents'⟩ := represents.addLast v
  exact ⟨l', made, _, represents', by simp⟩

theorem Holds.clear {values : List β} (holds : l.Holds values) :
    ∃ l', l.clear = some l' ∧ l'.Holds [] := by
  obtain ⟨xs, represents, -⟩ := holds
  obtain ⟨l', made, represents'⟩ := represents.clear
  exact ⟨l', made, [], represents', rfl⟩

/-- A loop that adds one value after the other. -/
theorem Holds.addAll {values : List β} (holds : l.Holds values) (xs : List (Nat × β)) :
    ∃ l', xs.foldlM (fun l cell => l.addLast cell.2) l = some l' ∧
      l'.Holds (values ++ xs.map Prod.snd) := by
  induction xs generalizing l values with
  | nil => exact ⟨l, rfl, by simpa using holds⟩
  | cons cell rest ih =>
    obtain ⟨l₁, added, holds₁⟩ := holds.addLast cell.2
    obtain ⟨l', made, holds'⟩ := ih holds₁
    refine ⟨l', ?_, by simpa using holds'⟩
    rw [List.foldlM_cons, added]
    exact made

end LinkedList

end Libjingle.Std

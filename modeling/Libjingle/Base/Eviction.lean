import Libjingle.Base.DiskCacheSizes
import Mathlib.Data.Int.ConditionallyCompleteOrder
import Mathlib.Data.List.MinMax
import Mathlib.Data.List.TakeWhile

/-!
# What the disk cache evicts

`CheckLimit` deletes resources until the rest is within the limit. It finds the first entry
that may be deleted, and from there looks for the oldest one, at this entry and all behind
it. Neither that there is an entry behind it nor whether the oldest may be deleted is asked.
-/

namespace Libjingle.Base

open Libjingle.Std

variable {κ φ : Type} [LinearOrder κ]

/-! ## Eviction

What a cache is for: as long as it is over its limit, the oldest resource that nobody holds
goes. -/

/-- The entries are over the limit, and this one is the oldest of those that may go. -/
structure Evictable (maxCache : Nat) (map : OrderedMap κ Entry) (id : κ) (e : Entry) : Prop where
  full : maxCache < map.total Entry.size
  present : map.get id = some e
  idle : e.idle = true
  oldest : ∀ other e', map.get other = some e' → e'.idle = true → e.lastModified ≤ e'.lastModified

/-- What is left of the entries after some evictions, each of them due. -/
inductive Evicts (maxCache : Nat) : OrderedMap κ Entry → OrderedMap κ Entry → Prop
  | none (map : OrderedMap κ Entry) : Evicts maxCache map map
  | evict {map after : OrderedMap κ Entry} {id : κ} {e : Entry}
      (due : Evictable maxCache map id e) (rest : Evicts maxCache (map.erase id) after) :
      Evicts maxCache map after

/-- The size of what stays when all that may be deleted is. -/
def held (map : OrderedMap κ Entry) : Nat :=
  map.total fun e => if e.idle then 0 else e.size

theorem held_erase {map : OrderedMap κ Entry} {id : κ} {e : Entry} (present : map.get id = some e)
    (idle : e.idle = true) : held (map.erase id) = held map := by
  have erased := OrderedMap.total_erase present fun e => if e.idle then 0 else e.size
  rwa [if_pos idle, Nat.add_zero] at erased

theorem held_le_total (map : OrderedMap κ Entry) : held map ≤ map.total Entry.size := by
  refine List.sum_le_sum fun e _ => ?_
  dsimp only
  split
  · exact Nat.zero_le _
  · exact Nat.le_refl _

/-- Everything stays when nothing may be deleted. -/
theorem held_of_busy {map : OrderedMap κ Entry}
    (busy : ∀ id e, map.get id = some e → e.idle = false) : held map = map.total Entry.size := by
  refine congrArg List.sum (List.map_congr_left fun e listed => ?_)
  dsimp only
  rw [busy e.1 e.2 (OrderedMap.get_eq_some.mpr listed)]
  rfl

/-! ## The search -/

namespace Disk

/-- The entries from the first that may be deleted. -/
def searched (map : OrderedMap κ Entry) : List (κ × Entry) :=
  map.entries.dropWhile fun e => !e.2.idle

/-- An entry that may be deleted is searched. -/
theorem mem_searched {map : OrderedMap κ Entry} {id : κ} {e : Entry}
    (present : map.get id = some e) (idle : e.idle = true) : (id, e) ∈ searched map := by
  have listed : (id, e) ∈ map.entries := OrderedMap.get_eq_some.mp present
  rw [← @List.takeWhile_append_dropWhile _ (fun e => !e.2.idle) map.entries,
    List.mem_append] at listed
  refine listed.resolve_left fun early => ?_
  have busy := List.mem_takeWhile_imp early
  rw [idle] at busy
  cases busy

theorem get_of_mem_searched {map : OrderedMap κ Entry} {entry : κ × Entry}
    (listed : entry ∈ searched map) : map.get entry.1 = some entry.2 :=
  OrderedMap.get_eq_some.mpr ((List.dropWhile_suffix _).subset listed)

/-- Nothing is searched when nothing may be deleted. -/
theorem searched_eq_nil {map : OrderedMap κ Entry} :
    searched map = [] ↔ ∀ id e, map.get id = some e → e.idle = false := by
  constructor
  · intro none id e present
    refine Bool.eq_false_iff.mpr fun idle => ?_
    have listed := mem_searched present idle
    rw [none] at listed
    cases listed
  · intro busy
    refine List.dropWhile_eq_nil_iff.mpr fun entry listed => ?_
    rw [busy entry.1 entry.2 (OrderedMap.get_eq_some.mpr listed)]
    rfl

omit [LinearOrder κ] in
/-- The search keeps the first of the oldest it has seen. -/
theorem argmin_eq_oldestOf (oldest : κ × Entry) (rest : List (κ × Entry)) :
    (oldest :: rest).argmin (fun e => e.2.lastModified) = some (oldestOf oldest rest) := by
  unfold List.argmin
  rw [List.foldl_cons]
  change rest.foldl _ (some oldest) = _
  induction rest generalizing oldest with
  | nil => rfl
  | cons it rest ih =>
    rw [List.foldl_cons, oldestOf, ← ih]
    congr 1
    unfold List.argAux
    dsimp only
    split <;> rfl

omit [LinearOrder κ] in
/-- The entry behind the first one is met twice. -/
theorem oldestOf_again (first next : κ × Entry) (rest : List (κ × Entry)) :
    oldestOf next (first :: next :: rest) = oldestOf next (first :: rest) := by
  simp only [oldestOf]
  congr 1
  split
  · next earlier => rw [if_neg (lt_asymm earlier)]
  · rw [if_neg (lt_irrefl _)]

omit [LinearOrder κ] in
/-- Behind the first of the entries and the next one there is an oldest. -/
theorem oldestOf_spec (first next : κ × Entry) (rest : List (κ × Entry)) :
    (next :: first :: rest).argmin (fun e => e.2.lastModified) =
        some (oldestOf next (first :: next :: rest)) ∧
      oldestOf next (first :: next :: rest) ∈ first :: next :: rest ∧
      ∀ entry ∈ first :: next :: rest,
        (oldestOf next (first :: next :: rest)).2.lastModified ≤ entry.2.lastModified := by
  have chosen := argmin_eq_oldestOf next (first :: rest)
  rw [← oldestOf_again] at chosen
  have swapped := List.Perm.swap next first rest
  refine ⟨chosen, swapped.mem_iff.mpr (List.argmin_mem chosen), fun entry listed => ?_⟩
  exact @List.le_of_mem_argmin _ _ _ (fun e => e.2.lastModified) _ _ _
    (swapped.mem_iff.mp listed) chosen

/-- What the search comes to. -/
theorem victim_cases (map : OrderedMap κ Entry) :
    searched map = [] ∧ victim map = .allLocked ∨
    (∃ last, searched map = [last]) ∧ victim map = .pastEnd ∨
    ∃ first next rest oldest, searched map = first :: next :: rest ∧
      (next :: first :: rest).argmin (fun e => e.2.lastModified) = some oldest ∧
      victim map = .entry oldest.1 ∧ map.get oldest.1 = some oldest.2 ∧
      ∀ entry ∈ searched map, oldest.2.lastModified ≤ entry.2.lastModified := by
  unfold victim
  rw [← searched]
  split
  · next none => exact .inl ⟨none, rfl⟩
  · next last alone => exact .inr (.inl ⟨⟨last, alone⟩, rfl⟩)
  · next first next rest found =>
    obtain ⟨chosen, listed, least⟩ := oldestOf_spec first next rest
    refine .inr (.inr ⟨first, next, rest, _, found, chosen, rfl, get_of_mem_searched ?_, ?_⟩)
    · rw [found]
      exact listed
    · rw [found]
      exact least

/-! ## A round -/

variable [DecidableEq φ] {p : Platform κ φ} {s t : Disk κ φ}

theorem deleteFiles_all (names : List φ) (files : φ → Option Nat) :
    (deleteFiles (fun _ => true) names files).1 = true := by
  induction names generalizing files with
  | nil => rfl
  | cons name rest ih =>
    unfold deleteFiles
    split
    · exact ih _
    · exact ih _

/-- What is counted is what the entries take up, and it is no more than a word holds. -/
structure Counts (p : Platform κ φ) (s : Disk κ φ) : Prop where
  total : s.totalSize = s.map.total Entry.size
  bounded : s.totalSize < 2 ^ p.bits

omit [DecidableEq φ] in
theorem Inv.counts (inv : Inv p s) : Counts p s := ⟨inv.total, inv.bounded⟩

/-- An entry that may be deleted is, when the files can be. -/
theorem deleteResource_idle (counts : Counts p s) {id : κ} {e : Entry}
    (present : s.map.get id = some e) (idle : e.idle = true) :
    ∃ u, s.deleteResource p (fun _ => true) id = (true, u) ∧ u.map = s.map.erase id ∧
      u.maxCache = s.maxCache ∧ Counts p u := by
  have erased := OrderedMap.total_erase present Entry.size
  have total := counts.total
  have small : e.size ≤ s.totalSize := by omega
  have kept := subtractTotal_of_le small counts.bounded
  have deleted : s.deleteResource p (fun _ => true) id =
      (true, { s with
        totalSize := s.totalSize - e.size
        map := s.map.erase id
        files := (deleteFiles (fun _ => true) (filenames p id e.streams) s.files).2 }) := by
    rw [deleteResource, present]
    dsimp only
    rw [if_neg (not_not_intro idle), deleteFiles_all, kept]
  refine ⟨_, deleted, rfl, rfl, ⟨?_, ?_⟩⟩
  · dsimp only
    omega
  · exact lt_of_le_of_lt (Nat.sub_le _ _) counts.bounded

theorem deleteResource_busy {id : κ} {e : Entry} (present : s.map.get id = some e)
    (busy : e.idle = false) (deletes : φ → Bool) :
    s.deleteResource p deletes id = (false, s) := by
  rw [deleteResource, present]
  dsimp only
  rw [if_pos (by rw [busy]; decide)]

/-- What a round does when the cache is over its limit, with the files that it deletes. -/
theorem checkLimitLoop_round (counts : Counts p s) (full : s.maxCache < s.totalSize) (fuel : Nat) :
    searched s.map = [] ∧ checkLimitLoop p (fun _ => true) (fuel + 1) s = some (false, s) ∨
    (∃ last, searched s.map = [last]) ∧
      checkLimitLoop p (fun _ => true) (fuel + 1) s = none ∨
    ∃ first next rest oldest, searched s.map = first :: next :: rest ∧
      (next :: first :: rest).argmin (fun e => e.2.lastModified) = some oldest ∧
      (oldest.2.idle = false ∧
          checkLimitLoop p (fun _ => true) (fuel + 1) s = some (false, s) ∨
        Evictable s.maxCache s.map oldest.1 oldest.2 ∧
          ∃ u, checkLimitLoop p (fun _ => true) (fuel + 1) s =
              checkLimitLoop p (fun _ => true) fuel u ∧
            u.map = s.map.erase oldest.1 ∧ u.maxCache = s.maxCache ∧ Counts p u) := by
  have beyond := Nat.not_le_of_lt full
  rcases victim_cases s.map with ⟨none, victim⟩ | ⟨alone, victim⟩ |
    ⟨first, next, rest, oldest, found, chosen, victim, present, least⟩
  · refine .inl ⟨none, ?_⟩
    simp only [checkLimitLoop, if_neg beyond, victim]
  · refine .inr (.inl ⟨alone, ?_⟩)
    simp only [checkLimitLoop, if_neg beyond, victim]
  · refine .inr (.inr ⟨first, next, rest, oldest, found, chosen, ?_⟩)
    cases idle : oldest.2.idle with
    | false =>
      refine .inl ⟨rfl, ?_⟩
      simp only [checkLimitLoop, if_neg beyond, victim, deleteResource_busy present idle]
    | true =>
      obtain ⟨u, deleted, kept⟩ := deleteResource_idle counts present idle
      have due : Evictable s.maxCache s.map oldest.1 oldest.2 :=
        ⟨counts.total ▸ full, present, idle, fun _ _ there idle => least _ (mem_searched there idle)⟩
      refine .inr ⟨due, u, ?_, kept⟩
      simp only [checkLimitLoop, if_neg beyond, victim, deleted]

theorem checkLimitLoop_within (within : s.totalSize ≤ s.maxCache) (fuel : Nat) :
    checkLimitLoop p (fun _ => true) (fuel + 1) s = some (true, s) := by
  rw [checkLimitLoop, if_pos within]

/-- Whatever the loop evicts is due. -/
theorem checkLimitLoop_evicts (fuel : Nat) {under : Bool} (counts : Counts p s)
    (checked : checkLimitLoop p (fun _ => true) fuel s = some (under, t)) :
    Evicts s.maxCache s.map t.map ∧ Counts p t ∧ (under = true → t.totalSize ≤ s.maxCache) := by
  have stays : some (false, s) = some (under, t) →
      Evicts s.maxCache s.map t.map ∧ Counts p t ∧ (under = true → t.totalSize ≤ s.maxCache) := by
    intro same
    cases same
    exact ⟨.none _, counts, fun none => by cases none⟩
  induction fuel generalizing s with
  | zero =>
    cases checked
    exact ⟨.none _, counts, of_decide_eq_true⟩
  | succ fuel ih =>
    by_cases within : s.totalSize ≤ s.maxCache
    · rw [checkLimitLoop_within within] at checked
      cases checked
      exact ⟨.none _, counts, fun _ => within⟩
    rcases checkLimitLoop_round counts (Nat.lt_of_not_le within) fuel with ⟨-, round⟩ | ⟨-, round⟩ |
      ⟨-, -, -, oldest, -, -, ⟨-, round⟩ | ⟨due, u, round, erased, limit, left⟩⟩
    · exact stays (round.symm.trans checked)
    · rw [round] at checked
      cases checked
    · exact stays (round.symm.trans checked)
    · rw [round] at checked
      obtain ⟨rest, after, under⟩ := ih left checked fun same => by
        cases same
        exact ⟨.none _, left, fun none => by cases none⟩
      rw [erased, limit] at rest
      rw [limit] at under
      exact ⟨.evict due rest, after, under⟩

/-! ## When the answer is right -/

/-- In every round something can be evicted as long as that is enough: an entry follows the
first that may be deleted, and the oldest from there on may be deleted too. If the cache
stays over its limit whatever is evicted, the oldest may be one that is in use. -/
inductive Clear (maxCache : Nat) : OrderedMap κ Entry → Prop
  | fits {map : OrderedMap κ Entry} (within : map.total Entry.size ≤ maxCache) :
      Clear maxCache map
  | locked {map : OrderedMap κ Entry} (none : searched map = []) : Clear maxCache map
  | evicts {map : OrderedMap κ Entry} {first next oldest : κ × Entry} {rest : List (κ × Entry)}
      (found : searched map = first :: next :: rest)
      (chosen : (next :: first :: rest).argmin (fun e => e.2.lastModified) = some oldest)
      (idle : oldest.2.idle = true) (after : Clear maxCache (map.erase oldest.1)) :
      Clear maxCache map
  | refuses {map : OrderedMap κ Entry} {first next oldest : κ × Entry} {rest : List (κ × Entry)}
      (found : searched map = first :: next :: rest)
      (chosen : (next :: first :: rest).argmin (fun e => e.2.lastModified) = some oldest)
      (busy : oldest.2.idle = false) (hopeless : maxCache < held map) : Clear maxCache map

/-- `CheckLimit` comes to an end, evicts only what is due, and reports whether all that may
go was enough. -/
def KeepsLimit (p : Platform κ φ) (s : Disk κ φ) : Prop :=
  ∃ under t,
    (∀ rounds, s.map.size ≤ rounds →
      checkLimitLoop p (fun _ => true) rounds s = some (under, t)) ∧
    Evicts s.maxCache s.map t.map ∧ t.totalSize = t.map.total Entry.size ∧
    (under = true → t.totalSize ≤ s.maxCache) ∧
    (under = true ↔ held s.map ≤ s.maxCache)

/-- The loop comes to an end, with the right answer. -/
def Answers (p : Platform κ φ) (rounds : Nat) (s : Disk κ φ) : Prop :=
  ∃ under t, checkLimitLoop p (fun _ => true) rounds s = some (under, t) ∧
    (under = true ↔ held s.map ≤ s.maxCache)

theorem answers_iff {rounds : Nat} {under : Bool}
    (checked : checkLimitLoop p (fun _ => true) rounds s = some (under, t)) :
    s.Answers p rounds ↔ (under = true ↔ held s.map ≤ s.maxCache) := by
  constructor
  · rintro ⟨under', t', checked', right⟩
    rw [checked] at checked'
    cases checked'
    exact right
  · exact fun right => ⟨under, t, checked, right⟩

/-- What the condition says of a cache that is over its limit. -/
theorem clear_iff {maxCache : Nat} {map : OrderedMap κ Entry} {first next oldest : κ × Entry}
    {rest : List (κ × Entry)} (full : maxCache < map.total Entry.size)
    (found : searched map = first :: next :: rest)
    (chosen : (next :: first :: rest).argmin (fun e => e.2.lastModified) = some oldest) :
    Clear maxCache map ↔ oldest.2.idle = true ∧ Clear maxCache (map.erase oldest.1) ∨
      oldest.2.idle = false ∧ maxCache < held map := by
  constructor
  · intro clear
    cases clear with
    | fits within => omega
    | locked none => simp [found] at none
    | evicts found' chosen' idle after =>
      rw [found] at found'
      cases found'
      rw [chosen] at chosen'
      cases chosen'
      exact .inl ⟨idle, after⟩
    | refuses found' chosen' busy hopeless =>
      rw [found] at found'
      cases found'
      rw [chosen] at chosen'
      cases chosen'
      exact .inr ⟨busy, hopeless⟩
  · rintro (⟨idle, after⟩ | ⟨busy, hopeless⟩)
    · exact .evicts found chosen idle after
    · exact .refuses found chosen busy hopeless

/-- The last entry of the map is not compared with anything. -/
theorem not_clear {maxCache : Nat} {map : OrderedMap κ Entry} {last : κ × Entry}
    (full : maxCache < map.total Entry.size) (alone : searched map = [last]) :
    ¬ Clear maxCache map := by
  intro clear
  cases clear with
  | fits within => omega
  | locked none => simp [alone] at none
  | evicts found => simp [alone] at found
  | refuses found => simp [alone] at found

theorem answers_within (counts : Counts p s) (within : s.totalSize ≤ s.maxCache) (fuel : Nat) :
    s.Answers p (fuel + 1) ↔ Clear s.maxCache s.map := by
  have total := counts.total
  have below := held_le_total s.map
  rw [answers_iff (checkLimitLoop_within within _)]
  exact iff_of_true (iff_of_true rfl (by omega)) (.fits (total ▸ within))

/-- By induction on the rounds. A round is right when the rest of the loop is. -/
theorem answers_iff_clear (counts : Counts p s) {fuel : Nat} (enough : s.map.size ≤ fuel) :
    s.Answers p (fuel + 1) ↔ Clear s.maxCache s.map := by
  have total := counts.total
  induction fuel generalizing s with
  | zero =>
    have empty : s.map.entries = [] := List.length_eq_zero_iff.mp (Nat.le_zero.mp enough)
    rw [OrderedMap.total, empty] at total
    exact answers_within counts (total ▸ Nat.zero_le _) 0
  | succ fuel ih =>
    by_cases within : s.totalSize ≤ s.maxCache
    · exact answers_within counts within _
    have full := total ▸ Nat.lt_of_not_le within
    rcases checkLimitLoop_round counts (Nat.lt_of_not_le within) (fuel + 1) with ⟨none, round⟩ |
      ⟨⟨last, alone⟩, round⟩ | ⟨first, next, rest, oldest, found, chosen,
        ⟨busy, round⟩ | ⟨due, u, round, erased, limit, left⟩⟩
    · rw [answers_iff round, held_of_busy (searched_eq_nil.mp none), ← total]
      exact iff_of_true (iff_of_false (by decide) within) (.locked none)
    · refine iff_of_false ?_ (not_clear full alone)
      rintro ⟨under, t, checked, -⟩
      rw [round] at checked
      cases checked
    · rw [answers_iff round, clear_iff full found chosen, busy]
      simp
    · have fewer := OrderedMap.size_erase due.present
      have later : s.Answers p (fuel + 1 + 1) ↔ u.Answers p (fuel + 1) := by
        unfold Answers
        rw [round, erased, limit, held_erase due.present due.idle]
      have enough : u.map.size ≤ fuel := by
        rw [erased]
        omega
      have rest : u.Answers p (fuel + 1) ↔ Clear u.maxCache u.map := ih left enough left.total
      rw [later, rest, clear_iff full found chosen, erased, limit, due.idle]
      simp

/-- One round for each entry is enough. -/
theorem checkLimitLoop_enough {rounds : Nat} (enough : s.map.size ≤ rounds) :
    checkLimitLoop p (fun _ => true) rounds s = checkLimitLoop p (fun _ => true) s.map.size s := by
  induction rounds, enough using Nat.le_induction with
  | base => rfl
  | succ rounds enough ih => rw [checkLimitLoop_rounds _ _ enough, ih]

/-- `CheckLimit` keeps the limit as it should if and only if, in every round, the search finds
something that may be deleted unless deleting all of it is too little. -/
theorem keepsLimit_iff_clear (counts : Counts p s) :
    KeepsLimit p s ↔ Clear s.maxCache s.map := by
  rw [← answers_iff_clear counts (Nat.le_refl _)]
  constructor
  · rintro ⟨under, t, ends, -, -, -, right⟩
    exact ⟨under, t, ends _ (Nat.le_succ _), right⟩
  · rintro ⟨under, t, checked, right⟩
    obtain ⟨evicts, left, fits⟩ := checkLimitLoop_evicts _ counts checked
    refine ⟨under, t, fun rounds enough => ?_, evicts, left.total, fits, right⟩
    rw [checkLimitLoop_enough enough, ← checkLimitLoop_rounds _ _ (Nat.le_refl _), checked]

/-! ## Two resources -/

/-- Two resources of ten bytes, and a limit of ten: the first is free. -/
private def pair (lockState : LockState) : Disk (List Byte) (List Byte) where
  initialized := true
  maxCache := 10
  totalSize := 20
  map := (OrderedMap.empty.insert [UInt8.toFin 97] ⟨.unlocked, 0, 10, 1, 5⟩).insert
    [UInt8.toFin 98] ⟨lockState, 0, 10, 1, 1⟩
  totalAccessors := 0
  adapters := []
  files := fun _ => none
  wrapped := false

private theorem pair_counts (lockState : LockState) : Counts (.named 32) (pair lockState) := by
  cases lockState <;> exact ⟨by decide +kernel, by decide +kernel⟩

/-- When the other is free too and older, it is the one that goes. -/
theorem keepsLimit_free : KeepsLimit (.named 32) (pair .unlocked) := by
  have found : searched (pair .unlocked).map =
      [([97], ⟨.unlocked, 0, 10, 1, 5⟩), ([98], ⟨.unlocked, 0, 10, 1, 1⟩)] := by decide +kernel
  have chosen : ([([98], ⟨.unlocked, 0, 10, 1, 1⟩), ([97], ⟨.unlocked, 0, 10, 1, 5⟩)] :
      List (List Byte × Entry)).argmin (fun e => e.2.lastModified) =
      some ([98], ⟨.unlocked, 0, 10, 1, 1⟩) := by decide +kernel
  have rest : ((pair .unlocked).map.erase [98]).total Entry.size ≤ 10 := by decide +kernel
  exact (keepsLimit_iff_clear (pair_counts .unlocked)).mpr
    (.evicts found chosen rfl (.fits rest))

/-- When the other is locked and older, the first stays, and the cache over its limit. -/
theorem not_keepsLimit_locked : ¬ KeepsLimit (.named 32) (pair .locked) := by
  rintro ⟨under, t, ends, -, -, -, right⟩
  have checked : (checkLimitLoop (.named 32) (fun _ => true) 2 (pair .locked)).map Prod.fst =
      some false := by decide +kernel
  rw [ends 2 (by decide +kernel), Option.map_some] at checked
  cases checked
  exact absurd (right.mpr (by decide +kernel)) (by decide)

end Disk

end Libjingle.Base

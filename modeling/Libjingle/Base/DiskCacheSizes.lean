import Libjingle.Base.DiskCache
import Mathlib.Algebra.Order.BigOperators.Group.Finset

/-!
# What the disk cache counts

The size of an entry is the size of those of its files that are not open for writing, and the
cache adds the sizes up. Opening a stream for writing takes its file out, and closing it
brings it back in.
-/

namespace Libjingle.Base

open Libjingle.Std

variable {κ φ : Type} [LinearOrder κ]

namespace Disk

/-- The size of a file that is not open for writing. -/
def closedSize (p : Platform κ φ) (s : Disk κ φ) (id : κ) (index : Nat) : Nat :=
  if ⟨id, index, true⟩ ∈ s.adapters then 0 else (s.files (p.idToFilename id index)).getD 0

/-- The sizes of the closed files of the first streams of a resource. -/
def closedSizes (p : Platform κ φ) (s : Disk κ φ) (id : κ) (streams : Nat) : Nat :=
  (Finset.range streams).sum fun index => s.closedSize p id index

/-- The adapters over a resource. -/
def holders (s : Disk κ φ) (id : κ) : List (Adapter κ) :=
  s.adapters.filter fun a => a.id = id

/-- What a cache counts is so, and no subtraction of sizes has wrapped. -/
structure Accounts (p : Platform κ φ) (s : Disk κ φ) : Prop where
  total : s.totalSize = s.map.total Entry.size
  sizes : ∀ id e, s.map.get id = some e → e.size = s.closedSizes p id e.streams
  accessors : s.totalAccessors = s.map.total Entry.accessors
  unwrapped : s.wrapped = false

/-! ## The invariant -/

/-- An entry fits its files and its adapters: a locked resource has adapters that write, one
for a stream, and an unlocked one those that read. -/
structure Sound (p : Platform κ φ) (s : Disk κ φ) (id : κ) (e : Entry) : Prop where
  size : e.size = s.closedSizes p id e.streams
  held : e.accessors = (s.holders id).length
  whole : e.streams ≤ 2 ^ 32
  mode : ∀ a ∈ s.holders id, a.writes = true ↔ e.lockState ≠ .unlocked
  within : ∀ a ∈ s.holders id, a.writes = true → a.index < e.streams
  single : ((s.holders id).filter Adapter.writes).Nodup

structure Inv (p : Platform κ φ) (s : Disk κ φ) : Prop where
  total : s.totalSize = s.map.total Entry.size
  bounded : s.totalSize < 2 ^ p.bits
  accessors : s.totalAccessors = s.map.total Entry.accessors
  unwrapped : s.wrapped = false
  sound : ∀ id e, s.map.get id = some e → s.Sound p id e
  known : ∀ a ∈ s.adapters, (s.map.get a.id).isSome

variable {p : Platform κ φ} {s t : Disk κ φ} {id : κ} {e : Entry}

theorem Inv.accounts (inv : Inv p s) : Accounts p s where
  total := inv.total
  sizes := fun id e present => (inv.sound id e present).size
  accessors := inv.accessors
  unwrapped := inv.unwrapped

theorem mem_holders {a : Adapter κ} : a ∈ s.holders id ↔ a ∈ s.adapters ∧ a.id = id := by
  simp [holders]

theorem closedSize_congr {index : Nat}
    (writers : (⟨id, index, true⟩ ∈ t.holders id) ↔ ⟨id, index, true⟩ ∈ s.holders id)
    (files : t.files (p.idToFilename id index) = s.files (p.idToFilename id index)) :
    t.closedSize p id index = s.closedSize p id index := by
  simp only [mem_holders, and_true] at writers
  simp only [closedSize, writers, files]

/-- An entry stays sound if nothing happens to its adapters and its files. -/
theorem Sound.frame (sound : s.Sound p id e) (held : (t.holders id).Perm (s.holders id))
    (files : ∀ index < e.streams,
      t.files (p.idToFilename id index) = s.files (p.idToFilename id index)) : t.Sound p id e where
  size := by
    rw [sound.size]
    refine Finset.sum_congr rfl fun index inside => ?_
    exact (closedSize_congr held.mem_iff (files index (Finset.mem_range.mp inside))).symm
  held := sound.held.trans held.length_eq.symm
  whole := sound.whole
  mode := fun a listed => sound.mode a (held.mem_iff.mp listed)
  within := fun a listed => sound.within a (held.mem_iff.mp listed)
  single := (held.filter _).nodup_iff.mpr sound.single

/-- Nothing happens to the adapters and files of the other resources. -/
structure Apart (p : Platform κ φ) (s t : Disk κ φ) (id : κ) : Prop where
  holders : ∀ other, other ≠ id → (t.holders other).Perm (s.holders other)
  files : ∀ other, other ≠ id → ∀ index < 2 ^ 32,
    t.files (p.idToFilename other index) = s.files (p.idToFilename other index)

theorem Apart.sound (apart : Apart p s t id) {other : κ} (differs : other ≠ id)
    (sound : s.Sound p other e) : t.Sound p other e :=
  sound.frame (apart.holders other differs) fun index inside =>
    apart.files other differs index (lt_of_lt_of_le inside sound.whole)

/-- The invariant after the entry of one resource has changed. -/
theorem Inv.modify (inv : Inv p s) (present : s.map.get id = some e) {change : Entry → Entry}
    (map : t.map = s.map.modify id change) (apart : Apart p s t id)
    (sound : t.Sound p id (change e)) (total : t.totalSize + e.size = s.totalSize + (change e).size)
    (accessors : t.totalAccessors + e.accessors = s.totalAccessors + (change e).accessors)
    (bounded : t.totalSize < 2 ^ p.bits) (unwrapped : t.wrapped = false)
    (adapters : ∀ a ∈ t.adapters, a ∈ s.adapters ∨ a.id = id) : Inv p t where
  total := by
    have sizes := OrderedMap.total_modify present change Entry.size
    have before := inv.total
    rw [map]
    omega
  bounded := bounded
  accessors := by
    have counts := OrderedMap.total_modify present change Entry.accessors
    have before := inv.accessors
    rw [map]
    omega
  unwrapped := unwrapped
  sound := fun other e' found => by
    rw [map, OrderedMap.get_modify] at found
    by_cases same : other = id
    · rw [if_pos same, present] at found
      cases found
      exact same ▸ sound
    · rw [if_neg same] at found
      exact apart.sound same (inv.sound other e' found)
  known := fun a listed => by
    rw [map, OrderedMap.get_modify]
    split
    · rw [present]
      rfl
    · next other => exact inv.known a ((adapters a listed).resolve_right other)

theorem Inv.size_le (inv : Inv p s) (present : s.map.get id = some e) : e.size ≤ s.totalSize :=
  inv.total ▸ OrderedMap.le_total present Entry.size

theorem idle_iff (e : Entry) : e.idle = true ↔ e.lockState = .unlocked ∧ e.accessors = 0 := by
  simp [Entry.idle]

theorem subtractTotal_of_le {size : Nat} (le : size ≤ s.totalSize)
    (bounded : s.totalSize < 2 ^ p.bits) :
    s.subtractTotal p size = { s with totalSize := s.totalSize - size } := by
  have wraps : decide (s.totalSize < size) = false := decide_eq_false (Nat.not_lt.mpr le)
  have total : (s.totalSize + (2 ^ p.bits - size)) % 2 ^ p.bits = s.totalSize - size := by
    rw [← Nat.add_sub_assoc (by omega), Nat.sub_add_comm le, Nat.add_mod_right,
      Nat.mod_eq_of_lt (by omega)]
  rw [subtractTotal, wraps, total, Bool.or_false]

/-! ## Entries, adapters and files -/

theorem Sound.created (none : t.holders id = []) (now : Int) :
    t.Sound p id ⟨.unlocked, 0, 0, 0, now⟩ where
  size := rfl
  held := (congrArg List.length none).symm
  whole := Nat.zero_le _
  mode := by simp [none]
  within := by simp [none]
  single := by simp [none]

theorem createEntry_present (s : Disk κ φ) (id : κ) (now : Int) :
    ∃ e, (s.createEntry id now).map.get id = some e := by
  unfold createEntry
  split
  · next e present => exact ⟨e, present⟩
  · exact ⟨_, by dsimp only; rw [OrderedMap.get_insert, if_pos rfl]⟩

/-- A change of an entry's lock, where its adapters fit the new state. -/
theorem modifyEntry_inv (inv : Inv p s) (present : s.map.get id = some e) {change : Entry → Entry}
    (same : (change e).size = e.size ∧ (change e).accessors = e.accessors ∧
      (change e).streams = e.streams)
    (mode : ∀ a ∈ s.holders id, a.writes = true ↔ (change e).lockState ≠ .unlocked) :
    Inv p (s.modifyEntry id change) := by
  obtain ⟨size, accessors, streams⟩ := same
  have sound := inv.sound id e present
  refine inv.modify present rfl ⟨fun _ _ => .refl _, fun _ _ _ _ => rfl⟩ ?_ ?_ ?_ inv.bounded
    inv.unwrapped fun a listed => .inl listed
  · refine ⟨?_, accessors.trans sound.held, streams ▸ sound.whole, mode, ?_, sound.single⟩
    · rw [size, streams]
      exact sound.size
    · rw [streams]
      exact sound.within
  · rw [size]
    rfl
  · rw [accessors]
    rfl

/-- A resource that may be locked has no adapter that reads. -/
theorem lockable_writes (sound : s.Sound p id e) (lockable : e.lockable = true) :
    ∀ a ∈ s.holders id, a.writes = true := by
  intro a held
  have cases : e.lockState = .unlocking ∨ e.idle = true := by simpa [Entry.lockable] using lockable
  rcases cases with unlocking | idle
  · exact (sound.mode a held).mpr (by rw [unlocking]; decide)
  · have none := sound.held.symm.trans ((idle_iff e).mp idle).2
    rw [List.length_eq_zero_iff.mp none] at held
    cases held

/-- An entry that may be locked can be locked whenever it is there. -/
theorem lock_inv (inv : Inv p s) (present : s.map.get id = some e)
    (writes : ∀ a ∈ s.holders id, a.writes = true) :
    Inv p (s.modifyEntry id fun e => { e with lockState := .locked }) :=
  modifyEntry_inv inv present ⟨rfl, rfl, rfl⟩ fun a held =>
    iff_of_true (writes a held) (by simp)

theorem settle_inv (inv : Inv p s) (present : s.map.get id = some e) (now : Int)
    (none : e.accessors = 0) : Inv p (s.settle id now) := by
  refine modifyEntry_inv inv present ⟨rfl, rfl, rfl⟩ fun a held => ?_
  have empty := (inv.sound id e present).held.symm.trans none
  rw [List.length_eq_zero_iff.mp empty] at held
  cases held

/-- Streams behind the others that count for nothing. -/
theorem closedSizes_extend {streams more : Nat} (le : streams ≤ more)
    (empty : ∀ index, streams ≤ index → index < more → s.closedSize p id index = 0) :
    s.closedSizes p id more = s.closedSizes p id streams := by
  refine (Finset.sum_subset (Finset.range_mono le) fun index inside beyond => ?_).symm
  exact empty index (by simpa using beyond) (Finset.mem_range.mp inside)

theorem holders_append {a : Adapter κ} (adapters : t.adapters = s.adapters ++ [a]) (id : κ) :
    t.holders id = s.holders id ++ if a.id = id then [a] else [] := by
  simp only [holders, adapters, List.filter_append, List.filter_cons, List.filter_nil]
  split <;> simp_all

theorem holders_append_other {a : Adapter κ} (adapters : t.adapters = s.adapters ++ [a])
    {other : κ} (differs : other ≠ a.id) : (t.holders other).Perm (s.holders other) := by
  rw [holders_append adapters, if_neg (Ne.symm differs), List.append_nil]

/-- One file changes what it counts for. -/
theorem closedSizes_update {streams index size : Nat} (inside : index < streams)
    (here : t.closedSize p id index = size)
    (others : ∀ other < streams, other ≠ index →
      t.closedSize p id other = s.closedSize p id other) :
    t.closedSizes p id streams + s.closedSize p id index = s.closedSizes p id streams + size := by
  have listed : index ∈ Finset.range streams := Finset.mem_range.mpr inside
  have before := Finset.add_sum_erase _ (fun index => s.closedSize p id index) listed
  have after := Finset.add_sum_erase _ (fun index => t.closedSize p id index) listed
  have rest : ((Finset.range streams).erase index).sum (fun index => t.closedSize p id index) =
      ((Finset.range streams).erase index).sum fun index => s.closedSize p id index := by
    refine Finset.sum_congr rfl fun other member => ?_
    obtain ⟨differs, within⟩ := Finset.mem_erase.mp member
    exact others other (Finset.mem_range.mp within) differs
  unfold closedSizes
  rw [here] at after
  omega

/-- A stream that is not open for writing counts for no more than the entry. -/
theorem closedSize_le {index : Nat} (sound : s.Sound p id e) (inside : index < e.streams) :
    s.closedSize p id index ≤ e.size := by
  rw [sound.size]
  exact Finset.single_le_sum (fun _ _ => Nat.zero_le _) (Finset.mem_range.mpr inside)

theorem mem_adapters_append {a b : Adapter κ} (adapters : t.adapters = s.adapters ++ [a])
    (listed : b ∈ t.adapters) : b ∈ s.adapters ∨ b.id = a.id := by
  rw [adapters, List.mem_append, List.mem_singleton] at listed
  exact listed.imp_right (congrArg Adapter.id)

/-- A file that is read counts as before. -/
theorem closedSize_append_reader {a : Adapter κ} (reads : a.writes = false)
    (adapters : t.adapters = s.adapters ++ [a]) (files : t.files = s.files) (index : Nat) :
    t.closedSize p id index = s.closedSize p id index := by
  have writers : (⟨id, index, true⟩ ∈ t.adapters) ↔ ⟨id, index, true⟩ ∈ s.adapters := by
    rw [adapters, List.mem_append, List.mem_singleton]
    refine ⟨fun listed => listed.resolve_right fun same => ?_, .inl⟩
    rw [← same] at reads
    cases reads
  simp only [closedSize, writers, files]

/-- An adapter is handed out. -/
theorem Sound.append (sound : s.Sound p id e) {a : Adapter κ} {e' : Entry}
    (adapters : t.adapters = s.adapters ++ [a]) (mine : a.id = id)
    (held : e'.accessors = e.accessors + 1) (same : e'.lockState = e.lockState)
    (size : e'.size = t.closedSizes p id e'.streams) (whole : e'.streams ≤ 2 ^ 32)
    (mode : a.writes = true ↔ e.lockState ≠ .unlocked) (grows : e.streams ≤ e'.streams)
    (within : a.writes = true → a.index < e'.streams)
    (single : a.writes = true → a ∉ s.adapters) : t.Sound p id e' := by
  have holders := holders_append adapters id
  rw [if_pos mine] at holders
  refine ⟨size, ?_, whole, fun b listed => ?_, fun b listed writes => ?_, ?_⟩
  · rw [held, sound.held, holders, List.length_append]
    rfl
  · rw [holders, List.mem_append, List.mem_singleton] at listed
    rw [same]
    rcases listed with before | rfl
    · exact sound.mode b before
    · exact mode
  · rw [holders, List.mem_append, List.mem_singleton] at listed
    rcases listed with before | rfl
    · exact lt_of_lt_of_le (sound.within b before writes) grows
    · exact within writes
  · rw [holders, List.filter_append, List.filter_singleton]
    cases writes : a.writes with
    | true =>
      refine List.Nodup.append sound.single (List.nodup_singleton a) ?_
      intro b before last
      rw [List.mem_singleton.mp last] at before
      exact single writes (mem_holders.mp (List.mem_filter.mp before).1).1
    | false =>
      rw [cond_false, List.append_nil]
      exact sound.single

/-! ## Deletion -/

variable [DecidableEq φ]

theorem deleteFiles_other {deletes : φ → Bool} {names : List φ} {files : φ → Option Nat} {name : φ}
    (other : name ∉ names) : (deleteFiles deletes names files).2 name = files name := by
  induction names generalizing files with
  | nil => rfl
  | cons first rest ih =>
    obtain ⟨here, later⟩ := not_or.mp (List.mem_cons.not.mp other)
    simp only [deleteFiles]
    split
    · exact ih later
    · split
      · rw [ih later, Function.update_of_ne here]
      · exact ih later

omit [LinearOrder κ] [DecidableEq φ] in
/-- The files of the streams of another resource. -/
theorem filename_other {other : κ} (differs : other ≠ id) {index streams : Nat}
    (whole : index < 2 ^ 32) (fits : streams ≤ 2 ^ 32) :
    p.idToFilename other index ∉ filenames p id streams := by
  intro listed
  obtain ⟨index', inside, same⟩ := List.mem_map.mp listed
  have low : index' < 2 ^ 32 := lt_of_lt_of_le (List.mem_range.mp inside) fits
  exact differs (p.distinct low whole same).1.symm

/-- `DeleteResource` leaves the other entries, and their files, as they are. -/
theorem deleteResource_inv (inv : Inv p s) (deletes : φ → Bool) (id : κ) :
    Inv p (s.deleteResource p deletes id).2 := by
  unfold deleteResource
  split
  · exact inv
  · next e present =>
    split
    · exact inv
    · next idle =>
      have idle : e.lockState = .unlocked ∧ e.accessors = 0 :=
        (idle_iff e).mp (by simpa using idle)
      have sound := inv.sound id e present
      have fits := inv.size_le present
      have none : s.holders id = [] := List.length_eq_zero_iff.mp (sound.held.symm.trans idle.2)
      rw [subtractTotal_of_le fits inv.bounded]
      refine ⟨?_, lt_of_le_of_lt (Nat.sub_le _ _) inv.bounded, ?_, inv.unwrapped, ?_, ?_⟩
      · have sizes := OrderedMap.total_erase present Entry.size
        have before := inv.total
        dsimp only
        omega
      · have counts := OrderedMap.total_erase present Entry.accessors
        have before := inv.accessors
        dsimp only
        omega
      · intro other e' found
        dsimp only at found
        rw [OrderedMap.get_erase] at found
        split at found
        · cases found
        · next differs =>
          have kept := inv.sound other e' found
          refine kept.frame (.refl _) fun index inside => ?_
          exact deleteFiles_other
            (filename_other differs (lt_of_lt_of_le inside kept.whole) sound.whole)
      · intro a listed
        dsimp only
        rw [OrderedMap.get_erase, if_neg]
        · exact inv.known a listed
        · intro same
          have held : a ∈ s.holders id := mem_holders.mpr ⟨listed, same⟩
          rw [none] at held
          cases held

/-- A round that comes to an end keeps the invariant. -/
theorem checkLimitLoop_inv (deletes : φ → Bool) (fuel : Nat) {s t : Disk κ φ} {under : Bool}
    (inv : Inv p s) (checked : checkLimitLoop p deletes fuel s = some (under, t)) : Inv p t := by
  induction fuel generalizing s with
  | zero =>
    cases checked
    exact inv
  | succ fuel ih =>
    unfold checkLimitLoop at checked
    split at checked
    · cases checked
      exact inv
    · split at checked
      · cases checked
        exact inv
      · cases checked
      · next id chosen =>
        have deleted := deleteResource_inv inv deletes id
        generalize s.deleteResource p deletes id = result at checked deleted
        obtain ⟨_ | _, u⟩ := result
        · cases checked
          exact deleted
        · exact ih deleted checked

/-- The resource that is to be kept is still there. -/
def Keeps (keep : Option κ) (s : Disk κ φ) : Prop :=
  ∀ id, keep = some id → (s.map.get id).isSome

/-- As long as the cache is over its limit, an entry follows the first that may be deleted;
and when it is not, the resource that is to be kept is still there. -/
def Spares (p : Platform κ φ) (deletes : φ → Bool) (keep : Option κ) : Nat → Disk κ φ → Prop
  | 0, s => s.totalSize ≤ s.maxCache → Keeps keep s
  | fuel + 1, s =>
      if s.totalSize ≤ s.maxCache then Keeps keep s
      else
        match victim s.map with
        | .allLocked => True
        | .pastEnd => False
        | .entry id =>
            (s.deleteResource p deletes id).1 = true →
              Spares p deletes keep fuel (s.deleteResource p deletes id).2

theorem checkLimitLoop_spares {deletes : φ → Bool} {keep : Option κ} (fuel : Nat) {s : Disk κ φ}
    (spares : Spares p deletes keep fuel s) :
    ∃ under t, checkLimitLoop p deletes fuel s = some (under, t) ∧
      (under = true → Keeps keep t) := by
  induction fuel generalizing s with
  | zero => exact ⟨_, s, rfl, fun under => spares (of_decide_eq_true under)⟩
  | succ fuel ih =>
    unfold checkLimitLoop
    unfold Spares at spares
    split at spares
    · next within =>
      rw [if_pos within]
      exact ⟨true, s, rfl, fun _ => spares⟩
    · next beyond =>
      rw [if_neg beyond]
      cases chosen : victim s.map with
      | allLocked => exact ⟨false, s, rfl, fun none => by cases none⟩
      | pastEnd =>
        rw [chosen] at spares
        exact spares.elim
      | entry id =>
        rw [chosen] at spares
        dsimp only at spares ⊢
        generalize s.deleteResource p deletes id = result at spares ⊢
        obtain ⟨_ | _, u⟩ := result
        · exact ⟨false, u, rfl, fun none => by cases none⟩
        · exact ih (spares rfl)

theorem size_deleteResource (deletes : φ → Bool) (present : s.map.get id = some e)
    (deleted : (s.deleteResource p deletes id).1 = true) :
    (s.deleteResource p deletes id).2.map.size + 1 = s.map.size := by
  unfold deleteResource at deleted ⊢
  rw [present] at deleted ⊢
  dsimp only at deleted ⊢
  split at deleted
  · cases deleted
  · next idle =>
    rw [if_neg idle]
    have ones : ∀ m : OrderedMap κ Entry, m.size = m.total fun _ => 1 := fun m => by
      simp [OrderedMap.size, OrderedMap.total]
    rw [ones, ones]
    exact OrderedMap.total_erase present fun _ => 1

/-- The victim is an entry of the map. -/
theorem victim_present {map : OrderedMap κ Entry} (chosen : victim map = .entry id) :
    ∃ e, map.get id = some e := by
  have oldest : ∀ (listed : List (κ × Entry)) (o : κ × Entry), o ∈ map.entries →
      (∀ it ∈ listed, it ∈ map.entries) → oldestOf o listed ∈ map.entries := by
    intro listed
    induction listed with
    | nil => exact fun o inside _ => inside
    | cons it rest ih =>
      intro o inside all
      refine ih _ ?_ fun it listed => all it (List.mem_cons_of_mem _ listed)
      split
      · exact all it List.mem_cons_self
      · exact inside
  have inside : ∀ it ∈ map.entries.dropWhile (fun e => !e.2.idle), it ∈ map.entries :=
    fun it listed => (List.dropWhile_suffix _).subset listed
  unfold victim at chosen
  split at chosen
  · cases chosen
  · cases chosen
  · next first next rest found =>
    rw [found] at inside
    cases chosen
    have listed := oldest (first :: next :: rest) next
      (inside next (List.mem_cons_of_mem _ List.mem_cons_self)) inside
    exact ⟨_, OrderedMap.get_eq_some.mpr listed⟩

/-- One round for each entry is enough. -/
theorem checkLimitLoop_rounds (deletes : φ → Bool) (fuel : Nat) {s : Disk κ φ}
    (enough : s.map.size ≤ fuel) :
    checkLimitLoop p deletes (fuel + 1) s = checkLimitLoop p deletes fuel s := by
  induction fuel generalizing s with
  | zero =>
    have empty : s.map.entries = [] := List.length_eq_zero_iff.mp (Nat.le_zero.mp enough)
    have none : victim s.map = .allLocked := by
      unfold victim
      rw [empty]
      rfl
    unfold checkLimitLoop
    rw [none]
    split
    · next within => rw [decide_eq_true within]
    · next beyond => rw [decide_eq_false beyond]
  | succ fuel ih =>
    rw [checkLimitLoop]
    conv_rhs => rw [checkLimitLoop]
    cases chosen : victim s.map with
    | allLocked => rfl
    | pastEnd => rfl
    | entry id =>
      obtain ⟨e, present⟩ := victim_present chosen
      have shrinks := size_deleteResource (p := p) deletes present
      dsimp only
      generalize s.deleteResource p deletes id = result at shrinks ⊢
      obtain ⟨_ | _, u⟩ := result
      · rfl
      · have fewer := shrinks rfl
        dsimp only at fewer ⊢
        rw [ih (by omega)]

/-! ## Locks -/

omit [DecidableEq φ] in
/-- An entry that is created is empty, and no adapter knows it. -/
theorem createEntry_inv (inv : Inv p s) (id : κ) (now : Int) : Inv p (s.createEntry id now) := by
  unfold createEntry
  split
  · exact inv
  · next absent =>
    have none : s.holders id = [] := List.filter_eq_nil_iff.mpr fun a listed same => by
      have known := inv.known a listed
      rw [of_decide_eq_true same, absent] at known
      cases known
    refine ⟨?_, inv.bounded, ?_, inv.unwrapped, ?_, ?_⟩
    · dsimp only
      rw [OrderedMap.total_insert absent, inv.total]
      rfl
    · dsimp only
      rw [OrderedMap.total_insert absent, inv.accessors]
      rfl
    · intro other e found
      dsimp only at found
      rw [OrderedMap.get_insert] at found
      split at found
      · next same =>
        cases found
        rw [same]
        exact (Sound.created none now).frame (.refl _) fun _ _ => rfl
      · exact (inv.sound other e found).frame (.refl _) fun _ _ => rfl
    · intro a listed
      dsimp only
      rw [OrderedMap.get_insert]
      split
      · rfl
      · exact inv.known a listed

theorem checkLimitLoop_adapters (deletes : φ → Bool) (fuel : Nat) {s t : Disk κ φ} {under : Bool}
    (checked : checkLimitLoop p deletes fuel s = some (under, t)) : t.adapters = s.adapters := by
  induction fuel generalizing s with
  | zero =>
    cases checked
    rfl
  | succ fuel ih =>
    unfold checkLimitLoop at checked
    split at checked
    · cases checked
      rfl
    · split at checked
      · cases checked
        rfl
      · cases checked
      · next id chosen =>
        have kept : (s.deleteResource p deletes id).2.adapters = s.adapters := by
          unfold deleteResource
          split
          · rfl
          · split <;> rfl
        generalize s.deleteResource p deletes id = result at checked kept
        obtain ⟨_ | _, u⟩ := result
        · cases checked
          exact kept
        · exact (ih checked).trans kept

theorem lockResource_inv (inv : Inv p s) {id : κ} {now : Int} {deletes : φ → Bool}
    (spares : ∀ e, (s.createEntry id now).map.get id = some e → e.lockable = true →
      Spares p deletes (some id) (s.createEntry id now).map.size (s.createEntry id now)) :
    ∃ result t, s.lockResource p id now deletes = some (result, t) ∧ Inv p t := by
  have created := createEntry_inv inv id now
  obtain ⟨e, present⟩ := createEntry_present s id now
  have spares := spares e present
  unfold lockResource
  generalize s.createEntry id now = s at created present spares
  have writes := lockable_writes (created.sound id e present)
  dsimp only
  rw [present]
  dsimp only
  split
  · exact ⟨false, s, rfl, created⟩
  · next lockable =>
    have lockable : e.lockable = true := by simpa using lockable
    split
    · obtain ⟨under, t, checked, keeps⟩ := checkLimitLoop_spares _ (spares lockable)
      have kept := checkLimitLoop_inv deletes _ created checked
      have adapters := checkLimitLoop_adapters deletes _ checked
      unfold checkLimit
      rw [checked]
      cases under with
      | false => exact ⟨false, t, rfl, kept⟩
      | true =>
        obtain ⟨e', there⟩ := Option.isSome_iff_exists.mp (keeps rfl id rfl)
        have held : t.holders id = s.holders id := by simp only [holders, adapters]
        dsimp only
        rw [there]
        exact ⟨true, _, rfl, lock_inv kept there (held ▸ writes lockable)⟩
    · exact ⟨true, _, rfl, lock_inv created present (writes lockable)⟩

theorem checkLimit_inv (inv : Inv p s) {deletes : φ → Bool}
    (spares : Spares p deletes none s.map.size s) :
    ∃ under t, s.checkLimit p deletes = some (under, t) ∧ Inv p t := by
  obtain ⟨under, t, checked, -⟩ := checkLimitLoop_spares _ spares
  exact ⟨under, t, checked, checkLimitLoop_inv deletes _ inv checked⟩

theorem unlockResource_inv (inv : Inv p s) (present : s.map.get id = some e) {now : Int}
    {deletes : φ → Bool}
    (spares : e.lockState = .locked → e.accessors = 0 →
      Spares p deletes none (s.settle id now).map.size (s.settle id now)) :
    ∃ result t, s.unlockResource p id now deletes = some (result, t) ∧ Inv p t := by
  unfold unlockResource
  rw [present]
  dsimp only
  split
  · exact ⟨false, s, rfl, inv⟩
  · next locked =>
    have locked : e.lockState = .locked := not_not.mp locked
    split
    · refine ⟨true, _, rfl, modifyEntry_inv inv present ⟨rfl, rfl, rfl⟩ fun a held => ?_⟩
      have writes := (inv.sound id e present).mode a held
      exact iff_of_true (writes.mpr (by rw [locked]; decide)) (by simp)
    · next none =>
      have none := Nat.eq_zero_of_not_pos none
      obtain ⟨under, t, checked, kept⟩ :=
        checkLimit_inv (settle_inv inv present now none) (spares locked none)
      rw [checked]
      exact ⟨true, t, rfl, kept⟩

/-! ## Streams -/

omit [DecidableEq φ] in
theorem readResource_inv (inv : Inv p s) (present : s.map.get id = some e) (index : Nat)
    (opens : Bool) : ∃ result t, s.readResource id index opens = some (result, t) ∧ Inv p t := by
  unfold readResource
  rw [present]
  dsimp only
  split
  · exact ⟨false, s, rfl, inv⟩
  · next readable =>
    have unlocked : e.lockState = .unlocked := by
      by_contra locked
      exact readable (.inl locked)
    have sound := inv.sound id e present
    refine ⟨true, _, rfl, inv.modify present rfl
      ⟨fun other differs => holders_append_other rfl differs, fun _ _ _ _ => rfl⟩
      (sound.append rfl rfl rfl rfl ?_ sound.whole ?_ (Nat.le_refl _) ?_ ?_) rfl ?_ inv.bounded
      inv.unwrapped fun a listed => mem_adapters_append rfl listed⟩
    · rw [sound.size]
      refine Finset.sum_congr rfl fun other _ =>
        (closedSize_append_reader (a := ⟨id, index, false⟩) ?_ ?_ ?_ other).symm <;> rfl
    · simp [unlocked]
    · intro writes
      cases writes
    · intro writes
      cases writes
    · dsimp only [modifyEntry]
      omega

/-- A stream that may be opened for writing: nobody writes it yet, its index is printed
whole, and the cache counts what its file, and the files it skips, have. -/
structure Fresh (p : Platform κ φ) (s : Disk κ φ) (id : κ) (e : Entry) (index : Nat) : Prop where
  single : ⟨id, index, true⟩ ∉ s.adapters
  fits : index + 1 < 2 ^ p.bits
  whole : index < 2 ^ 32
  counted : e.streams ≤ index → s.sizeOf p (p.idToFilename id index) = 0 ∨ e.size = 0
  skipped : ∀ other, e.streams ≤ other → other < index →
    (s.files (p.idToFilename id other)).getD 0 = 0

/-- What an opened stream takes out of the entry. -/
theorem writeResource_sizes (inv : Inv p s) (present : s.map.get id = some e) {index : Nat}
    (fresh : s.Fresh p id e index)
    (adapters : t.adapters = s.adapters ++ [⟨id, index, true⟩])
    (files : t.files = Function.update s.files (p.idToFilename id index) (some 0)) :
    e.size - min (s.sizeOf p (p.idToFilename id index)) e.size =
      t.closedSizes p id (max e.streams (index + 1)) := by
  have sound := inv.sound id e present
  have here : t.closedSize p id index = 0 := by
    have listed : ⟨id, index, true⟩ ∈ t.adapters := by simp [adapters]
    rw [closedSize, if_pos listed]
  have others : ∀ other < 2 ^ 32, other ≠ index →
      t.closedSize p id other = s.closedSize p id other := fun other whole differs => by
    have writers : (⟨id, other, true⟩ ∈ t.adapters) ↔ ⟨id, other, true⟩ ∈ s.adapters := by
      simp [adapters, differs]
    have name : p.idToFilename id other ≠ p.idToFilename id index := fun same =>
      differs (p.distinct whole fresh.whole same).2
    simp only [closedSize, writers, files, Function.update_of_ne name]
  have total := inv.size_le present
  have bounded := inv.bounded
  by_cases inside : index < e.streams
  · have closed : s.closedSize p id index = (s.files (p.idToFilename id index)).getD 0 := by
      rw [closedSize, if_neg fresh.single]
    have le := closedSize_le sound inside
    have size : s.sizeOf p (p.idToFilename id index) = s.closedSize p id index := by
      rw [sizeOf, closed, Nat.mod_eq_of_lt (by omega)]
    have balance := closedSizes_update inside here fun other within =>
      others other (lt_of_lt_of_le within sound.whole)
    have counted := sound.size
    rw [Nat.max_eq_left (by omega), size, Nat.min_eq_left le]
    omega
  · have nothing : min (s.sizeOf p (p.idToFilename id index)) e.size = 0 := by
      rcases fresh.counted (by omega) with empty | empty <;> omega
    have skipped : ∀ other, e.streams ≤ other → other < index + 1 →
        t.closedSize p id other = 0 := fun other behind within => by
      by_cases same : other = index
      · rw [same, here]
      · have whole := fresh.whole
        rw [others other (by omega) same, closedSize, fresh.skipped other behind (by omega)]
        split <;> rfl
    have kept : t.closedSizes p id e.streams = s.closedSizes p id e.streams :=
      Finset.sum_congr rfl fun other member => by
        have within := Finset.mem_range.mp member
        have whole := sound.whole
        exact others other (by omega) (by omega)
    rw [nothing, Nat.max_eq_right (by omega), closedSizes_extend (by omega) skipped, kept,
      ← sound.size]
    rfl

theorem writeResource_inv (inv : Inv p s) (present : s.map.get id = some e) {index : Nat}
    {opens : Bool} (fresh : e.lockState = .locked → opens = true → s.Fresh p id e index) :
    ∃ result t, s.writeResource p id index opens = some (result, t) ∧ Inv p t := by
  unfold writeResource
  rw [present]
  dsimp only
  split
  · exact ⟨false, s, rfl, inv⟩
  · next locked =>
    split
    · exact ⟨false, s, rfl, inv⟩
    · next opened =>
      have locked : e.lockState = .locked := not_not.mp locked
      have fresh := fresh locked (not_not.mp opened)
      have sound := inv.sound id e present
      have total := inv.size_le present
      have small : min (s.sizeOf p (p.idToFilename id index)) e.size ≤ e.size := Nat.min_le_right _ _
      rw [subtractTotal_of_le (by exact small.trans total) (by exact inv.bounded),
        Nat.mod_eq_of_lt fresh.fits]
      refine ⟨true, _, rfl, inv.modify present rfl
        ⟨fun other differs => holders_append_other rfl differs, fun other differs index' whole => ?_⟩
        (sound.append rfl rfl rfl rfl (writeResource_sizes inv present fresh rfl rfl) ?_ ?_ ?_ ?_ ?_)
        ?_ ?_ ?_ inv.unwrapped fun a listed => mem_adapters_append rfl listed⟩
      · refine Function.update_of_ne (fun same => differs ?_) _ _
        exact (p.distinct whole fresh.whole same).1
      · exact Nat.max_le.mpr ⟨sound.whole, fresh.whole⟩
      · simp [locked]
      · exact Nat.le_max_left _ _
      · exact fun _ => Nat.lt_of_lt_of_le (Nat.lt_succ_self index) (Nat.le_max_right _ _)
      · exact fun _ => fresh.single
      · dsimp only [modifyEntry]
        omega
      · dsimp only [modifyEntry]
        omega
      · exact lt_of_le_of_lt (Nat.sub_le _ _) inv.bounded

/-! ## Closing -/

omit [DecidableEq φ] in
/-- An adapter leaves, and those that stay keep their order. -/
theorem holders_eraseIdx {position : Nat} {a : Adapter κ} (found : s.adapters[position]? = some a)
    (adapters : t.adapters = s.adapters.eraseIdx position) (id : κ) :
    (s.holders id).Perm (if a.id = id then a :: t.holders id else t.holders id) := by
  obtain ⟨inside, same⟩ := List.getElem?_eq_some_iff.mp found
  have perm := (List.getElem_cons_eraseIdx_perm inside).filter fun a => a.id = id
  rw [same, List.filter_cons, ← adapters] at perm
  simpa [holders] using perm.symm

omit [DecidableEq φ] in
/-- What the entry counts after an adapter has left it. -/
theorem giveBack_size (inv : Inv p s) {a : Adapter κ} (present : s.map.get a.id = some e)
    (held : (s.holders a.id).Perm (a :: t.holders a.id)) (files : t.files = s.files)
    (fits : a.writes = true →
      s.totalSize + (s.files (p.idToFilename a.id a.index)).getD 0 < 2 ^ p.bits)
    {newSize : Nat} (counted : newSize =
      if decide (e.lockState ≠ LockState.unlocked) then s.sizeOf p (p.idToFilename a.id a.index)
      else 0) :
    e.size + newSize = t.closedSizes p a.id e.streams ∧ s.totalSize + newSize < 2 ^ p.bits := by
  have sound := inv.sound a.id e present
  have total := inv.size_le present
  have bounded := inv.bounded
  have mine : a ∈ s.holders a.id := held.mem_iff.mpr List.mem_cons_self
  have mode := sound.mode a mine
  have size := sound.size
  have stays : ∀ b : Adapter κ, b ≠ a → b.id = a.id → (b ∈ t.adapters ↔ b ∈ s.adapters) := by
    intro b differs same
    have both := held.mem_iff (a := b)
    simpa [mem_holders, same, differs] using both.symm
  cases writes : a.writes with
  | true =>
    have locked := mode.mp writes
    rw [if_pos (decide_eq_true locked)] at counted
    have fits := fits writes
    have inside := sound.within a mine writes
    have itself : a = ⟨a.id, a.index, true⟩ := by rw [← writes]
    have single : a ∉ t.holders a.id := by
      have nodup := (held.filter Adapter.writes).nodup_iff.mp sound.single
      rw [List.filter_cons_of_pos writes, List.nodup_cons] at nodup
      exact fun listed => nodup.1 (List.mem_filter.mpr ⟨listed, writes⟩)
    have gone : (⟨a.id, a.index, true⟩ : Adapter κ) ∉ t.adapters := fun listed =>
      single (mem_holders.mpr ⟨itself ▸ listed, rfl⟩)
    have before : s.closedSize p a.id a.index = 0 := by
      rw [closedSize, if_pos (itself ▸ (mem_holders.mp mine).1)]
    have after : t.closedSize p a.id a.index =
        (s.files (p.idToFilename a.id a.index)).getD 0 := by
      rw [closedSize, if_neg gone, files]
    have balance := closedSizes_update (s := s) inside after fun other _ differs => by
      have other := stays ⟨a.id, other, true⟩ (fun same => differs (congrArg Adapter.index same)) rfl
      simp only [closedSize, other, files]
    rw [sizeOf, Nat.mod_eq_of_lt (by omega)] at counted
    omega
  | false =>
    have unlocked : ¬ e.lockState ≠ LockState.unlocked := fun locked => by
      rw [mode.mpr locked] at writes
      cases writes
    rw [if_neg (by simpa using unlocked)] at counted
    have same : t.closedSizes p a.id e.streams = s.closedSizes p a.id e.streams :=
      Finset.sum_congr rfl fun index _ => by
        have writer := stays ⟨a.id, index, true⟩ (fun same => by rw [← same] at writes; cases writes)
          rfl
        simp only [closedSize, writer, files]
    omega

omit [DecidableEq φ] in
theorem giveBack_inv (inv : Inv p s) {position : Nat} {a : Adapter κ}
    (found : s.adapters[position]? = some a) (present : s.map.get a.id = some e)
    (fits : a.writes = true →
      s.totalSize + (s.files (p.idToFilename a.id a.index)).getD 0 < 2 ^ p.bits) :
    Inv p ({ s with adapters := s.adapters.eraseIdx position }.giveBack p a.id a.index
      (decide (e.lockState ≠ LockState.unlocked))) := by
  have sound := inv.sound a.id e present
  change Inv p { s.giveBack p a.id a.index (decide (e.lockState ≠ LockState.unlocked)) with
    adapters := s.adapters.eraseIdx position }
  have left := fun id => holders_eraseIdx (t := { s.giveBack p a.id a.index
    (decide (e.lockState ≠ LockState.unlocked)) with adapters := s.adapters.eraseIdx position })
    found rfl id
  have held := left a.id
  rw [if_pos rfl] at held
  obtain ⟨size, bounded⟩ := giveBack_size inv present held rfl fits rfl
  have total := inv.size_le present
  have accessors := inv.accessors ▸ OrderedMap.le_total present Entry.accessors
  have count := sound.held.trans held.length_eq
  rw [List.length_cons] at count
  have whole := Nat.mod_eq_of_lt (lt_of_le_of_lt (Nat.add_le_add_right total _) bounded)
  refine inv.modify present rfl ⟨fun other differs => ?_, fun _ _ _ _ => rfl⟩
    ⟨?_, ?_, sound.whole, fun b listed => ?_, fun b listed => ?_, ?_⟩ ?_ ?_ ?_ inv.unwrapped ?_
  · have perm := left other
    rw [if_neg (Ne.symm differs)] at perm
    exact perm.symm
  · dsimp only
    rw [← size, whole]
  · exact Nat.sub_eq_of_eq_add count
  · exact sound.mode b (held.mem_iff.mpr (List.mem_cons_of_mem _ listed))
  · exact sound.within b (held.mem_iff.mpr (List.mem_cons_of_mem _ listed))
  · have nodup := (held.filter Adapter.writes).nodup_iff.mp sound.single
    exact nodup.sublist ((List.sublist_cons_self _ _).filter _)
  · dsimp only [giveBack, modifyEntry]
    rw [whole, Nat.mod_eq_of_lt bounded]
    omega
  · dsimp only [giveBack, modifyEntry]
    omega
  · exact Nat.mod_lt _ (Nat.two_pow_pos _)
  · exact fun b listed => .inl (List.mem_of_mem_eraseIdx listed)

/-- The state in which a destroyed adapter leaves the cache, before the limit is checked. -/
def released (p : Platform κ φ) (s : Disk κ φ) (position : Nat) (a : Adapter κ) (e : Entry) :
    Disk κ φ :=
  { s with adapters := s.adapters.eraseIdx position }.giveBack p a.id a.index
    (decide (e.lockState ≠ LockState.unlocked))

/-- What an adapter that is destroyed must find: its file fits the cache, and where it was the
last of a resource that is being unlocked, the cache can be brought to its limit. -/
structure Closes (p : Platform κ φ) (s : Disk κ φ) (position : Nat) (now : Int)
    (deletes : φ → Bool) (a : Adapter κ) (e : Entry) : Prop where
  fits : a.writes = true →
    s.totalSize + (s.files (p.idToFilename a.id a.index)).getD 0 < 2 ^ p.bits
  spares : e.lockState = .unlocking → e.accessors = 1 →
    Spares p deletes none ((s.released p position a e).settle a.id now).map.size
      ((s.released p position a e).settle a.id now)

theorem releaseResource_inv (inv : Inv p s) {position : Nat} {a : Adapter κ} {now : Int}
    {deletes : φ → Bool} (found : s.adapters[position]? = some a)
    (present : s.map.get a.id = some e) (closes : s.Closes p position now deletes a e) :
    ∃ t, { s with adapters := s.adapters.eraseIdx position }.releaseResource p a.id a.index now
      deletes = some t ∧ Inv p t := by
  have left : Inv p (s.released p position a e) := giveBack_inv inv found present closes.fits
  have entry : (s.released p position a e).map.get a.id =
      some { e with
        accessors := e.accessors - 1
        size := (e.size + if decide (e.lockState ≠ LockState.unlocked) then
          s.sizeOf p (p.idToFilename a.id a.index) else 0) % 2 ^ p.bits } := by
    simp only [released, giveBack, modifyEntry, OrderedMap.get_modify, if_true, present,
      Option.map_some]
    rfl
  unfold releaseResource
  dsimp only
  rw [present]
  dsimp only
  split
  · next last =>
    obtain ⟨under, t, checked, kept⟩ := checkLimit_inv
      (settle_inv left entry now (by dsimp only; omega)) (closes.spares last.1 last.2)
    refine ⟨t, ?_, kept⟩
    change (checkLimit p ((s.released p position a e).settle a.id now) deletes).map Prod.snd = some t
    rw [checked]
    rfl
  · exact ⟨_, rfl, left⟩

/-- What is written into an open file does not count yet. -/
theorem put_inv (inv : Inv p s) {index size : Nat} (open_ : ⟨id, index, true⟩ ∈ s.adapters) :
    Inv p { s with files := Function.update s.files (p.idToFilename id index) (some size) } := by
  obtain ⟨e, present⟩ := Option.isSome_iff_exists.mp (inv.known _ open_)
  have sound := inv.sound id e present
  have inside := sound.within _ (mem_holders.mpr ⟨open_, rfl⟩) rfl
  refine ⟨inv.total, inv.bounded, inv.accessors, inv.unwrapped, fun other e' found => ?_, inv.known⟩
  have kept := inv.sound other e' found
  refine ⟨?_, kept.held, kept.whole, kept.mode, kept.within, kept.single⟩
  rw [kept.size]
  refine Finset.sum_congr rfl fun index' member => ?_
  have inside' := Finset.mem_range.mp member
  simp only [closedSize]
  split
  · rfl
  · next closed =>
    rw [Function.update_of_ne]
    intro same
    obtain ⟨rfl, rfl⟩ := p.distinct (lt_of_lt_of_le inside' kept.whole)
      (lt_of_lt_of_le inside sound.whole) same
    exact closed open_

omit [DecidableEq φ] in
/-- A cache without accessors has no adapters. -/
theorem adapters_nil (inv : Inv p s) (none : s.totalAccessors = 0) : s.adapters = [] := by
  rw [List.eq_nil_iff_forall_not_mem]
  intro a listed
  obtain ⟨e, present⟩ := Option.isSome_iff_exists.mp (inv.known a listed)
  have count := OrderedMap.le_total present Entry.accessors
  rw [← inv.accessors, none, (inv.sound a.id e present).held] at count
  have empty := List.length_eq_zero_iff.mp (Nat.le_zero.mp count)
  have held : a ∈ s.holders a.id := mem_holders.mpr ⟨listed, rfl⟩
  rw [empty] at held
  cases held

/-- What `PurgeFiles` must find and do: it succeeds on a cache that counts nothing, and where
it fails it has removed nothing that counts. -/
def Purges (p : Platform κ φ) (s : Disk κ φ) (removes : φ → Bool) (succeeds : Bool) : Prop :=
  s.initialized = true → s.totalAccessors = 0 →
    if succeeds then s.totalSize = 0
    else ∀ id e, s.map.get id = some e → ∀ index < e.streams,
      removes (p.idToFilename id index) = true →
        (s.files (p.idToFilename id index)).getD 0 = 0

omit [DecidableEq φ] in
theorem purge_inv (inv : Inv p s) {removes : φ → Bool} {succeeds : Bool}
    (purges : s.Purges p removes succeeds) :
    Inv p (s.purge removes succeeds).2 ∧
      ((s.purge removes succeeds).1 = true → (s.purge removes succeeds).2.totalSize = 0) := by
  unfold purge
  split
  · exact ⟨inv, fun failed => by cases failed⟩
  · next initialized =>
    split
    · exact ⟨inv, fun failed => by cases failed⟩
    · next none =>
      have none := Nat.eq_zero_of_not_pos none
      have purges := purges (not_not.mp initialized) none
      cases succeeds with
      | true =>
        have empty := adapters_nil inv none
        refine ⟨⟨?_, inv.bounded, ?_, inv.unwrapped, ?_, ?_⟩, fun _ => purges⟩
        · exact purges
        · exact none
        · intro id e found
          cases found
        · intro a listed
          change a ∈ s.adapters at listed
          rw [empty] at listed
          cases listed
      | false =>
        refine ⟨⟨inv.total, inv.bounded, inv.accessors, inv.unwrapped, fun id e found => ?_,
          inv.known⟩, fun failed => by cases failed⟩
        have kept := inv.sound id e found
        refine ⟨?_, kept.held, kept.whole, kept.mode, kept.within, kept.single⟩
        rw [kept.size]
        refine Finset.sum_congr rfl fun index member => ?_
        change _ = if ⟨id, index, true⟩ ∈ s.adapters then 0 else
          (if removes (p.idToFilename id index) = true then Option.none
            else s.files (p.idToFilename id index)).getD 0
        have within := Finset.mem_range.mp member
        cases removed : removes (p.idToFilename id index) with
        | true => simp [closedSize, purges id e found index within removed]
        | false => simp [closedSize]

/-! ## Runs -/

/-- The condition on a call. The resource exists, except where it is locked or deleted, and
nothing happens that the cache miscounts. -/
def Counted (p : Platform κ φ) (s : Disk κ φ) : Call κ φ → Prop
  | .lockResource id now deletes => ∀ e, (s.createEntry id now).map.get id = some e →
      e.lockable = true →
      Spares p deletes (some id) (s.createEntry id now).map.size (s.createEntry id now)
  | .writeResource id index opens => ∃ e, s.map.get id = some e ∧
      (e.lockState = .locked → opens = true → s.Fresh p id e index)
  | .unlockResource id now deletes => ∃ e, s.map.get id = some e ∧
      (e.lockState = .locked → e.accessors = 0 →
        Spares p deletes none (s.settle id now).map.size (s.settle id now))
  | .readResource id _ _ => ∃ e, s.map.get id = some e
  | .purge removes succeeds => s.Purges p removes succeeds
  | .release position now deletes => ∀ a e, s.adapters[position]? = some a →
      s.map.get a.id = some e → s.Closes p position now deletes a e
  | .deleteResource _ _ | .put _ _ => True

/-- The states that a cache comes to through calls that all satisfy `Ok`. -/
inductive Runs (p : Platform κ φ) (Ok : Disk κ φ → Call κ φ → Prop) (s : Disk κ φ) :
    Disk κ φ → Prop where
  | start : Runs p Ok s s
  | step {t u : Disk κ φ} {c : Call κ φ} {result : Bool} (run : Runs p Ok s t) (ok : Ok t c)
      (made : t.call p c = some (result, u)) : Runs p Ok s u

/-- A cache whose folder was read: no resource is in use, and the sizes are those of the
files. -/
structure Initialized (p : Platform κ φ) (s : Disk κ φ) : Prop where
  adapters : s.adapters = []
  idle : ∀ id e, s.map.get id = some e → e.idle = true
  sizes : ∀ id e, s.map.get id = some e → e.size = s.closedSizes p id e.streams
  whole : ∀ id e, s.map.get id = some e → e.streams ≤ 2 ^ 32
  total : s.totalSize = s.map.total Entry.size
  bounded : s.totalSize < 2 ^ p.bits
  accessors : s.totalAccessors = 0
  unwrapped : s.wrapped = false

omit [DecidableEq φ] in
theorem Initialized.inv (initialized : s.Initialized p) : Inv p s where
  total := initialized.total
  bounded := initialized.bounded
  accessors := by
    have none : ∀ e ∈ s.map.entries, e.2.accessors = 0 := fun e listed =>
      ((idle_iff e.2).mp (initialized.idle e.1 e.2 (OrderedMap.get_eq_some.mpr listed))).2
    rw [initialized.accessors, OrderedMap.total, eq_comm, List.sum_eq_zero]
    intro count listed
    obtain ⟨e, inside, rfl⟩ := List.mem_map.mp listed
    exact none e inside
  unwrapped := initialized.unwrapped
  sound := fun id e present => by
    have empty : s.holders id = [] := by simp [holders, initialized.adapters]
    have idle := (idle_iff e).mp (initialized.idle id e present)
    exact ⟨initialized.sizes id e present, idle.2.trans (congrArg List.length empty).symm,
      initialized.whole id e present, by simp [empty], by simp [empty], by simp [empty]⟩
  known := by simp [initialized.adapters]

theorem call_inv (inv : Inv p s) {c : Call κ φ} (counted : s.Counted p c) :
    ∃ result t, s.call p c = some (result, t) ∧ Inv p t ∧
      (∀ removes succeeds, c = .purge removes succeeds → result = true → t.totalSize = 0) := by
  cases c with
  | lockResource id now deletes =>
    obtain ⟨result, t, made, kept⟩ := lockResource_inv inv counted
    exact ⟨result, t, made, kept, fun _ _ other => by cases other⟩
  | writeResource id index opens =>
    obtain ⟨e, present, fresh⟩ := counted
    obtain ⟨result, t, made, kept⟩ := writeResource_inv inv present fresh
    exact ⟨result, t, made, kept, fun _ _ other => by cases other⟩
  | unlockResource id now deletes =>
    obtain ⟨e, present, spares⟩ := counted
    obtain ⟨result, t, made, kept⟩ := unlockResource_inv inv present spares
    exact ⟨result, t, made, kept, fun _ _ other => by cases other⟩
  | readResource id index opens =>
    obtain ⟨e, present⟩ := counted
    obtain ⟨result, t, made, kept⟩ := readResource_inv inv present index opens
    exact ⟨result, t, made, kept, fun _ _ other => by cases other⟩
  | deleteResource id deletes =>
    exact ⟨_, _, rfl, deleteResource_inv inv deletes id, fun _ _ other => by cases other⟩
  | purge removes succeeds =>
    obtain ⟨kept, none⟩ := purge_inv inv counted
    exact ⟨_, _, rfl, kept, fun _ _ _ => none⟩
  | put position size =>
    unfold call
    dsimp only
    split
    · next id index found =>
      exact ⟨true, _, rfl, put_inv inv (List.mem_of_getElem? found), fun _ _ other => by cases other⟩
    · exact ⟨false, s, rfl, inv, fun _ _ other => by cases other⟩
  | release position now deletes =>
    unfold call
    dsimp only
    split
    · exact ⟨false, s, rfl, inv, fun _ _ other => by cases other⟩
    · next id index writes found =>
      have listed := List.mem_of_getElem? found
      obtain ⟨e, present⟩ := Option.isSome_iff_exists.mp (inv.known _ listed)
      obtain ⟨t, made, kept⟩ :=
        releaseResource_inv inv found present (counted _ e found present)
      dsimp only at made
      rw [made]
      exact ⟨true, t, rfl, kept, fun _ _ other => by cases other⟩

/-- An empty folder, and a limit of a hundred bytes. -/
private def emptied : Disk (List Byte) (List Byte) where
  initialized := true
  maxCache := 100
  totalSize := 0
  map := .empty
  totalAccessors := 0
  adapters := []
  files := fun _ => none
  wrapped := false

private theorem emptied_initialized : emptied.Initialized (.named 32) where
  adapters := rfl
  idle := fun id e found => by cases found
  sizes := fun id e found => by cases found
  whole := fun id e found => by cases found
  total := rfl
  bounded := by decide
  accessors := rfl
  unwrapped := rfl

/-- The calls are made on resources that exist. -/
def Existing (s : Disk κ φ) : Call κ φ → Prop
  | .writeResource id _ _ | .unlockResource id _ _ | .readResource id _ _ =>
      (s.map.get id).isSome
  | _ => True

instance (s : Disk κ φ) (c : Call κ φ) : Decidable (s.Existing c) := by
  cases c <;> unfold Existing <;> infer_instance

/-- Calls one after another, as long as each is made on a resource that exists. -/
private def follow (p : Platform κ φ) (s : Disk κ φ) : List (Call κ φ) → Option (Disk κ φ)
  | [] => some s
  | c :: rest =>
      if s.Existing c then (s.call p c).bind fun answer => follow p answer.2 rest else none

private theorem follow_runs {first : Disk κ φ} {calls : List (Call κ φ)}
    (run : Runs p Existing first s) (followed : follow p s calls = some t) :
    Runs p Existing first t := by
  induction calls generalizing s with
  | nil =>
    cases followed
    exact run
  | cons c rest ih =>
    simp only [follow] at followed
    split at followed
    · next existing =>
      obtain ⟨⟨result, u⟩, made, later⟩ := Option.bind_eq_some_iff.mp followed
      exact ih (run.step existing made) later
    · cases followed

/-- Ten bytes are written to a resource, and it is unlocked. -/
private def written (id : List Byte) : List (Call (List Byte) (List Byte)) :=
  [.lockResource id 0 fun _ => true, .writeResource id 0 true, .put 0 10,
    .release 0 0 fun _ => true, .unlockResource id 0 fun _ => true]

end Disk

end Libjingle.Base

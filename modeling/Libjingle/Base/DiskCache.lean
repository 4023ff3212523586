import Libjingle.Base.CacheFiles
import Libjingle.Std.OrderedMap
import Mathlib.Data.List.Lex
import Mathlib.Logic.Function.Basic

/-!
# The disk cache

`DiskCache` of `talk/base/diskcache.cc` keeps the streams of a resource in files, one for
each index, and counts the bytes of the files that are not open for writing. A stream is
handed out as an adapter, which gives its accessor back when it is destroyed.

`Disk` is a cache with the files, and with the adapters that are out. What the file system
and the clock answer comes with each call.
-/

namespace Libjingle.Base

open Libjingle.Std

/-! ## The cache -/

inductive LockState where
  | unlocked
  | locked
  | unlocking
  deriving DecidableEq, Repr

structure Entry where
  lockState : LockState
  accessors : Nat
  size : Nat
  streams : Nat
  lastModified : Int
  deriving DecidableEq, Repr

namespace Entry

/-- The entry may be deleted. -/
def idle (e : Entry) : Bool :=
  e.lockState = .unlocked ∧ e.accessors = 0

/-- `LockResource` gets as far as the limit. -/
def lockable (e : Entry) : Bool :=
  e.lockState = .unlocking ∨ e.idle

end Entry

structure DiskCache (κ : Type) [LinearOrder κ] where
  /-- There is a folder. -/
  initialized : Bool
  maxCache : Nat
  totalSize : Nat
  map : OrderedMap κ Entry
  totalAccessors : Nat

/-- A `DiskCacheAdapter`, over a file that is open for writing or for reading. -/
structure Adapter (κ : Type) where
  id : κ
  index : Nat
  writes : Bool
  deriving DecidableEq, Repr

structure Disk (κ φ : Type) [LinearOrder κ] extends DiskCache κ where
  adapters : List (Adapter κ)
  /-- The sizes of the files. -/
  files : φ → Option Nat
  /-- Whether a subtraction of sizes has ever wrapped. -/
  wrapped : Bool

variable {κ φ : Type} [LinearOrder κ] [DecidableEq φ]

namespace Disk

/-- `GetOrCreateEntry` for a resource that is going to be locked. -/
def createEntry (s : Disk κ φ) (id : κ) (now : Int) : Disk κ φ :=
  match s.map.get id with
  | some _ => s
  | none => { s with map := s.map.insert id ⟨.unlocked, 0, 0, 0, now⟩ }

def modifyEntry (s : Disk κ φ) (id : κ) (change : Entry → Entry) : Disk κ φ :=
  { s with map := s.map.modify id change }

/-- `total_size_ -= size`. -/
def subtractTotal (p : Platform κ φ) (s : Disk κ φ) (size : Nat) : Disk κ φ :=
  { s with
    totalSize := (s.totalSize + (2 ^ p.bits - size)) % 2 ^ p.bits
    wrapped := s.wrapped || decide (s.totalSize < size) }

/-! ## Deletion -/

/-- The loop of `DeleteResource` over the files that exist: whether all were deleted, and what
is left. -/
def deleteFiles (deletes : φ → Bool) : List φ → (φ → Option Nat) → Bool × (φ → Option Nat)
  | [], files => (true, files)
  | name :: rest, files =>
      if (files name).isNone then deleteFiles deletes rest files
      else if deletes name then deleteFiles deletes rest (Function.update files name none)
      else (false, (deleteFiles deletes rest files).2)

def filenames (p : Platform κ φ) (id : κ) (streams : Nat) : List φ :=
  (List.range streams).map (p.idToFilename id)

def deleteResource (p : Platform κ φ) (s : Disk κ φ) (deletes : φ → Bool) (id : κ) :
    Bool × Disk κ φ :=
  match s.map.get id with
  | none => (true, s)
  | some e =>
      if ¬ e.idle then (false, s)
      else
        let deleted := deleteFiles deletes (filenames p id e.streams) s.files
        let s := s.subtractTotal p e.size
        (deleted.1, { s with map := s.map.erase id, files := deleted.2 })

/-- What `CheckLimit` comes to in a round. -/
inductive Victim (κ : Type) where
  | allLocked
  /-- The last entry is compared with the one behind it. -/
  | pastEnd
  | entry (id : κ)
  deriving DecidableEq, Repr

/-- The loop over the entries from the first that may be deleted. -/
def oldestOf (oldest : κ × Entry) : List (κ × Entry) → κ × Entry
  | [] => oldest
  | it :: rest => oldestOf (if it.2.lastModified < oldest.2.lastModified then it else oldest) rest

/-- `it = oldest++`: the search starts at the first entry that may be deleted, with the
next one as the oldest. -/
def victim (map : OrderedMap κ Entry) : Victim κ :=
  match map.entries.dropWhile fun e => !e.2.idle with
  | [] => .allLocked
  | [_] => .pastEnd
  | first :: next :: rest => .entry (oldestOf next (first :: next :: rest)).1

/-- The rounds of `CheckLimit`: nothing where it reads behind the end of the map. Each
round but the last deletes an entry. -/
def checkLimitLoop (p : Platform κ φ) (deletes : φ → Bool) :
    Nat → Disk κ φ → Option (Bool × Disk κ φ)
  | 0, s => some (decide (s.totalSize ≤ s.maxCache), s)
  | fuel + 1, s =>
      if s.totalSize ≤ s.maxCache then some (true, s)
      else
        match victim s.map with
        | .allLocked => some (false, s)
        | .pastEnd => none
        | .entry id =>
            match s.deleteResource p deletes id with
            | (false, s) => some (false, s)
            | (true, s) => checkLimitLoop p deletes fuel s

def checkLimit (p : Platform κ φ) (s : Disk κ φ) (deletes : φ → Bool) :
    Option (Bool × Disk κ φ) :=
  checkLimitLoop p deletes s.map.size s

/-! ## The calls

Nothing is returned where a call reads what is not there. -/

def lockResource (p : Platform κ φ) (s : Disk κ φ) (id : κ) (now : Int) (deletes : φ → Bool) :
    Option (Bool × Disk κ φ) :=
  let s := s.createEntry id now
  match s.map.get id with
  | none => none
  | some e =>
      if ¬ e.lockable then some (false, s)
      else
        let lock (s : Disk κ φ) := s.modifyEntry id fun e => { e with lockState := .locked }
        if s.maxCache < s.totalSize then
          match s.checkLimit p deletes with
          | none => none
          | some (false, s) => some (false, s)
          -- The entry is a pointer from before.
          | some (true, s) => if (s.map.get id).isNone then none else some (true, lock s)
        else some (true, lock s)

/-- The size of a file as `GetSize` reports it. -/
def sizeOf (p : Platform κ φ) (s : Disk κ φ) (name : φ) : Nat :=
  (s.files name).getD 0 % 2 ^ p.bits

def writeResource (p : Platform κ φ) (s : Disk κ φ) (id : κ) (index : Nat) (opens : Bool) :
    Option (Bool × Disk κ φ) :=
  match s.map.get id with
  | none => none
  | some e =>
      if e.lockState ≠ .locked then some (false, s)
      else
        let name := p.idToFilename id index
        let previousSize := min (s.sizeOf p name) e.size
        if ¬ opens then some (false, s)
        else
          let s := s.modifyEntry id fun e =>
            { e with
              streams := max e.streams ((index + 1) % 2 ^ p.bits)
              size := e.size - previousSize
              accessors := e.accessors + 1 }
          let s := s.subtractTotal p previousSize
          some (true,
            { s with
              totalAccessors := s.totalAccessors + 1
              files := Function.update s.files name (some 0)
              adapters := s.adapters ++ [⟨id, index, true⟩] })

/-- The lock is gone for good. -/
def settle (s : Disk κ φ) (id : κ) (now : Int) : Disk κ φ :=
  s.modifyEntry id fun e => { e with lockState := .unlocked, lastModified := now }

def unlockResource (p : Platform κ φ) (s : Disk κ φ) (id : κ) (now : Int) (deletes : φ → Bool) :
    Option (Bool × Disk κ φ) :=
  match s.map.get id with
  | none => none
  | some e =>
      if e.lockState ≠ .locked then some (false, s)
      else if 0 < e.accessors then
        some (true, s.modifyEntry id fun e => { e with lockState := .unlocking })
      else
        ((s.settle id now).checkLimit p deletes).map fun checked => (true, checked.2)

def readResource (s : Disk κ φ) (id : κ) (index : Nat) (opens : Bool) :
    Option (Bool × Disk κ φ) :=
  match s.map.get id with
  | none => none
  | some e =>
      if e.lockState ≠ .unlocked ∨ e.streams ≤ index ∨ ¬ opens then some (false, s)
      else
        let s := s.modifyEntry id fun e => { e with accessors := e.accessors + 1 }
        some (true,
          { s with
            totalAccessors := s.totalAccessors + 1
            adapters := s.adapters ++ [⟨id, index, false⟩] })

/-- An accessor is given back, and what it wrote is counted. -/
def giveBack (p : Platform κ φ) (s : Disk κ φ) (id : κ) (index : Nat) (counts : Bool) :
    Disk κ φ :=
  let newSize := if counts then s.sizeOf p (p.idToFilename id index) else 0
  let s := s.modifyEntry id fun e =>
    { e with accessors := e.accessors - 1, size := (e.size + newSize) % 2 ^ p.bits }
  { s with
    totalAccessors := s.totalAccessors - 1
    totalSize := (s.totalSize + newSize) % 2 ^ p.bits }

/-- `ReleaseResource`, when the adapter is closed. Only a locked resource was written. -/
def releaseResource (p : Platform κ φ) (s : Disk κ φ) (id : κ) (index : Nat) (now : Int)
    (deletes : φ → Bool) : Option (Disk κ φ) :=
  match s.map.get id with
  | none => none
  | some e =>
      let s := s.giveBack p id index (e.lockState ≠ .unlocked)
      -- This was the last accessor of a resource that is being unlocked.
      if e.lockState = .unlocking ∧ e.accessors = 1 then
        ((s.settle id now).checkLimit p deletes).map Prod.snd
      else some s

/-- `Purge`, when `PurgeFiles` removes some files and then succeeds or fails. -/
def purge (s : Disk κ φ) (removes : φ → Bool) (succeeds : Bool) : Bool × Disk κ φ :=
  if ¬ s.initialized then (false, s)
  else if 0 < s.totalAccessors then (false, s)
  else
    let s := { s with files := fun name => if removes name then none else s.files name }
    if ¬ succeeds then (false, s)
    else (true, { s with map := .empty })

/-- What happens to a cache and its files. -/
inductive Call (κ φ : Type) where
  | lockResource (id : κ) (now : Int) (deletes : φ → Bool)
  | writeResource (id : κ) (index : Nat) (opens : Bool)
  | unlockResource (id : κ) (now : Int) (deletes : φ → Bool)
  | readResource (id : κ) (index : Nat) (opens : Bool)
  | deleteResource (id : κ) (deletes : φ → Bool)
  | purge (removes : φ → Bool) (succeeds : Bool)
  /-- The user of an adapter writes, and the file has a size. -/
  | put (adapter : Nat) (size : Nat)
  /-- An adapter is destroyed. -/
  | release (adapter : Nat) (now : Int) (deletes : φ → Bool)

def call (p : Platform κ φ) (s : Disk κ φ) : Call κ φ → Option (Bool × Disk κ φ)
  | .lockResource id now deletes => s.lockResource p id now deletes
  | .writeResource id index opens => s.writeResource p id index opens
  | .unlockResource id now deletes => s.unlockResource p id now deletes
  | .readResource id index opens => s.readResource id index opens
  | .deleteResource id deletes => some (s.deleteResource p deletes id)
  | .purge removes succeeds => some (s.purge removes succeeds)
  | .put adapter size =>
      match s.adapters[adapter]? with
      | some ⟨id, index, true⟩ =>
          some (true,
            { s with files := Function.update s.files (p.idToFilename id index) (some size) })
      | _ => some (false, s)
  | .release adapter now deletes =>
      match s.adapters[adapter]? with
      | none => some (false, s)
      | some ⟨id, index, _⟩ =>
          ({ s with adapters := s.adapters.eraseIdx adapter }.releaseResource p id index now
            deletes).map fun s => (true, s)

end Disk

end Libjingle.Base

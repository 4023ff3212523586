import Mathlib.Algebra.Order.Ring.Nat
import Mathlib.Data.List.Basic

/-!
# Reading from a growing buffer

A reader takes one item after another from the front of the symbols that have
arrived, and waits when they do not hold a whole item. What it takes does not
depend on the symbols behind the item, so the items of a stream are the same for
every way in which the stream arrives.
-/

namespace Libjingle.Std

variable {σ α ω : Type}

/-- One item at a time, in a state. More symbols never change an item that was
already there, and every item has at least one symbol. -/
structure Reader (σ α ω : Type) where
  read : σ → List α → Option (ω × σ × List α)
  more : ∀ {s buf item t rest}, read s buf = some (item, t, rest) →
    ∀ tail, read s (buf ++ tail) = some (item, t, rest ++ tail)
  takes : ∀ {s buf item t rest}, read s buf = some (item, t, rest) →
    ∃ eaten, eaten ≠ [] ∧ buf = eaten ++ rest

namespace Reader

/-- A reader gets from a state and a buffer through some items to another state
and what is left of the buffer. -/
inductive Reads (reader : Reader σ α ω) : σ → List α → List ω → σ → List α → Prop
  | refl (s : σ) (buf : List α) : Reads reader s buf [] s buf
  | step {s t u : σ} {buf mid rest : List α} {item : ω} {items : List ω}
      (first : reader.read s buf = some (item, t, mid))
      (others : Reads reader t mid items u rest) : Reads reader s buf (item :: items) u rest

variable {reader : Reader σ α ω} {s t u : σ} {buf mid rest : List α} {items later : List ω}

namespace Reads

theorem one {item : ω} (first : reader.read s buf = some (item, t, rest)) :
    Reads reader s buf [item] t rest :=
  .step first (.refl t rest)

theorem trans (reads : Reads reader s buf items t mid) (next : Reads reader t mid later u rest) :
    Reads reader s buf (items ++ later) u rest := by
  induction reads with
  | refl s buf => exact next
  | step first others ih => exact .step first (ih next)

/-- Symbols behind the buffer stay where they are. -/
theorem more (reads : Reads reader s buf items t rest) (tail : List α) :
    Reads reader s (buf ++ tail) items t (rest ++ tail) := by
  induction reads with
  | refl s buf => exact .refl s _
  | step first others ih => exact .step (reader.more first tail) ih

/-- What was read is a front part of the buffer. -/
theorem takes (reads : Reads reader s buf items t rest) : ∃ eaten, buf = eaten ++ rest := by
  induction reads with
  | refl s buf => exact ⟨[], rfl⟩
  | step first others ih =>
    obtain ⟨item, -, rfl⟩ := reader.takes first
    obtain ⟨eaten, rfl⟩ := ih
    exact ⟨item ++ eaten, by rw [List.append_assoc]⟩

/-- A reader that has stopped for lack of symbols has read whatever another run over
the same buffer has read, and the other run can still catch up. -/
theorem catch_up {final : σ} {left : List α} {all : List ω}
    (reads : Reads reader s buf items t rest) (full : Reads reader s buf all final left)
    (stuck : reader.read final left = none) :
    ∃ missing, all = items ++ missing ∧ Reads reader t rest missing final left := by
  induction reads generalizing all with
  | refl s buf => exact ⟨all, rfl, full⟩
  | step first others ih =>
    cases full with
    | refl => rw [stuck] at first; cases first
    | step first' others' =>
      rw [first] at first'
      cases first'
      obtain ⟨missing, rfl, catches⟩ := ih others'
      exact ⟨missing, rfl, catches⟩

/-- Two runs over the same buffer that both have stopped agree. -/
theorem unique {final : σ} {left : List α} {all : List ω}
    (reads : Reads reader s buf items t rest) (waiting : reader.read t rest = none)
    (full : Reads reader s buf all final left) (stuck : reader.read final left = none) :
    items = all ∧ t = final ∧ rest = left := by
  obtain ⟨missing, rfl, catches⟩ := reads.catch_up full stuck
  cases catches with
  | refl => exact ⟨(List.append_nil _).symm, rfl, rfl⟩
  | step first others => rw [waiting] at first; cases first

end Reads

/-! ## Reading all there is -/

/-- Every item of the buffer, for a buffer of at most `fuel` symbols. -/
def drain (reader : Reader σ α ω) : Nat → σ → List α → List ω × σ × List α
  | 0, s, buf => ([], s, buf)
  | fuel + 1, s, buf =>
    match reader.read s buf with
    | none => ([], s, buf)
    | some (item, t, rest) =>
      let (items, last) := drain reader fuel t rest
      (item :: items, last)

theorem drain_reads (reader : Reader σ α ω) (fuel : Nat) (s : σ) (buf : List α) :
    Reads reader s buf (reader.drain fuel s buf).1 (reader.drain fuel s buf).2.1
      (reader.drain fuel s buf).2.2 := by
  induction fuel generalizing s buf with
  | zero => exact .refl s buf
  | succ fuel ih =>
    rw [drain]
    split
    · exact .refl s buf
    · next first => exact .step first (ih _ _)

theorem drain_stuck (reader : Reader σ α ω) {fuel : Nat} {s : σ} {buf : List α}
    (enough : buf.length ≤ fuel) :
    reader.read (reader.drain fuel s buf).2.1 (reader.drain fuel s buf).2.2 = none := by
  induction fuel generalizing s buf with
  | zero =>
    obtain rfl : buf = [] := List.eq_nil_of_length_eq_zero (Nat.le_zero.mp enough)
    cases found : reader.read s [] with
    | none => exact found
    | some item =>
      obtain ⟨eaten, nonempty, nothing⟩ := reader.takes found
      exact absurd (List.append_eq_nil_iff.mp nothing.symm).1 nonempty
  | succ fuel ih =>
    rw [drain]
    split
    · next waiting => exact waiting
    · next item t rest first =>
      obtain ⟨eaten, nonempty, rfl⟩ := reader.takes first
      have positive := List.length_pos_iff.mpr nonempty
      rw [List.length_append] at enough
      exact ih (by omega)

end Reader

end Libjingle.Std

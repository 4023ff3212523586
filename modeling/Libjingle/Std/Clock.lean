import Mathlib.Algebra.Order.Ring.Nat
import Mathlib.Data.Nat.Notation

/-!
# A clock of 32 bits

A clock counts the time since some start and shows its last 32 bits. Where two times lie in the
same round of the clock, what it shows compares as the times do.
-/

namespace Libjingle.Std

/-- What the clock shows at a time. -/
def reading (time : Nat) : UInt32 :=
  UInt32.ofNat time

/-- Two times between which the clock does not wrap. -/
def SameRound (a b : Nat) : Prop :=
  a / 2 ^ 32 = b / 2 ^ 32

instance (a b : Nat) : Decidable (SameRound a b) :=
  inferInstanceAs (Decidable (_ = _))

theorem toNat_reading (time : Nat) : (reading time).toNat = time % 2 ^ 32 :=
  UInt32.toNat_ofNat'

theorem reading_add (time : Nat) (delay : UInt32) :
    reading time + delay = reading (time + delay.toNat) := by
  rw [← UInt32.toNat_inj, UInt32.toNat_add, toNat_reading, toNat_reading, Nat.mod_add_mod]

theorem reading_le_iff {a b : Nat} (same : SameRound a b) : reading a ≤ reading b ↔ a ≤ b := by
  unfold SameRound at same
  rw [UInt32.le_iff_toNat_le, toNat_reading, toNat_reading]
  omega

theorem reading_lt_iff {a b : Nat} (same : SameRound a b) : reading a < reading b ↔ a < b := by
  unfold SameRound at same
  rw [UInt32.lt_iff_toNat_lt, toNat_reading, toNat_reading]
  omega

end Libjingle.Std

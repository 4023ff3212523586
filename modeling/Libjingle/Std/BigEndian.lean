import Mathlib.Algebra.Order.Ring.Nat
import Mathlib.Tactic.Common
import Mathlib.Tactic.Ring

/-!
# Big-endian numbers

Numbers as lists of bytes, the most significant byte first. What is written comes
back modulo the width, and every list of bytes is the number it stands for.
-/

namespace Libjingle.Std.BigEndian

/-- The last `count` bytes of a number. -/
def toBytes : Nat → Nat → List UInt8
  | 0, _ => []
  | count + 1, value => UInt8.ofNat (value / 256 ^ count) :: toBytes count value

def ofBytes : List UInt8 → Nat
  | [] => 0
  | byte :: rest => byte.toNat * 256 ^ rest.length + ofBytes rest

@[simp] theorem length_toBytes (count value : Nat) : (toBytes count value).length = count := by
  induction count with
  | zero => rfl
  | succ count ih => simp [toBytes, ih]

theorem ofBytes_lt (bytes : List UInt8) : ofBytes bytes < 256 ^ bytes.length := by
  induction bytes with
  | nil => simp [ofBytes]
  | cons byte rest ih =>
    have byte_lt : byte.toNat < 256 := byte.toNat_lt
    calc byte.toNat * 256 ^ rest.length + ofBytes rest
        < byte.toNat * 256 ^ rest.length + 256 ^ rest.length := by omega
      _ = (byte.toNat + 1) * 256 ^ rest.length := by ring
      _ ≤ 256 * 256 ^ rest.length := Nat.mul_le_mul_right _ byte_lt
      _ = 256 ^ (byte :: rest).length := by rw [List.length_cons]; ring

theorem ofBytes_toBytes (count value : Nat) :
    ofBytes (toBytes count value) = value % 256 ^ count := by
  induction count with
  | zero => simp [toBytes, ofBytes, Nat.mod_one]
  | succ count ih =>
    have byte : (UInt8.ofNat (value / 256 ^ count)).toNat = value / 256 ^ count % 256 := by simp
    rw [toBytes, ofBytes, length_toBytes, ih, byte, Nat.pow_succ, Nat.mod_mul]
    ring

theorem ofBytes_toBytes_of_lt {count value : Nat} (fits : value < 256 ^ count) :
    ofBytes (toBytes count value) = value := by
  rw [ofBytes_toBytes, Nat.mod_eq_of_lt fits]

/-- Bytes before the last `count` do not count. -/
theorem toBytes_mul_add (count high value : Nat) :
    toBytes count (high * 256 ^ count + value) = toBytes count value := by
  induction count generalizing high with
  | zero => rfl
  | succ count ih =>
    have positive : 0 < 256 ^ count := Nat.pow_pos (by decide)
    have regroup : high * 256 ^ (count + 1) + value = value + high * 256 * 256 ^ count := by ring
    have tail := ih (high * 256)
    rw [Nat.add_comm, ← regroup] at tail
    have byte : UInt8.ofNat ((high * 256 ^ (count + 1) + value) / 256 ^ count) =
        UInt8.ofNat (value / 256 ^ count) := by
      rw [regroup, Nat.add_mul_div_right _ _ positive]
      apply UInt8.toNat.inj
      simp
    rw [toBytes, toBytes, byte, tail]

@[simp] theorem toBytes_ofBytes (bytes : List UInt8) : toBytes bytes.length (ofBytes bytes) = bytes := by
  induction bytes with
  | nil => rfl
  | cons byte rest ih =>
    have high : (byte.toNat * 256 ^ rest.length + ofBytes rest) / 256 ^ rest.length =
        byte.toNat := by
      rw [Nat.mul_comm, Nat.mul_add_div (Nat.pow_pos (by decide)),
        Nat.div_eq_of_lt (ofBytes_lt rest), Nat.add_zero]
    rw [List.length_cons, toBytes, ofBytes, high, toBytes_mul_add, ih, UInt8.ofNat_toNat]

end Libjingle.Std.BigEndian

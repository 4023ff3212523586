import Mathlib.Algebra.Order.Ring.Nat
import Mathlib.Tactic.Common

/-!
# Unsigned machine words

A 32-bit word is a natural number below `2 ^ 32`; the operations wrap. Each
comes with the lemma that removes the wrap where nothing overflows, which is how
the users of this module leave modular arithmetic behind.
-/

namespace Libjingle.Std

/-- Conversion to `uint32`. -/
def toWord (n : Nat) : Nat :=
  n % 2 ^ 32

/-- Addition of `uint32` values. -/
def add32 (a b : Nat) : Nat :=
  (a + b) % 2 ^ 32

/-- Subtraction of `uint32` values. -/
def sub32 (a b : Nat) : Nat :=
  (a + (2 ^ 32 - b)) % 2 ^ 32

/-- Multiplication of `uint32` values. -/
def mul32 (a b : Nat) : Nat :=
  a * b % 2 ^ 32

/-- Left shift of a `uint32` value. A count past the width shifts everything out. -/
def shl32 (a count : Nat) : Nat :=
  a <<< count % 2 ^ 32

/-- Addition of `uint8` values. -/
def add8 (a b : Nat) : Nat :=
  (a + b) % 2 ^ 8

/-- The signed value of a `uint32`. -/
def toInt32 (a : Nat) : Int :=
  if a < 2 ^ 31 then a else a - 2 ^ 32

/-- `TimeDiff`: how far `later` is after `earlier` on the circular clock. -/
def timeDiff (later earlier : Nat) : Int :=
  toInt32 (sub32 later earlier)

theorem toWord_of_lt {n : Nat} (lt : n < 2 ^ 32) : toWord n = n :=
  Nat.mod_eq_of_lt lt

theorem add32_of_lt {a b : Nat} (lt : a + b < 2 ^ 32) : add32 a b = a + b :=
  Nat.mod_eq_of_lt lt

theorem sub32_of_le {a b : Nat} (le : b ≤ a) (lt : a < 2 ^ 32) : sub32 a b = a - b := by
  simp only [sub32]
  omega

theorem mul32_of_lt {a b : Nat} (lt : a * b < 2 ^ 32) : mul32 a b = a * b :=
  Nat.mod_eq_of_lt lt

theorem add8_of_lt {a b : Nat} (lt : a + b < 2 ^ 8) : add8 a b = a + b :=
  Nat.mod_eq_of_lt lt

theorem add32_lt (a b : Nat) : add32 a b < 2 ^ 32 :=
  Nat.mod_lt _ (by decide)

theorem sub32_lt (a b : Nat) : sub32 a b < 2 ^ 32 :=
  Nat.mod_lt _ (by decide)

/-- The distance from a word to the word `n` places after it. -/
theorem sub32_add32 {a n : Nat} (word : a < 2 ^ 32) (lt : n < 2 ^ 32) :
    sub32 (add32 a n) a = n := by
  simp only [sub32, add32]
  omega

/-- Going from `a` the distance to `b` leads to `b`. -/
theorem add32_sub32 {a b : Nat} (wordA : a < 2 ^ 32) (wordB : b < 2 ^ 32) :
    add32 a (sub32 b a) = b := by
  simp only [sub32, add32]
  omega

theorem add32_assoc (a b c : Nat) : add32 (add32 a b) c = add32 a (b + c) := by
  simp only [add32]
  omega

end Libjingle.Std

import Mathlib.Algebra.Order.Ring.Nat
import Mathlib.Data.List.Basic
import Mathlib.Tactic.Common

/-!
# Octets in groups of six bits

Three octets are four sextets. A text of octets that does not end with a whole group ends with two
or three sextets, the last of which has bits that no octet takes.
-/

namespace Libjingle.Std.Sextets

/-- The sextets of octets. The bits behind the last octet are zero. -/
def ofOctets : List Nat → List Nat
  | [] => []
  | [a] => [a / 4, a % 4 * 16]
  | [a, b] => [a / 4, a % 4 * 16 + b / 16, b % 16 * 4]
  | a :: b :: c :: octets =>
      a / 4 :: (a % 4 * 16 + b / 16) :: (b % 16 * 4 + c / 64) :: c % 64 :: ofOctets octets

/-- The octets that sextets fill. -/
def toOctets : List Nat → List Nat
  | [] => []
  | [_] => []
  | [u, v] => [u * 4 + v / 16]
  | [u, v, w] => [u * 4 + v / 16, v % 16 * 16 + w / 4]
  | u :: v :: w :: x :: sextets =>
      (u * 4 + v / 16) :: (v % 16 * 16 + w / 4) :: (w % 4 * 64 + x) :: toOctets sextets

/-- No sextet stands alone, and the bits that no octet takes are zero. -/
def Whole : List Nat → Prop
  | [] => True
  | [_] => False
  | [_, v] => v % 16 = 0
  | [_, _, w] => w % 4 = 0
  | _ :: _ :: _ :: _ :: sextets => Whole sextets

variable {octets sextets : List Nat}

theorem ofOctets_lt (small : ∀ a ∈ octets, a < 256) : ∀ u ∈ ofOctets octets, u < 64 := by
  induction octets using ofOctets.induct with
  | case1 => exact fun u u_mem => by cases u_mem
  | case2 a =>
    simp only [List.forall_mem_cons] at small
    simp only [ofOctets, List.forall_mem_cons]
    exact ⟨by omega, by omega, List.forall_mem_nil _⟩
  | case3 a b =>
    simp only [List.forall_mem_cons] at small
    simp only [ofOctets, List.forall_mem_cons]
    exact ⟨by omega, by omega, by omega, List.forall_mem_nil _⟩
  | case4 a b c octets ih =>
    simp only [List.forall_mem_cons] at small
    simp only [ofOctets, List.forall_mem_cons]
    refine ⟨?_, ?_, ?_, ?_, ih small.2.2.2⟩ <;> omega

theorem toOctets_ofOctets (small : ∀ a ∈ octets, a < 256) : toOctets (ofOctets octets) = octets := by
  induction octets using ofOctets.induct with
  | case1 => rfl
  | case2 a =>
    simp only [ofOctets, toOctets, List.cons.injEq, and_true]
    omega
  | case3 a b =>
    simp only [List.forall_mem_cons] at small
    simp only [ofOctets, toOctets, List.cons.injEq, and_true]
    omega
  | case4 a b c octets ih =>
    simp only [List.forall_mem_cons] at small
    simp only [ofOctets, toOctets, List.cons.injEq]
    refine ⟨?_, ?_, ?_, ih small.2.2.2⟩ <;> omega

theorem whole_ofOctets (octets : List Nat) : Whole (ofOctets octets) := by
  induction octets using ofOctets.induct with
  | case1 => trivial
  | case2 a => exact Nat.mul_mod_left _ _
  | case3 a b => exact Nat.mul_mod_left _ _
  | case4 a b c octets ih => exact ih

/-- Sextets without bits left over are those of their octets. -/
theorem ofOctets_toOctets (small : ∀ u ∈ sextets, u < 64) (whole : Whole sextets) :
    ofOctets (toOctets sextets) = sextets := by
  induction sextets using toOctets.induct with
  | case1 => rfl
  | case2 u => exact whole.elim
  | case3 u v =>
    simp only [List.forall_mem_cons] at small
    have whole : v % 16 = 0 := whole
    simp only [ofOctets, toOctets, List.cons.injEq, and_true]
    omega
  | case4 u v w =>
    simp only [List.forall_mem_cons] at small
    have whole : w % 4 = 0 := whole
    simp only [ofOctets, toOctets, List.cons.injEq, and_true]
    omega
  | case5 u v w x sextets ih =>
    simp only [List.forall_mem_cons] at small
    simp only [ofOctets, toOctets, List.cons.injEq]
    refine ⟨?_, ?_, ?_, ?_, ih small.2.2.2.2 whole⟩ <;> omega

/-- As many sextets stand in the last group as it has octets, and one more. -/
theorem length_ofOctets_mod (octets : List Nat) :
    (octets.length % 3 = 0 ↔ (ofOctets octets).length % 4 = 0) ∧
      (octets.length % 3 = 1 ↔ (ofOctets octets).length % 4 = 2) ∧
      (octets.length % 3 = 2 ↔ (ofOctets octets).length % 4 = 3) := by
  induction octets using ofOctets.induct with
  | case1 => decide
  | case2 a => simp [ofOctets]
  | case3 a b => simp [ofOctets]
  | case4 a b c octets ih =>
    simp only [ofOctets, List.length_cons]
    omega

end Libjingle.Std.Sextets

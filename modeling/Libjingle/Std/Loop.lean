import Mathlib.Algebra.Order.Ring.Nat
import Mathlib.Order.WellFounded

/-!
# Loops that are left

A round of a loop gives the next state, or leaves the loop. Where a measure falls in every round that
does not start in a trap, and a trap is not left, the loop is left exactly if it meets no trap.
-/

namespace Libjingle.Std.Loop

variable {σ ω μ : Type}

/-- The state before round `n`, if the loop gets there. -/
def before (round : σ → Except ω σ) : Nat → σ → Option σ
  | 0, s => some s
  | n + 1, s =>
      match round s with
      | .ok s' => before round n s'
      | .error _ => none

/-- The loop is left after finitely many rounds, the last of which meets a condition. -/
def Leaves (round : σ → Except ω σ) (Last : σ → ω → Prop) (s : σ) : Prop :=
  ∃ n s' left, before round n s = some s' ∧ round s' = .error left ∧ Last s' left

variable {round : σ → Except ω σ} {Last : σ → ω → Prop} {Inv Trap : σ → Prop} {s s' : σ}

theorem before_succ (next : round s = .ok s') (n : Nat) :
    before round (n + 1) s = before round n s' := by
  rw [before, next]

theorem Leaves.of_next (next : round s = .ok s') (leaves : Leaves round Last s') :
    Leaves round Last s := by
  obtain ⟨n, last, left, reached, leaving⟩ := leaves
  exact ⟨n + 1, last, left, (before_succ next n).trans reached, leaving⟩

theorem not_leaves_of_trap (stays : ∀ s, Trap s → ∃ s', round s = .ok s' ∧ Trap s') (trap : Trap s) :
    ¬ Leaves round Last s := by
  rintro ⟨n, last, left, reached, leaving, -⟩
  induction n generalizing s with
  | zero =>
    obtain ⟨s', next, -⟩ := stays s trap
    rw [Option.some.inj reached, leaving] at next
    cases next
  | succ n ih =>
    obtain ⟨s', next, trap'⟩ := stays s trap
    exact ih trap' ((before_succ next n).symm.trans reached)

theorem not_leaves_of_before (stays : ∀ s, Trap s → ∃ s', round s = .ok s' ∧ Trap s') {n : Nat}
    (reached : before round n s = some s') (trap : Trap s') : ¬ Leaves round Last s := by
  induction n generalizing s with
  | zero =>
    rw [Option.some.inj reached]
    exact not_leaves_of_trap stays trap
  | succ n ih =>
    cases next : round s with
    | error left =>
      rw [before, next] at reached
      cases reached
    | ok s'' =>
      rw [before_succ next] at reached
      rintro ⟨k, last, left, last_reached, leaving⟩
      cases k with
      | zero =>
        rw [Option.some.inj last_reached, leaving.1] at next
        cases next
      | succ k =>
        rw [before_succ next] at last_reached
        exact ih reached ⟨k, last, left, last_reached, leaving⟩

/-- The measure falls until the loop is left. -/
theorem leaves_of_measure [Preorder μ] [WellFoundedLT μ] (measure : σ → μ)
    (keeps : ∀ s s', Inv s → round s = .ok s' → Inv s')
    (falls : ∀ s s', Inv s → round s = .ok s' → Trap s ∨ measure s' < measure s)
    (last : ∀ s left, Inv s → round s = .error left → Last s left) (inv : Inv s)
    (free : ∀ n s', before round n s = some s' → ¬ Trap s') : Leaves round Last s := by
  generalize level : measure s = m
  induction m using WellFoundedLT.induction generalizing s with
  | ind m ih =>
    cases next : round s with
    | error left => exact ⟨0, s, left, rfl, next, last s left inv next⟩
    | ok s' =>
      have lower := (falls s s' inv next).resolve_left (free 0 s rfl)
      refine Leaves.of_next next (ih _ (level ▸ lower) (keeps s s' inv next) ?_ rfl)
      exact fun n s'' reached => free (n + 1) s'' ((before_succ next n).trans reached)

/-- The loop is left exactly if it meets no trap. -/
theorem leaves_iff [Preorder μ] [WellFoundedLT μ] (measure : σ → μ)
    (keeps : ∀ s s', Inv s → round s = .ok s' → Inv s')
    (falls : ∀ s s', Inv s → round s = .ok s' → Trap s ∨ measure s' < measure s)
    (last : ∀ s left, Inv s → round s = .error left → Last s left)
    (stays : ∀ s, Trap s → ∃ s', round s = .ok s' ∧ Trap s') (inv : Inv s) :
    Leaves round Last s ↔ ∀ n s', before round n s = some s' → ¬ Trap s' :=
  ⟨fun leaves _ _ reached trap => not_leaves_of_before stays reached trap leaves,
    leaves_of_measure measure keeps falls last inv⟩

end Libjingle.Std.Loop

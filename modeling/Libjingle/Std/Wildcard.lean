import Mathlib.Algebra.Order.Ring.Nat
import Mathlib.Data.List.Basic

/-!
# Patterns with wildcards

A pattern is a list of characters and stars. A text expands it when it is the pattern with some
text, possibly none, in the place of each star, and a character like it in the place of each
character.
-/

namespace Libjingle.Std.Wildcard

variable {α : Type} {alike : α → α → Prop}

/-- Nothing in a pattern is a star. -/
inductive Expands (alike : α → α → Prop) : List (Option α) → List α → Prop
  | nil : Expands alike [] []
  | char {c d : α} {pattern : List (Option α)} {text : List α} (same : alike c d)
      (rest : Expands alike pattern text) : Expands alike (some c :: pattern) (d :: text)
  | star (filling : List α) {pattern : List (Option α)} {text : List α}
      (rest : Expands alike pattern text) : Expands alike (none :: pattern) (filling ++ text)

variable {c : α} {pattern later : List (Option α)} {text : List α}

@[simp] theorem expands_nil_iff : Expands alike [] text ↔ text = [] := by
  constructor
  · rintro ⟨⟩
    rfl
  · rintro rfl
    exact .nil

theorem expands_char_iff : Expands alike (some c :: pattern) text ↔
    ∃ d rest, text = d :: rest ∧ alike c d ∧ Expands alike pattern rest := by
  constructor
  · intro expands
    cases expands with
    | char same rest => exact ⟨_, _, rfl, same, rest⟩
  · rintro ⟨d, rest, rfl, same, expands⟩
    exact .char same expands

theorem expands_star_iff : Expands alike (none :: pattern) text ↔
    ∃ filling rest, text = filling ++ rest ∧ Expands alike pattern rest := by
  constructor
  · intro expands
    cases expands with
    | star filling rest => exact ⟨filling, _, rfl, rest⟩
  · rintro ⟨filling, rest, rfl, expands⟩
    exact .star filling expands

/-- A star at the end takes whatever is left. -/
theorem expands_last_star (text : List α) : Expands alike [none] text :=
  List.append_nil text ▸ .star text .nil

/-- A star in front of a character fills up to a character like it. -/
theorem expands_star_char_iff : Expands alike (none :: some c :: pattern) text ↔
    ∃ filling d rest, text = filling ++ d :: rest ∧ alike c d ∧ Expands alike pattern rest := by
  rw [expands_star_iff]
  constructor
  · rintro ⟨filling, _, rfl, expands⟩
    obtain ⟨d, rest, rfl, same, expands⟩ := expands_char_iff.mp expands
    exact ⟨filling, d, rest, rfl, same, expands⟩
  · rintro ⟨filling, d, rest, rfl, same, expands⟩
    exact ⟨filling, d :: rest, rfl, .char same expands⟩

/-- Stars in the place of characters only let more texts through. -/
theorem Expands.loosen (expands : Expands alike pattern text)
    (looser : List.Forall₂ (fun strict loose => loose = strict ∨ loose = none) pattern later) :
    Expands alike later text := by
  induction expands generalizing later with
  | nil =>
    cases looser
    exact .nil
  | @char c d pattern text same rest ih =>
    cases looser with
    | cons here looser =>
      rcases here with rfl | rfl
      · exact .char same (ih looser)
      · exact .star [d] (ih looser)
  | star filling rest ih =>
    cases looser with
    | cons here looser =>
      rcases here with rfl | rfl <;> exact .star filling (ih looser)

/-- With nothing in the place of the stars. -/
theorem expands_reduceOption (refl : ∀ c : α, alike c c) (pattern : List (Option α)) :
    Expands alike pattern pattern.reduceOption := by
  induction pattern with
  | nil => exact .nil
  | cons head pattern ih =>
    cases head with
    | none => exact .star [] ih
    | some c => exact .char (refl c) ih

/-- Every character of the pattern stands for one of the text. -/
theorem Expands.exists_alike (expands : Expands alike pattern text) (mem : some c ∈ pattern) :
    ∃ d ∈ text, alike c d := by
  induction expands with
  | nil => cases mem
  | char same rest ih =>
    rcases List.mem_cons.mp mem with here | later
    · cases here
      exact ⟨_, List.mem_cons_self, same⟩
    · obtain ⟨d, d_mem, alike⟩ := ih later
      exact ⟨d, List.mem_cons_of_mem _ d_mem, alike⟩
  | star filling rest ih =>
    rcases List.mem_cons.mp mem with here | later
    · cases here
    · obtain ⟨d, d_mem, alike⟩ := ih later
      exact ⟨d, List.mem_append_right filling d_mem, alike⟩

end Libjingle.Std.Wildcard

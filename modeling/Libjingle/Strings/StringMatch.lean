import Libjingle.Std.CString
import Libjingle.Std.Wildcard
import Mathlib.Algebra.Order.Ring.Nat
import Mathlib.Data.List.ReduceOption

/-!
# `string_match`

Behind a star the matcher looks for the next character of the pattern, and that may be another
star. Of two stars that follow each other the second so stands for itself.
-/

namespace Libjingle.Strings

open Libjingle.Std Wildcard

/-- `toupper` of the C locale. -/
def toupper (ch : UInt8) : UInt8 :=
  if 0x61 ≤ ch ∧ ch ≤ 0x7A then ch - 0x20 else ch

/-- The loop behind a star: whether `matched` says yes to a character and what follows it. -/
def matchBehind (matched : UInt8 → List UInt8 → Bool) : List UInt8 → Bool
  | [] => false
  | ch :: target => matched ch target || matchBehind matched target

/-- `string_match`, on the characters before the terminators. -/
def stringMatch (target pattern : List UInt8) : Bool :=
  match pattern with
  | [] => target.isEmpty
  | ch :: pattern =>
      if ch = 0x2A then
        match pattern with
        | [] => true
        | next :: pattern =>
            matchBehind (fun here target => toupper next = toupper here ∧ stringMatch target pattern)
              target
      else
        match target with
        | [] => false
        | here :: target =>
            if toupper ch ≠ toupper here then false else stringMatch target pattern
termination_by structural pattern

/-! ## What a pattern stands for -/

def Alike (c d : UInt8) : Prop :=
  toupper c = toupper d

/-- Every star is a wildcard. -/
def wild (pattern : List UInt8) : List (Option UInt8) :=
  pattern.map fun ch => if ch = 0x2A then none else some ch

/-- A character behind a wildcard stands for itself, also if it is a star. -/
def literalBehind : List UInt8 → List (Option UInt8)
  | [] => []
  | ch :: pattern =>
      if ch = 0x2A then
        match pattern with
        | [] => [none]
        | next :: pattern => none :: some next :: literalBehind pattern
      else some ch :: literalBehind pattern

/-- No two stars follow each other. -/
def Separated (pattern : List UInt8) : Prop :=
  pattern.IsChain fun ch next => ¬ (ch = 0x2A ∧ next = 0x2A)

theorem matchBehind_iff {matched : UInt8 → List UInt8 → Bool} {target : List UInt8} :
    matchBehind matched target = true ↔
      ∃ filling ch rest, target = filling ++ ch :: rest ∧ matched ch rest = true := by
  induction target with
  | nil => simp [matchBehind]
  | cons ch target ih =>
    rw [matchBehind, Bool.or_eq_true, ih]
    constructor
    · rintro (here | ⟨filling, d, rest, rfl, later⟩)
      · exact ⟨[], ch, target, rfl, here⟩
      · exact ⟨ch :: filling, d, rest, rfl, later⟩
    · rintro ⟨filling, d, rest, same, later⟩
      cases filling with
      | nil =>
        cases same
        exact .inl later
      | cons first filling =>
        cases same
        exact .inr ⟨filling, d, rest, rfl, later⟩

theorem literalBehind_star (next : UInt8) (pattern : List UInt8) :
    literalBehind (0x2A :: next :: pattern) = none :: some next :: literalBehind pattern :=
  rfl

theorem literalBehind_char {ch : UInt8} (other : ch ≠ 0x2A) (pattern : List UInt8) :
    literalBehind (ch :: pattern) = some ch :: literalBehind pattern := by
  rw [literalBehind.eq_def]
  exact if_neg other

/-- The matcher decides expansion, as it reads the pattern. -/
theorem stringMatch_iff (target pattern : List UInt8) :
    stringMatch target pattern = true ↔ Expands Alike (literalBehind pattern) target := by
  induction pattern using literalBehind.induct generalizing target with
  | case1 => simp [stringMatch, literalBehind]
  | case2 => simp [stringMatch, literalBehind, expands_last_star]
  | case3 next pattern ih =>
    have searches : stringMatch target (0x2A :: next :: pattern) = matchBehind
        (fun here target => toupper next = toupper here ∧ stringMatch target pattern) target := rfl
    rw [searches, matchBehind_iff, literalBehind_star, expands_star_char_iff]
    simp only [decide_eq_true_eq, ih]
    rfl
  | case4 ch pattern other ih =>
    rw [stringMatch.eq_def, literalBehind_char other, expands_char_iff]
    simp only [if_neg other]
    cases target with
    | nil => simp
    | cons here target =>
      by_cases same : toupper ch = toupper here
      · simp [same, ih, Alike]
      · simp [same, Alike]

/-- Stars that are apart are all read as wildcards. -/
theorem literalBehind_of_separated {pattern : List UInt8} (separated : Separated pattern) :
    literalBehind pattern = wild pattern := by
  induction pattern using literalBehind.induct with
  | case1 => rfl
  | case2 => rfl
  | case3 next pattern ih =>
    obtain ⟨apart, rest⟩ := List.isChain_cons_cons.mp separated
    have other : next ≠ 0x2A := fun star => apart ⟨rfl, star⟩
    rw [literalBehind_star, ih (List.isChain_of_isChain_cons rest)]
    simp [wild, other]
  | case4 ch pattern other ih =>
    rw [literalBehind_char other, ih (List.isChain_of_isChain_cons separated)]
    simp [wild, other]

/-- Of two stars that follow each other one is read as a character. -/
theorem star_mem_literalBehind {pattern : List UInt8} (adjacent : ¬ Separated pattern) :
    some 0x2A ∈ literalBehind pattern := by
  induction pattern using literalBehind.induct with
  | case1 => exact absurd .nil adjacent
  | case2 => exact absurd (.singleton _) adjacent
  | case3 next pattern ih =>
    rw [literalBehind_star]
    by_cases star : next = 0x2A
    · exact List.mem_cons_of_mem _ (List.mem_cons.mpr (.inl (congrArg some star.symm)))
    · refine List.mem_cons_of_mem _ (List.mem_cons_of_mem _ (ih fun rest => adjacent ?_))
      refine List.isChain_cons_cons.mpr ⟨fun both => star both.2, ?_⟩
      cases pattern with
      | nil => exact .singleton _
      | cons after pattern => exact List.isChain_cons_cons.mpr ⟨fun both => star both.1, rest⟩
  | case4 ch pattern other ih =>
    rw [literalBehind_char other]
    refine List.mem_cons_of_mem _ (ih fun rest => adjacent ?_)
    cases pattern with
    | nil => exact .singleton _
    | cons after pattern => exact List.isChain_cons_cons.mpr ⟨fun both => other both.1, rest⟩

/-- Whatever the matcher accepts is an expansion. -/
theorem expands_of_stringMatch {target pattern : List UInt8}
    (matched : stringMatch target pattern = true) : Expands Alike (wild pattern) target := by
  refine ((stringMatch_iff target pattern).mp matched).loosen ?_
  clear matched
  induction pattern using literalBehind.induct with
  | case1 => exact .nil
  | case2 => exact .cons (.inl rfl) .nil
  | case3 next pattern ih =>
    rw [literalBehind_star]
    refine .cons (.inl rfl) (.cons ?_ ih)
    by_cases star : next = 0x2A <;> simp [star]
  | case4 ch pattern other ih =>
    rw [literalBehind_char other]
    refine .cons ?_ ih
    simp [other]

theorem toupper_eq_star {ch : UInt8} (star : toupper 0x2A = toupper ch) : ch = 0x2A := by
  unfold toupper at star
  rw [if_neg (by decide)] at star
  split at star
  · next letter =>
    have low : 0x61 ≤ ch.toNat ∧ ch.toNat ≤ 0x7A := letter
    have same := congrArg UInt8.toNat star
    rw [UInt8.toNat_sub_of_le _ _ (UInt8.le_iff_toNat_le.mpr (by simpa using by omega))] at same
    have : (0x2A : UInt8).toNat = 0x2A := rfl
    have : (0x20 : UInt8).toNat = 0x20 := rfl
    omega
  · exact star.symm

/-- The characters of a pattern expand it, and hold no star. -/
theorem expands_without_stars (pattern : List UInt8) :
    Expands Alike (wild pattern) (wild pattern).reduceOption ∧
      0x2A ∉ (wild pattern).reduceOption := by
  have refl : ∀ ch, Alike ch ch := fun _ => rfl
  refine ⟨expands_reduceOption refl (wild pattern), fun mem => ?_⟩
  rw [List.reduceOption_mem_iff] at mem
  obtain ⟨ch, -, same⟩ := List.mem_map.mp mem
  split at same
  · cases same
  · next other => exact other (Option.some.inj same)

/-- The matcher decides expansion for every target exactly if no two stars of the pattern follow
each other. Where two do, it is right on a target that is no expansion, and on one that has stars
in the places of those that are read as characters. -/
theorem stringMatch_expands_iff (pattern : List UInt8) :
    ((∀ target, stringMatch target pattern = true ↔ Expands Alike (wild pattern) target) ↔
      Separated pattern) ∧
    ∀ target, (stringMatch target pattern = true ↔ Expands Alike (wild pattern) target) ↔
      Separated pattern ∨ ¬ Expands Alike (wild pattern) target ∨
        Expands Alike (literalBehind pattern) target := by
  have right : Separated pattern → ∀ target,
      (stringMatch target pattern = true ↔ Expands Alike (wild pattern) target) := by
    intro separated target
    rw [stringMatch_iff, literalBehind_of_separated separated]
  refine ⟨⟨fun decides => ?_, right⟩, fun target => ⟨fun decides => ?_, ?_⟩⟩
  · by_contra adjacent
    obtain ⟨expands, without⟩ := expands_without_stars pattern
    have matched := (stringMatch_iff _ pattern).mp ((decides _).mpr expands)
    obtain ⟨ch, mem, alike⟩ := matched.exists_alike (star_mem_literalBehind adjacent)
    exact without (toupper_eq_star alike ▸ mem)
  · by_cases expands : Expands Alike (wild pattern) target
    · exact .inr (.inr ((stringMatch_iff target pattern).mp (decides.mpr expands)))
    · exact .inr (.inl expands)
  · rintro (separated | other | literally)
    · exact right separated target
    · exact ⟨fun matched => absurd (expands_of_stringMatch matched) other,
        fun expands => absurd expands other⟩
    · have matched := (stringMatch_iff target pattern).mpr literally
      exact ⟨fun _ => expands_of_stringMatch matched, fun _ => matched⟩

/-- Two stars do not stand for nothing. -/
theorem not_stringMatch_two_stars : ¬ ∀ target pattern,
    stringMatch target pattern = true ↔ Expands Alike (wild pattern) target := by
  intro decides
  have expands : Expands Alike (wild [0x61, 0x2A, 0x2A]) [0x61] := .char rfl (.star [] (.star [] .nil))
  exact absurd ((decides _ _).mpr expands) (by decide)

end Libjingle.Strings

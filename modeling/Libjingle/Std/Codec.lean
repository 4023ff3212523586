import Mathlib.Algebra.Order.Ring.Nat
import Mathlib.Data.List.Basic
import Mathlib.Tactic.Common

/-!
# Loops that translate a text into a buffer

Such a loop goes round while there is something to read and the guard `more` finds room behind the
place it writes at. A round looks at what is left of the text, and writes a chunk and leaves the
rest, or stops the loop. The text is a list; what is written is the list of the chunks.
-/

namespace Libjingle.Std.Codec

variable {α β ι : Type}

/-- What a round writes at a place, and what it leaves of the text; nothing to stop. -/
abbrev Round (α β : Type) :=
  Nat → List α → Option (List β × List α)

/-- Every round reads something. -/
def Consumes (round : Round α β) : Prop :=
  ∀ pos source chunk rest, round pos source = some (chunk, rest) → rest.length < source.length

/-- The loop, with fuel for its rounds. -/
def loop (more : Nat → Bool) (round : Round α β) : Nat → Nat → List α → List β
  | 0, _, _ => []
  | fuel + 1, pos, source =>
      if source.isEmpty ∨ ¬ more pos then []
      else
        match round pos source with
        | none => []
        | some (chunk, rest) => chunk ++ loop more round fuel (pos + chunk.length) rest

/-- The loop from the beginning of a text, at some place. A round reads something, so that there
are no more rounds than there is text. -/
def translate (more : Nat → Bool) (round : Round α β) (pos : Nat) (source : List α) : List β :=
  loop more round source.length pos source

section

variable {more : Nat → Bool} {round : Round α β} {pos limit : Nat} {source rest : List α}
  {chunk : List β}

/-- The loop ends here. -/
def Stops (more : Nat → Bool) (round : Round α β) (pos : Nat) (source : List α) : Prop :=
  source = [] ∨ more pos = false ∨ round pos source = none

/-- The loop goes round here. -/
structure Goes (more : Nat → Bool) (round : Round α β) (pos : Nat) (source : List α)
    (chunk : List β) (rest : List α) : Prop where
  left : source ≠ []
  room : more pos = true
  turn : round pos source = some (chunk, rest)

theorem stops_or_goes (more : Nat → Bool) (round : Round α β) (pos : Nat) (source : List α) :
    Stops more round pos source ∨ ∃ chunk rest, Goes more round pos source chunk rest := by
  by_cases empty : source = []
  · exact .inl (.inl empty)
  cases room : more pos with
  | false => exact .inl (.inr (.inl room))
  | true =>
    cases outcome : round pos source with
    | none => exact .inl (.inr (.inr outcome))
    | some result => exact .inr ⟨result.1, result.2, empty, room, outcome⟩

theorem loop_of_stops (stops : Stops more round pos source) (fuel : Nat) :
    loop more round fuel pos source = [] := by
  cases fuel with
  | zero => rfl
  | succ fuel =>
    rw [loop]
    split
    · rfl
    · next guard =>
      rcases stops with empty | full | none
      · simp [empty] at guard
      · simp [full] at guard
      · rw [none]

theorem loop_of_goes (goes : Goes more round pos source chunk rest) (fuel : Nat) :
    loop more round (fuel + 1) pos source =
      chunk ++ loop more round fuel (pos + chunk.length) rest := by
  rw [loop, if_neg, goes.turn]
  simp [goes.left, goes.room]

theorem loop_fuel (consumes : Consumes round) {fuel fuel' : Nat}
    (enough : source.length ≤ fuel) (enough' : source.length ≤ fuel') :
    loop more round fuel pos source = loop more round fuel' pos source := by
  induction fuel generalizing pos source fuel' with
  | zero =>
    have empty : source = [] := List.eq_nil_of_length_eq_zero (Nat.le_zero.mp enough)
    rw [loop_of_stops (.inl empty), loop_of_stops (.inl empty)]
  | succ fuel ih =>
    rcases stops_or_goes more round pos source with stops | ⟨chunk, rest, goes⟩
    · rw [loop_of_stops stops, loop_of_stops stops]
    · have shorter := consumes _ _ _ _ goes.turn
      obtain ⟨n, rfl⟩ : ∃ n, fuel' = n + 1 := ⟨fuel' - 1, by omega⟩
      rw [loop_of_goes goes, loop_of_goes goes, @ih _ _ n (by omega) (by omega)]

theorem translate_of_stops (stops : Stops more round pos source) :
    translate more round pos source = [] :=
  loop_of_stops stops _

theorem translate_of_goes (consumes : Consumes round)
    (goes : Goes more round pos source chunk rest) :
    translate more round pos source =
      chunk ++ translate more round (pos + chunk.length) rest := by
  have shorter := consumes _ _ _ _ goes.turn
  obtain ⟨n, length⟩ : ∃ n, source.length = n + 1 := ⟨source.length - 1, by omega⟩
  unfold translate
  rw [length, loop_of_goes goes, loop_fuel consumes (by omega) (Nat.le_refl _)]

/-- The induction over the rounds of a loop. -/
theorem translate_induction (more : Nat → Bool) (consumes : Consumes round) {motive : Nat → List α → Prop}
    (stops : ∀ pos source, Stops more round pos source → motive pos source)
    (goes : ∀ pos source chunk rest, Goes more round pos source chunk rest →
      motive (pos + chunk.length) rest → motive pos source)
    (pos : Nat) (source : List α) : motive pos source := by
  rcases stops_or_goes more round pos source with stop | ⟨chunk, rest, go⟩
  · exact stops pos source stop
  · have shorter := consumes _ _ _ _ go.turn
    exact goes pos source chunk rest go (translate_induction more consumes stops goes _ rest)
termination_by source.length

/-! ## Where a loop comes to -/

variable {source₀ source' : List α} {pos₀ pos' : Nat}

/-- The loop, begun at a place of a text, comes to another. -/
inductive Reaches (more : Nat → Bool) (round : Round α β) (pos₀ : Nat) (source₀ : List α) :
    Nat → List α → Prop where
  | start : Reaches more round pos₀ source₀ pos₀ source₀
  | next {pos : Nat} {source rest : List α} {chunk : List β}
      (before : Reaches more round pos₀ source₀ pos source)
      (goes : Goes more round pos source chunk rest) :
      Reaches more round pos₀ source₀ (pos + chunk.length) rest

theorem Reaches.trans (first : Reaches more round pos₀ source₀ pos source)
    (second : Reaches more round pos source pos' source') :
    Reaches more round pos₀ source₀ pos' source' := by
  induction second with
  | start => exact first
  | next _ goes ih => exact ih.next goes

/-- What is written up to a place and what is written from there on. -/
theorem Reaches.length (consumes : Consumes round)
    (reached : Reaches more round pos₀ source₀ pos source) :
    pos₀ + (translate more round pos₀ source₀).length =
      pos + (translate more round pos source).length := by
  induction reached with
  | start => rfl
  | next _ goes ih =>
    rw [ih, translate_of_goes consumes goes, List.length_append, Nat.add_assoc]

/-- The loop comes to the place behind all that it writes, and stops there. -/
theorem translate_reaches (consumes : Consumes round) (pos : Nat) (source : List α) :
    ∃ rest, Reaches more round pos source (pos + (translate more round pos source).length) rest ∧
      Stops more round (pos + (translate more round pos source).length) rest := by
  induction pos, source using translate_induction more consumes with
  | stops pos source stops =>
    rw [translate_of_stops stops]
    exact ⟨source, .start, stops⟩
  | goes pos source chunk rest goes ih =>
    obtain ⟨left, reached, stops⟩ := ih
    rw [translate_of_goes consumes goes, List.length_append, ← Nat.add_assoc]
    exact ⟨left, (Reaches.next .start goes).trans reached, stops⟩

/-- What is written stays below a limit that every round respects. -/
theorem length_translate_lt (consumes : Consumes round)
    (fits : ∀ {pos source chunk rest}, Goes more round pos source chunk rest →
      pos + chunk.length < limit) (start : pos < limit) :
    pos + (translate more round pos source).length < limit := by
  induction pos, source using translate_induction more consumes with
  | stops pos source stops =>
    rw [translate_of_stops stops]
    exact start
  | goes pos source chunk rest goes ih =>
    rw [translate_of_goes consumes goes, List.length_append, ← Nat.add_assoc]
    exact ih (fits goes)

/-! ## Two loops -/

/-- Two loops that go round alike wherever the one comes to do so wherever the other does. -/
theorem agree_symm {round' : Round α β}
    (agree : ∀ pos source, Reaches more round pos₀ source₀ pos source →
      source ≠ [] → more pos = true → round pos source = round' pos source)
    {pos : Nat} {source : List α} (reached : Reaches more round' pos₀ source₀ pos source) :
    Reaches more round pos₀ source₀ pos source := by
  induction reached with
  | start => exact .start
  | next _ goes ih =>
    have same := agree _ _ ih goes.left goes.room
    exact ih.next ⟨goes.left, goes.room, same.trans goes.turn⟩

/-! ## Characters -/

/-- A loop that writes a unit for each character writes those of the first of them. -/
theorem translate_prefix (consumes : Consumes round) {unit : α → List β}
    (turns : ∀ pos a source, round pos (a :: source) = none ∨
      round pos (a :: source) = some (unit a, source)) (pos : Nat) (source : List α) :
    ∃ taken, taken <+: source ∧ translate more round pos source = taken.flatMap unit := by
  induction pos, source using translate_induction more consumes with
  | stops pos source stops => exact ⟨[], List.nil_prefix, translate_of_stops stops⟩
  | goes pos source chunk rest goes ih =>
    obtain ⟨a, left, rfl⟩ := List.exists_cons_of_ne_nil goes.left
    obtain ⟨rfl, rfl⟩ : unit a = chunk ∧ left = rest := by
      rcases turns pos a left with none | some
      · cases goes.turn.symm.trans none
      · exact Prod.mk.inj (Option.some.inj (some.symm.trans goes.turn))
    obtain ⟨taken, first, written⟩ := ih
    refine ⟨a :: taken, (List.prefix_cons_inj a).mpr first, ?_⟩
    rw [translate_of_goes consumes goes, written, List.flatMap_cons]

/-! ## Words -/

/-- The loop translates words: it reads `u a` and writes `v a`, if that ends before the limit. -/
structure Translates (more : Nat → Bool) (round : Round α β) (limit : Nat) (u : ι → List α)
    (v : ι → List β) : Prop where
  filled : ∀ a, u a ≠ []
  fits : ∀ a {pos}, pos + (v a).length < limit → more pos = true
  turn : ∀ a rest {pos}, pos + (v a).length < limit → round pos (u a ++ rest) = some (v a, rest)

variable {u : ι → List α} {v : ι → List β}

theorem Translates.goes (translates : Translates more round limit u v) (a : ι) (rest : List α)
    (room : pos + (v a).length < limit) : Goes more round pos (u a ++ rest) (v a) rest where
  left := fun empty => translates.filled a (List.append_eq_nil_iff.mp empty).1
  room := translates.fits a room
  turn := translates.turn a rest room

/-- Words that fit are translated all. -/
theorem Translates.whole (consumes : Consumes round) (translates : Translates more round limit u v)
    {words : List ι} (room : pos + (words.flatMap v).length < limit) :
    translate more round pos (words.flatMap u) = words.flatMap v := by
  induction words generalizing pos with
  | nil => exact translate_of_stops (.inl rfl)
  | cons a words ih =>
    simp only [List.flatMap_cons, List.length_append] at room ⊢
    rw [translate_of_goes consumes (translates.goes a _ (by omega)), ih (by omega)]

/-- If the loop stops at a word that does not fit, it translates the words before it. -/
theorem Translates.truncated (consumes : Consumes round) (translates : Translates more round limit u v)
    (stuck : ∀ a rest {pos}, limit ≤ pos + (v a).length → Stops more round pos (u a ++ rest))
    (pos : Nat) (words : List ι) : ∃ taken left, words = taken ++ left ∧
      translate more round pos (words.flatMap u) = taken.flatMap v := by
  induction words generalizing pos with
  | nil => exact ⟨[], [], rfl, translate_of_stops (.inl rfl)⟩
  | cons a words ih =>
    rw [List.flatMap_cons]
    by_cases room : pos + (v a).length < limit
    · obtain ⟨taken, left, parts, written⟩ := ih (pos + (v a).length)
      refine ⟨a :: taken, left, by rw [parts, List.cons_append], ?_⟩
      rw [translate_of_goes consumes (translates.goes a _ room), written, List.flatMap_cons]
    · exact ⟨[], a :: words, rfl, translate_of_stops (stuck a _ (Nat.not_lt.mp room))⟩

end

end Libjingle.Std.Codec

import Mathlib.Algebra.Order.Ring.Nat
import Mathlib.Data.List.Basic

/-!
# Runs of a deterministic system

A system takes one input after another. `Along` says that every input of a run
meets a condition in the state that it finds, and the rules below carry an
invariant along such a run.
-/

namespace Libjingle.Std

variable {σ ι : Type}

/-- The state after a list of inputs. -/
def runInputs (step : σ → ι → σ) : σ → List ι → σ
  | s, [] => s
  | s, input :: rest => runInputs step (step s input) rest

/-- Every input of a run meets a condition in the state it finds. -/
def Along (step : σ → ι → σ) (Ok : σ → ι → Prop) : σ → List ι → Prop
  | _, [] => True
  | s, input :: rest => Ok s input ∧ Along step Ok (step s input) rest

/-- A run of admitted inputs is recognized by going through it. -/
instance decidableAlong {step : σ → ι → σ} {Ok : σ → ι → Prop} [∀ s input, Decidable (Ok s input)] :
    (s : σ) → (inputs : List ι) → Decidable (Along step Ok s inputs)
  | _, [] => .isTrue trivial
  | s, input :: rest =>
      have : Decidable (Along step Ok (step s input) rest) := decidableAlong (step s input) rest
      inferInstanceAs (Decidable (Ok s input ∧ Along step Ok (step s input) rest))

variable {step : σ → ι → σ} {Ok Ok' : σ → ι → Prop} {P : σ → Prop}

@[simp] theorem runInputs_nil (s : σ) : runInputs step s [] = s := rfl

@[simp] theorem runInputs_cons (s : σ) (input : ι) (rest : List ι) :
    runInputs step s (input :: rest) = runInputs step (step s input) rest := rfl

theorem runInputs_append (s : σ) (first second : List ι) :
    runInputs step s (first ++ second) = runInputs step (runInputs step s first) second := by
  induction first generalizing s with
  | nil => rfl
  | cons input rest ih => exact ih (step s input)

/-- A property that every admitted input keeps holds at the end of a run. -/
theorem Along.invariant {s : σ} {inputs : List ι} (along : Along step Ok s inputs)
    (keeps : ∀ s input, Ok s input → P s → P (step s input)) (start : P s) :
    P (runInputs step s inputs) := by
  induction inputs generalizing s with
  | nil => exact start
  | cons input rest ih => exact ih along.2 (keeps s input along.1 start)

/-- What an invariant makes of one condition holds along the whole run. -/
theorem Along.of_invariant {s : σ} {inputs : List ι} (along : Along step Ok s inputs)
    (keeps : ∀ s input, Ok s input → P s → P (step s input))
    (implies : ∀ s input, Ok s input → P s → Ok' s input) (start : P s) :
    Along step Ok' s inputs := by
  induction inputs generalizing s with
  | nil => trivial
  | cons input rest ih =>
    exact ⟨implies s input along.1 start, ih along.2 (keeps s input along.1 start)⟩

/-- The first inputs of a run meet the condition as well. -/
theorem Along.front {s : σ} {inputs more : List ι} (along : Along step Ok s (inputs ++ more)) :
    Along step Ok s inputs := by
  induction inputs generalizing s with
  | nil => trivial
  | cons first rest ih => exact ⟨along.1, ih along.2⟩

/-- The last input of a run meets the condition in the state it finds. -/
theorem Along.last {s : σ} {inputs : List ι} {input : ι}
    (along : Along step Ok s (inputs ++ [input])) : Ok (runInputs step s inputs) input := by
  induction inputs generalizing s with
  | nil => exact along.1
  | cons first rest ih => exact ih along.2

/-- Two conditions that agree in every state hold along the same runs. -/
theorem along_congr (agree : ∀ s input, Ok s input ↔ Ok' s input) (s : σ) (inputs : List ι) :
    Along step Ok s inputs ↔ Along step Ok' s inputs := by
  induction inputs generalizing s with
  | nil => exact Iff.rfl
  | cons input rest ih => exact and_congr (agree s input) (ih _)

/-- Two conditions that agree in the states of an invariant, which the inputs that meet
them keep, hold along the same runs. -/
theorem along_congr_of_invariant (keeps : ∀ s input, P s → Ok s input → P (step s input))
    (agree : ∀ s input, P s → (Ok s input ↔ Ok' s input)) {s : σ} (start : P s)
    (inputs : List ι) : Along step Ok s inputs ↔ Along step Ok' s inputs := by
  induction inputs generalizing s with
  | nil => exact Iff.rfl
  | cons input rest ih =>
    constructor
    · rintro ⟨here, later⟩
      exact ⟨(agree s input start).mp here, (ih (keeps s input start here)).mp later⟩
    · rintro ⟨here, later⟩
      have here := (agree s input start).mpr here
      exact ⟨here, (ih (keeps s input start here)).mpr later⟩

/-- What the inputs so far and the state have in common, if every step keeps it. -/
theorem history_invariant {P : List ι → σ → Prop} {s : σ} (start : P [] s)
    (keeps : ∀ past s input, P past s → P (past ++ [input]) (step s input)) (inputs : List ι) :
    P inputs (runInputs step s inputs) := by
  suffices ∀ past s, P past s → P (past ++ inputs) (runInputs step s inputs) by
    simpa using this [] s start
  induction inputs with
  | nil =>
    intro past s holds
    simpa using holds
  | cons input rest ih =>
    intro past s holds
    have later := ih (past ++ [input]) (step s input) (keeps past s input holds)
    simpa using later

end Libjingle.Std

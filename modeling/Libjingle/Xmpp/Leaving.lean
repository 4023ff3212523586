import Libjingle.Xmpp.Runs

/-!
# What happens when the engine is left

The destructor of `EnterExit` in one equation: what it calls, and what it leaves. From it
follows what has been printed, and how often the closing of an engine is told.
-/

namespace Libjingle.Xmpp.Engine

open Libjingle.Xml

variable {σ τ : Type} (env : Environment σ τ) (e : Engine σ τ)

/-- The engine has been closed since it was entered. -/
def closing (entered : State) : Bool :=
  e.state ≠ entered ∧ e.state = .closed

/-- Nothing else is under way. -/
def outermost : Bool :=
  e.engineEntered - 1 = 0

def flushed (closing : Bool) : List Callback :=
  (if e.output.any (¬ ·.isEmpty) then [.writeOutput e.output] else []) ++
    if closing then [.closeConnection] else []

/-- What is called when the engine is left. -/
def leaving (entered : State) : List Callback :=
  (if e.outputHandler ∧ (e.closing entered ∨ e.outermost) then e.flushed (e.closing entered)
    else []) ++
  if e.outermost ∧ e.config.sessionHandler ∧ e.state ≠ entered then [.stateChange e.state] else []

theorem call_if (condition : Prop) [Decidable condition] (callback : Callback) :
    (if condition then e.call callback else e) =
      { e with callbacks := e.callbacks ++ if condition then [callback] else [] } := by
  split
  · rfl
  · rw [List.append_nil]

theorem flush_eq (closing : Bool) : e.flush closing = { e with
    outputHandler := e.outputHandler && !closing
    output := if e.outputHandler ∧ (closing ∨ e.engineEntered = 0) then [] else e.output
    callbacks := e.callbacks ++
      if e.outputHandler ∧ (closing ∨ e.engineEntered = 0) then e.flushed closing else [] } := by
  unfold flush flushed
  rw [call_if]
  split
  · next flushing =>
    cases closing
    · dsimp only
      rw [if_neg Bool.false_ne_true, if_neg Bool.false_ne_true, List.append_nil, Bool.not_false,
        Bool.and_true]
    · dsimp only
      rw [if_pos rfl, if_pos rfl, Bool.not_true, Bool.and_false, ← List.append_assoc]
      rfl
  · next still =>
    have same : (e.outputHandler && !closing) = e.outputHandler := by
      cases handler : e.outputHandler
      · rfl
      · cases closing
        · rfl
        · exact absurd ⟨handler, .inl rfl⟩ still
    rw [same, List.append_nil]

theorem reset_eq : e.reset env = { e with
    parser := if e.raisedReset then env.newParser else e.parser
    raisedReset := false } := by
  unfold reset
  split
  · rfl
  · next kept =>
    rw [← Bool.eq_false_iff.mpr kept]

/-- What leaving an engine does. -/
theorem exit_eq (entered : State) : e.exit env entered = { e with
    engineEntered := e.engineEntered - 1
    parser := if e.outermost ∧ e.raisedReset then env.newParser else e.parser
    raisedReset := e.raisedReset && !e.outermost
    outputHandler := e.outputHandler && !e.closing entered
    output := if e.outputHandler ∧ (e.closing entered ∨ e.outermost) then [] else e.output
    callbacks := e.callbacks ++ e.leaving entered } := by
  have outer : e.outermost = true ↔ e.engineEntered - 1 = 0 := decide_eq_true_iff
  unfold exit leaving
  simp only [flush_eq]
  split
  · next nested =>
    have inner : e.outermost = false := by simpa using mt outer.mp nested
    simp [inner, nested, closing, flushed]
  · next last =>
    have outermost : e.outermost = true := outer.mpr (not_not.mp last)
    rw [reset_eq]
    unfold notifyState
    rw [call_if]
    simp [outermost, outer.mp outermost, closing, flushed]

/-- What can be called when the engine is left. -/
theorem mem_leaving {entered : State} {callback : Callback}
    (member : callback ∈ e.leaving entered) :
    callback = .writeOutput e.output ∨ callback = .closeConnection ∨
      ∃ state, callback = .stateChange state := by
  unfold leaving flushed at member
  obtain told | changed := List.mem_append.mp member
  · split at told
    · obtain output | closed := List.mem_append.mp told
      · split at output
        · exact .inl (List.mem_singleton.mp output)
        · cases output
      · split at closed
        · exact .inr (.inl (List.mem_singleton.mp closed))
        · cases closed
    · cases told
  · split at changed
    · exact .inr (.inr ⟨_, List.mem_singleton.mp changed⟩)
    · cases changed

/-! ## What is printed and told -/

def parts : Callback → List Out
  | .writeOutput output => output
  | _ => []

def written : List Out :=
  e.callbacks.flatMap parts

/-- All that has been printed, whether it is written or not. -/
def printed : List Out :=
  (e.written ++ e.output).filter (¬ ·.isEmpty)

/-- The stanzas of the application among some output. -/
def applications (output : List Out) : List XmlElement :=
  output.filterMap fun
    | .stanza .application element => some element
    | _ => none

def isClose : Callback → Bool
  | .closeConnection => true
  | _ => false

def isClosed : Callback → Bool
  | .stateChange .closed => true
  | _ => false

theorem parts_leaving (entered : State) :
    ((e.leaving entered).flatMap parts ++
      if e.outputHandler ∧ (e.closing entered ∨ e.outermost) then [] else e.output).filter
        (¬ ·.isEmpty) = e.output.filter (¬ ·.isEmpty) := by
  have change : (if e.outermost ∧ e.config.sessionHandler ∧ e.state ≠ entered then
      [Callback.stateChange e.state] else []).flatMap parts = [] := by
    split <;> rfl
  have closed (closing : Bool) :
      (if closing then [Callback.closeConnection] else []).flatMap parts = [] := by
    split <;> rfl
  unfold leaving
  rw [List.flatMap_append, change, List.append_nil]
  split
  · unfold flushed
    rw [List.append_nil, List.flatMap_append, closed, List.append_nil]
    split
    · simp [parts]
    · next nothing => simpa using nothing
  · rfl

/-- Leaving an engine loses nothing that has been printed. -/
theorem printed_exit (entered : State) : (e.exit env entered).printed = e.printed := by
  rw [exit_eq]
  unfold printed written
  rw [List.flatMap_append, List.append_assoc, List.filter_append, parts_leaving,
    ← List.filter_append]

theorem closings_leaving (entered : State) :
    (e.leaving entered).countP isClose = (e.outputHandler && e.closing entered).toNat := by
  have change : (if e.outermost ∧ e.config.sessionHandler ∧ e.state ≠ entered then
      [Callback.stateChange e.state] else []).countP isClose = 0 := by
    split <;> rfl
  have output : (if e.output.any (¬ ·.isEmpty) then
      [Callback.writeOutput e.output] else []).countP isClose = 0 := by
    split <;> rfl
  unfold leaving
  rw [List.countP_append, change]
  split
  · next flushing =>
    unfold flushed
    rw [List.countP_append, output, flushing.1]
    cases e.closing entered <;> rfl
  · next still =>
    cases handler : e.outputHandler
    · rfl
    · cases closing : e.closing entered
      · rfl
      · exact absurd ⟨handler, .inl closing⟩ still

theorem changes_leaving (entered : State) (opened : entered ≠ .closed) :
    (e.leaving entered).countP isClosed =
      (e.outermost && e.config.sessionHandler && decide (e.state = .closed)).toNat := by
  have output : (e.flushed (e.closing entered)).countP isClosed = 0 := by
    unfold flushed
    split <;> split <;> rfl
  have none : (if e.outputHandler ∧ (e.closing entered ∨ e.outermost) then
      e.flushed (e.closing entered) else []).countP isClosed = 0 := by
    split
    · exact output
    · rfl
  unfold leaving
  rw [List.countP_append, none, Nat.zero_add]
  cases e.outermost
  · rfl
  · cases e.config.sessionHandler
    · rfl
    · split
      · cases e.state <;> rfl
      · next same =>
        have state : e.state = entered := by simpa using same
        simp [state, opened]

end Libjingle.Xmpp.Engine

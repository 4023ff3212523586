import Libjingle.Tasks.Loop
import Libjingle.Std.Trace

/-!
# The lifetime of tasks

A task that was started stays with the runner until a run of the loop has come to its end, and
is deleted there if it is done. What is below a task stops with it; only the task that is
stepped, and what is below that one, go on until its `Process` has returned.
-/

namespace Libjingle.Tasks

namespace TaskRunner

variable {s s' : TaskRunner} {id : Nat} {t : Task}

/-! ## Runs -/

/-- Children are created of unfinished tasks, and a task that has not left its first state is
not started twice. -/
def Allowed (s : TaskRunner) : TaskInput → Prop
  | .create (some p) => s.finished p = false
  | .start id => (s.heap id).any (·.state = stateInit) → id ∉ s.tasks
  | _ => True

instance (s : TaskRunner) (input : TaskInput) : Decidable (s.Allowed input) := by
  unfold Allowed
  split <;> infer_instance

theorem Sound.call {input : TaskInput} (sound : s.Sound) (allowed : s.Allowed input) :
    (s.call input).Sound ∧ s.Kept (s.call input) := by
  have of_quiet : ∀ {u : TaskRunner}, s.Quiet u → u.Sound ∧ s.Kept u :=
    fun quiet => ⟨sound.quiet quiet, quiet.kept⟩
  cases input with
  | create parent =>
    refine sound.create fun p isParent t here => ?_
    subst isParent
    simpa [Allowed, finished, here] using allowed
  | start id =>
    refine sound.start fun t here isInit => allowed ?_
    simp [here, isInit]
  | wake id => exact of_quiet (s.wake_quiet id)
  | error id => exact of_quiet (s.error_quiet id)
  | abort id => exact sound.abort id
  | setTimeoutSeconds id seconds => exact of_quiet (s.setTimeoutSeconds_quiet id seconds)
  | clearTimeout id => exact of_quiet (s.clearTimeout_quiet id)
  | suspendTimeout id => exact of_quiet (s.setSuspended_quiet id true)
  | resumeTimeout id => exact of_quiet (s.setSuspended_quiet id false)
  | runTasks =>
    refine of_quiet ?_
    unfold TaskRunner.call runTasks
    dsimp only
    split
    · next stopped => exact setRun_quiet _ (by simp [stepped, stopped])
    · exact .refl s
  | pollTasks => exact of_quiet (pollTasks_quiet none sound.ledger.nextLive)
  | wakeTasksReturned => exact of_quiet (wakeTasksReturned_quiet sound.ledger.nextLive)
  | processReturned _ => exact of_quiet (.refl s)
  | advance => exact of_quiet (.refl s)
  | elapse time => exact of_quiet { Quiet.refl s with }

/-- The runner goes on in its loop. -/
def InLoop (s : TaskRunner) : Prop :=
  s.run.isSome ∧ s.stepped = none

theorem Sound.input {input : TaskInput} (sound : s.Sound) (allowed : s.Allowed input) :
    (s.input input).Sound ∧
    (s.Kept (s.input input) ∨ input = .advance ∧ s.InLoop ∧ s.Ended (s.input input)) := by
  unfold TaskRunner.input
  split
  · next index didRun running =>
    have alone : s.stepped = none := by simp [stepped, running]
    obtain ⟨after, kept | ended⟩ := sound.turn alone (sound.ledger.turn index didRun)
    · exact ⟨after, .inl kept⟩
    · exact ⟨after, .inr ⟨rfl, ⟨by simp [running], alone⟩, ended⟩⟩
  · exact ⟨sound, .inl (Quiet.refl s).kept⟩
  · next index didRun id newState running =>
    have isStepped : s.stepped = some id := by simp [stepped, running]
    obtain ⟨-, t, here, -, unfinished⟩ := sound.stepping id isStepped
    have tree : s.Tree [] (some id) := isStepped ▸ sound.tree
    obtain ⟨after, kept⟩ := stepReturned_sound (s := s.setRun ⟨index, didRun, none⟩)
      { sound.ledger with } ⟨tree.below, tree.parentBelow, tree.kids, tree.kidsNodup, tree.linked,
        tree.busy⟩ rfl here unfinished newState
    exact ⟨after, .inl ⟨fun _ => kept.running rfl, kept.live, kept.tasks⟩⟩
  · obtain ⟨after, kept⟩ := sound.call allowed
    exact ⟨after, .inl kept⟩

/-! ## What is below a task that has stopped -/

/-- What is unfinished below a task that is not is below the task that is stepped, or is that
task itself, and an abort was deferred there. -/
theorem Tree.stopped {loose : Option Nat} (tree : s.Tree [] loose) {above below : Nat}
    (isAbove : s.Above above below) (present : s.heap below = some t) (unfinished : t.done = false) :
    (∃ u, s.heap above = some u ∧ u.done = false) ∨
    ∃ b u, loose = some b ∧ s.heap b = some u ∧ u.aborted = true ∧
      (b = below ∨ s.Above b below) := by
  have parent : ∀ {id t p}, s.heap id = some t → t.done = false → s.parentOf id = some p →
      (∃ u, s.heap p = some u ∧ u.done = false) ∨ loose = some id ∧ t.aborted = true := by
    intro id t p here unfinished isParent
    obtain ⟨v, was, isParent⟩ := parentOf_eq_some.mp isParent
    rw [here] at was
    cases was
    rcases tree.linked id t p here unfinished isParent with ⟨u, there, known, -⟩ | isLoose
    · exact .inl ⟨u, there, known.resolve_right List.not_mem_nil⟩
    · exact .inr isLoose
  -- Upwards from the task below, along its ancestors.
  induction isAbove generalizing t with
  | single isParent =>
    rcases parent present unfinished isParent with upper | ⟨isLoose, aborted⟩
    · exact .inl upper
    · exact .inr ⟨_, t, isLoose, present, aborted, .inl rfl⟩
  | tail _ isParent ih =>
    rcases parent present unfinished isParent with ⟨u, there, isUnfinished⟩ | ⟨isLoose, aborted⟩
    · rcases ih there isUnfinished with upper | ⟨b, v, isLoose, bHere, aborted, same | isAbove⟩
      · exact .inl upper
      · exact .inr ⟨b, v, isLoose, bHere, aborted, .inr (.single (same ▸ isParent))⟩
      · exact .inr ⟨b, v, isLoose, bHere, aborted, .inr (isAbove.tail isParent)⟩
    · exact .inr ⟨_, t, isLoose, present, aborted, .inl rfl⟩

/-! ## The claims of the runner -/

/-- Nothing that was deleted is used, `Process` runs for an unfinished task, every task is
deleted at most once, and what is below a task that has stopped has stopped, or waits for the
end of the step that is going on. -/
structure Orderly (s : TaskRunner) : Prop where
  intact : s.broken = false
  stepping : ∀ id, s.stepped = some id → ∃ t, s.heap id = some t ∧ t.done = false
  once : ∀ id, s.deleted id = if id < s.nextId ∧ s.heap id = none then 1 else 0
  stopped : ∀ above below t, s.Above above below → s.heap below = some t → t.done = false →
    (∃ u, s.heap above = some u ∧ u.done = false) ∨
    ∃ b u, s.stepped = some b ∧ s.heap b = some u ∧ u.aborted = true ∧
      (b = below ∨ s.Above b below)

/-- A task is deleted where a run of the loop ends, if it was started and is done, and nothing
unfinished has it as parent. Every task that was started and is done then is deleted. -/
structure Lives (s : TaskRunner) (input : TaskInput) : Prop where
  orderly : s.Orderly
  deleted : ∀ id t, s.heap id = some t → (s.input input).heap id = none →
    input = .advance ∧ s.InLoop ∧ (s.input input).run = none ∧ id ∈ s.tasks ∧ t.done = true ∧
    ∀ c u, s.heap c = some u → u.parent = some id → u.done = true
  started : ∀ id t, input = .start id → s.heap id = some t → t.state = stateInit → ¬s.InLoop →
    id ∈ (s.input input).tasks
  kept : ∀ id ∈ s.tasks, ((s.input input).heap id).isSome → id ∈ (s.input input).tasks
  swept : s.run.isSome → (s.input input).run = none →
    ∀ id ∈ (s.input input).tasks, (s.input input).finished id = false

theorem Sound.orderly (sound : s.Sound) : s.Orderly where
  intact := sound.ledger.intact
  stepping := fun id isStepped =>
    let ⟨_, t, here, _, unfinished⟩ := sound.stepping id isStepped
    ⟨t, here, unfinished⟩
  once := sound.ledger.counted
  stopped := fun _ _ _ isAbove present unfinished => sound.tree.stopped isAbove present unfinished

theorem start_listed (present : s.heap id = some t) (isInit : t.state = stateInit)
    (called : ¬s.InLoop) : id ∈ (s.input (.start id)).tasks := by
  have starts : id ∈ (s.start id).tasks := by
    unfold TaskRunner.start
    simp only [present, isInit, ne_eq, not_true_eq_false, if_false]
    rw [(updateTaskTimeout_quiet _ id).tasks]
    exact List.mem_append_right _ (List.mem_singleton_self id)
  unfold TaskRunner.input
  split
  · next same => cases same
  · next running _ => exact absurd ⟨by simp [running], by simp [stepped, running]⟩ called
  · next same => cases same
  · exact starts

theorem Sound.lives {input : TaskInput} (sound : s.Sound) (allowed : s.Allowed input) :
    s.Lives input := by
  have started : ∀ id t, input = .start id → s.heap id = some t → t.state = stateInit →
      ¬s.InLoop → id ∈ (s.input input).tasks := by
    rintro id t rfl present isInit called
    exact start_listed present isInit called
  rcases (sound.input allowed).2 with kept | ⟨isAdvance, inLoop, ended⟩
  · refine ⟨sound.orderly, fun id t present gone => ?_, started, fun id listed _ =>
      kept.tasks id listed, fun running stopped => ?_⟩
    · have live := kept.live id (by rw [present]; rfl)
      rw [gone] at live
      cases live
    · have stillRunning := kept.running running
      rw [stopped] at stillRunning
      cases stillRunning
  · have tree : s.Tree [] none := inLoop.2 ▸ sound.tree
    refine ⟨sound.orderly, fun id t present gone => ?_, started, fun id listed live => ?_,
      fun _ _ id listed => ?_⟩
    · rw [ended.heap] at gone
      split at gone
      · next both =>
        have done : t.done = true := by simpa [finished, present] using both.2
        refine ⟨isAdvance, inLoop, ended.run, both.1, done, fun c u childHere isParent => ?_⟩
        by_contra isUnfinished
        rcases tree.linked c u id childHere (Bool.eq_false_iff.mpr isUnfinished) isParent with
          ⟨v, here, known, -⟩ | ⟨isLoose, -⟩
        · rw [present] at here
          cases here
          rw [done] at known
          exact known.elim (by simp) List.not_mem_nil
        · cases isLoose
      · rw [present] at gone
        cases gone
    · rw [ended.tasks, List.mem_filter]
      refine ⟨listed, ?_⟩
      rw [ended.heap] at live
      split at live
      · cases live
      · next neither => simpa [listed] using neither
    · rw [ended.tasks, List.mem_filter] at listed
      unfold finished
      rw [ended.heap, if_neg (by simpa [listed.1] using listed.2)]
      simpa [finished] using listed.2

theorem tasks_live (inputs : List TaskInput) (allowed : Std.Along input Allowed new inputs) :
    Std.Along input Lives new inputs ∧ (Std.runInputs input new inputs).Orderly :=
  ⟨allowed.of_invariant (fun _ _ isAllowed sound => (Sound.input sound isAllowed).1)
      (fun _ _ isAllowed sound => Sound.lives sound isAllowed) new_sound,
    (allowed.invariant (fun _ _ isAllowed sound => (Sound.input sound isAllowed).1)
      new_sound).orderly⟩

/-- The body of `Process` of a child creates a task, starts it and aborts its own parent. -/
def abortInStep : List TaskInput :=
  [.create none, .create (some 0), .start 1, .runTasks, .advance, .create (some 1), .start 2,
    .abort 0]

theorem tasks_live_abortInStep :
    Std.Along input Allowed new abortInStep ∧
    (Std.Along input Lives new abortInStep ∧ (Std.runInputs input new abortInStep).Orderly) :=
  ⟨by decide, tasks_live abortInStep (by decide)⟩

/-- When a task has stopped, all below it have stopped but those that are stepped. -/
def StopsBelow (s : TaskRunner) : Prop :=
  ∀ above below, s.Above above below → s.finished above = true → (s.heap below).isSome →
    s.finished below = true ∨ s.stepped = some below

theorem grandchild_goes_on :
    Std.Along input Allowed new abortInStep ∧
    ¬(Std.runInputs input new abortInStep).StopsBelow := by
  refine ⟨by decide, fun stops => ?_⟩
  have above : (Std.runInputs input new abortInStep).Above 0 2 :=
    .tail (.single (show _ = some 0 by decide)) (show _ = some 1 by decide)
  exact absurd (stops 0 2 above (by decide) (by decide)) (by decide)

end TaskRunner

end Libjingle.Tasks

import Libjingle.Tasks.Abort
import Mathlib.Data.List.Induction
import Mathlib.Algebra.Order.Group.Int

/-!
# Calls that leave the tree

A call that only wakes a task, flags an error or sets a timeout changes nothing in the tree and
deletes nothing. The next task to time out is found by the scan of `RecalcNextTimeout`, which is
the only loop among them.
-/

namespace Libjingle.Tasks

namespace TaskRunner

variable {s s' : TaskRunner} {id : Nat} {t : Task}

/-! ## The scan -/

/-- An unfinished task with a timeout, and its time. -/
def Pending (s : TaskRunner) (id : Nat) (time : Int) : Prop :=
  ∃ t, s.heap id = some t ∧ t.done = false ∧ t.timeoutTime = time ∧ time ≠ 0

/-- What the scan has found among some of the tasks. -/
structure Found (s : TaskRunner) (excludeTask : Option Nat) (scanned : List Nat)
    (best : Int × Option Nat) : Prop where
  nothing : best.2 = none → best.1 = 0 ∧ ∀ id ∈ scanned, ∀ time, s.Pending id time →
    excludeTask ≠ some id → time ≤ 0
  task : ∀ n, best.2 = some n → n ∈ scanned ∧ excludeTask ≠ some n ∧ 0 < best.1 ∧
    s.Pending n best.1 ∧ ∀ id ∈ scanned, ∀ time, s.Pending id time → excludeTask ≠ some id →
      0 < time → best.1 ≤ time

/-- A task that is not taken leaves what was found. -/
theorem Found.skip {excludeTask : Option Nat} {scanned : List Nat} {best : Int × Option Nat}
    (found : s.Found excludeTask scanned best)
    (later : ∀ time, s.Pending id time → excludeTask ≠ some id → 0 < time →
      best.1 ≠ 0 ∧ best.1 ≤ time) : s.Found excludeTask (scanned ++ [id]) best := by
  refine ⟨fun none => ⟨(found.nothing none).1, fun other listed time pending others => ?_⟩,
    fun n isFound => ?_⟩
  · rcases List.mem_append.mp listed with listed | listed
    · exact (found.nothing none).2 other listed time pending others
    · rw [List.mem_singleton.mp listed] at pending others
      by_contra positive
      exact (later time pending others (not_le.mp positive)).1 (found.nothing none).1
  · obtain ⟨listed, others, positive, pending, least⟩ := found.task n isFound
    refine ⟨List.mem_append_left _ listed, others, positive, pending,
      fun other listed time pending others positive => ?_⟩
    rcases List.mem_append.mp listed with listed | listed
    · exact least other listed time pending others positive
    · rw [List.mem_singleton.mp listed] at pending others
      exact (later time pending others positive).2

theorem Found.step {excludeTask : Option Nat} {scanned : List Nat} {best : Int × Option Nat}
    (found : s.Found excludeTask scanned best) (id : Nat) :
    s.Found excludeTask (scanned ++ [id]) (s.recalcStep excludeTask best id) := by
  unfold recalcStep
  cases here : s.heap id with
  | none =>
    refine found.skip fun time pending _ _ => ?_
    obtain ⟨t, isThere, -⟩ := pending
    rw [here] at isThere
    cases isThere
  | some t =>
    dsimp only
    split
    · next taken =>
      simp only [Bool.and_eq_true, Bool.not_eq_eq_eq_not, Bool.not_true, decide_eq_true_eq,
        Bool.or_eq_true] at taken
      obtain ⟨⟨⟨unfinished, positive⟩, others⟩, sooner⟩ := taken
      refine ⟨nofun, fun n isFound => ?_⟩
      cases isFound
      refine ⟨by simp, others, positive, ⟨t, here, unfinished, rfl, positive.ne'⟩,
        fun other listed time pending notExcluded positive => ?_⟩
      rcases List.mem_append.mp listed with listed | listed
      · cases before : best.2 with
        | none =>
          exact absurd positive
            (not_lt.mpr ((found.nothing before).2 other listed time pending notExcluded))
        | some n =>
          obtain ⟨-, -, bestPositive, -, least⟩ := found.task n before
          have := least other listed time pending notExcluded positive
          rcases sooner with isZero | sooner <;> omega
      · obtain ⟨u, there, -, isTime, -⟩ := pending
        rw [List.mem_singleton.mp listed, here] at there
        cases there
        exact isTime.le
    · next passed =>
      refine found.skip fun time pending notExcluded positive => ?_
      obtain ⟨u, there, unfinished, isTime, -⟩ := pending
      rw [here] at there
      cases there
      simp only [Bool.and_eq_true, Bool.not_eq_eq_eq_not, Bool.not_true, decide_eq_true_eq,
        Bool.or_eq_true, unfinished, isTime, positive, notExcluded, true_and, not_or, not_le,
        ne_eq, not_false_eq_true] at passed
      exact ⟨passed.1, passed.2.le⟩

theorem recalc_found (s : TaskRunner) (excludeTask : Option Nat) (tasks : List Nat) :
    s.Found excludeTask tasks (tasks.foldl (s.recalcStep excludeTask) (0, none)) := by
  induction tasks using List.reverseRecOn with
  | nil => exact ⟨fun _ => ⟨rfl, nofun⟩, nofun⟩
  | append_singleton tasks id ih =>
    rw [List.foldl_concat]
    exact ih.step id

/-! ## Quiet calls -/

/-- The task that is stepped. -/
def stepped (s : TaskRunner) : Option Nat :=
  (s.run.bind (·.step)).map (·.task)

/-- The tree is the same, and so are the tasks of the runner. -/
structure Quiet (s s' : TaskRunner) : Prop where
  nextId : s'.nextId = s.nextId
  tasks : s'.tasks = s.tasks
  stepped : s'.stepped = s.stepped
  running : s.run.isSome → s'.run.isSome
  broken : s'.broken = s.broken
  deleted : s'.deleted = s.deleted
  gone : ∀ id, s.heap id = none → s'.heap id = none
  alike : ∀ id t, s.heap id = some t → ∃ t', s'.heap id = some t' ∧ t.Alike t' ∧ t'.busy = t.busy
  next : ∀ id, s'.nextTimeoutTask = some id →
    s.nextTimeoutTask = some id ∨ (s.heap id).isSome

theorem Quiet.refl (s : TaskRunner) : s.Quiet s :=
  ⟨rfl, rfl, rfl, fun running => running, rfl, rfl, fun _ gone => gone,
    fun _ t here => ⟨t, here, ⟨rfl, rfl, fun aborted => aborted, rfl⟩, rfl⟩, fun _ same => .inl same⟩

theorem Quiet.isSome (quiet : s.Quiet s') (id : Nat) : (s'.heap id).isSome = (s.heap id).isSome := by
  cases before : s.heap id with
  | none => rw [quiet.gone id before]
  | some t =>
    obtain ⟨t', here, -⟩ := quiet.alike id t before
    rw [here]
    rfl

theorem Quiet.trans {u : TaskRunner} (first : s.Quiet s') (second : s'.Quiet u) : s.Quiet u where
  nextId := second.nextId.trans first.nextId
  tasks := second.tasks.trans first.tasks
  stepped := second.stepped.trans first.stepped
  running := second.running ∘ first.running
  broken := second.broken.trans first.broken
  deleted := second.deleted.trans first.deleted
  gone := fun id gone => second.gone id (first.gone id gone)
  alike := fun id t here => by
    obtain ⟨t', here, before, busyBefore⟩ := first.alike id t here
    obtain ⟨t'', here, after, busyAfter⟩ := second.alike id t' here
    exact ⟨t'', here, ⟨after.parent.trans before.parent, after.done.trans before.done,
      after.aborted ∘ before.aborted, after.children.trans before.children⟩,
      busyAfter.trans busyBefore⟩
  next := fun id isNext => by
    rcases second.next id isNext with isNext | live
    · exact first.next id isNext
    · exact .inr (first.isSome id ▸ live)

theorem modify_quiet (s : TaskRunner) (id : Nat) {f : Task → Task} (alike : ∀ t : Task, t.Alike (f t))
    (busy : ∀ t, (f t).busy = t.busy) : s.Quiet (s.modify id f) := by
  refine ⟨rfl, rfl, rfl, fun running => running, rfl, rfl, fun other gone => ?_,
    fun other t here => ?_, fun _ same => .inl same⟩
  · rw [heap_modify]
    split
    · next same => rw [← same, gone, Option.map_none]
    · exact gone
  · rw [heap_modify]
    split
    · next same =>
      rw [← same, here]
      exact ⟨_, rfl, alike t, busy t⟩
    · exact ⟨t, here, ⟨rfl, rfl, fun aborted => aborted, rfl⟩, rfl⟩

theorem Quiet.after_modify {f : Task → Task} (rest : (s.modify id f).Quiet s')
    (alike : ∀ t : Task, t.Alike (f t)) (busy : ∀ t, (f t).busy = t.busy) : s.Quiet s' :=
  (s.modify_quiet id alike busy).trans rest

/-- Only the next task to time out is another one. -/
theorem next_quiet (s : TaskRunner) {next : Option Nat}
    (live : ∀ id, next = some id → (s.heap id).isSome) :
    s.Quiet { s with nextTimeoutTask := next } :=
  { Quiet.refl s with next := fun id isNext => .inr (live id isNext) }

theorem recalcNextTimeout_quiet (s : TaskRunner) (excludeTask : Option Nat) :
    s.Quiet (s.recalcNextTimeout excludeTask) := by
  refine s.next_quiet fun id isFound => ?_
  obtain ⟨-, -, -, ⟨t, here, -⟩, -⟩ := (s.recalc_found excludeTask s.tasks).task id isFound
  rw [here]
  rfl

theorem updateTaskTimeout_quiet (s : TaskRunner) (id : Nat) : s.Quiet (s.updateTaskTimeout id) := by
  unfold updateTaskTimeout
  cases here : s.heap id with
  | none => exact .refl s
  | some t =>
    dsimp only
    split
    · split
      · refine s.next_quiet fun other isNext => ?_
        cases isNext
        rw [here]
        rfl
      · exact .refl s
    · split
      · exact s.recalcNextTimeout_quiet _
      · exact .refl s

theorem resetTimeout_quiet (s : TaskRunner) (id : Nat) : s.Quiet (s.resetTimeout id) :=
  .after_modify (updateTaskTimeout_quiet _ id)
    (fun _ => ⟨rfl, rfl, fun aborted => aborted, rfl⟩) fun _ => rfl

theorem clearTimeout_quiet (s : TaskRunner) (id : Nat) : s.Quiet (s.clearTimeout id) :=
  .after_modify (updateTaskTimeout_quiet _ id)
    (fun _ => ⟨rfl, rfl, fun aborted => aborted, rfl⟩) fun _ => rfl

theorem setTimeoutSeconds_quiet (s : TaskRunner) (id : Nat) (seconds : Int) :
    s.Quiet (s.setTimeoutSeconds id seconds) :=
  .after_modify (resetTimeout_quiet _ id)
    (fun _ => ⟨rfl, rfl, fun aborted => aborted, rfl⟩) fun _ => rfl

theorem setSuspended_quiet (s : TaskRunner) (id : Nat) (suspended : Bool) :
    s.Quiet (s.setSuspended id suspended) := by
  unfold setSuspended
  split
  · exact .refl s
  · split
    · exact .refl s
    · exact .after_modify (resetTimeout_quiet _ id)
        (fun _ => ⟨rfl, rfl, fun aborted => aborted, rfl⟩) fun _ => rfl

theorem wake_quiet (s : TaskRunner) (id : Nat) : s.Quiet (s.wake id) := by
  unfold wake
  split
  · exact .refl s
  · split
    · exact .refl s
    · exact s.modify_quiet id (fun _ => ⟨rfl, rfl, fun aborted => aborted, rfl⟩) fun _ => rfl

theorem error_quiet (s : TaskRunner) (id : Nat) : s.Quiet (s.error id) := by
  unfold error
  split
  · exact .refl s
  · split
    · exact .refl s
    · exact .after_modify (wake_quiet _ id)
        (fun _ => ⟨rfl, rfl, fun aborted => aborted, rfl⟩) fun _ => rfl

theorem setPolls_quiet (s : TaskRunner) (polls : List Nat) : s.Quiet (s.setPolls polls) := by
  unfold setPolls
  split
  · next run =>
    refine { Quiet.refl s with stepped := ?_, running := fun _ => rfl }
    unfold stepped setRun
    rw [run]
    rfl
  · exact { Quiet.refl s with }

/-- The loop of `PollTasks`, where the next task to time out is there. -/
theorem pollTasks_quiet (oldTimeoutTask : Option Nat)
    (live : ∀ id, s.nextTimeoutTask = some id → (s.heap id).isSome) :
    s.Quiet (s.pollTasks oldTimeoutTask) := by
  unfold pollTasks
  split
  · exact .refl s
  · next id isNext =>
    split
    · next gone =>
      have isLive := live id isNext
      rw [gone] at isLive
      cases isLive
    · split
      · exact (s.wake_quiet id).trans (setPolls_quiet _ _)
      · exact .refl s

theorem wakeTasksReturned_quiet
    (live : ∀ id, s.nextTimeoutTask = some id → (s.heap id).isSome) :
    s.Quiet s.wakeTasksReturned := by
  unfold wakeTasksReturned
  split
  · exact .refl s
  · next polls _ =>
    have quiet := s.setPolls_quiet polls
    refine quiet.trans (pollTasks_quiet _ fun id isNext => ?_)
    rw [quiet.isSome]
    exact (quiet.next id isNext).elim (live id) fun isLive => isLive

end TaskRunner

end Libjingle.Tasks

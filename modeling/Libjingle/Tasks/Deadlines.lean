import Libjingle.Tasks.Loop

/-!
# The next task to time out

The runner keeps the task with the earliest deadline. A call that sets no deadline, and finishes
tasks at most, leaves it the earliest. A call that sets one repairs it in one of three ways: the
task becomes the next one, the next one stays, or all tasks are scanned.
-/

namespace Libjingle.Tasks

/-- The deadline is the same, and a task that has left its first state, which only one of the
runner does, stays out of it. -/
structure Task.SameTimes (listed : Prop) (t t' : Task) : Prop where
  timeoutTime : t'.timeoutTime = t.timeoutTime
  timeoutSeconds : t'.timeoutSeconds = t.timeoutSeconds
  left : t.state ≠ stateInit → t'.state ≠ stateInit
  leaves : t'.state ≠ stateInit → t.state ≠ stateInit ∨ listed
  done : t.done = true → t'.done = true

theorem Task.SameTimes.of_eq {listed : Prop} {t t' : Task} (timeoutTime : t'.timeoutTime = t.timeoutTime)
    (timeoutSeconds : t'.timeoutSeconds = t.timeoutSeconds) (state : t'.state = t.state)
    (done : t.done = true → t'.done = true) : t.SameTimes listed t' :=
  ⟨timeoutTime, timeoutSeconds, fun left => by rwa [state], fun left => .inl (by rwa [← state]), done⟩

namespace TaskRunner

variable {s s' : TaskRunner} {id : Nat} {t : Task}

/-! ## The invariant -/

/-- Only a task that has left its first state has a deadline, and no unfinished one has one in
the past of the clock. -/
structure Clock (s : TaskRunner) : Prop where
  started : ∀ id t, s.heap id = some t → t.state ≠ stateInit → id ∈ s.tasks
  timeout : ∀ id t, s.heap id = some t → t.timeoutTime ≠ 0 →
    t.state ≠ stateInit ∧ t.timeoutSeconds ≠ 0
  positive : ∀ id time, s.Pending id time → 0 < time

/-- No unfinished task has an earlier deadline than the next one. -/
structure Scheduled (s : TaskRunner) : Prop where
  nothing : s.nextTimeoutTask = none → ∀ id time, ¬s.Pending id time
  next : ∀ n, s.nextTimeoutTask = some n → ∃ t, s.heap n = some t ∧ t.timeoutTime ≠ 0 ∧
    ∀ id time, s.Pending id time → t.timeoutTime ≤ time

theorem Clock.listed (clock : s.Clock) {time : Int} (pending : s.Pending id time) : id ∈ s.tasks := by
  obtain ⟨t, here, -, isTime, hasTimeout⟩ := pending
  exact clock.started id t here (clock.timeout id t here (isTime ▸ hasTimeout)).1

/-! ## Calls that set no deadline -/

structure Still (s s' : TaskRunner) : Prop where
  next : s'.nextTimeoutTask = s.nextTimeoutTask
  tasks : ∀ id ∈ s.tasks, id ∈ s'.tasks
  old : ∀ id t, s.heap id = some t → ∃ t', s'.heap id = some t' ∧ t'.timeoutTime = t.timeoutTime
  new : ∀ id t', s'.heap id = some t' → t'.state = stateInit ∧ t'.timeoutTime = 0 ∨
    ∃ t, s.heap id = some t ∧ t.SameTimes (id ∈ s.tasks) t'

theorem Still.refl (s : TaskRunner) : s.Still s :=
  ⟨rfl, fun _ listed => listed, fun _ t here => ⟨t, here, rfl⟩,
    fun _ t here => .inr ⟨t, here, .of_eq rfl rfl rfl fun done => done⟩⟩

theorem Still.frame {u : TaskRunner} (still : s.Still s') (frame : s'.Frame u) : s.Still u := by
  refine ⟨frame.nextTimeoutTask.trans still.next, fun id listed => ?_, fun id t here => ?_,
    fun id t' here => ?_⟩
  · rw [frame.tasks]
    exact still.tasks id listed
  · obtain ⟨t', here, sameTime⟩ := still.old id t here
    obtain ⟨t'', here, later⟩ := frame.later id t' here
    exact ⟨t'', here, later.timeoutTime.trans sameTime⟩
  · obtain ⟨v, was, later⟩ := frame.earlier here
    rcases still.new id v was with ⟨isInit, noTimeout⟩ | ⟨t, before, same⟩
    · exact .inl ⟨later.state.trans isInit, later.timeoutTime.trans noTimeout⟩
    · refine .inr ⟨t, before, later.timeoutTime.trans same.timeoutTime,
        later.timeoutSeconds.trans same.timeoutSeconds, fun left => ?_, fun left => ?_,
        later.done ∘ same.done⟩
      · rw [later.state]
        exact same.left left
      · exact same.leaves (later.state ▸ left)

theorem Frame.still (frame : s.Frame s') : s.Still s' :=
  (Still.refl s).frame frame

theorem modify_still (s : TaskRunner) (id : Nat) {f : Task → Task}
    (same : ∀ t : Task, t.SameTimes (id ∈ s.tasks) (f t)) : s.Still (s.modify id f) := by
  refine ⟨rfl, fun _ listed => listed, fun other t here => ?_, fun other t' here => ?_⟩
  · rw [heap_modify]
    split
    · next equal =>
      rw [← equal, here]
      exact ⟨_, rfl, (same t).timeoutTime⟩
    · exact ⟨t, here, rfl⟩
  · rw [heap_modify] at here
    split at here
    · next equal =>
      obtain ⟨t, was, rfl⟩ := Option.map_eq_some_iff.mp here
      exact .inr ⟨t, equal ▸ was, equal ▸ same t⟩
    · exact .inr ⟨t', here, .of_eq rfl rfl rfl fun done => done⟩

/-- What is pending was so before. -/
theorem Still.pending (still : s.Still s') {time : Int} (pending : s'.Pending id time) :
    s.Pending id time := by
  obtain ⟨t', here, unfinished, isTime, hasTimeout⟩ := pending
  rcases still.new id t' here with ⟨-, noTimeout⟩ | ⟨t, was, same⟩
  · exact absurd (isTime.symm.trans noTimeout) hasTimeout
  · refine ⟨t, was, ?_, same.timeoutTime ▸ isTime, hasTimeout⟩
    cases done : t.done with
    | false => rfl
    | true =>
      rw [same.done done] at unfinished
      cases unfinished

theorem Clock.still (clock : s.Clock) (still : s.Still s') : s'.Clock where
  started := fun id t' here left => by
    rcases still.new id t' here with ⟨isInit, -⟩ | ⟨t, was, same⟩
    · exact absurd isInit left
    · rcases same.leaves left with left | listed
      · exact still.tasks id (clock.started id t was left)
      · exact still.tasks id listed
  timeout := fun id t' here hasTimeout => by
    rcases still.new id t' here with ⟨-, noTimeout⟩ | ⟨t, was, same⟩
    · exact absurd noTimeout hasTimeout
    · obtain ⟨left, seconds⟩ := clock.timeout id t was (same.timeoutTime ▸ hasTimeout)
      exact ⟨same.left left, same.timeoutSeconds ▸ seconds⟩
  positive := fun id time pending => clock.positive id time (still.pending pending)

theorem Scheduled.still (scheduled : s.Scheduled) (still : s.Still s') : s'.Scheduled where
  nothing := fun isNone id time pending =>
    scheduled.nothing (still.next ▸ isNone) id time (still.pending pending)
  next := fun n isNext => by
    obtain ⟨t, here, hasTimeout, least⟩ := scheduled.next n (still.next ▸ isNext)
    obtain ⟨t', here', sameTime⟩ := still.old n t here
    rw [← sameTime] at hasTimeout least
    exact ⟨t', here', hasTimeout, fun id time pending => least id time (still.pending pending)⟩

/-! ## The scan -/

/-- The scan finds the earliest deadline, where the excluded task has none. -/
theorem Clock.recalc {excludeTask : Option Nat} (clock : s.Clock)
    (excluded : ∀ id time, excludeTask = some id → ¬s.Pending id time) :
    (s.recalcNextTimeout excludeTask).Scheduled := by
  have found := s.recalc_found excludeTask s.tasks
  have others : ∀ id time, s.Pending id time → excludeTask ≠ some id :=
    fun id time pending isExcluded => excluded id time isExcluded pending
  refine ⟨fun isNone id time pending => ?_, fun n isNext => ?_⟩
  · have past := (found.nothing isNone).2 id (clock.listed pending) time pending
      (others id time pending)
    have := clock.positive id time pending
    omega
  · obtain ⟨-, -, -, ⟨t, here, -, isTime, hasTimeout⟩, least⟩ := found.task n isNext
    rw [← isTime] at hasTimeout least
    exact ⟨t, here, hasTimeout, fun id time pending => least id (clock.listed pending) time pending
      (others id time pending) (clock.positive id time pending)⟩

/-! ## Calls that set a deadline -/

/-- The deadline of the task that is next does not move behind another one. -/
def Rescanned (s : TaskRunner) (id : Nat) (time : Int) : Prop :=
  time ≠ 0 → s.nextTimeoutTask = some id → ∀ other ∈ s.tasks, other ≠ id →
    (s.heap other).all fun u => u.done || u.timeoutTime = 0 || time ≤ u.timeoutTime

theorem Rescanned.le (rescanned : s.Rescanned id t.timeoutTime) (clock : s.Clock)
    (hasTimeout : t.timeoutTime ≠ 0) (isNext : s.nextTimeoutTask = some id) {other : Nat} {time : Int}
    (differs : other ≠ id) (pending : s.Pending other time) : t.timeoutTime ≤ time := by
  have later := rescanned hasTimeout isNext other (clock.listed pending) differs
  obtain ⟨u, here, unfinished, rfl, otherTimeout⟩ := pending
  simpa [here, unfinished, otherTimeout] using later

variable {f : Task → Task}

theorem modify_pending (present : s.heap id = some t) {other : Nat} {time : Int}
    (pending : (s.modify id f).Pending other time) :
    (other = id ∧ (f t).timeoutTime = time ∧ (f t).done = false) ∨
      (other ≠ id ∧ s.Pending other time) := by
  obtain ⟨u, here, unfinished, isTime, hasTimeout⟩ := pending
  rw [heap_modify] at here
  split at here
  · next same =>
    rw [present] at here
    cases here
    exact .inl ⟨same, isTime, unfinished⟩
  · next differs => exact .inr ⟨differs, u, here, unfinished, isTime, hasTimeout⟩

theorem Clock.modify (clock : s.Clock) (present : s.heap id = some t)
    (started : (f t).state ≠ stateInit → id ∈ s.tasks)
    (timeout : (f t).timeoutTime ≠ 0 → (f t).state ≠ stateInit ∧ (f t).timeoutSeconds ≠ 0)
    (positive : 0 ≤ (f t).timeoutTime) : (s.modify id f).Clock := by
  refine ⟨fun other u here left => ?_, fun other u here hasTimeout => ?_,
    fun other time pending => ?_⟩
  · rw [heap_modify] at here
    split at here
    · next same =>
      rw [present] at here
      cases here
      exact same ▸ started left
    · exact clock.started other u here left
  · rw [heap_modify] at here
    split at here
    · rw [present] at here
      cases here
      exact timeout hasTimeout
    · exact clock.timeout other u here hasTimeout
  · have nonzero : time ≠ 0 := by
      obtain ⟨-, -, -, -, hasTimeout⟩ := pending
      exact hasTimeout
    rcases modify_pending present pending with ⟨-, rfl, -⟩ | ⟨-, pending⟩
    · omega
    · exact clock.positive other time pending

/-- A task with a new deadline, where `UpdateTaskTimeout` is called. -/
theorem Scheduled.retime (scheduled : s.Scheduled) (clock : s.Clock) (present : s.heap id = some t)
    (after : (s.modify id f).Clock) (rescanned : s.Rescanned id (f t).timeoutTime) :
    ((s.modify id f).updateTaskTimeout id).Scheduled := by
  have here : (s.modify id f).heap id = some (f t) := by
    rw [heap_modify, if_pos rfl, present]
    rfl
  unfold updateTaskTimeout
  rw [here]
  dsimp only
  by_cases hasTimeout : (f t).timeoutTime ≠ 0
  · rw [if_pos hasTimeout]
    split
    · -- The task becomes the next one, or stays it.
      next sooner =>
      refine ⟨nofun, fun n isNext => ?_⟩
      cases isNext
      refine ⟨f t, here, hasTimeout, fun other time pending => ?_⟩
      rcases modify_pending present pending with ⟨-, isTime, -⟩ | ⟨differs, pending⟩
      · exact isTime.le
      · cases before : s.nextTimeoutTask with
        | none => exact absurd pending (scheduled.nothing before other time)
        | some n =>
          by_cases own : n = id
          · exact rescanned.le clock hasTimeout (own ▸ before) differs pending
          · obtain ⟨u, there, -, least⟩ := scheduled.next n before
            have le : (f t).timeoutTime ≤ u.timeoutTime := by
              have unchanged : (s.modify id f).heap n = some u := by
                rw [heap_modify, if_neg own, there]
              have sameNext : (s.modify id f).nextTimeoutTask = some n := before
              simpa [nextTaskTimeout, sameNext, unchanged] using sooner
            exact le.trans (least other time pending)
    · next later =>
      simp only [Bool.or_eq_true, decide_eq_true_eq, not_or, not_le] at later
      refine ⟨fun isNone => absurd isNone later.1, fun n isNext => ?_⟩
      have own : n ≠ id := by
        rintro rfl
        have := later.2
        simp only [nextTaskTimeout, isNext, Option.bind_some, here] at this
        exact lt_irrefl _ this
      obtain ⟨u, there, nextTimeout, least⟩ := scheduled.next n isNext
      have unchanged : (s.modify id f).heap n = some u := by rw [heap_modify, if_neg own, there]
      refine ⟨u, unchanged, nextTimeout, fun other time pending => ?_⟩
      rcases modify_pending present pending with ⟨-, rfl, -⟩ | ⟨-, pending⟩
      · have := later.2
        simp only [nextTaskTimeout, isNext, Option.bind_some, unchanged] at this
        exact this.le
      · exact least other time pending
  · rw [if_neg hasTimeout]
    have noTimeout := not_not.mp hasTimeout
    have gone : ∀ time, ¬(s.modify id f).Pending id time := by
      rintro time ⟨u, there, -, isTime, nonzero⟩
      rw [here] at there
      cases there
      exact nonzero (isTime.symm.trans noTimeout)
    split
    · exact after.recalc fun other time same => Option.some.inj same ▸ gone time
    · next notNext =>
      refine ⟨fun isNone other time pending => ?_, fun n isNext => ?_⟩
      · rcases modify_pending present pending with ⟨rfl, -, -⟩ | ⟨-, pending⟩
        · exact gone time ‹_›
        · exact scheduled.nothing isNone other time pending
      · have own : n ≠ id := fun same => notNext (same ▸ isNext)
        obtain ⟨u, there, nextTimeout, least⟩ := scheduled.next n isNext
        refine ⟨u, by rw [heap_modify, if_neg own, there], nextTimeout, fun other time pending => ?_⟩
        rcases modify_pending present pending with ⟨rfl, -, -⟩ | ⟨-, pending⟩
        · exact absurd ‹_› (gone time)
        · exact least other time pending

end TaskRunner

end Libjingle.Tasks

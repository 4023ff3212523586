import Libjingle.Tasks.Deadlines
import Libjingle.Tasks.Lifetime

/-!
# Timeouts are scheduled

Where the runner repairs the next task to time out, it is the one with the earliest deadline. It
does not repair it where `ResetTimeout` moves the deadline of the next task behind another one,
where a negative deadline is set, and where a task is finished, or a finished one sets a timeout,
outside of a run. `PollTasks` stops at a task that it has woken and that is still the next one.
-/

namespace Libjingle.Tasks

namespace TaskRunner

variable {s s' : TaskRunner} {id : Nat} {t : Task} {f : Task → Task}

/-! ## Calls that set no deadline -/

theorem wake_still (s : TaskRunner) (id : Nat) : s.Still (s.wake id) := by
  unfold wake
  split
  · exact .refl s
  · split
    · exact .refl s
    · exact s.modify_still id fun _ => .of_eq rfl rfl rfl fun done => done

theorem error_still (s : TaskRunner) (id : Nat) : s.Still (s.error id) := by
  unfold error
  split
  · exact .refl s
  · split
    · exact .refl s
    · unfold wake
      split
      · exact s.modify_still id fun _ => .of_eq rfl rfl rfl fun done => done
      · split
        · exact s.modify_still id fun _ => .of_eq rfl rfl rfl fun done => done
        · rw [modify_modify]
          exact s.modify_still id fun _ => .of_eq rfl rfl rfl fun done => done

theorem Still.of_eq (next : s'.nextTimeoutTask = s.nextTimeoutTask) (tasks : s'.tasks = s.tasks)
    (heap : s'.heap = s.heap) : s.Still s' :=
  ⟨next, fun _ listed => tasks ▸ listed, fun _ t here => ⟨t, heap ▸ here, rfl⟩,
    fun _ t here => .inr ⟨t, heap ▸ here, .of_eq rfl rfl rfl fun done => done⟩⟩

/-- Only the calls of `PollTasks` are others. -/
theorem setPolls_eq (s : TaskRunner) (polls : List Nat) :
    (s.setPolls polls).heap = s.heap ∧ (s.setPolls polls).tasks = s.tasks ∧
    (s.setPolls polls).nextTimeoutTask = s.nextTimeoutTask ∧
    (s.setPolls polls).currentTime = s.currentTime ∧ (s.setPolls polls).currentPolls = polls := by
  unfold setPolls
  split
  · exact ⟨rfl, rfl, rfl, rfl, rfl⟩
  · next other =>
    refine ⟨rfl, rfl, rfl, rfl, ?_⟩
    unfold currentPolls
    split
    · next index didRun stepping running => exact absurd running (other index didRun stepping)
    · rfl

/-- The loop of `PollTasks` ends, or wakes the next task. -/
theorem pollTasks_cases (oldTimeoutTask : Option Nat)
    (live : ∀ id, s.nextTimeoutTask = some id → (s.heap id).isSome) :
    (s.pollTasks oldTimeoutTask = s ∧ ∀ n t, s.nextTimeoutTask = some n → s.heap n = some t →
      oldTimeoutTask = some n ∨ t.timedOut s.currentTime = false) ∨
    ∃ n, s.pollTasks oldTimeoutTask = (s.wake n).setPolls (n :: s.currentPolls) := by
  unfold pollTasks
  split
  · next isNone => exact .inl ⟨rfl, fun n t isNext => absurd isNext (by simp [isNone])⟩
  · next id isNext =>
    obtain ⟨t, here⟩ := Option.isSome_iff_exists.mp (live id isNext)
    rw [here]
    dsimp only
    split
    · exact .inr ⟨id, rfl⟩
    · next ends =>
      refine .inl ⟨rfl, fun n u isAlso there => ?_⟩
      rw [isNext] at isAlso
      cases isAlso
      rw [here] at there
      cases there
      by_cases old : oldTimeoutTask = some id
      · exact .inl old
      · exact .inr (by simpa [old] using ends)

theorem pollTasks_still (oldTimeoutTask : Option Nat)
    (live : ∀ id, s.nextTimeoutTask = some id → (s.heap id).isSome) :
    s.Still (s.pollTasks oldTimeoutTask) := by
  rcases pollTasks_cases oldTimeoutTask live with ⟨same, -⟩ | ⟨n, wakes⟩
  · rw [same]
    exact .refl s
  · rw [wakes]
    obtain ⟨heap, tasks, next, -⟩ := setPolls_eq (s.wake n) (n :: s.currentPolls)
    have woken := s.wake_still n
    exact ⟨next.trans woken.next, fun id listed => tasks ▸ woken.tasks id listed,
      fun id t here => heap ▸ woken.old id t here, fun id t here => woken.new id t (heap ▸ here)⟩

theorem wakeTasksReturned_still (live : ∀ id, s.nextTimeoutTask = some id → (s.heap id).isSome) :
    s.Still s.wakeTasksReturned := by
  unfold wakeTasksReturned
  split
  · exact .refl s
  · next id polls _ =>
    obtain ⟨heap, tasks, next, -⟩ := setPolls_eq s polls
    have polled := pollTasks_still (s := s.setPolls polls) (some id) fun n isNext =>
      heap ▸ live n (next ▸ isNext)
    exact ⟨polled.next.trans next, fun n listed => polled.tasks n (tasks ▸ listed),
      fun n t here => polled.old n t (heap ▸ here),
      fun n t here => (polled.new n t here).imp_right fun ⟨u, was, same⟩ =>
        ⟨u, heap ▸ was, tasks ▸ same⟩⟩

theorem create_still {parent : Option Nat} (sound : s.Sound) : s.Still (s.create parent) := by
  by_cases live : ∀ p, parent = some p → (s.heap p).isSome
  · obtain ⟨tasks, -, next, -⟩ := s.create_rest parent
    refine ⟨next, fun id listed => tasks ▸ listed, fun id t here => ⟨_, create_stays sound.tree live
      here, rfl⟩, fun id t here => ?_⟩
    rcases create_cases live here with ⟨-, rfl⟩ | ⟨-, u, was, rfl⟩
    · exact .inl ⟨rfl, rfl⟩
    · exact .inr ⟨u, was, .of_eq rfl rfl rfl fun done => done⟩
  · push Not at live
    obtain ⟨p, rfl, gone⟩ := live
    have same : s.create (some p) = s := by
      simp only [TaskRunner.create, Option.not_isSome_iff_eq_none.mp gone]
    rw [same]
    exact .refl s

/-- A task that is started has no deadline, so that `UpdateTaskTimeout` does nothing. -/
theorem start_still (clock : s.Clock) (scheduled : s.Scheduled) : s.Still (s.start id) := by
  unfold start
  split
  · exact .refl s
  · next t here =>
    split
    · exact .refl s
    · next isInit =>
      have noTimeout : t.timeoutTime = 0 := by
        by_contra hasTimeout
        exact (clock.timeout id t here hasTimeout).1 (not_not.mp isInit)
      have notNext : s.nextTimeoutTask ≠ some id := by
        intro isNext
        obtain ⟨u, there, hasTimeout, -⟩ := scheduled.next id isNext
        rw [here] at there
        cases there
        exact hasTimeout noTimeout
      have started := s.modify_still id (f := fun t => { t with startTime := s.currentTime })
        fun _ => .of_eq rfl rfl rfl fun done => done
      unfold updateTaskTimeout
      dsimp only
      rw [heap_modify, if_pos rfl, here]
      dsimp only [Option.map_some]
      rw [if_neg (not_not.mpr noTimeout)]
      rw [if_neg (show (s.modify id _).nextTimeoutTask ≠ some id from notNext)]
      exact ⟨started.next, fun other listed => List.mem_append_left _ (started.tasks other listed),
        started.old, started.new⟩

/-! ## Calls that set a deadline -/

/-- What the runner does not repair: a deadline below zero, one of the next task that moves behind
another one, and one of a finished task that becomes the next outside of a run. -/
structure Resets (s : TaskRunner) (id : Nat) (time : Int) : Prop where
  nonneg : 0 ≤ time
  rescanned : s.Rescanned id time
  unfinished : s.run = none → s.finished id = true → time ≠ 0 →
    s.nextTimeoutTask ≠ none ∧ s.nextTaskTimeout < time

instance (s : TaskRunner) (id : Nat) (time : Int) : Decidable (s.Rescanned id time) := by
  unfold Rescanned
  infer_instance

instance (s : TaskRunner) (id : Nat) (time : Int) : Decidable (s.Resets id time) :=
  decidable_of_iff (0 ≤ time ∧ s.Rescanned id time ∧ (s.run = none → s.finished id = true →
      time ≠ 0 → s.nextTimeoutTask ≠ none ∧ s.nextTaskTimeout < time))
    ⟨fun ⟨nonneg, rescanned, unfinished⟩ => ⟨nonneg, rescanned, unfinished⟩,
      fun resets => ⟨resets.nonneg, resets.rescanned, resets.unfinished⟩⟩

/-- Outside of a run the next task is not finished. -/
def Settled (s : TaskRunner) : Prop :=
  s.run = none → ∀ n t, s.nextTimeoutTask = some n → s.heap n = some t → t.done = false

theorem Settled.still (settled : s.Settled) (still : s.Still s') (run : s'.run = none → s.run = none)
    (stays : s.run = none → ∀ n t t', s.nextTimeoutTask = some n → s.heap n = some t →
      s'.heap n = some t' → t.done = false → t'.done = false)
    (scheduled : s.Scheduled) : s'.Settled := by
  intro stopped n t' isNext here
  rw [still.next] at isNext
  obtain ⟨t, was, -⟩ := scheduled.next n isNext
  exact stays (run stopped) n t t' isNext was here (settled (run stopped) n t isNext was)

theorem Settled.quiet (settled : s.Settled) (still : s.Still s') (quiet : s.Quiet s')
    (scheduled : s.Scheduled) : s'.Settled := by
  refine settled.still still (fun stopped => ?_) (fun _ n t t' _ was here unfinished => ?_) scheduled
  · by_contra running
    have := quiet.running (Option.isSome_iff_ne_none.mpr running)
    rw [stopped] at this
    cases this
  · obtain ⟨u, there, alike, -⟩ := quiet.alike n t was
    rw [here] at there
    cases there
    exact alike.done.trans unfinished

theorem deadline_fits (t : Task) (currentTime : Int) (hasTimeout : t.deadline currentTime ≠ 0) :
    t.state ≠ stateInit ∧ t.timeoutSeconds ≠ 0 := by
  unfold Task.deadline at hasTimeout
  split at hasTimeout
  · next allowed =>
    simp only [Task.timeoutAllowed, Bool.and_eq_true, decide_eq_true_eq] at allowed
    exact ⟨allowed.1.2.1.1, allowed.1.1⟩
  · exact absurd rfl hasTimeout

theorem updateTaskTimeout_next (present : s.heap id = some t) {n : Nat}
    (isNext : (s.updateTaskTimeout id).nextTimeoutTask = some n) :
    s.nextTimeoutTask = some n ∨ (∃ time, s.Pending n time) ∨
      (n = id ∧ t.timeoutTime ≠ 0 ∧
        (s.nextTimeoutTask = none ∨ t.timeoutTime ≤ s.nextTaskTimeout)) := by
  unfold updateTaskTimeout at isNext
  rw [present] at isNext
  dsimp only at isNext
  split at isNext
  · next hasTimeout =>
    split at isNext
    · next sooner =>
      cases isNext
      exact .inr (.inr ⟨rfl, hasTimeout, by simpa using sooner⟩)
    · exact .inl isNext
  · split at isNext
    · obtain ⟨-, -, -, pending, -⟩ := (s.recalc_found (some id) s.tasks).task n isNext
      exact .inr (.inl ⟨_, pending⟩)
    · exact .inl isNext

theorem updateTaskTimeout_eq (s : TaskRunner) (id : Nat) :
    (s.updateTaskTimeout id).heap = s.heap ∧ (s.updateTaskTimeout id).tasks = s.tasks ∧
    (s.updateTaskTimeout id).run = s.run := by
  unfold updateTaskTimeout
  split
  · exact ⟨rfl, rfl, rfl⟩
  · split
    · split <;> exact ⟨rfl, rfl, rfl⟩
    · split <;> exact ⟨rfl, rfl, rfl⟩

theorem Clock.of_eq (clock : s.Clock) (heap : s'.heap = s.heap) (tasks : s'.tasks = s.tasks) :
    s'.Clock :=
  ⟨fun id t here left => tasks ▸ clock.started id t (heap ▸ here) left,
    fun id t here hasTimeout => clock.timeout id t (heap ▸ here) hasTimeout,
    fun id time ⟨t, here, rest⟩ => clock.positive id time ⟨t, heap ▸ here, rest⟩⟩

/-- The three invariants of the schedule. -/
structure OnTime (s : TaskRunner) : Prop where
  clock : s.Clock
  scheduled : s.Scheduled
  settled : s.Settled

/-- A task has changed, and `UpdateTaskTimeout` is called. -/
theorem OnTime.retime (onTime : s.OnTime) (present : s.heap id = some t)
    (alike : ∀ t : Task, t.Alike (f t)) (started : (f t).state ≠ stateInit → id ∈ s.tasks)
    (timeout : (f t).timeoutTime ≠ 0 → (f t).state ≠ stateInit ∧ (f t).timeoutSeconds ≠ 0)
    (resets : s.Resets id (f t).timeoutTime) : ((s.modify id f).updateTaskTimeout id).OnTime := by
  have after : (s.modify id f).Clock := onTime.clock.modify present started timeout resets.nonneg
  have here : (s.modify id f).heap id = some (f t) := by
    rw [heap_modify, if_pos rfl, present]
    rfl
  obtain ⟨heap, tasks, run⟩ := updateTaskTimeout_eq (s.modify id f) id
  refine ⟨after.of_eq heap tasks,
    onTime.scheduled.retime onTime.clock present after resets.rescanned,
    fun stopped n u isNext there => ?_⟩
  have outside : s.run = none := run ▸ stopped
  rw [heap] at there
  -- The task that was next is unfinished, also where it is the one that has changed.
  have unfinished : s.nextTimeoutTask = some n → u.done = false := by
    intro isNext
    rw [heap_modify] at there
    split at there
    · next same =>
      rw [present] at there
      cases there
      exact (alike t).done.trans (onTime.settled outside id t (same ▸ isNext) present)
    · exact onTime.settled outside n u isNext there
  rcases updateTaskTimeout_next here isNext with isNext | ⟨time, v, same, isUnfinished, -⟩ |
      ⟨rfl, hasTimeout, sooner⟩
  · exact unfinished isNext
  · rw [same] at there
    cases there
    exact isUnfinished
  · rw [here] at there
    cases there
    by_contra isDone
    have done : t.done = true := (alike t).done.symm.trans (by simpa using isDone)
    obtain ⟨isSome, earlier⟩ :=
      resets.unfinished outside (by simp [finished, present, done]) hasTimeout
    obtain ⟨m, wasNext⟩ := Option.ne_none_iff_exists'.mp isSome
    have differs : m ≠ n := by
      rintro rfl
      rw [onTime.settled outside m t wasNext present] at done
      cases done
    rcases sooner with isNone | sooner
    · exact isSome isNone
    · have sameNext : (s.modify n f).nextTimeoutTask = some m := wasNext
      simp only [nextTaskTimeout, sameNext, wasNext, Option.bind_some, heap_modify, if_neg differs]
        at sooner earlier
      omega

/-- `ResetTimeout` of a task that has changed. -/
theorem OnTime.reset (onTime : s.OnTime) (present : s.heap id = some t)
    (alike : ∀ t : Task, t.Alike (f t)) (started : (f t).state ≠ stateInit → id ∈ s.tasks)
    (resets : s.Resets id ((f t).deadline s.currentTime)) :
    ((s.modify id f).resetTimeout id).OnTime := by
  have both : (s.modify id f).resetTimeout id =
      (s.modify id fun t => { f t with timeoutTime := (f t).deadline s.currentTime }).updateTaskTimeout
        id := by
    unfold resetTimeout
    rw [modify_modify]
    rfl
  rw [both]
  exact onTime.retime present
    (fun t => ⟨(alike t).parent, (alike t).done, (alike t).aborted, (alike t).children⟩) started
    (deadline_fits (f t) s.currentTime) resets

theorem resets_zero (s : TaskRunner) (id : Nat) : s.Resets id 0 :=
  ⟨le_rfl, fun nonzero => absurd rfl nonzero, fun _ _ nonzero => absurd rfl nonzero⟩

theorem OnTime.still (onTime : s.OnTime) (still : s.Still s') (run : s'.run = none → s.run = none)
    (stays : s.run = none → ∀ n t t', s.nextTimeoutTask = some n → s.heap n = some t →
      s'.heap n = some t' → t.done = false → t'.done = false) : s'.OnTime :=
  ⟨onTime.clock.still still, onTime.scheduled.still still,
    onTime.settled.still still run stays onTime.scheduled⟩

theorem OnTime.quiet (onTime : s.OnTime) (still : s.Still s') (quiet : s.Quiet s') : s'.OnTime :=
  ⟨onTime.clock.still still, onTime.scheduled.still still,
    onTime.settled.quiet still quiet onTime.scheduled⟩

/-- In a run it does not matter whether the next task is finished. -/
theorem OnTime.inRun (onTime : s.OnTime) (still : s.Still s') (running : s'.run.isSome) : s'.OnTime :=
  ⟨onTime.clock.still still, onTime.scheduled.still still, fun stopped => by
    rw [stopped] at running
    cases running⟩

/-! ## The inputs -/

/-- What the code of others must leave out: a deadline that the runner does not repair, an abort
outside of a run that finishes the next task, and a `WakeTasks` that leaves the task that was
woken the next one while another deadline has passed. -/
def Prompt (s : TaskRunner) : TaskInput → Prop
  | .setTimeoutSeconds id seconds => ∀ t ∈ s.heap id,
      s.Resets id ({ t with timeoutSeconds := seconds }.deadline s.currentTime)
  | .resumeTimeout id => ∀ t ∈ s.heap id, t.timeoutSuspended = true →
      s.Resets id ({ t with timeoutSuspended := false }.deadline s.currentTime)
  | .processReturned newState => ∀ id ∈ s.stepped, ∀ t ∈ s.heap id,
      t.aborted = false → newState ≠ stateBlocked →
      s.Resets id ({ t with state := newState }.deadline s.currentTime)
  | .abort id => s.run = none → ∀ n ∈ s.nextTimeoutTask, n ≠ id ∧ ¬s.Above id n
  | .wakeTasksReturned => ∀ id ∈ s.currentPolls.head?, s.nextTimeoutTask = some id →
      (s.heap id).any (·.timedOut s.currentTime) = true → ∀ other ∈ s.tasks, other ≠ id →
        (s.heap other).all fun u => u.done || !u.timedOut s.currentTime
  | _ => True

theorem OnTime.modify (onTime : s.OnTime) (id : Nat) (running : s.run.isSome)
    (same : ∀ t : Task, t.SameTimes (id ∈ s.tasks) (f t)) : (s.modify id f).OnTime :=
  onTime.inRun (s.modify_still id same) running

theorem OnTime.frame (onTime : s.OnTime) (frame : s.Frame s') (running : s.run.isSome) : s'.OnTime :=
  onTime.inRun frame.still (by rwa [frame.run])

/-- `Process` has returned to `Step`. -/
theorem OnTime.stepReturned (onTime : s.OnTime) (running : s.run.isSome) (listed : id ∈ s.tasks)
    (present : s.heap id = some t) {newState : Int}
    (resets : t.aborted = false → newState ≠ stateBlocked →
      s.Resets id ({ t with state := newState }.deadline s.currentTime)) :
    (s.stepReturned id newState).OnTime := by
  have idle : (s.modify id fun t => { t with busy := false }).OnTime :=
    onTime.modify id running fun _ => .of_eq rfl rfl rfl fun done => done
  have here : (s.modify id fun t => { t with busy := false }).heap id =
      some { t with busy := false } := by
    rw [heap_modify, if_pos rfl, present]
    rfl
  unfold TaskRunner.stepReturned
  dsimp only
  rw [here]
  dsimp only
  split
  · exact idle.frame (abort_frame _ id) running
  · next notAborted =>
    -- The state and the deadline change, or the task is blocked.
    have goesOn : (if newState = stateBlocked then
        (s.modify id fun t => { t with busy := false }).modify id fun t => { t with blocked := true }
      else ((s.modify id fun t => { t with busy := false }).modify id
        fun t => { t with state := newState, blocked := false }).resetTimeout id).OnTime := by
      split
      · exact idle.modify id running fun _ => .of_eq rfl rfl rfl fun done => done
      · next goesOn =>
        rw [modify_modify]
        exact onTime.reset present (fun _ => ⟨rfl, rfl, fun aborted => aborted, rfl⟩)
          (fun _ => listed) (resets (Bool.eq_false_iff.mpr notAborted) goesOn)
    have stillRunning : (if newState = stateBlocked then
        (s.modify id fun t => { t with busy := false }).modify id fun t => { t with blocked := true }
      else ((s.modify id fun t => { t with busy := false }).modify id
        fun t => { t with state := newState, blocked := false }).resetTimeout id).run.isSome := by
      split
      · exact running
      · unfold resetTimeout
        rw [(updateTaskTimeout_eq _ id).2.2]
        exact running
    split
    · have marked := goesOn.modify (f := fun t =>
          { t with done := true, error := t.error || newState = stateError }) id stillRunning
        fun _ => .of_eq rfl rfl rfl fun _ => rfl
      have stopped := marked.frame (stop_frame _ id) stillRunning
      exact stopped.modify id (by rw [(stop_frame _ id).run]; exact stillRunning)
        fun _ => .of_eq rfl rfl rfl fun done => done
    · exact goesOn

/-- A turn of the loop. -/
theorem OnTime.turn {index : Nat} {didRun : Bool} (onTime : s.OnTime) (running : s.run.isSome)
    (turn : s.Turn index didRun s') (ledger : s.Ledger) : s'.OnTime := by
  cases turn with
  | blocked => exact onTime.inRun (.of_eq rfl rfl rfl) rfl
  | again _ _ => exact onTime.inRun (.of_eq rfl rfl rfl) rfl
  | done id t _ _ _ =>
    have marked := onTime.modify (f := fun t => { t with blocked := true }) id running
      fun _ => .of_eq rfl rfl rfl fun done => done
    exact marked.inRun (.of_eq rfl rfl rfl) rfl
  | process id t _ _ _ =>
    have marked := onTime.modify (f := fun t => { t with busy := true }) id running
      fun _ => .of_eq rfl rfl rfl fun done => done
    exact marked.inRun (.of_eq rfl rfl rfl) rfl
  | error id t listed present _ =>
    have marked := onTime.modify (f := fun t =>
        { t with done := true, state := stateError, blocked := true }) id running
      fun _ => ⟨rfl, rfl, fun _ => (by decide : stateError ≠ stateInit), fun _ => .inr (List.mem_of_getElem? listed), fun _ => rfl⟩
    exact (marked.frame (stop_frame _ id) running).inRun (.of_eq rfl rfl rfl) rfl
  | ended _ _ =>
    have ended := ledger.ended
    generalize s.endRun = u at ended ⊢
    have pending : ∀ {id time}, u.Pending id time → s.Pending id time := by
      rintro id time ⟨t, here, rest⟩
      exact ⟨t, ended.was here, rest⟩
    have stays : ∀ id t, u.heap id = some t → id ∈ s.tasks → id ∈ u.tasks := by
      intro id t here listed
      rw [ended.heap] at here
      split at here
      · cases here
      · next neither =>
        rw [ended.tasks, List.mem_filter]
        exact ⟨listed, by simpa [listed] using neither⟩
    have clock : u.Clock := ⟨fun id t here left =>
        stays id t here (onTime.clock.started id t (ended.was here) left),
      fun id t here hasTimeout => onTime.clock.timeout id t (ended.was here) hasTimeout,
      fun id time isPending => onTime.clock.positive id time (pending isPending)⟩
    rcases ended.next with ⟨same, notSwept⟩ | ⟨v, heap, tasks, recalculated⟩
    · refine ⟨clock, ⟨fun isNone id time isPending =>
          onTime.scheduled.nothing (same ▸ isNone) id time (pending isPending), fun n isNext => ?_⟩,
        fun _ n t isNext here => ?_⟩
      · obtain ⟨t, here, hasTimeout, least⟩ := onTime.scheduled.next n (same ▸ isNext)
        refine ⟨t, ?_, hasTimeout, fun id time isPending => least id time (pending isPending)⟩
        rw [ended.heap, if_neg (notSwept n (same ▸ isNext)), here]
      · -- The next task has a deadline, so that the runner has it.
        obtain ⟨v, there, hasTimeout, -⟩ := onTime.scheduled.next n (same ▸ isNext)
        have was := ended.was here
        rw [was] at there
        cases there
        have listed := onTime.clock.started n t was (onTime.clock.timeout n t was hasTimeout).1
        have unfinished := notSwept n (same ▸ isNext)
        simpa [listed, finished, was] using unfinished
    · have scanned : v.Clock := clock.of_eq heap tasks
      have scheduled : (v.recalcNextTimeout none).Scheduled := scanned.recalc fun _ _ is => by cases is
      refine ⟨clock, ⟨?_, fun n isNext => ?_⟩, fun _ n t isNext here => ?_⟩
      · rintro isNone id time ⟨t, here, rest⟩
        exact scheduled.nothing (recalculated ▸ isNone) id time ⟨t, heap ▸ here, rest⟩
      · obtain ⟨t, here, hasTimeout, least⟩ := scheduled.next n (recalculated ▸ isNext)
        refine ⟨t, heap ▸ here, hasTimeout, ?_⟩
        rintro id time ⟨u, there, rest⟩
        exact least id time ⟨u, heap ▸ there, rest⟩
      · rw [recalculated] at isNext
        obtain ⟨-, -, -, ⟨u, there, isUnfinished, -⟩, -⟩ := (v.recalc_found none v.tasks).task n isNext
        rw [heap, here] at there
        cases there
        exact isUnfinished

theorem modify_gone (gone : s.heap id = none) : s.modify id f = s := by
  unfold modify
  rw [gone, Option.map_none, ← gone, Function.update_eq_self]

theorem updateTaskTimeout_gone (gone : s.heap id = none) : s.updateTaskTimeout id = s := by
  unfold updateTaskTimeout
  rw [gone]

theorem resetTimeout_gone (gone : s.heap id = none) : (s.modify id f).resetTimeout id = s := by
  unfold resetTimeout
  rw [modify_gone gone, modify_gone gone, updateTaskTimeout_gone gone]

theorem start_done {n : Nat} {t t' : Task} (was : s.heap n = some t)
    (here : (s.start id).heap n = some t') : t'.done = t.done := by
  have unchanged : s.heap n = some t' → t'.done = t.done := fun here => by
    rw [was] at here
    cases here
    rfl
  unfold start at here
  split at here
  · exact unchanged here
  · split at here
    · exact unchanged here
    · rw [(updateTaskTimeout_eq _ id).1] at here
      change (s.modify id _).heap n = some t' at here
      rw [heap_modify] at here
      split at here
      · next same =>
        rw [← same, was] at here
        cases here
        rfl
      · exact unchanged here

theorem start_run (s : TaskRunner) (id : Nat) : (s.start id).run = s.run := by
  unfold start
  split
  · rfl
  · split
    · rfl
    · exact (updateTaskTimeout_eq _ id).2.2

/-- An abort outside of a run leaves the next task unfinished. -/
theorem OnTime.abort (onTime : s.OnTime) (sound : s.Sound)
    (leaves : s.run = none → ∀ n, s.nextTimeoutTask = some n → n ≠ id ∧ ¬s.Above id n) :
    (s.abort id).OnTime := by
  cases here : s.heap id with
  | none =>
    rw [abort_gone here]
    exact onTime
  | some t =>
    have frame := s.abort_frame id
    have aborts : s.Aborts (s.abort id) [] s.stepped id :=
      abort_spec sound.tree (by rw [here]; rfl)
    refine onTime.still frame.still (fun stopped => frame.run ▸ stopped)
      fun outside n u u' isNext was now unfinished => ?_
    by_contra isDone
    obtain ⟨differs, notAbove⟩ := leaves outside n isNext
    exact (aborts.finishes n u u' was now unfinished (by simpa using isDone)).elim differs notAbove

theorem OnTime.setTimeoutSeconds (onTime : s.OnTime) {seconds : Int}
    (resets : ∀ t, s.heap id = some t →
      s.Resets id ({ t with timeoutSeconds := seconds }.deadline s.currentTime)) :
    (s.setTimeoutSeconds id seconds).OnTime := by
  unfold TaskRunner.setTimeoutSeconds
  cases here : s.heap id with
  | none =>
    rw [resetTimeout_gone here]
    exact onTime
  | some t =>
    exact onTime.reset here (fun _ => ⟨rfl, rfl, fun aborted => aborted, rfl⟩)
      (fun left => onTime.clock.started id t here left) (resets t here)

theorem OnTime.clearTimeout (onTime : s.OnTime) : (s.clearTimeout id).OnTime := by
  unfold TaskRunner.clearTimeout
  cases here : s.heap id with
  | none =>
    rw [modify_gone here, updateTaskTimeout_gone here]
    exact onTime
  | some t =>
    exact onTime.retime here (fun _ => ⟨rfl, rfl, fun aborted => aborted, rfl⟩)
      (fun left => onTime.clock.started id t here left) (fun nonzero => absurd rfl nonzero)
      (s.resets_zero id)

theorem OnTime.setSuspended (onTime : s.OnTime) {suspended : Bool}
    (resets : ∀ t, s.heap id = some t → t.timeoutSuspended ≠ suspended →
      s.Resets id ({ t with timeoutSuspended := suspended }.deadline s.currentTime)) :
    (s.setSuspended id suspended).OnTime := by
  unfold TaskRunner.setSuspended
  split
  · exact onTime
  · next t here =>
    split
    · exact onTime
    · next changes =>
      exact onTime.reset here (fun _ => ⟨rfl, rfl, fun aborted => aborted, rfl⟩)
        (fun left => onTime.clock.started id t here left) (resets t here changes)

theorem OnTime.call {input : TaskInput} (onTime : s.OnTime) (sound : s.Sound)
    (prompt : s.Prompt input) : (s.call input).OnTime := by
  cases input with
  | create parent =>
    have run := (s.create_rest parent).2.1
    refine onTime.still (create_still sound) (fun stopped => run ▸ stopped)
      fun _ n t t' _ was here unfinished => ?_
    by_cases live : ∀ p, parent = some p → (s.heap p).isSome
    · change (s.create parent).heap n = some t' at here
      rw [create_stays sound.tree live was] at here
      cases here
      exact unfinished
    · push Not at live
      obtain ⟨p, rfl, gone⟩ := live
      have same : s.create (some p) = s := by
        simp only [TaskRunner.create, Option.not_isSome_iff_eq_none.mp gone]
      change (s.create (some p)).heap n = some t' at here
      rw [same, was] at here
      cases here
      exact unfinished
  | start id =>
    exact onTime.still (start_still onTime.clock onTime.scheduled)
      (fun stopped => (s.start_run id) ▸ stopped)
      fun _ n t t' _ was here unfinished => (start_done was here).trans unfinished
  | wake id => exact onTime.quiet (s.wake_still id) (s.wake_quiet id)
  | error id => exact onTime.quiet (s.error_still id) (s.error_quiet id)
  | abort id => exact onTime.abort sound prompt
  | setTimeoutSeconds id seconds => exact onTime.setTimeoutSeconds prompt
  | clearTimeout id => exact onTime.clearTimeout
  | suspendTimeout id =>
    refine onTime.setSuspended fun t _ _ => ?_
    have zero : { t with timeoutSuspended := true }.deadline s.currentTime = 0 := by
      simp [Task.deadline]
    rw [zero]
    exact s.resets_zero id
  | resumeTimeout id =>
    exact onTime.setSuspended fun t here changes => prompt t here (by simpa using changes)
  | runTasks =>
    change (s.runTasks).OnTime
    unfold runTasks
    split
    · exact onTime.inRun (.of_eq rfl rfl rfl) rfl
    · exact onTime
  | pollTasks =>
    exact onTime.quiet (pollTasks_still none sound.ledger.nextLive)
      (pollTasks_quiet none sound.ledger.nextLive)
  | wakeTasksReturned =>
    exact onTime.quiet (wakeTasksReturned_still sound.ledger.nextLive)
      (wakeTasksReturned_quiet sound.ledger.nextLive)
  | processReturned newState => exact onTime
  | advance => exact onTime
  | elapse time => exact onTime.quiet (.of_eq rfl rfl rfl) { Quiet.refl s with }

theorem OnTime.input {input : TaskInput} (onTime : s.OnTime) (sound : s.Sound)
    (prompt : s.Prompt input) : (s.input input).OnTime := by
  unfold TaskRunner.input
  split
  · next index didRun running =>
    exact onTime.turn (by simp [running]) (sound.ledger.turn index didRun) sound.ledger
  · exact onTime
  · next index didRun id newState running =>
    have isStepped : s.stepped = some id := by simp [stepped, running]
    obtain ⟨listed, t, here, -⟩ := sound.stepping id isStepped
    have inLoop : (s.setRun ⟨index, didRun, none⟩).OnTime := onTime.inRun (.of_eq rfl rfl rfl) rfl
    refine inLoop.stepReturned rfl listed here fun notAborted goesOn => ?_
    have resets := prompt id isStepped t here notAborted goesOn
    exact ⟨resets.nonneg, resets.rescanned, fun is => by cases is⟩
  · exact onTime.call sound prompt

/-! ## The claims of the schedule -/

/-- The next task to time out is the earliest. Where no run goes on it is unfinished, and there
is one exactly if an unfinished task has a timeout. -/
structure Earliest (s : TaskRunner) : Prop where
  nothing : s.nextTimeoutTask = none → ∀ id time, ¬s.Pending id time
  next : ∀ n, s.nextTimeoutTask = some n → ∃ t, s.heap n = some t ∧ n ∈ s.tasks ∧
    t.timeoutTime ≠ 0 ∧ (s.run = none → t.done = false) ∧
    ∀ id time, s.Pending id time → t.timeoutTime ≤ time

/-- The deadline of an unfinished task has passed. -/
def Overdue (s : TaskRunner) (id : Nat) : Prop :=
  ∃ t, s.heap id = some t ∧ t.done = false ∧ t.timedOut s.currentTime = true

def Awake (s : TaskRunner) (id : Nat) : Prop :=
  ∀ t, s.heap id = some t → t.done = false → t.blocked = false

/-- `PollTasks` wakes one task after another until no deadline has passed but that of the task
that it has woken last. -/
structure Polls (s : TaskRunner) (input : TaskInput) : Prop where
  earliest : s.Earliest
  polled : input = .pollTasks → ¬s.InLoop →
    ((s.input input).currentPolls = s.currentPolls ∧ ∀ id, ¬(s.input input).Overdue id) ∨
    ∃ n, (s.input input).currentPolls = n :: s.currentPolls ∧ (s.input input).Awake n
  returned : ∀ id polls, input = .wakeTasksReturned → ¬s.InLoop → s.currentPolls = id :: polls →
    ((s.input input).currentPolls = polls ∧ ∀ other, (s.input input).Overdue other → other = id) ∨
    ∃ n, (s.input input).currentPolls = n :: polls ∧ (s.input input).Awake n

theorem OnTime.earliest (onTime : s.OnTime) : s.Earliest where
  nothing := onTime.scheduled.nothing
  next := fun n isNext => by
    obtain ⟨t, here, hasTimeout, least⟩ := onTime.scheduled.next n isNext
    exact ⟨t, here, onTime.clock.started n t here (onTime.clock.timeout n t here hasTimeout).1,
      hasTimeout, fun stopped => onTime.settled stopped n t isNext here, least⟩

theorem wake_awake (s : TaskRunner) (id : Nat) (polls : List Nat) :
    ((s.wake id).setPolls polls).Awake id := by
  intro t here unfinished
  rw [(setPolls_eq _ polls).1] at here
  unfold wake at here
  split at here
  · next gone =>
    rw [gone] at here
    cases here
  · next u was =>
    split at here
    · next done =>
      rw [was] at here
      cases here
      rw [done] at unfinished
      cases unfinished
    · rw [heap_modify, if_pos rfl, was] at here
      cases here
      rfl

/-- Where the next task has not timed out, no other one has. -/
theorem OnTime.not_overdue (onTime : s.OnTime)
    (notYet : ∀ n t, s.nextTimeoutTask = some n → s.heap n = some t →
      t.timedOut s.currentTime = false) (id : Nat) : ¬s.Overdue id := by
  rintro ⟨t, here, unfinished, overdue⟩
  simp only [Task.timedOut, Bool.and_eq_true, decide_eq_true_eq] at overdue
  obtain ⟨⟨-, hasTimeout⟩, passed⟩ := overdue
  have pending : s.Pending id t.timeoutTime := ⟨t, here, unfinished, rfl, hasTimeout⟩
  cases next : s.nextTimeoutTask with
  | none => exact onTime.scheduled.nothing next id _ pending
  | some n =>
    obtain ⟨u, there, nextTimeout, least⟩ := onTime.scheduled.next n next
    have seconds := (onTime.clock.timeout n u there nextTimeout).2
    have later : s.currentTime < u.timeoutTime := by
      simpa [Task.timedOut, seconds, nextTimeout] using notYet n u next there
    have := least id _ pending
    omega

theorem OnTime.polls {input : TaskInput} (onTime : s.OnTime) (sound : s.Sound)
    (prompt : s.Prompt input) : s.Polls input := by
  have called : ∀ input : TaskInput, ¬s.InLoop → (∀ newState, input ≠ .processReturned newState) →
      s.input input = s.call input := by
    intro input notInLoop notReturned
    unfold TaskRunner.input
    split
    · next running => exact absurd ⟨by simp [running], by simp [stepped, running]⟩ notInLoop
    · next running _ => exact absurd ⟨by simp [running], by simp [stepped, running]⟩ notInLoop
    · exact absurd rfl (notReturned _)
    · rfl
  refine ⟨onTime.earliest, ?_, ?_⟩
  · rintro rfl notInLoop
    have polled : s.input .pollTasks = s.pollTasks none :=
      called .pollTasks notInLoop fun _ same => by cases same
    rw [polled]
    rcases pollTasks_cases none sound.ledger.nextLive with ⟨same, ends⟩ | ⟨n, wakes⟩
    · left
      rw [same]
      exact ⟨rfl, onTime.not_overdue fun n t isNext here =>
        (ends n t isNext here).resolve_left fun own => by cases own⟩
    · right
      rw [wakes]
      exact ⟨n, (setPolls_eq _ _).2.2.2.2, s.wake_awake n _⟩
  · rintro id polls rfl notInLoop isPolled
    have returned : s.input .wakeTasksReturned = (s.setPolls polls).pollTasks (some id) := by
      rw [called .wakeTasksReturned notInLoop fun _ same => by cases same]
      change s.wakeTasksReturned = _
      unfold wakeTasksReturned
      rw [isPolled]
    rw [returned]
    obtain ⟨heap, tasks, next, time, popped⟩ := setPolls_eq s polls
    rcases pollTasks_cases (s := s.setPolls polls) (some id) (fun n isNext =>
      heap ▸ sound.ledger.nextLive n (next ▸ isNext)) with ⟨same, ends⟩ | ⟨n, wakes⟩
    · left
      rw [same]
      refine ⟨popped, fun other overdue => ?_⟩
      have overdue : s.Overdue other := by
        obtain ⟨t, here, unfinished, isOver⟩ := overdue
        exact ⟨t, heap ▸ here, unfinished, time ▸ isOver⟩
      by_contra differs
      by_cases late : s.nextTimeoutTask = some id ∧ ∃ t, s.heap id = some t ∧
          t.timedOut s.currentTime = true
      · -- The woken task is still the next one, and is the only one whose deadline has passed.
        obtain ⟨isNext, t, here, isLate⟩ := late
        obtain ⟨u, there, unfinished, isOver⟩ := overdue
        have hasTimeout : u.timeoutTime ≠ 0 := by
          simp only [Task.timedOut, Bool.and_eq_true, decide_eq_true_eq] at isOver
          exact isOver.1.2
        have listed := onTime.clock.listed ⟨u, there, unfinished, rfl, hasTimeout⟩
        have spared := prompt id (by rw [isPolled]; rfl) isNext (by simp [here, isLate]) other listed
          differs
        simp [there, unfinished, isOver] at spared
      · refine onTime.not_overdue (fun n t isNext here => ?_) other overdue
        rcases ends n t (next ▸ isNext) (heap ▸ here) with own | notYet
        · cases own
          by_contra isLate
          exact late ⟨isNext, t, here, by simpa using isLate⟩
        · rwa [time] at notYet
    · right
      rw [wakes, popped]
      exact ⟨n, (setPolls_eq _ _).2.2.2.2, wake_awake _ n _⟩

theorem new_onTime : new.OnTime where
  clock := ⟨fun _ _ here => absurd here.symm (Option.some_ne_none _),
    fun _ _ here => absurd here.symm (Option.some_ne_none _),
    fun _ _ ⟨_, here, _⟩ => absurd here.symm (Option.some_ne_none _)⟩
  scheduled := ⟨fun _ _ _ ⟨_, here, _⟩ => absurd here.symm (Option.some_ne_none _),
    fun _ isNext => absurd isNext.symm (Option.some_ne_none _)⟩
  settled := fun _ _ _ isNext => absurd isNext.symm (Option.some_ne_none _)

/-- Every run whose calls meet the conditions schedules the timeouts. -/
theorem timeouts_scheduled (inputs : List TaskInput)
    (allowed : Std.Along input (fun s input => s.Allowed input ∧ s.Prompt input) new inputs) :
    Std.Along input Polls new inputs ∧ (Std.runInputs input new inputs).Earliest := by
  have keeps : ∀ (s : TaskRunner) (input : TaskInput), s.Allowed input ∧ s.Prompt input →
      s.Sound ∧ s.OnTime → (s.input input).Sound ∧ (s.input input).OnTime :=
    fun _ _ ok holds => ⟨(holds.1.input ok.1).1, holds.2.input holds.1 ok.2⟩
  exact ⟨allowed.of_invariant keeps (fun _ _ ok holds => holds.2.polls holds.1 ok.2)
      ⟨new_sound, new_onTime⟩,
    (allowed.invariant keeps ⟨new_sound, new_onTime⟩).2.earliest⟩

/-- Two tasks that have started and are blocked, with timeouts of 10 and 20 seconds. -/
def twoTimeouts : List TaskInput :=
  [.create none, .create none, .start 0, .start 1, .runTasks,
    .advance, .setTimeoutSeconds 0 10, .processReturned stateStart,
    .advance, .processReturned stateBlocked, .advance,
    .advance, .setTimeoutSeconds 1 20, .processReturned stateStart,
    .advance, .processReturned stateBlocked, .advance,
    .advance, .advance, .advance, .advance]

/-- The first task waits longer. Its deadline moves behind that of the second, but it stays the
next one, and `PollTasks` does not wake the second when its time has come. -/
theorem postponed_stays_next :
    ¬(Std.runInputs input new (twoTimeouts ++ [.setTimeoutSeconds 0 100])).Earliest ∧
    (Std.runInputs input new (twoTimeouts ++
      [.setTimeoutSeconds 0 100, .elapse 300000000, .pollTasks])).currentPolls = [] ∧
    (Std.runInputs input new (twoTimeouts ++
      [.setTimeoutSeconds 0 100, .elapse 300000000, .pollTasks])).Overdue 1 := by
  refine ⟨fun earliest => ?_, by decide, ?_⟩
  · obtain ⟨t, here, -, -, -, least⟩ := earliest.next 0 (by decide)
    have deadline : ((Std.runInputs input new (twoTimeouts ++ [.setTimeoutSeconds 0 100])).heap 0).map
        (·.timeoutTime) = some 1000000000 := by decide
    rw [here] at deadline
    have sooner := least 1 200000000 ⟨_, rfl, by decide, by decide, by decide⟩
    have later : t.timeoutTime = 1000000000 := Option.some.inj deadline
    omega
  · exact ⟨_, rfl, by decide, by decide⟩

theorem timeouts_scheduled_twoTimeouts :
    Std.Along input (fun s input => s.Allowed input ∧ s.Prompt input) new
      (twoTimeouts ++ [.elapse 150000000, .pollTasks, .wakeTasksReturned]) ∧
    Std.Along input Polls new
      (twoTimeouts ++ [.elapse 150000000, .pollTasks, .wakeTasksReturned]) := by
  have allowed : Std.Along input (fun s input => s.Allowed input ∧ s.Prompt input) new
      (twoTimeouts ++ [.elapse 150000000, .pollTasks, .wakeTasksReturned]) := by
    simp only [twoTimeouts, List.cons_append, List.nil_append, Std.Along, Prompt, and_true]
    repeat' constructor
    all_goals decide
  exact ⟨allowed, (timeouts_scheduled _ allowed).1⟩

end TaskRunner

end Libjingle.Tasks

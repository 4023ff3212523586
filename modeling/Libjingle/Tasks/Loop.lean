import Libjingle.Tasks.Ledger
import Mathlib.Data.List.Nodup

/-!
# The calls and the loop

Every input keeps the invariant of the runner. Tasks are deleted at the end of the loop only.
-/

namespace Libjingle.Tasks

def Task.adopt (t : Task) (children : List Nat) : Task :=
  { t with offspring := { t.offspring with children := t.offspring.children ++ children } }

@[simp] theorem Task.adopt_nil (t : Task) : t.adopt [] = t := by simp [Task.adopt]

namespace TaskRunner

variable {s s' : TaskRunner} {id : Nat} {t : Task} {E : List Nat} {loose : Option Nat}

/-! ## Creating and starting -/

/-- The new task is the last child of its parent. -/
theorem create_heap {parent : Option Nat}
    (live : ∀ p, parent = some p → (s.heap p).isSome) (other : Nat) :
    (s.create parent).heap other =
      if other = s.nextId then some (.new parent)
      else (s.heap other).map (·.adopt (if parent = some other then [s.nextId] else [])) := by
  unfold TaskRunner.create
  cases parent with
  | none =>
    simp only [Function.update_apply, reduceCtorEq, if_false, Task.adopt_nil, Option.map_id']
  | some p =>
    obtain ⟨t, here⟩ := Option.isSome_iff_exists.mp (live p rfl)
    simp only [here, Function.update_apply, heap_modify, Option.map_some]
    split
    · rfl
    · split
      · next same =>
        subst same
        simp [here, Task.adopt, TaskParent.add]
      · next differs => simp [Ne.symm differs]

theorem create_nextId {parent : Option Nat} (live : ∀ p, parent = some p → (s.heap p).isSome) :
    (s.create parent).nextId = s.nextId + 1 := by
  unfold TaskRunner.create
  cases parent with
  | none => rfl
  | some p =>
    obtain ⟨t, here⟩ := Option.isSome_iff_exists.mp (live p rfl)
    simp only [here]

/-- A task after a creation is the new one, or was there. -/
theorem create_cases {parent : Option Nat} (live : ∀ p, parent = some p → (s.heap p).isSome)
    {other : Nat} {u : Task} (here : (s.create parent).heap other = some u) :
    (other = s.nextId ∧ u = .new parent) ∨ (other ≠ s.nextId ∧ ∃ v, s.heap other = some v ∧
      u = v.adopt (if parent = some other then [s.nextId] else [])) := by
  rw [create_heap live] at here
  split at here
  · next same => exact .inl ⟨same, (Option.some.inj here).symm⟩
  · next differs =>
    obtain ⟨v, was, rfl⟩ := Option.map_eq_some_iff.mp here
    exact .inr ⟨differs, v, was, rfl⟩

theorem Tree.fresh (tree : s.Tree E loose) : s.heap s.nextId = none := by
  cases here : s.heap s.nextId with
  | none => rfl
  | some t => exact absurd (tree.below s.nextId t here) (lt_irrefl _)

theorem create_stays {parent : Option Nat} (tree : s.Tree E loose)
    (live : ∀ p, parent = some p → (s.heap p).isSome) {other : Nat} (here : s.heap other = some t) :
    (s.create parent).heap other =
      some (t.adopt (if parent = some other then [s.nextId] else [])) := by
  rw [create_heap live, if_neg (tree.below other t here).ne, here]
  rfl

theorem Tree.create {parent : Option Nat} (tree : s.Tree [] loose)
    (unfinished : ∀ p, parent = some p → ∃ t, s.heap p = some t ∧ t.done = false) :
    (s.create parent).Tree [] loose := by
  have live : ∀ p, parent = some p → (s.heap p).isSome := fun p isParent => by
    obtain ⟨t, here, -⟩ := unfinished p isParent
    rw [here]
    rfl
  have stays : ∀ other v, s.heap other = some v → (s.create parent).heap other =
      some (v.adopt (if parent = some other then [s.nextId] else [])) :=
    fun other v was => create_stays tree live was
  refine ⟨fun other u here => ?_, fun other u p here isParent => ?_, fun p u c here child => ?_,
    fun p u here => ?_, fun other u p here isUnfinished isParent => ?_, fun other u here busy => ?_⟩
  · rw [create_nextId live]
    rcases create_cases live here with ⟨rfl, -⟩ | ⟨-, v, was, -⟩
    · exact Nat.lt_succ_self _
    · exact Nat.lt_succ_of_lt (tree.below other v was)
  · rcases create_cases live here with ⟨rfl, rfl⟩ | ⟨-, v, was, rfl⟩
    · obtain ⟨t, parentHere, -⟩ := unfinished p isParent
      exact tree.below p t parentHere
    · exact tree.parentBelow other v p was isParent
  · rcases create_cases live here with ⟨-, rfl⟩ | ⟨-, v, was, rfl⟩
    · exact absurd child List.not_mem_nil
    · rcases List.mem_append.mp child with child | child
      · obtain ⟨w, childHere, childParent, childUnfinished⟩ := tree.kids p v c was child
        exact ⟨_, stays c w childHere, childParent, childUnfinished⟩
      · -- The new task is a child of its parent only.
        split at child
        · next isParent =>
          rw [List.mem_singleton.mp child]
          exact ⟨.new parent, by rw [create_heap live, if_pos rfl], isParent, .inl rfl⟩
        · exact absurd child List.not_mem_nil
  · rcases create_cases live here with ⟨-, rfl⟩ | ⟨-, v, was, rfl⟩
    · exact .nil
    · refine List.nodup_append.mpr ⟨tree.kidsNodup p v was, by split <;> simp, ?_⟩
      rintro a child b new rfl
      split at new
      · obtain ⟨w, childHere, -⟩ := tree.kids p v a was child
        rw [List.mem_singleton.mp new, tree.fresh] at childHere
        cases childHere
      · exact absurd new List.not_mem_nil
  · rcases create_cases live here with ⟨rfl, rfl⟩ | ⟨-, v, was, rfl⟩
    · obtain ⟨t, parentHere, parentUnfinished⟩ := unfinished p isParent
      refine .inl ⟨_, stays p t parentHere, .inl parentUnfinished, ?_⟩
      change parent = some p at isParent
      exact List.mem_append_right _ (by rw [if_pos isParent]; exact List.mem_singleton_self _)
    · rcases tree.linked other v p was isUnfinished isParent with ⟨w, parentHere, known, child⟩ | isLoose
      · exact .inl ⟨_, stays p w parentHere, known, List.mem_append_left _ child⟩
      · exact .inr isLoose
  · rcases create_cases live here with ⟨-, rfl⟩ | ⟨-, v, was, rfl⟩
    · cases busy
    · exact tree.busy other v was busy

theorem create_rest (s : TaskRunner) (parent : Option Nat) :
    (s.create parent).tasks = s.tasks ∧ (s.create parent).run = s.run ∧
    (s.create parent).nextTimeoutTask = s.nextTimeoutTask ∧
    (s.create parent).deleted = s.deleted ∧ (s.create parent).broken = s.broken := by
  unfold TaskRunner.create
  cases parent with
  | none => exact ⟨rfl, rfl, rfl, rfl, rfl⟩
  | some p =>
    dsimp only
    split <;> exact ⟨rfl, rfl, rfl, rfl, rfl⟩

theorem Sound.create {parent : Option Nat} (sound : s.Sound)
    (allowed : ∀ p, parent = some p → ∀ t, s.heap p = some t → t.done = false) :
    (s.create parent).Sound ∧ s.Kept (s.create parent) := by
  by_cases gone : ∃ p, parent = some p ∧ s.heap p = none
  · obtain ⟨p, rfl, gone⟩ := gone
    have same : s.create (some p) = s := by simp only [TaskRunner.create, gone]
    rw [same]
    exact ⟨sound, (Quiet.refl s).kept⟩
  · have unfinished : ∀ p, parent = some p → ∃ t, s.heap p = some t ∧ t.done = false := by
      intro p isParent
      obtain ⟨t, here⟩ := Option.ne_none_iff_exists'.mp fun isGone => gone ⟨p, isParent, isGone⟩
      exact ⟨t, here, allowed p isParent t here⟩
    have live : ∀ p, parent = some p → (s.heap p).isSome := fun p isParent => by
      obtain ⟨t, here, -⟩ := unfinished p isParent
      rw [here]
      rfl
    have isSome : ∀ other, ((s.create parent).heap other).isSome =
        (decide (other = s.nextId) || (s.heap other).isSome) := by
      intro other
      rw [create_heap live]
      split <;> simp [*]
    obtain ⟨tasks, run, next, deleted, broken⟩ := s.create_rest parent
    have stepped : (s.create parent).stepped = s.stepped := by
      unfold TaskRunner.stepped
      rw [run]
    have stays : ∀ other, (s.heap other).isSome → ((s.create parent).heap other).isSome := by
      intro other isLive
      rw [isSome, isLive, Bool.or_true]
    refine ⟨⟨⟨fun other listed => ?_, ?_, fun other isNext => ?_, fun other => ?_, ?_⟩, ?_,
      fun other isStepped => ?_⟩, fun running => by rwa [run], stays,
      fun other listed => by rwa [tasks]⟩
    · exact stays other (sound.ledger.tasksLive other (tasks ▸ listed))
    · rw [tasks]
      exact sound.ledger.tasksNodup
    · exact stays other (sound.ledger.nextLive other (next ▸ isNext))
    · rw [deleted, sound.ledger.counted other]
      have same : (other < (s.create parent).nextId ∧ (s.create parent).heap other = none) ↔
          other < s.nextId ∧ s.heap other = none := by
        rw [create_nextId live, ← Option.not_isSome_iff_eq_none, ← Option.not_isSome_iff_eq_none,
          isSome]
        simp only [Bool.or_eq_true, decide_eq_true_eq, not_or]
        constructor
        · rintro ⟨below, differs, isGone⟩
          exact ⟨by omega, isGone⟩
        · rintro ⟨below, isGone⟩
          exact ⟨by omega, by omega, isGone⟩
      simp only [same]
    · exact broken.trans sound.ledger.intact
    · rw [stepped]
      exact sound.tree.create unfinished
    · rw [stepped] at isStepped
      obtain ⟨listed, t, here, busy, isUnfinished⟩ := sound.stepping other isStepped
      exact ⟨tasks ▸ listed, _, create_stays sound.tree live here, busy, isUnfinished⟩

theorem Sound.start (sound : s.Sound)
    (once : ∀ t, s.heap id = some t → t.state = stateInit → id ∉ s.tasks) :
    (s.start id).Sound ∧ s.Kept (s.start id) := by
  unfold TaskRunner.start
  cases here : s.heap id with
  | none => exact ⟨sound, (Quiet.refl s).kept⟩
  | some t =>
    dsimp only
    split
    · exact ⟨sound, (Quiet.refl s).kept⟩
    · next isInit =>
      have fresh := once t here (not_not.mp isInit)
      have quiet := s.modify_quiet id (f := fun t => { t with startTime := s.currentTime })
        (fun _ => ⟨rfl, rfl, fun aborted => aborted, rfl⟩) fun _ => rfl
      have marked := sound.quiet quiet
      have live : ((s.modify id fun t => { t with startTime := s.currentTime }).heap id).isSome := by
        rw [quiet.isSome, here]
        rfl
      have added : { s.modify id fun t => { t with startTime := s.currentTime } with
          tasks := s.tasks ++ [id] }.Sound := {
        ledger := { marked.ledger with
          tasksLive := fun other listed => (List.mem_append.mp listed).elim
            (marked.ledger.tasksLive other) fun equal => List.mem_singleton.mp equal ▸ live
          tasksNodup := List.nodup_append.mpr ⟨sound.ledger.tasksNodup, List.nodup_singleton id,
            fun other listed _ equal same => fresh (List.mem_singleton.mp equal ▸ same ▸ listed)⟩ }
        tree := ⟨marked.tree.below, marked.tree.parentBelow, marked.tree.kids,
          marked.tree.kidsNodup, marked.tree.linked, marked.tree.busy⟩
        stepping := fun other isStepped =>
          let ⟨listed, rest⟩ := marked.stepping other isStepped
          ⟨List.mem_append_left _ listed, rest⟩ }
      have updated := updateTaskTimeout_quiet
        { s.modify id fun t => { t with startTime := s.currentTime } with tasks := s.tasks ++ [id] } id
      have adds : s.Kept { s.modify id fun t => { t with startTime := s.currentTime } with
          tasks := s.tasks ++ [id] } :=
        ⟨fun running => running, quiet.kept.live, fun other listed => List.mem_append_left _ listed⟩
      exact ⟨added.quiet updated, adds.trans updated.kept⟩

/-! ## A step -/

theorem setRun_quiet (run : Running) (same : run.step.map (·.task) = s.stepped) :
    s.Quiet (s.setRun run) :=
  { Quiet.refl s with stepped := same, running := fun _ => rfl }

/-- A task begins its step, or its `Process` has returned. -/
theorem Tree.setBusy (tree : s.Tree [] loose) (busy : Bool) (present : s.heap id = some t)
    (only : ∀ other, loose = some other → other = id) (unfinished : t.done = false) :
    (s.modify id fun t => { t with busy := busy }).Tree [] (some id) := by
  refine tree.modify id (fun _ => ⟨rfl, rfl, fun aborted => aborted, rfl⟩) (fun u here _ => ?_)
    fun other isLoose => by rw [only other isLoose]
  rw [present] at here
  cases here
  exact ⟨rfl, unfinished⟩

/-- The step has come to its end: an abort in it was made good, or there was none. -/
theorem Tree.settle (tree : s.Tree [] (some id)) (present : s.heap id = some t)
    (idle : t.busy = false) (settled : t.done = true ∨ t.aborted = false) : s.Tree [] none := by
  refine tree.change rfl (fun _ gone => gone)
    (fun other u here => ⟨u, here, rfl, rfl, fun aborted => aborted, rfl⟩)
    (fun other u here isBusy => ?_) fun other u isLoose here unfinished aborted => ?_
  · cases (tree.busy other u here isBusy).1
    rw [present] at here
    cases here
    rw [idle] at isBusy
    cases isBusy
  · cases isLoose
    rw [present] at here
    cases here
    rcases settled with done | notAborted
    · rw [done] at unfinished
      cases unfinished
    · rw [notAborted] at aborted
      cases aborted

theorem Ledger.modify (ledger : s.Ledger) (id : Nat) (f : Task → Task) : (s.modify id f).Ledger := by
  refine ledger.of_isSome (fun other => ?_) rfl rfl rfl rfl ledger.nextLive
  rw [heap_modify]
  split
  · next same => rw [same, Option.isSome_map]
  · rfl

theorem modify_kept (s : TaskRunner) (id : Nat) (f : Task → Task) : s.Kept (s.modify id f) := by
  refine ⟨fun running => running, fun other live => ?_, fun other listed => listed⟩
  rw [heap_modify]
  split
  · next same => rwa [Option.isSome_map, ← same]
  · exact live

theorem Ledger.sound (ledger : s.Ledger) (tree : s.Tree [] none) (idle : s.stepped = none) :
    s.Sound where
  ledger := ledger
  tree := by
    rw [idle]
    exact tree
  stepping := fun other isStepped => by
    rw [idle] at isStepped
    cases isStepped

/-- The rest of a step that was not aborted. -/
theorem goOn_sound (sound : s.Sound) (present : s.heap id = some t) (idle : t.busy = false)
    (alone : s.stepped = none) (newState : Int) :
    let u :=
      if newState = stateBlocked then s.modify id fun t => { t with blocked := true }
      else (s.modify id fun t => { t with state := newState, blocked := false }).resetTimeout id
    s.Quiet u ∧
    (((u.modify id fun t => { t with done := true, error := t.error || newState = stateError }).stop
        id).modify id fun t => { t with blocked := true }).Sound ∧
    s.Kept (((u.modify id fun t =>
      { t with done := true, error := t.error || newState = stateError }).stop id).modify id
        fun t => { t with blocked := true }) := by
  intro u
  have quiet : s.Quiet u := by
    dsimp only [u]
    split
    · exact s.modify_quiet id (fun _ => ⟨rfl, rfl, fun aborted => aborted, rfl⟩) fun _ => rfl
    · exact .after_modify (resetTimeout_quiet _ id)
        (fun _ => ⟨rfl, rfl, fun aborted => aborted, rfl⟩) fun _ => rfl
  obtain ⟨v, here, -, sameBusy⟩ := quiet.alike id t present
  have after := sound.quiet quiet
  have tree : u.Tree [] none := by
    rw [← alone, ← quiet.stepped]
    exact after.tree
  have later : ∀ t : Task,
      t.Later { t with done := true, error := t.error || newState = stateError } :=
    fun _ => ⟨rfl, rfl, rfl, rfl, rfl, rfl, fun _ => rfl, fun aborted => aborted, .refl _⟩
  have stops := stop_marked tree later (fun _ => rfl) (fun _ => rfl) here (sameBusy.trans idle)
  have frame := u.stop_marked_frame id later
  have stopped := after.frame frame (by
    rw [quiet.stepped, alone]
    exact stops.tree)
  have blocked := modify_quiet ((u.modify id fun t =>
      { t with done := true, error := t.error || newState = stateError }).stop id) id
    (f := fun t => { t with blocked := true })
    (fun _ => ⟨rfl, rfl, fun aborted => aborted, rfl⟩) fun _ => rfl
  exact ⟨quiet, stopped.quiet blocked, (quiet.kept.trans frame.kept).trans blocked.kept⟩

/-- `Process` has returned to `Step`. -/
theorem stepReturned_sound (ledger : s.Ledger) (tree : s.Tree [] (some id)) (alone : s.stepped = none)
    (present : s.heap id = some t) (unfinished : t.done = false) (newState : Int) :
    (s.stepReturned id newState).Sound ∧ s.Kept (s.stepReturned id newState) := by
  have kept := s.modify_kept id fun t => { t with busy := false }
  have returned := ledger.modify id fun t => { t with busy := false }
  have loosened := tree.setBusy false present (fun _ same => (Option.some.inj same).symm) unfinished
  have here : (s.modify id fun t => { t with busy := false }).heap id =
      some { t with busy := false } := by
    rw [heap_modify, if_pos rfl, present]
    rfl
  have stillAlone : (s.modify id fun t => { t with busy := false }).stepped = none := alone
  unfold stepReturned
  dsimp only
  generalize (s.modify id fun t => { t with busy := false }) = u at *
  rw [here]
  dsimp only
  split
  · have aborts := abort_spec loosened (by rw [here]; rfl)
    have frame := u.abort_frame id
    obtain ⟨v, there, later⟩ := frame.later id _ here
    have done : v.done = true := (aborts.reached v there).resolve_right fun ⟨busy, _⟩ => by
      rw [later.busy] at busy
      cases busy
    have settled := aborts.tree.settle there later.busy (.inl done)
    exact ⟨(returned.frame frame).sound settled (frame.stepped.trans stillAlone),
      kept.trans frame.kept⟩
  · next notAborted =>
    have settled := loosened.settle here rfl (.inr (Bool.eq_false_iff.mpr notAborted))
    have sound := returned.sound settled stillAlone
    obtain ⟨quiet, stops, stopsKept⟩ := goOn_sound sound here rfl stillAlone newState
    split
    · exact ⟨stops, kept.trans stopsKept⟩
    · exact ⟨sound.quiet quiet, kept.trans quiet.kept⟩

/-! ## The end of a run -/

/-- The task is there and done. -/
def finished (s : TaskRunner) (id : Nat) : Bool :=
  (s.heap id).any (·.done)

/-- What is left when the tasks in a list that are done were deleted. -/
structure Swept (s s' : TaskRunner) (swept : List Nat) : Prop where
  heap : ∀ id, s'.heap id = if id ∈ swept ∧ s.finished id then none else s.heap id
  deleted : ∀ id, s'.deleted id =
    if id ∈ swept ∧ s.finished id then s.deleted id + 1 else s.deleted id
  next : ∀ n, s'.nextTimeoutTask = some n ↔
    s.nextTimeoutTask = some n ∧ ¬(n ∈ swept ∧ s.finished n)
  nextId : s'.nextId = s.nextId
  tasks : s'.tasks = s.tasks
  run : s'.run = s.run
  currentTime : s'.currentTime = s.currentTime
  broken : s'.broken = s.broken

theorem Swept.step {swept : List Nat} (before : s.Swept s' swept) (fresh : id ∉ swept)
    (present : s.heap id = some t) : s.Swept (s'.deleteIfDone id) (swept ++ [id]) := by
  have here : s'.heap id = some t := by
    rw [before.heap, if_neg (fun listed => fresh listed.1), present]
  have isFinished : s.finished id = t.done := by simp [finished, present]
  have others : ∀ other, other ≠ id → ((other ∈ swept ++ [id] ∧ s.finished other) ↔
      other ∈ swept ∧ s.finished other) := by
    intro other differs
    simp [differs]
  unfold deleteIfDone
  rw [here]
  dsimp only
  split
  · next done =>
    have own : id ∈ swept ++ [id] ∧ s.finished id := by simp [isFinished, done]
    refine ⟨fun other => ?_, fun other => ?_, fun n => ?_, before.nextId, before.tasks, before.run,
      before.currentTime, before.broken⟩
    · by_cases same : other = id
      · rw [same, if_pos own]
        exact Function.update_self ..
      · simp only [others other same]
        exact (Function.update_of_ne same ..).trans (before.heap other)
    · by_cases same : other = id
      · rw [same, if_pos own]
        refine (Function.update_self ..).trans ?_
        rw [before.deleted, if_neg (fun listed => fresh listed.1)]
      · simp only [others other same]
        exact (Function.update_of_ne same ..).trans (before.deleted other)
    · by_cases same : n = id
      · rw [same]
        refine ⟨fun isNext => ?_, fun isNext => absurd own isNext.2⟩
        change (if _ then none else _) = _ at isNext
        split at isNext
        · cases isNext
        · next notNext => exact absurd isNext notNext
      · rw [others n same, ← before.next]
        change (if _ then none else _) = _ ↔ _
        split
        · next isNext => simp [isNext, Ne.symm same]
        · exact Iff.rfl
  · next unfinished =>
    have same : ∀ other, ((other ∈ swept ++ [id] ∧ s.finished other) ↔
        other ∈ swept ∧ s.finished other) := by
      intro other
      by_cases same : other = id
      · rw [same, isFinished]
        simp [unfinished]
      · exact others other same
    refine ⟨fun other => ?_, fun other => ?_, fun n => ?_, before.nextId, before.tasks, before.run,
      before.currentTime, before.broken⟩
    · simp only [same other]
      exact before.heap other
    · simp only [same other]
      exact before.deleted other
    · rw [same n]
      exact before.next n

theorem sweep_spec (s : TaskRunner) {tasks : List Nat} (nodup : tasks.Nodup)
    (live : ∀ id ∈ tasks, (s.heap id).isSome) : s.Swept (tasks.foldl deleteIfDone s) tasks := by
  induction tasks using List.reverseRecOn with
  | nil => exact ⟨by simp, by simp, by simp, rfl, rfl, rfl, rfl, rfl⟩
  | append_singleton tasks id ih =>
    rw [List.foldl_concat]
    obtain ⟨t, present⟩ := Option.isSome_iff_exists.mp (live id (by simp))
    have parts := List.nodup_append.mp nodup
    exact (ih parts.1 fun other listed => live other (List.mem_append_left _ listed)).step
      (fun listed => parts.2.2 id listed id (List.mem_singleton_self id) rfl) present

/-- What the end of a run comes to. -/
structure Ended (s s' : TaskRunner) : Prop where
  heap : ∀ id, s'.heap id = if id ∈ s.tasks ∧ s.finished id then none else s.heap id
  deleted : ∀ id, s'.deleted id =
    if id ∈ s.tasks ∧ s.finished id then s.deleted id + 1 else s.deleted id
  tasks : s'.tasks = s.tasks.filter fun id => !s.finished id
  next : s'.nextTimeoutTask = s.nextTimeoutTask ∧
      (∀ n, s.nextTimeoutTask = some n → ¬(n ∈ s.tasks ∧ s.finished n)) ∨
    ∃ u : TaskRunner, u.heap = s'.heap ∧ u.tasks = s'.tasks ∧
      s'.nextTimeoutTask = (u.recalcNextTimeout none).nextTimeoutTask
  nextId : s'.nextId = s.nextId
  run : s'.run = none
  currentTime : s'.currentTime = s.currentTime
  broken : s'.broken = s.broken

theorem Ledger.ended (ledger : s.Ledger) : s.Ended s.endRun := by
  have swept := s.sweep_spec ledger.tasksNodup ledger.tasksLive
  have left : (s.tasks.filter fun id => ((s.tasks.foldl deleteIfDone s).heap id).isSome) =
      s.tasks.filter fun id => !s.finished id := by
    refine List.filter_congr fun id listed => ?_
    rw [swept.heap]
    split
    · next both => simp [both.2]
    · next neither =>
      rw [ledger.tasksLive id listed]
      simpa [listed] using neither
  unfold endRun
  dsimp only
  split
  · next cleared =>
    refine ⟨swept.heap, swept.deleted, left, .inr ⟨_, rfl, rfl, rfl⟩, swept.nextId, rfl,
      swept.currentTime, swept.broken⟩
  · next same =>
    refine ⟨swept.heap, swept.deleted, left, .inl ?_, swept.nextId, rfl, swept.currentTime,
      swept.broken⟩
    cases next : s.nextTimeoutTask with
    | none =>
      refine ⟨Option.eq_none_iff_forall_ne_some.mpr fun n isNext => ?_, nofun⟩
      rw [((swept.next n).mp isNext).1] at next
      cases next
    | some n =>
      cases after : (s.tasks.foldl deleteIfDone s).nextTimeoutTask with
      | none => simp [next, after] at same
      | some m =>
        obtain ⟨isNext, stays⟩ := (swept.next m).mp after
        rw [next] at isNext
        cases isNext
        exact ⟨rfl, fun _ equal => Option.some.inj equal ▸ stays⟩

theorem Ended.stays (ended : s.Ended s') (present : s.heap id = some t) (unfinished : t.done = false) :
    s'.heap id = some t := by
  rw [ended.heap, if_neg ?_, present]
  rintro ⟨-, isFinished⟩
  simp [finished, present, unfinished] at isFinished

theorem Ended.was (ended : s.Ended s') (here : s'.heap id = some t) : s.heap id = some t := by
  rw [ended.heap] at here
  split at here
  · cases here
  · exact here

theorem Ended.tree (ended : s.Ended s') (tree : s.Tree [] none) : s'.Tree [] none := by
  refine ⟨fun id u here => ?_, fun id u p here isParent => ?_, fun p u c here child => ?_,
    fun p u here => ?_, fun id u p here unfinished isParent => ?_, fun id u here busy => ?_⟩
  · rw [ended.nextId]
    exact tree.below id u (ended.was here)
  · exact tree.parentBelow id u p (ended.was here) isParent
  · obtain ⟨v, childHere, childParent, unfinished | impossible⟩ :=
      tree.kids p u c (ended.was here) child
    · exact ⟨v, ended.stays childHere unfinished, childParent, .inl unfinished⟩
    · exact absurd impossible List.not_mem_nil
  · exact tree.kidsNodup p u (ended.was here)
  · rcases tree.linked id u p (ended.was here) unfinished isParent with
      ⟨v, parentHere, parentUnfinished | impossible, child⟩ | ⟨isLoose, -⟩
    · exact .inl ⟨v, ended.stays parentHere parentUnfinished, .inl parentUnfinished, child⟩
    · exact absurd impossible List.not_mem_nil
    · cases isLoose
  · exact tree.busy id u (ended.was here) busy

theorem Ended.ledger (ended : s.Ended s') (ledger : s.Ledger) (tree : s.Tree [] none) :
    s'.Ledger where
  tasksLive := fun id listed => by
    rw [ended.tasks, List.mem_filter] at listed
    rw [ended.heap, if_neg (by simpa [listed.1] using listed.2)]
    exact ledger.tasksLive id listed.1
  tasksNodup := by
    rw [ended.tasks]
    exact ledger.tasksNodup.filter _
  nextLive := fun n isNext => by
    rcases ended.next with ⟨same, stays⟩ | ⟨u, sameHeap, -, recalculated⟩
    · rw [same] at isNext
      rw [ended.heap, if_neg (stays n isNext)]
      exact ledger.nextLive n isNext
    · rw [recalculated] at isNext
      obtain ⟨-, -, -, ⟨t, here, -⟩, -⟩ := (u.recalc_found none u.tasks).task n isNext
      rw [← sameHeap, here]
      rfl
  counted := fun id => by
    rw [ended.deleted, ended.heap, ended.nextId, ledger.counted id]
    split
    · next both =>
      obtain ⟨t, here⟩ := Option.isSome_iff_exists.mp (ledger.tasksLive id both.1)
      simp [here, tree.below id t here]
    · rfl
  intact := ended.broken.trans ledger.intact

/-! ## The loop -/

/-- The turns of the loop. -/
inductive Turn (s : TaskRunner) (index : Nat) (didRun : Bool) : TaskRunner → Prop where
  | blocked : Turn s index didRun (s.setRun ⟨index + 1, didRun, none⟩)
  | again : s.tasks[index]? = none → didRun = true → Turn s index didRun (s.setRun ⟨0, false, none⟩)
  | ended : s.tasks[index]? = none → didRun = false → Turn s index didRun s.endRun
  | done (id : Nat) (t : Task) : s.tasks[index]? = some id → s.heap id = some t → t.done = true →
      Turn s index didRun ((s.modify id fun t => { t with blocked := true }).setRun ⟨index, true, none⟩)
  | error (id : Nat) (t : Task) : s.tasks[index]? = some id → s.heap id = some t → t.done = false →
      Turn s index didRun
        (((s.modify id fun t => { t with done := true, state := stateError, blocked := true }).stop
          id).setRun ⟨index, true, none⟩)
  | process (id : Nat) (t : Task) : s.tasks[index]? = some id → s.heap id = some t →
      t.done = false → Turn s index didRun
        ((s.modify id fun t => { t with busy := true }).setRun ⟨index, true, some ⟨id, []⟩⟩)

theorem Ledger.turn (ledger : s.Ledger) (index : Nat) (didRun : Bool) :
    s.Turn index didRun (s.advance index didRun) := by
  unfold advance
  split
  · next id listed =>
    obtain ⟨t, present⟩ :=
      Option.isSome_iff_exists.mp (ledger.tasksLive id (List.mem_of_getElem? listed))
    rw [present]
    dsimp only
    split
    · exact .blocked
    · unfold step
      by_cases done : t.done = true
      · rw [if_pos done]
        exact .done id t listed present done
      · have unfinished := Bool.eq_false_iff.mpr done
        rw [if_neg done]
        by_cases error : t.error = true
        · rw [if_pos error]
          exact .error id t listed present unfinished
        · rw [if_neg error]
          exact .process id t listed present unfinished
  · next past =>
    split
    · next ran => exact .again past ran
    · next idle => exact .ended past (Bool.eq_false_iff.mpr idle)

/-- An error that was flagged finishes the task in its next step. -/
theorem Sound.error_turn (sound : s.Sound) (alone : s.stepped = none) (present : s.heap id = some t) :
    let u := (s.modify id fun t => { t with done := true, state := stateError, blocked := true }).stop id
    u.Sound ∧ s.Kept u ∧ u.stepped = none := by
  have tree : s.Tree [] none := alone ▸ sound.tree
  have idle : t.busy = false := by
    cases busy : t.busy with
    | false => rfl
    | true => cases (tree.busy id t present busy).1
  -- The state changes where the task is marked.
  have quiet := s.modify_quiet id (f := fun t => { t with state := stateError, blocked := true })
    (fun _ => ⟨rfl, rfl, fun aborted => aborted, rfl⟩) fun _ => rfl
  have same : s.modify id (fun t => { t with done := true, state := stateError, blocked := true }) =
      (s.modify id fun t => { t with state := stateError, blocked := true }).modify id
        fun t => { t with done := true } := by
    rw [modify_modify]
  have changed := sound.quiet quiet
  have later : ∀ t : Task, t.Later { t with done := true } :=
    fun _ => ⟨rfl, rfl, rfl, rfl, rfl, rfl, fun _ => rfl, fun aborted => aborted, .refl _⟩
  have stops := stop_marked (alone ▸ changed.tree) later (fun _ => rfl) (fun _ => rfl)
    (show _ = some { t with state := stateError, blocked := true } by
      rw [heap_modify, if_pos rfl, present]
      rfl) idle
  have frame := stop_marked_frame
    (s.modify id fun t => { t with state := stateError, blocked := true }) id later
  intro u
  have last : u.stepped = none := by
    dsimp only [u]
    rw [same]
    exact frame.stepped.trans alone
  refine ⟨?_, ?_, last⟩
  · dsimp only [u]
    rw [same]
    exact changed.frame frame (by
      rw [quiet.stepped, alone]
      exact stops.tree)
  · dsimp only [u]
    rw [same]
    exact quiet.kept.trans frame.kept

/-- A turn of the loop keeps the invariant, and the tasks where it does not end the run. -/
theorem Sound.turn {index : Nat} {didRun : Bool} (sound : s.Sound) (alone : s.stepped = none)
    (turn : s.Turn index didRun s') : s'.Sound ∧ (s.Kept s' ∨ s.Ended s') := by
  have tree : s.Tree [] none := alone ▸ sound.tree
  cases turn with
  | blocked =>
    have quiet := setRun_quiet ⟨index + 1, didRun, none⟩ alone.symm
    exact ⟨sound.quiet quiet, .inl quiet.kept⟩
  | again _ _ =>
    have quiet := setRun_quiet ⟨0, false, none⟩ alone.symm
    exact ⟨sound.quiet quiet, .inl quiet.kept⟩
  | ended _ _ =>
    have ended := sound.ledger.ended
    refine ⟨(ended.ledger sound.ledger tree).sound (ended.tree tree) ?_, .inr ended⟩
    unfold stepped
    rw [ended.run]
    rfl
  | done id t _ _ _ =>
    have quiet := (s.modify_quiet id (f := fun t => { t with blocked := true })
      (fun _ => ⟨rfl, rfl, fun aborted => aborted, rfl⟩) fun _ => rfl).trans
        (setRun_quiet ⟨index, true, none⟩ alone.symm)
    exact ⟨sound.quiet quiet, .inl quiet.kept⟩
  | error id t _ present _ =>
    obtain ⟨stopped, kept, last⟩ := sound.error_turn alone present
    have quiet := setRun_quiet ⟨index, true, none⟩ last.symm
    exact ⟨stopped.quiet quiet, .inl (kept.trans quiet.kept)⟩
  | process id t listed present unfinished =>
    have begun := tree.setBusy true present nofun unfinished
    have ledger := sound.ledger.modify id fun t => { t with busy := true }
    have kept := s.modify_kept id fun t => { t with busy := true }
    have here : (s.modify id fun t => { t with busy := true }).heap id =
        some { t with busy := true } := by
      rw [heap_modify, if_pos rfl, present]
      rfl
    refine ⟨⟨{ ledger with }, ⟨begun.below, begun.parentBelow, begun.kids, begun.kidsNodup,
      begun.linked, begun.busy⟩, fun other isStepped => ?_⟩, .inl ⟨fun _ => rfl, kept.live, kept.tasks⟩⟩
    cases isStepped
    exact ⟨List.mem_of_getElem? listed, _, here, rfl, unfinished⟩

end TaskRunner

end Libjingle.Tasks

import Libjingle.Tasks.Timeouts

/-!
# What holds of the runner

The runner has every task that was started and not deleted, once. This holds in every state,
with the tree of the tasks, in which the task that is stepped is the only one that is busy.
-/

namespace Libjingle.Tasks

namespace TaskRunner

variable {s s' : TaskRunner} {id : Nat} {t : Task} {loose : Option Nat}

/-! ## The invariant -/

/-- The runner knows its tasks. -/
structure Ledger (s : TaskRunner) : Prop where
  tasksLive : ∀ id ∈ s.tasks, (s.heap id).isSome
  tasksNodup : s.tasks.Nodup
  nextLive : ∀ id, s.nextTimeoutTask = some id → (s.heap id).isSome
  counted : ∀ id, s.deleted id = if id < s.nextId ∧ s.heap id = none then 1 else 0
  intact : s.broken = false

structure Sound (s : TaskRunner) : Prop where
  ledger : s.Ledger
  tree : s.Tree [] s.stepped
  stepping : ∀ id, s.stepped = some id →
    id ∈ s.tasks ∧ ∃ t, s.heap id = some t ∧ t.busy = true ∧ t.done = false

theorem new_tree : new.Tree [] none := by
  have empty : ∀ id t, new.heap id ≠ some t := fun _ _ here => Option.some_ne_none _ here.symm
  exact ⟨fun id t here => absurd here (empty id t), fun id t _ here => absurd here (empty id t),
    fun p t _ here => absurd here (empty p t), fun p t here => absurd here (empty p t),
    fun id t _ here => absurd here (empty id t), fun id t here => absurd here (empty id t)⟩

theorem new_sound : new.Sound where
  ledger := {
    tasksLive := fun _ listed => absurd listed List.not_mem_nil
    tasksNodup := .nil
    nextLive := fun _ isNext => absurd isNext.symm (Option.some_ne_none _)
    counted := fun _ => rfl
    intact := rfl }
  tree := new_tree
  stepping := fun _ isStepped => absurd isStepped.symm (Option.some_ne_none _)

/-- No task is deleted, none leaves the runner, and no run ends. -/
structure Kept (s s' : TaskRunner) : Prop where
  running : s.run.isSome → s'.run.isSome
  live : ∀ id, (s.heap id).isSome → (s'.heap id).isSome
  tasks : ∀ id ∈ s.tasks, id ∈ s'.tasks

theorem Kept.trans {u : TaskRunner} (first : s.Kept s') (second : s'.Kept u) : s.Kept u :=
  ⟨second.running ∘ first.running, fun id live => second.live id (first.live id live),
    fun id listed => second.tasks id (first.tasks id listed)⟩

theorem Quiet.kept (quiet : s.Quiet s') : s.Kept s' :=
  ⟨quiet.running, fun id live => by rwa [quiet.isSome], fun id listed => by rwa [quiet.tasks]⟩

theorem Frame.isSome (frame : s.Frame s') (id : Nat) : (s'.heap id).isSome = (s.heap id).isSome := by
  cases before : s.heap id with
  | none => rw [frame.gone id before]
  | some t =>
    obtain ⟨t', here, -⟩ := frame.later id t before
    rw [here]
    rfl

theorem Frame.stepped (frame : s.Frame s') : s'.stepped = s.stepped := by
  unfold TaskRunner.stepped
  rw [frame.run]

theorem Frame.kept (frame : s.Frame s') : s.Kept s' :=
  ⟨fun running => by rwa [frame.run], fun id live => by rwa [frame.isSome],
    fun id listed => by rwa [frame.tasks]⟩

theorem Ledger.of_isSome (ledger : s.Ledger) (live : ∀ id, (s'.heap id).isSome = (s.heap id).isSome)
    (nextId : s'.nextId = s.nextId) (tasks : s'.tasks = s.tasks) (broken : s'.broken = s.broken)
    (deleted : s'.deleted = s.deleted)
    (next : ∀ id, s'.nextTimeoutTask = some id → (s.heap id).isSome) : s'.Ledger where
  tasksLive := fun id listed => by
    rw [live]
    exact ledger.tasksLive id (tasks ▸ listed)
  tasksNodup := by
    rw [tasks]
    exact ledger.tasksNodup
  nextLive := fun id isNext => by
    rw [live]
    exact next id isNext
  counted := fun id => by
    have same : s'.heap id = none ↔ s.heap id = none := by
      rw [← Option.not_isSome_iff_eq_none, ← Option.not_isSome_iff_eq_none, live]
    simp only [deleted, nextId, same]
    exact ledger.counted id
  intact := broken.trans ledger.intact

theorem Ledger.quiet (ledger : s.Ledger) (quiet : s.Quiet s') : s'.Ledger :=
  ledger.of_isSome quiet.isSome quiet.nextId quiet.tasks quiet.broken quiet.deleted
    fun id isNext => (quiet.next id isNext).elim (ledger.nextLive id) fun live => live

theorem Ledger.frame (ledger : s.Ledger) (frame : s.Frame s') : s'.Ledger :=
  ledger.of_isSome frame.isSome frame.nextId frame.tasks frame.broken frame.deleted
    fun id isNext => ledger.nextLive id (frame.nextTimeoutTask ▸ isNext)

theorem Quiet.tree (quiet : s.Quiet s') (tree : s.Tree [] loose) : s'.Tree [] loose := by
  refine tree.change quiet.nextId quiet.gone (fun id t here => ?_) (fun id t here busy => ?_)
    fun id t isLoose _ _ _ => isLoose
  · obtain ⟨t', here, alike, -⟩ := quiet.alike id t here
    exact ⟨t', here, alike⟩
  · cases before : s.heap id with
    | none =>
      rw [quiet.gone id before] at here
      cases here
    | some u =>
      obtain ⟨u', found, alike, sameBusy⟩ := quiet.alike id u before
      rw [found] at here
      cases here
      rw [alike.done]
      exact tree.busy id u before (sameBusy ▸ busy)

theorem Sound.quiet (sound : s.Sound) (quiet : s.Quiet s') : s'.Sound where
  ledger := sound.ledger.quiet quiet
  tree := by
    rw [quiet.stepped]
    exact quiet.tree sound.tree
  stepping := fun id isStepped => by
    rw [quiet.stepped] at isStepped
    obtain ⟨listed, t, here, busy, unfinished⟩ := sound.stepping id isStepped
    obtain ⟨t', here, alike, sameBusy⟩ := quiet.alike id t here
    exact ⟨quiet.tasks ▸ listed, t', here, sameBusy.trans busy, alike.done.trans unfinished⟩

theorem Sound.frame (sound : s.Sound) (frame : s.Frame s') (tree : s'.Tree [] s.stepped) :
    s'.Sound where
  ledger := sound.ledger.frame frame
  tree := by
    rw [frame.stepped]
    exact tree
  stepping := fun id isStepped => by
    rw [frame.stepped] at isStepped
    obtain ⟨listed, t, here, busy, -⟩ := sound.stepping id isStepped
    obtain ⟨t', here, later⟩ := frame.later id t here
    have stillBusy := later.busy.trans busy
    exact ⟨frame.tasks ▸ listed, t', here, stillBusy, (tree.busy id t' here stillBusy).2⟩

/-! ## Stopping -/

theorem abort_spec (tree : s.Tree [] loose) (live : (s.heap id).isSome) :
    s.Aborts (s.abort id) [] loose id :=
  abortTo_spec s.nextId tree (by omega) live

theorem abort_gone (gone : s.heap id = none) : s.abort id = s := by
  unfold abort
  cases s.nextId with
  | zero => rfl
  | succ depth =>
    unfold abortTo
    rw [gone]

theorem Sound.abort (sound : s.Sound) (id : Nat) : (s.abort id).Sound ∧ s.Kept (s.abort id) := by
  cases here : s.heap id with
  | none =>
    rw [abort_gone here]
    exact ⟨sound, (Quiet.refl s).kept⟩
  | some t =>
    have aborts : s.Aborts (s.abort id) [] s.stepped id :=
      abort_spec sound.tree (by rw [here]; rfl)
    exact ⟨sound.frame (s.abort_frame id) aborts.tree, (s.abort_frame id).kept⟩

/-- A task is marked as done and stops. -/
theorem stop_marked {f : Task → Task} (tree : s.Tree [] loose) (later : ∀ t : Task, t.Later (f t))
    (done : ∀ t, (f t).done = true) (kids : ∀ t, (f t).offspring = t.offspring)
    (present : s.heap id = some t) (idle : t.busy = false) :
    s.Aborts ((s.modify id f).stop id) [] loose id := by
  have frame := modify_frame s id later
  have here : (s.modify id f).heap id = some (f t) := by rw [heap_modify, if_pos rfl, present]; rfl
  have stopped := stopWith_spec (abortTo_frame s.nextId)
    (fun u same below c _ live => abortTo_spec _ below (by rw [same, frame.nextId]; omega) live)
    (tree.mark later done kids present idle) here (done t)
  refine ⟨stopped.tree, stopped.reached, fun other u u' was here unfinished isDone => ?_⟩
  by_cases same : other = id
  · exact .inl same
  · rw [← frame.above]
    exact stopped.finishes other u u' (by rw [heap_modify, if_neg same]; exact was) here unfinished
      isDone

end TaskRunner

end Libjingle.Tasks

import Libjingle.Tasks.Task
import Mathlib.Logic.Relation

/-!
# What an abort does to the tree

An abort goes down the children of a task, and takes every task that it finishes from its
parent. A task that is stepped is only marked, and so is kept from what is below it. On the way
the invariant of the tree holds but for the tasks that are being stopped, which are finished
and still have children.
-/

namespace Libjingle.Tasks

/-- A task that was only aborted, or had children stopped. -/
structure Task.Later (t t' : Task) : Prop where
  parent : t'.parent = t.parent
  state : t'.state = t.state
  busy : t'.busy = t.busy
  timeoutTime : t'.timeoutTime = t.timeoutTime
  timeoutSeconds : t'.timeoutSeconds = t.timeoutSeconds
  timeoutSuspended : t'.timeoutSuspended = t.timeoutSuspended
  done : t.done = true → t'.done = true
  aborted : t.aborted = true → t'.aborted = true
  children : t'.offspring.children.Sublist t.offspring.children

theorem Task.Later.refl (t : Task) : t.Later t :=
  ⟨rfl, rfl, rfl, rfl, rfl, rfl, id, id, .refl _⟩

theorem Task.Later.trans {t u v : Task} (first : t.Later u) (second : u.Later v) : t.Later v where
  parent := second.parent.trans first.parent
  state := second.state.trans first.state
  busy := second.busy.trans first.busy
  timeoutTime := second.timeoutTime.trans first.timeoutTime
  timeoutSeconds := second.timeoutSeconds.trans first.timeoutSeconds
  timeoutSuspended := second.timeoutSuspended.trans first.timeoutSuspended
  done := second.done ∘ first.done
  aborted := second.aborted ∘ first.aborted
  children := second.children.trans first.children

/-- A task that has the same place in the tree. -/
structure Task.Alike (t t' : Task) : Prop where
  parent : t'.parent = t.parent
  done : t'.done = t.done
  aborted : t.aborted = true → t'.aborted = true
  children : t'.offspring.children = t.offspring.children

namespace TaskRunner

/-- Tasks were only aborted. -/
structure Frame (s s' : TaskRunner) : Prop where
  nextId : s'.nextId = s.nextId
  tasks : s'.tasks = s.tasks
  nextTimeoutTask : s'.nextTimeoutTask = s.nextTimeoutTask
  run : s'.run = s.run
  polls : s'.polls = s.polls
  currentTime : s'.currentTime = s.currentTime
  broken : s'.broken = s.broken
  deleted : s'.deleted = s.deleted
  gone : ∀ id, s.heap id = none → s'.heap id = none
  later : ∀ id t, s.heap id = some t → ∃ t', s'.heap id = some t' ∧ t.Later t'

variable {s s' : TaskRunner} {id : Nat} {t : Task} {E : List Nat} {loose : Option Nat}

theorem Frame.refl (s : TaskRunner) : s.Frame s :=
  ⟨rfl, rfl, rfl, rfl, rfl, rfl, rfl, rfl, fun _ gone => gone, fun _ t here => ⟨t, here, .refl t⟩⟩

theorem Frame.trans {u : TaskRunner} (first : s.Frame s') (second : s'.Frame u) : s.Frame u where
  nextId := second.nextId.trans first.nextId
  tasks := second.tasks.trans first.tasks
  nextTimeoutTask := second.nextTimeoutTask.trans first.nextTimeoutTask
  run := second.run.trans first.run
  polls := second.polls.trans first.polls
  currentTime := second.currentTime.trans first.currentTime
  broken := second.broken.trans first.broken
  deleted := second.deleted.trans first.deleted
  gone := fun id gone => second.gone id (first.gone id gone)
  later := fun id t here => by
    obtain ⟨t', here, before⟩ := first.later id t here
    obtain ⟨t'', here, after⟩ := second.later id t' here
    exact ⟨t'', here, before.trans after⟩

/-- What is there afterwards was there before. -/
theorem Frame.earlier (frame : s.Frame s') {t' : Task} (here : s'.heap id = some t') :
    ∃ t, s.heap id = some t ∧ t.Later t' := by
  cases before : s.heap id with
  | none =>
    rw [frame.gone id before] at here
    cases here
  | some t =>
    obtain ⟨found, same, later⟩ := frame.later id t before
    rw [same] at here
    cases here
    exact ⟨t, rfl, later⟩

/-- The parent of a task that is there. -/
def parentOf (s : TaskRunner) (id : Nat) : Option Nat :=
  (s.heap id).bind (·.parent)

theorem parentOf_eq_some {p : Nat} :
    s.parentOf id = some p ↔ ∃ t, s.heap id = some t ∧ t.parent = some p := by
  simp [parentOf, Option.bind_eq_some_iff]

theorem Frame.parentOf (frame : s.Frame s') : s'.parentOf = s.parentOf := by
  funext id
  unfold TaskRunner.parentOf
  cases before : s.heap id with
  | none => rw [frame.gone id before]
  | some t =>
    obtain ⟨t', here, later⟩ := frame.later id t before
    rw [here]
    exact later.parent

/-- The first task is above the second one. -/
def Above (s : TaskRunner) : Nat → Nat → Prop :=
  Relation.TransGen fun p id => s.parentOf id = some p

theorem Frame.above (frame : s.Frame s') : s'.Above = s.Above := by
  unfold Above
  rw [frame.parentOf]

theorem heap_modify (s : TaskRunner) (id other : Nat) (f : Task → Task) :
    (s.modify id f).heap other = if other = id then (s.heap id).map f else s.heap other := by
  simp only [modify, Function.update_apply]

theorem modify_modify (s : TaskRunner) (id : Nat) (f g : Task → Task) :
    (s.modify id f).modify id g = s.modify id fun t => g (f t) := by
  unfold modify
  simp only [Function.update_idem, Function.update_self, Option.map_map]
  rfl

theorem modify_frame (s : TaskRunner) (id : Nat) {f : Task → Task}
    (later : ∀ t : Task, t.Later (f t)) : s.Frame (s.modify id f) := by
  refine ⟨rfl, rfl, rfl, rfl, rfl, rfl, rfl, rfl, fun other gone => ?_, fun other t here => ?_⟩
  · rw [heap_modify]
    split
    · next same => rw [← same, gone, Option.map_none]
    · exact gone
  · rw [heap_modify]
    split
    · next same =>
      rw [← same, here]
      exact ⟨_, rfl, later t⟩
    · exact ⟨t, here, .refl t⟩

theorem onChildStopped_frame (s : TaskRunner) (id : Nat) : s.Frame (s.onChildStopped id) := by
  unfold onChildStopped
  split
  · exact .refl s
  · dsimp only
    split
    · exact ⟨rfl, rfl, rfl, rfl, rfl, rfl, rfl, rfl, fun _ gone => gone,
        fun _ t here => ⟨t, here, .refl t⟩⟩
    · exact modify_frame s _ fun t =>
        ⟨rfl, rfl, rfl, rfl, rfl, rfl, fun done => done, fun aborted => aborted,
          List.erase_sublist⟩

theorem foldl_frame {abort : TaskRunner → Nat → TaskRunner}
    (frames : ∀ (u : TaskRunner) (c : Nat), u.Frame (abort u c)) (children : List Nat)
    (s : TaskRunner) : s.Frame (children.foldl abort s) := by
  induction children generalizing s with
  | nil => exact .refl s
  | cons c rest ih => exact (frames s c).trans (ih (abort s c))

theorem stopWith_frame {abort : TaskRunner → Nat → TaskRunner}
    (frames : ∀ (u : TaskRunner) (c : Nat), u.Frame (abort u c)) (s : TaskRunner) (id : Nat) :
    s.Frame (stopWith abort s id) := by
  unfold stopWith
  split
  · exact .refl s
  · exact (foldl_frame frames _ s).trans (onChildStopped_frame _ id)

theorem mark_later (t : Task) :
    t.Later { t with aborted := true, done := true, blocked := true, error := true } :=
  ⟨rfl, rfl, rfl, rfl, rfl, rfl, fun _ => rfl, fun _ => rfl, .refl _⟩

theorem mark_busy_later (t : Task) : t.Later { t with aborted := true } :=
  ⟨rfl, rfl, rfl, rfl, rfl, rfl, id, fun _ => rfl, .refl _⟩

theorem abortTo_frame (depth : Nat) (s : TaskRunner) (id : Nat) : s.Frame (abortTo depth s id) := by
  induction depth generalizing s id with
  | zero => exact .refl s
  | succ depth ih =>
    unfold abortTo
    split
    · exact .refl s
    · split
      · exact .refl s
      · split
        · exact modify_frame s id mark_busy_later
        · exact (modify_frame s id mark_later).trans (stopWith_frame ih _ id)

theorem abort_frame (s : TaskRunner) (id : Nat) : s.Frame (s.abort id) :=
  abortTo_frame s.nextId s id

theorem stop_frame (s : TaskRunner) (id : Nat) : s.Frame (s.stop id) :=
  stopWith_frame (abortTo_frame s.nextId) s id

theorem stop_marked_frame (s : TaskRunner) (id : Nat) {f : Task → Task}
    (later : ∀ t : Task, t.Later (f t)) : s.Frame ((s.modify id f).stop id) :=
  (modify_frame s id later).trans (stop_frame _ id)

/-! ## The tree -/

/-- The tasks in `E` are being stopped, and the loose task was aborted in its own step. -/
structure Tree (s : TaskRunner) (E : List Nat) (loose : Option Nat) : Prop where
  below : ∀ id t, s.heap id = some t → id < s.nextId
  parentBelow : ∀ id t p, s.heap id = some t → t.parent = some p → p < id
  kids : ∀ p t c, s.heap p = some t → c ∈ t.offspring.children →
    ∃ u, s.heap c = some u ∧ u.parent = some p ∧ (u.done = false ∨ c ∈ E)
  kidsNodup : ∀ p t, s.heap p = some t → t.offspring.children.Nodup
  linked : ∀ id t p, s.heap id = some t → t.done = false → t.parent = some p →
    (∃ u, s.heap p = some u ∧ (u.done = false ∨ p ∈ E) ∧ id ∈ u.offspring.children) ∨
      loose = some id ∧ t.aborted = true
  busy : ∀ id t, s.heap id = some t → t.busy = true → loose = some id ∧ t.done = false

/-- An abort has reached the task. -/
def Reached (s : TaskRunner) (id : Nat) : Prop :=
  ∀ t, s.heap id = some t → t.done = true ∨ t.busy = true ∧ t.aborted = true

theorem Reached.later (reached : s.Reached id) (frame : s.Frame s') : s'.Reached id := by
  intro t' here
  obtain ⟨t, before, later⟩ := frame.earlier here
  rcases reached t before with done | ⟨busy, aborted⟩
  · exact .inl (later.done done)
  · exact .inr ⟨later.busy.trans busy, later.aborted aborted⟩

/-- The tasks that were finished are the first one and some below it. -/
def Finishes (s s' : TaskRunner) (id : Nat) : Prop :=
  ∀ other t t', s.heap other = some t → s'.heap other = some t' → t.done = false →
    t'.done = true → other = id ∨ s.Above id other

/-- What an abort comes to. -/
structure Aborts (s s' : TaskRunner) (E : List Nat) (loose : Option Nat) (id : Nat) : Prop where
  tree : s'.Tree E loose
  reached : s'.Reached id
  finishes : s.Finishes s' id

/-- Nothing changes in the tree but the task that is stepped. -/
theorem Tree.change {loose' : Option Nat} (tree : s.Tree E loose) (nextId : s'.nextId = s.nextId)
    (gone : ∀ id, s.heap id = none → s'.heap id = none)
    (alike : ∀ id t, s.heap id = some t → ∃ t', s'.heap id = some t' ∧ t.Alike t')
    (busy : ∀ id t, s'.heap id = some t → t.busy = true → loose' = some id ∧ t.done = false)
    (stillLoose : ∀ id t, loose = some id → s'.heap id = some t → t.done = false →
      t.aborted = true → loose' = some id) : s'.Tree E loose' := by
  have earlier : ∀ id t', s'.heap id = some t' → ∃ t, s.heap id = some t ∧ t.Alike t' := by
    intro id t' here
    cases before : s.heap id with
    | none =>
      rw [gone id before] at here
      cases here
    | some t =>
      obtain ⟨found, same, alike⟩ := alike id t before
      rw [same] at here
      cases here
      exact ⟨t, rfl, alike⟩
  refine ⟨fun id u here => ?_, fun id u p here isParent => ?_, fun p u c here child => ?_,
    fun p u here => ?_, fun id u p here unfinished isParent => ?_, busy⟩
  · obtain ⟨v, was, -⟩ := earlier id u here
    rw [nextId]
    exact tree.below id v was
  · obtain ⟨v, was, same⟩ := earlier id u here
    exact tree.parentBelow id v p was (same.parent ▸ isParent)
  · obtain ⟨v, was, same⟩ := earlier p u here
    obtain ⟨w, childHere, isParent, unfinished⟩ := tree.kids p v c was (same.children ▸ child)
    obtain ⟨w', childNow, sameChild⟩ := alike c w childHere
    refine ⟨w', childNow, sameChild.parent.trans isParent, ?_⟩
    rw [sameChild.done]
    exact unfinished
  · obtain ⟨v, was, same⟩ := earlier p u here
    rw [same.children]
    exact tree.kidsNodup p v was
  · obtain ⟨v, was, same⟩ := earlier id u here
    rcases tree.linked id v p was (same.done ▸ unfinished) (same.parent ▸ isParent) with
      ⟨w, parentHere, known, child⟩ | ⟨isLoose, isAborted⟩
    · obtain ⟨w', parentNow, sameParent⟩ := alike p w parentHere
      refine .inl ⟨w', parentNow, ?_, sameParent.children ▸ child⟩
      rw [sameParent.done]
      exact known
    · have stillAborted := same.aborted isAborted
      exact .inr ⟨stillLoose id u isLoose here unfinished stillAborted, stillAborted⟩

theorem Tree.modify {loose' : Option Nat} (tree : s.Tree E loose) (id : Nat) {f : Task → Task}
    (alike : ∀ t : Task, t.Alike (f t))
    (busy : ∀ t, s.heap id = some t → (f t).busy = true → loose' = some id ∧ t.done = false)
    (keeps : ∀ other, loose = some other → loose' = some other) :
    (s.modify id f).Tree E loose' := by
  refine tree.change rfl (fun other gone => ?_) (fun other u was => ?_)
    (fun other u here isBusy => ?_) fun other u isLoose _ _ _ => keeps other isLoose
  · rw [heap_modify]
    split
    · next same => rw [← same, gone, Option.map_none]
    · exact gone
  · rw [heap_modify]
    split
    · next same =>
      rw [← same, was]
      exact ⟨_, rfl, alike u⟩
    · exact ⟨u, was, rfl, rfl, fun aborted => aborted, rfl⟩
  · rw [heap_modify] at here
    split at here
    · next same =>
      obtain ⟨v, was, rfl⟩ := Option.map_eq_some_iff.mp here
      rw [(alike v).done, same]
      exact busy v was isBusy
    · obtain ⟨isLoose, unfinished⟩ := tree.busy other u here isBusy
      exact ⟨keeps other isLoose, unfinished⟩

/-- A task is marked as one that is done. -/
theorem Tree.mark {f : Task → Task} (tree : s.Tree E loose) (later : ∀ t : Task, t.Later (f t))
    (done : ∀ t, (f t).done = true) (kids : ∀ t, (f t).offspring = t.offspring)
    (present : s.heap id = some t) (idle : t.busy = false) :
    (s.modify id f).Tree (id :: E) loose := by
  have frame := modify_frame s id later
  refine ⟨fun other u here => ?_, fun other u p here isParent => ?_, fun p u c here child => ?_,
    fun p u here => ?_, fun other u p here unfinished isParent => ?_, fun other u here busy => ?_⟩
  · obtain ⟨before, was, -⟩ := frame.earlier here
    exact tree.below other before was
  · obtain ⟨before, was, changed⟩ := frame.earlier here
    exact tree.parentBelow other before p was (changed.parent ▸ isParent)
  · obtain ⟨before, was, changed⟩ := frame.earlier here
    obtain ⟨v, childHere, isParent, unfinished⟩ :=
      tree.kids p before c was (changed.children.mem child)
    rw [heap_modify]
    split
    · next same =>
      rw [← same, childHere]
      exact ⟨_, rfl, (later v).parent.trans isParent, .inr (same ▸ List.mem_cons_self)⟩
    · exact ⟨v, childHere, isParent, unfinished.imp_right (List.mem_cons_of_mem _)⟩
  · obtain ⟨before, was, changed⟩ := frame.earlier here
    exact (tree.kidsNodup p before was).sublist changed.children
  · rw [heap_modify] at here
    split at here
    · obtain ⟨before, -, rfl⟩ := Option.map_eq_some_iff.mp here
      rw [done before] at unfinished
      cases unfinished
    · rcases tree.linked other u p here unfinished isParent with ⟨v, parentHere, known, child⟩ | isLoose
      · left
        rw [heap_modify]
        split
        · next same =>
          rw [← same, parentHere]
          refine ⟨_, rfl, .inr (same ▸ List.mem_cons_self), ?_⟩
          rw [kids v]
          exact child
        · exact ⟨v, parentHere, known.imp_right (List.mem_cons_of_mem _), child⟩
      · exact .inr isLoose
  · rw [heap_modify] at here
    split at here
    · obtain ⟨before, was, rfl⟩ := Option.map_eq_some_iff.mp here
      rw [present] at was
      cases was
      rw [(later t).busy, idle] at busy
      cases busy
    · exact tree.busy other u here busy

/-- The children of a task that is being stopped were all reached, and it leaves its parent. -/
theorem Tree.onChildStopped (tree : s.Tree (id :: E) loose) (present : s.heap id = some t)
    (done : t.done = true) (reached : ∀ c ∈ t.offspring.children, s.Reached c) :
    (s.onChildStopped id).Tree E loose := by
  have frame := onChildStopped_frame s id
  -- Where the task leaves its parent, its siblings stay.
  have children : ∀ p u u', s.heap p = some u → (s.onChildStopped id).heap p = some u' →
      u'.done = u.done ∧ u'.busy = u.busy ∧ u'.aborted = u.aborted ∧
      u'.offspring.children = if t.parent = some p then u.offspring.children.erase id
        else u.offspring.children := by
    intro p u u' was here
    unfold TaskRunner.onChildStopped at here
    rw [present] at here
    dsimp only at here
    cases isParent : t.parent with
    | none =>
      rw [isParent] at here
      rw [show u' = u from Option.some.inj (here.symm.trans was)]
      simp
    | some q =>
      rw [isParent] at here
      simp only [heap_modify] at here
      split at here
      · next same =>
        subst same
        rw [was] at here
        cases here
        simp [TaskParent.childStopped]
      · next differs =>
        rw [show u' = u from Option.some.inj (here.symm.trans was)]
        simp [Ne.symm differs]
  have stays : ∀ {p u c}, s.heap p = some u → c ∈ u.offspring.children → c ≠ id →
      ∀ {u'}, (s.onChildStopped id).heap p = some u' → c ∈ u'.offspring.children := by
    intro p u c was child differs u' here
    rw [(children p u u' was here).2.2.2]
    split
    · exact (List.mem_erase_of_ne differs).mpr child
    · exact child
  refine ⟨fun other u here => ?_, fun other u p here isParent => ?_, fun p u c here child => ?_,
    fun p u here => ?_, fun other u p here unfinished isParent => ?_, fun other u here busy => ?_⟩
  · obtain ⟨before, was, -⟩ := frame.earlier here
    rw [frame.nextId]
    exact tree.below other before was
  · obtain ⟨before, was, changed⟩ := frame.earlier here
    exact tree.parentBelow other before p was (changed.parent ▸ isParent)
  · obtain ⟨before, was, changed⟩ := frame.earlier here
    obtain ⟨v, childHere, isParent, unfinished⟩ :=
      tree.kids p before c was (changed.children.mem child)
    obtain ⟨v', childHere', changedChild⟩ := frame.later c v childHere
    refine ⟨v', childHere', changedChild.parent.trans isParent, ?_⟩
    rw [(children c v v' childHere childHere').1]
    refine unfinished.imp_right fun listed => ?_
    rcases List.mem_cons.mp listed with rfl | listed
    · -- It has left its parent.
      rw [present] at childHere
      cases childHere
      rw [(children p before u was here).2.2.2, if_pos isParent] at child
      exact absurd child (tree.kidsNodup p before was).not_mem_erase
    · exact listed
  · obtain ⟨before, was, changed⟩ := frame.earlier here
    exact (tree.kidsNodup p before was).sublist changed.children
  · obtain ⟨before, was, changed⟩ := frame.earlier here
    obtain ⟨sameDone, -, sameAborted, -⟩ := children other before u was here
    rw [sameDone] at unfinished
    have differs : other ≠ id := by
      rintro rfl
      rw [present] at was
      cases was
      rw [done] at unfinished
      cases unfinished
    rcases tree.linked other before p was unfinished (changed.parent ▸ isParent) with
      ⟨v, parentHere, known, child⟩ | ⟨isLoose, aborted⟩
    · by_cases own : p = id
      · subst own
        rw [present] at parentHere
        cases parentHere
        rcases reached other child before was with isDone | ⟨busy, aborted⟩
        · rw [isDone] at unfinished
          cases unfinished
        · exact .inr ⟨(tree.busy other before was busy).1, sameAborted ▸ aborted⟩
      · obtain ⟨v', parentHere', -⟩ := frame.later p v parentHere
        refine .inl ⟨v', parentHere', ?_, stays parentHere child differs parentHere'⟩
        rw [(children p v v' parentHere parentHere').1]
        exact known.imp_right fun listed => (List.mem_cons.mp listed).resolve_left own
    · exact .inr ⟨isLoose, sameAborted ▸ aborted⟩
  · obtain ⟨before, was, changed⟩ := frame.earlier here
    obtain ⟨sameDone, sameBusy, -, -⟩ := children other before u was here
    rw [sameDone]
    exact tree.busy other before was (sameBusy ▸ busy)

/-! ## Aborts -/

theorem Finishes.of_frame (same : ∀ other t t', s.heap other = some t → s'.heap other = some t' →
    t'.done = t.done) : s.Finishes s' id := by
  intro other t t' was here unfinished isDone
  rw [same other t t' was here, unfinished] at isDone
  cases isDone

/-- What an abort of a child finishes is below the parent. -/
theorem Finishes.up {child : Nat} (finishes : s.Finishes s' child) (isParent : s.parentOf child = some id) :
    s.Finishes s' id := by
  intro other t t' was here unfinished isDone
  right
  rcases finishes other t t' was here unfinished isDone with rfl | above
  · exact .single isParent
  · exact .head isParent above

theorem Finishes.trans {u : TaskRunner} (first : s.Finishes s' id) (frame : s.Frame s')
    (second : s'.Finishes u id) : s.Finishes u id := by
  intro other t t' was here unfinished isDone
  obtain ⟨v, middle, -⟩ := frame.later other t was
  cases before : v.done with
  | true => exact first other t v was middle unfinished before
  | false =>
    rcases second other v t' middle here before isDone with same | above
    · exact .inl same
    · rw [frame.above] at above
      exact .inr above

/-- The children of a task are aborted one after another. -/
theorem abort_children {abort : TaskRunner → Nat → TaskRunner}
    (frames : ∀ (u : TaskRunner) (c : Nat), u.Frame (abort u c)) (children : List Nat)
    (aborts : ∀ u : TaskRunner, u.nextId = s.nextId → u.Tree E loose → ∀ c ∈ children,
      (u.heap c).isSome → u.Aborts (abort u c) E loose c) (tree : s.Tree E loose)
    (isParent : ∀ c ∈ children, s.parentOf c = some id) :
    (children.foldl abort s).Tree E loose ∧
    (∀ c ∈ children, (children.foldl abort s).Reached c) ∧
    s.Finishes (children.foldl abort s) id := by
  induction children generalizing s with
  | nil =>
    refine ⟨tree, by simp, .of_frame fun other t t' was here => ?_⟩
    rw [List.foldl_nil, was] at here
    cases here
    rfl
  | cons c rest ih =>
    obtain ⟨u, present, -⟩ := parentOf_eq_some.mp (isParent c List.mem_cons_self)
    have frame := frames s c
    obtain ⟨after, reached, finishes⟩ :=
      aborts s rfl tree c List.mem_cons_self (by rw [present]; rfl)
    obtain ⟨restTree, restReached, restFinishes⟩ := ih
      (fun u same tree c listed =>
        aborts u (same.trans frame.nextId) tree c (List.mem_cons_of_mem _ listed)) after
      (fun c listed => by
        rw [frame.parentOf]
        exact isParent c (List.mem_cons_of_mem _ listed))
    refine ⟨restTree, fun other listed => ?_,
      (finishes.up (isParent c List.mem_cons_self)).trans frame restFinishes⟩
    rcases List.mem_cons.mp listed with rfl | listed
    · exact reached.later (foldl_frame frames rest _)
    · exact restReached other listed

/-- `Stop`, for a task that is marked as done. -/
theorem stopWith_spec {abort : TaskRunner → Nat → TaskRunner}
    (frames : ∀ (u : TaskRunner) (c : Nat), u.Frame (abort u c))
    (aborts : ∀ u : TaskRunner, u.nextId = s.nextId → u.Tree (id :: E) loose → ∀ c, id < c →
      (u.heap c).isSome → u.Aborts (abort u c) (id :: E) loose c)
    (tree : s.Tree (id :: E) loose) (present : s.heap id = some t) (done : t.done = true) :
    s.Aborts (stopWith abort s id) E loose id := by
  have isParent : ∀ c ∈ t.offspring.children, s.parentOf c = some id := fun c listed => by
    obtain ⟨u, here, isParent, -⟩ := tree.kids id t c present listed
    exact parentOf_eq_some.mpr ⟨u, here, isParent⟩
  have frame := foldl_frame frames t.offspring.children s
  obtain ⟨after, reached, finishes⟩ := abort_children frames t.offspring.children
    (fun v same tree' c listed live => by
      obtain ⟨u, here, isParent, -⟩ := tree.kids id t c present listed
      exact aborts v same tree' c (tree.parentBelow c u id here isParent) live) tree isParent
  obtain ⟨t', here, later⟩ := frame.later id t present
  have leaves := onChildStopped_frame (t.offspring.children.foldl abort s) id
  have same : ∀ other u u', (t.offspring.children.foldl abort s).heap other = some u →
      ((t.offspring.children.foldl abort s).onChildStopped id).heap other = some u' →
      u'.done = u.done := by
    intro other u u' was now
    unfold TaskRunner.onChildStopped at now
    rw [here] at now
    dsimp only at now
    split at now
    · rw [show u' = u from Option.some.inj (now.symm.trans was)]
    · rw [heap_modify] at now
      split at now
      · next equal =>
        rw [← equal, was] at now
        cases now
        rfl
      · rw [show u' = u from Option.some.inj (now.symm.trans was)]
  unfold stopWith
  rw [present]
  refine ⟨after.onChildStopped here (later.done done) fun c listed =>
    reached c (later.children.mem listed), fun u now => ?_, finishes.trans frame (.of_frame same)⟩
  obtain ⟨u', was, changed⟩ := leaves.earlier now
  rw [here] at was
  cases was
  exact .inl (changed.done (later.done done))

/-- `Abort`, deep enough. -/
theorem abortTo_spec (depth : Nat) (tree : s.Tree E loose) (inside : s.nextId ≤ id + depth)
    (live : (s.heap id).isSome) : s.Aborts (abortTo depth s id) E loose id := by
  induction depth generalizing s id E with
  | zero =>
    obtain ⟨t, present⟩ := Option.isSome_iff_exists.mp live
    exact absurd (tree.below id t present) (Nat.not_lt.mpr inside)
  | succ depth ih =>
    obtain ⟨t, present⟩ := Option.isSome_iff_exists.mp live
    simp only [abortTo, present]
    split
    · next done =>
      refine ⟨tree, fun u here => ?_, .of_frame fun other u u' was here => ?_⟩
      · rw [present] at here
        cases here
        exact .inl done
      · rw [was] at here
        cases here
        rfl
    · next unfinished =>
      split
      · next busy =>
        refine ⟨tree.modify _ (fun _ => ⟨rfl, rfl, fun _ => rfl, rfl⟩) (tree.busy id)
          fun _ same => same, fun u here => ?_, .of_frame fun other u u' was here => ?_⟩
        · rw [heap_modify, if_pos rfl, present] at here
          cases here
          exact .inr ⟨busy, rfl⟩
        · rw [heap_modify] at here
          split at here
          · next equal =>
            rw [← equal, was] at here
            cases here
            rfl
          · rw [was] at here
            cases here
            rfl
      · next idle =>
        have marked := tree.mark mark_later (fun _ => rfl) (fun _ => rfl) present
          (Bool.eq_false_iff.mpr idle)
        have frame := modify_frame s id mark_later
        have stopped := stopWith_spec (abortTo_frame depth)
          (fun u same below c higher isLive => ih below
            (by
              rw [same, frame.nextId]
              omega) isLive) marked (by rw [heap_modify, if_pos rfl, present]; rfl) rfl
        refine ⟨stopped.tree, stopped.reached, ?_⟩
        intro other u u' was here isUnfinished isDone
        obtain ⟨v, middle, -⟩ := frame.later other u was
        by_cases same : other = id
        · exact .inl same
        · rw [heap_modify, if_neg same, was] at middle
          cases middle
          rcases stopped.finishes other u u' (by rw [heap_modify, if_neg same]; exact was) here
            isUnfinished isDone with equal | above
          · exact .inl equal
          · rw [frame.above] at above
            exact .inr above

end TaskRunner

end Libjingle.Tasks

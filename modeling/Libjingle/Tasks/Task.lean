import Mathlib.Algebra.Order.Ring.Nat
import Mathlib.Data.List.Basic
import Mathlib.Logic.Function.Basic

/-!
# Tasks and their runner

`Task`, `TaskParent` and `TaskRunner` of `talk/base`. A runner steps its tasks one at a time,
in a loop that is not reentered. The code of others runs in the `Process` body of the task that
is stepped, in `WakeTasks`, which may or may not run the tasks, and outside. A run of the system
is what this code calls, and how the loop goes on between two steps.

Tasks are named by the order of their creation. The children of a task are a set of pointers;
here they stand in the order of their creation.
-/

namespace Libjingle.Tasks

def stateBlocked : Int := -1
def stateInit : Int := 0
def stateStart : Int := 1
def stateDone : Int := 2
def stateError : Int := 3

/-- A second in units of 100 ns. -/
def kSecTo100ns : Int := 1000 * 10000

structure TaskParent where
  children : List Nat
  childError : Bool
  deriving DecidableEq, Repr

/-- A task; the parent is another task, or the runner. -/
structure Task where
  parent : Option Nat
  offspring : TaskParent
  state : Int
  blocked : Bool
  done : Bool
  aborted : Bool
  busy : Bool
  error : Bool
  startTime : Int
  timeoutTime : Int
  timeoutSeconds : Int
  timeoutSuspended : Bool
  deriving DecidableEq, Repr

def Task.new (parent : Option Nat) : Task :=
  { parent := parent
    offspring := ⟨[], false⟩
    state := stateInit
    blocked := false
    done := false
    aborted := false
    busy := false
    error := false
    startTime := 0
    timeoutTime := 0
    timeoutSeconds := 0
    timeoutSuspended := false }

/-- The step of a task whose `Process` runs, with the calls of `PollTasks` in it, each the task
that it woke. -/
structure Stepping where
  task : Nat
  polls : List Nat
  deriving DecidableEq, Repr

/-- A call of `InternalRunTasks`: how far it is in its loops. -/
structure Running where
  index : Nat
  didRun : Bool
  step : Option Stepping
  deriving DecidableEq, Repr

structure TaskRunner where
  offspring : TaskParent
  heap : Nat → Option Task
  nextId : Nat
  tasks : List Nat
  nextTimeoutTask : Option Nat
  run : Option Running
  polls : List Nat
  currentTime : Int
  /-- A deleted task was used. -/
  broken : Bool
  /-- How often a task was deleted. -/
  deleted : Nat → Nat

/-- What the code of others calls, and how that of the runner goes on. `Abort` comes without
`nowake`: whether the tasks are run then is another input. -/
inductive TaskInput where
  | create (parent : Option Nat)
  | start (id : Nat)
  | wake (id : Nat)
  | error (id : Nat)
  | abort (id : Nat)
  | setTimeoutSeconds (id : Nat) (seconds : Int)
  | clearTimeout (id : Nat)
  | suspendTimeout (id : Nat)
  | resumeTimeout (id : Nat)
  | runTasks
  | pollTasks
  /-- `WakeTasks` returns to `PollTasks`. -/
  | wakeTasksReturned
  /-- `Process` returns to `Step`. -/
  | processReturned (newState : Int)
  /-- The loop of `InternalRunTasks` goes on. -/
  | advance
  | elapse (time : Nat)
  deriving Repr

namespace Task

def timeoutAllowed (t : Task) : Bool :=
  t.state ≠ stateInit && t.state ≠ stateDone && t.state ≠ stateError

def timedOut (t : Task) (currentTime : Int) : Bool :=
  t.timeoutSeconds ≠ 0 && t.timeoutTime ≠ 0 && t.timeoutTime ≤ currentTime

/-- The time that `ResetTimeout` sets. -/
def deadline (t : Task) (currentTime : Int) : Int :=
  if t.timeoutSeconds ≠ 0 && t.timeoutAllowed && !t.timeoutSuspended then
    currentTime + t.timeoutSeconds * kSecTo100ns
  else 0

end Task

def TaskParent.add (p : TaskParent) (child : Nat) : TaskParent :=
  { p with children := p.children ++ [child] }

/-- `OnChildStopped`. -/
def TaskParent.childStopped (p : TaskParent) (child : Nat) (hasError : Bool) : TaskParent :=
  { children := p.children.erase child, childError := p.childError || hasError }

namespace TaskRunner

def new : TaskRunner where
  offspring := ⟨[], false⟩
  heap := fun _ => none
  nextId := 0
  tasks := []
  nextTimeoutTask := none
  run := none
  polls := []
  currentTime := 0
  broken := false
  deleted := fun _ => 0

def modify (s : TaskRunner) (id : Nat) (f : Task → Task) : TaskRunner :=
  { s with heap := Function.update s.heap id ((s.heap id).map f) }

/-! ## Timeouts -/

/-- The time of the task that is next to time out. -/
def nextTaskTimeout (s : TaskRunner) : Int :=
  match s.nextTimeoutTask.bind s.heap with
  | some t => t.timeoutTime
  | none => 0

/-- The body of the loop of `RecalcNextTimeout`: the time and the task found so far. -/
def recalcStep (s : TaskRunner) (excludeTask : Option Nat) (best : Int × Option Nat) (id : Nat) :
    Int × Option Nat :=
  match s.heap id with
  | none => best
  | some t =>
      if !t.done && 0 < t.timeoutTime && excludeTask ≠ some id &&
          (best.1 = 0 || t.timeoutTime ≤ best.1) then
        (t.timeoutTime, some id)
      else best

def recalcNextTimeout (s : TaskRunner) (excludeTask : Option Nat) : TaskRunner :=
  { s with nextTimeoutTask := (s.tasks.foldl (s.recalcStep excludeTask) (0, none)).2 }

def updateTaskTimeout (s : TaskRunner) (id : Nat) : TaskRunner :=
  match s.heap id with
  | none => s
  | some t =>
      if t.timeoutTime ≠ 0 then
        if s.nextTimeoutTask = none || t.timeoutTime ≤ s.nextTaskTimeout then
          { s with nextTimeoutTask := some id }
        else s
      else if s.nextTimeoutTask = some id then s.recalcNextTimeout (some id)
      else s

def resetTimeout (s : TaskRunner) (id : Nat) : TaskRunner :=
  (s.modify id fun t => { t with timeoutTime := t.deadline s.currentTime }).updateTaskTimeout id

def clearTimeout (s : TaskRunner) (id : Nat) : TaskRunner :=
  (s.modify id fun t => { t with timeoutTime := 0 }).updateTaskTimeout id

def setTimeoutSeconds (s : TaskRunner) (id : Nat) (seconds : Int) : TaskRunner :=
  (s.modify id fun t => { t with timeoutSeconds := seconds }).resetTimeout id

/-- `SuspendTimeout` and `ResumeTimeout`. -/
def setSuspended (s : TaskRunner) (id : Nat) (suspended : Bool) : TaskRunner :=
  match s.heap id with
  | none => s
  | some t =>
      if t.timeoutSuspended = suspended then s
      else (s.modify id fun t => { t with timeoutSuspended := suspended }).resetTimeout id

/-! ## Stopping -/

def onChildStopped (s : TaskRunner) (id : Nat) : TaskRunner :=
  match s.heap id with
  | none => s
  | some t =>
      let hasError := t.state = stateError
      match t.parent with
      | none => { s with offspring := s.offspring.childStopped id hasError }
      | some p =>
          s.modify p fun u => { u with offspring := u.offspring.childStopped id hasError }

/-- `Stop`, which aborts the children and takes the task from its parent. -/
def stopWith (abort : TaskRunner → Nat → TaskRunner) (s : TaskRunner) (id : Nat) : TaskRunner :=
  match s.heap id with
  | none => s
  | some t => (t.offspring.children.foldl abort s).onChildStopped id

/-- `Abort`, down to a depth. -/
def abortTo : Nat → TaskRunner → Nat → TaskRunner
  | 0, s, _ => s
  | depth + 1, s, id =>
      match s.heap id with
      | none => s
      | some t =>
          if t.done then s
          else if t.busy then s.modify id fun t => { t with aborted := true }
          else
            stopWith (abortTo depth)
              (s.modify id fun t =>
                { t with aborted := true, done := true, blocked := true, error := true }) id

/-- No task is deeper than there are tasks. -/
def abort (s : TaskRunner) (id : Nat) : TaskRunner :=
  abortTo s.nextId s id

def stop (s : TaskRunner) (id : Nat) : TaskRunner :=
  stopWith (abortTo s.nextId) s id

/-! ## Calls -/

def create (s : TaskRunner) (parent : Option Nat) : TaskRunner :=
  let id := s.nextId
  let add (s : TaskRunner) : TaskRunner :=
    { s with heap := Function.update s.heap id (some (.new parent)), nextId := id + 1 }
  match parent with
  | none => add { s with offspring := s.offspring.add id }
  | some p =>
      match s.heap p with
      | none => s
      | some _ => add (s.modify p fun t => { t with offspring := t.offspring.add id })

def start (s : TaskRunner) (id : Nat) : TaskRunner :=
  match s.heap id with
  | none => s
  | some t =>
      if t.state ≠ stateInit then s
      else
        let s := s.modify id fun t => { t with startTime := s.currentTime }
        -- `StartTask`.
        { s with tasks := s.tasks ++ [id] }.updateTaskTimeout id

def wake (s : TaskRunner) (id : Nat) : TaskRunner :=
  match s.heap id with
  | none => s
  | some t => if t.done then s else s.modify id fun t => { t with blocked := false }

def error (s : TaskRunner) (id : Nat) : TaskRunner :=
  match s.heap id with
  | none => s
  | some t =>
      if t.error || t.done then s else (s.modify id fun t => { t with error := true }).wake id

/-! ## The loop -/

/-- `Step`, up to `Process` if that is called. -/
def step (s : TaskRunner) (id : Nat) (t : Task) : TaskRunner × Bool :=
  if t.done then (s.modify id fun t => { t with blocked := true }, false)
  else if t.error then
    ((s.modify id fun t => { t with done := true, state := stateError, blocked := true }).stop id,
      false)
  else (s.modify id fun t => { t with busy := true }, true)

/-- The rest of `Step`, when `Process` has returned. -/
def stepReturned (s : TaskRunner) (id : Nat) (newState : Int) : TaskRunner :=
  let s := s.modify id fun t => { t with busy := false }
  match s.heap id with
  | none => { s with broken := true }
  | some t =>
      if t.aborted then s.abort id
      else
        let s :=
          if newState = stateBlocked then s.modify id fun t => { t with blocked := true }
          else (s.modify id fun t => { t with state := newState, blocked := false }).resetTimeout id
        if newState = stateDone ∨ newState = stateError then
          let s := s.modify id fun t =>
            { t with done := true, error := t.error || newState = stateError }
          (s.stop id).modify id fun t => { t with blocked := true }
        else s

def deleteTask (s : TaskRunner) (id : Nat) : TaskRunner :=
  { s with
    heap := Function.update s.heap id none
    deleted := Function.update s.deleted id (s.deleted id + 1)
    nextTimeoutTask := if s.nextTimeoutTask = some id then none else s.nextTimeoutTask }

/-- The body of the loop that deletes the tasks that are done. -/
def deleteIfDone (s : TaskRunner) (id : Nat) : TaskRunner :=
  match s.heap id with
  | none => { s with broken := true }
  | some t => if t.done then s.deleteTask id else s

/-- The end of `InternalRunTasks`, when all tasks are blocked. -/
def endRun (s : TaskRunner) : TaskRunner :=
  let left := s.tasks.foldl deleteIfDone s
  let left := { left with tasks := s.tasks.filter fun id => (left.heap id).isSome }
  let left :=
    if s.nextTimeoutTask.isSome && left.nextTimeoutTask.isNone then left.recalcNextTimeout none
    else left
  { left with run := none }

def setRun (s : TaskRunner) (run : Running) : TaskRunner :=
  { s with run := some run }

/-- One turn of the loop. -/
def advance (s : TaskRunner) (index : Nat) (didRun : Bool) : TaskRunner :=
  match s.tasks[index]? with
  | some id =>
      match s.heap id with
      | none => { s with broken := true }
      | some t =>
          if t.blocked then s.setRun ⟨index + 1, didRun, none⟩
          else
            match s.step id t with
            | (s, true) => s.setRun ⟨index, true, some ⟨id, []⟩⟩
            | (s, false) => s.setRun ⟨index, true, none⟩
  | none => if didRun then s.setRun ⟨0, false, none⟩ else s.endRun

def runTasks (s : TaskRunner) : TaskRunner :=
  match s.run with
  | none => s.setRun ⟨0, false, none⟩
  | some _ => s

/-! ## Polling -/

/-- The calls of `PollTasks` where the code of others runs now. -/
def currentPolls (s : TaskRunner) : List Nat :=
  match s.run with
  | some ⟨_, _, some stepping⟩ => stepping.polls
  | _ => s.polls

def setPolls (s : TaskRunner) (polls : List Nat) : TaskRunner :=
  match s.run with
  | some ⟨index, didRun, some stepping⟩ =>
      s.setRun ⟨index, didRun, some { stepping with polls := polls }⟩
  | _ => { s with polls := polls }

/-- The loop of `PollTasks`, up to its call of `WakeTasks`. -/
def pollTasks (s : TaskRunner) (oldTimeoutTask : Option Nat) : TaskRunner :=
  match s.nextTimeoutTask with
  | none => s
  | some id =>
      match s.heap id with
      | none => { s with broken := true }
      | some t =>
          if oldTimeoutTask ≠ some id && t.timedOut s.currentTime then
            (s.wake id).setPolls (id :: s.currentPolls)
          else s

def wakeTasksReturned (s : TaskRunner) : TaskRunner :=
  match s.currentPolls with
  | [] => s
  | id :: polls => (s.setPolls polls).pollTasks (some id)

/-! ## Runs -/

/-- What the code of others calls. -/
def call (s : TaskRunner) : TaskInput → TaskRunner
  | .create parent => s.create parent
  | .start id => s.start id
  | .wake id => s.wake id
  | .error id => s.error id
  | .abort id => s.abort id
  | .setTimeoutSeconds id seconds => s.setTimeoutSeconds id seconds
  | .clearTimeout id => s.clearTimeout id
  | .suspendTimeout id => s.setSuspended id true
  | .resumeTimeout id => s.setSuspended id false
  | .runTasks => s.runTasks
  | .pollTasks => s.pollTasks none
  | .wakeTasksReturned => s.wakeTasksReturned
  | .elapse time => { s with currentTime := s.currentTime + time }
  | .processReturned _ | .advance => s

/-- In the loop, where no task is stepped, only the runner goes on. `Process` returns when
the calls in it have. -/
def input (s : TaskRunner) (input : TaskInput) : TaskRunner :=
  match s.run, input with
  | some ⟨index, didRun, none⟩, .advance => s.advance index didRun
  | some ⟨_, _, none⟩, _ => s
  | some ⟨index, didRun, some ⟨id, []⟩⟩, .processReturned newState =>
      (s.setRun ⟨index, didRun, none⟩).stepReturned id newState
  | _, input => s.call input

end TaskRunner

end Libjingle.Tasks

import Mathlib.Data.List.Sort
import Mastiff.Lib.Threads

/-!
# Tasks and the thread pool

`Task` and `ThreadPool` (`modules/slam/cartographer_230401/cartographer/common/task.cc`,
`thread_pool.cc`). A task is given the tasks it depends on, then it is scheduled, and the threads of
the pool execute it when all of these are completed. Each task has a mutex, and so has the pool.
What is done under the mutex of one task is a step, up to the end of `Execute`, which tells one
dependent task after the other while it holds its own.

The users keep to what the header asks of them. A task is not changed after it is scheduled, its
dependencies have been scheduled, and none is added twice. The work items may use the pool, too.
The work items themselves are left out, and with them the `CHECK` of `SetWorkItem`. So are the one
on the number of threads in the constructor, the ones on `thread_pool_to_notify_`, which is the one
pool there is, and `nice`.

Here are the pool, what its steps tell (`TaskLaw`), what a task is like in each phase (`Sound`), and
that from there no step ends in a `CHECK` that fails (`stepped`).
-/

set_option linter.unusedSectionVars false

namespace Mastiff.Cartographer

open Machine Threads

variable {τ : Type}

/-! ## Tasks -/

/-- The `State` of a task. -/
inductive TaskState
  | new
  | dispatched
  | dependenciesCompleted
  | running
  | completed
  deriving DecidableEq

/-- Who has a task : the users, a call of `AddDependency` or of `Schedule`, the map of the tasks
that are not ready, the queue, or a thread of the pool. At the end it tells the dependent tasks that
are left, and then nobody has it any more. -/
inductive TaskPhase
  | inHand
  | adding (dependency : ℕ)
  | submitted
  | waiting
  | queued
  | taken
  | executing
  | completing (rest : List ℕ)
  | finished
  deriving DecidableEq

/-- The members of `Task`, and whether its mutex is held by the loop at the end of `Execute`. No
code reads the others : its `phase`, on which it depends what users may do, the `dependencies` they
added, and those among them it `waits` for. -/
structure Task where
  state : TaskState := .new
  uncompletedDependencies : ℕ := 0
  dependentTasks : List ℕ := []
  locked : Bool := false
  phase : TaskPhase := .inHand
  dependencies : List ℕ := []
  waits : List ℕ := []

/-- The tasks, which are numbered, and the members of `ThreadPool`. -/
structure ThreadPool where
  tasks : ℕ → Task := fun _ => {}
  tasksNotReady : List ℕ := []
  taskQueue : List ℕ := []
  running : Bool := true

namespace ThreadPool

/-- A task is changed. -/
def set (c : ThreadPool) (t : ℕ) (k : Task) : ThreadPool :=
  { c with tasks := Function.update c.tasks t k }

/-- Another has the task. -/
def setPhase (c : ThreadPool) (t : ℕ) (phase : TaskPhase) : ThreadPool :=
  c.set t { c.tasks t with phase := phase }

/-- A dependency of a task is no longer waited for. -/
def told (c : ThreadPool) (t dependency : ℕ) : ThreadPool :=
  c.set t { c.tasks t with waits := (c.tasks t).waits.erase dependency }

/-- `NotifyDependenciesCompleted`. Nothing is returned where a `CHECK` fails. -/
def notifyDependenciesCompleted (c : ThreadPool) (t : ℕ) : Option ThreadPool :=
  if t ∈ c.tasksNotReady then
    let c := c.setPhase t .queued
    some { c with taskQueue := c.taskQueue ++ [t], tasksNotReady := c.tasksNotReady.erase t }
  else none

/-- `SetThreadPool` of a task. -/
def setThreadPool (c : ThreadPool) (t : ℕ) : Option ThreadPool :=
  let task := c.tasks t
  if task.state = .new then
    if task.uncompletedDependencies = 0 then
      (c.set t { task with state := .dependenciesCompleted }).notifyDependenciesCompleted t
    else some (c.set t { task with state := .dispatched, phase := .waiting })
  else none

/-- `OnDependenyCompleted` of a task. -/
def onDependenyCompleted (c : ThreadPool) (t : ℕ) : Option ThreadPool :=
  let task := c.tasks t
  if task.state = .new ∨ task.state = .dispatched then
    let uncompleted := task.uncompletedDependencies - 1
    if uncompleted = 0 ∧ task.state = .dispatched then
      (c.set t { task with
        uncompletedDependencies := uncompleted
        state := .dependenciesCompleted }).notifyDependenciesCompleted t
    else some (c.set t { task with uncompletedDependencies := uncompleted })
  else none

/-- `AddDependentTask(t)` of the task `d`. A `std::set` of pointers is in the order of the
addresses. -/
def addDependentTask (address : ℕ → ℕ) (c : ThreadPool) (d t : ℕ) : Option ThreadPool :=
  let task := c.tasks d
  if task.state = .completed then (c.told t d).onDependenyCompleted t
  else if t ∈ task.dependentTasks then none
  else
    let dependentTasks := task.dependentTasks.orderedInsert (fun a b => address a ≤ address b) t
    some (c.set d { task with dependentTasks := dependentTasks })

end ThreadPool

/-! ## Threads -/

/-- The call of `AddDependency` or of `Schedule` a thread is in, before its second step. -/
inductive TaskCall
  | none
  | addDependentTask (t d : ℕ)
  | setThreadPool (t : ℕ)

/-- Where a thread is in `DoWork` and `Execute`. A thread of the users, too, is at `wait`. -/
inductive PoolWork
  | wait
  | getState (t : ℕ)
  | execute (t : ℕ)
  | run (t : ℕ)
  | notify (d : ℕ) (rest : List ℕ)
  | returned

/-- Where a thread is. The work item of a task can be in a call. -/
structure WorkerPlace where
  work : PoolWork := .wait
  call : TaskCall := .none

/-- A thread that is in no call, nor in the pool's own code, calls `AddDependency`, where the weak
pointer can have expired, or `Schedule`, or the destructor, or a thread makes its next step. -/
inductive TaskTurn
  | addDependency (t d : ℕ) (expired : Bool)
  | schedule (t : ℕ)
  | shutDown
  | go

/-- What a step tells. -/
inductive TaskEvent
  | quiet
  | depends (t d : ℕ)
  | scheduled (t : ℕ)
  | began (t : ℕ)
  | ended (t : ℕ)
  | failed
  deriving DecidableEq

/-- `Schedule` has returned. -/
def TaskPhase.Given : TaskPhase → Prop
  | .inHand | .adding _ | .submitted => False
  | _ => True

instance : DecidablePred TaskPhase.Given := fun p => by
  cases p <;> unfold TaskPhase.Given <;> infer_instance

namespace WorkerPlace

/-- The thread can call the pool. -/
def Calls (p : WorkerPlace) : Prop :=
  match p.call, p.work with
  | .none, .wait | .none, .run _ => True
  | _, _ => False

instance : DecidablePred Calls := fun ⟨work, call⟩ => by
  cases call <;> cases work <;> unfold Calls <;> infer_instance

/-- A thread is outside, or waits for the queue, or has returned. -/
def AtRest (p : WorkerPlace) : Prop :=
  p.call = .none ∧ (p.work = .wait ∨ p.work = .returned)

/-- The task whose mutex the next step takes. -/
def locks (p : WorkerPlace) : Option ℕ :=
  match p.call, p.work with
  | .addDependentTask _ d, _ => some d
  | .setThreadPool t, _ => some t
  | .none, .getState t | .none, .execute t | .none, .run t | .none, .notify _ (t :: _) => some t
  | .none, .wait | .none, .notify _ [] | .none, .returned => none

end WorkerPlace

namespace ThreadPool

/-- The second step of `AddDependency` and `Schedule`. -/
def callStep (address : ℕ → ℕ) (c : ThreadPool) : TaskCall → Option ThreadPool
  | .none => some c
  | .addDependentTask t d => (c.addDependentTask address d t).map fun c => c.setPhase t .inHand
  | .setThreadPool t => c.setThreadPool t

/-- The next step of `DoWork` and `Execute`. -/
def workStep (c : ThreadPool) : PoolWork → Option ((ThreadPool × PoolWork) × TaskEvent)
  | .wait =>
    match c.taskQueue with
    | t :: rest => some (({ c with taskQueue := rest }.setPhase t .taken, .getState t), .quiet)
    | [] => some ((c, if c.running then .wait else .returned), .quiet)
  | .getState t =>
    if (c.tasks t).state = .dependenciesCompleted then some ((c, .execute t), .quiet) else none
  | .execute t =>
    let task := c.tasks t
    if task.state = .dependenciesCompleted then
      some ((c.set t { task with state := .running, phase := .executing }, .run t), .began t)
    else none
  | .run t =>
    let task := c.tasks t
    let phase := .completing task.dependentTasks
    some ((c.set t { task with state := .completed, locked := true, phase := phase },
      .notify t task.dependentTasks), .ended t)
  | .notify d (t :: rest) =>
    ((c.told t d).onDependenyCompleted t).map fun c =>
      ((c.setPhase d (.completing rest), .notify d rest), .quiet)
  | .notify d [] =>
    some ((c.set d { c.tasks d with locked := false, phase := .finished }, .wait), .quiet)
  | .returned => some ((c, .returned), .quiet)

/-- The next step of a thread, which waits while another holds the mutex it takes. -/
def goOn (address : ℕ → ℕ) (c : ThreadPool) (p : WorkerPlace) :
    (ThreadPool × WorkerPlace) × TaskEvent :=
  if p.locks.any fun t => (c.tasks t).locked then ((c, p), .quiet)
  else
    match p.call with
    | .none =>
      match c.workStep p.work with
      | some r => ((r.1.1, { p with work := r.1.2 }), r.2)
      | none => ((c, p), .failed)
    | call =>
      match c.callStep address call with
      | some c => ((c, { p with call := .none }), .quiet)
      | none => ((c, p), .failed)

/-- A turn of a thread. -/
def act (address : ℕ → ℕ) (_ : τ) (i : TaskTurn) (c : ThreadPool) (p : WorkerPlace) :
    (ThreadPool × WorkerPlace) × TaskEvent :=
  match i with
  | .addDependency t d expired =>
    let task := c.tasks t
    if p.Calls ∧ task.phase = .inHand ∧ (c.tasks d).phase.Given ∧ d ∉ task.dependencies ∧
        (expired = true → (c.tasks d).phase = .finished) then
      if task.state ≠ .new then ((c, p), .failed)
      else if expired then
        ((c.set t { task with dependencies := d :: task.dependencies }, p), .depends t d)
      else
        ((c.set t { task with
          uncompletedDependencies := task.uncompletedDependencies + 1
          phase := .adding d
          dependencies := d :: task.dependencies
          waits := d :: task.waits }, { p with call := .addDependentTask t d }), .depends t d)
    else ((c, p), .quiet)
  | .schedule t =>
    if p.Calls ∧ (c.tasks t).phase = .inHand then
      if t ∈ c.tasksNotReady then ((c, p), .failed)
      else
        (({ c with tasksNotReady := t :: c.tasksNotReady }.setPhase t .submitted,
          { p with call := .setThreadPool t }), .scheduled t)
    else ((c, p), .quiet)
  | .shutDown =>
    if p.Calls ∧ c.running = true then (({ c with running := false }, p), .quiet)
    else ((c, p), .quiet)
  | .go => c.goOn address p

/-- A new pool, with all threads at rest. -/
def start : State τ ThreadPool WorkerPlace :=
  ⟨{}, fun _ => {}⟩

/-! ## What a task is like -/

end ThreadPool

namespace TaskPhase

/-- The state of a task that somebody has. -/
def state : TaskPhase → TaskState
  | .inHand | .adding _ | .submitted => .new
  | .waiting => .dispatched
  | .queued | .taken => .dependenciesCompleted
  | .executing => .running
  | .completing _ | .finished => .completed

/-- Whether the mutex of the task is held by the loop. -/
def locked : TaskPhase → Bool
  | .completing _ => true
  | _ => false

/-- The task can wait for others. -/
def Early : TaskPhase → Prop
  | .inHand | .adding _ | .submitted | .waiting => True
  | _ => False

theorem Early.cases {p : TaskPhase} (h : p.Early) :
    p = .waiting ∨ p ≠ .waiting ∧ p.state = .new := by
  cases p with
  | waiting => exact .inl rfl
  | inHand | adding | submitted => exact .inr ⟨nofun, rfl⟩
  | queued | taken | executing | completing | finished => exact h.elim

/-- A thread is at work with the task. -/
def Active : TaskPhase → Prop
  | .inHand | .waiting | .queued | .finished => False
  | _ => True

end TaskPhase

/-- The dependent tasks that have not been told. -/
def Task.pending (k : Task) : List ℕ :=
  match k.phase with
  | .completing rest => rest
  | .finished => []
  | _ => k.dependentTasks

theorem Task.pending_of_ne {k : Task} (h : k.phase.state ≠ .completed) :
    k.pending = k.dependentTasks := by
  rw [pending]
  split
  case h_1 rest hphase => exact absurd (hphase ▸ rfl) h
  case h_2 hphase => exact absurd (hphase ▸ rfl) h
  case h_3 => rfl

/-- The members of a task agree. -/
structure Task.Sound (k : Task) : Prop where
  state : k.state = k.phase.state
  locked : k.locked = k.phase.locked
  count : k.uncompletedDependencies = k.waits.length
  waits_nodup : k.waits.Nodup
  dependents_nodup : k.dependentTasks.Nodup
  waits : ∀ d ∈ k.waits, d ∈ k.dependencies
  pending : k.pending.Sublist k.dependentTasks
  early : k.waits ≠ [] → k.phase.Early

/-! ## What is told -/

/-- What a step can tell after others. No `CHECK` fails, and a task begins once, when it has been
scheduled and all tasks it depends on have ended. -/
def TaskLaw (past : List TaskEvent) : TaskEvent → Prop
  | .quiet => True
  | .depends t d => .scheduled t ∉ past ∧ .scheduled d ∈ past
  | .scheduled t => .scheduled t ∉ past
  | .began t => .scheduled t ∈ past ∧ .began t ∉ past ∧ ∀ d, .depends t d ∈ past → .ended d ∈ past
  | .ended t => .began t ∈ past ∧ .ended t ∉ past
  | .failed => False

namespace ThreadPool

/-- A task waits for a dependency exactly if that will tell it, and not for one that is
completed. -/
structure Paired (c : ThreadPool) : Prop where
  given : ∀ t, ∀ d ∈ (c.tasks t).dependencies, (c.tasks d).phase.Given
  linked : ∀ d, ∀ t ∈ (c.tasks d).dependentTasks,
    d ∈ (c.tasks t).dependencies ∧ (c.tasks t).phase ≠ .adding d
  waits : ∀ t d, d ∈ (c.tasks t).waits ↔
    (c.tasks t).phase = .adding d ∨ t ∈ (c.tasks d).pending
  done : ∀ t, ∀ d ∈ (c.tasks t).dependencies, d ∉ (c.tasks t).waits →
    (c.tasks d).phase.state = .completed

/-- The map and the queue have the tasks that are theirs. -/
structure Listed (c : ThreadPool) : Prop where
  notReady : ∀ t, t ∈ c.tasksNotReady ↔
    (c.tasks t).phase = .submitted ∨ (c.tasks t).phase = .waiting
  notReady_nodup : c.tasksNotReady.Nodup
  queued : ∀ t, t ∈ c.taskQueue ↔ (c.tasks t).phase = .queued
  queue_nodup : c.taskQueue.Nodup

/-- The invariant of the tasks. -/
structure Sound (c : ThreadPool) : Prop where
  task : ∀ t, (c.tasks t).Sound
  paired : c.Paired
  listed : c.Listed
  settled : ∀ t, (c.tasks t).phase = .waiting → (c.tasks t).waits ≠ []

end ThreadPool

/-! ## What a thread has -/

/-- The task a call is about, and its phase. -/
def TaskCall.job : TaskCall → Option (ℕ × TaskPhase)
  | .none => Option.none
  | .addDependentTask t d => some (t, .adding d)
  | .setThreadPool t => some (t, .submitted)

/-- The task a thread of the pool has, and its phase. -/
def PoolWork.job : PoolWork → Option (ℕ × TaskPhase)
  | .wait | .returned => none
  | .getState t | .execute t => some (t, .taken)
  | .run t => some (t, .executing)
  | .notify d rest => some (d, .completing rest)

namespace WorkerPlace

/-- The tasks a thread is at work with, and their phases. -/
def jobs (p : WorkerPlace) : List (ℕ × TaskPhase) :=
  p.call.job.toList ++ p.work.job.toList

theorem AtRest.jobs {p : WorkerPlace} (h : p.AtRest) : p.jobs = [] := by
  obtain ⟨hcall, hwork | hwork⟩ := h
  · rw [WorkerPlace.jobs, hcall, hwork]
    rfl
  · rw [WorkerPlace.jobs, hcall, hwork]
    rfl

/-- Two threads are at work with different tasks. -/
def Apart (p q : WorkerPlace) : Prop :=
  ∀ x ∈ p.jobs, ∀ y ∈ q.jobs, x.1 ≠ y.1

end WorkerPlace

namespace ThreadPool

/-- The tasks a thread is at work with are in the phases it takes them to be in. -/
def Knows (c : ThreadPool) (p : WorkerPlace) : Prop :=
  ∀ x ∈ p.jobs, (c.tasks x.1).phase = x.2

/-! ## What a step changes -/

/-- A task has been told of a dependency. -/
def unwait (c : ThreadPool) (t d : ℕ) : ThreadPool :=
  c.set t { c.tasks t with
    uncompletedDependencies := (c.tasks t).uncompletedDependencies - 1
    waits := (c.tasks t).waits.erase d }

/-- A task with no dependencies left goes to the queue. -/
def enqueue (c : ThreadPool) (t : ℕ) : ThreadPool :=
  { c.set t { c.tasks t with state := .dependenciesCompleted, phase := .queued } with
    taskQueue := c.taskQueue ++ [t]
    tasksNotReady := c.tasksNotReady.erase t }

variable {address : ℕ → ℕ} {c c' : ThreadPool} {p q : WorkerPlace} {t u d d' : ℕ} {k : Task}

@[simp] theorem set_tasks_self : (c.set t k).tasks t = k :=
  Function.update_self ..

theorem set_tasks_of_ne (h : u ≠ t) : (c.set t k).tasks u = c.tasks u :=
  Function.update_of_ne h ..

theorem set_tasks (c : ThreadPool) (t : ℕ) (k : Task) (u : ℕ) :
    (c.set t k).tasks u = if u = t then k else c.tasks u :=
  Function.update_apply ..

@[simp] theorem set_set (c : ThreadPool) (t : ℕ) (k l : Task) :
    (c.set t k).set t l = c.set t l := by
  rw [set, set, set, Function.update_idem]

theorem setPhase_enqueue (h : t ≠ d) (phase : TaskPhase) :
    (c.setPhase d phase).enqueue t = (c.enqueue t).setPhase d phase := by
  simp [enqueue, setPhase, set, Function.update_of_ne h, Function.update_of_ne h.symm,
    Function.update_comm h]

/-- What a step of a thread does. -/
inductive Stepped (address : ℕ → ℕ) (c : ThreadPool) :
    WorkerPlace → (ThreadPool × WorkerPlace) × TaskEvent → Prop
  | stay (p : WorkerPlace) : Stepped address c p ((c, p), .quiet)
  | shutDown (p : WorkerPlace) : Stepped address c p (({ c with running := false }, p), .quiet)
  | expire {p : WorkerPlace} {t d : ℕ} (hhand : (c.tasks t).phase = .inHand)
      (hfinished : (c.tasks d).phase = .finished) (hnew : d ∉ (c.tasks t).dependencies) :
      Stepped address c p
        ((c.set t { c.tasks t with dependencies := d :: (c.tasks t).dependencies }, p),
          .depends t d)
  | depend {work : PoolWork} {t d : ℕ} (hhand : (c.tasks t).phase = .inHand)
      (hgiven : (c.tasks d).phase.Given) (hnew : d ∉ (c.tasks t).dependencies) :
      Stepped address c ⟨work, .none⟩
        ((c.set t { c.tasks t with
          uncompletedDependencies := (c.tasks t).uncompletedDependencies + 1
          phase := .adding d
          dependencies := d :: (c.tasks t).dependencies
          waits := d :: (c.tasks t).waits }, ⟨work, .addDependentTask t d⟩), .depends t d)
  | link {work : PoolWork} {t d : ℕ} (hdone : (c.tasks d).phase.state ≠ .completed) :
      Stepped address c ⟨work, .addDependentTask t d⟩
        (((c.set d { c.tasks d with
          dependentTasks := (c.tasks d).dependentTasks.orderedInsert
            (fun a b => address a ≤ address b) t }).setPhase t .inHand, ⟨work, .none⟩), .quiet)
  | drop {work : PoolWork} {t d : ℕ} (hdone : (c.tasks d).phase.state = .completed) :
      Stepped address c ⟨work, .addDependentTask t d⟩
        (((c.unwait t d).setPhase t .inHand, ⟨work, .none⟩), .quiet)
  | submit {work : PoolWork} {t : ℕ} (hhand : (c.tasks t).phase = .inHand) :
      Stepped address c ⟨work, .none⟩
        (({ c with tasksNotReady := t :: c.tasksNotReady }.setPhase t .submitted,
          ⟨work, .setThreadPool t⟩), .scheduled t)
  | dispatch {work : PoolWork} {t : ℕ} (hwaits : (c.tasks t).waits ≠ []) :
      Stepped address c ⟨work, .setThreadPool t⟩
        ((c.set t { c.tasks t with state := .dispatched, phase := .waiting }, ⟨work, .none⟩),
          .quiet)
  | ready {work : PoolWork} {t : ℕ} (hwaits : (c.tasks t).waits = []) :
      Stepped address c ⟨work, .setThreadPool t⟩ ((c.enqueue t, ⟨work, .none⟩), .quiet)
  | take {t : ℕ} {rest : List ℕ} (hqueue : c.taskQueue = t :: rest) :
      Stepped address c ⟨.wait, .none⟩
        (({ c with taskQueue := rest }.setPhase t .taken, ⟨.getState t, .none⟩), .quiet)
  | leave (hqueue : c.taskQueue = []) (hrunning : c.running = false) :
      Stepped address c ⟨.wait, .none⟩ ((c, ⟨.returned, .none⟩), .quiet)
  | getState (t : ℕ) :
      Stepped address c ⟨.getState t, .none⟩ ((c, ⟨.execute t, .none⟩), .quiet)
  | begin (t : ℕ) :
      Stepped address c ⟨.execute t, .none⟩
        ((c.set t { c.tasks t with state := .running, phase := .executing }, ⟨.run t, .none⟩),
          .began t)
  | finish (t : ℕ) :
      Stepped address c ⟨.run t, .none⟩
        ((c.set t { c.tasks t with
          state := .completed
          locked := true
          phase := .completing (c.tasks t).dependentTasks },
          ⟨.notify t (c.tasks t).dependentTasks, .none⟩), .ended t)
  | tell {d t : ℕ} {rest : List ℕ}
      (hwaits : ¬((c.tasks t).phase = .waiting ∧ (c.tasks t).waits.erase d = [])) :
      Stepped address c ⟨.notify d (t :: rest), .none⟩
        (((c.unwait t d).setPhase d (.completing rest), ⟨.notify d rest, .none⟩), .quiet)
  | tellReady {d t : ℕ} {rest : List ℕ}
      (hwaits : (c.tasks t).phase = .waiting ∧ (c.tasks t).waits.erase d = []) :
      Stepped address c ⟨.notify d (t :: rest), .none⟩
        ((((c.unwait t d).setPhase d (.completing rest)).enqueue t, ⟨.notify d rest, .none⟩),
          .quiet)
  | unlock (d : ℕ) :
      Stepped address c ⟨.notify d [], .none⟩
        ((c.set d { c.tasks d with locked := false, phase := .finished }, ⟨.wait, .none⟩), .quiet)

/-! ## No `CHECK` fails -/

theorem Knows.call {work : PoolWork} {call : TaskCall} {phase : TaskPhase}
    (h : c.Knows ⟨work, call⟩) (hcall : call.job = some (t, phase)) :
    (c.tasks t).phase = phase := by
  refine h (t, phase) ?_
  simp [WorkerPlace.jobs, hcall]

theorem Knows.work {work : PoolWork} {call : TaskCall} {phase : TaskPhase}
    (h : c.Knows ⟨work, call⟩) (hwork : work.job = some (t, phase)) :
    (c.tasks t).phase = phase := by
  refine h (t, phase) ?_
  simp [WorkerPlace.jobs, hwork]

theorem Sound.state (h : c.Sound) (t : ℕ) : (c.tasks t).state = (c.tasks t).phase.state :=
  (h.task t).state

/-- The task that is told next waits for the one that tells it, and so has not begun. -/
theorem Sound.waits_of_notify {rest : List ℕ} (h : c.Sound)
    (hd : (c.tasks d).phase = .completing (t :: rest)) :
    d ∈ (c.tasks t).waits ∧ (c.tasks t).phase.Early ∧ t ≠ d := by
  have hwaits : d ∈ (c.tasks t).waits := by
    rw [h.paired.waits, Task.pending, hd]
    exact .inr List.mem_cons_self
  have hearly := (h.task t).early (List.ne_nil_of_mem hwaits)
  refine ⟨hwaits, hearly, ?_⟩
  rintro rfl
  rw [hd] at hearly
  exact hearly

/-- A task that is not ready goes to the queue, whatever state it had. -/
theorem notifyDependenciesCompleted_set (ht : t ∈ c.tasksNotReady) (k : Task) :
    (c.set t { k with state := .dependenciesCompleted }).notifyDependenciesCompleted t =
      some ((c.set t k).enqueue t) := by
  rw [notifyDependenciesCompleted, if_pos (show t ∈ (c.set t _).tasksNotReady from ht)]
  simp [enqueue, setPhase, set]

/-- The task that is told of a dependency it waits for has not begun. -/
theorem Sound.onDependenyCompleted (h : c.Sound) (hd : d ∈ (c.tasks t).waits) :
    (c.told t d).onDependenyCompleted t =
      some (if (c.tasks t).phase = .waiting ∧ (c.tasks t).waits.erase d = [] then
        (c.unwait t d).enqueue t else c.unwait t d) := by
  have hearly : (c.tasks t).phase.Early := (h.task t).early (List.ne_nil_of_mem hd)
  have hzero : (c.tasks t).uncompletedDependencies - 1 = 0 ↔ (c.tasks t).waits.erase d = [] := by
    rw [(h.task t).count, ← List.length_erase_of_mem hd, List.length_eq_zero_iff]
  rw [ThreadPool.onDependenyCompleted, told, unwait]
  simp only [set_tasks_self, set_set, hzero]
  have hstate := h.state t
  rcases hearly.cases with hphase | ⟨hphase, hnew⟩
  · rw [hphase, TaskPhase.state] at hstate
    rw [if_pos (.inr hstate)]
    by_cases hwaits : (c.tasks t).waits.erase d = []
    · rw [if_pos ⟨hwaits, hstate⟩, if_pos ⟨hphase, hwaits⟩]
      exact notifyDependenciesCompleted_set ((h.listed.notReady t).mpr (.inr hphase))
        { c.tasks t with
          uncompletedDependencies := (c.tasks t).uncompletedDependencies - 1
          waits := (c.tasks t).waits.erase d }
    · rw [if_neg fun hw => hwaits hw.1, if_neg fun hw => hwaits hw.2]
  · rw [hnew] at hstate
    have hne : (c.tasks t).state ≠ .dispatched := by
      rw [hstate]
      exact nofun
    rw [if_pos (.inl hstate), if_neg fun hw => hne hw.2, if_neg fun hw => hphase hw.1]

/-- The second step of a call. -/
theorem stepped_call (address : ℕ → ℕ) {work : PoolWork} {call : TaskCall} (h : c.Sound)
    (hp : c.Knows ⟨work, call⟩) (hcall : call ≠ .none) :
    ∃ c', c.callStep address call = some c' ∧
      Stepped address c ⟨work, call⟩ ((c', ⟨work, .none⟩), .quiet) := by
  cases call with
  | none => exact absurd rfl hcall
  | addDependentTask t d =>
    have hphase : (c.tasks t).phase = .adding d := hp.call rfl
    rw [callStep, addDependentTask]
    by_cases hdone : (c.tasks d).phase.state = .completed
    · rw [if_pos ((h.state d).trans hdone),
        h.onDependenyCompleted ((h.paired.waits t d).mpr (.inl hphase))]
      rw [if_neg (fun hw => by rw [hphase] at hw; exact absurd hw.1 nofun)]
      exact ⟨_, rfl, .drop hdone⟩
    · rw [if_neg (fun hd => hdone ((h.state d).symm.trans hd)),
        if_neg fun ht => (h.paired.linked d t ht).2 hphase]
      exact ⟨_, rfl, .link hdone⟩
  | setThreadPool t =>
    have hphase : (c.tasks t).phase = .submitted := hp.call rfl
    have hstate : (c.tasks t).state = .new := by rw [h.state, hphase, TaskPhase.state]
    have hzero : (c.tasks t).uncompletedDependencies = 0 ↔ (c.tasks t).waits = [] := by
      rw [(h.task t).count, List.length_eq_zero_iff]
    rw [callStep, setThreadPool, if_pos hstate]
    by_cases hwaits : (c.tasks t).waits = []
    · rw [if_pos (hzero.mpr hwaits),
        notifyDependenciesCompleted_set ((h.listed.notReady t).mpr (.inl hphase))]
      have hsame : c.set t (c.tasks t) = c := by rw [set, Function.update_eq_self]
      rw [hsame]
      exact ⟨_, rfl, .ready hwaits⟩
    · rw [if_neg fun hcount => hwaits (hzero.mp hcount)]
      exact ⟨_, rfl, .dispatch hwaits⟩

/-- The next step of a thread of the pool. -/
theorem stepped_work (address : ℕ → ℕ) {work : PoolWork} (h : c.Sound)
    (hp : c.Knows ⟨work, .none⟩) :
    ∃ r, c.workStep work = some r ∧
      Stepped address c ⟨work, .none⟩ ((r.1.1, ⟨r.1.2, .none⟩), r.2) := by
  cases work with
  | wait =>
    rw [workStep]
    split
    case h_1 t rest hqueue => exact ⟨_, rfl, .take hqueue⟩
    case h_2 hqueue =>
      refine ⟨_, rfl, ?_⟩
      by_cases hrunning : c.running = true
      · rw [if_pos hrunning]
        exact .stay _
      · rw [if_neg hrunning]
        exact .leave hqueue (Bool.eq_false_iff.mpr hrunning)
  | getState t =>
    have hstate : (c.tasks t).state = .dependenciesCompleted := by
      rw [h.state, hp.work rfl, TaskPhase.state]
    rw [workStep, if_pos hstate]
    exact ⟨_, rfl, .getState t⟩
  | execute t =>
    have hstate : (c.tasks t).state = .dependenciesCompleted := by
      rw [h.state, hp.work rfl, TaskPhase.state]
    rw [workStep, if_pos hstate]
    exact ⟨_, rfl, .begin t⟩
  | run t => exact ⟨_, rfl, .finish t⟩
  | notify d rest =>
    have hphase : (c.tasks d).phase = .completing rest := hp.work rfl
    cases rest with
    | nil => exact ⟨_, rfl, .unlock d⟩
    | cons t rest =>
      obtain ⟨hd, -, hne⟩ := h.waits_of_notify hphase
      rw [workStep, h.onDependenyCompleted hd]
      refine ⟨_, rfl, ?_⟩
      split
      case isTrue hwaits =>
        have hstep : Stepped address c ⟨.notify d (t :: rest), .none⟩ _ := .tellReady hwaits
        rw [setPhase_enqueue hne] at hstep
        exact hstep
      case isFalse hwaits => exact .tell hwaits
  | returned => exact ⟨_, rfl, .stay _⟩

/-- No `CHECK` fails. -/
theorem stepped (address : ℕ → ℕ) (h : c.Sound) (hp : c.Knows p) (i : TaskTurn) (t : τ) :
    Stepped address c p (act address t i c p) := by
  cases i with
  | addDependency t d expired =>
    rw [act]
    split
    case isTrue hcan =>
      obtain ⟨hcalls, hhand, hgiven, hnew, hexpired⟩ := hcan
      have hstate : (c.tasks t).state = .new := by rw [h.state, hhand, TaskPhase.state]
      rw [if_neg (not_not.mpr hstate)]
      split
      case isTrue htrue => exact .expire hhand (hexpired htrue) hnew
      case isFalse =>
        obtain ⟨work, call⟩ := p
        cases call
        case none => exact .depend hhand hgiven hnew
        all_goals exact hcalls.elim
    case isFalse => exact .stay p
  | schedule t =>
    rw [act]
    split
    case isTrue hcan =>
      obtain ⟨hcalls, hhand⟩ := hcan
      have hready : t ∉ c.tasksNotReady := by
        rw [h.listed.notReady, hhand]
        exact nofun
      rw [if_neg hready]
      obtain ⟨work, call⟩ := p
      cases call
      case none => exact .submit hhand
      all_goals exact hcalls.elim
    case isFalse => exact .stay p
  | shutDown =>
    rw [act]
    split
    · exact .shutDown p
    · exact .stay p
  | go =>
    rw [act, goOn]
    split
    case isTrue => exact .stay p
    case isFalse =>
      obtain ⟨work, call⟩ := p
      cases call with
      | none =>
        obtain ⟨r, hr, hstep⟩ := stepped_work address h hp
        simp only [hr]
        exact hstep
      | addDependentTask t d =>
        obtain ⟨c', hc', hstep⟩ := stepped_call address h hp nofun
        simp only [hc']
        exact hstep
      | setThreadPool t =>
        obtain ⟨c', hc', hstep⟩ := stepped_call address h hp nofun
        simp only [hc']
        exact hstep

end ThreadPool

end Mastiff.Cartographer

import Mastiff.InferMachine

/-!
# The business client

`BiznessClient` (`cambrian/brain/bizlogic/bizness_client.cc`) executes the jobs the infer
machine decides on. Only an automatic clean is a tangible task : it gets a working thread,
and a recycle thread that waits for the end of the task and joins the working thread.

A `Robot` is the machine with its client. Its inputs are the machine's operations, with
the calls of `ExecRobotWork` each makes, and the steps of the two threads, in any order.
A thread that has been started is joinable until it is joined, and assigning to a joinable
`std::thread` or joining one that is not joinable ends the program. `Recycle`, which would
join the recycle thread, has no caller. The task's body and the upward messages change no
member and are left out.
-/

set_option linter.unusedSectionVars false

namespace Mastiff.Brain

/-! ## The client -/

/-- `working_thread_` : not joinable, or started with its task running or finished. -/
inductive WorkingThread
  | none
  | running
  | finished
  deriving DecidableEq

/-- `recycle_thread_` : not joinable, or started and in its waiting loop, at the join of
the working thread, or past it. -/
inductive RecycleThread
  | none
  | waiting
  | joining
  | exited
  deriving DecidableEq

/-- `joinable`. -/
def WorkingThread.joinable (t : WorkingThread) : Bool :=
  t ≠ .none

/-- `joinable`. -/
def RecycleThread.joinable (t : RecycleThread) : Bool :=
  t ≠ .none

/-- How a thread ends the program. -/
inductive Terminate
  | assignWorking
  | assignRecycle
  | joinWorking
  deriving DecidableEq

/-- The members of `BiznessClient` a job changes. -/
structure BiznessClient where
  atWork : Bool := false
  atRecycle : Bool := false
  workingThread : WorkingThread := .none
  recycleThread : RecycleThread := .none
  deriving DecidableEq

namespace BiznessClient

/-- `StartTangibleTask`. -/
def startTangibleTask (b : BiznessClient) : Except Terminate BiznessClient :=
  if b.workingThread.joinable then .error .assignWorking
  else if b.recycleThread.joinable then .error .assignRecycle
  else .ok { b with atWork := true, workingThread := .running, recycleThread := .waiting }

/-- `StartNewWork`. -/
def startNewWork (b : BiznessClient) (mode : RobotMode) : Except Terminate BiznessClient :=
  match mode with
  | .autoClean => b.startTangibleTask
  | _ => .ok b

/-- `RecycleMission`. The recycle thread wakes up in a step of its own. -/
def recycleMission (b : BiznessClient) : BiznessClient :=
  { b with atWork := false, atRecycle := true }

/-- `TerminateCurrentWork`. -/
def terminateCurrentWork (b : BiznessClient) : BiznessClient :=
  if !b.atWork then b else b.recycleMission

/-- `ExecRobotWork`. Pausing and resuming are empty. -/
def execRobotWork (b : BiznessClient) (work : RobotWork) : Except Terminate BiznessClient :=
  match work.stat with
  | .nowork => .ok b
  | .pausing => .ok b
  | .working => if work.isNew then b.startNewWork work.mode else .ok b
  | .stopwork => .ok b.terminateCurrentWork
  | _ => .ok b

/-- The calls an operation of the machine makes. -/
def execRobotWorks (b : BiznessClient) : List RobotWork → Except Terminate BiznessClient
  | [] => .ok b
  | work :: works => do
    let b ← b.execRobotWork work
    b.execRobotWorks works

/-! ### The threads -/

/-- The task returns. -/
def taskDone (b : BiznessClient) : BiznessClient :=
  { b with
    workingThread := if b.workingThread = .running then .finished else b.workingThread }

/-- The wait of the recycle thread ends without a timeout : it was notified, or woke up
by itself. -/
def recyclerWakes (b : BiznessClient) : BiznessClient :=
  { b with
    recycleThread := if b.recycleThread = .waiting then .joining else b.recycleThread }

/-- The wait of the recycle thread times out, and the loop looks at `at_work_`. -/
def recyclerTimesOut (b : BiznessClient) : BiznessClient :=
  if b.recycleThread = .waiting ∧ b.atWork = false then { b with recycleThread := .joining } else b

/-- The recycle thread at its join, which blocks while the task is running. -/
def recyclerJoins (b : BiznessClient) : Except Terminate BiznessClient :=
  if b.recycleThread = .joining then
    match b.workingThread with
    | .none => .error .joinWorking
    | .running => .ok b
    | .finished => .ok { b with workingThread := .none, recycleThread := .exited }
  else .ok b

end BiznessClient

/-! ## The robot -/

/-- The machine and its client. -/
structure Robot where
  machine : InferMachine
  client : BiznessClient
  deriving DecidableEq

/-- An operation of the machine, or a step of a thread. -/
inductive RobotInput
  | operation (op : Operation)
  | taskDone
  | recyclerWakes
  | recyclerTimesOut
  | recyclerJoins
  deriving DecidableEq

namespace Robot

/-- The robot after the machine's `Init`. -/
def init (w : CleanMode) : Robot :=
  ⟨InferMachine.init { workMode := w }, {}⟩

/-- One input, with the calls it made. -/
def step (r : Robot) : RobotInput → Except Terminate (Robot × List RobotWork)
  | .operation op => do
    let client ← r.client.execRobotWorks (r.machine.step op).2
    return (⟨(r.machine.step op).1, client⟩, (r.machine.step op).2)
  | .taskDone => .ok ({ r with client := r.client.taskDone }, [])
  | .recyclerWakes => .ok ({ r with client := r.client.recyclerWakes }, [])
  | .recyclerTimesOut => .ok ({ r with client := r.client.recyclerTimesOut }, [])
  | .recyclerJoins => do
    let client ← r.client.recyclerJoins
    return ({ r with client := client }, [])

end Robot

end Mastiff.Brain

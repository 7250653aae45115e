import Mastiff.BiznessClient
import Mastiff.CommandOutcome

/-!
# The machine and its client

The machine and the business client each keep a notion of working. `stoppable_iff` says
which inputs of a run keep them together, so that a job at work can be finished, and
`terminates_iff` that the second tangible task of a run ends the program, since nothing
joins the recycle thread of the first.
-/

set_option linter.unusedSectionVars false

namespace Mastiff.Brain

open Memory Machine InferMachine

/-- A job is at hand, and a FINISH finds it. -/
def InferMachine.AtJob (m : InferMachine) : Prop :=
  (m.status = .working ∨ m.status = .pausing) ∧ m.isPending = false

namespace Robot

/-- If the client is at work, the machine is in a job, and every operation that is a
FINISH is accepted and recycles the mission. -/
def Stoppable (r : Robot) : Prop :=
  r.client.atWork = true →
    (r.machine.status = .working ∨ r.machine.status = .pausing) ∧
      ∀ op c, r.machine.command op = some c → c.ctrl = .finish →
        (c.drive r.machine).accepted = true ∧
          r.step (.operation op) =
            .ok (⟨(r.machine.step op).1, r.client.recycleMission⟩, (r.machine.step op).2)

/-- The input leaves a job that can be stopped, unless it ends the program. -/
def StoppableAfter (r : Robot) (i : RobotInput) : Prop :=
  ∀ r' calls, r.step i = .ok (r', calls) → Stoppable r'

/-- The input does not take the machine out of a job its client is at work on : the dock
and charge-end events do, and so does a control the switch has no branch for. -/
def StaysStoppable (r : Robot) : RobotInput → Prop
  | .operation (.eventOnDock _) => r.client.atWork = false
  | .operation (.eventChargeFull full) => full = true → r.client.atWork = false
  | .operation op => ∀ c, r.machine.command op = some c → c.ctrl.handled = false →
      r.client.atWork = false
  | _ => True

/-- Both halves between inputs. -/
def Ready (r : Robot) : Prop :=
  Quiet r.machine ∧ Settled r.machine

theorem ready_init (w : CleanMode) : Ready (init w) :=
  ⟨quiet_init w, settled_init w⟩

variable {r : Robot}

/-! ## A job that can be stopped -/

/-- A FINISH of a job at hand ends it. -/
theorem atJob_finish {m : InferMachine} (h : Quiet m) (hj : m.AtJob) {c : Command}
    (hc : c.ctrl = .finish) :
    (c.drive m).accepted = true ∧ (c.drive m).calls = [⟨.standBy, .stopwork, false⟩] := by
  obtain ⟨hstatus, hpend⟩ := hj
  have hprep := prepare_of_not_pending hpend c.mode
  obtain ⟨last, hcontrol⟩ : ∃ last, (m.prepare c.mode).control c.ctrl (actKey c.key) c.mode =
      .ok ((m.prepare c.mode).shiftTo last .stopwork .standBy) := by
    rw [hc, hprep, InferMachine.control, controlFinish]
    rcases hstatus with hs | hs
    · exact ⟨.working, by rw [hs]⟩
    · exact ⟨.pausing, by rw [hs]⟩
  rw [drive_of_ok hcontrol]
  refine ⟨rfl, ?_⟩
  rw [updataInferMachine_calls, hprep, ← h.jobNew]
  rfl

/-- A job at work can be stopped exactly when the machine has it at hand. -/
theorem stoppable_iff_atJob (h : Ready r) :
    Stoppable r ↔ (r.client.atWork = true → r.machine.AtJob) := by
  obtain ⟨hq, hs⟩ := h
  refine forall_congr' fun hw => ⟨fun ⟨hstatus, hfinish⟩ => ⟨hstatus, ?_⟩, fun hj => ⟨hj.1, ?_⟩⟩
  · have hacc := (hfinish (.taskShift .finish) _ rfl rfl).1
    by_contra hpend
    have hprep := hs.prepare_of_pending (Bool.not_eq_false _ ▸ hpend) r.machine.workMode
    rw [rejected_of_nowork (by simp) (by rw [hprep])] at hacc
    cases hacc
  · intro op c hc hctrl
    obtain ⟨hacc, hcalls⟩ := atJob_finish hq hj hctrl
    refine ⟨hacc, ?_⟩
    rw [step, step_of_command hq hc, Drive.effect, hcalls]
    simp [BiznessClient.execRobotWorks, BiznessClient.execRobotWork,
      BiznessClient.terminateCurrentWork, hw]

/-! ## One input -/

variable {r' : Robot} {calls : List RobotWork}

/-- A step of a thread leaves the machine, and the client at work if it was. -/
theorem step_thread {i : RobotInput} (hi : ∀ op, i ≠ .operation op)
    (h : r.step i = .ok (r', calls)) :
    r'.machine = r.machine ∧ r'.client.atWork = r.client.atWork := by
  cases i with
  | operation op => exact absurd rfl (hi op)
  | taskDone | recyclerWakes =>
    cases h
    exact ⟨rfl, rfl⟩
  | recyclerTimesOut =>
    cases h
    refine ⟨rfl, ?_⟩
    change r.client.recyclerTimesOut.atWork = _
    rw [BiznessClient.recyclerTimesOut]
    split_ifs <;> rfl
  | recyclerJoins =>
    obtain ⟨client, hclient, hr⟩ := bind_eq_ok.1 h
    cases hr
    refine ⟨rfl, ?_⟩
    change client.atWork = r.client.atWork
    rw [BiznessClient.recyclerJoins] at hclient
    split at hclient
    · split at hclient <;> cases hclient <;> rfl
    · cases hclient
      rfl

/-- An operation leaves the machine's own step, and what its calls make of the client. -/
theorem step_operation {op : Operation} (h : r.step (.operation op) = .ok (r', calls)) :
    r'.machine = (r.machine.step op).1 ∧
      r.client.execRobotWorks (r.machine.step op).2 = .ok r'.client := by
  obtain ⟨client, hclient, hr⟩ := bind_eq_ok.1 h
  cases hr
  exact ⟨rfl, hclient⟩

theorem ready_step {i : RobotInput} (hr : Ready r) (h : r.step i = .ok (r', calls)) :
    Ready r' := by
  by_cases hi : ∃ op, i = .operation op
  · obtain ⟨op, rfl⟩ := hi
    rw [Ready, (step_operation h).1]
    exact settled_step _ op hr
  · rw [Ready, (step_thread (fun op hop => hi ⟨op, hop⟩) h).1]
    exact hr

/-- An operation without calls does not fail. -/
theorem step_of_no_calls {op : Operation} (h : (r.machine.step op).2 = []) :
    r.step (.operation op) = .ok (⟨(r.machine.step op).1, r.client⟩, []) := by
  rw [step, h]
  rfl

theorem stoppableAfter_of_ok {i : RobotInput} (h : r.step i = .ok (r', calls)) :
    StoppableAfter r i ↔ Stoppable r' := by
  rw [StoppableAfter, h]
  constructor
  · intro hs
    exact hs _ _ rfl
  · rintro hs r' calls ⟨⟩
    exact hs

/-- A transition leaves a job that can be stopped : it leads into one, or ends it. -/
theorem stoppable_of_performs (hr : Ready r) {op : Operation} {c : Command}
    (hc : r.machine.command op = some c) (hp : c.Performs r.machine (c.drive r.machine).machine)
    (hh : c.ctrl.handled = true) (h : r.step (.operation op) = .ok (r', calls)) :
    Stoppable r' := by
  rw [stoppable_iff_atJob (ready_step hr h)]
  intro hw
  obtain ⟨hm, hclient⟩ := step_operation h
  rw [step_of_command hr.1 hc] at hm hclient
  have hpend := hr.2.drive_isPending c
  rw [hh] at hpend
  rcases shift_status_cases hp with hs | hs | hs
  · exact ⟨.inr (hm ▸ hs), hm ▸ hpend⟩
  · exact ⟨.inl (hm ▸ hs), hm ▸ hpend⟩
  · obtain ⟨-, ⟨-, -, hcalls⟩ | ⟨hno, -⟩⟩ := drive_spec c hr.1
    · change (c.drive r.machine).machine.status = _ at hs
      rw [Drive.effect, hcalls, hs] at hclient
      have hend : r.client.terminateCurrentWork = r'.client := by
        simpa [BiznessClient.execRobotWorks, BiznessClient.execRobotWork] using hclient
      rw [← hend, BiznessClient.terminateCurrentWork] at hw
      split_ifs at hw with hnot
      · simp [hw] at hnot
      · cases hw
    · exact absurd hp hno

/-- The controls of the table have branches. -/
theorem handled_of_shift {asked : RobotMode} {ctrl : ControlType} {s s' : WorkState}
    (h : Shift asked ctrl s s') : ctrl.handled = true := by
  cases h <;> rfl

/-- A command keeps a job that can be stopped so, unless its control has no branch. -/
theorem stoppable_command_iff (hr : Ready r) (hstop : Stoppable r) {op : Operation} {c : Command}
    (hc : r.machine.command op = some c) :
    StoppableAfter r (.operation op) ↔
      (c.ctrl.handled = false → r.client.atWork = false) := by
  obtain ⟨-, ⟨hp, -⟩ | ⟨-, hcalls, hwork⟩⟩ := drive_spec c hr.1
  · have hh := handled_of_shift hp
    exact iff_of_true (fun r' calls h => stoppable_of_performs hr hc hp hh h) (by simp [hh])
  · have hnone : (r.machine.step op).2 = [] := by
      rw [step_of_command hr.1 hc]
      exact hcalls
    have hstep := step_of_no_calls hnone
    have hready := ready_step hr hstep
    rw [stoppableAfter_of_ok hstep, stoppable_iff_atJob hready]
    cases hw : r.client.atWork with
    | false => exact iff_of_true (fun h => by cases h) (fun _ => rfl)
    | true =>
      obtain ⟨hstatus, hpend⟩ := (stoppable_iff_atJob hr).1 hstop hw
      rw [prepare_of_not_pending hpend, workState, workState, WorkState.mk.injEq] at hwork
      have hmach : (r.machine.step op).1 = (c.drive r.machine).machine := by
        rw [step_of_command hr.1 hc, Drive.effect]
      simp only [AtJob, hmach, hwork.1, hstatus, hr.2.drive_isPending c]
      simp

/-- An operation without a command keeps a job that can be stopped so exactly when it
keeps the machine in it. -/
theorem stoppable_no_command_iff (hr : Ready r) {op : Operation}
    (hc : r.machine.command op = none) :
    StoppableAfter r (.operation op) ↔
      (r.client.atWork = true → (r.machine.step op).1.AtJob) := by
  have hstep := step_of_no_calls (step_of_no_command hr.1 hc).2
  have hready := ready_step hr hstep
  rw [stoppableAfter_of_ok hstep, stoppable_iff_atJob hready]

/-- An input keeps a job that can be stopped so exactly when it `StaysStoppable`. -/
theorem stoppable_step_iff (hr : Ready r) (hstop : Stoppable r) (i : RobotInput) :
    StoppableAfter r i ↔ StaysStoppable r i := by
  have hjob := (stoppable_iff_atJob hr).1 hstop
  cases i with
  | taskDone | recyclerWakes | recyclerTimesOut | recyclerJoins =>
    refine iff_of_true (fun r' calls h => ?_) trivial
    obtain ⟨hm, hw⟩ := step_thread (fun op hop => by cases hop) h
    rw [stoppable_iff_atJob (ready_step hr h), hm, hw]
    exact hjob
  | operation op =>
    rcases hc : r.machine.command op with _ | c
    · rw [stoppable_no_command_iff hr hc]
      cases op with
      | missionCommand mc =>
        rw [step_missionCommand_of_none hc]
        exact iff_of_true hjob (fun c hc' => by simp [hc] at hc')
      | taskShift | pushPowerKey | pushPowerKeyLong | pushHomeKey | pushHomeKeyLong => cases hc
      | eventOnDock dock =>
        refine ⟨fun h => ?_, fun h hw => by rw [StaysStoppable] at h; simp [h] at hw⟩
        by_contra hw
        have hstatus := (h (Bool.not_eq_false _ ▸ hw)).1
        change RobotStatus.nowork = _ ∨ RobotStatus.nowork = _ at hstatus
        simp at hstatus
      | eventChargeFull full =>
        cases full with
        | true =>
          refine ⟨fun h _ => ?_, fun h hw => by simp [h rfl] at hw⟩
          by_contra hw
          have hstatus := (h (Bool.not_eq_false _ ▸ hw)).1
          change RobotStatus.nowork = _ ∨ RobotStatus.nowork = _ at hstatus
          simp at hstatus
        | false => exact iff_of_true hjob (fun h => by cases h)
      | updataBattery | updataFan | updataFlow | updataBoost | start =>
        exact iff_of_true hjob (fun c hc' => by simp [hc] at hc')
    · rw [stoppable_command_iff hr hstop hc]
      cases op with
      | eventOnDock | eventChargeFull | updataBattery | updataFan | updataFlow | updataBoost
      | start => cases hc
      | missionCommand | taskShift | pushPowerKey | pushPowerKeyLong | pushHomeKey
      | pushHomeKeyLong => simp [StaysStoppable, hc]

/-- Over every run of operations and thread steps, the job the client is at work on can
always be stopped exactly when every input `StaysStoppable`. -/
theorem stoppable_iff (w : CleanMode) (is : List RobotInput) :
    Along step StoppableAfter (init w) is ↔ Along step StaysStoppable (init w) is := by
  refine along_congr (fun r => Ready r ∧ Stoppable r) (fun r i h _ => stoppable_step_iff h.1 h.2 i)
    (fun r i r' calls h _ hQ hstep => ⟨ready_step h.1 hstep, hQ r' calls hstep⟩) is
    ⟨ready_init w, fun h => by cases h⟩ (along_true is)

/-- An automatic clean, and the robot on its dock : the machine has no job any more and
the client is still at work. -/
theorem not_stoppable :
    ¬∀ (w : CleanMode) (is : List RobotInput) (r : Robot) (calls : List (List RobotWork)),
      tryRun step (init w) is = .ok (r, calls) → Stoppable r := by
  intro h
  have hs := h .cleanGlobal
    [.operation (.pushPowerKey .key), .operation (.eventOnDock true)] _ _ rfl
  exact absurd (hs rfl).1 (by decide)

/-! ## Tangible tasks -/

end Robot

/-- The call starts a tangible task. -/
def RobotWork.tangible (work : RobotWork) : Bool :=
  work = ⟨.autoClean, .working, true⟩

namespace BiznessClient

/-- The threads of a client that has started `n` tangible tasks, one at most. -/
structure Threads (n : ℕ) (b : BiznessClient) : Prop where
  le_one : n ≤ 1
  unstarted : n = 0 → b.workingThread = .none ∧ b.recycleThread = .none
  started : n = 1 → b.recycleThread ≠ .none
  uncollected : b.recycleThread = .waiting ∨ b.recycleThread = .joining → b.workingThread ≠ .none

variable {b : BiznessClient} {n : ℕ}

/-- A second task finds a joinable thread. -/
theorem startTangibleTask_cases (h : Threads n b) :
    (n = 0 ∧ ∃ b', b.startTangibleTask = .ok b' ∧ Threads 1 b') ∨
      (n = 1 ∧ ∃ e, b.startTangibleTask = .error e) := by
  rw [startTangibleTask]
  rcases Nat.le_one_iff_eq_zero_or_eq_one.1 h.le_one with rfl | rfl
  · obtain ⟨hw, hr⟩ := h.unstarted rfl
    rw [hw, hr]
    exact .inl ⟨rfl, _, rfl, ⟨Nat.le_refl 1, by simp, by simp, by simp⟩⟩
  · refine .inr ⟨rfl, ?_⟩
    have hr : b.recycleThread.joinable = true := decide_eq_true (h.started rfl)
    split_ifs
    · exact ⟨_, rfl⟩
    · exact ⟨_, rfl⟩

/-- Every other call leaves the threads. -/
theorem execRobotWork_of_not_tangible {work : RobotWork} (h : Threads n b)
    (hw : work.tangible = false) : ∃ b', b.execRobotWork work = .ok b' ∧ Threads n b' := by
  obtain ⟨mode, stat, isNew⟩ := work
  rw [execRobotWork]
  cases stat with
  | sentinel | nowork | pausing | null => exact ⟨b, rfl, h⟩
  | working =>
    cases isNew with
    | false => exact ⟨b, rfl, h⟩
    | true =>
      cases mode with
      | autoClean => simp [RobotWork.tangible] at hw
      | _ => exact ⟨b, rfl, h⟩
  | stopwork =>
    refine ⟨b.terminateCurrentWork, rfl, ?_⟩
    rw [terminateCurrentWork]
    split_ifs
    · exact h
    · exact ⟨h.le_one, h.unstarted, h.started, h.uncollected⟩

/-- The calls of an operation fail exactly when they start a second task. -/
theorem execRobotWorks_cases (works : List RobotWork) {b : BiznessClient} {n : ℕ}
    (h : Threads n b) :
    (∃ b', b.execRobotWorks works = .ok b' ∧ Threads (n + works.countP RobotWork.tangible) b') ∨
      (1 < n + works.countP RobotWork.tangible ∧ ∃ e, b.execRobotWorks works = .error e) := by
  induction works generalizing b n with
  | nil => exact .inl ⟨b, rfl, h⟩
  | cons work works ih =>
    rw [execRobotWorks]
    cases hw : work.tangible with
    | false =>
      obtain ⟨b', hb', h'⟩ := execRobotWork_of_not_tangible h hw
      rw [hb', ok_bind, List.countP_cons_of_neg (by simp [hw])]
      exact ih h'
    | true =>
      rw [List.countP_cons_of_pos hw]
      obtain rfl : work = ⟨.autoClean, .working, true⟩ := of_decide_eq_true hw
      obtain ⟨rfl, b', hb', h'⟩ | ⟨rfl, e, he⟩ := startTangibleTask_cases h
      · have hcall : b.execRobotWork ⟨.autoClean, .working, true⟩ = .ok b' := hb'
        rw [hcall, ok_bind, Nat.zero_add, Nat.add_comm]
        exact ih h'
      · have hcall : b.execRobotWork ⟨.autoClean, .working, true⟩ = .error e := he
        rw [hcall, error_bind]
        exact .inr ⟨by omega, e, rfl⟩

/-- A step of a thread fails nowhere and starts no task. -/
theorem Threads.recyclerJoins (h : Threads n b) :
    ∃ b', b.recyclerJoins = .ok b' ∧ Threads n b' := by
  rw [BiznessClient.recyclerJoins]
  split_ifs with hj
  · have hw := h.uncollected (.inr hj)
    have hone : n = 1 := by
      rcases Nat.le_one_iff_eq_zero_or_eq_one.1 h.le_one with rfl | rfl
      · exact absurd (h.unstarted rfl).1 hw
      · rfl
    cases hthread : b.workingThread with
    | none => exact absurd hthread hw
    | running => exact ⟨b, rfl, h⟩
    | finished => exact ⟨_, rfl, h.le_one, by simp [hone], by simp, by simp⟩
  · exact ⟨b, rfl, h⟩

theorem Threads.taskDone (h : Threads n b) : Threads n b.taskDone := by
  rw [BiznessClient.taskDone]
  split_ifs with hrun
  · refine ⟨h.le_one, fun hn => ?_, h.started, by simp⟩
    rw [(h.unstarted hn).1] at hrun
    cases hrun
  · exact h

/-- A waiting recycle thread goes to its join. -/
theorem Threads.joining (h : Threads n b) (hwait : b.recycleThread = .waiting) :
    Threads n { b with recycleThread := .joining } := by
  refine ⟨h.le_one, fun hn => ?_, by simp, fun _ => h.uncollected (.inl hwait)⟩
  rw [(h.unstarted hn).2] at hwait
  cases hwait

theorem Threads.recyclerWakes (h : Threads n b) : Threads n b.recyclerWakes := by
  rw [BiznessClient.recyclerWakes]
  split_ifs with hwait
  · exact h.joining hwait
  · exact h

theorem Threads.recyclerTimesOut (h : Threads n b) : Threads n b.recyclerTimesOut := by
  rw [BiznessClient.recyclerTimesOut]
  split_ifs with hwait
  · exact h.joining hwait.1
  · exact h

end BiznessClient

namespace Robot

/-- The machine's operations among the inputs. -/
def operations (is : List RobotInput) : List Operation :=
  is.filterMap fun
    | .operation op => some op
    | _ => none

/-- The tangible tasks the machine asks for in a run. -/
def tangibleTasks (m : InferMachine) (is : List RobotInput) : ℕ :=
  (run InferMachine.step m (operations is)).2.flatten.countP RobotWork.tangible

theorem tangibleTasks_operation (m : InferMachine) (op : Operation) (is : List RobotInput) :
    tangibleTasks m (.operation op :: is) =
      (m.step op).2.countP RobotWork.tangible + tangibleTasks (m.step op).1 is := by
  simp [tangibleTasks, operations, List.countP_append]

/-- A run goes through exactly when it starts one task at most. -/
theorem tryRun_iff (is : List RobotInput) {r : Robot} {n : ℕ} (h : r.client.Threads n) :
    (∃ r' calls, tryRun step r is = .ok (r', calls)) ↔ n + tangibleTasks r.machine is ≤ 1 := by
  induction is generalizing r n with
  | nil =>
    have hle := h.le_one
    exact iff_of_true ⟨r, [], rfl⟩ (by simpa [tangibleTasks, operations] using hle)
  | cons i is ih =>
    cases i with
    | taskDone =>
      have hstep : r.step .taskDone = .ok (⟨r.machine, r.client.taskDone⟩, []) := rfl
      rw [exists_tryRun_cons_iff hstep]
      exact ih (r := ⟨r.machine, _⟩) h.taskDone
    | recyclerWakes =>
      have hstep : r.step .recyclerWakes = .ok (⟨r.machine, r.client.recyclerWakes⟩, []) := rfl
      rw [exists_tryRun_cons_iff hstep]
      exact ih (r := ⟨r.machine, _⟩) h.recyclerWakes
    | recyclerTimesOut =>
      have hstep : r.step .recyclerTimesOut =
        .ok (⟨r.machine, r.client.recyclerTimesOut⟩, []) := rfl
      rw [exists_tryRun_cons_iff hstep]
      exact ih (r := ⟨r.machine, _⟩) h.recyclerTimesOut
    | recyclerJoins =>
      obtain ⟨b', hb', h'⟩ := h.recyclerJoins
      have hstep : r.step .recyclerJoins = .ok (⟨r.machine, b'⟩, []) := by
        rw [step, hb']
        rfl
      rw [exists_tryRun_cons_iff hstep]
      exact ih (r := ⟨r.machine, b'⟩) h'
    | operation op =>
      rw [tangibleTasks_operation, ← Nat.add_assoc]
      obtain ⟨b', hb', h'⟩ | ⟨hlt, e, he⟩ :=
        BiznessClient.execRobotWorks_cases (r.machine.step op).2 h
      · have hstep : r.step (.operation op) =
            .ok (⟨(r.machine.step op).1, b'⟩, (r.machine.step op).2) := by
          rw [step, hb']
          rfl
        rw [exists_tryRun_cons_iff hstep]
        exact ih (r := ⟨(r.machine.step op).1, b'⟩) h'
      · refine iff_of_false ?_ (by omega)
        rintro ⟨r', calls, hrun⟩
        rw [tryRun, step, he] at hrun
        cases hrun

/-- Over every run of operations and thread steps, the threads a task is assigned to are
never joinable exactly when the machine asks for one tangible task at most. -/
theorem terminates_iff (w : CleanMode) (is : List RobotInput) :
    (∃ r calls, tryRun step (init w) is = .ok (r, calls)) ↔
      tangibleTasks (InferMachine.init { workMode := w }) is ≤ 1 := by
  have h : (init w).client.Threads 0 := ⟨Nat.zero_le 1, by simp [init], by simp, by simp [init]⟩
  rw [tryRun_iff is h, Nat.zero_add, init]

/-- START, FINISH, the end of the task, its collection, and START again. -/
theorem not_terminates :
    ¬∀ (w : CleanMode) (is : List RobotInput),
      ∃ r calls, tryRun step (init w) is = .ok (r, calls) := by
  intro h
  obtain ⟨r, calls, hrun⟩ := h .cleanGlobal [.operation (.pushPowerKey .key),
    .operation (.taskShift .finish), .taskDone, .recyclerWakes, .recyclerJoins,
    .operation (.pushPowerKey .key)]
  have hfail : tryRun step (init .cleanGlobal) [.operation (.pushPowerKey .key),
      .operation (.taskShift .finish), .taskDone, .recyclerWakes, .recyclerJoins,
      .operation (.pushPowerKey .key)] = .error .assignRecycle := rfl
  rw [hfail] at hrun
  cases hrun

end Robot

end Mastiff.Brain

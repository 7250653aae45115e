import Mastiff.InferMachine

/-!
# Job execution

The request to execute a job travels through four flags : `exec_` and `job_new_` are set
by the transition, published by `UpdataInferMachine`, read by `InferPlanWorkingFlow` and
cleared by `RestoreJobState`. `Shift` is the table of transitions on status and mode
alone. `execRobotWork_exactly_once` : over every run, the business layer is called once
for each transition of the table, with the state it leads to, and for nothing else.

The invariant is that between operations all four flags are clear (`Quiet`).
-/

set_option linter.unusedSectionVars false

namespace Mastiff.Brain

/-! ## The table -/

/-- The part of the machine the table is about. -/
structure WorkState where
  status : RobotStatus
  mode : RobotMode
  deriving DecidableEq

/-- The transitions of START, PAUSE, RESUME and FINISH, for a command that asks for the
mode `asked`. -/
inductive Shift (asked : RobotMode) : ControlType → WorkState → WorkState → Prop
  | startNowork (mode : RobotMode) : Shift asked .start ⟨.nowork, mode⟩ ⟨.working, asked⟩
  | startStopwork (mode : RobotMode) : Shift asked .start ⟨.stopwork, mode⟩ ⟨.working, asked⟩
  | startPausing {mode : RobotMode} (h : asked ≠ mode) :
      Shift asked .start ⟨.pausing, mode⟩ ⟨.working, asked⟩
  | startWorking {mode : RobotMode} (h : asked ≠ mode) :
      Shift asked .start ⟨.working, mode⟩ ⟨.working, asked⟩
  | pause : Shift asked .pause ⟨.working, asked⟩ ⟨.pausing, asked⟩
  | resume : Shift asked .resume ⟨.pausing, asked⟩ ⟨.working, asked⟩
  | finishPausing (mode : RobotMode) : Shift asked .finish ⟨.pausing, mode⟩ ⟨.stopwork, .standBy⟩
  | finishWorking (mode : RobotMode) : Shift asked .finish ⟨.working, mode⟩ ⟨.stopwork, .standBy⟩

theorem shift_start_iff {asked : RobotMode} {w w' : WorkState} :
    Shift asked .start w w' ↔ w' = ⟨.working, asked⟩ ∧
      (w.status = .nowork ∨ w.status = .stopwork ∨
        (w.status = .pausing ∨ w.status = .working) ∧ asked ≠ w.mode) := by
  constructor
  · intro h
    cases h <;> simp_all
  · obtain ⟨status, mode⟩ := w
    rintro ⟨rfl, rfl | rfl | ⟨rfl | rfl, hne⟩⟩
    · exact .startNowork mode
    · exact .startStopwork mode
    · exact .startPausing hne
    · exact .startWorking hne

theorem shift_pause_iff {asked : RobotMode} {w w' : WorkState} :
    Shift asked .pause w w' ↔ w' = ⟨.pausing, asked⟩ ∧ w.status = .working ∧ asked = w.mode := by
  constructor
  · intro h
    cases h
    exact ⟨rfl, rfl, rfl⟩
  · obtain ⟨status, mode⟩ := w
    rintro ⟨rfl, rfl, rfl⟩
    exact .pause

theorem shift_resume_iff {asked : RobotMode} {w w' : WorkState} :
    Shift asked .resume w w' ↔ w' = ⟨.working, asked⟩ ∧ w.status = .pausing ∧ asked = w.mode := by
  constructor
  · intro h
    cases h
    exact ⟨rfl, rfl, rfl⟩
  · obtain ⟨status, mode⟩ := w
    rintro ⟨rfl, rfl, rfl⟩
    exact .resume

theorem shift_finish_iff {asked : RobotMode} {w w' : WorkState} :
    Shift asked .finish w w' ↔
      w' = ⟨.stopwork, .standBy⟩ ∧ (w.status = .pausing ∨ w.status = .working) := by
  constructor
  · intro h
    cases h <;> simp
  · obtain ⟨status, mode⟩ := w
    rintro ⟨rfl, rfl | rfl⟩
    · exact .finishPausing mode
    · exact .finishWorking mode

/-- No other control has a transition. -/
theorem not_shift {asked : RobotMode} {ctrl : ControlType} {w w' : WorkState}
    (h1 : ctrl ≠ .start) (h2 : ctrl ≠ .pause) (h3 : ctrl ≠ .resume) (h4 : ctrl ≠ .finish) :
    ¬Shift asked ctrl w w' := by
  intro h
  cases h <;> contradiction

/-- Status and mode of the machine. -/
def InferMachine.workState (m : InferMachine) : WorkState :=
  ⟨m.status, m.mode⟩

/-! ## The switch

`Controlled` lists all the switch of `DriveRobotWorking` can do.
-/

namespace InferMachine

/-- The machine after a transition of the table to `w`. -/
def enter (m : InferMachine) (ctrl : ControlType) (w : WorkState) : InferMachine :=
  { m with
    lastStatus := m.status
    lastMode := m.mode
    status := w.status
    mode := w.mode
    exec := true
    jobNew := m.jobNew || ctrl = .start }

/-- The outcomes of the switch : a transition, a command that is let pass or rejected
without one, and a control type that makes the machine pending. -/
inductive Controlled (m : InferMachine) (asked : RobotMode) (ctrl : ControlType) :
    Except InferMachine InferMachine → Prop
  | shifted {w : WorkState} (h : Shift asked ctrl m.workState w) :
      Controlled m asked ctrl (.ok (m.enter ctrl w))
  | ignored (h : ∀ w, ¬Shift asked ctrl m.workState w) : Controlled m asked ctrl (.ok m)
  | rejected (h : ∀ w, ¬Shift asked ctrl m.workState w) : Controlled m asked ctrl (.error m)
  | failed (h : ∀ w, ¬Shift asked ctrl m.workState w) : Controlled m asked ctrl m.controlDefault

theorem startJob_eq_enter {m : InferMachine} {last : RobotStatus} (h : m.status = last)
    (mode : RobotMode) : m.startJob last mode = m.enter .start ⟨.working, mode⟩ := by
  simp [startJob, shiftTo, enter, h]

theorem shiftTo_eq_enter {m : InferMachine} {last : RobotStatus} (h : m.status = last)
    (ctrl : ControlType) (hctrl : ctrl ≠ .start) (status : RobotStatus) (mode : RobotMode) :
    m.shiftTo last status mode = m.enter ctrl ⟨status, mode⟩ := by
  simp [shiftTo, enter, h, hctrl]

theorem controlled_start (m : InferMachine) (act : ActKeyType) (mode : CleanMode) :
    Controlled m (m.robotModeDeduction act mode) .start (m.controlStart act mode) := by
  rw [controlStart]
  split
  · next hs =>
    rw [startJob_eq_enter hs]
    exact .shifted (by simp [shift_start_iff, workState, hs])
  · next hs =>
    split_ifs with hmode
    · exact .rejected (by simp [shift_start_iff, workState, hs, hmode])
    · rw [startJob_eq_enter hs]
      exact .shifted (by simp [shift_start_iff, workState, hs, hmode])
  · next hs =>
    split_ifs with hmode
    · exact .rejected (by simp [shift_start_iff, workState, hs, hmode])
    · rw [startJob_eq_enter hs]
      exact .shifted (by simp [shift_start_iff, workState, hs, hmode])
  · next hs =>
    rw [startJob_eq_enter hs]
    exact .shifted (by simp [shift_start_iff, workState, hs])
  · next h1 h2 h3 h4 =>
    refine .ignored fun w hw => ?_
    simp_all [shift_start_iff, workState]

theorem controlled_pause (m : InferMachine) (act : ActKeyType) (mode : CleanMode) :
    Controlled m (m.robotModeDeduction act mode) .pause (m.controlPause act mode) := by
  rw [controlPause]
  split
  · next hs => exact .rejected (by simp [shift_pause_iff, workState, hs])
  · next hs => exact .rejected (by simp [shift_pause_iff, workState, hs])
  · next hs =>
    split_ifs with hmode
    · exact .rejected (by simp [shift_pause_iff, workState, hmode])
    · rw [shiftTo_eq_enter hs .pause (by simp)]
      exact .shifted (by simp [shift_pause_iff, workState, hs, not_not.1 hmode])
  · next hs => exact .rejected (by simp [shift_pause_iff, workState, hs])
  · next h1 h2 h3 h4 =>
    refine .ignored fun w hw => ?_
    simp_all [shift_pause_iff, workState]

theorem controlled_resume (m : InferMachine) (act : ActKeyType) (mode : CleanMode) :
    Controlled m (m.robotModeDeduction act mode) .resume (m.controlResume act mode) := by
  rw [controlResume]
  split
  · next hs => exact .rejected (by simp [shift_resume_iff, workState, hs])
  · next hs =>
    split_ifs with hmode
    · exact .ignored (by simp [shift_resume_iff, workState, hmode])
    · rw [shiftTo_eq_enter hs .resume (by simp)]
      exact .shifted (by simp [shift_resume_iff, workState, hs, not_not.1 hmode])
  · next hs => exact .rejected (by simp [shift_resume_iff, workState, hs])
  · next hs => exact .rejected (by simp [shift_resume_iff, workState, hs])
  · next h1 h2 h3 h4 =>
    refine .ignored fun w hw => ?_
    simp_all [shift_resume_iff, workState]

theorem controlled_finish (m : InferMachine) (asked : RobotMode) :
    Controlled m asked .finish m.controlFinish := by
  rw [controlFinish]
  split
  · next hs => exact .rejected (by simp [shift_finish_iff, workState, hs])
  · next hs =>
    rw [shiftTo_eq_enter hs .finish (by simp)]
    exact .shifted (by simp [shift_finish_iff, workState, hs])
  · next hs =>
    rw [shiftTo_eq_enter hs .finish (by simp)]
    exact .shifted (by simp [shift_finish_iff, workState, hs])
  · next hs => exact .rejected (by simp [shift_finish_iff, workState, hs])
  · next h1 h2 h3 h4 =>
    refine .ignored fun w hw => ?_
    simp_all [shift_finish_iff, workState]

theorem controlled_restart (m : InferMachine) (asked : RobotMode) :
    Controlled m asked .restart m.controlRestart := by
  have hno : ∀ w, ¬Shift asked .restart m.workState w := fun w =>
    not_shift (by simp) (by simp) (by simp) (by simp)
  rw [controlRestart]
  split
  · exact .rejected hno
  · exact .rejected hno
  · exact .rejected hno
  · exact .rejected hno
  · exact .failed hno

theorem controlled (m : InferMachine) (ctrl : ControlType) (act : ActKeyType) (mode : CleanMode) :
    Controlled m (m.robotModeDeduction act mode) ctrl (m.control ctrl act mode) := by
  unfold control
  split
  · exact m.controlled_start act mode
  · exact m.controlled_pause act mode
  · exact m.controlled_resume act mode
  · exact m.controlled_finish _
  · exact m.controlled_restart _
  · next h1 h2 h3 h4 h5 =>
    exact .failed fun w => not_shift h1 h2 h3 h4

/-! ## The flags -/

/-- Nothing is requested, and nothing published as requested. -/
structure Quiet (m : InferMachine) : Prop where
  exec : m.exec = false
  jobNew : m.jobNew = false
  statExec : m.smModeStat.exec = false
  statNew : m.smModeStat.missionNew = false

theorem quiet_init (w : CleanMode) : Quiet (init { workMode := w }) :=
  ⟨rfl, rfl, rfl, rfl⟩

theorem Quiet.prepare {m : InferMachine} (h : Quiet m) (mode : CleanMode) :
    Quiet (m.prepare mode) := by
  rw [InferMachine.prepare, fixModeStatus]
  split_ifs
  all_goals exact ⟨h.exec, h.jobNew, h.statExec, h.statNew⟩

theorem quiet_inferPlanWorkingFlow (m : InferMachine) : Quiet m.inferPlanWorkingFlow.1 :=
  ⟨rfl, rfl, rfl, rfl⟩

theorem Quiet.restoreJobState_eq {m : InferMachine} (h : Quiet m) : m.restoreJobState = m := by
  have hstat : { m.smModeStat with exec := false, missionNew := false } = m.smModeStat := by
    rw [RobotModeStatus.mk.injEq]
    simp [h.statExec, h.statNew]
  rw [restoreJobState, hstat, InferMachine.mk.injEq]
  simp [h.exec, h.jobNew]

/-- Planning does nothing to a quiet machine. -/
theorem Quiet.inferPlanWorkingFlow_eq {m : InferMachine} (h : Quiet m) :
    m.inferPlanWorkingFlow = (m, []) := by
  rw [InferMachine.inferPlanWorkingFlow, h.restoreJobState_eq, isNeedExecJob, h.statExec]
  rfl

theorem quiet_updataInferMachine (m : InferMachine) : Quiet m.updataInferMachine.1 :=
  quiet_inferPlanWorkingFlow _

/-- What is executed is what the flags request, with the machine's own status and mode. -/
theorem updataInferMachine_calls (m : InferMachine) :
    m.updataInferMachine.2 = if m.exec then [⟨m.mode, m.status, m.jobNew⟩] else [] :=
  rfl

/-! ## Commands -/

/-- The arguments of a `DriveRobotWorking`. -/
structure Command where
  ctrl : ControlType
  key : ActKeyType
  mode : CleanMode
  who : CmdFromWho

/-- The call. -/
def Command.drive (c : Command) (m : InferMachine) : Drive :=
  m.driveRobotWorking c.ctrl c.key c.mode c.who

/-- The mode the switch deduces from a command. -/
def Command.asked (c : Command) (m : InferMachine) : RobotMode :=
  (m.prepare c.mode).robotModeDeduction (actKey c.key) c.mode

/-- The command is a transition of the table from `m` to `m'`. -/
def Command.Performs (c : Command) (m m' : InferMachine) : Prop :=
  Shift (c.asked m) c.ctrl (m.prepare c.mode).workState m'.workState

theorem drive_of_ok {c : Command} {m m' : InferMachine}
    (h : (m.prepare c.mode).control c.ctrl (actKey c.key) c.mode = .ok m') :
    c.drive m = ⟨m'.updataInferMachine.1, true, m'.updataInferMachine.2⟩ := by
  rw [Command.drive, driveRobotWorking, h]

theorem drive_of_error {c : Command} {m m' : InferMachine}
    (h : (m.prepare c.mode).control c.ctrl (actKey c.key) c.mode = .error m') :
    c.drive m = ⟨m', false, []⟩ := by
  rw [Command.drive, driveRobotWorking, h]

/-- A command leaves a quiet machine quiet. If it performs a transition it executes it
once, and otherwise it executes nothing and moves neither status nor mode. -/
theorem drive_spec (c : Command) {m : InferMachine} (h : Quiet m) :
    Quiet (c.drive m).machine ∧
    ((c.Performs m (c.drive m).machine ∧ (c.drive m).accepted = true ∧
        (c.drive m).calls =
          [⟨(c.drive m).machine.mode, (c.drive m).machine.status, c.ctrl = .start⟩]) ∨
      (¬c.Performs m (c.drive m).machine ∧ (c.drive m).calls = [] ∧
        (c.drive m).machine.workState = (m.prepare c.mode).workState)) := by
  have hq := h.prepare c.mode
  have hc := (m.prepare c.mode).controlled c.ctrl (actKey c.key) c.mode
  generalize hr : (m.prepare c.mode).control c.ctrl (actKey c.key) c.mode = r at hc
  cases hc with
  | shifted hshift =>
    rw [drive_of_ok hr]
    refine ⟨quiet_updataInferMachine _, .inl ⟨hshift, rfl, ?_⟩⟩
    rw [updataInferMachine_calls, enter, if_pos rfl, hq.jobNew, Bool.false_or]
    rfl
  | ignored hno =>
    rw [drive_of_ok hr]
    refine ⟨quiet_updataInferMachine _, .inr ⟨hno _, ?_, rfl⟩⟩
    rw [updataInferMachine_calls, if_neg (by simp [hq.exec])]
  | rejected hno =>
    rw [drive_of_error hr]
    exact ⟨hq, .inr ⟨hno _, rfl, rfl⟩⟩
  | failed hno =>
    rw [drive_of_error hr]
    exact ⟨⟨hq.exec, hq.jobNew, hq.statExec, hq.statNew⟩, .inr ⟨hno _, rfl, rfl⟩⟩

/-! ## Runs -/

/-- The call of `DriveRobotWorking` an operation makes, if it makes one. -/
def command (m : InferMachine) : Operation → Option Command
  | .missionCommand mc => if mc.hasMzp then some ⟨mc.cmd, mc.key, mc.mode, mc.user⟩ else none
  | .taskShift ctrl => some ⟨ctrl, .actNull, m.workMode, .logic⟩
  | .pushPowerKey who => some ⟨.start, .power, .cleanGlobal, who⟩
  | .pushPowerKeyLong who => some ⟨.start, .dock, .cleanGlobal, who⟩
  | .pushHomeKey who => some ⟨.start, .dock, .cleanGlobal, who⟩
  | .pushHomeKeyLong who => some ⟨.start, .dock, .cleanGlobal, who⟩
  | _ => none

/-- An operation that makes a call has its effect and no other. A task shift plans once
more, and finds nothing to do. -/
theorem step_of_command {m : InferMachine} (h : Quiet m) {op : Operation} {c : Command}
    (hc : m.command op = some c) : m.step op = (c.drive m).effect := by
  cases op with
  | missionCommand mc =>
    simp only [command, Option.ite_none_right_eq_some, Option.some.injEq] at hc
    obtain ⟨hmzp, rfl⟩ := hc
    simp [step, driveMission, hmzp, Command.drive]
  | taskShift ctrl =>
    obtain rfl := Option.some.inj hc
    have hq := (drive_spec ⟨ctrl, .actNull, m.workMode, .logic⟩ h).1
    simp only [Command.drive] at hq
    simp only [step, driveRobotShiftWork, hq.inferPlanWorkingFlow_eq, List.append_nil]
    rfl
  | pushPowerKey | pushPowerKeyLong | pushHomeKey | pushHomeKeyLong =>
    obtain rfl := Option.some.inj hc
    rfl
  | eventOnDock | eventChargeFull | updataBattery | updataFan | updataFlow | updataBoost | start =>
    cases hc

/-- A mission command without its zones is left alone. -/
theorem step_missionCommand_of_none {m : InferMachine} {mc : MissionCommand}
    (hc : m.command (.missionCommand mc) = none) : m.step (.missionCommand mc) = (m, []) := by
  have hmzp : mc.hasMzp = false := by simpa [command] using hc
  simp [step, driveMission, hmzp, Drive.effect]

/-- An operation that makes none executes nothing. -/
theorem step_of_no_command {m : InferMachine} (h : Quiet m) {op : Operation}
    (hc : m.command op = none) : Quiet (m.step op).1 ∧ (m.step op).2 = [] := by
  cases op with
  | missionCommand mc =>
    rw [step_missionCommand_of_none hc]
    exact ⟨h, rfl⟩
  | taskShift | pushPowerKey | pushPowerKeyLong | pushHomeKey | pushHomeKeyLong => cases hc
  | eventOnDock | eventChargeFull => exact ⟨quiet_updataInferMachine _, rfl⟩
  | start =>
    refine ⟨quiet_updataInferMachine _, ?_⟩
    simp [step, start, updataInferMachine_calls, h.exec]
  | updataBattery | updataFan | updataFlow | updataBoost =>
    refine ⟨quiet_inferPlanWorkingFlow _, if_neg ?_⟩
    simp [isNeedExecJob, h.statExec]

/-- What one operation executes : the transition its command performs, once, with the
status and mode it leads to and as a new job if it is a START, and nothing if there is no
command, or one that is rejected or performs no transition. Such a command moves neither
status nor mode. -/
structure ExecutesOnce (t : Machine.Step InferMachine Operation (List RobotWork)) : Prop where
  transition : ∀ c, t.before.command t.input = some c → c.Performs t.before t.after →
    t.output = [⟨t.after.mode, t.after.status, c.ctrl = .start⟩]
  otherwise : (∀ c, t.before.command t.input = some c → ¬c.Performs t.before t.after) →
    t.output = []
  rejected : ∀ c, t.before.command t.input = some c → (c.drive t.before).accepted = false →
    t.output = []
  unmoved : ∀ c, t.before.command t.input = some c → ¬c.Performs t.before t.after →
    t.after.workState = (t.before.prepare c.mode).workState

theorem step_spec (m : InferMachine) (op : Operation) (h : Quiet m) :
    Quiet (m.step op).1 ∧ ExecutesOnce ⟨m, op, (m.step op).1, (m.step op).2⟩ := by
  rcases hc : m.command op with _ | c
  · obtain ⟨hq, hcalls⟩ := step_of_no_command h hc
    refine ⟨hq, ?_, fun _ => hcalls, ?_, ?_⟩ <;>
    · intro c hc'
      simp [hc] at hc'
  · have hone : ∀ c', m.command op = some c' → c' = c := fun c' hc' =>
      Option.some.inj (hc'.symm.trans hc)
    rw [step_of_command h hc]
    obtain ⟨hq, ⟨hp, hacc, hcalls⟩ | ⟨hp, hcalls, hwork⟩⟩ := drive_spec c h
    · refine ⟨hq, ?_, fun hno => absurd hp (hno c hc), ?_, ?_⟩
      · intro c' hc' _
        rw [hone c' hc']
        exact hcalls
      · intro c' hc' hrej
        rw [hone c' hc', hacc] at hrej
        cases hrej
      · intro c' hc' hno
        rw [hone c' hc'] at hno
        exact absurd hp hno
    · refine ⟨hq, ?_, fun _ => hcalls, fun _ _ _ => hcalls, ?_⟩
      · intro c' hc' hp'
        rw [hone c' hc'] at hp'
        exact absurd hp' hp
      · intro c' hc' _
        rw [hone c' hc']
        exact hwork

/-- Over every run of an initialised machine, whatever `work_mode_` holds at first, each
operation executes its transition once and nothing else. -/
theorem execRobotWork_exactly_once (w : CleanMode) (ops : List Operation) :
    ∀ t ∈ Machine.trace step (init { workMode := w }) ops, ExecutesOnce t :=
  Machine.forall_trace Quiet step_spec ops (quiet_init w)

/-- The power key starts an automatic clean. -/
theorem execRobotWork_exactly_once_powerKey :
    ExecutesOnce ⟨init { workMode := .cleanGlobal }, .pushPowerKey .key,
      (step (init { workMode := .cleanGlobal }) (.pushPowerKey .key)).1,
      [⟨.autoClean, .working, true⟩]⟩ :=
  execRobotWork_exactly_once .cleanGlobal [.pushPowerKey .key, .updataBattery 50] _
    (List.mem_cons_self ..)

end InferMachine

end Mastiff.Brain

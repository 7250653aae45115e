import Mastiff.JobExecution

/-!
# What a command leaves

`DriveRobotWorking` repairs a pending machine, stores the clean mode and only then decides
whether it accepts. `rejected_leaves` says what a rejected command leaves of every
reachable machine, `changesNothing_iff` when this is the machine as it was, `jobAsAsked_iff`
when a START gets the job it asks for, and `reports_iff` when the returned value tells whether
there was a transition.

The invariant is that between operations the status is one of the four the switch
distinguishes, no job is docking, and the two pending flags agree (`Settled`).
-/

set_option linter.unusedSectionVars false

namespace Mastiff.Brain

open Machine

/-- The controls that have a branch of their own in `DriveRobotWorking`. -/
def ControlType.handled : ControlType → Bool
  | .start | .pause | .resume | .restart | .finish => true
  | _ => false

namespace InferMachine

/-- The machine after `Init` and a run of operations, whatever `work_mode_` held at first. -/
def reached (w : CleanMode) (ops : List Operation) : InferMachine :=
  (run step (init { workMode := w }) ops).1

/-! ## Settled machines -/

/-- A machine between operations. -/
structure Settled (m : InferMachine) : Prop where
  status : m.status = .nowork ∨ m.status = .pausing ∨ m.status = .working ∨ m.status = .stopwork
  mode : m.mode ≠ .docking
  pending : m.statusPending = m.modePending

theorem settled_init (w : CleanMode) : Settled (init { workMode := w }) :=
  ⟨.inl rfl, by simp [init], rfl⟩

variable {m : InferMachine}

theorem prepare_of_not_pending (h : m.isPending = false) (mode : CleanMode) :
    m.prepare mode = { m with workMode := mode } := by
  rw [prepare, h, if_neg (by simp)]

/-- A pending machine whose flags agree is repaired. -/
theorem Settled.prepare_of_pending (hs : Settled m) (h : m.isPending = true) (mode : CleanMode) :
    m.prepare mode =
      { m with
        status := .nowork
        mode := .standBy
        statusPending := false
        modePending := false
        workMode := mode } := by
  have hboth : m.statusPending = true := by
    have hp := h
    rw [isPending, hs.pending, Bool.or_self, ← hs.pending] at hp
    exact hp
  rw [prepare, if_pos h, fixModeStatus, if_neg (by simp [hboth])]

theorem Settled.prepare (hs : Settled m) (mode : CleanMode) : Settled (m.prepare mode) := by
  cases h : m.isPending with
  | false =>
    rw [prepare_of_not_pending h]
    exact ⟨hs.status, hs.mode, hs.pending⟩
  | true =>
    rw [hs.prepare_of_pending h]
    exact ⟨.inl rfl, by simp, rfl⟩

/-- The normalised key is the power key, whatever was pushed. -/
theorem actKey_eq (key : ActKeyType) : actKey key = .power := by
  rw [actKey]
  split_ifs with h
  · rfl
  · push Not at h
    exact h.1

/-- Under the power key no job becomes a docking one. -/
theorem robotModeDeduction_ne_docking (h : m.mode ≠ .docking) (mode : CleanMode) :
    m.robotModeDeduction .power mode ≠ .docking := by
  cases mode <;> simp [robotModeDeduction, h]

/-- A transition leads to a job at hand or to the end of one. -/
theorem shift_status_cases {asked : RobotMode} {ctrl : ControlType} {s s' : WorkState}
    (h : Shift asked ctrl s s') :
    s'.status = .pausing ∨ s'.status = .working ∨ s'.status = .stopwork := by
  cases h <;> simp

/-- A transition leads to the mode asked for or to stand-by. -/
theorem shift_mode_cases {asked : RobotMode} {ctrl : ControlType} {s s' : WorkState}
    (h : Shift asked ctrl s s') : s'.mode = asked ∨ s'.mode = .standBy := by
  cases h <;> simp

/-! ## The switch on a settled machine -/

/-- A START is accepted with the deduced mode, or the job at hand has that mode. -/
theorem Settled.controlStart_cases (hs : Settled m) (act : ActKeyType) (mode : CleanMode) :
    m.controlStart act mode = .ok (m.enter .start ⟨.working, m.robotModeDeduction act mode⟩) ∨
      m.controlStart act mode = .error m ∧ m.robotModeDeduction act mode = m.mode := by
  rw [controlStart]
  rcases hs.status with h | h | h | h
  · simp only [h, startJob_eq_enter h]
    exact .inl trivial
  · simp only [h, startJob_eq_enter h]
    split_ifs with hmode
    · exact .inr ⟨rfl, hmode⟩
    · exact .inl rfl
  · simp only [h, startJob_eq_enter h]
    split_ifs with hmode
    · exact .inr ⟨rfl, hmode⟩
    · exact .inl rfl
  · simp only [h, startJob_eq_enter h]
    exact .inl trivial

/-- A control without a branch makes the machine pending. -/
theorem control_of_not_handled {ctrl : ControlType} (h : ctrl.handled = false) (act : ActKeyType)
    (mode : CleanMode) : m.control ctrl act mode = m.controlDefault := by
  cases ctrl <;> first | rfl | simp [ControlType.handled] at h

/-- A branch of the switch that rejects a command changes nothing. -/
theorem Settled.control_of_handled (hs : Settled m) {ctrl : ControlType} {act : ActKeyType}
    {mode : CleanMode} {m' : InferMachine} (h : ctrl.handled = true)
    (he : m.control ctrl act mode = .error m') : m' = m := by
  cases ctrl with
  | start =>
    rcases hs.controlStart_cases act mode with hc | ⟨hc, -⟩ <;> rw [control, hc] at he
    · cases he
    · exact (Except.error.inj he).symm
  | pause =>
    rcases hs.status with h | h | h | h <;> simp only [control, controlPause, h] at he
    case inr.inr.inl =>
      split_ifs at he
      exact (Except.error.inj he).symm
    all_goals exact (Except.error.inj he).symm
  | resume =>
    rcases hs.status with h | h | h | h <;> simp only [control, controlResume, h] at he
    case inr.inl => split_ifs at he
    all_goals exact (Except.error.inj he).symm
  | finish =>
    rcases hs.status with h | h | h | h <;> simp only [control, controlFinish, h] at he
    case inl => exact (Except.error.inj he).symm
    case inr.inr.inr => exact (Except.error.inj he).symm
    all_goals cases he
  | restart =>
    rcases hs.status with h | h | h | h <;> simp only [control, controlRestart, h] at he
    all_goals exact (Except.error.inj he).symm
  | sentinel | process | query | none | unnamed => simp [ControlType.handled] at h

/-- A machine without a job accepts a START. -/
theorem accepted_start {c : Command} (hc : c.ctrl = .start)
    (h : (m.prepare c.mode).status = .nowork) : (c.drive m).accepted = true := by
  have hcontrol : (m.prepare c.mode).control c.ctrl (actKey c.key) c.mode =
      .ok ((m.prepare c.mode).startJob .nowork
        ((m.prepare c.mode).robotModeDeduction (actKey c.key) c.mode)) := by
    rw [hc, control, controlStart, h]
  rw [drive_of_ok hcontrol]

/-- A machine without a job rejects every other command. -/
theorem rejected_of_nowork {c : Command} (hc : c.ctrl ≠ .start)
    (h : (m.prepare c.mode).status = .nowork) : (c.drive m).accepted = false := by
  have hcontrol : ∃ m', (m.prepare c.mode).control c.ctrl (actKey c.key) c.mode = .error m' := by
    cases hctrl : c.ctrl with
    | start => exact absurd hctrl hc
    | pause => exact ⟨_, by rw [control, controlPause, h]⟩
    | resume => exact ⟨_, by rw [control, controlResume, h]⟩
    | finish => exact ⟨_, by rw [control, controlFinish, h]⟩
    | restart => exact ⟨_, by rw [control, controlRestart, h]⟩
    | sentinel | process | query | none | unnamed =>
      exact ⟨_, by rw [control_of_not_handled rfl, controlDefault]⟩
  obtain ⟨m', hr⟩ := hcontrol
  rw [drive_of_error hr]

/-! ## Runs of settled machines -/

theorem Settled.drive (hs : Settled m) (c : Command) : Settled (c.drive m).machine := by
  have hp := hs.prepare c.mode
  have hmode : (m.prepare c.mode).robotModeDeduction (actKey c.key) c.mode ≠ .docking := by
    rw [actKey_eq]
    exact robotModeDeduction_ne_docking hp.mode _
  have hc := (m.prepare c.mode).controlled c.ctrl (actKey c.key) c.mode
  generalize hr : (m.prepare c.mode).control c.ctrl (actKey c.key) c.mode = r at hc
  cases hc with
  | @shifted w hshift =>
    rw [drive_of_ok hr]
    refine ⟨.inr (shift_status_cases hshift), ?_, hp.pending⟩
    change w.mode ≠ _
    rcases shift_mode_cases hshift with h | h
    · rwa [h]
    · simp [h]
  | ignored =>
    rw [drive_of_ok hr]
    exact ⟨hp.status, hp.mode, hp.pending⟩
  | rejected =>
    rw [drive_of_error hr]
    exact hp
  | failed =>
    rw [drive_of_error hr]
    exact ⟨hp.status, hp.mode, rfl⟩

/-- The machine is quiet and settled between operations. -/
theorem settled_step (m : InferMachine) (op : Operation) (h : Quiet m ∧ Settled m) :
    Quiet (m.step op).1 ∧ Settled (m.step op).1 := by
  obtain ⟨hq, hs⟩ := h
  refine ⟨(step_spec m op hq).1, ?_⟩
  rcases hc : m.command op with _ | c
  · cases op with
    | missionCommand mc =>
      rw [step_missionCommand_of_none hc]
      exact hs
    | taskShift | pushPowerKey | pushPowerKeyLong | pushHomeKey | pushHomeKeyLong => cases hc
    | eventOnDock dock =>
      refine ⟨.inl rfl, ?_, hs.pending⟩
      change (if dock then (if m.full then RobotMode.chargeEnd else .charging) else .standBy) ≠ _
      split_ifs <;> simp
    | eventChargeFull full =>
      refine ⟨?_, ?_, hs.pending⟩
      · cases full
        · exact hs.status
        · exact .inl rfl
      · change (if full then RobotMode.chargeEnd else if m.mode = .chargeEnd then .charging
          else m.mode) ≠ _
        split_ifs
        · simp
        · simp
        · exact hs.mode
    | updataBattery | updataFan | updataFlow | updataBoost | start =>
      exact ⟨hs.status, hs.mode, hs.pending⟩
  · rw [step_of_command hq hc]
    exact hs.drive c

theorem settled_reached (w : CleanMode) (ops : List Operation) :
    Quiet (reached w ops) ∧ Settled (reached w ops) := by
  unfold reached
  generalize hm : init { workMode := w } = m
  have h : Quiet m ∧ Settled m := hm ▸ ⟨quiet_init w, settled_init w⟩
  clear hm
  induction ops generalizing m with
  | nil => exact h
  | cons op ops ih => exact ih _ (settled_step m op h)

/-! ## Rejected commands -/

/-- What a rejected command leaves of `m`. Whatever `work_mode_` becomes, a branch of the
switch that rejects changes nothing, a control without a branch marks the machine as
pending, and a pending machine has been repaired. -/
structure RejectedLeaves (c : Command) (m m' : InferMachine) : Prop where
  handled : m.isPending = false → c.ctrl.handled = true → { m' with workMode := m.workMode } = m
  unhandled : m.isPending = false → c.ctrl.handled = false →
    { m' with workMode := m.workMode } = { m with statusPending := true, modePending := true }
  repaired : m.isPending = true → { m' with workMode := m.workMode } =
    { m with
      status := .nowork
      mode := .standBy
      statusPending := !c.ctrl.handled
      modePending := !c.ctrl.handled }
  sameMode : m.isPending = false → c.ctrl.handled = true → c.mode = m.workMode → m' = m

/-- A rejected command of a control with a branch leaves the prepared machine. -/
theorem Settled.drive_rejected (hs : Settled m) {c : Command}
    (h : (c.drive m).accepted = false) : (c.drive m).machine =
      if c.ctrl.handled then m.prepare c.mode
      else { m.prepare c.mode with statusPending := true, modePending := true } := by
  cases hr : (m.prepare c.mode).control c.ctrl (actKey c.key) c.mode with
  | ok m' =>
    rw [drive_of_ok hr] at h
    cases h
  | error m' =>
    rw [drive_of_error hr]
    cases hh : c.ctrl.handled with
    | true =>
      rw [(hs.prepare c.mode).control_of_handled hh hr]
      rfl
    | false =>
      rw [control_of_not_handled hh, controlDefault] at hr
      rw [← Except.error.inj hr]
      rfl

/-- After a command the machine is pending exactly when the control has no branch. -/
theorem Settled.drive_isPending (hs : Settled m) (c : Command) :
    (c.drive m).machine.isPending = !c.ctrl.handled := by
  have hprep : ∀ mode, (m.prepare mode).isPending = false := by
    intro mode
    cases h : m.isPending with
    | false => rw [prepare_of_not_pending h, ← h, isPending, isPending]
    | true => rw [hs.prepare_of_pending h, isPending, Bool.or_self]
  have hc := (m.prepare c.mode).controlled c.ctrl (actKey c.key) c.mode
  cases hh : c.ctrl.handled with
  | false =>
    have hr := control_of_not_handled (m := m.prepare c.mode) hh (actKey c.key) c.mode
    rw [drive_of_error hr]
    rfl
  | true =>
    generalize hr : (m.prepare c.mode).control c.ctrl (actKey c.key) c.mode = r at hc
    cases hc with
    | shifted | ignored =>
      rw [drive_of_ok hr]
      exact hprep c.mode
    | rejected =>
      rw [drive_of_error hr]
      exact hprep c.mode
    | failed =>
      have heq := (hs.prepare c.mode).control_of_handled hh hr
      rw [drive_of_error hr, heq]
      exact hprep c.mode

/-- Every rejected command of every run leaves the machine so. -/
theorem rejected_leaves (w : CleanMode) (ops : List Operation) (c : Command)
    (h : (c.drive (reached w ops)).accepted = false) :
    RejectedLeaves c (reached w ops) (c.drive (reached w ops)).machine := by
  obtain ⟨-, hs⟩ := settled_reached w ops
  have hm := hs.drive_rejected h
  refine ⟨fun hp hh => ?_, fun hp hh => ?_, fun hp => ?_, fun hp hh hmode => ?_⟩
  · rw [hm, hh, prepare_of_not_pending hp]
    rfl
  · rw [hm, hh, prepare_of_not_pending hp]
    rfl
  · rw [hm, hs.prepare_of_pending hp]
    cases c.ctrl.handled <;> rfl
  · rw [hm, hh, prepare_of_not_pending hp, hmode]
    rfl

/-- A command that the machine at hand takes : a START, unless the job at hand has the mode it
asks for ; a PAUSE of the running job by its mode ; a RESUME of a paused job ; and a FINISH of
either. -/
def Command.Fits (c : Command) (m : InferMachine) : Prop :=
  match c.ctrl with
  | .start => m.isPending = true ∨ m.status = .nowork ∨ m.status = .stopwork ∨
      m.robotModeDeduction .power c.mode ≠ m.mode
  | .pause => m.isPending = false ∧ m.status = .working ∧
      m.robotModeDeduction .power c.mode = m.mode
  | .resume => m.isPending = false ∧ m.status = .pausing
  | .finish => m.isPending = false ∧ (m.status = .pausing ∨ m.status = .working)
  | _ => False

/-- A command that can be rejected without a trace : it has the clean mode at hand, and either a
branch of its own and no pending machine to be repaired, or none and a pending machine that is
repaired already. -/
def Command.Traceless (c : Command) (m : InferMachine) : Prop :=
  c.mode = m.workMode ∧
    if c.ctrl.handled then m.isPending = false
    else m.isPending = true ∧ m.status = .nowork ∧ m.mode = .standBy

/-- The switch accepts a command exactly if it fits, on a machine that is not pending. -/
theorem Settled.exists_control_iff (hs : Settled m) {c : Command} (hp : m.isPending = false) :
    (∃ m', m.control c.ctrl .power c.mode = .ok m') ↔ c.Fits m := by
  unfold Command.Fits
  cases hctrl : c.ctrl with
  | start =>
    rcases hs.status with h | h | h | h <;> simp only [control, controlStart, h]
    case inl | inr.inr.inr => simp
    all_goals split_ifs with hmode <;> simp [hp, hmode]
  | pause =>
    rcases hs.status with h | h | h | h <;> simp only [control, controlPause, h]
    case inr.inr.inl =>
      split_ifs with hmode
      · simp [hmode]
      · simp [hp, not_not.1 hmode]
    all_goals simp
  | resume =>
    rcases hs.status with h | h | h | h <;> simp only [control, controlResume, h]
    case inr.inl => split_ifs <;> simp [hp]
    all_goals simp
  | finish =>
    rcases hs.status with h | h | h | h <;> simp [control, controlFinish, h, hp]
  | restart =>
    rcases hs.status with h | h | h | h <;> simp [control, controlRestart, h]
  | sentinel | process | query | none | unnamed =>
    rw [control_of_not_handled rfl, controlDefault]
    simp

/-- A settled machine accepts a command exactly if it fits. -/
theorem Settled.accepted_iff (hs : Settled m) (c : Command) :
    (c.drive m).accepted = true ↔ c.Fits m := by
  cases hp : m.isPending with
  | false =>
    have hfits : c.Fits (m.prepare c.mode) ↔ c.Fits m := by
      rw [prepare_of_not_pending hp]
      rfl
    have hprep : (m.prepare c.mode).isPending = false := by
      rw [prepare_of_not_pending hp]
      exact hp
    rw [← hfits, ← (hs.prepare c.mode).exists_control_iff hprep, ← actKey_eq c.key]
    cases hr : (m.prepare c.mode).control c.ctrl (actKey c.key) c.mode with
    | ok m' =>
      rw [drive_of_ok hr]
      exact iff_of_true rfl ⟨m', rfl⟩
    | error m' =>
      rw [drive_of_error hr]
      exact iff_of_false (by simp) (fun ⟨_, h⟩ => by cases h)
  | true =>
    -- a repaired machine has no job
    have hstatus : (m.prepare c.mode).status = .nowork := by rw [hs.prepare_of_pending hp]
    by_cases hc : c.ctrl = .start
    · refine iff_of_true (accepted_start hc hstatus) ?_
      rw [Command.Fits, hc]
      exact .inl hp
    · refine iff_of_false (by rw [rejected_of_nowork hc hstatus]; simp) ?_
      rw [Command.Fits]
      split <;> simp_all

/-- Every member a command can change is as before. -/
structure KeepsMembers (m m' : InferMachine) : Prop where
  status : m'.status = m.status
  mode : m'.mode = m.mode
  lastStatus : m'.lastStatus = m.lastStatus
  lastMode : m'.lastMode = m.lastMode
  workMode : m'.workMode = m.workMode
  statusPending : m'.statusPending = m.statusPending
  modePending : m'.modePending = m.modePending
  exec : m'.exec = m.exec
  jobNew : m'.jobNew = m.jobNew

/-- Every member is as before, and so is what an internal PAUSE, RESUME or FINISH does. -/
structure ChangesNothing (m m' : InferMachine) : Prop where
  members : KeepsMembers m m'
  shifts : ∀ ctrl, ctrl = .pause ∨ ctrl = .resume ∨ ctrl = .finish →
    m'.driveRobotShiftWork ctrl = m.driveRobotShiftWork ctrl

/-- A rejected command changes nothing exactly if it can be rejected without a trace. -/
theorem RejectedLeaves.unchanged_iff (hs : Settled m) {c : Command} {m' : InferMachine}
    (h : RejectedLeaves c m m') (hpending : m'.isPending = !c.ctrl.handled)
    (hmode : m'.workMode = c.mode) : ChangesNothing m m' ↔ c.Traceless m := by
  have hsame : m' = m → ChangesNothing m m' := by
    rintro rfl
    exact ⟨⟨rfl, rfl, rfl, rfl, rfl, rfl, rfl, rfl, rfl⟩, fun _ _ => rfl⟩
  -- the mark of a pending machine is a member
  have hmark : ChangesNothing m m' → m.isPending = !c.ctrl.handled := fun hk => by
    rw [← hpending, isPending, isPending, hk.members.statusPending, hk.members.modePending]
  unfold Command.Traceless
  constructor
  · intro hk
    refine ⟨hmode.symm.trans hk.members.workMode, ?_⟩
    have hp := hmark hk
    cases hh : c.ctrl.handled with
    | true =>
      rw [hh] at hp
      rw [if_pos rfl]
      exact hp
    | false =>
      rw [hh] at hp
      have hrep := h.repaired hp
      rw [if_neg (by simp)]
      exact ⟨hp, hk.members.status.symm.trans (congrArg status hrep),
        hk.members.mode.symm.trans (congrArg mode hrep)⟩
  · rintro ⟨hwork, hcase⟩
    cases hh : c.ctrl.handled with
    | true =>
      rw [hh, if_pos rfl] at hcase
      exact hsame (h.sameMode hcase hh hwork)
    | false =>
      rw [hh, if_neg (by simp)] at hcase
      obtain ⟨hp, hstatus, hstand⟩ := hcase
      have hrep := h.repaired hp
      rw [isPending, hs.pending, Bool.or_self] at hp
      have hflag := hs.pending.trans hp
      refine hsame ?_
      calc m' = { { m' with workMode := m.workMode } with workMode := c.mode } := by
            rw [← hmode]
        _ = m := by
            rw [hrep, hwork]
            cases m
            simp_all

/-- After every run, a command that is rejected changes nothing exactly when it can be rejected
without a trace ; one that fits is not rejected. -/
theorem changesNothing_iff (w : CleanMode) (ops : List Operation) (c : Command) :
    ((c.drive (reached w ops)).accepted = false →
        ChangesNothing (reached w ops) (c.drive (reached w ops)).machine) ↔
      c.Fits (reached w ops) ∨ c.Traceless (reached w ops) := by
  obtain ⟨-, hs⟩ := settled_reached w ops
  rw [← hs.accepted_iff c]
  cases hacc : (c.drive (reached w ops)).accepted with
  | true => simp
  | false =>
    have hmode : (c.drive (reached w ops)).machine.workMode = c.mode := by
      rw [hs.drive_rejected hacc]
      cases c.ctrl.handled <;> rfl
    have hiff := (rejected_leaves w ops c hacc).unchanged_iff hs (hs.drive_isPending c) hmode
    simpa using hiff

/-- The rejected PAUSE leaves its clean mode behind, and an internal PAUSE that would have
been obeyed is rejected after it. -/
theorem not_changesNothing :
    (¬∀ (w : CleanMode) (ops : List Operation) (c : Command),
      (c.drive (reached w ops)).accepted = false →
        ChangesNothing (reached w ops) (c.drive (reached w ops)).machine) ∧
    ((reached .cleanGlobal [.pushPowerKey .key]).driveRobotShiftWork .pause).1.status = .pausing ∧
    ((Command.drive ⟨.pause, .power, .cleanArea, .iot⟩
      (reached .cleanGlobal [.pushPowerKey .key])).machine.driveRobotShiftWork
        .pause).1.status = .working := by
  refine ⟨fun h => ?_, by decide, by decide⟩
  have hw := (h .cleanGlobal [.pushPowerKey .key] ⟨.pause, .power, .cleanArea, .iot⟩
    (by decide)).members.workMode
  exact absurd hw (by decide)

/-! ## The job a START asks for -/

/-- The mode a START asks for : docking with the dock key, and otherwise the working mode
of its clean mode under the power key. -/
def Command.wanted (c : Command) (m : InferMachine) : RobotMode :=
  (m.prepare c.mode).robotModeDeduction (if c.key = .dock then .dock else .power) c.mode

/-- An accepted START runs the job it asks for, and one that asks for another mode than
the one at hand is accepted. -/
structure JobAsAsked (c : Command) (m m' : InferMachine) : Prop where
  mode : (c.drive m).accepted = true → m'.mode = c.wanted m
  accepted : c.wanted m ≠ (m.prepare c.mode).mode → (c.drive m).accepted = true

theorem Settled.jobAsAsked_start_iff (hs : Settled m) {c : Command} (hc : c.ctrl = .start) :
    JobAsAsked c m (c.drive m).machine ↔ c.key ≠ .dock := by
  have hp := hs.prepare c.mode
  constructor
  · rintro ⟨hmode, hacc⟩ hkey
    have hw : c.wanted m = .docking := by rw [Command.wanted, if_pos hkey, robotModeDeduction]
    have hdock := hmode (hacc (by rw [hw]; exact hp.mode.symm))
    exact (hs.drive c).mode (hdock.trans hw)
  · intro hkey
    have hw : c.wanted m = (m.prepare c.mode).robotModeDeduction (actKey c.key) c.mode := by
      rw [Command.wanted, if_neg hkey, actKey_eq]
    have hcontrol : (m.prepare c.mode).control c.ctrl (actKey c.key) c.mode =
        (m.prepare c.mode).controlStart (actKey c.key) c.mode := by
      rw [hc, control]
    rcases hp.controlStart_cases (actKey c.key) c.mode with hr | ⟨hr, hsame⟩
    · rw [← hcontrol] at hr
      rw [drive_of_ok hr]
      refine ⟨fun _ => hw.symm, fun _ => ?_⟩
      rw [drive_of_ok hr]
    · rw [← hcontrol] at hr
      refine ⟨fun hacc => ?_, fun hne => absurd (hw.trans hsame) hne⟩
      rw [drive_of_error hr] at hacc
      cases hacc

/-- Over every run, a START gets the job it asks for exactly when it does not carry the
dock key. -/
theorem jobAsAsked_iff (w : CleanMode) (ops : List Operation) :
    ∀ t ∈ trace step (init { workMode := w }) ops, ∀ c, t.before.command t.input = some c →
      c.ctrl = .start → (JobAsAsked c t.before t.after ↔ c.key ≠ .dock) := by
  refine forall_trace (fun m => Quiet m ∧ Settled m) (fun m op h => ?_) ops
    ⟨quiet_init w, settled_init w⟩
  refine ⟨settled_step m op h, fun c hc hstart => ?_⟩
  dsimp only at hc ⊢
  rw [step_of_command h.1 hc]
  exact h.2.jobAsAsked_start_iff hstart

/-- The power key of a new machine. -/
theorem jobAsAsked_iff_powerKey :
    JobAsAsked ⟨.start, .power, .cleanGlobal, .key⟩ (init { workMode := .cleanGlobal })
        (step (init { workMode := .cleanGlobal }) (.pushPowerKey .key)).1 ↔
      ActKeyType.power ≠ .dock :=
  jobAsAsked_iff .cleanGlobal [.pushPowerKey .key] _ (List.mem_cons_self ..) _ rfl rfl

/-- The home key of a new machine starts an automatic clean. -/
theorem not_jobAsAsked :
    ¬∀ (w : CleanMode) (ops : List Operation),
      ∀ t ∈ trace step (init { workMode := w }) ops, ∀ c, t.before.command t.input = some c →
        c.ctrl = .start → JobAsAsked c t.before t.after := by
  intro h
  have hmode := (h .cleanGlobal [.pushHomeKey .key] _ (List.mem_cons_self ..) _ rfl rfl).mode
    (by decide)
  exact absurd hmode (by decide)

/-! ## What a command reports -/

/-- `exec_` as the switch leaves it, before `UpdataInferMachine` publishes and clears it. -/
def Command.requests (c : Command) (m : InferMachine) : Bool :=
  match (m.prepare c.mode).control c.ctrl (actKey c.key) c.mode with
  | .error m' => m'.exec
  | .ok m' => m'.exec

/-- The returned value tells whether there was a transition, and whether a job execution
was requested. -/
structure Reports (c : Command) (m : InferMachine) : Prop where
  performs : (c.drive m).accepted = true ↔ c.Performs m (c.drive m).machine
  requests : (c.drive m).accepted = true ↔ c.requests m = true

/-- The command resumes a paused job under the mode of another. -/
def Command.ResumesOther (c : Command) (m : InferMachine) : Prop :=
  c.ctrl = .resume ∧ m.isPending = false ∧ m.status = .pausing ∧
    m.robotModeDeduction .power c.mode ≠ m.mode

instance (c : Command) (m : InferMachine) : Decidable (c.ResumesOther m) :=
  inferInstanceAs (Decidable (_ ∧ _ ∧ _ ∧ _))

/-- The switch accepts a command without a transition in the branch of RESUME only. -/
theorem Settled.control_ignored_iff (hs : Settled m) (hexec : m.exec = false)
    (ctrl : ControlType) (act : ActKeyType) (mode : CleanMode) :
    m.control ctrl act mode = .ok m ↔
      ctrl = .resume ∧ m.status = .pausing ∧ m.robotModeDeduction act mode ≠ m.mode := by
  -- a transition sets `exec_`
  have hshift : ∀ last status asked, m.shiftTo last status asked ≠ m := fun _ _ _ h =>
    absurd ((congrArg exec h).trans hexec) (by simp [shiftTo])
  have hstart : ∀ last asked, m.startJob last asked ≠ m := fun _ _ h =>
    absurd ((congrArg exec h).trans hexec) (by simp [startJob, shiftTo])
  cases ctrl with
  | start =>
    rcases hs.status with h | h | h | h <;> simp only [control, controlStart, h]
    · simp [hstart]
    · split_ifs <;> simp [hstart]
    · split_ifs <;> simp [hstart]
    · simp [hstart]
  | pause =>
    rcases hs.status with h | h | h | h <;> simp only [control, controlPause, h]
    case inr.inr.inl => split_ifs <;> simp [hshift]
    all_goals simp
  | resume =>
    rcases hs.status with h | h | h | h <;> simp only [control, controlResume, h]
    case inr.inl =>
      split_ifs with hmode
      · simp [hmode]
      · simp [hmode, hshift]
    all_goals simp
  | finish =>
    rcases hs.status with h | h | h | h <;> simp [control, controlFinish, h, hshift]
  | restart =>
    rcases hs.status with h | h | h | h <;> simp [control, controlRestart, h]
  | sentinel | process | query | none | unnamed =>
    rw [control_of_not_handled rfl, controlDefault]
    simp

/-- The branch of RESUME that a machine gets to, before it is prepared. -/
theorem Settled.resumesOther_iff (hs : Settled m) (c : Command) :
    c.ResumesOther m ↔ c.ctrl = .resume ∧ (m.prepare c.mode).status = .pausing ∧
      (m.prepare c.mode).robotModeDeduction (actKey c.key) c.mode ≠ (m.prepare c.mode).mode := by
  unfold Command.ResumesOther
  rw [actKey_eq]
  cases h : m.isPending with
  | false =>
    rw [prepare_of_not_pending h]
    simp [robotModeDeduction]
  | true =>
    rw [hs.prepare_of_pending h]
    simp

/-- A command of a settled machine reports what it did, unless it resumes a paused job
under the mode of another. -/
theorem Settled.reports_command_iff (hs : Settled m) (hq : Quiet m) (c : Command) :
    Reports c m ↔ ¬c.ResumesOther m := by
  have hexec := (hq.prepare c.mode).exec
  rw [hs.resumesOther_iff, ← (hs.prepare c.mode).control_ignored_iff hexec]
  have hc := (m.prepare c.mode).controlled c.ctrl (actKey c.key) c.mode
  generalize hr : (m.prepare c.mode).control c.ctrl (actKey c.key) c.mode = r at hc
  cases hc with
  | @shifted w hshift =>
    refine iff_of_true ⟨?_, ?_⟩ fun h => ?_
    · rw [drive_of_ok hr]
      exact iff_of_true rfl hshift
    · rw [drive_of_ok hr, Command.requests, hr]
      exact iff_of_true rfl rfl
    · have henter := congrArg exec (Except.ok.inj h)
      rw [hexec] at henter
      cases henter
  | ignored hno =>
    refine iff_of_false (fun h => ?_) (not_not.2 rfl)
    have hperforms := h.performs
    rw [drive_of_ok hr] at hperforms
    exact hno _ (hperforms.1 rfl)
  | rejected hno =>
    refine iff_of_true ⟨?_, ?_⟩ (by simp)
    · rw [drive_of_error hr]
      exact iff_of_false (by simp) (hno _)
    · rw [drive_of_error hr, Command.requests, hr]
      exact iff_of_false (by simp) (by simp [hexec])
  | failed hno =>
    refine iff_of_true ⟨?_, ?_⟩ (by simp [controlDefault])
    · rw [drive_of_error hr]
      exact iff_of_false (by simp) (hno _)
    · rw [drive_of_error hr, Command.requests, hr]
      exact iff_of_false (by simp) (by simp [controlDefault, hexec])

/-- After every run, the returned value of a command tells whether there was a transition
exactly when it does not resume a paused job under the mode of another. -/
theorem reports_iff (w : CleanMode) (ops : List Operation) (c : Command) :
    Reports c (reached w ops) ↔ ¬c.ResumesOther (reached w ops) :=
  (settled_reached w ops).2.reports_command_iff (settled_reached w ops).1 c

/-- A paused automatic clean answers a RESUME of an area clean with `true` and stays as it
is, but for its clean mode. -/
theorem not_reports :
    ¬∀ (w : CleanMode) (ops : List Operation) (c : Command), Reports c (reached w ops) := by
  intro h
  have hr := (h .cleanGlobal
    [.pushPowerKey .key, .missionCommand ⟨.pause, .power, .iot, .cleanGlobal, true⟩]
    ⟨.resume, .power, .cleanArea, .iot⟩).requests
  exact absurd (hr.1 (by decide)) (by decide)

end InferMachine

end Mastiff.Brain

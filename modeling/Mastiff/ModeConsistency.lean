import Mastiff.JobControl

/-!
# Mode and status, mode and charge

Which mode the machine is in is decided by commands, the dock and the charger ; its status
and `full_` are decided by some of them only. `workingMode_iff` : over a run a machine with
a job at hand has a working mode exactly when every START names the mode of its job.
`chargeState_iff` : over a run the two charging modes agree with `full_` exactly when no
battery report clears it behind the back of a machine that has finished charging.
-/

set_option linter.unusedSectionVars false

namespace Mastiff.Brain

open Machine

/-- The modes of a job. -/
def RobotMode.isWorking : RobotMode → Bool
  | .autoClean | .areaClean | .roomClean | .pointClean | .remoteClean | .localClean | .trackClean
  | .alongWall | .docking => true
  | _ => false

/-- The clean mode names a job. -/
def CleanMode.named : CleanMode → Bool
  | .sentinel | .unnamed _ _ => false
  | _ => true

namespace WorkState

/-- A job at hand has a working mode. -/
def WorkingMode (w : WorkState) : Prop :=
  w.status = .working ∨ w.status = .pausing → w.mode.isWorking = true

/-- Without a job the mode is none of a job. -/
def IdleMode (w : WorkState) : Prop :=
  w.status = .nowork ∨ w.status = .stopwork → w.mode.isWorking = false

end WorkState

namespace InferMachine

/-- Every START names the mode of its job, or asks with the sentinel for the one at hand. -/
def StartsNamed (m : InferMachine) (op : Operation) : Prop :=
  ∀ c, m.command op = some c → c.ctrl = .start →
    c.mode.named = true ∨ c.mode = .sentinel ∧ m.AtJob

/-- The charging modes agree with `full_`. -/
structure ChargeState (m : InferMachine) : Prop where
  chargeEnd : m.mode = .chargeEnd → m.full = true
  charging : m.mode = .charging → m.full = false

/-- The operation is not a battery report below the full level after the end of charging. -/
def KeepsFull (m : InferMachine) (op : Operation) : Prop :=
  ∀ bat, op = .updataBattery bat → bat ≠ 100 → m.mode ≠ .chargeEnd

variable {m : InferMachine}

/-! ## The mode of a command -/

theorem prepare_mode_cases (m : InferMachine) (mode : CleanMode) :
    (m.prepare mode).workState = m.workState ∨
      (m.prepare mode).workState = ⟨.nowork, .standBy⟩ := by
  rw [prepare, fixModeStatus]
  split_ifs
  · exact .inl rfl
  · exact .inr rfl
  · exact .inl rfl

/-- A command asks for the prepared mode or for one that is not about charging. -/
theorem asked_cases (c : Command) (m : InferMachine) :
    c.asked m = (m.prepare c.mode).mode ∨ c.asked m ≠ .chargeEnd ∧ c.asked m ≠ .charging := by
  rw [Command.asked, actKey_eq]
  cases c.mode <;> simp [robotModeDeduction]

/-- A command leaves the mode, or one that is not about charging. -/
theorem drive_mode_cases (hq : Quiet m) (c : Command) :
    (c.drive m).machine.mode = m.mode ∨
      (c.drive m).machine.mode ≠ .chargeEnd ∧ (c.drive m).machine.mode ≠ .charging := by
  have hprep : (m.prepare c.mode).mode = m.mode ∨ (m.prepare c.mode).mode = .standBy := by
    rcases m.prepare_mode_cases c.mode with h | h
    · exact .inl (congrArg WorkState.mode h)
    · exact .inr (congrArg WorkState.mode h)
  have hmode : (c.drive m).machine.mode = c.asked m ∨ (c.drive m).machine.mode = .standBy ∨
      (c.drive m).machine.mode = (m.prepare c.mode).mode := by
    rcases (drive_spec c hq).2 with ⟨hperf, -⟩ | ⟨-, -, hsame⟩
    · rcases shift_mode_cases hperf with h | h
      · exact .inl h
      · exact .inr (.inl h)
    · exact .inr (.inr (congrArg WorkState.mode hsame))
  rcases hmode with h | h | h
  · rw [h]
    rcases asked_cases c m with ha | ha
    · rw [ha]
      rcases hprep with hp | hp
      · exact .inl hp
      · exact .inr (by simp [hp])
    · exact .inr ha
  · exact .inr (by simp [h])
  · rw [h]
    rcases hprep with hp | hp
    · exact .inl hp
    · exact .inr (by simp [hp])

/-- A command leaves `full_`. -/
theorem drive_full (c : Command) (m : InferMachine) : (c.drive m).machine.full = m.full := by
  have hprep : (m.prepare c.mode).full = m.full := by
    rw [prepare, fixModeStatus]
    split_ifs <;> rfl
  have hc := (m.prepare c.mode).controlled c.ctrl (actKey c.key) c.mode
  generalize hr : (m.prepare c.mode).control c.ctrl (actKey c.key) c.mode = r at hc
  cases hc with
  | shifted | ignored =>
    rw [drive_of_ok hr]
    exact hprep
  | rejected | failed =>
    rw [drive_of_error hr]
    exact hprep

/-! ## Working modes -/

theorem workingMode_prepare (h : m.workState.WorkingMode) (mode : CleanMode) :
    (m.prepare mode).workState.WorkingMode := by
  rcases m.prepare_mode_cases mode with hw | hw
  · rwa [hw]
  · rw [hw]
    intro hj
    simp at hj

theorem idleMode_prepare (h : m.workState.IdleMode) (mode : CleanMode) :
    (m.prepare mode).workState.IdleMode := by
  rcases m.prepare_mode_cases mode with hw | hw
  · rwa [hw]
  · rw [hw]
    intro _
    rfl

theorem idleMode_of_shift {asked : RobotMode} {ctrl : ControlType} {w w' : WorkState}
    (h : Shift asked ctrl w w') : w'.IdleMode := by
  cases h <;> simp [WorkState.IdleMode, RobotMode.isWorking]

/-- A command leaves a machine without a job without a working mode. -/
theorem idleMode_drive (hq : Quiet m) (h : m.workState.IdleMode) (c : Command) :
    (c.drive m).machine.workState.IdleMode := by
  rcases (drive_spec c hq).2 with ⟨hperf, -⟩ | ⟨-, -, hsame⟩
  · exact idleMode_of_shift hperf
  · rw [hsame]
    exact idleMode_prepare h c.mode

/-- Other transitions than a START go on in the mode at hand, or end the job. -/
theorem workingMode_of_shift {asked : RobotMode} {ctrl : ControlType} {w w' : WorkState}
    (hctrl : ctrl ≠ .start) (hw : w.WorkingMode) (h : Shift asked ctrl w w') : w'.WorkingMode := by
  cases h with
  | startNowork | startStopwork | startPausing | startWorking => exact absurd rfl hctrl
  | pause => exact fun _ => hw (.inl rfl)
  | resume => exact fun _ => hw (.inr rfl)
  | finishPausing | finishWorking =>
    intro hj
    simp at hj

/-- A START leads to the mode it asks for, if the job at hand has not that mode already. -/
theorem Settled.drive_start (hs : Settled m) {c : Command} (hc : c.ctrl = .start) :
    (c.drive m).machine.workState = ⟨.working, c.asked m⟩ ∨
      ((m.prepare c.mode).status = .working ∨ (m.prepare c.mode).status = .pausing) ∧
        c.asked m = (m.prepare c.mode).mode ∧
        (c.drive m).machine.workState = (m.prepare c.mode).workState := by
  have hstay : (∀ w, ¬Shift (c.asked m) c.ctrl (m.prepare c.mode).workState w) →
      ((m.prepare c.mode).status = .working ∨ (m.prepare c.mode).status = .pausing) ∧
        c.asked m = (m.prepare c.mode).mode := by
    intro hno
    have hstart := hno ⟨.working, c.asked m⟩
    rw [hc, shift_start_iff] at hstart
    rcases (hs.prepare c.mode).status with h | h | h | h <;> simp_all [workState]
  have hcontrol := (m.prepare c.mode).controlled c.ctrl (actKey c.key) c.mode
  generalize hr : (m.prepare c.mode).control c.ctrl (actKey c.key) c.mode = r at hcontrol
  cases hcontrol with
  | shifted hshift =>
    rw [drive_of_ok hr]
    rw [hc] at hshift
    exact .inl (shift_start_iff.1 hshift).1
  | ignored hno =>
    rw [drive_of_ok hr]
    exact .inr ⟨(hstay hno).1, (hstay hno).2, rfl⟩
  | rejected hno | failed hno =>
    rw [drive_of_error hr]
    exact .inr ⟨(hstay hno).1, (hstay hno).2, rfl⟩

/-- The mode a START asks for is a working one exactly when the command names it, or finds
it at hand. -/
theorem Settled.asked_isWorking_iff (hs : Settled m) (hw : m.workState.WorkingMode)
    (hi : m.workState.IdleMode) (c : Command) :
    (c.asked m).isWorking = true ↔ c.mode.named = true ∨ c.mode = .sentinel ∧ m.AtJob := by
  rw [Command.asked, actKey_eq]
  cases hmode : c.mode with
  | cleanGlobal | cleanArea | cleanRoom | cleanPoint | cleanRemote | cleanLocal | cleanTrack
  | cleanEdgewise => simp [robotModeDeduction, RobotMode.isWorking, CleanMode.named]
  | unnamed => simp [robotModeDeduction, RobotMode.isWorking, CleanMode.named]
  | sentinel =>
    simp only [robotModeDeduction, CleanMode.named, true_and, false_or, Bool.false_eq_true]
    cases hp : m.isPending with
    | true =>
      rw [hs.prepare_of_pending hp]
      simp [RobotMode.isWorking, AtJob, hp]
    | false =>
      rw [prepare_of_not_pending hp]
      constructor
      · intro hmode
        refine ⟨?_, hp⟩
        by_contra hno
        have hidle := hi (by rcases hs.status with h | h | h | h <;> simp_all [workState])
        exact absurd (hmode.symm.trans hidle) (by simp)
      · rintro ⟨hj, -⟩
        exact hw hj

/-- A command leaves a job at hand a working mode unless it starts one without. -/
theorem workingMode_drive_iff (h : Quiet m ∧ Settled m) (hi : m.workState.IdleMode)
    (hw : m.workState.WorkingMode) (c : Command) :
    (c.drive m).machine.workState.WorkingMode ↔
      (c.ctrl = .start → c.mode.named = true ∨ c.mode = .sentinel ∧ m.AtJob) := by
  obtain ⟨hq, hs⟩ := h
  have hprep := workingMode_prepare hw c.mode
  by_cases hc : c.ctrl = .start
  · rw [← hs.asked_isWorking_iff hw hi]
    rcases hs.drive_start hc with h | ⟨hj, hasked, h⟩
    · rw [h]
      exact ⟨fun hmode _ => hmode (.inl rfl), fun hmode _ => hmode hc⟩
    · rw [h, hasked]
      exact iff_of_true hprep (fun _ => hprep hj)
  · refine iff_of_true ?_ (fun h => absurd h hc)
    rcases (drive_spec c hq).2 with ⟨hperf, -⟩ | ⟨-, -, hsame⟩
    · exact workingMode_of_shift hc hprep hperf
    · rwa [hsame]

/-! ## One operation

`Moves` lists what an operation can do to the status, the mode and `full_`.
-/

/-- What an operation leaves of a machine, as far as status, mode and `full_` go. -/
inductive Moves (m : InferMachine) : Operation → InferMachine → Prop
  | command {op : Operation} {c : Command} (h : m.command op = some c) :
      Moves m op (c.drive m).machine
  | dock (dock : Bool) : Moves m (.eventOnDock dock) (m.eventOnDock dock).1
  | chargeFull (full : Bool) : Moves m (.eventChargeFull full) (m.eventChargeFull full).1
  | battery (bat : BitVec 32) : Moves m (.updataBattery bat) (m.updataBattery bat).1
  | rest {op : Operation} {m' : InferMachine} (hc : m.command op = none)
      (hop : ∀ bat, op ≠ .updataBattery bat)
      (hw : m'.workState = m.workState) (hfull : m'.full = m.full) : Moves m op m'

theorem moves_step (hq : Quiet m) (op : Operation) : Moves m op (m.step op).1 := by
  rcases hc : m.command op with _ | c
  · cases op with
    | missionCommand mc =>
      rw [step_missionCommand_of_none hc]
      exact .rest hc (by simp) rfl rfl
    | taskShift | pushPowerKey | pushPowerKeyLong | pushHomeKey | pushHomeKeyLong => cases hc
    | eventOnDock dock => exact .dock dock
    | eventChargeFull full => exact .chargeFull full
    | updataBattery bat => exact .battery bat
    | updataFan | updataFlow | updataBoost | start => exact .rest hc (by simp) rfl rfl
  · rw [step_of_command hq hc]
    exact .command hc

theorem eventOnDock_mode (m : InferMachine) (dock : Bool) :
    (m.eventOnDock dock).1.mode =
      if dock then (if m.full then .chargeEnd else .charging) else .standBy :=
  rfl

/-- The end of charging ends the job, and its revocation is charging. -/
theorem eventChargeFull_workState (m : InferMachine) (full : Bool) :
    (m.eventChargeFull full).1.workState =
      if full then ⟨.nowork, .chargeEnd⟩
      else ⟨m.status, if m.mode = .chargeEnd then .charging else m.mode⟩ := by
  cases full <;> rfl

/-! ## Working modes over a run -/

/-- A machine between operations, without a working mode if it has no job. -/
def Sound (m : InferMachine) : Prop :=
  (Quiet m ∧ Settled m) ∧ m.workState.IdleMode

theorem sound_init (w : CleanMode) : Sound (init { workMode := w }) :=
  ⟨⟨quiet_init w, settled_init w⟩, fun _ => rfl⟩

theorem idleMode_moves {op : Operation} {m' : InferMachine} (h : Sound m) (hm : Moves m op m') :
    m'.workState.IdleMode := by
  obtain ⟨⟨hq, -⟩, hi⟩ := h
  cases hm with
  | command => exact idleMode_drive hq hi _
  | dock dock =>
    intro _
    change (m.eventOnDock dock).1.mode.isWorking = false
    rw [eventOnDock_mode]
    split_ifs <;> rfl
  | chargeFull full =>
    rw [eventChargeFull_workState]
    split_ifs with hfull hmode
    · exact fun _ => rfl
    · exact fun _ => rfl
    · exact hi
  | battery => exact hi
  | rest _ _ hw => rwa [hw]

theorem sound_step (m : InferMachine) (op : Operation) (h : Sound m) : Sound (m.step op).1 :=
  ⟨settled_step m op h.1, idleMode_moves h (moves_step h.1.1 op)⟩

/-- An operation leaves a job at hand a working mode exactly when it starts none without. -/
theorem workingMode_step_iff (h : Sound m) (hw : m.workState.WorkingMode) (op : Operation) :
    (m.step op).1.workState.WorkingMode ↔ StartsNamed m op := by
  have hm := moves_step h.1.1 op
  generalize (m.step op).1 = m' at hm
  cases hm with
  | @command _ c hc =>
    rw [workingMode_drive_iff h.1 h.2 hw, StartsNamed, hc]
    simp
  | dock dock =>
    refine iff_of_true (fun hj => ?_) (fun c hc => by simp [InferMachine.command] at hc)
    rcases hj with hj | hj <;> cases hj
  | chargeFull full =>
    refine iff_of_true ?_ (fun c hc => by simp [InferMachine.command] at hc)
    rw [eventChargeFull_workState]
    split_ifs with hfull hmode
    · intro hj
      simp at hj
    · intro hj
      have hwork := hw hj
      rw [show m.workState.mode = .chargeEnd from hmode] at hwork
      cases hwork
    · exact hw
  | battery => exact iff_of_true hw (fun c hc => by simp [InferMachine.command] at hc)
  | rest hc _ hsame =>
    rw [hsame]
    exact iff_of_true hw (fun c hc' => by simp [hc] at hc')

/-- Over every run from `Init`, a job at hand has a working mode after every operation
exactly when every START names the mode of its job or finds it at hand. -/
theorem workingMode_iff (w : CleanMode) (ops : List Operation) :
    (∀ t ∈ trace step (init { workMode := w }) ops, t.after.workState.WorkingMode) ↔
      ∀ t ∈ trace step (init { workMode := w }) ops, StartsNamed t.before t.input := by
  refine forall_trace_iff Sound sound_step (fun m op h hw => workingMode_step_iff h hw op) ops
    (sound_init w) ?_
  intro hj
  simp [init, workState] at hj

/-- A START whose mission has the sentinel as its clean mode works in stand-by, and one
with a number that names no clean mode in no mode at all. -/
theorem not_workingMode :
    ¬∀ (w : CleanMode) (ops : List Operation),
      ∀ t ∈ trace step (init { workMode := w }) ops, t.after.workState.WorkingMode := by
  intro h
  have hmode := h .cleanGlobal [.missionCommand ⟨.start, .power, .iot, .sentinel, true⟩] _
    (List.mem_cons_self ..) (.inl rfl)
  exact absurd hmode (by decide)

/-! ## Charging over a run -/

/-- A report of the battery takes `full_` away from a machine that has finished charging exactly
if it is below the full level. -/
theorem chargeState_updataBattery_iff (h : ChargeState m) (bat : BitVec 32) :
    ChargeState (m.updataBattery bat).1 ↔ (bat ≠ 100 → m.mode ≠ .chargeEnd) := by
  have hmode : (m.updataBattery bat).1.mode = m.mode := rfl
  have hfull : (m.updataBattery bat).1.full = if bat ≠ 100 then false else m.full := rfl
  by_cases hbat : bat = 100
  · rw [if_neg (by simp [hbat])] at hfull
    exact iff_of_true ⟨by rw [hmode, hfull]; exact h.chargeEnd,
      by rw [hmode, hfull]; exact h.charging⟩ (fun hne => absurd hbat hne)
  · rw [if_pos hbat] at hfull
    constructor
    · intro hs _ hend
      have htrue := hs.chargeEnd (hmode.trans hend)
      rw [hfull] at htrue
      cases htrue
    · intro hk
      exact ⟨fun hend => absurd (hmode.symm.trans hend) (hk hbat), fun _ => hfull⟩

/-- An operation leaves the charging modes and `full_` agreeing exactly when it does not
take `full_` away from a machine that has finished charging. -/
theorem chargeState_step_iff (hq : Quiet m) (h : ChargeState m) (op : Operation) :
    ChargeState (m.step op).1 ↔ KeepsFull m op := by
  have hm := moves_step hq op
  generalize (m.step op).1 = m' at hm
  cases hm with
  | @command _ c hc =>
    refine iff_of_true ?_ (fun bat hop => by simp [hop, InferMachine.command] at hc)
    have hfull := drive_full c m
    rcases drive_mode_cases hq c with hmode | hmode
    · exact ⟨by rw [hmode, hfull]; exact h.chargeEnd, by rw [hmode, hfull]; exact h.charging⟩
    · exact ⟨fun hend => absurd hend hmode.1, fun hch => absurd hch hmode.2⟩
  | dock dock =>
    refine iff_of_true ?_ (fun bat hop => by cases hop)
    have hmode := eventOnDock_mode m dock
    have hfull : (m.eventOnDock dock).1.full = m.full := rfl
    constructor <;> rw [hmode, hfull] <;> cases dock <;> cases m.full <;> simp
  | chargeFull full =>
    refine iff_of_true ?_ (fun bat hop => by cases hop)
    have hmode := congrArg WorkState.mode (eventChargeFull_workState m full)
    have hfull : (m.eventChargeFull full).1.full = full := rfl
    change (m.eventChargeFull full).1.mode = _ at hmode
    cases full with
    | true => exact ⟨fun _ => hfull, fun hch => by rw [hmode] at hch; cases hch⟩
    | false =>
      refine ⟨fun hend => ?_, fun _ => hfull⟩
      rw [hmode, if_neg (by simp)] at hend
      split_ifs at hend with hwas
      exact absurd hend hwas
  | battery bat =>
    have hkeeps : KeepsFull m (.updataBattery bat) ↔ (bat ≠ 100 → m.mode ≠ .chargeEnd) :=
      ⟨fun hk => hk bat rfl, fun hk bat' hop => by cases hop; exact hk⟩
    exact (chargeState_updataBattery_iff h bat).trans hkeeps.symm
  | rest _ hop hw hfull =>
    have hmode := congrArg WorkState.mode hw
    change m'.mode = m.mode at hmode
    exact iff_of_true ⟨by rw [hmode, hfull]; exact h.chargeEnd,
      by rw [hmode, hfull]; exact h.charging⟩ (fun bat hbat => absurd hbat (hop bat))

/-- Over every run from `Init`, the charging modes agree with `full_` after every operation
exactly when no battery report below the full level comes after the end of charging. -/
theorem chargeState_iff (w : CleanMode) (ops : List Operation) :
    (∀ t ∈ trace step (init { workMode := w }) ops, ChargeState t.after) ↔
      ∀ t ∈ trace step (init { workMode := w }) ops, KeepsFull t.before t.input := by
  refine forall_trace_iff Quiet (fun m op hq => (step_spec m op hq).1)
    (fun m op hq h => chargeState_step_iff hq h op) ops (quiet_init w) ⟨?_, ?_⟩
  · intro h
    cases h
  · intro h
    cases h

/-- A machine that has finished charging, at 99 percent. -/
theorem not_chargeState :
    ¬∀ (w : CleanMode) (ops : List Operation),
      ∀ t ∈ trace step (init { workMode := w }) ops, ChargeState t.after := by
  intro h
  have hfull := (h .cleanGlobal [.eventChargeFull true, .updataBattery 99] _
    (List.mem_cons_of_mem _ (List.mem_cons_self ..))).chargeEnd rfl
  exact absurd hfull (by decide)

end InferMachine

end Mastiff.Brain

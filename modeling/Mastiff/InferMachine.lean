import Mastiff.Lib.Machine
import Mastiff.Lib.Bytes

/-!
# The infer machine

`InferMachine` (`cambrian/brain/infer_machine.{h,cc}`) holds the robot's status and mode
and decides which commands may change them. `ImplementHub` fills in its virtual functions
(`cambrian/brain/implement_hub.cc`) : `InferPlanWorkingFlow` reads the published status
message and, if its `exec` flag is set, calls `ExecRobotWork` of the business layer.

Every operation returns the machine it leaves and the `ExecRobotWork` calls it makes, in
order. The upward messages of the business layer and `SyncLocalStat` leave the machine
alone, and what is only logged is left out.
-/

set_option linter.unusedSectionVars false

open Bytes

namespace Mastiff.Brain

/-! ## Enumerations

An enumeration that a message carries may hold a number its list does not name.
-/

/-- `EE_CONTROL_TYPE`. -/
inductive ControlType
  | sentinel
  | start
  | process
  | pause
  | resume
  | restart
  | query
  | finish
  | none
  | unnamed (v : ℤ) (h : v < 0 ∨ 8 < v)
  deriving DecidableEq

/-- `EE_ACT_KEY_TYPE`, with the numbers 0, 1, 4 and 8. -/
inductive ActKeyType
  | sentinel
  | power
  | dock
  | actNull
  | unnamed (v : ℤ) (h : v ≠ 0 ∧ v ≠ 1 ∧ v ≠ 4 ∧ v ≠ 8)
  deriving DecidableEq

/-- `EE_CLEAN_MODE`. -/
inductive CleanMode
  | sentinel
  | cleanGlobal
  | cleanArea
  | cleanRoom
  | cleanPoint
  | cleanRemote
  | cleanLocal
  | cleanTrack
  | cleanEdgewise
  | unnamed (v : ℤ) (h : v < 0 ∨ 8 < v)
  deriving DecidableEq

/-- `EE_CMD_FROM_WHO`. -/
inductive CmdFromWho
  | sentinel
  | iot
  | rsv
  | key
  | h5
  | logic
  | simkey
  | null
  | unnamed (v : ℤ) (h : v < 0 ∨ 7 < v)
  deriving DecidableEq

/-- `EE_ROBOT_STATUS`. -/
inductive RobotStatus
  | sentinel
  | nowork
  | pausing
  | working
  | stopwork
  | null
  deriving DecidableEq

/-- `EE_ROBOT_MODE`. -/
inductive RobotMode
  | sentinel
  | autoClean
  | areaClean
  | roomClean
  | pointClean
  | remoteClean
  | localClean
  | trackClean
  | standBy
  | docking
  | charging
  | chargeEnd
  | inFault
  | dormant
  | alongWall
  | swiftMap
  | relocation
  | null
  deriving DecidableEq

/-- `EE_ERROR_TYPES`. -/
inductive ErrorTypes
  | sentinel
  | lwheelOpen
  | lwheelShort
  | rwheelOpen
  | rwheelShort
  | lpalletOpen
  | lpalletShort
  | rpalletOpen
  | rpalletShort
  | mbrushOpen
  | mbrushShort
  | sbrushOpen
  | sbrushShort
  | fanFault
  | pumpOpen
  | pumpShort
  | dropSensor
  | frontBump
  | lidarBump
  | superSonic
  | none
  deriving DecidableEq

/-! ## The machine -/

/-- The fields of the message `RobotModeStatus` that the machine publishes, with their
defaults. -/
structure RobotModeStatus where
  status : RobotStatus := .sentinel
  mode : RobotMode := .sentinel
  error : ErrorTypes := .sentinel
  battery : BitVec 32 := 0
  boost : Bool := false
  fan : BitVec 32 := 0
  flow : BitVec 32 := 0
  missionNew : Bool := false
  exec : Bool := false
  deriving DecidableEq

/-- The members of `InferMachine`, with their initialisers. `work_mode_` has none. -/
structure InferMachine where
  status : RobotStatus := .null
  statusPending : Bool := true
  lastStatus : RobotStatus := .null
  mode : RobotMode := .null
  modePending : Bool := true
  lastMode : RobotMode := .null
  workMode : CleanMode
  error : ErrorTypes := .none
  battery : BitVec 16 := -1
  fan : BitVec 16 := -1
  flow : BitVec 16 := -1
  boost : Bool := false
  exec : Bool := false
  jobNew : Bool := false
  full : Bool := false
  smModeStat : RobotModeStatus := {}
  deriving DecidableEq

/-- A call of `ExecRobotWork(mode, stat, is_new)`. -/
structure RobotWork where
  mode : RobotMode
  stat : RobotStatus
  isNew : Bool
  deriving DecidableEq

namespace InferMachine

/-- `Init`. -/
def init (m : InferMachine) : InferMachine :=
  { m with
    lastStatus := m.status
    lastMode := m.mode
    status := .nowork
    statusPending := false
    mode := .standBy
    modePending := false }

/-- `IsPending`. -/
def isPending (m : InferMachine) : Bool :=
  m.statusPending || m.modePending

/-- `FixModeStatus`. -/
def fixModeStatus (m : InferMachine) : InferMachine :=
  if !m.statusPending && m.modePending then m
  else
    { m with
      status := .nowork
      mode := .standBy
      statusPending := false
      modePending := false }

/-! ### Publishing and execution -/

/-- `IsNeedExecJob`, on the published message. -/
def isNeedExecJob (m : InferMachine) : Bool :=
  m.smModeStat.exec

/-- `IsNewJob`, on the published message. -/
def isNewJob (m : InferMachine) : Bool :=
  m.smModeStat.missionNew

/-- `RestoreJobState`. -/
def restoreJobState (m : InferMachine) : InferMachine :=
  { m with
    exec := false
    jobNew := false
    smModeStat := { m.smModeStat with exec := false, missionNew := false } }

/-- `ImplementHub::InferPlanWorkingFlow`. -/
def inferPlanWorkingFlow (m : InferMachine) : InferMachine × List RobotWork :=
  let calls := if m.isNeedExecJob then [⟨m.mode, m.status, m.isNewJob⟩] else []
  (m.restoreJobState, calls)

/-- The message `UpdataInferMachine` publishes. -/
def modeStat (m : InferMachine) : RobotModeStatus where
  status := m.status
  mode := m.mode
  error := m.error
  battery := m.battery.signExtend 32
  fan := m.fan.signExtend 32
  flow := m.flow.signExtend 32
  boost := m.boost
  exec := m.exec
  missionNew := m.jobNew

/-- `UpdataInferMachine`. -/
def updataInferMachine (m : InferMachine) : InferMachine × List RobotWork :=
  { m with smModeStat := m.modeStat }.inferPlanWorkingFlow

/-! ### Commands -/

/-- `RobotModeDeduction`. -/
def robotModeDeduction (m : InferMachine) (act : ActKeyType) (mode : CleanMode) : RobotMode :=
  match act with
  | .power =>
    match mode with
    | .cleanGlobal => .autoClean
    | .cleanArea => .areaClean
    | .cleanRoom => .roomClean
    | .cleanPoint => .pointClean
    | .cleanRemote => .remoteClean
    | .cleanLocal => .localClean
    | .cleanTrack => .trackClean
    | .cleanEdgewise => .alongWall
    | .sentinel => m.mode
    | .unnamed _ _ => .null
  | .dock => .docking
  | _ => .null

/-- The key `DriveRobotWorking` goes on with. -/
def actKey (oAct : ActKeyType) : ActKeyType :=
  if oAct ≠ .power ∨ oAct ≠ .dock then .power else oAct

/-- The assignments a transition makes : the state left, the state entered, and the
request to execute. -/
def shiftTo (m : InferMachine) (last status : RobotStatus) (mode : RobotMode) : InferMachine :=
  { m with
    lastStatus := last
    lastMode := m.mode
    status := status
    mode := mode
    exec := true }

/-- A transition to a new job. -/
def startJob (m : InferMachine) (last : RobotStatus) (mode : RobotMode) : InferMachine :=
  { m.shiftTo last .working mode with jobNew := true }

/-- The branch of `E_CTRL_TYPE_START`. In this and the next branches an `error` is a
`return false` with the machine as it is left there, and an `ok` is a `break`. -/
def controlStart (m : InferMachine) (act : ActKeyType) (mode : CleanMode) :
    Except InferMachine InferMachine :=
  match m.status with
  | .nowork => .ok (m.startJob .nowork (m.robotModeDeduction act mode))
  | .pausing =>
    if m.robotModeDeduction act mode = m.mode then .error m
    else .ok (m.startJob .pausing (m.robotModeDeduction act mode))
  | .working =>
    if m.robotModeDeduction act mode = m.mode then .error m
    else .ok (m.startJob .working (m.robotModeDeduction act mode))
  | .stopwork => .ok (m.startJob .stopwork (m.robotModeDeduction act mode))
  | _ => .ok m

/-- The branch of `E_CTRL_TYPE_PAUSE`. -/
def controlPause (m : InferMachine) (act : ActKeyType) (mode : CleanMode) :
    Except InferMachine InferMachine :=
  match m.status with
  | .nowork => .error m
  | .pausing => .error m
  | .working =>
    if m.robotModeDeduction act mode ≠ m.mode then .error m
    else .ok (m.shiftTo .working .pausing (m.robotModeDeduction act mode))
  | .stopwork => .error m
  | _ => .ok m

/-- The branch of `E_CTRL_TYPE_RESUME`. Another mode than the paused one is ignored, but
not rejected. -/
def controlResume (m : InferMachine) (act : ActKeyType) (mode : CleanMode) :
    Except InferMachine InferMachine :=
  match m.status with
  | .nowork => .error m
  | .pausing =>
    if m.robotModeDeduction act mode ≠ m.mode then .ok m
    else .ok (m.shiftTo .pausing .working (m.robotModeDeduction act mode))
  | .working => .error m
  | .stopwork => .error m
  | _ => .ok m

/-- The branch of `E_CTRL_TYPE_FINISH`. -/
def controlFinish (m : InferMachine) : Except InferMachine InferMachine :=
  match m.status with
  | .nowork => .error m
  | .pausing => .ok (m.shiftTo .pausing .stopwork .standBy)
  | .working => .ok (m.shiftTo .working .stopwork .standBy)
  | .stopwork => .error m
  | _ => .ok m

/-- The default branch. -/
def controlDefault (m : InferMachine) : Except InferMachine InferMachine :=
  .error { m with statusPending := true, modePending := true }

/-- The branch of `E_CTRL_TYPE_RESTART`, which has no `break` of its own. -/
def controlRestart (m : InferMachine) : Except InferMachine InferMachine :=
  match m.status with
  | .nowork => .error m
  | .pausing => .error m
  | .working => .error m
  | .stopwork => .error m
  | _ => m.controlDefault

/-- The switch of `DriveRobotWorking`. -/
def control (m : InferMachine) (ctrl : ControlType) (act : ActKeyType) (mode : CleanMode) :
    Except InferMachine InferMachine :=
  match ctrl with
  | .start => m.controlStart act mode
  | .pause => m.controlPause act mode
  | .resume => m.controlResume act mode
  | .finish => m.controlFinish
  | .restart => m.controlRestart
  | _ => m.controlDefault

/-- What a call of `DriveRobotWorking` leaves, returns and executes. -/
structure Drive where
  machine : InferMachine
  accepted : Bool
  calls : List RobotWork
  deriving DecidableEq

/-- What `DriveRobotWorking` does before the switch. -/
def prepare (m : InferMachine) (mode : CleanMode) : InferMachine :=
  { if m.isPending then m.fixModeStatus else m with workMode := mode }

/-- `DriveRobotWorking(ctrl, o_act, mode, who)`. -/
def driveRobotWorking (m : InferMachine) (ctrl : ControlType) (oAct : ActKeyType)
    (mode : CleanMode) (_who : CmdFromWho) : Drive :=
  match (m.prepare mode).control ctrl (actKey oAct) mode with
  | .error m => ⟨m, false, []⟩
  | .ok m => ⟨m.updataInferMachine.1, true, m.updataInferMachine.2⟩

end InferMachine

/-! ## Operations -/

/-- `MissionCommand`. Of the parameters only their presence is read. -/
structure MissionCommand where
  cmd : ControlType
  key : ActKeyType
  user : CmdFromWho
  mode : CleanMode
  hasMzp : Bool
  deriving DecidableEq

namespace InferMachine

/-- `DriveRobotWorking(mc)`. -/
def driveMission (m : InferMachine) (mc : MissionCommand) : Drive :=
  if !mc.hasMzp then ⟨m, false, []⟩
  else m.driveRobotWorking mc.cmd mc.key mc.mode mc.user

/-- `DriveRobotShiftWork`, with the control of the message's `task_shift`. -/
def driveRobotShiftWork (m : InferMachine) (ctrl : ControlType) : InferMachine × List RobotWork :=
  let d := m.driveRobotWorking ctrl .actNull m.workMode .logic
  let r := d.machine.inferPlanWorkingFlow
  (r.1, d.calls ++ r.2)

/-- `PushPowerKey`. -/
def pushPowerKey (m : InferMachine) (who : CmdFromWho) : Drive :=
  m.driveRobotWorking .start .power .cleanGlobal who

/-- `PushPowerKeyLong`. -/
def pushPowerKeyLong (m : InferMachine) (who : CmdFromWho) : Drive :=
  m.driveRobotWorking .start .dock .cleanGlobal who

/-- `PushHomeKey`. -/
def pushHomeKey (m : InferMachine) (who : CmdFromWho) : Drive :=
  m.driveRobotWorking .start .dock .cleanGlobal who

/-- `PushHomeKeyLong`. -/
def pushHomeKeyLong (m : InferMachine) (who : CmdFromWho) : Drive :=
  m.driveRobotWorking .start .dock .cleanGlobal who

/-- `EventOnDock`. -/
def eventOnDock (m : InferMachine) (dock : Bool) : InferMachine × List RobotWork :=
  { m with
    lastStatus := m.status
    lastMode := m.mode
    status := .nowork
    mode := if dock then (if m.full then .chargeEnd else .charging) else .standBy
    exec := false
    jobNew := false }.updataInferMachine

/-- `EventChargeFull`. -/
def eventChargeFull (m : InferMachine) (full : Bool) : InferMachine × List RobotWork :=
  { m with
    lastStatus := m.status
    lastMode := m.mode
    full := full
    status := if full then .nowork else m.status
    mode :=
      if full then .chargeEnd
      else if m.mode = RobotMode.chargeEnd then .charging
      else m.mode
    exec := false
    jobNew := false }.updataInferMachine

/-- `UpdataBattery`. -/
def updataBattery (m : InferMachine) (bat : U32) : InferMachine × List RobotWork :=
  { m with
    battery := bat.setWidth 16
    full := if bat ≠ 100 then false else m.full }.inferPlanWorkingFlow

/-- `UpdataFan`. -/
def updataFan (m : InferMachine) (fan : U32) : InferMachine × List RobotWork :=
  { m with fan := fan.setWidth 16 }.inferPlanWorkingFlow

/-- `UpdataFlow`. -/
def updataFlow (m : InferMachine) (flow : U32) : InferMachine × List RobotWork :=
  { m with flow := flow.setWidth 16 }.inferPlanWorkingFlow

/-- `UpdataBoost`. -/
def updataBoost (m : InferMachine) (boost : U32) : InferMachine × List RobotWork :=
  { m with boost := boost ≠ 0 }.inferPlanWorkingFlow

/-- `Start`. `InferQueryInfos` does nothing. -/
def start (m : InferMachine) : InferMachine × List RobotWork :=
  m.updataInferMachine

end InferMachine

/-- The public operations of the machine. -/
inductive Operation
  | missionCommand (mc : MissionCommand)
  | taskShift (ctrl : ControlType)
  | pushPowerKey (who : CmdFromWho)
  | pushPowerKeyLong (who : CmdFromWho)
  | pushHomeKey (who : CmdFromWho)
  | pushHomeKeyLong (who : CmdFromWho)
  | eventOnDock (dock : Bool)
  | eventChargeFull (full : Bool)
  | updataBattery (bat : U32)
  | updataFan (fan : U32)
  | updataFlow (flow : U32)
  | updataBoost (boost : U32)
  | start
  deriving DecidableEq

namespace InferMachine

/-- The machine and the calls of a `DriveRobotWorking`. -/
def Drive.effect (d : Drive) : InferMachine × List RobotWork :=
  (d.machine, d.calls)

/-- One operation. -/
def step (m : InferMachine) : Operation → InferMachine × List RobotWork
  | .missionCommand mc => (m.driveMission mc).effect
  | .taskShift ctrl => m.driveRobotShiftWork ctrl
  | .pushPowerKey who => (m.pushPowerKey who).effect
  | .pushPowerKeyLong who => (m.pushPowerKeyLong who).effect
  | .pushHomeKey who => (m.pushHomeKey who).effect
  | .pushHomeKeyLong who => (m.pushHomeKeyLong who).effect
  | .eventOnDock dock => m.eventOnDock dock
  | .eventChargeFull full => m.eventChargeFull full
  | .updataBattery bat => m.updataBattery bat
  | .updataFan fan => m.updataFan fan
  | .updataFlow flow => m.updataFlow flow
  | .updataBoost boost => m.updataBoost boost
  | .start => m.start

end InferMachine

end Mastiff.Brain

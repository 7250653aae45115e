import Mastiff.Lib.Machine

/-!
# Device status and power

`DeviceBaseItf` (`chassis/devices/device_base_itf.h`) takes a device through init, start,
stop, resume and close. Each operation calls a hook of the device, keeps the device status
and two flags, and commands the power switch if one is registered. The hooks' results are
inputs here, and what is only logged and the pause of `StartSensor` are left out.

`agrees_iff` : over a run, status, flags and switch agree after every operation exactly
when every operation `Keeps` them, a condition on the status before it and its hook.
-/

set_option linter.unusedSectionVars false

namespace Mastiff.Device

open Machine

/-! ## The device -/

/-- `EE_DEVICE_STATUS`. -/
inductive DeviceStatus
  | sentinel
  | uninitialized
  | initialized
  | working
  | idle
  | fault
  | shutdown
  | notexist
  deriving DecidableEq

/-- The members of `DeviceBaseItf`, the status in its sensor indicator, and what the power
switch was last commanded to, if it is registered and ever was. -/
structure DeviceBase where
  status : DeviceStatus := .uninitialized
  sensorInited : Bool := false
  sensorWorking : Bool := false
  sensorStoped : Bool := true
  hasSwitch : Bool
  power : Option Bool := none
  deriving DecidableEq

namespace DeviceBase

/-- `CtrlSwitch`. -/
def ctrlSwitch (d : DeviceBase) (sw : Bool) : DeviceBase :=
  if d.hasSwitch then { d with power := some sw } else d

/-- The assignments of a successful hook. -/
def setState (d : DeviceBase) (working : Bool) (status : DeviceStatus) : DeviceBase :=
  { d with sensorWorking := working, sensorStoped := !working, status := status }

/-- The members after a hook that returned `ret`. -/
def hooked (d : DeviceBase) (ret : ℤ) (working : Bool) (status : DeviceStatus) : DeviceBase :=
  if ret = 0 then d.setState working status else d

/-- `InitSensor`, of the device's own indicator or another one, `ret` the result of `Init`. -/
def initSensor (d : DeviceBase) (own : Bool) (ret : ℤ) : DeviceBase × ℤ :=
  if !own then (d, -1)
  else if ret = 0 then ({ d.setState false .initialized with sensorInited := true }, ret)
  else (d, ret)

/-- `StartSensor`. -/
def startSensor (d : DeviceBase) (ret : ℤ) : DeviceBase × ℤ :=
  let d := d.ctrlSwitch true
  if d.status = .uninitialized then (d, -1)
  else if d.status = .working then (d, 0)
  else (d.hooked ret true .working, ret)

/-- `StopSensor`. -/
def stopSensor (d : DeviceBase) (ret : ℤ) : DeviceBase × ℤ :=
  if d.status = .uninitialized then (d, -1)
  else if d.status = .idle then (d, 0)
  else ((d.hooked ret false .idle).ctrlSwitch false, ret)

/-- `ResumeSensor`. -/
def resumeSensor (d : DeviceBase) (ret : ℤ) : DeviceBase × ℤ :=
  if d.status = .uninitialized then (d, -1)
  else if d.status = .working then (d, 0)
  else ((d.hooked ret true .working).ctrlSwitch true, ret)

/-- `CloseSensor`. -/
def closeSensor (d : DeviceBase) (ret : ℤ) : DeviceBase × ℤ :=
  if d.status = .uninitialized then (d, -1)
  else if d.status = .shutdown then (d, -1)
  else ((d.hooked ret false .shutdown).ctrlSwitch false, ret)

end DeviceBase

/-- An operation, with the result of its hook if it comes to it. -/
inductive DeviceOp
  | initSensor (own : Bool) (ret : ℤ)
  | startSensor (ret : ℤ)
  | stopSensor (ret : ℤ)
  | resumeSensor (ret : ℤ)
  | closeSensor (ret : ℤ)
  deriving DecidableEq

namespace DeviceBase

/-- One operation, with its return value. -/
def step (d : DeviceBase) : DeviceOp → DeviceBase × ℤ
  | .initSensor own ret => d.initSensor own ret
  | .startSensor ret => d.startSensor ret
  | .stopSensor ret => d.stopSensor ret
  | .resumeSensor ret => d.resumeSensor ret
  | .closeSensor ret => d.closeSensor ret

/-! ## Agreement -/

/-- The status is working exactly when the flags say so. -/
structure FlagsAgree (d : DeviceBase) : Prop where
  working : d.status = .working ↔ d.sensorWorking = true
  stoped : d.status = .working ↔ d.sensorStoped = false

/-- Status and flags agree, and the switch, once commanded, was last commanded on exactly
when the device is working. -/
structure Agrees (d : DeviceBase) : Prop where
  flags : FlagsAgree d
  power : ∀ sw, d.power = some sw → (d.status = .working ↔ sw = true)

/-- Without a switch nothing is commanded, and with one no device works uncommanded. -/
structure Wired (d : DeviceBase) : Prop where
  unwired : d.hasSwitch = false → d.power = none
  commanded : d.hasSwitch = true → d.power = none → d.status ≠ .working

/-- The operation leaves the switch where the status is. With a switch, a working device is
not initialised again, a start finds an initialised device and a start or resume that
switches the power on leaves it working, and a failing stop or close does not find it
working. -/
def Keeps (d : DeviceBase) (op : DeviceOp) : Prop :=
  d.hasSwitch = true →
    match op with
    | .initSensor own ret => d.status = .working → own = true → ret ≠ 0
    | .startSensor ret => d.status ≠ .uninitialized ∧ (d.status = .working ∨ ret = 0)
    | .stopSensor ret => d.status = .working → ret = 0
    | .resumeSensor ret => d.status = .uninitialized ∨ d.status = .working ∨ ret = 0
    | .closeSensor ret => d.status = .working → ret = 0

variable {d : DeviceBase}

@[simp] theorem ctrlSwitch_status (d : DeviceBase) (sw : Bool) :
    (d.ctrlSwitch sw).status = d.status := by
  rw [ctrlSwitch]
  split_ifs <;> rfl

theorem ctrlSwitch_hooked (d : DeviceBase) (sw : Bool) (ret : ℤ) (working : Bool)
    (status : DeviceStatus) :
    (d.ctrlSwitch sw).hooked ret working status = (d.hooked ret working status).ctrlSwitch sw := by
  by_cases hret : ret = 0
  · rw [hooked, hooked, if_pos hret, if_pos hret, ctrlSwitch, ctrlSwitch]
    change _ = if d.hasSwitch then _ else _
    split_ifs <;> rfl
  · rw [hooked, hooked, if_neg hret, if_neg hret]

@[simp] theorem hooked_hasSwitch (d : DeviceBase) (ret : ℤ) (working : Bool)
    (status : DeviceStatus) : (d.hooked ret working status).hasSwitch = d.hasSwitch := by
  rw [hooked]
  split_ifs <;> rfl

@[simp] theorem hooked_power (d : DeviceBase) (ret : ℤ) (working : Bool)
    (status : DeviceStatus) : (d.hooked ret working status).power = d.power := by
  rw [hooked]
  split_ifs <;> rfl

theorem hooked_status (d : DeviceBase) (ret : ℤ) (working : Bool) (status : DeviceStatus) :
    (d.hooked ret working status).status = if ret = 0 then status else d.status := by
  rw [hooked]
  split_ifs <;> rfl

/-- A successful hook sets status and flags together. -/
theorem flagsAgree_setState (d : DeviceBase) {working : Bool} {status : DeviceStatus}
    (h : status = .working ↔ working = true) : FlagsAgree (d.setState working status) := by
  refine ⟨h, h.trans ?_⟩
  simp [setState]

/-- A hook keeps status and flags together, whether or not it succeeds. -/
theorem flagsAgree_hooked (hf : FlagsAgree d) {working : Bool} {status : DeviceStatus}
    (h : status = .working ↔ working = true) (ret : ℤ) :
    FlagsAgree (d.hooked ret working status) := by
  rw [hooked]
  split_ifs
  · exact flagsAgree_setState d h
  · exact hf

/-- Commanding the switch agrees with the status commanded. -/
theorem agrees_ctrlSwitch_iff (hf : FlagsAgree d) (hw : d.hasSwitch = false → d.power = none)
    (sw : Bool) :
    (d.ctrlSwitch sw).Agrees ↔ (d.hasSwitch = true → (d.status = .working ↔ sw = true)) := by
  cases hsw : d.hasSwitch with
  | false =>
    rw [ctrlSwitch, hsw, if_neg (by simp)]
    exact iff_of_true ⟨hf, fun sw hp => by rw [hw hsw] at hp; cases hp⟩ (fun h => by cases h)
  | true =>
    rw [ctrlSwitch, if_pos hsw]
    constructor
    · intro ha _
      exact ha.power sw rfl
    · intro h
      refine ⟨⟨hf.working, hf.stoped⟩, ?_⟩
      rintro sw' ⟨⟩
      exact h rfl

theorem wired_ctrlSwitch (h : d.hasSwitch = false → d.power = none) (sw : Bool) :
    Wired (d.ctrlSwitch sw) := by
  cases hsw : d.hasSwitch with
  | false =>
    rw [ctrlSwitch, hsw, if_neg (by simp)]
    exact ⟨h, fun h' => by simp [hsw] at h'⟩
  | true =>
    rw [ctrlSwitch, if_pos hsw]
    exact ⟨fun h' => by simp [hsw] at h', fun _ h' => by cases h'⟩

/-! ## Runs -/

theorem unwired_hooked (hw : Wired d) (ret : ℤ) (working : Bool) (status : DeviceStatus) :
    (d.hooked ret working status).hasSwitch = false →
      (d.hooked ret working status).power = none := by
  rw [hooked_hasSwitch, hooked_power]
  exact hw.unwired

theorem wired_step (d : DeviceBase) (op : DeviceOp) (hw : Wired d) : Wired (d.step op).1 := by
  cases op with
  | initSensor own ret =>
    rw [step, initSensor]
    split_ifs
    · exact hw
    · exact ⟨hw.unwired, fun _ _ => by simp [setState]⟩
    · exact hw
  | startSensor ret =>
    simp only [step, startSensor, ctrlSwitch_status, ctrlSwitch_hooked]
    split_ifs
    · exact wired_ctrlSwitch hw.unwired true
    · exact wired_ctrlSwitch hw.unwired true
    · exact wired_ctrlSwitch (unwired_hooked hw ret _ _) true
  | stopSensor ret =>
    rw [step, stopSensor]
    split_ifs
    · exact hw
    · exact hw
    · exact wired_ctrlSwitch (unwired_hooked hw ret _ _) false
  | resumeSensor ret =>
    rw [step, resumeSensor]
    split_ifs
    · exact hw
    · exact hw
    · exact wired_ctrlSwitch (unwired_hooked hw ret _ _) true
  | closeSensor ret =>
    rw [step, closeSensor]
    split_ifs
    · exact hw
    · exact hw
    · exact wired_ctrlSwitch (unwired_hooked hw ret _ _) false

/-- A hook, and then the switch. -/
theorem agrees_hooked_iff (hw : Wired d) (hf : FlagsAgree d) {working : Bool}
    {status : DeviceStatus} (h : status = .working ↔ working = true) (ret : ℤ) (sw : Bool) :
    ((d.hooked ret working status).ctrlSwitch sw).Agrees ↔
      (d.hasSwitch = true →
        ((if ret = 0 then status else d.status) = .working ↔ sw = true)) := by
  rw [agrees_ctrlSwitch_iff (flagsAgree_hooked hf h ret) (unwired_hooked hw ret _ _),
    hooked_hasSwitch, hooked_status]

/-- The switch is on exactly if the device works. -/
theorem power_iff_working (hw : Wired d) (ha : Agrees d) (hsw : d.hasSwitch = true) :
    d.power = some true ↔ d.status = .working := by
  constructor
  · intro hp
    exact (ha.power true hp).2 rfl
  · intro hs
    cases hp : d.power with
    | none => exact absurd hs (hw.commanded hsw hp)
    | some sw => rw [(ha.power sw hp).1 hs]

/-- A device that is initialised anew agrees exactly if its switch was not left on. -/
theorem agrees_initialized_iff (hw : Wired d) (ha : Agrees d) :
    Agrees { d.setState false .initialized with sensorInited := true } ↔
      (d.hasSwitch = true → d.status ≠ .working) := by
  have hinit : FlagsAgree (d.setState false .initialized) := flagsAgree_setState d (by simp)
  constructor
  · rintro ⟨-, hpower⟩ hsw hs
    have hoff := (hpower true ((power_iff_working hw ha hsw).2 hs)).2 rfl
    simp [setState] at hoff
  · intro h
    refine ⟨⟨hinit.working, hinit.stoped⟩, fun sw hp => ?_⟩
    change d.power = some sw at hp
    cases hsw : d.hasSwitch with
    | false =>
      rw [hw.unwired hsw] at hp
      cases hp
    | true =>
      cases sw with
      | false => simp [setState]
      | true => exact absurd ((power_iff_working hw ha hsw).1 hp) (h hsw)

/-- An operation goes on agreeing exactly when it `Keeps` the switch. -/
theorem agrees_step_iff (hw : Wired d) (ha : Agrees d) (op : DeviceOp) :
    Agrees (d.step op).1 ↔ Keeps d op := by
  have hf := ha.flags
  cases op with
  | initSensor own ret =>
    rw [step, initSensor]
    split_ifs with hown hret
    · exact iff_of_true ha (fun _ _ h => by simp [h] at hown)
    · have hown' : own = true := by simpa using hown
      refine (agrees_initialized_iff hw ha).trans (forall_congr' fun _ => ?_)
      simp [hown', hret]
    · exact iff_of_true ha (fun _ _ _ => hret)
  | startSensor ret =>
    simp only [step, startSensor, ctrlSwitch_status, ctrlSwitch_hooked]
    split_ifs with hu hwork
    · rw [agrees_ctrlSwitch_iff hf hw.unwired]
      simp [Keeps, hu]
    · rw [agrees_ctrlSwitch_iff hf hw.unwired]
      simp [Keeps, hwork]
    · rw [agrees_hooked_iff hw hf (by simp), Keeps]
      refine forall_congr' fun _ => ?_
      split_ifs with hret <;> simp [hu, hwork, hret]
  | stopSensor ret =>
    rw [step, stopSensor]
    split_ifs with hu hidle
    · exact iff_of_true ha (by simp [Keeps, hu])
    · exact iff_of_true ha (by simp [Keeps, hidle])
    · rw [agrees_hooked_iff hw hf (by simp), Keeps]
      refine forall_congr' fun _ => ?_
      split_ifs with hret <;> simp [hret]
  | resumeSensor ret =>
    rw [step, resumeSensor]
    split_ifs with hu hwork
    · exact iff_of_true ha (by simp [Keeps, hu])
    · exact iff_of_true ha (by simp [Keeps, hwork])
    · rw [agrees_hooked_iff hw hf (by simp), Keeps]
      refine forall_congr' fun _ => ?_
      split_ifs with hret <;> simp [hu, hwork, hret]
  | closeSensor ret =>
    rw [step, closeSensor]
    split_ifs with hu hshut
    · exact iff_of_true ha (by simp [Keeps, hu])
    · exact iff_of_true ha (by simp [Keeps, hshut])
    · rw [agrees_hooked_iff hw hf (by simp), Keeps]
      refine forall_congr' fun _ => ?_
      split_ifs with hret <;> simp [hret]

/-- Over every run of a new device, with or without a switch, status, flags and switch
agree after every operation exactly when every operation keeps them. -/
theorem agrees_iff (hasSwitch : Bool) (ops : List DeviceOp) :
    (∀ t ∈ trace step { hasSwitch := hasSwitch } ops, Agrees t.after) ↔
      ∀ t ∈ trace step { hasSwitch := hasSwitch } ops, Keeps t.before t.input := by
  have hwired : Wired { hasSwitch := hasSwitch } := ⟨fun _ => rfl, fun _ _ => by simp⟩
  have hagrees : Agrees { hasSwitch := hasSwitch } :=
    ⟨⟨by simp, by simp⟩, fun sw h => by cases h⟩
  exact forall_trace_iff Wired wired_step (fun d op hw ha => agrees_step_iff hw ha op) ops
    hwired hagrees

/-- A start of a device that was never initialised is refused with the power switched on. -/
theorem not_agrees :
    ¬∀ (hasSwitch : Bool) (ops : List DeviceOp),
      ∀ t ∈ trace step { hasSwitch := hasSwitch } ops, Agrees t.after := by
  intro h
  have hp := (h true [.startSensor 0] _ (List.mem_cons_self ..)).power true rfl
  exact absurd (hp.2 rfl) (by decide)

end DeviceBase

end Mastiff.Device

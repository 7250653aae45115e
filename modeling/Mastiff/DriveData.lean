import Mastiff.DeviceBase

/-!
# The capture thread of a device

`DriveDataItf` (`chassis/drivers/driver_data_itf.h`) runs the thread that polls a device,
in the build without `USE_CYBER_TIMER`. The hooks of a device end in its `Start`, `Stop`,
`Resume` and `Close`, so two machines with guards of their own are stacked : the status of
`DeviceBase` and the thread of `DriveData`.

`polled_iff` : over a run a device that is reported as working is being polled exactly when
no resume reaches the driver of a device without a thread.
-/

set_option linter.unusedSectionVars false

namespace Mastiff.Device

open Machine

/-- The members of `DriveDataItf` about its thread : `is_inited_` is set while the thread
exists, and it polls while `running_` is set and leaves its loop once `terminate_` is. -/
structure DriveData where
  isInited : Bool := false
  running : Bool := false
  terminate : Bool := false
  deriving DecidableEq

namespace DriveData

/-- `Start`. -/
def start (v : DriveData) : DriveData × ℤ :=
  if v.isInited then (v, -1)
  else ({ running := true, terminate := false, isInited := true }, 0)

/-- `Stop`. -/
def stop (v : DriveData) : DriveData × ℤ :=
  ({ v with running := false }, 0)

/-- `Resume`. -/
def resume (v : DriveData) : DriveData × ℤ :=
  ({ v with running := true }, 0)

/-- `Close`, which joins the thread if there is one. -/
def close (v : DriveData) : DriveData × ℤ :=
  let v := { v with running := false, terminate := true }
  (if v.isInited then { v with isInited := false } else v, 0)

/-- The thread exists, and polls. -/
def Polling (v : DriveData) : Prop :=
  v.isInited = true ∧ v.terminate = false ∧ v.running = true

/-- The thread is not told to terminate while it exists. -/
def Alive (v : DriveData) : Prop :=
  v.isInited = true → v.terminate = false

/-- A hook that ends in the operation `op` of the driver, unless it fails early. -/
def hook (op : DriveData → DriveData × ℤ) (early : ℤ) (v : DriveData) : DriveData × ℤ :=
  if early = 0 then op v else (v, early)

end DriveData

/-! ## The device on its driver -/

/-- A device and its driver. -/
structure PolledDevice where
  device : DeviceBase
  drive : DriveData := {}
  deriving DecidableEq

/-- An operation, with the result of `Init` or the early failure of the hook, if it comes to
it. The hook goes on to the driver on 0. -/
inductive PolledOp
  | initSensor (own : Bool) (ret : ℤ)
  | startSensor (early : ℤ)
  | stopSensor (early : ℤ)
  | resumeSensor (early : ℤ)
  | closeSensor (early : ℤ)
  deriving DecidableEq

namespace PolledDevice

/-- The device comes to the hook, unless it is uninitialised or where the hook leads. -/
def comesTo (p : PolledDevice) (there : DeviceStatus) : Prop :=
  p.device.status ≠ .uninitialized ∧ p.device.status ≠ there

instance (p : PolledDevice) (there : DeviceStatus) : Decidable (p.comesTo there) :=
  inferInstanceAs (Decidable (_ ∧ _))

/-- An operation of the device whose hook ends in an operation of the driver. -/
def operate (p : PolledDevice) (op : ℤ → DeviceOp) (there : DeviceStatus)
    (driver : DriveData → DriveData × ℤ) (early : ℤ) : PolledDevice × ℤ :=
  let h := if p.comesTo there then DriveData.hook driver early p.drive else (p.drive, 0)
  let r := p.device.step (op h.2)
  (⟨r.1, h.1⟩, r.2)

/-- One operation. -/
def step (p : PolledDevice) : PolledOp → PolledDevice × ℤ
  | .initSensor own ret =>
    let r := p.device.initSensor own ret
    (⟨r.1, p.drive⟩, r.2)
  | .startSensor early => p.operate .startSensor .working DriveData.start early
  | .stopSensor early => p.operate .stopSensor .idle DriveData.stop early
  | .resumeSensor early => p.operate .resumeSensor .working DriveData.resume early
  | .closeSensor early => p.operate .closeSensor .shutdown DriveData.close early

/-- A device reported as working is being polled. -/
def Polled (p : PolledDevice) : Prop :=
  p.device.status = .working → p.drive.Polling

/-- A resume that comes to the driver finds the thread. -/
def FindsThread (p : PolledDevice) (op : PolledOp) : Prop :=
  op = .resumeSensor 0 → p.comesTo .working → p.drive.isInited = true

variable {p : PolledDevice}

/-! ## The status under a hook -/

/-- The status an operation of the device leads to, the result of its hook being `ret`. -/
def Leads (op : ℤ → DeviceOp) (there : DeviceStatus) : Prop :=
  ∀ (d : DeviceBase) (ret : ℤ), (d.step (op ret)).1.status =
    if (d.status ≠ .uninitialized ∧ d.status ≠ there) ∧ ret = 0 then there else d.status

theorem leads_startSensor : Leads .startSensor .working := by
  intro d ret
  simp only [DeviceBase.step, DeviceBase.startSensor, DeviceBase.ctrlSwitch_status]
  split_ifs <;> simp_all [DeviceBase.hooked_status]

theorem leads_stopSensor : Leads .stopSensor .idle := by
  intro d ret
  simp only [DeviceBase.step, DeviceBase.stopSensor]
  split_ifs <;> simp_all [DeviceBase.hooked_status]

theorem leads_resumeSensor : Leads .resumeSensor .working := by
  intro d ret
  simp only [DeviceBase.step, DeviceBase.resumeSensor]
  split_ifs <;> simp_all [DeviceBase.hooked_status]

theorem leads_closeSensor : Leads .closeSensor .shutdown := by
  intro d ret
  simp only [DeviceBase.step, DeviceBase.closeSensor]
  split_ifs <;> simp_all [DeviceBase.hooked_status]

/-- An operation that does not come to the driver changes neither the status nor the
thread, and one that does is the driver's own. -/
theorem operate_cases {op : ℤ → DeviceOp} {there : DeviceStatus} (hl : Leads op there)
    (driver : DriveData → DriveData × ℤ) (early : ℤ) :
    ((p.operate op there driver early).1.device.status = p.device.status ∧
      (p.operate op there driver early).1.drive = p.drive ∧
      ¬(p.comesTo there ∧ early = 0)) ∨
    (p.comesTo there ∧ early = 0 ∧
      (p.operate op there driver early).1.drive = (driver p.drive).1 ∧
      (p.operate op there driver early).1.device.status =
        if (driver p.drive).2 = 0 then there else p.device.status) := by
  by_cases hc : p.comesTo there
  · by_cases he : early = 0
    · refine .inr ⟨hc, he, ?_, ?_⟩
      · simp [operate, hc, he, DriveData.hook]
      · rw [operate, hl, if_pos hc, DriveData.hook, if_pos he]
        simp [show p.device.status ≠ .uninitialized ∧ p.device.status ≠ there from hc]
    · refine .inl ⟨?_, ?_, fun h => he h.2⟩
      · rw [operate, hl, if_pos hc, DriveData.hook, if_neg he]
        simp [he]
      · simp [operate, hc, he, DriveData.hook]
  · refine .inl ⟨?_, ?_, fun h => hc h.1⟩
    · rw [operate, hl, if_neg (fun h => hc h.1)]
    · simp [operate, hc]

/-! ## Runs -/

theorem alive_operate {op : ℤ → DeviceOp} {there : DeviceStatus} (hl : Leads op there)
    {driver : DriveData → DriveData × ℤ} (hd : ∀ v : DriveData, v.Alive → (driver v).1.Alive)
    (early : ℤ) (h : p.drive.Alive) : (p.operate op there driver early).1.drive.Alive := by
  rcases operate_cases (p := p) hl driver early with ⟨-, hdrive, -⟩ | ⟨-, -, hdrive, -⟩
  · rwa [hdrive]
  · rw [hdrive]
    exact hd p.drive h

theorem alive_step (p : PolledDevice) (op : PolledOp) (h : p.drive.Alive) :
    (p.step op).1.drive.Alive := by
  cases op with
  | initSensor => exact h
  | startSensor early =>
    refine alive_operate leads_startSensor (fun v hv => ?_) early h
    rw [DriveData.start]
    split_ifs
    · exact hv
    · exact fun _ => rfl
  | stopSensor early => exact alive_operate leads_stopSensor (fun v hv => hv) early h
  | resumeSensor early => exact alive_operate leads_resumeSensor (fun v hv => hv) early h
  | closeSensor early =>
    refine alive_operate leads_closeSensor (fun v _ hinit => ?_) early h
    obtain ⟨isInited, running, terminate⟩ := v
    cases isInited <;> cases hinit

/-- A hook that leads elsewhere leaves the device polled. -/
theorem polled_operate {op : ℤ → DeviceOp} {there : DeviceStatus} (hl : Leads op there)
    (hthere : there ≠ .working) {driver : DriveData → DriveData × ℤ}
    (hd : ∀ v, (driver v).2 = 0) (early : ℤ) (h : p.Polled) :
    (p.operate op there driver early).1.Polled := by
  intro hw
  rcases operate_cases (p := p) hl driver early with ⟨hs, hdrive, -⟩ | ⟨-, -, -, hs⟩
  · rw [hdrive]
    exact h (hs.symm.trans hw)
  · rw [hs, if_pos (hd p.drive)] at hw
    exact absurd hw hthere

/-- An operation leaves a polled device polled exactly when it resumes no thread that is not
there. -/
theorem polled_step_iff (ha : p.drive.Alive) (h : p.Polled) (op : PolledOp) :
    (p.step op).1.Polled ↔ p.FindsThread op := by
  cases op with
  | initSensor own ret =>
    refine iff_of_true (fun hw => h ?_) (fun hop => by cases hop)
    change (p.device.initSensor own ret).1.status = _ at hw
    rw [DeviceBase.initSensor] at hw
    split_ifs at hw
    · exact hw
    · cases hw
    · exact hw
  | startSensor early =>
    refine iff_of_true (fun hw => ?_) (fun hop => by cases hop)
    rcases operate_cases (p := p) leads_startSensor DriveData.start early with
      ⟨hs, hdrive, -⟩ | ⟨hc, -, hdrive, hs⟩
    · rw [step, hdrive]
      exact h (hs.symm.trans hw)
    · rw [step, hdrive]
      rw [step, hs, DriveData.start] at hw
      rw [DriveData.start]
      split_ifs with hinit
      · simp only [if_pos hinit] at hw
        exact absurd hw hc.2
      · exact ⟨rfl, rfl, rfl⟩
  | stopSensor early =>
    exact iff_of_true (polled_operate leads_stopSensor (by simp) (fun _ => rfl) early h)
      (fun hop => by cases hop)
  | resumeSensor early =>
    rcases operate_cases (p := p) leads_resumeSensor DriveData.resume early with
      ⟨hs, hdrive, hno⟩ | ⟨hc, he, hdrive, hs⟩
    · refine iff_of_true (fun hw => ?_) (fun hop hc => absurd ⟨hc, by cases hop; rfl⟩ hno)
      rw [step, hdrive]
      exact h (hs.symm.trans hw)
    · rw [DriveData.resume, if_pos rfl] at hs
      have hfinds : p.FindsThread (.resumeSensor early) ↔ p.drive.isInited = true :=
        ⟨fun hf => hf (by rw [he]) hc, fun hf _ _ => hf⟩
      rw [hfinds, step, Polled, hs, hdrive]
      exact ⟨fun hp => (hp rfl).1, fun hinit _ => ⟨hinit, ha hinit, rfl⟩⟩
  | closeSensor early =>
    exact iff_of_true (polled_operate leads_closeSensor (by simp) (fun _ => rfl) early h)
      (fun hop => by cases hop)

/-- Over every run of a new device, with or without a switch, a device reported as working
is being polled after every operation exactly when every resume that comes to the driver
finds a thread there. -/
theorem polled_iff (hasSwitch : Bool) (ops : List PolledOp) :
    (∀ t ∈ trace step { device := { hasSwitch := hasSwitch } } ops, t.after.Polled) ↔
      ∀ t ∈ trace step { device := { hasSwitch := hasSwitch } } ops,
        t.before.FindsThread t.input := by
  refine forall_trace_iff (fun p : PolledDevice => p.drive.Alive) alive_step
    (fun p op ha h => polled_step_iff ha h op) ops ?_ ?_
  · intro h
    cases h
  · intro h
    cases h

/-- A device that is only initialised is resumed. -/
theorem not_polled :
    ¬∀ (hasSwitch : Bool) (ops : List PolledOp),
      ∀ t ∈ trace step { device := { hasSwitch := hasSwitch } } ops, t.after.Polled := by
  intro h
  have hp := h false [.initSensor true 0, .resumeSensor 0] _
    (List.mem_cons_of_mem _ (List.mem_cons_self ..)) (by decide)
  exact absurd hp.1 (by decide)

end PolledDevice

end Mastiff.Device

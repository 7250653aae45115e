import Mastiff.DeviceBase

/-!
# All devices at once

`DeviceInit`, `DeviceStart` and `DeviceStop` of `DevParseLink`
(`chassis/devices/dev_parse_link.cc`) go through the registered devices in the order of an
unordered map, and return what the device at hand left in one variable. The devices are
those of `DeviceBase`, under the addresses of their indicators, and the results of their
hooks are inputs. What is logged is left out.

`init_reports_iff`, and likewise for start and stop : the return value is 0 exactly when all
devices succeed if and only if the last device fails or all succeed.
-/

set_option linter.unusedSectionVars false

namespace Mastiff.Device

namespace DeviceMap

/-- The devices after a pass through the map, the indicators of those on which the operation
was called, in order, and the return value. -/
structure Pass where
  devices : List (ℕ × DeviceBase)
  called : List ℕ
  ret : ℤ

/-- The loop of the three functions : `op` on every device, and what is kept of its result in
`ret`. -/
def forDevices (op : ℕ → DeviceBase → DeviceBase × ℤ) (keep : ℤ → ℤ) :
    List (ℕ × DeviceBase) → ℤ → Pass
  | [], ret => ⟨[], [], ret⟩
  | (ind, dev) :: devices, _ =>
    let (dev, ret) := op ind dev
    let pass := forDevices op keep devices (keep ret)
    ⟨(ind, dev) :: pass.devices, ind :: pass.called, pass.ret⟩

/-- What `InitSensor` makes of a device that is registered under `ind`. -/
def initOf (own : ℕ → Bool) (hook : ℕ → ℤ) (ind : ℕ) (dev : DeviceBase) : DeviceBase × ℤ :=
  dev.initSensor (own ind) (hook ind)

/-- What `StartSensor` makes of it. -/
def startOf (hook : ℕ → ℤ) (ind : ℕ) (dev : DeviceBase) : DeviceBase × ℤ :=
  dev.startSensor (hook ind)

/-- What `StopSensor` makes of it. -/
def stopOf (hook : ℕ → ℤ) (ind : ℕ) (dev : DeviceBase) : DeviceBase × ℤ :=
  dev.stopSensor (hook ind)

/-- `DeviceInit` -/
def deviceInit (own : ℕ → Bool) (hook : ℕ → ℤ) (devices : List (ℕ × DeviceBase)) : Pass :=
  forDevices (initOf own hook) id devices 0

/-- `DeviceStart`, the only one that turns a failure into -1. -/
def deviceStart (hook : ℕ → ℤ) (devices : List (ℕ × DeviceBase)) : Pass :=
  forDevices (startOf hook) (fun ret => if ret ≠ 0 then -1 else ret) devices 0

/-- `DeviceStop` -/
def deviceStop (hook : ℕ → ℤ) (devices : List (ℕ × DeviceBase)) : Pass :=
  forDevices (stopOf hook) id devices 0

/-! ## What is to be reported -/

/-- The operation succeeds on the device. -/
def Succeeds (op : ℕ → DeviceBase → DeviceBase × ℤ) (dev : ℕ × DeviceBase) : Prop :=
  (op dev.1 dev.2).2 = 0

instance (op : ℕ → DeviceBase → DeviceBase × ℤ) : DecidablePred (Succeeds op) :=
  fun dev => inferInstanceAs (Decidable ((op dev.1 dev.2).2 = 0))

/-- The operation is called on every device once, whatever it did to the others, and the
return value is 0 exactly when it succeeds on all of them. -/
structure Reports (op : ℕ → DeviceBase → DeviceBase × ℤ) (devices : List (ℕ × DeviceBase))
    (pass : Pass) : Prop where
  called : pass.called = devices.map Prod.fst
  changed : pass.devices = devices.map fun dev => (dev.1, (op dev.1 dev.2).1)
  ret : pass.ret = 0 ↔ ∀ dev ∈ devices, Succeeds op dev

/-- The device that is last in the order of the map fails, or all succeed. -/
def LastFails (op : ℕ → DeviceBase → DeviceBase × ℤ) (devices : List (ℕ × DeviceBase)) : Prop :=
  (∃ dev ∈ devices.getLast?, ¬Succeeds op dev) ∨ ∀ dev ∈ devices, Succeeds op dev

/-! ## The loop -/

variable {op : ℕ → DeviceBase → DeviceBase × ℤ} {keep : ℤ → ℤ}

theorem forDevices_called (devices : List (ℕ × DeviceBase)) (ret : ℤ) :
    (forDevices op keep devices ret).called = devices.map Prod.fst := by
  induction devices generalizing ret with
  | nil => rfl
  | cons dev devices ih => simp [forDevices, ih]

theorem forDevices_devices (devices : List (ℕ × DeviceBase)) (ret : ℤ) :
    (forDevices op keep devices ret).devices =
      devices.map fun dev => (dev.1, (op dev.1 dev.2).1) := by
  induction devices generalizing ret with
  | nil => rfl
  | cons dev devices ih => simp [forDevices, ih]

/-- The return value is what the last device left. -/
theorem forDevices_ret (devices : List (ℕ × DeviceBase)) (ret : ℤ) :
    (forDevices op keep devices ret).ret =
      (devices.getLast?.map fun dev => keep (op dev.1 dev.2).2).getD ret := by
  induction devices generalizing ret with
  | nil => rfl
  | cons dev devices ih =>
    rw [forDevices, ih]
    cases hlast : devices.getLast? with
    | none =>
      rw [List.getLast?_eq_none_iff] at hlast
      subst hlast
      rfl
    | some last => simp [List.getLast?_cons, hlast]

theorem forDevices_ret_eq_zero_iff (hkeep : ∀ ret, keep ret = 0 ↔ ret = 0)
    (devices : List (ℕ × DeviceBase)) :
    (forDevices op keep devices 0).ret = 0 ↔ ∀ dev ∈ devices.getLast?, Succeeds op dev := by
  rw [forDevices_ret]
  cases devices.getLast? with
  | none => simp
  | some last => simpa [Succeeds] using hkeep _

theorem forDevices_reports_iff (hkeep : ∀ ret, keep ret = 0 ↔ ret = 0)
    (devices : List (ℕ × DeviceBase)) :
    Reports op devices (forDevices op keep devices 0) ↔ LastFails op devices := by
  have hret : Reports op devices (forDevices op keep devices 0) ↔
      ((∀ dev ∈ devices.getLast?, Succeeds op dev) ↔ ∀ dev ∈ devices, Succeeds op dev) := by
    rw [← forDevices_ret_eq_zero_iff hkeep]
    exact ⟨fun h => h.ret, fun h => ⟨forDevices_called _ _, forDevices_devices _ _, h⟩⟩
  rw [hret]
  constructor
  · intro h
    by_cases hlast : ∀ dev ∈ devices.getLast?, Succeeds op dev
    · exact .inr (h.1 hlast)
    · push Not at hlast
      exact .inl hlast
  · rintro (⟨dev, hdev, hfails⟩ | hall)
    · have hmem : dev ∈ devices := List.mem_of_getLast? hdev
      exact iff_of_false (fun h => hfails (h dev hdev)) (fun h => hfails (h dev hmem))
    · exact iff_of_true (fun dev hdev => hall dev (List.mem_of_getLast? hdev)) hall

theorem deviceStart_keep (ret : ℤ) : (if ret ≠ 0 then -1 else ret) = 0 ↔ ret = 0 := by
  split_ifs with h
  · simpa using h
  · rfl

/-! ## The three functions -/

theorem init_reports_iff (own : ℕ → Bool) (hook : ℕ → ℤ) (devices : List (ℕ × DeviceBase)) :
    Reports (initOf own hook) devices (deviceInit own hook devices) ↔
      LastFails (initOf own hook) devices :=
  forDevices_reports_iff (fun _ => Iff.rfl) devices

theorem start_reports_iff (hook : ℕ → ℤ) (devices : List (ℕ × DeviceBase)) :
    Reports (startOf hook) devices (deviceStart hook devices) ↔
      LastFails (startOf hook) devices :=
  forDevices_reports_iff deviceStart_keep devices

theorem stop_reports_iff (hook : ℕ → ℤ) (devices : List (ℕ × DeviceBase)) :
    Reports (stopOf hook) devices (deviceStop hook devices) ↔ LastFails (stopOf hook) devices :=
  forDevices_reports_iff (fun _ => Iff.rfl) devices

/-- For all devices, in every order, and all results of their hooks, each of the three
functions calls its operation on every device and reports every failure exactly when the last
device fails or all succeed. -/
theorem devices_reported_iff (own : ℕ → Bool) (initHook startHook stopHook : ℕ → ℤ)
    (devices : List (ℕ × DeviceBase)) :
    (Reports (initOf own initHook) devices (deviceInit own initHook devices) ↔
        LastFails (initOf own initHook) devices) ∧
      (Reports (startOf startHook) devices (deviceStart startHook devices) ↔
        LastFails (startOf startHook) devices) ∧
      (Reports (stopOf stopHook) devices (deviceStop stopHook devices) ↔
        LastFails (stopOf stopHook) devices) :=
  ⟨init_reports_iff own initHook devices, start_reports_iff startHook devices,
    stop_reports_iff stopHook devices⟩

/-- Over all orders of the map, every failure is reported exactly when all devices fail or all
succeed. -/
theorem forall_perm_lastFails_iff (devices : List (ℕ × DeviceBase)) :
    (∀ devices', devices'.Perm devices → LastFails op devices') ↔
      (∀ dev ∈ devices, ¬Succeeds op dev) ∨ ∀ dev ∈ devices, Succeeds op dev := by
  constructor
  · intro h
    by_contra hmixed
    push Not at hmixed
    obtain ⟨⟨dev, hdev, hok⟩, dev', hdev', hfails⟩ := hmixed
    obtain ⟨l₁, l₂, rfl⟩ := List.append_of_mem hdev
    have hperm : (l₁ ++ l₂ ++ [dev]).Perm (l₁ ++ dev :: l₂) := by
      rw [List.append_assoc]
      exact (List.perm_append_singleton dev l₂).append_left l₁
    rcases h _ hperm with ⟨last, hlast, hno⟩ | hall
    · rw [List.getLast?_concat] at hlast
      obtain rfl := Option.some.inj hlast
      exact hno hok
    · exact hfails (hall dev' (hperm.mem_iff.2 hdev'))
  · rintro (hall | hall) devices' hperm
    · rcases devices'.eq_nil_or_concat with rfl | ⟨l, last, rfl⟩
      · exact .inr (by simp)
      · exact .inl ⟨last, by simp, hall last (hperm.mem_iff.1 (by simp))⟩
    · exact .inr fun dev hdev => hall dev (hperm.mem_iff.1 hdev)

/-- The first of two devices fails, and 0 is returned. -/
theorem not_devices_reported :
    ¬∀ (own : ℕ → Bool) (hook : ℕ → ℤ) (devices : List (ℕ × DeviceBase)),
      Reports (initOf own hook) devices (deviceInit own hook devices) := by
  intro h
  have hret := (h (fun _ => true) (fun ind => if ind = 0 then -1 else 0)
    [(0, { hasSwitch := false }), (1, { hasSwitch := false })]).ret
  revert hret
  decide

end DeviceMap

end Mastiff.Device

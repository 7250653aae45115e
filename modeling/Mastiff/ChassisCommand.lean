import Mastiff.SocData

/-!
# Chassis commands

`RecvChassCtrl` (`chassis/devices/transactor.cc`) hands each part of a `MiscChassisCtrl` to
its executor, and returns what the last one returns ; a command that moves is not looked at
any further. The executors are the handlers of `DevParseLink`
(`chassis/devices/dev_parse_link.cc`), and the one of the part `misc` hands it to an audio
device, or if there is none to a wireless device, which write it to `SocData`.

`partsDelivered_iff` : a command is delivered, whatever devices are registered in whatever order,
exactly when it either moves or has other parts, no WiFi setting comes with an audio device
in its way, and no failure is followed by a success.
-/

set_option linter.unusedSectionVars false

namespace Mastiff.Device

open Soc

/-! ## Commands -/

/-- `MiscChassisCtrl`, whose parts other than `misc_ctrl` are not looked into. -/
structure MiscChassisCtrl (β γ ω α : Type) where
  moveCtrl : Option β := none
  adcCtrl : Option β := none
  pwmCtrl : Option β := none
  gpioCtrl : Option β := none
  infraCtrl : Option β := none
  miscCtrl : Option (ChsSocMiscCtrl γ ω α) := none
  firmwareUpdate : Option β := none

/-- A part of a command. -/
inductive CtrlPart (β γ ω α : Type)
  | move (c : β)
  | adc (c : β)
  | pwm (c : β)
  | gpio (c : β)
  | infra (c : β)
  | misc (c : ChsSocMiscCtrl γ ω α)
  | update (c : β)
  deriving DecidableEq

/-- What is done with a command : an executor is called with a part, `SetMisc` of a device is
called, or `SocData` does something. -/
inductive CtrlEvent (ι β γ ω α : Type)
  | executor (p : CtrlPart β γ ω α)
  | setMisc (device : ι) (m : ChsSocMiscCtrl γ ω α)
  | soc (e : SocEvent ι γ ω α)
  deriving DecidableEq

/-- A return value, and what has been done. -/
abbrev Done (ι β γ ω α : Type) := ℤ × List (CtrlEvent ι β γ ω α)

namespace MiscChassisCtrl

variable {β γ ω α : Type}

/-- The parts of a command other than its movement, in the order of their tests. -/
def rest (ctrl : MiscChassisCtrl β γ ω α) : List (CtrlPart β γ ω α) :=
  ctrl.adcCtrl.toList.map .adc ++ ctrl.pwmCtrl.toList.map .pwm ++
    ctrl.gpioCtrl.toList.map .gpio ++ ctrl.infraCtrl.toList.map .infra ++
    ctrl.miscCtrl.toList.map .misc ++ ctrl.firmwareUpdate.toList.map .update

/-- The parts that are present. -/
def parts (ctrl : MiscChassisCtrl β γ ω α) : List (CtrlPart β γ ω α) :=
  ctrl.moveCtrl.toList.map .move ++ ctrl.rest

end MiscChassisCtrl

/-! ## The transactor -/

/-- The executors that are set. What an executor does is looked into for `misc_ctrl` alone. -/
structure Executors (ι β γ ω α : Type) where
  ctrlMove : Option (β → ℤ) := none
  ctrlAdc : Option (β → ℤ) := none
  ctrlPwm : Option (β → ℤ) := none
  ctrlGpio : Option (β → ℤ) := none
  ctrlInfra : Option (β → ℤ) := none
  ctrlSoc : Option (ChsSocMiscCtrl γ ω α → Done ι β γ ω α) := none
  ctrlUpdate : Option (β → ℤ) := none

namespace Executors

variable {ι β γ ω α : Type} (e : Executors ι β γ ω α)

/-- `_CtrlChsMovement`, `_CtrlChsPeriphAdc` and so on, which differ in their executor. -/
def execute (f : Option (β → ℤ)) (p : CtrlPart β γ ω α) (c : β) : Done ι β γ ω α :=
  match f with
  | some f => (f c, [.executor p])
  | none => (-1, [])

/-- `_CtrlChsSocMisc`. -/
def ctrlChsSocMisc (m : ChsSocMiscCtrl γ ω α) : Done ι β γ ω α :=
  match e.ctrlSoc with
  | some f => ((f m).1, .executor (.misc m) :: (f m).2)
  | none => (-1, [])

/-- What the specified performer of a part does. -/
def perform : CtrlPart β γ ω α → Done ι β γ ω α
  | .move c => execute e.ctrlMove (.move c) c
  | .adc c => execute e.ctrlAdc (.adc c) c
  | .pwm c => execute e.ctrlPwm (.pwm c) c
  | .gpio c => execute e.ctrlGpio (.gpio c) c
  | .infra c => execute e.ctrlInfra (.infra c) c
  | .misc m => e.ctrlChsSocMisc m
  | .update c => execute e.ctrlUpdate (.update c) c

/-- One of the tests of `RecvChassCtrl` : a part that is present is performed, and `ret` is
what this returns. -/
def test {δ : Type} (ret : Done ι β γ ω α) (part : Option δ) (p : δ → CtrlPart β γ ω α) :
    Done ι β γ ω α :=
  match part with
  | some c => ((e.perform (p c)).1, ret.2 ++ (e.perform (p c)).2)
  | none => ret

/-- `RecvChassCtrl`. -/
def recvChassCtrl (ctrl : MiscChassisCtrl β γ ω α) : Done ι β γ ω α :=
  match ctrl.moveCtrl with
  | some c => e.perform (.move c)
  | none =>
    let ret := e.test (-1, []) ctrl.adcCtrl .adc
    let ret := e.test ret ctrl.pwmCtrl .pwm
    let ret := e.test ret ctrl.gpioCtrl .gpio
    let ret := e.test ret ctrl.infraCtrl .infra
    let ret := e.test ret ctrl.miscCtrl .misc
    e.test ret ctrl.firmwareUpdate .update

/-- Without a movement the parts are performed in order, and the last one decides what is
returned. -/
theorem recvChassCtrl_of_rest {ctrl : MiscChassisCtrl β γ ω α} (hmove : ctrl.moveCtrl = none) :
    e.recvChassCtrl ctrl =
      (((ctrl.rest.map e.perform).getLast?.map Prod.fst).getD (-1),
        ctrl.rest.flatMap fun p => (e.perform p).2) := by
  have htest : ∀ {δ : Type} (ps : List (CtrlPart β γ ω α)) (part : Option δ)
      (p : δ → CtrlPart β γ ω α),
      e.test (((ps.map e.perform).getLast?.map Prod.fst).getD (-1),
          ps.flatMap fun p => (e.perform p).2) part p =
        ((((ps ++ part.toList.map p).map e.perform).getLast?.map Prod.fst).getD (-1),
          (ps ++ part.toList.map p).flatMap fun p => (e.perform p).2) := by
    intro δ ps part p
    cases part <;> simp [test]
  have hstart : ((-1, []) : Done ι β γ ω α) =
      (((([] : List (CtrlPart β γ ω α)).map e.perform).getLast?.map Prod.fst).getD (-1),
        ([] : List (CtrlPart β γ ω α)).flatMap fun p => (e.perform p).2) := rfl
  simp only [recvChassCtrl, hmove, hstart, htest]
  rfl

end Executors

/-! ## The handlers -/

namespace DevParseLink

variable {ι β γ ω α : Type} [Inhabited ω] [Inhabited α]
  (ind : ι → SensorIndicator)

-- `ind_dev_pair_` in one of its orders, and the `SocData` behind the devices
variable (order : List ι) (soc : SocData ι)

/-- `_GetDevBaseByType`. -/
def getDevBaseByType (type : DeviceType) : Option ι :=
  order.find? fun i => (ind i).type = type

/-- `ParseDrvLink::WriteSoc`, which makes a `bool` of the return value, through a parser. -/
def writeSoc (si : ι) (m : ChsSocMiscCtrl γ ω α) : Done ι β γ ω α :=
  (if (soc.socWrite ind si m).1 = 0 then 0 else 1, (soc.socWrite ind si m).2.map .soc)

/-- `SetMisc` of `AudioPlay`, of `DeviceWireless`, and of the base class of the others. -/
def setMisc (si : ι) (m : ChsSocMiscCtrl γ ω α) : Done ι β γ ω α :=
  match (ind si).type with
  | .audio => if m.audio.isSome then writeSoc ind soc si m else (-1, [])
  | .wireless => if m.wifi.isSome then writeSoc ind soc si m else (-1, [])
  | _ => (-1, [])

/-- A call of `SetMisc`. -/
def callSetMisc (si : ι) (m : ChsSocMiscCtrl γ ω α) : Done ι β γ ω α :=
  let r : Done ι β γ ω α := setMisc ind soc si m
  (r.1, .setMisc si m :: r.2)

/-- `HandleChsSocMisc`. -/
def handleChsSocMisc (m : ChsSocMiscCtrl γ ω α) : Done ι β γ ω α :=
  match getDevBaseByType ind order .audio with
  | some si => callSetMisc ind soc si m
  | none =>
    match getDevBaseByType ind order .wireless with
    | some si => callSetMisc ind soc si m
    | none => (-1, [])

/-- `HandleChsMovement`, with the result of `SetSpeed` of a servo motor. -/
def handleChsMovement (setSpeed : ι → β → ℤ) (c : β) : ℤ :=
  match getDevBaseByType ind order .servo with
  | some si => setSpeed si c
  | none => -1

end DevParseLink

/-- What the handlers of the parts other than `misc_ctrl` return. -/
structure Handlers (β : Type) where
  movement : β → ℤ := fun _ => 0
  adc : β → ℤ := fun _ => 0
  pwm : β → ℤ := fun _ => 0
  gpio : β → ℤ := fun _ => 0
  infra : β → ℤ := fun _ => 0
  update : β → ℤ := fun _ => 0

namespace DevParseLink

variable {ι β γ ω α : Type} [Inhabited ω] [Inhabited α]
  (ind : ι → SensorIndicator) (order : List ι) (soc : SocData ι)

/-- The handlers that are there : all but the one of movements return 0. -/
def handlers (setSpeed : ι → β → ℤ) : Handlers β :=
  { movement := handleChsMovement ind order setSpeed }

/-- The executors that the constructor of `DevParseLink` sets, with some handlers. -/
def executors (h : Handlers β) : Executors ι β γ ω α where
  ctrlMove := some h.movement
  ctrlAdc := some h.adc
  ctrlPwm := some h.pwm
  ctrlGpio := some h.gpio
  ctrlInfra := some h.infra
  ctrlSoc := some (handleChsSocMisc ind order soc)
  ctrlUpdate := some h.update

/-! ## Commands delivered -/

/-- A device of the type is registered. -/
def Registered (type : DeviceType) : Prop :=
  ∃ i ∈ order, (ind i).type = type

/-- The call of a device hands it a part of the command that is present. -/
def IsPartOf (ctrl : MiscChassisCtrl β γ ω α) : DevCall γ ω α → Prop
  | .setAudioCtrl a => ∃ m, ctrl.miscCtrl = some m ∧ m.audio = some a
  | .setWiFiCtrl w => ∃ m, ctrl.miscCtrl = some m ∧ m.wifi = some w
  | .setCameraCtrl cs => ∃ m, ctrl.miscCtrl = some m ∧ m.camera = cs ∧ cs ≠ []
  | _ => False

end DevParseLink

/-- The part that an executor is called with. -/
def CtrlEvent.part {ι β γ ω α : Type} : CtrlEvent ι β γ ω α → Option (CtrlPart β γ ω α)
  | .executor p => some p
  | .setMisc _ _ | .soc _ => none

namespace DevParseLink

variable {ι β γ ω α : Type} [Inhabited ω] [Inhabited α]
  (ind : ι → SensorIndicator) (order : List ι) (soc : SocData ι)

/-- What is to become of a command : the executors are called with the parts present, each
once, a device of the type of an audio or a WiFi setting gets it if one is registered, a
device is called with parts of the command alone, and 0 is returned exactly if there is a
part and every executor called returns 0. -/
structure Delivered (e : Executors ι β γ ω α) (ctrl : MiscChassisCtrl β γ ω α)
    (r : Done ι β γ ω α) : Prop where
  handed : r.2.filterMap CtrlEvent.part = ctrl.parts
  audio : ∀ m, ctrl.miscCtrl = some m → m.audio.isSome → Registered ind order .audio →
    ∃ i ∈ order, (ind i).type = .audio ∧ .setMisc i m ∈ r.2
  wifi : ∀ m, ctrl.miscCtrl = some m → m.wifi.isSome → Registered ind order .wireless →
    ∃ i ∈ order, (ind i).type = .wireless ∧ .setMisc i m ∈ r.2
  present : ∀ d c, .soc (.call d c) ∈ r.2 → IsPartOf ctrl c
  ret : r.1 = 0 ↔ ctrl.parts ≠ [] ∧ ∀ p, .executor p ∈ r.2 → (e.perform p).1 = 0

/-- The device that `HandleChsSocMisc` makes write a message to `SocData`, if there is one. -/
def writer (m : ChsSocMiscCtrl γ ω α) : Option ι :=
  match getDevBaseByType ind order .audio with
  | some si => if m.audio.isSome then some si else none
  | none =>
    match getDevBaseByType ind order .wireless with
    | some si => if m.wifi.isSome then some si else none
    | none => none

/-- The handler of a part other than the movement succeeds. -/
def Succeeds (h : Handlers β) : CtrlPart β γ ω α → Prop
  | .move c => h.movement c = 0
  | .adc c => h.adc c = 0
  | .pwm c => h.pwm c = 0
  | .gpio c => h.gpio c = 0
  | .infra c => h.infra c = 0
  | .misc m => (writer ind order m).isSome = true
  | .update c => h.update c = 0

/-- A command that either moves or has other parts ; no WiFi setting of it has an audio
device in its way ; and no handler that succeeds comes last after one that fails. -/
structure Addressed (h : Handlers β) (ctrl : MiscChassisCtrl β γ ω α) : Prop where
  alone : ctrl.moveCtrl = none ∨ ctrl.rest = []
  wifi : ∀ m, ctrl.miscCtrl = some m → m.wifi.isSome → Registered ind order .wireless →
    ¬Registered ind order .audio
  results : ∀ p, ctrl.rest.getLast? = some p → Succeeds ind order h p →
    ∀ q ∈ ctrl.rest, Succeeds ind order h q

variable {ind order soc}

/-! ## Messages to devices -/

theorem getDevBaseByType_eq_none {type : DeviceType} :
    getDevBaseByType ind order type = none ↔ ¬Registered ind order type := by
  simp [getDevBaseByType, Registered]

theorem getDevBaseByType_eq_some {type : DeviceType} {i : ι}
    (h : getDevBaseByType ind order type = some i) : i ∈ order ∧ (ind i).type = type :=
  ⟨List.mem_of_find?_eq_some h, by simpa using List.find?_some h⟩

theorem callSetMisc_audio {si : ι} (htype : (ind si).type = .audio) (m : ChsSocMiscCtrl γ ω α) :
    (callSetMisc ind soc si m : Done ι β γ ω α) =
      if m.audio.isSome then (0, .setMisc si m :: (soc.socWrite ind si m).2.map .soc)
      else (-1, [.setMisc si m]) := by
  rw [callSetMisc, setMisc, htype]
  split_ifs <;> rfl

theorem callSetMisc_wireless {si : ι} (htype : (ind si).type = .wireless)
    (m : ChsSocMiscCtrl γ ω α) :
    (callSetMisc ind soc si m : Done ι β γ ω α) =
      if m.wifi.isSome then (0, .setMisc si m :: (soc.socWrite ind si m).2.map .soc)
      else (-1, [.setMisc si m]) := by
  rw [callSetMisc, setMisc, htype]
  split_ifs <;> rfl

/-- The device that gets the messages. -/
def addressee (ind : ι → SensorIndicator) (order : List ι) : Option ι :=
  (getDevBaseByType ind order .audio).or (getDevBaseByType ind order .wireless)

/-- A message goes to one device, if there is one, which writes it to `SocData` if it has a
setting for the device. -/
theorem handleChsSocMisc_eq (m : ChsSocMiscCtrl γ ω α) :
    (handleChsSocMisc ind order soc m : Done ι β γ ω α) =
      (if (writer ind order m).isSome then 0 else -1,
        (addressee ind order).toList.map (fun si => .setMisc si m) ++
          (writer ind order m).toList.flatMap fun si => (soc.socWrite ind si m).2.map .soc) := by
  rw [handleChsSocMisc, writer, addressee]
  cases haudio : getDevBaseByType ind order .audio with
  | some si =>
    simp only [callSetMisc_audio (getDevBaseByType_eq_some haudio).2]
    cases m.audio.isSome <;> simp
  | none =>
    cases hwireless : getDevBaseByType ind order .wireless with
    | some si =>
      simp only [callSetMisc_wireless (getDevBaseByType_eq_some hwireless).2]
      cases m.wifi.isSome <;> simp
    | none => rfl

/-- The device that writes a message has a setting in it. -/
theorem writer_eq_some {m : ChsSocMiscCtrl γ ω α} {si : ι} (h : writer ind order m = some si) :
    (ind si).type = .audio ∧ m.audio.isSome = true ∨
      (ind si).type = .wireless ∧ m.wifi.isSome = true := by
  rw [writer] at h
  split at h
  · next haudio =>
    split_ifs at h with hpart
    cases h
    exact .inl ⟨(getDevBaseByType_eq_some haudio).2, hpart⟩
  · split at h
    · next hwireless =>
      split_ifs at h with hpart
      cases h
      exact .inr ⟨(getDevBaseByType_eq_some hwireless).2, hpart⟩
    · cases h

theorem mem_callSecond {sl : SocSlot ι} {c c' : DevCall γ ω α} {d : ι} :
    SocEvent.call d c' ∈ SocData.callSecond sl c ↔ sl.second = some d ∧ c' = c := by
  rw [SocData.callSecond]
  cases sl.second <;> simp [eq_comm]

/-- What a message calls is the device of its writer's type, with the setting for it. -/
theorem call_mem_socWrite {m : ChsSocMiscCtrl γ ω α} {si d : ι} {c : DevCall γ ω α}
    (h : writer ind order m = some si) (hcall : SocEvent.call d c ∈ (soc.socWrite ind si m).2) :
    (∃ a, m.audio = some a ∧ c = .setAudioCtrl a) ∨
      ∃ w, m.wifi = some w ∧ c = .setWiFiCtrl w := by
  rw [SocData.socWrite, List.mem_append, List.mem_append] at hcall
  rcases hcall with (hcall | hcall) | hcall <;> split_ifs at hcall with hif <;>
    try exact absurd hcall List.not_mem_nil
  · obtain ⟨-, rfl⟩ := mem_callSecond.1 hcall
    rcases writer_eq_some h with ⟨-, hpart⟩ | ⟨htype, -⟩
    · obtain ⟨a, ha⟩ := Option.isSome_iff_exists.1 hpart
      exact .inl ⟨a, ha, by rw [ha, Option.getD_some]⟩
    · rw [hif.2] at htype
      cases htype
  · obtain ⟨-, rfl⟩ := mem_callSecond.1 hcall
    rcases writer_eq_some h with ⟨htype, -⟩ | ⟨-, hpart⟩
    · rw [hif.2] at htype
      cases htype
    · obtain ⟨w, hw⟩ := Option.isSome_iff_exists.1 hpart
      exact .inr ⟨w, hw, by rw [hw, Option.getD_some]⟩
  · -- no camera is made to write
    rcases writer_eq_some h with ⟨htype, -⟩ | ⟨htype, -⟩ <;>
    · rw [hif.2] at htype
      cases htype

/-! ## What is done with a command -/

/-- An executor is called with its part, and only the one of `misc_ctrl` does more that is
looked into. -/
theorem perform_snd (h : Handlers β) (p : CtrlPart β γ ω α) :
    ((executors ind order soc h).perform p).2 =
      .executor p :: match p with
        | .misc m => (handleChsSocMisc ind order soc m).2
        | _ => [] := by
  cases p <;> rfl

theorem perform_fst_eq_zero_iff (h : Handlers β) (p : CtrlPart β γ ω α) :
    ((executors ind order soc h).perform p).1 = 0 ↔ Succeeds ind order h p := by
  cases p with
  | misc m =>
    change (handleChsSocMisc ind order soc m : Done ι β γ ω α).1 = 0 ↔ _
    rw [handleChsSocMisc_eq, Succeeds]
    split_ifs with hw <;> simp [hw]
  | _ => rfl

/-- The handler of messages calls no executor. -/
theorem executor_notMem_handleChsSocMisc (m : ChsSocMiscCtrl γ ω α) (p : CtrlPart β γ ω α) :
    .executor p ∉ (handleChsSocMisc ind order soc m).2 := by
  rw [handleChsSocMisc_eq]
  simp

theorem perform_parts (h : Handlers β) (p : CtrlPart β γ ω α) :
    ((executors ind order soc h).perform p).2.filterMap CtrlEvent.part = [p] := by
  have hnone : ∀ m, (handleChsSocMisc ind order soc m : Done ι β γ ω α).2.filterMap
      CtrlEvent.part = [] := by
    intro m
    rw [handleChsSocMisc_eq]
    refine List.filterMap_eq_nil_iff.2 fun x hx => ?_
    cases x with
    | executor p => simp at hx
    | setMisc i m => rfl
    | soc ev => rfl
  rw [perform_snd, List.filterMap_cons]
  cases p with
  | misc m => exact congrArg _ (hnone m)
  | _ => rfl

theorem misc_mem_rest {ctrl : MiscChassisCtrl β γ ω α} {m : ChsSocMiscCtrl γ ω α} :
    CtrlPart.misc m ∈ ctrl.rest ↔ ctrl.miscCtrl = some m := by
  simp [MiscChassisCtrl.rest]

/-- What is done besides is what the handler of messages does. -/
theorem mem_recvChassCtrl {h : Handlers β} {ctrl : MiscChassisCtrl β γ ω α}
    (hmove : ctrl.moveCtrl = none) {x : CtrlEvent ι β γ ω α} (hx : ∀ p, x ≠ .executor p) :
    x ∈ ((executors ind order soc h).recvChassCtrl ctrl).2 ↔
      ∃ m, ctrl.miscCtrl = some m ∧ x ∈ (handleChsSocMisc ind order soc m).2 := by
  rw [Executors.recvChassCtrl_of_rest _ hmove, List.mem_flatMap]
  constructor
  · rintro ⟨p, hp, hmem⟩
    rw [perform_snd, List.mem_cons, or_iff_right (hx p)] at hmem
    cases p with
    | misc m => exact ⟨m, misc_mem_rest.1 hp, hmem⟩
    | _ => cases hmem
  · rintro ⟨m, hm, hmem⟩
    refine ⟨.misc m, misc_mem_rest.2 hm, ?_⟩
    rw [perform_snd]
    exact List.mem_cons_of_mem _ hmem

theorem executor_mem_recvChassCtrl {h : Handlers β} {ctrl : MiscChassisCtrl β γ ω α}
    (hmove : ctrl.moveCtrl = none) (p : CtrlPart β γ ω α) :
    .executor p ∈ ((executors ind order soc h).recvChassCtrl ctrl).2 ↔ p ∈ ctrl.rest := by
  rw [Executors.recvChassCtrl_of_rest _ hmove, List.mem_flatMap]
  constructor
  · rintro ⟨q, hq, hmem⟩
    rw [perform_snd, List.mem_cons] at hmem
    rcases hmem with hpq | hmem
    · cases hpq
      exact hq
    · cases q with
      | misc m => exact absurd hmem (executor_notMem_handleChsSocMisc m p)
      | _ => cases hmem
  · intro hp
    refine ⟨p, hp, ?_⟩
    rw [perform_snd]
    exact List.mem_cons_self ..

/-! ## Commands without a movement -/

theorem handed_of_rest (h : Handlers β) {ctrl : MiscChassisCtrl β γ ω α}
    (hmove : ctrl.moveCtrl = none) :
    ((executors ind order soc h).recvChassCtrl ctrl).2.filterMap CtrlEvent.part = ctrl.parts := by
  rw [Executors.recvChassCtrl_of_rest _ hmove, List.filterMap_flatMap]
  simp only [perform_parts]
  rw [List.flatMap_singleton', MiscChassisCtrl.parts, hmove]
  rfl

/-- A message is handed to the addressee. -/
theorem setMisc_mem_recvChassCtrl {h : Handlers β} {ctrl : MiscChassisCtrl β γ ω α}
    (hmove : ctrl.moveCtrl = none) {m : ChsSocMiscCtrl γ ω α} (hm : ctrl.miscCtrl = some m)
    {i : ι} :
    .setMisc i m ∈ ((executors ind order soc h).recvChassCtrl ctrl).2 ↔
      addressee ind order = some i := by
  rw [mem_recvChassCtrl hmove (by simp), hm]
  simp only [Option.some.injEq, exists_eq_left', handleChsSocMisc_eq]
  cases addressee ind order <;> simp [eq_comm]

theorem audio_of_rest {h : Handlers β} {ctrl : MiscChassisCtrl β γ ω α}
    (hmove : ctrl.moveCtrl = none) {m : ChsSocMiscCtrl γ ω α} (hm : ctrl.miscCtrl = some m)
    (haudio : Registered ind order .audio) :
    ∃ i ∈ order, (ind i).type = .audio ∧
      .setMisc i m ∈ ((executors ind order soc h).recvChassCtrl ctrl).2 := by
  cases hdev : getDevBaseByType ind order .audio with
  | none => exact absurd haudio (getDevBaseByType_eq_none.1 hdev)
  | some i =>
    obtain ⟨hi, htype⟩ := getDevBaseByType_eq_some hdev
    exact ⟨i, hi, htype, (setMisc_mem_recvChassCtrl hmove hm).2 (by rw [addressee, hdev]; rfl)⟩

/-- A message comes to a wireless device exactly if no audio device is in its way. -/
theorem wifi_of_rest {h : Handlers β} {ctrl : MiscChassisCtrl β γ ω α}
    (hmove : ctrl.moveCtrl = none) {m : ChsSocMiscCtrl γ ω α} (hm : ctrl.miscCtrl = some m)
    (hwireless : Registered ind order .wireless) :
    (∃ i ∈ order, (ind i).type = .wireless ∧
        .setMisc i m ∈ ((executors ind order soc h).recvChassCtrl ctrl).2) ↔
      ¬Registered ind order .audio := by
  simp only [setMisc_mem_recvChassCtrl hmove hm, addressee]
  constructor
  · rintro ⟨i, -, htype, hor⟩ haudio
    cases hdev : getDevBaseByType ind order .audio with
    | none => exact getDevBaseByType_eq_none.1 hdev haudio
    | some j =>
      obtain rfl : j = i := by simpa [hdev] using hor
      rw [(getDevBaseByType_eq_some hdev).2] at htype
      cases htype
  · intro hno
    rw [getDevBaseByType_eq_none.2 hno, Option.none_or]
    cases hdev : getDevBaseByType ind order .wireless with
    | none => exact absurd hwireless (getDevBaseByType_eq_none.1 hdev)
    | some i =>
      obtain ⟨hi, htype⟩ := getDevBaseByType_eq_some hdev
      exact ⟨i, hi, htype, rfl⟩

/-- The devices called are called with parts of the command. -/
theorem present_of_rest {h : Handlers β} {ctrl : MiscChassisCtrl β γ ω α}
    (hmove : ctrl.moveCtrl = none) {d : ι} {c : DevCall γ ω α}
    (hcall : .soc (.call d c) ∈ ((executors ind order soc h).recvChassCtrl ctrl).2) :
    IsPartOf ctrl c := by
  rw [mem_recvChassCtrl hmove (by simp)] at hcall
  obtain ⟨m, hm, hmem⟩ := hcall
  -- what is called is called by the device that writes the message
  obtain ⟨si, hsi, hmem⟩ : ∃ si, writer ind order m = some si ∧
      SocEvent.call d c ∈ (soc.socWrite ind si m).2 := by
    simpa [handleChsSocMisc_eq] using hmem
  rcases call_mem_socWrite hsi hmem with ⟨a, ha, rfl⟩ | ⟨w, hw, rfl⟩
  · exact ⟨m, hm, ha⟩
  · exact ⟨m, hm, hw⟩

/-- What is returned is right exactly if no success comes last after a failure. -/
theorem ret_of_rest {h : Handlers β} {ctrl : MiscChassisCtrl β γ ω α}
    (hmove : ctrl.moveCtrl = none) :
    (((executors ind order soc h).recvChassCtrl ctrl).1 = 0 ↔ ctrl.parts ≠ [] ∧
        ∀ p, .executor p ∈ ((executors ind order soc h).recvChassCtrl ctrl).2 →
          ((executors ind order soc h).perform p).1 = 0) ↔
      ∀ p, ctrl.rest.getLast? = some p → Succeeds ind order h p →
        ∀ q ∈ ctrl.rest, Succeeds ind order h q := by
  have hparts : ctrl.parts = ctrl.rest := by
    rw [MiscChassisCtrl.parts, hmove]
    rfl
  have hlast : ((executors ind order soc h).recvChassCtrl ctrl).1 = 0 ↔
      ∃ p, ctrl.rest.getLast? = some p ∧ Succeeds ind order h p := by
    rw [Executors.recvChassCtrl_of_rest _ hmove, List.getLast?_map]
    cases hl : ctrl.rest.getLast? with
    | none => simp
    | some p =>
      have hzero : ((executors ind order soc h).perform p).1 = 0 ↔ Succeeds ind order h p :=
        perform_fst_eq_zero_iff h p
      simp [← hzero]
  simp only [hlast, hparts, executor_mem_recvChassCtrl hmove, perform_fst_eq_zero_iff]
  constructor
  · intro hret p hp hsucc
    exact (hret.1 ⟨p, hp, hsucc⟩).2
  · intro hresults
    constructor
    · rintro ⟨p, hp, hsucc⟩
      refine ⟨fun hnil => ?_, hresults p hp hsucc⟩
      rw [hnil] at hp
      cases hp
    · rintro ⟨hne, hall⟩
      exact ⟨_, List.getLast?_eq_some_getLast hne, hall _ (List.getLast_mem hne)⟩

/-! ## All commands -/

/-- For every command, and every map of devices in every order, the command is delivered
exactly if it is addressed as these can take it. -/
theorem partsDelivered_iff (ind : ι → SensorIndicator) (order : List ι) (soc : SocData ι)
    (h : Handlers β) (ctrl : MiscChassisCtrl β γ ω α) :
    Delivered ind order (executors ind order soc h) ctrl
        ((executors ind order soc h).recvChassCtrl ctrl) ↔
      Addressed ind order h ctrl := by
  cases hmove : ctrl.moveCtrl with
  | none =>
    constructor
    · intro hd
      refine ⟨.inl hmove, fun m hm hpart hreg => ?_, (ret_of_rest hmove).1 hd.ret⟩
      exact (wifi_of_rest hmove hm hreg).1 (hd.wifi m hm hpart hreg)
    · intro ha
      refine ⟨handed_of_rest h hmove, fun m hm _ hreg => audio_of_rest hmove hm hreg,
        fun m hm hpart hreg => ?_, fun _ _ => present_of_rest hmove,
        (ret_of_rest hmove).2 ha.results⟩
      exact (wifi_of_rest hmove hm hreg).2 (ha.wifi m hm hpart hreg)
  | some c =>
    have hdone : (executors ind order soc h).recvChassCtrl ctrl =
        (h.movement c, [.executor (.move c)]) := by
      rw [Executors.recvChassCtrl, hmove]
      rfl
    have hparts : ctrl.parts = .move c :: ctrl.rest := by
      rw [MiscChassisCtrl.parts, hmove]
      rfl
    rw [hdone]
    constructor
    · intro hd
      have hrest : ctrl.rest = [] := by
        have hhanded := hd.handed
        rw [hparts] at hhanded
        exact (List.cons.inj hhanded).2.symm
      have hmisc : ∀ m, ctrl.miscCtrl ≠ some m := fun m hm => by
        simpa [hrest] using misc_mem_rest.2 hm
      refine ⟨.inr hrest, fun m hm => absurd hm (hmisc m), ?_⟩
      simp [hrest]
    · intro ha
      have hrest : ctrl.rest = [] := ha.alone.resolve_left (by simp [hmove])
      have hmisc : ∀ m, ctrl.miscCtrl ≠ some m := fun m hm => by
        simpa [hrest] using misc_mem_rest.2 hm
      refine ⟨by simp [hparts, hrest, CtrlEvent.part], fun m hm => absurd hm (hmisc m),
        fun m hm => absurd hm (hmisc m), by simp, ?_⟩
      simp [hparts, Executors.perform, Executors.execute, executors]

/-- A command to move takes no other part along. -/
theorem not_partsDelivered :
    ¬∀ (ind : ℕ → SensorIndicator) (order : List ℕ) (soc : SocData ℕ) (h : Handlers ℕ)
      (ctrl : MiscChassisCtrl ℕ ℕ ℕ ℕ),
      Delivered ind order (executors ind order soc h) ctrl
        ((executors ind order soc h).recvChassCtrl ctrl) := by
  intro hall
  have hhanded := (hall (fun _ => ⟨.soc, .audio, ""⟩) [0] {} {}
    { moveCtrl := some 1, miscCtrl := some { audio := some 2 } }).handed
  exact absurd hhanded (by decide)

end DevParseLink

end Mastiff.Device

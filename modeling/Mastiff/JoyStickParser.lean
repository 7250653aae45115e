import Mastiff.CircularBuffer
import Mastiff.JoyStickData

/-!
# Joystick events in the parser

`JoyStickParser` (`chassis/parser/parse_libs/joystick_parser.cc`) is handed the events as an
argument of `ParseSocRaw`, and looks for their number in its circular buffer. `GetCircleBuff`
(`chassis/parser/common_inf.cc`) has no buffer for a joystick, so `Init` makes none.

`not_handles` : after `Init` and `Start`, whatever the configuration, no batch of events is
handled. A buffer would not help, since nothing is pushed into it (`parseSocRaw_of_new`).
-/

namespace Mastiff

open Memory Bytes Soc

/-! ## The configuration -/

/-- The lists of devices of a `ChassisConfig`. -/
inductive DeviceList
  | gpio
  | adc
  | pwm
  | lidar
  | imu
  | dtof
  | camera
  | mcu
  | aud
  | servo
  | wireless
  | linelaser
  | joystick
  deriving DecidableEq

/-- `EE_COMM_PORT_TYPE`. -/
inductive CommPort
  | sentinel
  | serial
  | p485
  | p232
  | can
  | i2c
  | spi
  | usb
  | mipi
  | gpio
  | i2s
  | sdio
  | p24g
  deriving DecidableEq

structure CircularBufSetting where
  circlularSize : ℕ
  deriving DecidableEq

/-- The fields of a device that are read here : the buffer settings of its ports, and whether it
has a `joy_conf`. -/
structure DevConf where
  uartConfigs : Option CircularBufSetting := none
  i2cConfigs : Option CircularBufSetting := none
  canConfigs : Option CircularBufSetting := none
  hasJoyConf : Bool := false
  deriving DecidableEq

structure ChassisConfig where
  devs : DeviceList → List DevConf

/-- A pointer to the indicator of a device : its list and its place there. -/
structure IndicatorRef where
  list : DeviceList
  place : ℕ
  deriving DecidableEq

namespace ChassisConfig

/-- The device whose indicator `sidc` points to, which the loops look for. -/
def find? (c : ChassisConfig) (sidc : IndicatorRef) : Option DevConf :=
  (c.devs sidc.list)[sidc.place]?

/-- `GetCircleBuff`. -/
def getCircleBuff (c : ChassisConfig) (sidc : IndicatorRef) : Option CircularBufSetting :=
  match c.find? sidc with
  | none => none
  | some dev =>
    match sidc.list with
    | .gpio | .adc | .pwm | .dtof | .camera | .aud | .wireless | .joystick => none
    | .lidar | .mcu | .linelaser => dev.uartConfigs
    | .imu => dev.uartConfigs <|> dev.i2cConfigs
    | .servo => dev.canConfigs

/-- `GetDeviceConfig`, cast to a `JoyStickDevConf`. -/
def joyStickDevConf (c : ChassisConfig) (sidc : IndicatorRef) : Option DevConf :=
  if sidc.list = .joystick then c.find? sidc else none

end ChassisConfig

/-! ## The parser -/

/-- A fault of the parser : a null pointer is followed, or the memory misused. -/
inductive JoyFault
  | nullPointer
  | memory (f : Fault)
  deriving DecidableEq

/-- The members of `JoyStickParser` that are used here, and the port of its indicator. -/
structure JoyStickParser where
  sIdc : IndicatorRef
  port : CommPort
  cbufRaw : Option (CircularBuffer Byte) := none

namespace JoyStickParser

/-- `ParserBaseItf::Init`. -/
def baseInit (c : ChassisConfig) (p : JoyStickParser) : JoyStickParser × ℤ :=
  let cbs := c.getCircleBuff p.sIdc
  match p.port with
  | .i2c | .usb | .gpio | .i2s | .p24g | .sdio => (p, 0)
  | .serial | .can =>
    match cbs with
    | some setting => ({ p with cbufRaw := some (CircularBuffer.new setting.circlularSize) }, 0)
    | none => (p, 0)
  | .sentinel | .p485 | .p232 | .spi | .mipi => (p, -1)

/-- `Init`. -/
def init (c : ChassisConfig) (p : JoyStickParser) : Except JoyFault (JoyStickParser × ℤ) :=
  match c.joyStickDevConf p.sIdc with
  | none => .error .nullPointer
  | some dev => if dev.hasJoyConf then .ok (p.baseInit c) else .ok (p, -1)

/-- `Start`, `drv` being what the driver returns. -/
def start (p : JoyStickParser) (drv : ℤ) : JoyStickParser × ℤ :=
  ({ p with cbufRaw := p.cbufRaw.map CircularBuffer.opened }, drv)

/-- `ParseSocRaw(si, buf, len)`, `buf` the `len` bytes, with the events that it calls
`ParseSigleFrame` with. `ParseSigleFrame` returns 0. -/
def parseSocRaw (p : JoyStickParser) (buf : List Byte) :
    Except JoyFault (JoyStickParser × ℤ × List (List Byte)) :=
  match p.cbufRaw with
  | none => .error .nullPointer
  | some cbuf => do
    let cbufLen := cbuf.cbufSize
    if cbufLen < jsEventSize then
      return (p, 0, [])
    let r ← (cbuf.readSafely (List.replicate cbufLen.toNat 0)).mapError .memory
    if r.1 = false then
      return (p, -1, [])
    let q ← (cbuf.restore cbufLen.toNat).mapError .memory
    let p := { p with cbufRaw := some q.2 }
    if cbufLen ≠ jsEventSize then
      return (p, -1, [])
    let event ← (copyLoop buf buf.length 0 0 (List.replicate jsEventSize 0)).mapError .memory
    return (p, 0, [event])

/-- `OnOriginalDataSoc(si, msg, buf, len)`. The message is not looked at. -/
def onOriginalDataSoc (p : JoyStickParser) (buf : List Byte) :
    Except JoyFault (JoyStickParser × List (List Byte)) :=
  if buf.length = 0 then .ok (p, [])
  else do
    let r ← p.parseSocRaw buf
    return (r.1, r.2.2)

/-- The events are handled : nothing goes wrong, and `ParseSigleFrame` is called with each of
them, in order. -/
def Handles (p : JoyStickParser) (events : List (List Byte)) : Prop :=
  ∃ p', p.onOriginalDataSoc events.flatten = .ok (p', events)

variable {c : ChassisConfig} {p p' : JoyStickParser} {ret : ℤ}

/-! ## No buffer -/

theorem getCircleBuff_joystick (c : ChassisConfig) (place : ℕ) :
    c.getCircleBuff ⟨.joystick, place⟩ = none := by
  rw [ChassisConfig.getCircleBuff]
  split <;> rfl

/-- A joystick's parser has no buffer, if it had none before. -/
theorem baseInit_of_joystick (hlist : p.sIdc.list = .joystick) (c : ChassisConfig) :
    (p.baseInit c).1 = p := by
  obtain ⟨⟨list, place⟩, port, cbufRaw⟩ := p
  obtain rfl : list = .joystick := hlist
  cases port <;> simp only [baseInit, getCircleBuff_joystick]

theorem init_eq_ok (hlist : p.sIdc.list = .joystick) (h : p.init c = .ok (p', ret)) : p' = p := by
  rw [init] at h
  split at h
  · cases h
  · split_ifs at h
    · have hp := congrArg Prod.fst (Except.ok.inj h)
      rw [baseInit_of_joystick hlist c] at hp
      exact hp.symm
    · exact (congrArg Prod.fst (Except.ok.inj h)).symm

/-- Without a buffer a null pointer is followed. -/
theorem onOriginalDataSoc_of_none (hnone : p.cbufRaw = none) {buf : List Byte}
    (hbuf : buf ≠ []) : p.onOriginalDataSoc buf = .error .nullPointer := by
  rw [onOriginalDataSoc, if_neg (fun h => hbuf (List.length_eq_zero_iff.1 h)), parseSocRaw, hnone]
  rfl

/-- With a buffer into which nothing was pushed `ParseSocRaw` passes over the events. -/
theorem parseSocRaw_of_new (cap : ℕ) (hbuf : p.cbufRaw = some (CircularBuffer.new cap).opened)
    (buf : List Byte) : p.parseSocRaw buf = .ok (p, 0, []) := by
  have hsize : (CircularBuffer.new cap : CircularBuffer Byte).opened.cbufSize < jsEventSize := by
    simp [CircularBuffer.cbufSize, CircularBuffer.opened, CircularBuffer.new, jsEventSize]
  rw [parseSocRaw, hbuf]
  simp only [if_pos hsize]
  rfl

/-! ## Batches -/

/-- The bytes of a batch of events are not none. -/
theorem flatten_ne_nil {events : List (List Byte)} (hne : events ≠ [])
    (hsize : ∀ e ∈ events, e.length = jsEventSize) : events.flatten ≠ [] := by
  obtain ⟨e, es, rfl⟩ := List.exists_cons_of_ne_nil hne
  have he := hsize e (List.mem_cons_self ..)
  intro hnil
  rw [List.flatten_cons, List.append_eq_nil_iff] at hnil
  rw [hnil.1] at he
  cases he

/-- No joystick's parser follows anything but a null pointer after `Init` and `Start`. -/
theorem onOriginalDataSoc_start (hlist : p.sIdc.list = .joystick) (hnew : p.cbufRaw = none)
    (hinit : p.init c = .ok (p', ret)) (drv : ℤ) {events : List (List Byte)}
    (hne : events ≠ []) (hsize : ∀ e ∈ events, e.length = jsEventSize) :
    (p'.start drv).1.onOriginalDataSoc events.flatten = .error .nullPointer := by
  rw [init_eq_ok hlist hinit]
  refine onOriginalDataSoc_of_none ?_ (flatten_ne_nil hne hsize)
  rw [start, hnew]
  rfl

/-- Whatever the configuration, the place of the joystick in it and its port, the parser, after
`Init` and `Start`, handles no batch of events. -/
theorem not_handles (c : ChassisConfig) (place : ℕ) (port : CommPort) (p : JoyStickParser)
    (ret drv : ℤ) (hinit : init c { sIdc := ⟨.joystick, place⟩, port := port } = .ok (p, ret))
    (events : List (List Byte)) (hne : events ≠ [])
    (hsize : ∀ e ∈ events, e.length = jsEventSize) : ¬Handles (p.start drv).1 events := by
  rintro ⟨p', hok⟩
  rw [onOriginalDataSoc_start rfl rfl hinit drv hne hsize] at hok
  cases hok

/-- A configuration of one joystick. -/
def oneJoyStick : ChassisConfig where
  devs list := if list = .joystick then [{ hasJoyConf := true }] else []

theorem not_handles_oneJoyStick :
    ¬Handles (start { sIdc := ⟨.joystick, 0⟩, port := .usb } 0).1
      [[0, 0, 0, 0, 1, 0, 1, 4]] :=
  not_handles oneJoyStick 0 .usb _ 0 0 rfl _ (by simp) (by simp [jsEventSize])

/-- A button of the joystick is pressed. -/
theorem not_forall_handles :
    ¬∀ (c : ChassisConfig) (place : ℕ) (port : CommPort) (p : JoyStickParser) (ret drv : ℤ),
      init c { sIdc := ⟨.joystick, place⟩, port := port } = .ok (p, ret) →
      ∀ events : List (List Byte), events ≠ [] → (∀ e ∈ events, e.length = jsEventSize) →
        Handles (p.start drv).1 events := by
  intro h
  obtain ⟨p', hok⟩ := h oneJoyStick 0 .usb { sIdc := ⟨.joystick, 0⟩, port := .usb } 0 0 rfl
    [[0, 0, 0, 0, 1, 0, 1, 4]] (by simp) (by simp [jsEventSize])
  cases hok

end JoyStickParser

end Mastiff

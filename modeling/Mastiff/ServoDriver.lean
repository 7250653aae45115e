import Mastiff.Lib.Bytes

/-!
# The servo drive's reports

`parse_servo_motor_info` (`parse_libs/ds20270da_driver.c`) decodes one CAN message of the
wheel drive : the speed and encoder of a wheel, its status, or the acknowledgement of a
register read, which it stores in the register tables.

The first test of the function drops echoes of commands by their byte 2. In a wheel
report byte 2 is the low byte of the speed, so a report is decoded exactly when that byte
is none of the five command bytes (`decodes_iff`).
-/

set_option linter.unusedSectionVars false

open Memory Bytes

namespace Mastiff

/-- A C `int` : 32 bits, two's complement. -/
abbrev CInt := BitVec 32

/-! ## Register tables -/

/-- `ServoMotorBriefDes`, the address and value of a register of one axle. -/
structure ServoMotorBriefDes where
  funcAddr : BitVec 16
  regValue : BitVec 16
  deriving DecidableEq

/-- `ServoMotorDes`, one register of both axles. -/
structure ServoMotorDes where
  ax0 : ServoMotorBriefDes
  ax1 : ServoMotorBriefDes
  deriving DecidableEq

/-- The three register tables of the driver. -/
structure ServoMotorTables where
  fn : List ServoMotorDes
  dn : List ServoMotorDes
  pn : List ServoMotorDes
  deriving DecidableEq

/-- The address bytes of a message name the register. -/
def ServoMotorBriefDes.hasAddr (d : ServoMotorBriefDes) (addrL addrH : Byte) : Bool :=
  d.funcAddr.extractLsb' 0 8 == addrL && d.funcAddr.extractLsb' 8 8 == addrH

/-- `find_servo_motor_{fn,dn,pn}_des_by_addr` : the first entry with the address, and
whether it is the address of axle 0. -/
def findServoMotorDesByAddr (tbl : List ServoMotorDes) (addrL addrH : Byte) :
    Option (ℕ × Bool) :=
  match tbl with
  | [] => none
  | x :: rest =>
    if x.ax0.hasAddr addrL addrH then some (0, true)
    else if x.ax1.hasAddr addrL addrH then some (0, false)
    else (findServoMotorDesByAddr rest addrL addrH).map fun r => (r.1 + 1, r.2)

/-- Store a value in the register of one axle. -/
def ServoMotorDes.setReg (isAx0 : Bool) (v : BitVec 16) (x : ServoMotorDes) : ServoMotorDes :=
  if isAx0 then { x with ax0 := { x.ax0 with regValue := v } }
  else { x with ax1 := { x.ax1 with regValue := v } }

/-! ## Decoding -/

/-- The six outputs of `parse_servo_motor_info`. -/
structure ServoMotorInfo where
  speedLeft : CInt
  speedRight : CInt
  encoderLeft : CInt
  encoderRight : CInt
  statusLeft : CInt
  statusRight : CInt
  deriving DecidableEq

/-- The echo filter, on byte 2 of the message : `DS_MOTOR_READ_BOTH_CMD`,
`DS_MOTOR_WRITE_BOTH_CMD` and the three `DS_MOTOR_WRITE_CANOPEN_*`. -/
def isEcho (b : Byte) : Bool :=
  b == 0xe8 || b == 0xe9 || b == 0x2f || b == 0x24 || b == 0x23

/-- The register write of a read acknowledgement. The tables are searched in turn. -/
def storeReadAck (addr : List Byte) (tables : ServoMotorTables) :
    Except Fault ServoMotorTables := do
  let addrL ← readAt addr 3
  let addrH ← readAt addr 4
  match findServoMotorDesByAddr tables.fn addrL addrH with
  | some (i, isAx0) =>
    let v ← readWord16 addr 6
    return { tables with fn := tables.fn.modify i (.setReg isAx0 v) }
  | none =>
    match findServoMotorDesByAddr tables.dn addrL addrH with
    | some (i, isAx0) =>
      let v ← readWord16 addr 6
      return { tables with dn := tables.dn.modify i (.setReg isAx0 v) }
    | none =>
      match findServoMotorDesByAddr tables.pn addrL addrH with
      | some (i, isAx0) =>
        let v ← readWord16 addr 6
        return { tables with pn := tables.pn.modify i (.setReg isAx0 v) }
      | none => return tables

/-- The acknowledgement branches, told apart by byte 2. All but the read acknowledgement
and the axle operation echo print the ten bytes of the message. -/
def parseAck (addr : List Byte) (b2 : Byte) (tables : ServoMotorTables) :
    Except Fault ServoMotorTables := do
  if b2 = 0x4b then
    storeReadAck addr tables
  else if b2 = 0x60 ∨ b2 = 0xea then
    let _ ← slice addr 0 10
    return tables
  else if b2 = 0x2b then
    let b3 ← readAt addr 3
    if b3 = 0x40 then
      return tables
    else
      let _ ← slice addr 0 10
      return tables
  else
    let _ ← slice addr 0 10
    return tables

/-- `parse_servo_motor_info(addr, len, ...)`, `addr` the readable bytes. -/
def parseServoMotorInfo (addr : List Byte) (len : ℕ) (info : ServoMotorInfo)
    (tables : ServoMotorTables) : Except Fault (ServoMotorInfo × ServoMotorTables) := do
  let b2 ← readAt addr 2
  if isEcho b2 then
    return (info, tables)
  else if len ≠ 10 ∧ len ≠ 6 ∧ len ≠ 5 then
    -- the message is printed
    let _ ← slice addr 0 len
    return (info, tables)
  else
    let id ← readWord16 addr 0
    if id = 0x1081 then
      let speed ← readWord32 addr 2
      let encoder ← readWord32 addr 6
      return ({ info with speedRight := speed, encoderRight := encoder }, tables)
    else if id = 0x1082 then
      let speed ← readWord32 addr 2
      let encoder ← readWord32 addr 6
      return ({ info with speedLeft := speed, encoderLeft := encoder }, tables)
    else if id = 0x2081 then
      let status ← readWord32 addr 2
      return ({ info with statusRight := status }, tables)
    else if id = 0x2082 then
      let status ← readWord32 addr 2
      return ({ info with statusLeft := status }, tables)
    else if id = 0x4001 ∨ id = 0x4002 then
      return (info, tables)
    else
      let tables ← parseAck addr b2 tables
      return (info, tables)

/-! ## Wheel reports -/

/-- The two wheels, axle 1 right and axle 2 left. -/
inductive Wheel
  | right
  | left
  deriving DecidableEq

/-- The id bytes of a wheel's report, `0x1081` or `0x1082`. -/
def Wheel.idBytes : Wheel → List Byte
  | .right => [0x81, 0x10]
  | .left => [0x82, 0x10]

/-- The report the drive sends for a wheel. -/
def wheelReport (w : Wheel) (speed encoder : CInt) : List Byte :=
  w.idBytes ++ bytes32 speed ++ bytes32 encoder

/-- The outputs with a wheel's speed and encoder set and the others as they were. -/
def ServoMotorInfo.setWheel (info : ServoMotorInfo) (w : Wheel) (speed encoder : CInt) :
    ServoMotorInfo :=
  match w with
  | .right => { info with speedRight := speed, encoderRight := encoder }
  | .left => { info with speedLeft := speed, encoderLeft := encoder }

@[simp] theorem length_wheelReport (w : Wheel) (speed encoder : CInt) :
    (wheelReport w speed encoder).length = 10 := by
  cases w <;> rfl

theorem readAt_two_wheelReport (w : Wheel) (speed encoder : CInt) :
    readAt (wheelReport w speed encoder) 2 = .ok (lowByte speed) := by
  cases w <;> rfl

theorem readWord32_speed (w : Wheel) (speed encoder : CInt) :
    readWord32 (wheelReport w speed encoder) 2 = .ok speed := by
  have h := readWord32_bytes32 w.idBytes (bytes32 encoder) speed
  cases w <;> exact h

theorem readWord32_encoder (w : Wheel) (speed encoder : CInt) :
    readWord32 (wheelReport w speed encoder) 6 = .ok encoder := by
  have h := readWord32_bytes32 (w.idBytes ++ bytes32 speed) [] encoder
  rw [List.append_nil] at h
  cases w <;> exact h

/-- A report whose low speed byte is a command byte is dropped, the outputs untouched. -/
theorem parse_wheelReport_echo (w : Wheel) (speed encoder : CInt) (info : ServoMotorInfo)
    (tables : ServoMotorTables) (h : isEcho (lowByte speed) = true) :
    parseServoMotorInfo (wheelReport w speed encoder) 10 info tables = .ok (info, tables) := by
  rw [parseServoMotorInfo, readAt_two_wheelReport, ok_bind, if_pos h]
  rfl

/-- Every other report is decoded to its values. -/
theorem parse_wheelReport (w : Wheel) (speed encoder : CInt) (info : ServoMotorInfo)
    (tables : ServoMotorTables) (h : isEcho (lowByte speed) = false) :
    parseServoMotorInfo (wheelReport w speed encoder) 10 info tables =
      .ok (info.setWheel w speed encoder, tables) := by
  have hid : readWord16 (wheelReport w speed encoder) 0 =
      .ok (match w with | .right => 0x1081 | .left => 0x1082) := by
    cases w <;> rfl
  rw [parseServoMotorInfo, readAt_two_wheelReport, ok_bind, if_neg (by simp [h]),
    if_neg (by simp), hid, ok_bind, readWord32_speed, readWord32_encoder]
  cases w <;> rfl

/-- A report is decoded to exactly its values, whatever the outputs held before, if and
only if the low byte of its speed is none of the echo filter's command bytes. -/
theorem decodes_iff (w : Wheel) (speed encoder : CInt) :
    (∀ info tables, parseServoMotorInfo (wheelReport w speed encoder) 10 info tables =
      .ok (info.setWheel w speed encoder, tables)) ↔ isEcho (lowByte speed) = false := by
  constructor
  · intro h
    by_contra hecho
    -- outputs that differ from the report in the wheel's speed
    have hset := h ⟨~~~speed, ~~~speed, 0, 0, 0, 0⟩ ⟨[], [], []⟩
    rw [parse_wheelReport_echo w speed encoder _ _ (by simpa using hecho)] at hset
    have hne : ~~~speed ≠ speed := by
      intro heq
      have hbit := congrArg (fun x : CInt => x.getLsbD 0) heq
      simp at hbit
    cases w <;> simp [ServoMotorInfo.setWheel, hne] at hset
  · intro h info tables
    exact parse_wheelReport w speed encoder info tables h

/-- A right wheel at speed 35 has the low byte `0x23`, a command byte. -/
theorem not_decodes : ¬∀ (w : Wheel) (speed encoder : CInt) info tables,
    parseServoMotorInfo (wheelReport w speed encoder) 10 info tables =
      .ok (info.setWheel w speed encoder, tables) := by
  intro h
  have hright := h .right 35 7 ⟨0, 0, 0, 0, 0, 0⟩ ⟨[], [], []⟩
  revert hright
  decide

end Mastiff

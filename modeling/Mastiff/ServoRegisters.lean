import Mathlib.Logic.Function.Basic
import Mastiff.ServoDriver

/-!
# The servo drive's registers

The register tables of `parse_libs/ds20270da_driver.c`. Each register is declared with the one
before it, its `des_last`. `init_servo_motor_{fn,dn,pn}_des` fill an array of pointers from a
register back along these links, and the value of a read acknowledgement is stored in the
register that is found in the arrays by its address.

The array of the PN registers is filled from `p_6_0xc`, which is not the last one. `p_6_0xd` and
`p_6_0xe` are in no array (`mem_linked_iff`), and the first register fills the places that are
left.

`parseServoMotorInfo_tables` : with the tables held by value the driver does the same, unless the
address is one of the first register.

`readsBack_iff` : the value is stored in exactly the register that is declared at the address,
and in none if none is, except at the addresses of these two, and at `0xfff5`, which the PN
registers have in the place of an address for axle 1.
-/

open Memory Bytes

namespace Mastiff

/-! ## Declarations -/

/-- The register `f_<code_m>_<param_xyz>`, `d_<param_xyz>` or `p_<code_m>_<param_xyz>`. -/
inductive DesName
  | f (codeM paramXyz : ℕ)
  | d (paramXyz : ℕ)
  | p (codeM paramXyz : ℕ)
  deriving DecidableEq

/-- A declaration : the register, and the one its `des_last` points to. -/
structure DesDecl where
  des : DesName
  desLast : DesName
  deriving DecidableEq

/-- `GEN_SERVO_MOTOR_FN_DES`. -/
def fnDes (codeM paramXyz lastCodeM lastParamXyz : ℕ) : DesDecl :=
  ⟨.f codeM paramXyz, .f lastCodeM lastParamXyz⟩

/-- `GEN_SERVO_MOTOR_DN_DES`. -/
def dnDes (paramXyz lastParamXyz : ℕ) : DesDecl :=
  ⟨.d paramXyz, .d lastParamXyz⟩

/-- `GEN_SERVO_MOTOR_PN_DES`. -/
def pnDes (codeM paramXyz lastCodeM lastParamXyz : ℕ) : DesDecl :=
  ⟨.p codeM paramXyz, .p lastCodeM lastParamXyz⟩

/-- The FN registers. -/
def servoFnDes : List DesDecl :=
  [
    fnDes 0 0x0 0 0x0, fnDes 0 0x1 0 0x0, fnDes 0 0x2 0 0x1, fnDes 0 0x3 0 0x2, fnDes 0 0x4 0 0x3,
    fnDes 0 0x5 0 0x4, fnDes 0 0x6 0 0x5, fnDes 0 0x7 0 0x6, fnDes 0 0x8 0 0x7, fnDes 1 0x0 0 0x8,
    fnDes 1 0x1 1 0x0, fnDes 1 0x2 1 0x1, fnDes 1 0x6 1 0x2, fnDes 1 0x7 1 0x6, fnDes 1 0x8 1 0x7,
    fnDes 1 0x9 1 0x8, fnDes 1 0xa 1 0x9, fnDes 1 0x10 1 0xa, fnDes 1 0x11 1 0x10,
    fnDes 1 0x12 1 0x11, fnDes 1 0x13 1 0x12, fnDes 1 0x14 1 0x13, fnDes 1 0x15 1 0x14,
    fnDes 1 0x16 1 0x15, fnDes 1 0x17 1 0x16, fnDes 1 0x18 1 0x17, fnDes 1 0x19 1 0x18,
    fnDes 1 0x1a 1 0x19, fnDes 1 0x1b 1 0x1a, fnDes 1 0x1c 1 0x1b, fnDes 2 0x0 1 0x1c,
    fnDes 2 0x1 2 0x0, fnDes 2 0x4 2 0x1, fnDes 2 0x5 2 0x4, fnDes 2 0x6 2 0x5, fnDes 2 0x7 2 0x6,
    fnDes 2 0x8 2 0x7, fnDes 2 0xb 2 0x8, fnDes 2 0xc 2 0xb, fnDes 2 0xe 2 0xc, fnDes 2 0xf 2 0xe,
    fnDes 2 0x10 2 0xf, fnDes 3 0x0 2 0x10, fnDes 3 0x1 3 0x0, fnDes 3 0x2 3 0x1,
    fnDes 3 0x3 3 0x2, fnDes 3 0x4 3 0x3, fnDes 3 0x5 3 0x4, fnDes 3 0x6 3 0x5, fnDes 3 0x7 3 0x6,
    fnDes 3 0x8 3 0x7, fnDes 3 0x9 3 0x8, fnDes 3 0xa 3 0x9, fnDes 3 0xb 3 0xa, fnDes 3 0xd 3 0xb,
    fnDes 3 0xe 3 0xd, fnDes 3 0x10 3 0xe, fnDes 3 0x11 3 0x10, fnDes 3 0x14 3 0x11,
    fnDes 3 0x15 3 0x14, fnDes 3 0x16 3 0x15, fnDes 3 0x17 3 0x16, fnDes 3 0x18 3 0x17,
    fnDes 3 0x19 3 0x18, fnDes 3 0x1a 3 0x19, fnDes 3 0x1b 3 0x1a, fnDes 3 0x1c 3 0x1b,
    fnDes 3 0x1d 3 0x1c, fnDes 3 0x1e 3 0x1d, fnDes 3 0x1f 3 0x1e, fnDes 3 0x20 3 0x1f,
    fnDes 3 0x21 3 0x20, fnDes 3 0x23 3 0x21, fnDes 3 0x24 3 0x23, fnDes 3 0x25 3 0x24,
    fnDes 3 0x26 3 0x25, fnDes 3 0x27 3 0x26, fnDes 3 0x28 3 0x27, fnDes 3 0x29 3 0x28,
    fnDes 4 0x0 3 0x29, fnDes 4 0x1 4 0x0, fnDes 4 0x2 4 0x1, fnDes 4 0x3 4 0x2, fnDes 4 0x4 4 0x3,
    fnDes 4 0x5 4 0x4, fnDes 4 0x8 4 0x5, fnDes 4 0x9 4 0x8, fnDes 4 0xa 4 0x9, fnDes 4 0xb 4 0xa,
    fnDes 4 0xc 4 0xb, fnDes 4 0x15 4 0xc, fnDes 4 0x22 4 0x15, fnDes 4 0x24 4 0x22,
    fnDes 4 0x25 4 0x24, fnDes 4 0x26 4 0x25, fnDes 4 0x2a 4 0x26, fnDes 4 0x2d 4 0x2a,
    fnDes 4 0x2e 4 0x2d]

/-- The DN registers. -/
def servoDnDes : List DesDecl :=
  [
    dnDes 0x0 0x0, dnDes 0x1 0x0, dnDes 0x2 0x1, dnDes 0x3 0x2, dnDes 0x4 0x3, dnDes 0x5 0x4,
    dnDes 0x7 0x5, dnDes 0x9 0x7, dnDes 0xa 0x9, dnDes 0xb 0xa, dnDes 0xc 0xb, dnDes 0xd 0xc,
    dnDes 0x12 0xd, dnDes 0x13 0x12, dnDes 0x14 0x13, dnDes 0x15 0x14, dnDes 0x16 0x15,
    dnDes 0x17 0x16, dnDes 0x18 0x17, dnDes 0x19 0x18, dnDes 0x1a 0x19, dnDes 0x1b 0x1a]

/-- The PN registers. -/
def servoPnDes : List DesDecl :=
  [
    pnDes 0 0x0 0 0x0, pnDes 0 0x1 0 0x0, pnDes 0 0x2 0 0x1, pnDes 0 0x3 0 0x2, pnDes 1 0x0 0 0x3,
    pnDes 1 0x1 1 0x0, pnDes 1 0x2 1 0x1, pnDes 1 0x3 1 0x2, pnDes 1 0x4 1 0x3, pnDes 1 0x5 1 0x4,
    pnDes 1 0x6 1 0x5, pnDes 1 0x7 1 0x6, pnDes 4 0x0 1 0x7, pnDes 4 0x3 4 0x0, pnDes 4 0x4 4 0x3,
    pnDes 4 0x5 4 0x4, pnDes 4 0x6 4 0x5, pnDes 4 0x7 4 0x6, pnDes 4 0x8 4 0x7, pnDes 4 0x9 4 0x8,
    pnDes 4 0xa 4 0x9, pnDes 5 0x0 4 0xa, pnDes 5 0x1 5 0x0, pnDes 5 0x2 5 0x1, pnDes 5 0x3 5 0x2,
    pnDes 5 0x4 5 0x3, pnDes 5 0x5 5 0x4, pnDes 5 0x6 5 0x5, pnDes 5 0x7 5 0x6, pnDes 5 0x8 5 0x7,
    pnDes 5 0x9 5 0x8, pnDes 5 0xa 5 0x9, pnDes 5 0xb 5 0xa, pnDes 5 0xc 5 0xb, pnDes 5 0xd 5 0xc,
    pnDes 5 0xe 5 0xd, pnDes 5 0xf 5 0xe, pnDes 6 0x0 5 0xf, pnDes 6 0x2 6 0x0, pnDes 6 0x3 6 0x2,
    pnDes 6 0x4 6 0x3, pnDes 6 0xa 6 0x4, pnDes 6 0xb 6 0xa, pnDes 6 0xc 6 0xb, pnDes 6 0xd 6 0xc,
    pnDes 6 0xe 6 0xd]

/-- The names of all registers. -/
def desNames : List DesName :=
  (servoFnDes ++ servoDnDes ++ servoPnDes).map DesDecl.des

namespace DesName

/-- The `func_addr` of a register, of its `ax0` or its `ax1`. -/
def funcAddr : DesName → Bool → BitVec 16
  | .f codeM paramXyz, true => BitVec.ofNat 16 (0x2000 + codeM * 0x100 + paramXyz)
  | .f codeM paramXyz, false => BitVec.ofNat 16 (0x3000 + codeM * 0x100 + paramXyz)
  | .d paramXyz, true => BitVec.ofNat 16 (0x5000 + paramXyz)
  | .d paramXyz, false => BitVec.ofNat 16 (0x5100 + paramXyz)
  | .p codeM paramXyz, true => BitVec.ofNat 16 (0x4000 + codeM * 0x100 + paramXyz)
  | .p _ _, false => -11

/-- The register has the axle : a PN register has no `ax1`, its number is `-11`. -/
def hasAxle : DesName → Bool → Bool
  | .p _ _, false => false
  | _, _ => true

end DesName

/-! ## Arrays of pointers -/

/-- `x->des_last`. -/
def desLast (decls : List DesDecl) (x : DesName) : DesName :=
  ((decls.find? fun d => d.des = x).map DesDecl.desLast).getD x

/-- The loop of an `init_servo_motor_{fn,dn,pn}_des`, with its last `n` passes to go. -/
def fillArray (decls : List DesDecl) : ℕ → DesName → List DesName
  | 0, _ => []
  | n + 1, x => fillArray decls n (desLast decls x) ++ [x]

/-- `servo_fn_des_ptr_array` after `init_servo_motor_fn_des`. -/
def initServoMotorFnDes : List DesName :=
  fillArray servoFnDes 98 (.f 4 0x2e)

/-- `servo_dn_des_ptr_array` after `init_servo_motor_dn_des`. -/
def initServoMotorDnDes : List DesName :=
  fillArray servoDnDes 22 (.d 0x1b)

/-- `servo_pn_des_ptr_array` after `init_servo_motor_pn_des`. -/
def initServoMotorPnDes : List DesName :=
  fillArray servoPnDes 46 (.p 6 0xc)

/-! ## Storing -/

/-- The `reg_value` of every register, of its `ax0` and its `ax1`. -/
abbrev ServoRegisters := DesName × Bool → BitVec 16

namespace ServoRegisters

/-- The values the registers are declared with. -/
def initial : ServoRegisters :=
  fun _ => -11

/-- The `struct ServoMotorDes` that is pointed to. -/
def des (r : ServoRegisters) (x : DesName) : ServoMotorDes :=
  ⟨⟨x.funcAddr true, r (x, true)⟩, ⟨x.funcAddr false, r (x, false)⟩⟩

/-- A search by address, and the register at the place in the array. -/
def findByAddr (r : ServoRegisters) (array : List DesName) (addrL addrH : Byte) :
    Option (DesName × Bool) := do
  let (i, isAx0) ← findServoMotorDesByAddr (array.map r.des) addrL addrH
  let x ← array[i]?
  return (x, isAx0)

/-- The write of a read acknowledgement to the register found, the arrays searched in turn. -/
def storeReadAck (addr : List Byte) (r : ServoRegisters) : Except Fault ServoRegisters := do
  let addrL ← readAt addr 3
  let addrH ← readAt addr 4
  match r.findByAddr initServoMotorFnDes addrL addrH <|>
    r.findByAddr initServoMotorDnDes addrL addrH <|>
    r.findByAddr initServoMotorPnDes addrL addrH with
  | some x =>
    let v ← readWord16 addr 6
    return Function.update r x v
  | none => return r

/-- The acknowledgement branches, with `store` the write of a read acknowledgement. -/
def parseAckWith {σ : Type} (store : List Byte → σ → Except Fault σ) (addr : List Byte)
    (b2 : Byte) (regs : σ) : Except Fault σ := do
  if b2 = 0x4b then
    store addr regs
  else if b2 = 0x60 ∨ b2 = 0xea then
    let _ ← slice addr 0 10
    return regs
  else if b2 = 0x2b then
    let b3 ← readAt addr 3
    if b3 = 0x40 then
      return regs
    else
      let _ ← slice addr 0 10
      return regs
  else
    let _ ← slice addr 0 10
    return regs

/-- `parse_servo_motor_info(addr, len, ...)`, with `store` the write of a read
acknowledgement. -/
def parseServoMotorInfoWith {σ : Type} (store : List Byte → σ → Except Fault σ)
    (addr : List Byte) (len : ℕ) (info : ServoMotorInfo) (regs : σ) :
    Except Fault (ServoMotorInfo × σ) := do
  let b2 ← readAt addr 2
  if isEcho b2 then
    return (info, regs)
  else if len ≠ 10 ∧ len ≠ 6 ∧ len ≠ 5 then
    let _ ← slice addr 0 len
    return (info, regs)
  else
    let id ← readWord16 addr 0
    if id = 0x1081 then
      let speed ← readWord32 addr 2
      let encoder ← readWord32 addr 6
      return ({ info with speedRight := speed, encoderRight := encoder }, regs)
    else if id = 0x1082 then
      let speed ← readWord32 addr 2
      let encoder ← readWord32 addr 6
      return ({ info with speedLeft := speed, encoderLeft := encoder }, regs)
    else if id = 0x2081 then
      let status ← readWord32 addr 2
      return ({ info with statusRight := status }, regs)
    else if id = 0x2082 then
      let status ← readWord32 addr 2
      return ({ info with statusLeft := status }, regs)
    else if id = 0x4001 ∨ id = 0x4002 then
      return (info, regs)
    else
      let regs ← parseAckWith store addr b2 regs
      return (info, regs)

/-- `parse_servo_motor_info(addr, len, ...)` on the registers. -/
def parseServoMotorInfo (addr : List Byte) (len : ℕ) (info : ServoMotorInfo)
    (r : ServoRegisters) : Except Fault (ServoMotorInfo × ServoRegisters) :=
  parseServoMotorInfoWith storeReadAck addr len info r

/-- On tables held by value it is the function of the driver. -/
theorem parseServoMotorInfoWith_tables :
    parseServoMotorInfoWith Mastiff.storeReadAck = Mastiff.parseServoMotorInfo :=
  rfl

/-! ## Reading back -/

/-- The register is declared, and for the axle. -/
def Declared (x : DesName × Bool) : Prop :=
  x.1 ∈ desNames ∧ x.1.hasAxle x.2 = true

/-- A read acknowledgement : ten bytes with `DS_MOTOR_ACK_READ_CMD`, and not the id of a report
or an echo. -/
structure ReadAck (msg : List Byte) : Prop where
  length : msg.length = 10
  cmd : byteAt msg 2 = 0x4b
  id : u16At msg 0 ∉ [0x1081, 0x1082, 0x2081, 0x2082, 0x4001, 0x4002]

/-- The value is stored in the register that is declared at the address and in no other, and in
none if none is declared there. -/
structure Stores (msg : List Byte) (r r' : ServoRegisters) : Prop where
  declared : ∀ x, Declared x → x.1.funcAddr x.2 = u16At msg 3 →
    r' = Function.update r x (u16At msg 6)
  undeclared : (∀ x, Declared x → x.1.funcAddr x.2 ≠ u16At msg 3) → r' = r

/-- The parse of a message stores its value. -/
def ReadsBack (msg : List Byte) (info : ServoMotorInfo) (r : ServoRegisters) : Prop :=
  ∃ info' r', parseServoMotorInfo msg 10 info r = .ok (info', r') ∧ Stores msg r r'

/-- The message reaches the register that is declared at its address, or the register has the
value already. -/
structure Reaches (msg : List Byte) (r : ServoRegisters) : Prop where
  p_6_0xd : u16At msg 3 = 0x460d → r (.p 6 0xd, true) = u16At msg 6
  p_6_0xe : u16At msg 3 = 0x460e → r (.p 6 0xe, true) = u16At msg 6
  noAxle : u16At msg 3 = 0xfff5 → r (.p 0 0x0, false) = u16At msg 6

end ServoRegisters

/-! ## Addresses -/

namespace DesName

/-- The numbers of a register are digits of its address. -/
def fits : DesName → Bool
  | .f codeM paramXyz => codeM < 0x10 && paramXyz < 0x100
  | .d paramXyz => paramXyz < 0x100
  | .p codeM paramXyz => codeM < 0x10 && paramXyz < 0x100

/-- The register and the axle an address tells. -/
def ofAddr (a : BitVec 16) : Option (DesName × Bool) :=
  let codeM := a.toNat / 0x100 % 0x10
  let paramXyz := a.toNat % 0x100
  match a.toNat / 0x1000 with
  | 2 => some (.f codeM paramXyz, true)
  | 3 => some (.f codeM paramXyz, false)
  | 4 => some (.p codeM paramXyz, true)
  | 5 => some (.d paramXyz, codeM == 0)
  | _ => none

/-- The digits of an address. -/
theorem digits {page codeM paramXyz : ℕ} (hpage : page < 0x10) (hcode : codeM < 0x10)
    (hparam : paramXyz < 0x100) :
    (BitVec.ofNat 16 (page * 0x1000 + codeM * 0x100 + paramXyz)).toNat / 0x1000 = page ∧
    (BitVec.ofNat 16 (page * 0x1000 + codeM * 0x100 + paramXyz)).toNat / 0x100 % 0x10 = codeM ∧
    (BitVec.ofNat 16 (page * 0x1000 + codeM * 0x100 + paramXyz)).toNat % 0x100 = paramXyz := by
  rw [BitVec.toNat_ofNat, Nat.mod_eq_of_lt (by omega)]
  refine ⟨?_, ?_, ?_⟩
  all_goals omega

/-- An address tells its register and axle, where there is one. -/
theorem ofAddr_funcAddr {x : DesName} (h : x.fits = true) (isAx0 : Bool) :
    ofAddr (x.funcAddr isAx0) = if x.hasAxle isAx0 then some (x, isAx0) else none := by
  cases x with
  | f codeM paramXyz =>
    obtain ⟨hcode, hparam⟩ : codeM < 0x10 ∧ paramXyz < 0x100 := by simpa [fits] using h
    cases isAx0 with
    | true =>
      obtain ⟨hpage, hcode, hparam⟩ := @digits 2 codeM paramXyz (by omega) hcode hparam
      simp only [ofAddr, funcAddr, hpage, hcode, hparam]
      rfl
    | false =>
      obtain ⟨hpage, hcode, hparam⟩ := @digits 3 codeM paramXyz (by omega) hcode hparam
      simp only [ofAddr, funcAddr, hpage, hcode, hparam]
      rfl
  | d paramXyz =>
    have hparam : paramXyz < 0x100 := by simpa [fits] using h
    cases isAx0 with
    | true =>
      obtain ⟨hpage, hcode, hparam⟩ := @digits 5 0 paramXyz (by omega) (by omega) hparam
      simp only [ofAddr, funcAddr, hpage, hcode, hparam]
      rfl
    | false =>
      obtain ⟨hpage, hcode, hparam⟩ := @digits 5 1 paramXyz (by omega) (by omega) hparam
      simp only [ofAddr, funcAddr, hpage, hcode, hparam]
      rfl
  | p codeM paramXyz =>
    obtain ⟨hcode, hparam⟩ : codeM < 0x10 ∧ paramXyz < 0x100 := by simpa [fits] using h
    cases isAx0 with
    | true =>
      obtain ⟨hpage, hcode, hparam⟩ := @digits 4 codeM paramXyz (by omega) hcode hparam
      simp only [ofAddr, funcAddr, hpage, hcode, hparam]
      rfl
    | false =>
      have hnone : ofAddr (-11) = none := by decide
      exact hnone

/-- The register that a search for an address finds in one entry of an array. -/
def atAddr (a : BitVec 16) (x : DesName) : Option (DesName × Bool) :=
  if x.funcAddr true = a then some (x, true)
  else if x.funcAddr false = a then some (x, false)
  else none

theorem atAddr_eq_some {a : BitVec 16} {x : DesName} {y : DesName × Bool}
    (h : x.atAddr a = some y) : y.1 = x ∧ y.1.funcAddr y.2 = a := by
  unfold atAddr at h
  split_ifs at h with htrue hfalse
  · obtain rfl := Option.some.inj h
    exact ⟨rfl, htrue⟩
  · obtain rfl := Option.some.inj h
    exact ⟨rfl, hfalse⟩

theorem atAddr_ne_none (x : DesName) (isAx0 : Bool) : x.atAddr (x.funcAddr isAx0) ≠ none := by
  unfold atAddr
  cases isAx0 <;> split_ifs <;> simp_all

/-- The registers are declared in the order of these numbers. -/
def order : DesName → ℕ
  | f codeM paramXyz => 0x100 * codeM + paramXyz
  | d paramXyz => 0x1000 + paramXyz
  | p codeM paramXyz => 0x2000 + 0x100 * codeM + paramXyz

end DesName

namespace ServoRegisters

/-! ## The arrays -/

theorem initServoMotorFnDes_eq : initServoMotorFnDes = servoFnDes.map DesDecl.des := by
  decide +kernel

theorem initServoMotorDnDes_eq : initServoMotorDnDes = servoDnDes.map DesDecl.des := by
  decide +kernel

/-- Two registers less, and the first one twice more. -/
theorem initServoMotorPnDes_eq : initServoMotorPnDes =
    [.p 0 0x0, .p 0 0x0] ++ (servoPnDes.map DesDecl.des).take 44 := by
  decide +kernel

/-- The registers in the arrays. -/
def linked : List DesName :=
  initServoMotorFnDes ++ initServoMotorDnDes ++ initServoMotorPnDes

theorem linked_eq : linked = servoFnDes.map DesDecl.des ++ servoDnDes.map DesDecl.des ++
    ([.p 0 0x0, .p 0 0x0] ++ (servoPnDes.map DesDecl.des).take 44) := by
  rw [linked, initServoMotorFnDes_eq, initServoMotorDnDes_eq, initServoMotorPnDes_eq]

theorem desNames_fit : ∀ x ∈ desNames, x.fits = true := by
  decide +kernel

theorem desNames_nodup : desNames.Nodup := by
  have hchain : (desNames.map DesName.order).IsChain (· < ·) := by decide +kernel
  refine List.Nodup.of_map DesName.order ?_
  exact hchain.pairwise.imp Nat.ne_of_lt

theorem desNames_eq : desNames = initServoMotorFnDes ++ initServoMotorDnDes ++
    ((servoPnDes.map DesDecl.des).take 44 ++ [.p 6 0xd, .p 6 0xe]) := by
  have hpn : servoPnDes.map DesDecl.des =
      (servoPnDes.map DesDecl.des).take 44 ++ [.p 6 0xd, .p 6 0xe] := rfl
  rw [initServoMotorFnDes_eq, initServoMotorDnDes_eq, ← hpn, desNames, List.map_append,
    List.map_append]

theorem mem_initServoMotorPnDes {x : DesName} :
    x ∈ initServoMotorPnDes ↔ x ∈ (servoPnDes.map DesDecl.des).take 44 := by
  have hfirst : DesName.p 0 0x0 ∈ (servoPnDes.map DesDecl.des).take 44 := .head _
  rw [initServoMotorPnDes_eq, List.mem_append, or_iff_right_of_imp]
  intro hx
  obtain rfl : x = .p 0 0x0 := by simpa using hx
  exact hfirst

/-- Every register but the last two is in an array. -/
theorem mem_linked_iff {x : DesName} :
    x ∈ linked ↔ x ∈ desNames ∧ x ≠ .p 6 0xd ∧ x ≠ .p 6 0xe := by
  have hlinked : x ∈ linked ↔ x ∈ initServoMotorFnDes ++ initServoMotorDnDes ++
      (servoPnDes.map DesDecl.des).take 44 := by
    rw [linked, List.mem_append, mem_initServoMotorPnDes, ← List.mem_append]
  have hnodup := desNames_nodup
  rw [desNames_eq, ← List.append_assoc, List.nodup_append'] at hnodup
  rw [hlinked, desNames_eq, ← List.append_assoc]
  constructor
  · intro hx
    exact ⟨List.mem_append_left _ hx, by simpa using hnodup.2.2 hx⟩
  · rintro ⟨hx, h0xd, h0xe⟩
    refine (List.mem_append.1 hx).resolve_right fun hlast => ?_
    simp only [List.mem_cons, List.not_mem_nil, or_false] at hlast
    exact hlast.elim h0xd h0xe

theorem mem_desNames_of_linked {x : DesName} (h : x ∈ linked) : x ∈ desNames :=
  (mem_linked_iff.1 h).1

theorem notMem_linked : DesName.p 6 0xd ∉ linked ∧ DesName.p 6 0xe ∉ linked :=
  ⟨fun h => (mem_linked_iff.1 h).2.1 rfl, fun h => (mem_linked_iff.1 h).2.2 rfl⟩

theorem Declared.ofAddr {x : DesName × Bool} (h : Declared x) :
    DesName.ofAddr (x.1.funcAddr x.2) = some x := by
  rw [DesName.ofAddr_funcAddr (desNames_fit x.1 h.1), if_pos h.2]

/-- No two declared registers have the same address. -/
theorem Declared.eq {x y : DesName × Bool} (hx : Declared x) (hy : Declared y)
    (h : x.1.funcAddr x.2 = y.1.funcAddr y.2) : x = y := by
  have hsome := hx.ofAddr
  rw [h, hy.ofAddr] at hsome
  exact (Option.some.inj hsome).symm

/-- A register without the axle has no address. -/
theorem funcAddr_of_not_hasAxle {x : DesName} {isAx0 : Bool} (h : x.hasAxle isAx0 = false) :
    x.funcAddr isAx0 = 0xfff5 := by
  cases x <;> cases isAx0 <;> first | rfl | cases h

theorem Declared.funcAddr_ne {x : DesName × Bool} (h : Declared x) :
    x.1.funcAddr x.2 ≠ 0xfff5 := by
  intro heq
  have hsome := h.ofAddr
  rw [heq] at hsome
  have hnone : DesName.ofAddr 0xfff5 = none := by decide
  rw [hnone] at hsome
  cases hsome

/-- A declared register is in an array unless its address is one of two. -/
theorem Declared.mem_linked {x : DesName × Bool} (h : Declared x)
    (h0xd : x.1.funcAddr x.2 ≠ 0x460d) (h0xe : x.1.funcAddr x.2 ≠ 0x460e) : x.1 ∈ linked := by
  obtain ⟨x, isAx0⟩ := x
  refine mem_linked_iff.2 ⟨h.1, ?_, ?_⟩
  · rintro rfl
    cases isAx0 with
    | true => exact h0xd rfl
    | false => cases h.2
  · rintro rfl
    cases isAx0 with
    | true => exact h0xe rfl
    | false => cases h.2

/-! ## Searching -/

theorem hasAddr_iff {d : ServoMotorBriefDes} {addrL addrH : Byte} :
    d.hasAddr addrL addrH = true ↔ d.funcAddr = word16 addrL addrH := by
  rw [ServoMotorBriefDes.hasAddr, Bool.and_eq_true, beq_iff_eq, beq_iff_eq]
  conv_rhs => rw [← word16_bytes d.funcAddr, word16_eq_iff]
  simp

/-- A search finds the first entry that has the address, axle 0 before axle 1. -/
theorem findByAddr_eq (r : ServoRegisters) (addrL addrH : Byte) : ∀ array : List DesName,
    r.findByAddr array addrL addrH = array.findSome? (DesName.atAddr (word16 addrL addrH))
  | [] => rfl
  | x :: rest => by
    have ih := findByAddr_eq r addrL addrH rest
    rw [findByAddr] at ih
    rw [findByAddr, List.map_cons, findServoMotorDesByAddr, List.findSome?_cons, DesName.atAddr]
    by_cases htrue : x.funcAddr true = word16 addrL addrH
    · rw [if_pos (hasAddr_iff.2 htrue), if_pos htrue]
      rfl
    by_cases hfalse : x.funcAddr false = word16 addrL addrH
    · rw [if_neg fun h => htrue (hasAddr_iff.1 h), if_pos (hasAddr_iff.2 hfalse), if_neg htrue,
        if_pos hfalse]
      rfl
    · rw [if_neg fun h => htrue (hasAddr_iff.1 h), if_neg fun h => hfalse (hasAddr_iff.1 h),
        if_neg htrue, if_neg hfalse, ← ih]
      cases findServoMotorDesByAddr (rest.map r.des) addrL addrH <;> rfl

theorem findByAddr_arrays (r : ServoRegisters) (addrL addrH : Byte) :
    (r.findByAddr initServoMotorFnDes addrL addrH <|>
      r.findByAddr initServoMotorDnDes addrL addrH <|>
      r.findByAddr initServoMotorPnDes addrL addrH) =
    linked.findSome? (DesName.atAddr (word16 addrL addrH)) := by
  have hor : ∀ a b c : Option (DesName × Bool), (a <|> b <|> c) = (a.or b).or c := by
    intro a b c
    cases a <;> cases b <;> rfl
  rw [findByAddr_eq, findByAddr_eq, findByAddr_eq, hor, linked, List.findSome?_append,
    List.findSome?_append]

/-- What is found has the address. -/
theorem found_spec {a : BitVec 16} {y : DesName × Bool}
    (h : linked.findSome? (DesName.atAddr a) = some y) :
    y.1 ∈ linked ∧ y.1.funcAddr y.2 = a := by
  obtain ⟨x, hx, hy⟩ := List.exists_of_findSome?_eq_some h
  obtain ⟨rfl, haddr⟩ := DesName.atAddr_eq_some hy
  exact ⟨hx, haddr⟩

/-- A declared register is found if it is in an array, and nothing is if it is in none. -/
theorem Declared.found {x : DesName × Bool} (h : Declared x) :
    linked.findSome? (DesName.atAddr (x.1.funcAddr x.2)) =
      if x.1 ∈ linked then some x else none := by
  cases hfound : linked.findSome? (DesName.atAddr (x.1.funcAddr x.2)) with
  | none =>
    rw [List.findSome?_eq_none_iff] at hfound
    rw [if_neg fun hmem => DesName.atAddr_ne_none x.1 x.2 (hfound x.1 hmem)]
  | some y =>
    obtain ⟨hmem, haddr⟩ := found_spec hfound
    have haxle : y.1.hasAxle y.2 = true := by
      by_contra hno
      refine h.funcAddr_ne ?_
      rw [← haddr, funcAddr_of_not_hasAxle (by simpa using hno)]
    have hy : Declared y := ⟨mem_desNames_of_linked hmem, haxle⟩
    obtain rfl := hy.eq h haddr
    rw [if_pos hmem]

/-- Nothing is found at an address that no register has, but at that of no axle. -/
theorem found_of_undeclared {a : BitVec 16}
    (h : ∀ x, Declared x → x.1.funcAddr x.2 ≠ a) (ha : a ≠ 0xfff5) :
    linked.findSome? (DesName.atAddr a) = none := by
  cases hfound : linked.findSome? (DesName.atAddr a) with
  | none => rfl
  | some y =>
    obtain ⟨hmem, haddr⟩ := found_spec hfound
    cases haxle : y.1.hasAxle y.2 with
    | true => exact absurd haddr (h y ⟨mem_desNames_of_linked hmem, haxle⟩)
    | false =>
      rw [funcAddr_of_not_hasAxle haxle] at haddr
      exact absurd haddr.symm ha

theorem found_noAxle : linked.findSome? (DesName.atAddr 0xfff5) = some (.p 0 0x0, false) := by
  rw [linked_eq]
  decide +kernel

/-! ## Tables by value -/

section Tables

variable {σ τ : Type}

theorem parseAckWith_map {store : List Byte → σ → Except Fault σ}
    {store' : List Byte → τ → Except Fault τ} (φ : σ → τ) {addr : List Byte} {regs : σ}
    (h : store' addr (φ regs) = φ <$> store addr regs) (b2 : Byte) :
    parseAckWith store' addr b2 (φ regs) = φ <$> parseAckWith store addr b2 regs := by
  simp only [parseAckWith, h, apply_ite (φ <$> ·), map_bind, map_pure]

/-- Stores that agree through a map of the registers make the function agree. -/
theorem parseServoMotorInfoWith_map {store : List Byte → σ → Except Fault σ}
    {store' : List Byte → τ → Except Fault τ} (φ : σ → τ) {addr : List Byte} {regs : σ}
    (h : store' addr (φ regs) = φ <$> store addr regs) (len : ℕ) (info : ServoMotorInfo) :
    parseServoMotorInfoWith store' addr len info (φ regs) =
      Prod.map id φ <$> parseServoMotorInfoWith store addr len info regs := by
  simp only [parseServoMotorInfoWith, parseAckWith_map φ h, apply_ite (Prod.map id φ <$> ·),
    map_bind, map_pure, bind_map_left, Prod.map_apply, id]

/-- The tables with the registers that the arrays point to. -/
def tables (r : ServoRegisters) : ServoMotorTables :=
  ⟨initServoMotorFnDes.map r.des, initServoMotorDnDes.map r.des, initServoMotorPnDes.map r.des⟩

variable {r : ServoRegisters} {array : List DesName} {x : DesName} {isAx0 : Bool}
  {v : BitVec 16} {i : ℕ} {addrL addrH : Byte}

theorem des_update (y : DesName) : des (Function.update r (x, isAx0) v) y =
    if y = x then (r.des x).setReg isAx0 v else r.des y := by
  by_cases hy : y = x
  · subst hy
    cases isAx0 <;> simp [des, ServoMotorDes.setReg]
  · simp [des, hy]

/-- A store through the only pointer to a register. -/
theorem map_des_update (hi : array[i]? = some x) (honce : ∀ j, array[j]? = some x → j = i) :
    array.map (des (Function.update r (x, isAx0) v)) =
      (array.map r.des).modify i (.setReg isAx0 v) := by
  refine List.ext_getElem? fun j => ?_
  rw [List.getElem?_map, List.getElem?_modify, List.getElem?_map]
  by_cases hj : i = j
  · subst hj
    simp [hi, des_update]
  · cases hy : array[j]? with
    | none => rfl
    | some y =>
      have hne : y ≠ x := fun h => hj (honce j (h ▸ hy)).symm
      simp [hj, hne, des_update]

theorem map_des_update_of_notMem (hx : x ∉ array) :
    array.map (des (Function.update r (x, isAx0) v)) = array.map r.des := by
  refine List.map_congr_left fun y hy => ?_
  have hne : y ≠ x := fun heq => hx (heq ▸ hy)
  rw [des_update, if_neg hne]

/-- The place that is found has a register with the address. -/
theorem getElem?_of_found (h : findServoMotorDesByAddr (array.map r.des) addrL addrH =
    some (i, isAx0)) : ∃ x, array[i]? = some x ∧ x.funcAddr isAx0 = word16 addrL addrH := by
  induction array generalizing i with
  | nil => cases h
  | cons y rest ih =>
    rw [List.map_cons, findServoMotorDesByAddr] at h
    split_ifs at h with htrue hfalse
    · obtain ⟨rfl, rfl⟩ := Prod.mk.inj (Option.some.inj h)
      exact ⟨y, rfl, hasAddr_iff.1 htrue⟩
    · obtain ⟨rfl, rfl⟩ := Prod.mk.inj (Option.some.inj h)
      exact ⟨y, rfl, hasAddr_iff.1 hfalse⟩
    · obtain ⟨⟨k, ax⟩, hk, heq⟩ := Option.map_eq_some_iff.1 h
      obtain ⟨rfl, rfl⟩ := Prod.mk.inj heq
      exact ih hk

theorem findByAddr_of_found (h : findServoMotorDesByAddr (array.map r.des) addrL addrH =
    some (i, isAx0)) (hx : array[i]? = some x) :
    r.findByAddr array addrL addrH = some (x, isAx0) := by
  rw [findByAddr, h]
  simp [hx]

theorem findByAddr_of_none (h : findServoMotorDesByAddr (array.map r.des) addrL addrH = none) :
    r.findByAddr array addrL addrH = none := by
  rw [findByAddr, h]
  rfl

theorem once_of_nodup (h : array.Nodup) (hi : array[i]? = some x) :
    ∀ j, array[j]? = some x → j = i := by
  intro j hj
  exact (List.getElem?_inj (List.getElem?_eq_some_iff.1 hj).1 h).1 (hj.trans hi.symm)

/-- No register is at two places, the first places of the PN array apart, or in two arrays. -/
theorem arrays_nodup :
    (initServoMotorFnDes ++ initServoMotorDnDes ++
      (servoPnDes.map DesDecl.des).take 44).Nodup := by
  have hnodup := desNames_nodup
  rw [desNames_eq, ← List.append_assoc] at hnodup
  exact hnodup.of_append_left

/-- Only the first register stands at several places of the PN array. -/
theorem once_pn (hx : x ≠ .p 0 0x0) (hi : initServoMotorPnDes[i]? = some x) :
    ∀ j, initServoMotorPnDes[j]? = some x → j = i := by
  have hnodup : ((servoPnDes.map DesDecl.des).take 44).Nodup := arrays_nodup.of_append_right
  have htail : ∀ k, initServoMotorPnDes[k]? = some x →
      ∃ m, k = m + 2 ∧ ((servoPnDes.map DesDecl.des).take 44)[m]? = some x := by
    rw [initServoMotorPnDes_eq]
    rintro (_ | _ | m) hk
    · exact absurd (Option.some.inj hk).symm hx
    · exact absurd (Option.some.inj hk).symm hx
    · exact ⟨m, rfl, hk⟩
  intro j hj
  obtain ⟨m, rfl, hm⟩ := htail i hi
  obtain ⟨n, rfl, hn⟩ := htail j hj
  rw [once_of_nodup hnodup hm n hn]

/-- No register is in two arrays. -/
theorem disjoint_arrays : (∀ x ∈ initServoMotorFnDes, x ∉ initServoMotorDnDes) ∧
    (∀ x ∈ initServoMotorFnDes, x ∉ initServoMotorPnDes) ∧
    ∀ x ∈ initServoMotorDnDes, x ∉ initServoMotorPnDes := by
  obtain ⟨hfront, -, hpn⟩ := List.nodup_append'.1 arrays_nodup
  obtain ⟨-, -, hdn⟩ := List.nodup_append'.1 hfront
  exact ⟨fun x hx h => hdn hx h,
    fun x hx h => hpn (List.mem_append_left _ hx) (mem_initServoMotorPnDes.1 h),
    fun x hx h => hpn (List.mem_append_right _ hx) (mem_initServoMotorPnDes.1 h)⟩

theorem tables_update_fn (hi : initServoMotorFnDes[i]? = some x) :
    tables (Function.update r (x, isAx0) v) =
      { r.tables with fn := r.tables.fn.modify i (.setReg isAx0 v) } := by
  have hx := List.mem_of_getElem? hi
  rw [tables, map_des_update hi (once_of_nodup arrays_nodup.of_append_left.of_append_left hi),
    map_des_update_of_notMem (disjoint_arrays.1 x hx),
    map_des_update_of_notMem (disjoint_arrays.2.1 x hx)]
  rfl

theorem tables_update_dn (hi : initServoMotorDnDes[i]? = some x) :
    tables (Function.update r (x, isAx0) v) =
      { r.tables with dn := r.tables.dn.modify i (.setReg isAx0 v) } := by
  have hx := List.mem_of_getElem? hi
  rw [tables, map_des_update hi (once_of_nodup arrays_nodup.of_append_left.of_append_right hi),
    map_des_update_of_notMem fun hfn => disjoint_arrays.1 x hfn hx,
    map_des_update_of_notMem (disjoint_arrays.2.2 x hx)]
  rfl

theorem tables_update_pn (hx : x ≠ .p 0 0x0) (hi : initServoMotorPnDes[i]? = some x) :
    tables (Function.update r (x, isAx0) v) =
      { r.tables with pn := r.tables.pn.modify i (.setReg isAx0 v) } := by
  have hmem := List.mem_of_getElem? hi
  rw [tables, map_des_update hi (once_pn hx hi),
    map_des_update_of_notMem fun hfn => disjoint_arrays.2.1 x hfn hmem,
    map_des_update_of_notMem fun hdn => disjoint_arrays.2.2 x hdn hmem]
  rfl

/-- A store on the tables by value is the store through the pointers, except for the register
that several of them point to. -/
theorem storeReadAck_tables {addr : List Byte} (h0x4000 : u16At addr 3 ≠ 0x4000)
    (hno : u16At addr 3 ≠ 0xfff5) (r : ServoRegisters) :
    Mastiff.storeReadAck addr r.tables = tables <$> storeReadAck addr r := by
  have hfn : r.tables.fn = initServoMotorFnDes.map r.des := by rw [tables]
  have hdn : r.tables.dn = initServoMotorDnDes.map r.des := by rw [tables]
  have hpn : r.tables.pn = initServoMotorPnDes.map r.des := by rw [tables]
  have hsome : ∀ (x : DesName × Bool) y, (some x <|> y) = some x := fun _ _ => rfl
  have hnone : ∀ y : Option (DesName × Bool), (none <|> y) = y := fun _ => rfl
  rw [Mastiff.storeReadAck, storeReadAck]
  cases hL : readAt addr 3 with
  | error e => rfl
  | ok addrL =>
    cases hH : readAt addr 4 with
    | error e => rfl
    | ok addrH =>
      have hword : word16 addrL addrH = u16At addr 3 := by
        rw [readAt_eq_ok] at hL hH
        simp [u16At, byteAt, List.getD_eq_getElem?_getD, hL, hH]
      rw [ok_bind, ok_bind, ok_bind, ok_bind]
      cases hfind : findServoMotorDesByAddr r.tables.fn addrL addrH with
      | some p =>
        rw [hfn] at hfind
        obtain ⟨x, hx, -⟩ := getElem?_of_found hfind
        simp only [findByAddr_of_found hfind hx, hsome, map_bind, map_pure, tables_update_fn hx]
      | none =>
        rw [hfn] at hfind
        rw [findByAddr_of_none hfind, hnone]
        cases hfind : findServoMotorDesByAddr r.tables.dn addrL addrH with
        | some p =>
          rw [hdn] at hfind
          obtain ⟨x, hx, -⟩ := getElem?_of_found hfind
          simp only [findByAddr_of_found hfind hx, hsome, map_bind, map_pure, tables_update_dn hx]
        | none =>
          rw [hdn] at hfind
          rw [findByAddr_of_none hfind, hnone]
          cases hfind : findServoMotorDesByAddr r.tables.pn addrL addrH with
          | some p =>
            rw [hpn] at hfind
            obtain ⟨i, isAx0⟩ := p
            obtain ⟨x, hx, haddr⟩ := getElem?_of_found hfind
            have hne : x ≠ .p 0 0x0 := by
              rintro rfl
              cases isAx0 with
              | true => exact h0x4000 (hword.symm.trans haddr.symm)
              | false => exact hno (hword.symm.trans haddr.symm)
            simp only [findByAddr_of_found hfind hx, map_bind, map_pure, tables_update_pn hne hx]
          | none =>
            rw [hpn] at hfind
            simp only [findByAddr_of_none hfind, map_pure]

/-- So is the whole function. -/
theorem parseServoMotorInfo_tables {addr : List Byte} (h0x4000 : u16At addr 3 ≠ 0x4000)
    (hno : u16At addr 3 ≠ 0xfff5) (len : ℕ) (info : ServoMotorInfo) (r : ServoRegisters) :
    Mastiff.parseServoMotorInfo addr len info r.tables =
      Prod.map id tables <$> parseServoMotorInfo addr len info r := by
  rw [← parseServoMotorInfoWith_tables]
  exact parseServoMotorInfoWith_map tables (storeReadAck_tables h0x4000 hno r) len info

end Tables

/-! ## Read acknowledgements -/

variable {msg : List Byte} {r r' : ServoRegisters}

/-- The registers with a value stored in the one that is found. -/
def put (found : Option (DesName × Bool)) (v : BitVec 16) (r : ServoRegisters) :
    ServoRegisters :=
  match found with
  | some x => Function.update r x v
  | none => r

/-- The registers after a read acknowledgement. -/
def after (msg : List Byte) (r : ServoRegisters) : ServoRegisters :=
  put (linked.findSome? (DesName.atAddr (u16At msg 3))) (u16At msg 6) r

theorem ReadAck.parse (h : ReadAck msg) (info : ServoMotorInfo) (r : ServoRegisters) :
    parseServoMotorInfo msg 10 info r = .ok (info, after msg r) := by
  have hlen := h.length
  have hid := h.id
  simp only [List.mem_cons, List.not_mem_nil, or_false, not_or] at hid
  obtain ⟨h1081, h1082, h2081, h2082, hecho⟩ := hid
  have hecho : ¬(u16At msg 0 = 0x4001 ∨ u16At msg 0 = 0x4002) := fun hor => by
    rcases hor with hor | hor
    · exact hecho.1 hor
    · exact hecho.2 hor
  have hstore : storeReadAck msg r = .ok (after msg r) := by
    have hword : word16 (byteAt msg 3) (byteAt msg 4) = u16At msg 3 := rfl
    rw [storeReadAck, readAt_eq_byteAt (by omega), readAt_eq_byteAt (by omega), ok_bind, ok_bind,
      findByAddr_arrays, readWord16_eq_u16At (by omega), hword, after]
    generalize linked.findSome? (DesName.atAddr (u16At msg 3)) = found
    cases found <;> rfl
  rw [parseServoMotorInfo, parseServoMotorInfoWith, readAt_eq_byteAt (by omega), ok_bind, h.cmd,
    if_neg (by decide), if_neg (by decide), readWord16_eq_u16At (by omega), ok_bind,
    if_neg h1081, if_neg h1082, if_neg h2081, if_neg h2082, if_neg hecho, parseAckWith,
    if_pos rfl, hstore]
  rfl

theorem ReadAck.readsBack_iff_stores (h : ReadAck msg) (info : ServoMotorInfo)
    (r : ServoRegisters) : ReadsBack msg info r ↔ Stores msg r (after msg r) := by
  constructor
  · rintro ⟨info', r', hparse, hstores⟩
    rw [h.parse] at hparse
    obtain ⟨-, rfl⟩ := Prod.mk.inj (Except.ok.inj hparse)
    exact hstores
  · exact fun hstores => ⟨info, _, h.parse info r, hstores⟩

theorem Declared.stores_iff {x : DesName × Bool} (h : Declared x)
    (haddr : x.1.funcAddr x.2 = u16At msg 3) :
    Stores msg r r' ↔ r' = Function.update r x (u16At msg 6) := by
  constructor
  · exact fun hstores => hstores.declared x h haddr
  · intro hr'
    refine ⟨fun y hy hyaddr => ?_, fun hnone => absurd haddr (hnone x h)⟩
    rw [hy.eq h (hyaddr.trans haddr.symm), hr']

theorem stores_iff_of_undeclared (h : ∀ x, Declared x → x.1.funcAddr x.2 ≠ u16At msg 3) :
    Stores msg r r' ↔ r' = r :=
  ⟨fun hstores => hstores.undeclared h,
    fun hr' => ⟨fun x hx haddr => absurd haddr (h x hx), fun _ => hr'⟩⟩

theorem declared_p_6_0xd : Declared (.p 6 0xd, true) :=
  ⟨by simp [desNames_eq], rfl⟩

theorem declared_p_6_0xe : Declared (.p 6 0xe, true) :=
  ⟨by simp [desNames_eq], rfl⟩

/-- A register that is in no array is not stored. -/
theorem Declared.stores_after_iff {x : DesName × Bool} (h : Declared x) (hno : x.1 ∉ linked)
    (haddr : x.1.funcAddr x.2 = u16At msg 3) :
    Stores msg r (after msg r) ↔ r x = u16At msg 6 := by
  have hafter : after msg r = put none (u16At msg 6) r := by
    rw [after, ← haddr, h.found, if_neg hno]
  rw [h.stores_iff haddr, hafter]
  exact Function.eq_update_self_iff

/-- For every read acknowledgement and whatever the registers hold, its value is stored in
exactly the register that is declared at its address, and in none if none is, exactly when the
address is none of `0x460d`, `0x460e` and `0xfff5`, or the value is there already. -/
theorem readsBack_iff (h : ReadAck msg) (info : ServoMotorInfo) (r : ServoRegisters) :
    ReadsBack msg info r ↔ Reaches msg r := by
  rw [h.readsBack_iff_stores]
  by_cases h0xd : u16At msg 3 = 0x460d
  · rw [declared_p_6_0xd.stores_after_iff notMem_linked.1 h0xd.symm]
    refine ⟨fun hr => ⟨fun _ => hr, fun h0xe => ?_, fun hno => ?_⟩, fun hreach => hreach.1 h0xd⟩
    · rw [h0xd] at h0xe
      cases h0xe
    · rw [h0xd] at hno
      cases hno
  by_cases h0xe : u16At msg 3 = 0x460e
  · rw [declared_p_6_0xe.stores_after_iff notMem_linked.2 h0xe.symm]
    refine ⟨fun hr => ⟨fun h' => absurd h' h0xd, fun _ => hr, fun hno => ?_⟩,
      fun hreach => hreach.2 h0xe⟩
    rw [h0xe] at hno
    cases hno
  by_cases hno : u16At msg 3 = 0xfff5
  · have hundeclared : ∀ x, Declared x → x.1.funcAddr x.2 ≠ u16At msg 3 := fun x hx => by
      rw [hno]
      exact hx.funcAddr_ne
    have hafter : after msg r = Function.update r (.p 0 0x0, false) (u16At msg 6) := by
      rw [after, hno, found_noAxle]
      rfl
    rw [stores_iff_of_undeclared hundeclared, hafter, Function.update_eq_self_iff]
    exact ⟨fun hr => ⟨fun h' => absurd h' h0xd, fun h' => absurd h' h0xe, fun _ => hr.symm⟩,
      fun hreach => (hreach.noAxle hno).symm⟩
  · -- the address is of a register in an array, or of none
    refine iff_of_true ?_ ⟨fun h' => absurd h' h0xd, fun h' => absurd h' h0xe,
      fun h' => absurd h' hno⟩
    refine ⟨fun x hx haddr => ?_, fun hnone => ?_⟩
    · have hmem : x.1 ∈ linked := hx.mem_linked (by rwa [haddr]) (by rwa [haddr])
      rw [after, ← haddr, hx.found, if_pos hmem]
      rfl
    · rw [after, found_of_undeclared hnone hno]
      rfl

/-- The speed register `f_3_0x18` of axle 1. -/
theorem readsBack_iff_speed :
    ReadsBack [0x81, 0x50, 0x4b, 0x18, 0x33, 0, 7, 0, 0, 0] ⟨0, 0, 0, 0, 0, 0⟩ initial := by
  refine (readsBack_iff ⟨rfl, rfl, by decide⟩ _ _).2 ⟨fun h => ?_, fun h => ?_, fun h => ?_⟩
  all_goals exact absurd h (by decide)

/-- After the initialization, the value of `p_6_0xd` is dropped. -/
theorem not_readsBack :
    ¬∀ (msg : List Byte) (info : ServoMotorInfo) (r : ServoRegisters),
      ReadAck msg → ReadsBack msg info r := by
  intro h
  have hack : ReadAck [0x81, 0x50, 0x4b, 0x0d, 0x46, 0, 7, 0, 0, 0] := ⟨rfl, rfl, by decide⟩
  have hstores := (hack.readsBack_iff_stores _ _).1 (h _ ⟨0, 0, 0, 0, 0, 0⟩ initial hack)
  rw [declared_p_6_0xd.stores_after_iff notMem_linked.1 rfl] at hstores
  revert hstores
  decide

end ServoRegisters

end Mastiff

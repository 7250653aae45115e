import Mastiff.ServoDriver

/-!
# The bytes a servo report is decoded from

`parse_servo_motor_info` accepts the lengths 5, 6 and 10 and then chooses the fields by the
id alone, without another look at the length. `readsReceived_iff` says of which messages it
reads the received bytes only : those that are as long as their kind is read (`Fits`), that
are dropped as echoes, or that are only printed. Byte 2 is tested before the length.
-/

set_option linter.unusedSectionVars false

open Memory Bytes

namespace Mastiff

/-- Some table has a register of this address. -/
def ServoMotorTables.hasRegister (tables : ServoMotorTables) (addrL addrH : Byte) : Bool :=
  (findServoMotorDesByAddr tables.fn addrL addrH).isSome ||
    (findServoMotorDesByAddr tables.dn addrL addrH).isSome ||
      (findServoMotorDesByAddr tables.pn addrL addrH).isSome

/-! ## Longer blocks -/

theorem extends_storeReadAck (tables : ServoMotorTables) :
    Extends fun addr => storeReadAck addr tables := by
  unfold storeReadAck
  refine extends_bind (extends_readAt 3) fun addrL => ?_
  refine extends_bind (extends_readAt 4) fun addrH => ?_
  cases findServoMotorDesByAddr tables.fn addrL addrH with
  | some r => exact extends_bind (extends_readWord16 6) fun v => extends_const _
  | none =>
    cases findServoMotorDesByAddr tables.dn addrL addrH with
    | some r => exact extends_bind (extends_readWord16 6) fun v => extends_const _
    | none =>
      cases findServoMotorDesByAddr tables.pn addrL addrH with
      | some r => exact extends_bind (extends_readWord16 6) fun v => extends_const _
      | none => exact extends_const _

theorem extends_parseAck (b2 : Byte) (tables : ServoMotorTables) :
    Extends fun addr => parseAck addr b2 tables := by
  have hprint : Extends fun addr : List Byte => do
      let _ ← slice addr 0 10
      return tables :=
    extends_bind (extends_slice 0 10) fun _ => extends_const _
  unfold parseAck
  refine extends_ite (extends_storeReadAck tables) (extends_ite hprint (extends_ite ?_ hprint))
  exact extends_bind (extends_readAt 3) fun b3 => extends_ite (extends_const _) hprint

/-- What is decoded inside a message is decoded whatever follows it in memory. -/
theorem extends_parseServoMotorInfo (len : ℕ) (info : ServoMotorInfo) (tables : ServoMotorTables) :
    Extends fun addr => parseServoMotorInfo addr len info tables := by
  unfold parseServoMotorInfo
  refine extends_bind (extends_readAt 2) fun b2 => extends_ite (extends_const _) ?_
  refine extends_ite (extends_bind (extends_slice 0 len) fun _ => extends_const _) ?_
  refine extends_bind (extends_readWord16 0) fun id => ?_
  refine extends_ite ?_ (extends_ite ?_ (extends_ite ?_ (extends_ite ?_ (extends_ite ?_ ?_))))
  · exact extends_bind (extends_readWord32 2) fun _ =>
      extends_bind (extends_readWord32 6) fun _ => extends_const _
  · exact extends_bind (extends_readWord32 2) fun _ =>
      extends_bind (extends_readWord32 6) fun _ => extends_const _
  · exact extends_bind (extends_readWord32 2) fun _ => extends_const _
  · exact extends_bind (extends_readWord32 2) fun _ => extends_const _
  · exact extends_const _
  · exact extends_bind (extends_parseAck b2 tables) fun _ => extends_const _

/-! ## What a message is read by -/

/-- The acknowledgement is as long as it is read : up to the value of a known register, up
to byte 3 of an axle operation's echo, and to byte 9 of what is printed. -/
def FitsAck (msg : List Byte) (tables : ServoMotorTables) : Prop :=
  if byteAt msg 2 = 0x4b then
    tables.hasRegister (byteAt msg 3) (byteAt msg 4) = true → 8 ≤ msg.length
  else byteAt msg 2 = 0x2b ∧ byteAt msg 3 = 0x40 ∨ 10 ≤ msg.length

/-- A message of an accepted length is as long as it is read. -/
def Fits (msg : List Byte) (tables : ServoMotorTables) : Prop :=
  if u16At msg 0 = 0x1081 ∨ u16At msg 0 = 0x1082 then 10 ≤ msg.length
  else if u16At msg 0 = 0x2081 ∨ u16At msg 0 = 0x2082 then 6 ≤ msg.length
  else if u16At msg 0 = 0x4001 ∨ u16At msg 0 = 0x4002 then True
  else FitsAck msg tables

/-- The message has a byte 2, and is an echo, of another length than the accepted ones, or
as long as it is read. -/
def Covered (msg : List Byte) (tables : ServoMotorTables) : Prop :=
  3 ≤ msg.length ∧ (isEcho (byteAt msg 2) = false →
    msg.length = 10 ∨ msg.length = 6 ∨ msg.length = 5 → Fits msg tables)

theorem isOk_storeReadAck_bind {α : Type} {msg : List Byte} {tables : ServoMotorTables}
    {f : ServoMotorTables → Except Fault α} (hf : ∀ t, (f t).isOk = true) (hlen : 5 ≤ msg.length) :
    (storeReadAck msg tables >>= f).isOk = true ↔
      (tables.hasRegister (byteAt msg 3) (byteAt msg 4) = true → 8 ≤ msg.length) := by
  simp only [storeReadAck, bind_assoc, isOk_readAt_bind, ServoMotorTables.hasRegister]
  rw [and_iff_right (by omega), and_iff_right (by omega)]
  cases findServoMotorDesByAddr tables.fn (byteAt msg 3) (byteAt msg 4) with
  | some r => simp [bind_assoc, isOk_readWord16_bind, hf, Nat.succ_le_iff]
  | none =>
    cases findServoMotorDesByAddr tables.dn (byteAt msg 3) (byteAt msg 4) with
    | some r => simp [bind_assoc, isOk_readWord16_bind, hf, Nat.succ_le_iff]
    | none =>
      cases findServoMotorDesByAddr tables.pn (byteAt msg 3) (byteAt msg 4) with
      | some r => simp [bind_assoc, isOk_readWord16_bind, hf, Nat.succ_le_iff]
      | none => simp [hf]

theorem isOk_parseAck_bind {α : Type} {msg : List Byte} {tables : ServoMotorTables}
    {f : ServoMotorTables → Except Fault α} (hf : ∀ t, (f t).isOk = true) (hlen : 5 ≤ msg.length) :
    (parseAck msg (byteAt msg 2) tables >>= f).isOk = true ↔ FitsAck msg tables := by
  have hprint : ((do
      let _ ← slice msg 0 10
      return tables) >>= f).isOk = true ↔ 10 ≤ msg.length := by
    simp only [bind_assoc, isOk_slice_bind, pure_bind, hf, Nat.zero_add, and_true]
  unfold parseAck FitsAck
  split_ifs with hread hwrite haxle
  · exact isOk_storeReadAck_bind hf hlen
  · rw [hprint]
    rcases hwrite with h | h <;> simp [h]
  · rw [bind_assoc, isOk_readAt_bind, and_iff_right (by omega)]
    split_ifs with hcmd
    · simp [haxle, hcmd, hf]
    · rw [or_iff_right fun h => hcmd h.2]
      exact hprint
  · rw [or_iff_right fun h => haxle h.1]
    exact hprint

/-- A message is decoded inside its own bytes exactly when they cover it. -/
theorem isOk_parseServoMotorInfo_iff (msg : List Byte) (info : ServoMotorInfo)
    (tables : ServoMotorTables) :
    (parseServoMotorInfo msg msg.length info tables).isOk = true ↔ Covered msg tables := by
  rw [parseServoMotorInfo, isOk_readAt_bind, Covered, Nat.succ_le_iff]
  refine and_congr_right fun hlen => ?_
  split_ifs with hecho hother
  · simp [hecho, Except.isOk, Except.toBool]
  · rw [isOk_slice_bind, Nat.zero_add]
    refine iff_of_true ⟨Nat.le_refl _, rfl⟩ fun _ hacc => ?_
    omega
  · have hacc : msg.length = 10 ∨ msg.length = 6 ∨ msg.length = 5 := by omega
    have hno : isEcho (byteAt msg 2) = false := by simpa using hecho
    rw [isOk_readWord16_bind, and_iff_right (by omega), Fits]
    simp only [hno, hacc, forall_true_left]
    by_cases hspeed : u16At msg 0 = 0x1081 ∨ u16At msg 0 = 0x1082
    · rw [if_pos hspeed]
      rcases hspeed with h | h
      all_goals
        simp [h, isOk_readWord32_bind]
        omega
    obtain ⟨hright, hleft⟩ := not_or.1 hspeed
    rw [if_neg hright, if_neg hleft, if_neg hspeed]
    by_cases hstatus : u16At msg 0 = 0x2081 ∨ u16At msg 0 = 0x2082
    · rw [if_pos hstatus]
      rcases hstatus with h | h
      all_goals
        simp [h, isOk_readWord32_bind]
        omega
    obtain ⟨hright, hleft⟩ := not_or.1 hstatus
    rw [if_neg hright, if_neg hleft, if_neg hstatus]
    split_ifs
    · simp
    · exact isOk_parseAck_bind (fun _ => rfl) (by omega)

/-! ## Received bytes only -/

/-- The outputs and the tables are those the received bytes give, whatever the memory holds
after them, and no byte after them is read. -/
def ReadsReceived (msg : List Byte) (info : ServoMotorInfo) (tables : ServoMotorTables) : Prop :=
  ∃ out, ∀ rest, parseServoMotorInfo (msg ++ rest) msg.length info tables = .ok out

/-- A message is decoded from the received bytes exactly when they cover it. -/
theorem readsReceived_iff (msg : List Byte) (info : ServoMotorInfo) (tables : ServoMotorTables) :
    ReadsReceived msg info tables ↔ Covered msg tables := by
  rw [← isOk_parseServoMotorInfo_iff msg info tables]
  exact (extends_parseServoMotorInfo msg.length info tables).exists_forall_iff msg

/-- Five bytes with the id of a right wheel are decoded with what follows them. -/
theorem not_readsReceived :
    ¬(∀ (msg₁ msg₂ : List Byte) (len : ℕ) (info : ServoMotorInfo) (tables : ServoMotorTables),
      msg₁.take len = msg₂.take len →
        parseServoMotorInfo msg₁ len info tables = parseServoMotorInfo msg₂ len info tables) ∧
    ¬∀ (msg : List Byte) (info : ServoMotorInfo) (tables : ServoMotorTables),
      ReadsReceived msg info tables := by
  constructor
  · intro h
    have hfive := h [0x81, 0x10, 0x01, 0x00, 0x00, 0x00, 0, 0, 0, 0]
      [0x81, 0x10, 0x01, 0x00, 0x00, 0x01, 0, 0, 0, 0] 5 ⟨0, 0, 0, 0, 0, 0⟩ ⟨[], [], []⟩ rfl
    revert hfive
    decide
  · intro h
    obtain ⟨out, hout⟩ := h [0x81, 0x10, 0x01, 0x00, 0x00] ⟨0, 0, 0, 0, 0, 0⟩ ⟨[], [], []⟩
    have hfault := hout []
    cases hfault

end Mastiff

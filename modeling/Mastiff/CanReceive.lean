import Mastiff.ServoDriver

/-!
# Receiving CAN frames

`can_recv` (`chassis/drivers/can/comm/can_ops.c`) puts two bytes of the id and the data of a
frame into a buffer, `PollingDriveRutine` (`chassis/drivers/can/can_data.cc`) hands the buffer
on, and `parse_servo_motor_info` takes it for the report of a wheel by its first two bytes. The
upper of them has four bits of the id, so the two have the lowest twelve bits of it
(`idBytes_eq_iff`). The copy is two bytes longer than the data, and some errors are returned
as 1, which is taken for a length.

`faithful_iff` : the frames with ids of 11 bits are told apart by their bytes, and a call is
faithful exactly when a standard frame has at most 62 bytes of data, an extended frame is not
taken for a report by the lowest twelve bits of its id, and no error but a network that is
down, a socket that is missing or a wait that fails is met.
-/

set_option linter.unusedSectionVars false

open Memory Bytes

namespace Mastiff

/-! ## Frames -/

/-- The id of a frame. -/
inductive CanId
  | standard (id : BitVec 11)
  | extended (id : BitVec 29)
  deriving DecidableEq

/-- A `canfd_frame` that is received, and whether it is a remote request. The cells of `data`
from `len` on are not received. -/
structure CanFrame where
  id : CanId
  rtr : Bool := false
  len : ℕ
  data : List Byte
  len_le : len ≤ 64
  length_data : data.length = 64

/-- `CAN_EFF_FLAG`. -/
def canEffFlag : BitVec 32 := 0x80000000

/-- `CAN_RTR_FLAG`. -/
def canRtrFlag : BitVec 32 := 0x40000000

namespace CanFrame

/-- `can_id`, the id with its flags. -/
def canId (f : CanFrame) : BitVec 32 :=
  (match f.id with
    | .standard id => id.setWidth 32
    | .extended id => id.setWidth 32 ||| canEffFlag) |||
  if f.rtr then canRtrFlag else 0

end CanFrame

/-- `can_id & 0xff`. -/
def idLow (canId : BitVec 32) : Byte :=
  (canId &&& 0xff).setWidth 8

/-- `(can_id & 0xff00) >> 4`. -/
def idHigh (canId : BitVec 32) : Byte :=
  ((canId &&& 0xff00) >>> 4).setWidth 8

/-- The two id bytes of a frame. -/
def CanFrame.idBytes (f : CanFrame) : List Byte :=
  [idLow f.canId, idHigh f.canId]

/-! ## Receiving -/

/-- What `recvmsg` gives : a frame, the error `ENETDOWN`, or another one. -/
inductive RecvMsg
  | frame (f : CanFrame)
  | netDown
  | failed

/-- What a call of `can_recv` meets : whether `bind` succeeds, the two descriptors are there and
`epoll_wait` succeeds, and what is read. -/
structure CanCall where
  bind : Bool := true
  socket : Bool := true
  wait : Bool := true
  recvmsg : RecvMsg

namespace CanCall

/-- `can_recv(s, dev, buf)`, the buffer with what is returned. -/
def canRecv (c : CanCall) (buf : List Byte) : Except Fault (List Byte × BitVec 64) :=
  if c.bind = false then .ok (buf, 1)
  else if c.socket = false then .ok (buf, -1)
  else if c.wait = false then .ok (buf, -1)
  else
    match c.recvmsg with
    | .netDown => .ok (buf, -1)
    | .failed => .ok (buf, 1)
    | .frame f => do
      let buf ← writeAt buf 0 (idLow f.canId)
      let buf ← writeAt buf 1 (idHigh f.canId)
      let len := f.len + 2
      let buf ← copyLoop f.data len 0 2 buf
      return (buf, BitVec.ofNat 64 len)

/-- The buffer of `PollingDriveRutine`. -/
def emptyBuf : List Byte :=
  List.replicate 512 0

/-- `PollingDriveRutine`, with what the listener is given. The length returned is put into an
`int`. -/
def pollingDriveRutine (c : CanCall) : Except Fault (Option (List Byte × ℤ)) := do
  let r ← c.canRecv emptyBuf
  let len := (r.2.setWidth 32).toInt
  if 0 < len then return some (r.1, len) else return none

/-- The frame that is received, if no error is met. -/
def received (c : CanCall) : Option CanFrame :=
  if c.bind ∧ c.socket ∧ c.wait then
    match c.recvmsg with
    | .frame f => some f
    | _ => none
  else none

end CanCall

/-! ## Wheel reports -/

/-- `parse_servo_motor_info` takes the message for the report of a wheel. -/
def TakesWheel (addr : List Byte) (len : ℕ) : Prop :=
  ∃ w speed encoder, ∀ info tables,
    parseServoMotorInfo addr len info tables = .ok (info.setWheel w speed encoder, tables)

/-- The message is no echo, has an accepted length and an id of a wheel. -/
structure LooksLikeWheel (addr : List Byte) (len : ℕ) : Prop where
  noEcho : isEcho (byteAt addr 2) = false
  len : len = 10 ∨ len = 6 ∨ len = 5
  id : u16At addr 0 = 0x1081 ∨ u16At addr 0 = 0x1082

theorem LooksLikeWheel.takesWheel {addr : List Byte} {len : ℕ} (h : LooksLikeWheel addr len)
    (hlength : 10 ≤ addr.length) : TakesWheel addr len := by
  have hspeed : readWord32 addr 2 = .ok (u32At addr 2) := readWord32_eq_u32At (by omega)
  have hencoder : readWord32 addr 6 = .ok (u32At addr 6) := readWord32_eq_u32At (by omega)
  have hparse : ∀ info tables, parseServoMotorInfo addr len info tables =
      if u16At addr 0 = 0x1081 then
        .ok (info.setWheel .right (u32At addr 2) (u32At addr 6), tables)
      else .ok (info.setWheel .left (u32At addr 2) (u32At addr 6), tables) := by
    intro info tables
    have hother : ¬(len ≠ 10 ∧ len ≠ 6 ∧ len ≠ 5) := by
      have := h.len
      omega
    rw [parseServoMotorInfo, readAt_eq_byteAt (by omega), ok_bind, if_neg (by simp [h.noEcho]),
      if_neg hother, readWord16_eq_u16At (by omega), ok_bind, hspeed, hencoder]
    rcases h.id with hid | hid <;> rw [hid] <;> rfl
  by_cases hright : u16At addr 0 = 0x1081
  · exact ⟨.right, _, _, fun info tables => (hparse info tables).trans (if_pos hright)⟩
  · exact ⟨.left, _, _, fun info tables => (hparse info tables).trans (if_neg hright)⟩

/-- Another message leaves the speeds alone. -/
theorem speeds_of_not_looksLikeWheel {addr : List Byte} {len : ℕ}
    (hno : ¬LooksLikeWheel addr len) (hlength : 10 ≤ addr.length) {info info' : ServoMotorInfo}
    {tables tables' : ServoMotorTables}
    (h : parseServoMotorInfo addr len info tables = .ok (info', tables')) :
    info'.speedRight = info.speedRight ∧ info'.speedLeft = info.speedLeft := by
  rw [parseServoMotorInfo, readAt_eq_byteAt (by omega), ok_bind] at h
  split_ifs at h with hecho hother
  · obtain ⟨rfl, -⟩ := Prod.mk.inj (Except.ok.inj h)
    exact ⟨rfl, rfl⟩
  · obtain ⟨_, -, h⟩ := bind_eq_ok.1 h
    obtain ⟨rfl, -⟩ := Prod.mk.inj (Except.ok.inj h)
    exact ⟨rfl, rfl⟩
  · have hid : ¬(u16At addr 0 = 0x1081 ∨ u16At addr 0 = 0x1082) := by
      intro hid
      exact hno ⟨by simpa using hecho, by omega, hid⟩
    obtain ⟨hright, hleft⟩ := not_or.1 hid
    rw [readWord16_eq_u16At (by omega), ok_bind, if_neg hright, if_neg hleft] at h
    split_ifs at h
    · obtain ⟨_, -, h⟩ := bind_eq_ok.1 h
      obtain ⟨rfl, -⟩ := Prod.mk.inj (Except.ok.inj h)
      exact ⟨rfl, rfl⟩
    · obtain ⟨_, -, h⟩ := bind_eq_ok.1 h
      obtain ⟨rfl, -⟩ := Prod.mk.inj (Except.ok.inj h)
      exact ⟨rfl, rfl⟩
    · obtain ⟨rfl, -⟩ := Prod.mk.inj (Except.ok.inj h)
      exact ⟨rfl, rfl⟩
    · obtain ⟨_, -, h⟩ := bind_eq_ok.1 h
      obtain ⟨rfl, -⟩ := Prod.mk.inj (Except.ok.inj h)
      exact ⟨rfl, rfl⟩

theorem takesWheel_iff {addr : List Byte} (hlength : 10 ≤ addr.length) (len : ℕ) :
    TakesWheel addr len ↔ LooksLikeWheel addr len := by
  constructor
  · rintro ⟨w, speed, encoder, h⟩
    by_contra hno
    -- outputs that differ from the message in both speeds
    have hkept := speeds_of_not_looksLikeWheel hno hlength
      (h ⟨~~~speed, ~~~speed, 0, 0, 0, 0⟩ ⟨[], [], []⟩)
    have hne : speed ≠ ~~~speed := by
      intro heq
      have hbit := congrArg (fun x : CInt => x.getLsbD 0) heq
      simp at hbit
    cases w with
    | right => exact hne hkept.1
    | left => exact hne hkept.2
  · intro h
    exact h.takesWheel hlength

/-! ## Id bytes -/

theorem getElem_idLow (a : BitVec 32) {i : ℕ} (hi : i < 8) : (idLow a)[i] = a[i] := by
  have hcases : i = 0 ∨ i = 1 ∨ i = 2 ∨ i = 3 ∨ i = 4 ∨ i = 5 ∨ i = 6 ∨ i = 7 := by omega
  rcases hcases with rfl | rfl | rfl | rfl | rfl | rfl | rfl | rfl
  all_goals simp [idLow]

theorem getElem_idHigh (a : BitVec 32) {i : ℕ} (hi : i < 8) :
    (idHigh a)[i] = (decide (4 ≤ i) && a[i + 4]) := by
  have hcases : i = 0 ∨ i = 1 ∨ i = 2 ∨ i = 3 ∨ i = 4 ∨ i = 5 ∨ i = 6 ∨ i = 7 := by omega
  rcases hcases with rfl | rfl | rfl | rfl | rfl | rfl | rfl | rfl
  all_goals simp [idHigh]

/-- The two bytes have the lowest twelve bits of the id. -/
theorem idBytes_eq_iff (a b : BitVec 32) :
    [idLow a, idHigh a] = [idLow b, idHigh b] ↔ a.setWidth 12 = b.setWidth 12 := by
  simp only [List.cons.injEq, and_true]
  constructor
  · rintro ⟨hlow, hhigh⟩
    ext i hi
    simp only [BitVec.getElem_setWidth]
    rw [BitVec.getLsbD_eq_getElem (by omega), BitVec.getLsbD_eq_getElem (by omega)]
    rcases Nat.lt_or_ge i 8 with h | h
    · rw [← getElem_idLow a h, hlow, getElem_idLow b h]
    · obtain ⟨k, rfl⟩ := Nat.exists_eq_add_of_le' (Nat.le_trans (by decide : 4 ≤ 8) h)
      have ha := getElem_idHigh a (i := k) (by omega)
      have hb := getElem_idHigh b (i := k) (by omega)
      simp only [hhigh, hb] at ha
      simpa [show 4 ≤ k by omega] using ha.symm
  · intro h
    have hbit : ∀ i (hi : i < 12), a[i] = b[i] := by
      intro i hi
      have hsame := congrArg (fun x : BitVec 12 => x[i]) h
      rw [← BitVec.getLsbD_eq_getElem, ← BitVec.getLsbD_eq_getElem]
      simpa using hsame
    constructor
    · ext i hi
      rw [getElem_idLow a hi, getElem_idLow b hi, hbit i (by omega)]
    · ext i hi
      rw [getElem_idHigh a hi, getElem_idHigh b hi, hbit (i + 4) (by omega)]

namespace CanFrame

variable {f g : CanFrame}

/-- The flags are above the lowest twelve bits. -/
theorem canId_standard {id : BitVec 11} (h : f.id = .standard id) :
    f.canId.setWidth 12 = id.setWidth 12 := by
  rw [canId, h]
  ext i hi
  cases f.rtr
  all_goals simp [canRtrFlag]

theorem canId_extended {id : BitVec 29} (h : f.id = .extended id) :
    f.canId.setWidth 12 = id.setWidth 12 := by
  rw [canId, h]
  ext i hi
  cases f.rtr
  all_goals simp [canRtrFlag, canEffFlag]

/-- Standard frames with different ids have different id bytes. -/
theorem idBytes_ne {id id' : BitVec 11} (hf : f.id = .standard id) (hg : g.id = .standard id')
    (hne : id ≠ id') : f.idBytes ≠ g.idBytes := by
  intro h
  have hwide := (idBytes_eq_iff f.canId g.canId).1 h
  rw [canId_standard hf, canId_standard hg] at hwide
  have hsame := congrArg (BitVec.setWidth 11) hwide
  exact hne (by simpa using hsame)

/-- The id bytes are those of a wheel exactly if the lowest twelve bits of the id are. -/
theorem word16_idBytes_iff (f : CanFrame) :
    word16 (idLow f.canId) (idHigh f.canId) = 0x1081 ∨
        word16 (idLow f.canId) (idHigh f.canId) = 0x1082 ↔
      f.canId.setWidth 12 = 0x181 ∨ f.canId.setWidth 12 = 0x182 := by
  have hright := idBytes_eq_iff f.canId 0x181
  have hleft := idBytes_eq_iff f.canId 0x182
  refine or_congr (Iff.trans ?_ hright) (Iff.trans ?_ hleft)
  · exact word16_eq_iff (b := idLow 0x181) (c := idHigh 0x181)
  · exact word16_eq_iff (b := idLow 0x182) (c := idHigh 0x182)

end CanFrame

/-! ## A call of `can_recv` -/

namespace CanCall

variable {c : CanCall} {f : CanFrame}

theorem recvmsg_of_received (h : c.received = some f) :
    c.bind = true ∧ c.socket = true ∧ c.wait = true ∧ c.recvmsg = .frame f := by
  rw [received] at h
  split_ifs at h with hok
  obtain ⟨hbind, hsocket, hwait⟩ := hok
  cases hrecv : c.recvmsg with
  | frame g =>
    rw [hrecv] at h
    exact ⟨hbind, hsocket, hwait, congrArg _ (Option.some.inj h)⟩
  | netDown => simp [hrecv] at h
  | failed => simp [hrecv] at h

/-- A frame is copied two cells past its data. -/
theorem canRecv_of_received (h : c.received = some f) (b₀ b₁ : Byte) (zeros : List Byte) :
    c.canRecv (b₀ :: b₁ :: zeros) = do
      let buf ← copyLoop f.data (f.len + 2) 0 2 (f.idBytes ++ zeros)
      return (buf, BitVec.ofNat 64 (f.len + 2)) := by
  obtain ⟨hbind, hsocket, hwait, hrecv⟩ := recvmsg_of_received h
  rw [canRecv, if_neg (by simp [hbind]), if_neg (by simp [hsocket]), if_neg (by simp [hwait]),
    hrecv]
  rfl

theorem emptyBuf_eq : emptyBuf = 0 :: 0 :: List.replicate 510 0 := by
  rw [emptyBuf, List.replicate_succ, List.replicate_succ]

theorem canRecv_of_le (h : c.received = some f) (hlen : f.len ≤ 62) :
    c.canRecv emptyBuf =
      .ok (f.idBytes ++ f.data.take (f.len + 2) ++ List.replicate (508 - f.len) 0,
        BitVec.ofNat 64 (f.len + 2)) := by
  have hdata := f.length_data
  have hids : f.idBytes.length = 2 := rfl
  have hdrop : (f.idBytes ++ List.replicate 510 (0 : Byte)).drop (2 + (f.len + 2)) =
      List.replicate (508 - f.len) 0 := by
    rw [List.drop_append, List.drop_eq_nil_of_le (by omega), List.drop_replicate, List.nil_append]
    congr 1
    omega
  have hroom : 2 + (f.len + 2) ≤ (f.idBytes ++ List.replicate 510 (0 : Byte)).length := by
    rw [List.length_append, List.length_replicate]
    omega
  rw [emptyBuf_eq, canRecv_of_received h, copyLoop_eq _ _ _ _ _ (by omega) hroom, hdrop,
    List.take_left' hids, List.drop_zero, ok_bind, pure_eq_ok]

/-- What is copied begins with the id bytes and the data. -/
theorem take_canRecv (f : CanFrame) (zeros : List Byte) :
    (f.idBytes ++ f.data.take (f.len + 2) ++ zeros).take (f.len + 2) =
      f.idBytes ++ f.data.take f.len := by
  have hlen := f.len_le
  have hdata := f.length_data
  have hle : f.len ≤ (f.data.take (f.len + 2)).length := by
    rw [List.length_take]
    omega
  have hids : f.len + 2 = f.idBytes.length + f.len := Nat.add_comm _ _
  calc (f.idBytes ++ f.data.take (f.len + 2) ++ zeros).take (f.len + 2)
      = f.idBytes ++ (f.data.take (f.len + 2) ++ zeros).take f.len := by
        rw [List.append_assoc]
        exact (congrArg (fun n => List.take n _) hids).trans (List.take_length_add_append f.len)
    _ = f.idBytes ++ f.data.take f.len := by
      rw [List.take_append_of_le_length hle, List.take_take, Nat.min_eq_left (by omega)]

/-- A frame of more than 62 bytes is read past its last cell. -/
theorem canRecv_of_lt (h : c.received = some f) (hlen : 62 < f.len)
    (r : List Byte × BitVec 64) : c.canRecv emptyBuf ≠ .ok r := by
  intro hok
  rw [emptyBuf_eq, canRecv_of_received h] at hok
  obtain ⟨buf, hcopy, -⟩ := bind_eq_ok.1 hok
  have hle := le_of_copyLoop_eq_ok hcopy (by omega)
  have hdata := f.length_data
  omega

/-- The lowest twelve bits of an id of 29 bits and the data pass for the report of a wheel. -/
structure PassesForWheel (f : CanFrame) (id : BitVec 29) : Prop where
  id : id.setWidth 12 = 0x181 ∨ id.setWidth 12 = 0x182
  len : f.len = 8 ∨ f.len = 4 ∨ f.len = 3
  noEcho : isEcho (byteAt f.data 0) = false

/-- What a call has to satisfy : a standard frame is copied with two bytes of its id before its
data, inside its data, only the standard ids of the wheels are taken for their reports, and an
error leads to nothing that is handed on. -/
structure Faithful (c : CanCall) : Prop where
  bytes : ∀ f id, c.received = some f → f.id = .standard id →
    ∃ buf, c.canRecv emptyBuf = .ok (buf, BitVec.ofNat 64 (f.len + 2)) ∧
      buf.take (f.len + 2) = f.idBytes ++ f.data.take f.len
  wheel : ∀ f buf len, c.received = some f → c.canRecv emptyBuf = .ok (buf, len) →
    TakesWheel buf len.toNat → f.id = .standard 0x181 ∨ f.id = .standard 0x182
  quiet : c.received = none → c.pollingDriveRutine = .ok none

/-- A standard frame has at most 62 bytes, an extended one does not pass for the report of a
wheel, and neither `bind` fails nor `recvmsg` with another error than `ENETDOWN`. -/
structure Plain (c : CanCall) : Prop where
  len_le : ∀ f id, c.received = some f → f.id = .standard id → f.len ≤ 62
  noWheel : ∀ f id, c.received = some f → f.id = .extended id → ¬PassesForWheel f id
  bind : c.received = none → c.bind = true
  recvmsg : c.received = none → c.socket = true → c.wait = true → c.recvmsg = .netDown

/-- What is taken for the report of a wheel of a frame that is copied. -/
theorem takesWheel_canRecv_iff (f : CanFrame) {zeros : List Byte} (hzeros : 8 ≤ zeros.length) :
    TakesWheel (f.idBytes ++ f.data.take (f.len + 2) ++ zeros) (f.len + 2) ↔
      (f.canId.setWidth 12 = 0x181 ∨ f.canId.setWidth 12 = 0x182) ∧
        (f.len = 8 ∨ f.len = 4 ∨ f.len = 3) ∧ isEcho (byteAt f.data 0) = false := by
  obtain ⟨b, bs, hdata⟩ := List.exists_cons_of_length_pos (l := f.data)
    (by rw [f.length_data]; decide)
  have hlength : 10 ≤ (f.idBytes ++ f.data.take (f.len + 2) ++ zeros).length := by
    simp only [List.length_append, CanFrame.idBytes, List.length_cons, List.length_nil]
    omega
  have hbyte : byteAt (f.idBytes ++ f.data.take (f.len + 2) ++ zeros) 2 = byteAt f.data 0 := by
    rw [hdata]
    rfl
  rw [takesWheel_iff hlength, ← f.word16_idBytes_iff, ← hbyte]
  constructor
  · rintro ⟨hecho, hlen, hid⟩
    exact ⟨hid, by omega, hecho⟩
  · rintro ⟨hid, hlen, hecho⟩
    exact ⟨hecho, by omega, hid⟩

/-- Of a frame that is copied, only the standard ids of the wheels are taken for their reports
exactly if an extended id does not pass for one. -/
theorem wheel_iff (h : c.received = some f) (hlen : f.len ≤ 62) :
    (∀ buf len, c.canRecv emptyBuf = .ok (buf, len) → TakesWheel buf len.toNat →
      f.id = .standard 0x181 ∨ f.id = .standard 0x182) ↔
    ∀ id, f.id = .extended id → ¬PassesForWheel f id := by
  have htoNat : (BitVec.ofNat 64 (f.len + 2)).toNat = f.len + 2 := by
    rw [BitVec.toNat_ofNat]
    exact Nat.mod_eq_of_lt (by omega)
  have hzeros : 8 ≤ (List.replicate (508 - f.len) (0 : Byte)).length := by
    rw [List.length_replicate]
    omega
  have htakes := takesWheel_canRecv_iff f hzeros
  constructor
  · rintro hwheel id hid ⟨hid12, hlen', hecho⟩
    rw [← CanFrame.canId_extended hid] at hid12
    have hstandard := hwheel _ _ (canRecv_of_le h hlen)
      (by rw [htoNat]; exact htakes.2 ⟨hid12, hlen', hecho⟩)
    rw [hid] at hstandard
    rcases hstandard with hno | hno <;> cases hno
  · intro hno buf len hok hwheel
    rw [canRecv_of_le h hlen] at hok
    obtain ⟨rfl, rfl⟩ := Prod.mk.inj (Except.ok.inj hok)
    rw [htoNat] at hwheel
    obtain ⟨hid12, hlen', hecho⟩ := htakes.1 hwheel
    cases hid : f.id with
    | standard id =>
      rw [CanFrame.canId_standard hid] at hid12
      refine hid12.imp (fun h12 => ?_) (fun h12 => ?_)
      all_goals
        have hsame := congrArg (BitVec.setWidth 11) h12
        simpa using hsame
    | extended id =>
      rw [CanFrame.canId_extended hid] at hid12
      exact absurd ⟨hid12, hlen', hecho⟩ (hno id hid)

theorem faithful_of_received_iff (h : c.received = some f) : c.Faithful ↔ c.Plain := by
  have hsome : ∀ {g}, c.received = some g → g = f := fun hg => Option.some.inj (hg.symm.trans h)
  have hnone : c.received ≠ none := by simp [h]
  rcases Nat.lt_or_ge 62 f.len with hlt | hle
  · -- the copy of a long frame goes wrong, so nothing is taken for a report
    constructor
    · rintro ⟨hbytes, -, -⟩
      refine ⟨fun g id hg hid => ?_, fun g id hg _ hpass => ?_, fun hno => absurd hno hnone,
        fun hno => absurd hno hnone⟩
      · obtain ⟨buf, hok, -⟩ := hbytes g id hg hid
        obtain rfl := hsome hg
        exact absurd hok (canRecv_of_lt hg hlt _)
      · obtain rfl := hsome hg
        have hlen := hpass.len
        omega
    · rintro ⟨hlen, -, -, -⟩
      refine ⟨fun g id hg hid => ?_, fun g buf len hg hok => ?_, fun hno => absurd hno hnone⟩
      · obtain rfl := hsome hg
        exact absurd (hlen g id hg hid) (by omega)
      · obtain rfl := hsome hg
        exact absurd hok (canRecv_of_lt hg hlt _)
  · have hwheel := wheel_iff h hle
    constructor
    · intro hfaithful
      refine ⟨fun g id hg _ => hsome hg ▸ hle, fun g id hg hid => ?_, fun hno => absurd hno hnone,
        fun hno => absurd hno hnone⟩
      obtain rfl := hsome hg
      exact hwheel.1 (fun buf len => hfaithful.wheel g buf len hg) id hid
    · intro hplain
      refine ⟨fun g id hg _ => ?_, fun g buf len hg => ?_, fun hno => absurd hno hnone⟩
      · obtain rfl := hsome hg
        exact ⟨_, canRecv_of_le hg hle, take_canRecv g _⟩
      · obtain rfl := hsome hg
        exact hwheel.2 (fun id hid => hplain.noWheel g id hg hid) buf len

theorem pollingDriveRutine_of_ok {buf : List Byte} {r : BitVec 64}
    (h : c.canRecv emptyBuf = .ok (buf, r)) :
    c.pollingDriveRutine = .ok none ↔ (r.setWidth 32).toInt ≤ 0 := by
  rw [pollingDriveRutine, h, ok_bind]
  dsimp only
  split_ifs with hpos
  · exact iff_of_false (by simp) (by omega)
  · exact iff_of_true rfl (by omega)

/-- An error leads to nothing exactly if it is not returned as a length. -/
theorem pollingDriveRutine_of_error_iff (h : c.received = none) :
    c.pollingDriveRutine = .ok none ↔
      c.bind = true ∧ (c.socket = true → c.wait = true → c.recvmsg = .netDown) := by
  obtain ⟨bind, socket, wait, recv⟩ := c
  cases bind with
  | false => exact (pollingDriveRutine_of_ok rfl).trans (by simp)
  | true =>
    cases socket with
    | false => exact (pollingDriveRutine_of_ok rfl).trans (by simp)
    | true =>
      cases wait with
      | false => exact (pollingDriveRutine_of_ok rfl).trans (by simp)
      | true =>
        cases recv with
        | frame f => cases h
        | netDown => exact (pollingDriveRutine_of_ok rfl).trans (by simp)
        | failed => exact (pollingDriveRutine_of_ok rfl).trans (by simp)

theorem faithful_of_error_iff (h : c.received = none) : c.Faithful ↔ c.Plain := by
  have hsome : ∀ g, c.received ≠ some g := by simp [h]
  have hquiet := pollingDriveRutine_of_error_iff h
  constructor
  · intro hfaithful
    obtain ⟨hbind, hrecv⟩ := hquiet.1 (hfaithful.quiet h)
    exact ⟨fun g _ hg => absurd hg (hsome g), fun g _ hg => absurd hg (hsome g), fun _ => hbind,
      fun _ => hrecv⟩
  · intro hplain
    exact ⟨fun g _ hg => absurd hg (hsome g), fun g _ _ hg => absurd hg (hsome g),
      fun _ => hquiet.2 ⟨hplain.bind h, hplain.recvmsg h⟩⟩

/-- Standard frames with different ids have different id bytes, and a call, with every frame and
every error, is faithful exactly when it is plain. -/
theorem faithful_iff (c : CanCall) :
    (∀ (f g : CanFrame) (id id' : BitVec 11), f.id = .standard id → g.id = .standard id' →
      id ≠ id' → f.idBytes ≠ g.idBytes) ∧ (c.Faithful ↔ c.Plain) := by
  refine ⟨fun f g id id' hf hg => CanFrame.idBytes_ne hf hg, ?_⟩
  cases h : c.received with
  | some f => exact faithful_of_received_iff h
  | none => exact faithful_of_error_iff h

/-- `bind` fails. -/
theorem not_faithful :
    ¬((∀ (f g : CanFrame) (id id' : BitVec 11), f.id = .standard id → g.id = .standard id' →
      id ≠ id' → f.idBytes ≠ g.idBytes) ∧ ∀ c : CanCall, c.Faithful) := by
  rintro ⟨-, h⟩
  have hquiet := (h { bind := false, recvmsg := .netDown }).quiet rfl
  have hpositive := (pollingDriveRutine_of_ok rfl).1 hquiet
  exact absurd hpositive (by decide)

end CanCall

end Mastiff

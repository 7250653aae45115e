import Mastiff.ServoParser

/-!
# Commands to the servo drive

`ServoPacker` (`chassis/parser/pack_libs/servo_packer.cc`) appends the frames of a command to
a container. The speed of the right wheel is sent negated, and `ParseCanBuffer` negates it once
more when the drive reports it.

`axleSpeed_arrives` : the two frames of a speed command have the speeds in their bytes, and a
drive that reports them makes the parser take the speeds commanded. Speeds are `int`s of 32
bits, so this is modulo `2 ^ 32`.
-/

open Memory Bytes

namespace Mastiff

/-- A `std::tuple<const int, const std::vector<uint8_t>>`, a CAN id and the data. -/
abbrev ServoFrame := ℤ × List Byte

namespace ServoPacker

/-- The four bytes that are cut out of an `int` with masks. -/
def maskBytes (v : CInt) : List Byte :=
  [(v &&& 0xff).setWidth 8, ((v &&& 0xff00) >>> 8).setWidth 8,
    ((v &&& 0xff0000) >>> 16).setWidth 8, ((v &&& 0xff000000) >>> 24).setWidth 8]

/-- `FillDataContainerCanOpenAxleSpeed`. -/
def fillDataContainerCanOpenAxleSpeed (td : List ServoFrame) (left right : CInt) :
    List ServoFrame :=
  let td := td ++ [(0x401, maskBytes (~~~right + 1))]
  td ++ [(0x402, maskBytes left)]

/-- `FillDataContainerCanOpenSync`. -/
def fillDataContainerCanOpenSync (td : List ServoFrame) : List ServoFrame :=
  td ++ [(0x80, [])]

/-! ## Bytes -/

/-- The masks cut out the bytes, the least significant first. -/
theorem maskBytes_eq (v : CInt) : maskBytes v = bytes32 v := by
  have hbit : ∀ i, i < 8 → i = 0 ∨ i = 1 ∨ i = 2 ∨ i = 3 ∨ i = 4 ∨ i = 5 ∨ i = 6 ∨ i = 7 := by
    omega
  simp only [maskBytes, bytes32, List.cons.injEq, and_true]
  refine ⟨?_, ?_, ?_, ?_⟩
  all_goals
    ext i hi
    rcases hbit i hi with rfl | rfl | rfl | rfl | rfl | rfl | rfl | rfl
    all_goals simp [lowByte]

/-! ## Speeds -/

/-- For all speeds, two frames are appended that have the speeds in their bytes, the right one
negated. Reports of these speeds that the driver does not drop, and that are not `-1` twice,
make the parser take the speeds commanded, each for its own wheel. -/
theorem axleSpeed_arrives (td : List ServoFrame) (left right : CInt) :
    ∃ rightData leftData,
      fillDataContainerCanOpenAxleSpeed td left right =
        td ++ [(0x401, rightData), (0x402, leftData)] ∧
      rightData.length = 4 ∧ leftData.length = 4 ∧
      u32At rightData 0 = -right ∧ u32At leftData 0 = left ∧
      ∀ (p : ServoParser) (encoder : CInt),
        ((⟨.right, u32At rightData 0, encoder⟩ : ServoParser.Report).Survives →
          ∃ p' odom, p.parseCanBuffer (wheelReport .right (u32At rightData 0) encoder) 10 =
            .ok (p', odom) ∧ p'.rightRpm = right ∧ p'.leftRpm = p.leftRpm) ∧
        ((⟨.left, u32At leftData 0, encoder⟩ : ServoParser.Report).Survives →
          ∃ p' odom, p.parseCanBuffer (wheelReport .left (u32At leftData 0) encoder) 10 =
            .ok (p', odom) ∧ p'.leftRpm = left ∧ p'.rightRpm = p.rightRpm) := by
  have hneg : ~~~right + 1 = -right := (BitVec.neg_eq_not_add right).symm
  refine ⟨bytes32 (-right), bytes32 left, ?_, rfl, rfl, u32At_bytes32 _, u32At_bytes32 _, ?_⟩
  · rw [fillDataContainerCanOpenAxleSpeed, hneg, maskBytes_eq, maskBytes_eq, List.append_assoc]
    rfl
  intro p encoder
  rw [u32At_bytes32, u32At_bytes32]
  constructor
  · intro hsurvives
    exact ⟨_, _, ServoParser.step_of_survives p hsurvives, BitVec.neg_neg, rfl⟩
  · intro hsurvives
    exact ⟨_, _, ServoParser.step_of_survives p hsurvives, rfl, rfl⟩

/-- A turn on the spot. -/
theorem axleSpeed_arrives_turn :
    ∃ p' odom, ServoParser.initial.parseCanBuffer (wheelReport .right (-20) 7) 10 =
      .ok (p', odom) ∧ p'.rightRpm = 20 ∧ p'.leftRpm = 0 := by
  obtain ⟨rightData, leftData, -, -, -, hright, -, h⟩ := axleSpeed_arrives [] (-20) 20
  have hreport := (h ServoParser.initial 7).1
  rw [hright] at hreport
  exact hreport (by decide)

end ServoPacker

end Mastiff

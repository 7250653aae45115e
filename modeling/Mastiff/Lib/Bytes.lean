import Mathlib.Data.BitVec
import Mathlib.Data.List.GetD
import Mastiff.Lib.Memory

/-!
# Little-endian bytes

Bytes are 8-bit vectors. `word32` puts four bytes together with the shifts and ors of a
C decoder, `bytes32` takes a word apart, and `readWord32` reads a word at an offset of a
block. `u16At` and `u32At` are the numbers two and four bytes of a block denote, and
`matchAt` compares the bytes at a place with a list of expected ones.
-/

open Memory

namespace Bytes

/-- A byte. -/
abbrev Byte := BitVec 8

/-! ## Words -/

/-- `b0 | b1 << 8 | b2 << 16 | b3 << 24`. -/
def word32 (b0 b1 b2 b3 : Byte) : BitVec 32 :=
  b0.setWidth 32 ||| b1.setWidth 32 <<< 8 ||| b2.setWidth 32 <<< 16 ||| b3.setWidth 32 <<< 24

/-- `b0 | b1 << 8`. -/
def word16 (b0 b1 : Byte) : BitVec 16 :=
  b0.setWidth 16 ||| b1.setWidth 16 <<< 8

/-- The low byte of a word. -/
def lowByte (x : BitVec 32) : Byte :=
  x.extractLsb' 0 8

/-- The bytes of a word, least significant first. -/
def bytes32 (x : BitVec 32) : List Byte :=
  [lowByte x, x.extractLsb' 8 8, x.extractLsb' 16 8, x.extractLsb' 24 8]

theorem word32_bytes (x : BitVec 32) :
    word32 (lowByte x) (x.extractLsb' 8 8) (x.extractLsb' 16 8) (x.extractLsb' 24 8) = x := by
  ext i hi
  have hcases : i < 8 ∨ 8 ≤ i ∧ i < 16 ∨ 16 ≤ i ∧ i < 24 ∨ 24 ≤ i ∧ i < 32 := by omega
  simp only [word32, lowByte, BitVec.getElem_or, BitVec.getElem_setWidth,
    BitVec.getLsbD_extractLsb', BitVec.getElem_shiftLeft]
  rcases hcases with h | h | h | h
  all_goals simp [BitVec.getLsbD_eq_getElem, hi]
  all_goals grind

theorem word16_bytes (x : BitVec 16) : word16 (x.extractLsb' 0 8) (x.extractLsb' 8 8) = x := by
  ext i hi
  have hcases : i < 8 ∨ 8 ≤ i ∧ i < 16 := by omega
  simp only [word16, BitVec.getElem_or, BitVec.getElem_setWidth, BitVec.getLsbD_extractLsb',
    BitVec.getElem_shiftLeft]
  rcases hcases with h | h
  all_goals simp [BitVec.getLsbD_eq_getElem, hi]
  all_goals grind

theorem extractLsb'_word16_zero (b c : Byte) : (word16 b c).extractLsb' 0 8 = b := by
  ext i hi
  have hlt : i < 16 := by omega
  simp [word16, BitVec.getLsbD_eq_getElem, hi, hlt]

theorem extractLsb'_word16_eight (b c : Byte) : (word16 b c).extractLsb' 8 8 = c := by
  ext i hi
  have hadd : 8 + i < 16 := by omega
  simp [word16, BitVec.getLsbD_eq_getElem, hi, hadd]

theorem word16_eq_iff {b' c' b c : Byte} :
    word16 b' c' = word16 b c ↔ [b', c'] = [b, c] := by
  simp only [List.cons.injEq, and_true]
  constructor
  · intro h
    constructor
    · rw [← extractLsb'_word16_zero b' c', h, extractLsb'_word16_zero]
    · rw [← extractLsb'_word16_eight b' c', h, extractLsb'_word16_eight]
  · rintro ⟨rfl, rfl⟩
    rfl

/-- The two bytes of a block at `off`. -/
def readWord16 (l : List Byte) (off : ℕ) : Except Fault (BitVec 16) := do
  let b0 ← readAt l off
  let b1 ← readAt l (off + 1)
  return word16 b0 b1

/-- The four bytes of a block at `off`. -/
def readWord32 (l : List Byte) (off : ℕ) : Except Fault (BitVec 32) := do
  let b0 ← readAt l off
  let b1 ← readAt l (off + 1)
  let b2 ← readAt l (off + 2)
  let b3 ← readAt l (off + 3)
  return word32 b0 b1 b2 b3

/-- Reading where a word was written gives the word. -/
theorem readWord32_bytes32 (pre post : List Byte) (x : BitVec 32) :
    readWord32 (pre ++ bytes32 x ++ post) pre.length = .ok x := by
  have hcell : ∀ k (hk : k < (bytes32 x).length),
      readAt (pre ++ bytes32 x ++ post) (pre.length + k) = .ok (bytes32 x)[k] := by
    intro k hk
    refine readAt_eq_ok.2 ?_
    rw [List.append_assoc, List.getElem?_append_right (by omega), Nat.add_sub_cancel_left,
      List.getElem?_append_left hk, List.getElem?_eq_getElem hk]
  have h0 := hcell 0 (by simp [bytes32])
  simp only [readWord32, hcell 1 (by simp [bytes32]), hcell 2 (by simp [bytes32]),
    hcell 3 (by simp [bytes32])]
  rw [Nat.add_zero] at h0
  simp only [h0, ok_bind, pure_eq_ok]
  exact congrArg Except.ok (word32_bytes x)

/-! ## Fields of a block

A field of a block is read with its offset. The bytes past the end of the block count
as zero, so a field is a field of the block when its last byte lies inside
(`u16At_take`), and a copy of a part of the block has the fields of the part
(`byteAt_drop`, `u16At_drop`). -/

/-- An unsigned 16-bit number. -/
abbrev U16 := BitVec 16

/-- An unsigned 32-bit number. -/
abbrev U32 := BitVec 32

/-- The byte at `off`. -/
def byteAt (l : List Byte) (off : ℕ) : Byte :=
  l.getD off 0

/-- The little-endian number of the two bytes at `off`. -/
def u16At (l : List Byte) (off : ℕ) : U16 :=
  word16 (byteAt l off) (byteAt l (off + 1))

/-- The little-endian number of the four bytes at `off`. -/
def u32At (l : List Byte) (off : ℕ) : U32 :=
  word32 (byteAt l off) (byteAt l (off + 1)) (byteAt l (off + 2)) (byteAt l (off + 3))

theorem u32At_bytes32 (x : BitVec 32) : u32At (bytes32 x) 0 = x :=
  word32_bytes x

theorem byteAt_drop (l : List Byte) (n off : ℕ) : byteAt (l.drop n) off = byteAt l (n + off) := by
  simp [byteAt, List.getD_eq_getElem?_getD]

theorem byteAt_take {l : List Byte} {n off : ℕ} (h : off < n) :
    byteAt (l.take n) off = byteAt l off := by
  simp [byteAt, List.getD_eq_getElem?_getD, h]

theorem byteAt_append {l r : List Byte} {off : ℕ} (h : off < l.length) :
    byteAt (l ++ r) off = byteAt l off := by
  simp [byteAt, List.getD_eq_getElem?_getD, List.getElem?_append_left h]

theorem u16At_drop (l : List Byte) (n off : ℕ) : u16At (l.drop n) off = u16At l (n + off) := by
  simp [u16At, byteAt_drop, Nat.add_assoc]

theorem u16At_take {l : List Byte} {n off : ℕ} (h : off + 1 < n) :
    u16At (l.take n) off = u16At l off := by
  rw [u16At, byteAt_take h, byteAt_take (by omega), u16At]

theorem u16At_append {l r : List Byte} {off : ℕ} (h : off + 1 < l.length) :
    u16At (l ++ r) off = u16At l off := by
  rw [u16At, byteAt_append h, byteAt_append (by omega), u16At]

/-- Put the two bytes of a number at `off`. -/
def putU16 (l : List Byte) (off : ℕ) (x : U16) : List Byte :=
  l.take off ++ [x.extractLsb' 0 8, x.extractLsb' 8 8] ++ l.drop (off + 2)

theorem length_putU16 {l : List Byte} {off : ℕ} (x : U16) (h : off + 2 ≤ l.length) :
    (putU16 l off x).length = l.length := by
  simp [putU16]
  omega

theorem byteAt_putU16_of_lt {l : List Byte} {off i : ℕ} (x : U16) (h : off + 2 ≤ l.length)
    (hi : i < off) : byteAt (putU16 l off x) i = byteAt l i := by
  rw [putU16, List.append_assoc, byteAt_append (by simp; omega), byteAt_take hi]

theorem u16At_putU16 {l : List Byte} {off : ℕ} (x : U16) (h : off + 2 ≤ l.length) :
    u16At (putU16 l off x) off = x := by
  have hlen : (l.take off).length = off := by simp; omega
  have hdrop : (putU16 l off x).drop off =
      [x.extractLsb' 0 8, x.extractLsb' 8 8] ++ l.drop (off + 2) := by
    rw [putU16, List.append_assoc, List.drop_left' hlen]
  calc u16At (putU16 l off x) off = u16At ((putU16 l off x).drop off) 0 := by
        rw [u16At_drop, Nat.add_zero]
    _ = word16 (x.extractLsb' 0 8) (x.extractLsb' 8 8) := by
      rw [hdrop]
      simp [u16At, byteAt]
    _ = x := word16_bytes x

theorem readAt_eq_byteAt {l : List Byte} {i : ℕ} (h : i < l.length) :
    readAt l i = .ok (byteAt l i) := by
  rw [readAt_of_lt h, byteAt, List.getD_eq_getElem?_getD, List.getElem?_eq_getElem h,
    Option.getD_some]

theorem readWord16_eq_u16At {l : List Byte} {off : ℕ} (h : off + 1 < l.length) :
    readWord16 l off = .ok (u16At l off) := by
  rw [readWord16, readAt_eq_byteAt (by omega), readAt_eq_byteAt h]
  rfl

theorem readWord32_eq_u32At {l : List Byte} {off : ℕ} (h : off + 3 < l.length) :
    readWord32 l off = .ok (u32At l off) := by
  rw [readWord32, readAt_eq_byteAt (by omega), readAt_eq_byteAt (by omega),
    readAt_eq_byteAt (by omega), readAt_eq_byteAt h]
  rfl

/-! A read goes through exactly when the field lies inside the block. -/

theorem isOk_readAt_bind {α : Type} {l : List Byte} {i : ℕ} {f : Byte → Except Fault α} :
    (readAt l i >>= f).isOk = true ↔ i < l.length ∧ (f (byteAt l i)).isOk = true := by
  rcases Nat.lt_or_ge i l.length with hlt | hle
  · rw [readAt_eq_byteAt hlt, ok_bind]
    exact (and_iff_right hlt).symm
  · have hno : readAt l i = .error (.outOfBounds i l.length) := by
      rw [readAt, List.getElem?_eq_none hle]
    rw [hno]
    exact iff_of_false (by simp [Except.isOk, Except.toBool]) fun h => by omega

theorem isOk_readWord16_bind {α : Type} {l : List Byte} {off : ℕ} {f : U16 → Except Fault α} :
    (readWord16 l off >>= f).isOk = true ↔ off + 1 < l.length ∧ (f (u16At l off)).isOk = true := by
  rw [readWord16]
  simp only [bind_assoc, pure_bind, isOk_readAt_bind, u16At]
  exact ⟨fun h => h.2, fun h => ⟨by omega, h⟩⟩

theorem isOk_readWord32_bind {α : Type} {l : List Byte} {off : ℕ} {f : U32 → Except Fault α} :
    (readWord32 l off >>= f).isOk = true ↔ off + 3 < l.length ∧ (f (u32At l off)).isOk = true := by
  rw [readWord32]
  simp only [bind_assoc, pure_bind, isOk_readAt_bind, u32At]
  exact ⟨fun h => h.2.2.2, fun h => ⟨by omega, by omega, by omega, h⟩⟩

theorem extends_readWord16 (off : ℕ) : Extends fun l => readWord16 l off :=
  extends_bind (extends_readAt off) fun _ =>
    extends_bind (extends_readAt (off + 1)) fun _ => extends_const _

theorem extends_readWord32 (off : ℕ) : Extends fun l => readWord32 l off :=
  extends_bind (extends_readAt off) fun _ =>
    extends_bind (extends_readAt (off + 1)) fun _ =>
      extends_bind (extends_readAt (off + 2)) fun _ =>
        extends_bind (extends_readAt (off + 3)) fun _ => extends_const _

/-! ## Signs

A sign is a list of expected bytes with their offsets. -/

/-- Compare a sign at `idx`, stopping at the first difference. -/
def matchAt (l : List Byte) (idx : ℕ) : List (ℕ × Byte) → Except Fault Bool
  | [] => .ok true
  | (off, b) :: sign => do
    let x ← readAt l (idx + off)
    if x = b then matchAt l idx sign else return false

/-- The sign stands at `idx`. -/
def SignAt (l : List Byte) (idx : ℕ) (sign : List (ℕ × Byte)) : Prop :=
  ∀ c ∈ sign, byteAt l (idx + c.1) = c.2

instance (l : List Byte) (idx : ℕ) (sign : List (ℕ × Byte)) : Decidable (SignAt l idx sign) :=
  inferInstanceAs (Decidable (∀ c ∈ sign, _))

theorem signAt_cons {l : List Byte} {idx off : ℕ} {b : Byte} {sign : List (ℕ × Byte)} :
    SignAt l idx ((off, b) :: sign) ↔ byteAt l (idx + off) = b ∧ SignAt l idx sign :=
  List.forall_mem_cons

/-- A sign whose bytes all lie in the block is compared without a fault. -/
theorem matchAt_eq {l : List Byte} {idx : ℕ} :
    ∀ {sign : List (ℕ × Byte)}, (∀ c ∈ sign, idx + c.1 < l.length) →
      matchAt l idx sign = .ok (decide (SignAt l idx sign))
  | [], _ => by simp [matchAt, SignAt]
  | (off, b) :: sign, h => by
    have hoff : idx + off < l.length := h (off, b) (by simp)
    have ih : matchAt l idx sign = .ok (decide (SignAt l idx sign)) :=
      matchAt_eq fun c hc => h c (by simp [hc])
    rw [matchAt, readAt_eq_byteAt hoff, ok_bind, ih]
    by_cases hb : byteAt l (idx + off) = b
    · simp [signAt_cons, hb]
    · simp [signAt_cons, hb]

end Bytes

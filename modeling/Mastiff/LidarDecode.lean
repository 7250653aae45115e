import Mastiff.LidarFan

/-!
# Decoding whole fans

`GetData0xCE`, `GetData0x9D`, `GetData0xCF`, `GetData0xDF` and `GetData0x99`
(`parse_libs/lidar_parser.cc`) decode a fan that comes in one frame. `pdat` are the bytes
from where the source points, and `dat` and `result` are overwritten as in the source :
a frame with a wrong checksum has already left its points in `dat`.

Four of the five add up their header and their points to a 16-bit checksum. `0x99` reads
no checksum.
-/

set_option linter.unusedSectionVars false

open Bytes

namespace Mastiff.Lidar

/-- The return value of a `GetData` function, the fan and the text left in `result`. -/
structure Decoded where
  got : Bool
  dat : RawData
  result : Option String
  deriving DecidableEq

/-! ## Points of three bytes

`0xCE`, `0xCF` and `0xDF` send a confidence and a distance a point. -/

/-- The distance of point `i`. -/
def dist3 (pdat : List Byte) (i : ℕ) : U16 :=
  u16At pdat (3 * i + 1)

/-- The confidence of point `i`. -/
def confidence3 (pdat : List Byte) (i : ℕ) : Byte :=
  byteAt pdat (3 * i)

/-- What `n` points add to the checksum. -/
def sum3 (pdat : List Byte) (n : ℕ) : U16 :=
  ((List.range n).map fun i => (confidence3 pdat i).setWidth 16 + dist3 pdat i).sum

/-- The `n` points, `angle i` the angle of point `i`. -/
def points3 (pdat : List Byte) (n : ℕ) (angle : ℕ → ℚ) : List DataPoint :=
  (List.range n).map fun i =>
    { confidence := confidence3 pdat i
      distance := (dist3 pdat i).toNat / 1000
      angle := angle i }

/-- `GetData0xCE(hdr, pdat, span, with_chk, dat, result)`. -/
def getData0xCE (hdr : RawDataHdr) (pdat : List Byte) (span : ℕ) (withChk : Bool)
    (dat : RawData) : Decoded :=
  let n := hdr.N.toNat
  let sum := hdr.angle + hdr.N + sum3 pdat n
  let chk := u16At pdat (3 * n)
  let dat := { dat with
    points := points3 pdat n fun i => (hdr.angle.toNat + span * i / n) / 10 }
  if withChk ∧ chk ≠ sum then ⟨false, dat, some "chksum  error"⟩
  else ⟨true, { dat with
    code := hdr.code
    N := hdr.N
    angle := hdr.angle
    span := BitVec.ofNat 16 span }, none⟩

/-- `GetData0xCF(hdr, pdat, with_chk, dat, result)`. -/
def getData0xCF (hdr : RawDataHdr2) (pdat : List Byte) (withChk : Bool) (dat : RawData) :
    Decoded :=
  let n := hdr.N.toNat
  let sum := hdr.angle + hdr.N + hdr.span + sum3 pdat n
  let chk := u16At pdat (3 * n)
  let dat := { dat with
    points := points3 pdat n fun i => (hdr.angle.toNat + hdr.span.toNat * i / n) / 10 }
  if withChk ∧ chk ≠ sum then ⟨false, dat, some "chksum  error"⟩
  else ⟨true, { dat with
    code := hdr.code
    N := hdr.N
    angle := hdr.angle
    span := hdr.span }, none⟩

/-- `GetData0xDF(hdr, pdat, with_chk, dat, result)`. A fan of one point has no step `dan`
between points : the source divides by zero, and the quotient is zero here. -/
def getData0xDF (hdr : RawDataHdr3) (pdat : List Byte) (withChk : Bool) (dat : RawData) :
    Decoded :=
  let n := hdr.N.toNat
  let sum := hdr.angle + hdr.N + hdr.span + hdr.fbase + hdr.first + hdr.last + hdr.fend +
    sum3 pdat n
  let dan : ℚ := ((hdr.last.toNat : ℤ) - hdr.first.toNat : ℤ) / ((n : ℤ) - 1 : ℤ)
  let chk := u16At pdat (3 * n)
  let dat := { dat with points := points3 pdat n fun i => (hdr.first.toNat + dan * i) / 100 }
  if withChk ∧ chk ≠ sum then ⟨false, dat, some "chksum df error"⟩
  else ⟨true, { dat with
    code := hdr.code
    N := hdr.N
    angle := hdr.angle
    span := hdr.span }, none⟩

/-! ## The other layouts -/

/-- `GetData0x9D(hdr, pdat, with_chk, dat, result)`, a distance a point. -/
def getData0x9D (hdr : RawDataHdr2) (pdat : List Byte) (withChk : Bool) (dat : RawData) :
    Decoded :=
  let n := hdr.N.toNat
  let dist i := u16At pdat (2 * i)
  let sum := hdr.angle + hdr.N + hdr.span + ((List.range n).map dist).sum
  let chk := u16At pdat (2 * n)
  let dat := { dat with
    points := (List.range n).map fun i =>
      { confidence := 1
        distance := (dist i).toNat / 1000
        angle := (hdr.angle.toNat + (hdr.span.toNat * i : ℕ) / n) / 10 } }
  if withChk ∧ chk ≠ sum then ⟨false, dat, some "chksum  error"⟩
  else ⟨true, { dat with
    code := hdr.code
    N := hdr.N
    angle := hdr.angle
    span := hdr.span }, none⟩

/-- `GetData0x99(hdr, pdat, with_chk, dat, result)`, `pdat` from the head of the frame.
All distances precede the energies. -/
def getData0x99 (now : ℕ) (hdr : RawDataHdr99) (pdat : List Byte) (dat : RawData) : Decoded :=
  let n := hdr.N.toNat
  let total := hdr.total.toNat
  ⟨true, { dat with
    code := hdr.code
    N := hdr.N
    angle := BitVec.ofNat 16 (hdr.fromPoint.toNat * 3600 / total)
    span := BitVec.ofNat 16 (n * 3600 / total)
    ts := decTimestamp now hdr.timestamp
    points := (List.range n).map fun i =>
      { distance := (u16At pdat (hdr99Size + 2 * i)).toNat / 1000
        angle := (i + hdr.fromPoint.toNat : ℕ) * 360 / total
        confidence := byteAt pdat (hdr99Size + 2 * n + i) } }, none⟩

end Mastiff.Lidar

import Mathlib.Data.Rat.Defs
import Mastiff.Lib.Bytes

/-!
# Lidar frames

The data types of `parse_libs/lidar_50cr.h`. The lidar sends a sector of the circle, a
fan, in one of seven frame kinds, each with its own header, 2, 3 or 5 bytes a point and
two bytes of checksum. The headers are copied out of the byte stream field by field,
little endian, and `RawData` is a decoded fan.

Angles of fans are tenths of a degree as in the source. A point's angle and distance are
the rational numbers of degrees and metres that the source rounds to `float`, the factor
`PI / 180` left aside.
-/

set_option linter.unusedSectionVars false

open Bytes

namespace Mastiff.Lidar

/-! ## Sizes -/

/-- `MAX_POINTS`. -/
def maxPoints : ℕ := 500

/-- `MAX_FRAMEPOINTS`. -/
def maxFramePoints : ℕ := 10000

/-- `MAX_FRAMEIDX`. -/
def maxFrameIdx : ℕ := 1000000

/-- `HDR_SIZE`. -/
def hdrSize : ℕ := 6

/-- `HDR2_SIZE`. -/
def hdr2Size : ℕ := 8

/-- `HDR3_SIZE`. -/
def hdr3Size : ℕ := 16

/-- `HDR7_SIZE`. -/
def hdr7Size : ℕ := 28

/-- `HDR99_SIZE`. -/
def hdr99Size : ℕ := 32

/-- `HDRAA_SIZE`. -/
def hdrAASize : ℕ := 48

/-- `sizeof(LidarMsgHdr)`. -/
def lidarMsgHdrSize : ℕ := 128

/-- `sizeof(EEpromV101)`. -/
def eepromV101Size : ℕ := 152

/-- `sizeof(CmdHeader)`. -/
def cmdHeaderSize : ℕ := 8

/-! ## Headers -/

/-- `RawDataHdr`. -/
structure RawDataHdr where
  code : U16
  N : U16
  angle : U16
  deriving DecidableEq

/-- `memcpy` into a `RawDataHdr`. -/
def RawDataHdr.ofBytes (b : List Byte) : RawDataHdr where
  code := u16At b 0
  N := u16At b 2
  angle := u16At b 4

/-- `RawDataHdr2`. -/
structure RawDataHdr2 where
  code : U16
  N : U16
  angle : U16
  span : U16
  deriving DecidableEq

/-- `memcpy` into a `RawDataHdr2`. -/
def RawDataHdr2.ofBytes (b : List Byte) : RawDataHdr2 where
  code := u16At b 0
  N := u16At b 2
  angle := u16At b 4
  span := u16At b 6

/-- `RawDataHdr3`. -/
structure RawDataHdr3 where
  code : U16
  N : U16
  angle : U16
  span : U16
  fbase : U16
  first : U16
  last : U16
  fend : U16
  deriving DecidableEq

/-- `memcpy` into a `RawDataHdr3`. -/
def RawDataHdr3.ofBytes (b : List Byte) : RawDataHdr3 where
  code := u16At b 0
  N := u16At b 2
  angle := u16At b 4
  span := u16At b 6
  fbase := u16At b 8
  first := u16At b 10
  last := u16At b 12
  fend := u16At b 14

/-- `RawDataHdr7`. -/
structure RawDataHdr7 where
  code : U16
  N : U16
  wholeFan : U16
  ofset : U16
  begAng : U32
  endAng : U32
  flags : U32
  timestamp : U32
  devId : U32
  deriving DecidableEq

/-- `memcpy` into a `RawDataHdr7`. -/
def RawDataHdr7.ofBytes (b : List Byte) : RawDataHdr7 where
  code := u16At b 0
  N := u16At b 2
  wholeFan := u16At b 4
  ofset := u16At b 6
  begAng := u32At b 8
  endAng := u32At b 12
  flags := u32At b 16
  timestamp := u32At b 20
  devId := u32At b 24

/-- `RawDataHdrAA` without its reserved words. -/
structure RawDataHdrAA where
  code : U16
  N : U16
  wholeFan : U16
  ofset : U16
  begAng : U32
  endAng : U32
  flags : U32
  second : U32
  nanoSec : U32
  devId : U32
  deriving DecidableEq

/-- `memcpy` into a `RawDataHdrAA`. -/
def RawDataHdrAA.ofBytes (b : List Byte) : RawDataHdrAA where
  code := u16At b 0
  N := u16At b 2
  wholeFan := u16At b 4
  ofset := u16At b 6
  begAng := u32At b 8
  endAng := u32At b 12
  flags := u32At b 16
  second := u32At b 20
  nanoSec := u32At b 24
  devId := u32At b 28

/-- `RawDataHdr99` without its reserved words. -/
structure RawDataHdr99 where
  code : U16
  N : U16
  fromPoint : U16
  total : U16
  flags : U32
  timestamp : U32
  devNo : U32
  deriving DecidableEq

/-- `memcpy` into a `RawDataHdr99`. -/
def RawDataHdr99.ofBytes (b : List Byte) : RawDataHdr99 where
  code := u16At b 0
  N := u16At b 2
  fromPoint := u16At b 4
  total := u16At b 6
  flags := u32At b 8
  timestamp := u32At b 12
  devNo := u32At b 16

/-- The sum of a header's words but its first, the frame's head. -/
def headerSum (hdrLen : ℕ) (frame : List Byte) : U16 :=
  ((List.range (hdrLen / 2 - 1)).map fun i => u16At frame (2 * (i + 1))).sum

/-! ## Decoded fans -/

/-- `DataPoint`, in degrees and metres. -/
structure DataPoint where
  angle : ℚ
  distance : ℚ
  confidence : Byte
  deriving DecidableEq

/-- `RawData`. Of the array `points`, the first `N` cells. -/
structure RawData where
  code : U16
  N : U16
  angle : U16
  span : U16
  fbase : U16
  first : U16
  last : U16
  fend : U16
  flags : U32
  points : List DataPoint
  ts : U32 × U32
  deriving DecidableEq, Inhabited

/-! ## Frame kinds -/

/-- The first byte of a frame's head. -/
inductive FrameKind
  | xCE
  | x9D
  | xDF
  | xCF
  | xC7
  | x99
  | xAA
  deriving DecidableEq, Repr

namespace FrameKind

/-- The first head byte. The second is `0xfa` for every kind. -/
def byte : FrameKind → Byte
  | xCE => 0xce
  | x9D => 0x9d
  | xDF => 0xdf
  | xCF => 0xcf
  | xC7 => 0xc7
  | x99 => 0x99
  | xAA => 0xaa

/-- The size of a kind's header. -/
def hdrLen : FrameKind → ℕ
  | xCE => hdrSize
  | x9D => hdr2Size
  | xDF => hdr3Size
  | xCF => hdr2Size
  | xC7 => hdr7Size
  | x99 => hdr99Size
  | xAA => hdrAASize

/-- The bytes a kind spends on a point : a distance, with an angle or an energy where
the kind has them. -/
def pointLen : FrameKind → ℕ
  | x9D => 2
  | xC7 | xAA => 5
  | xCE | xDF | xCF | x99 => 3

/-- The length of a frame of `n` points, with its checksum. -/
def encodedLen (k : FrameKind) (n : ℕ) : ℕ :=
  k.hdrLen + k.pointLen * n + 2

end FrameKind

end Mastiff.Lidar

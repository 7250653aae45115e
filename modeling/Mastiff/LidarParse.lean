import Mastiff.LidarDecode

/-!
# Framing the lidar stream

`LidarParser::TryParseRawData` (`parse_libs/lidar_parser.cc`) walks over a byte buffer to
the first control message, status packet or frame head it accepts (`scan`), and decodes
the frame there when the buffer holds all of it. It returns a code and, through `consume`,
the number of bytes the caller may drop.

A frame kind's length is written three times in the source : in the test that the frame
is complete (`FrameKind.avail`), in the decoder and in the assignment to `consume`
(`FrameKind.consumed`). All reads are checked reads of the buffer.
-/

set_option linter.unusedSectionVars false

open Memory Bytes

namespace Mastiff.Lidar

/-! ## What the walk can meet -/

/-- The control messages, in the order they are looked for. -/
inductive Message
  | lmsg
  | eprm
  | timeSync
  | cPack
  | sPack
  | readZone
  | writeZone
  deriving DecidableEq, Repr

namespace Message

/-- The bytes a control message starts with. -/
def sign : Message → List (ℕ × Byte)
  | lmsg => [(0, 0x4c), (1, 0x4d), (2, 0x53), (3, 0x47)]
  | eprm => [(0, 0x4c), (1, 0x48), (2, 0xac), (3, 0xb8)]
  | timeSync => [(0, 0x4c), (1, 0x48), (2, 0xbe), (3, 0xb4)]
  | cPack => [(0, 0x4c), (1, 0x48), (2, 0xbc), (3, 0xff)]
  | sPack => [(0, 0x4c), (1, 0x48), (2, 0xac), (3, 0xff)]
  | readZone => [(0, 0x4c), (1, 0x48), (2, 0xb8), (3, 0xa5)]
  | writeZone => [(0, 0x4c), (1, 0x48), (2, 0xac), (3, 0xa5)]

/-- All control messages, in the order they are looked for. -/
def all : List Message :=
  [lmsg, eprm, timeSync, cPack, sPack, readZone, writeZone]

end Message

/-- `ST`, four bytes of state, `ED`. -/
def statusSign : List (ℕ × Byte) :=
  [(0, 0x53), (1, 0x54), (6, 0x45), (7, 0x44)]

/-- The frame kinds, in the order they are looked for. -/
def FrameKind.all : List FrameKind :=
  [xDF, xCE, xCF, xC7, x9D, x99, xAA]

/-- Where the walk stops. -/
inductive Stop
  | message (m : Message)
  | status
  | frame (k : FrameKind)
  deriving DecidableEq, Repr

/-- What stands at a place : something to stop at, or bytes to skip. -/
inductive Look
  | stop (s : Stop)
  | skip (n : ℕ)
  deriving DecidableEq, Repr

/-- The first of the messages whose sign stands at `idx`. -/
def findMessage (buf : List Byte) (idx : ℕ) : List Message → Except Fault (Option Message)
  | [] => .ok none
  | m :: ms => do
    if ← matchAt buf idx m.sign then return some m else findMessage buf idx ms

/-- The kind of the frame head at `idx`. -/
def findHead (buf : List Byte) (idx : ℕ) : Except Fault (Option FrameKind) := do
  if (← readAt buf (idx + 1)) = 0xfa then
    let b ← readAt buf idx
    return FrameKind.all.find? fun k => b = k.byte
  else return none

/-- The angle test of a frame head and the test of its number of points. `0x99` has its
span tested in place of its angle. -/
def acceptHead (buf : List Byte) (idx : ℕ) (k : FrameKind) : Except Fault Bool := do
  let hdr := RawDataHdr.ofBytes (← slice buf idx hdrSize)
  let angleOk ← match k with
    | .x99 => do
      let hdr99 := RawDataHdr99.ofBytes (← slice buf idx hdr99Size)
      pure (decide (hdr99.total ≠ 0 ∧ hdr99.N.toNat * 3600 / hdr99.total.toNat % 90 = 0))
    | .xC7 | .xAA => pure true
    | .xCE | .x9D | .xDF | .xCF => pure (decide (hdr.angle.toNat % 90 = 0))
  return angleOk && hdr.N.toNat ≤ maxPoints

/-- One turn of the walk at `idx`. -/
def look (buf : List Byte) (idx : ℕ) : Except Fault Look := do
  match ← findMessage buf idx Message.all with
  | some m => return .stop (.message m)
  | none =>
    if ← matchAt buf idx statusSign then return .stop .status
    match ← findHead buf idx with
    | none => return .skip 1
    | some k =>
      if ← acceptHead buf idx k then return .stop (.frame k) else return .skip 2

/-- The walk from `idx`, with the number of turns it may take. -/
def scanFrom (buf : List Byte) : ℕ → ℕ → Except Fault (Option Stop × ℕ)
  | 0, idx => .ok (none, idx)
  | turns + 1, idx =>
    if idx + 12 < buf.length then do
      match ← look buf idx with
      | .stop s => return (some s, idx)
      | .skip n => scanFrom buf turns (idx + n)
    else .ok (none, idx)

/-- The walk over the whole buffer. Every turn moves on, so it ends within the turns. -/
def scan (buf : List Byte) : Except Fault (Option Stop × ℕ) :=
  scanFrom buf buf.length 0

/-! ## Decoding what was found -/

/-- The flags of the first state byte in `UartState`. -/
structure UartState where
  unitMm : Bool
  withConf : Bool
  withSmooth : Bool
  withFitter : Bool
  span9 : Bool
  span18 : Bool
  spanOther : Bool
  resampele : Bool
  deriving DecidableEq, Inhabited

/-- The assignments to `UartState`. -/
def UartState.ofByte (flag : Byte) : UartState where
  unitMm := flag.getLsbD 0
  withConf := flag.getLsbD 1
  withSmooth := flag.getLsbD 2
  withFitter := flag.getLsbD 3
  span9 := flag.getLsbD 4
  span18 := flag.getLsbD 5
  spanOther := flag.getLsbD 6
  resampele := flag.getLsbD 7

/-- The array `result` : zero, bytes of a control message, or a text. -/
inductive ResultBuf
  | zero
  | bytes (b : List Byte)
  | text (s : String)
  deriving DecidableEq

/-- The arguments `TryParseRawData` writes through. -/
structure ParseArgs where
  uartstate : UartState
  dat : RawData
  consume : ℕ
  result : ResultBuf
  cmdheader : List Byte
  fanSegs : FanSegs
  deriving DecidableEq

namespace ParseArgs

/-- A `GetData` function's writes through `result`. -/
def note (args : ParseArgs) : Option String → ResultBuf
  | none => args.result
  | some s => .text s

/-- A decoded frame and the bytes it takes. -/
def take (args : ParseArgs) (r : Decoded) (consume : ℕ) : Bool × ParseArgs :=
  (r.got, { args with dat := r.dat, result := args.note r.result, consume := consume })

/-- A segment and the bytes it takes. -/
def takeSegment (args : ParseArgs) (r : Collected FanSegs) (consume : ℕ) : Bool × ParseArgs :=
  (r.got, { args with
    dat := r.dat
    result := args.note r.result
    fanSegs := r.pending
    consume := consume })

end ParseArgs

/-- The branch of a control message found at `idx`, with the returned code. The command
header is copied from the start of the buffer, wherever the message is. -/
def Message.handle (buf : List Byte) (idx : ℕ) (args : ParseArgs) :
    Message → Except Fault (ℤ × ParseArgs)
  | lmsg => do
    let result ← slice buf idx lidarMsgHdrSize
    return (2, { args with result := .bytes result, consume := idx + lidarMsgHdrSize })
  | eprm => do
    let cmdheader ← slice buf 0 cmdHeaderSize
    let result ← slice buf (8 + idx) eepromV101Size
    return (3, { args with
      cmdheader := cmdheader
      result := .bytes result
      consume := idx + eepromV101Size })
  | timeSync => .ok (4, { args with consume := idx + 2 })
  | cPack => do
    let cmdheader ← slice buf 0 cmdHeaderSize
    return (5, { args with consume := idx + 2, cmdheader := cmdheader })
  | sPack => do
    let cmdheader ← slice buf 0 cmdHeaderSize
    let result ← slice buf (idx + 8) 2
    return (6, { args with
      consume := idx + 2
      cmdheader := cmdheader
      result := .bytes result })
  | readZone => do
    let cmdheader ← slice buf 0 cmdHeaderSize
    return (7, { args with consume := idx + 4, cmdheader := cmdheader })
  | writeZone => do
    let cmdheader ← slice buf 0 cmdHeaderSize
    return (8, { args with consume := idx + 4, cmdheader := cmdheader })

/-- The branch of a status packet at `idx`. The `span` it sets is not used any more, as
the function returns. -/
def handleStatus (buf : List Byte) (idx : ℕ) (args : ParseArgs) :
    Except Fault (ℤ × ParseArgs) := do
  let flag ← readAt buf (idx + 2)
  return (9, { args with uartstate := .ofByte flag, consume := idx + 8 })

/-- The bytes from `idx` on that the test for a complete frame asks for. -/
def FrameKind.avail : FrameKind → ℕ → ℕ
  | xCE, n => hdrSize + n * 3 + 2
  | x9D, n => n * 2 + 10
  | xDF, n => n * 3 + 18
  | xCF, n => hdr2Size + n * 3 + 2
  | xC7, n => hdr7Size + n * 5 + 2
  | x99, n => hdr99Size + n * 3 + 2
  | xAA, n => hdrAASize + n * 3 + 2

/-- The value assigned to `consume` for a frame at `idx`. -/
def FrameKind.consumed (idx : ℕ) : FrameKind → ℕ → ℕ
  | xCE, n => idx + hdrSize + 3 * n + 2
  | x9D, n => idx + hdr2Size + 2 * n + 2
  | xDF, n => idx + hdr3Size + 3 * n + 2
  | xCF, n => hdr2Size + 3 * n + 2
  | xC7, n => idx + hdr7Size + 5 * n + 2
  | x99, n => idx + hdr99Size + 3 * n + 2
  | xAA, n => idx + hdrAASize + 3 * n + 2

/-- The branch of a complete frame at `idx`, with `got`. The decoders get the bytes they
read. -/
def decodeFrame (now : ℕ) (buf : List Byte) (idx : ℕ) (withChk : Bool) (args : ParseArgs)
    (hdr : RawDataHdr) (k : FrameKind) : Except Fault (Bool × ParseArgs) :=
  let n := hdr.N.toNat
  let consume := k.consumed idx n
  match k with
  | .xCE => do
    let pdat ← slice buf (idx + hdrSize) (3 * n + 2)
    let span := if hdr.angle = 3420 then 360 * 2 else 360
    return args.take (getData0xCE hdr pdat span withChk args.dat) consume
  | .x9D => do
    let hdr2 := RawDataHdr2.ofBytes (← slice buf idx hdr2Size)
    let pdat ← slice buf (idx + hdr2Size) (2 * n + 2)
    return args.take (getData0x9D hdr2 pdat withChk args.dat) consume
  | .xDF => do
    let hdr3 := RawDataHdr3.ofBytes (← slice buf idx hdr3Size)
    let pdat ← slice buf (idx + hdr3Size) (3 * n + 2)
    return args.take (getData0xDF hdr3 pdat withChk args.dat) consume
  | .xCF => do
    let hdr2 := RawDataHdr2.ofBytes (← slice buf idx hdr2Size)
    let pdat ← slice buf (idx + hdr2Size) (3 * n + 2)
    return args.take (getData0xCF hdr2 pdat withChk args.dat) consume
  | .xC7 => do
    let hdr7 := RawDataHdr7.ofBytes (← slice buf idx hdr7Size)
    let pdat ← slice buf idx (hdr7Size + 5 * n + 2)
    return args.takeSegment (← getData0xC7 now hdr7 pdat args.dat args.fanSegs) consume
  | .x99 => do
    let hdr99 := RawDataHdr99.ofBytes (← slice buf idx hdr99Size)
    let pdat ← slice buf idx (hdr99Size + 3 * n)
    return args.take (getData0x99 now hdr99 pdat args.dat) consume
  | .xAA => do
    let hdraa := RawDataHdrAA.ofBytes (← slice buf idx hdrAASize)
    let pdat ← slice buf idx (hdrAASize + 5 * n + 2)
    return args.takeSegment (← getData0xAA now hdraa pdat args.dat args.fanSegs) consume

/-- What is returned when the walk or a frame reaches the end of the buffer at `idx`. -/
def giveUp (idx : ℕ) (args : ParseArgs) : ℤ × ParseArgs :=
  (-1, if 1024 < idx then { args with consume := idx / 2 } else args)

/-- `TryParseRawData(len, buf, …)` on a buffer of `len` bytes, with `tv_sec` at `now`. -/
def tryParseRawData (now : ℕ) (buf : List Byte) (withChk : Bool) (args : ParseArgs) :
    Except Fault (ℤ × ParseArgs) := do
  let (stop, idx) ← scan buf
  match stop with
  | none => return giveUp idx args
  | some (.message m) => m.handle buf idx args
  | some .status => handleStatus buf idx args
  | some (.frame k) =>
    let hdr := RawDataHdr.ofBytes (← slice buf idx hdrSize)
    if idx + k.avail hdr.N.toNat ≤ buf.length then
      let (got, args) ← decodeFrame now buf idx withChk args hdr k
      return (if got then 1 else 0, args)
    else return giveUp idx args

end Mastiff.Lidar

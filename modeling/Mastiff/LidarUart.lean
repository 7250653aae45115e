import Mastiff.CircularBuffer
import Mastiff.LidarScan
import Mastiff.LidarSent

/-!
# A pass over the lidar's bytes

`LidarParser::ParseUartBuffer` (`parse_libs/lidar_parser.cc`) reads the circular buffer,
calls `TryParseRawData` on it again and again, each time after the bytes consumed so far,
hands the decoded fans to the scan assembly and releases the bytes.

The loop goes on while `cbuf_idx <= cbuf_len`, where `cbuf_idx` are the bytes behind it
and `cbuf_len` the bytes before it : it stops once it is past the middle of what it read.
`drained` counts the frames it gets to, and `drains_iff` says when these are all it could
have got to.

The published cloud, the count of empty scans and the driver actions that the loop does
not act on are left out.
-/

set_option linter.unusedSectionVars false

open Memory Bytes

namespace Mastiff.Lidar

/-! ## The parser -/

/-- `ACTION`, in its order. -/
inductive Action
  | offline
  | online
  | run
  | control
  | getAllParams
  | setParam
  | readZone
  | writeZone
  | finish
  deriving DecidableEq, Repr

/-- The value of an action. -/
def Action.toNat : Action → ℕ
  | offline => 0
  | online => 1
  | run => 2
  | control => 3
  | getAllParams => 4
  | setParam => 5
  | readZone => 6
  | writeZone => 7
  | finish => 8

/-- `FrameData`. Of the array `data`, the first `N` cells. -/
structure FrameData where
  N : U16
  ts : U32 × U32
  data : List DataPoint
  deriving DecidableEq, Inhabited

/-- The members of `LidarParser` that `ParseUartBuffer` uses, `frame` and `idx` those of
`userdata_`. -/
structure LidarParser where
  cbufRaw : CircularBuffer Byte
  fanSegs : FanSegs
  frame : FrameData
  idx : ℕ
  action : Action
  zonemsg : List Byte
  eepromv101 : List Byte
  cmdheader : List Byte
  state : ℤ
  startAngle : ℤ
  error : String
  wholeDatas : List RawData

/-- What a pass finds outside the parser : the clock, and what is in the memory of its
uninitialised local variables. -/
structure Env where
  sec : ℕ
  usec : ℕ
  dat : RawData
  uartstate : UartState

/-- One turn of the loop : where it started, what `TryParseRawData` returned and
consumed, and the scan it published. -/
structure Turn where
  offset : ℕ
  ret : ℤ
  consume : ℕ
  frame : Option FrameData

namespace LidarParser

/-- The points of the fans, copied into the frame. The array of the frame has
`MAX_FRAMEPOINTS` cells, and nothing compares the points with it. -/
def copyPoints (fans : List RawData) : Except Fault (List DataPoint) :=
  let points := (fans.map RawData.points).flatten
  if maxFramePoints < points.length then .error (.outOfBounds maxFramePoints maxFramePoints)
  else .ok points

/-- The search for the angle at which scans start, while there is none. -/
def firstAngle (p : LidarParser) (dat : RawData) : Except Fault LidarParser :=
  if p.state < 0 then do
    let (state, wholeDatas, error) ← autoGetFirstAngle dat p.wholeDatas p.error
    return { p with state := state, wholeDatas := wholeDatas, error := error }
  else .ok p

/-- The branch of a decoded fan, with the scan it publishes. -/
def takeFan (p : LidarParser) (env : Env) (dat : RawData) :
    Except Fault (LidarParser × Option FrameData) :=
  if p.startAngle = -1 then do
    let p ← p.firstAngle dat
    return (if 0 ≤ p.state then { p with startAngle := p.state, action := .online } else p, none)
  else do
    let (ret, wholeDatas, error) ← wholeDataProcess dat p.startAngle p.wholeDatas p.error
    let p := { p with wholeDatas := wholeDatas, error := error }
    let p := if Action.run.toNat ≤ p.action.toNat ∧ ret = -1 then { p with error := "" } else p
    if ret = 1 then do
      let data ← copyPoints p.wholeDatas
      let frame : FrameData := {
        N := BitVec.ofNat 16 data.length
        ts := (BitVec.ofNat 32 env.sec, BitVec.ofNat 32 env.usec)
        data := data }
      let idx := p.idx + 1
      return ({ p with
        frame := frame
        idx := if maxFrameIdx ≤ idx then 0 else idx
        wholeDatas := []
        action := .run }, some frame)
    else return (p, none)

/-- The `switch` over what `TryParseRawData` returned. -/
def dispatch (p : LidarParser) (env : Env) (r : ℤ) (args : ParseArgs) :
    Except Fault (LidarParser × Option FrameData) :=
  let result : List Byte := match args.result with
    | .bytes b => b
    | _ => []
  if r = 1 then p.takeFan env args.dat
  else if r = 2 then .ok ({ p with zonemsg := result, action := .finish }, none)
  else if r = 3 then .ok ({ p with eepromv101 := result, action := .finish }, none)
  else if r = 5 ∨ r = 6 then .ok ({ p with action := .finish }, none)
  else .ok (p, none)

/-- The release of the consumed bytes. -/
def release (p : LidarParser) (consume : ℕ) : Except Fault LidarParser :=
  if 0 < consume then do
    let (_, cbufRaw) ← p.cbufRaw.restore consume
    return { p with cbufRaw := cbufRaw }
  else .ok p

/-- The body of the loop, `cbuf_idx` bytes of `raw` behind it. -/
def parseTurn (env : Env) (raw : List Byte) (cbufIdx : ℕ) (p : LidarParser) :
    Except Fault (LidarParser × Turn) := do
  let (r, args) ← tryParseRawData env.sec (raw.drop cbufIdx) true {
    uartstate := env.uartstate
    dat := env.dat
    consume := 0
    result := .zero
    cmdheader := p.cmdheader
    fanSegs := p.fanSegs }
  let p := { p with cmdheader := args.cmdheader, fanSegs := args.fanSegs }
  let (p, frame) ← p.dispatch env r args
  let p ← p.release args.consume
  return (p, ⟨cbufIdx, r, args.consume, frame⟩)

/-- The loop, with the number of turns it may take. `cbuf_len` is what `raw` has beyond
`cbuf_idx`. -/
def parseLoop (env : Env) (raw : List Byte) :
    ℕ → ℕ → LidarParser → Except Fault (LidarParser × List Turn)
  | 0, _, p => .ok (p, [])
  | turns + 1, cbufIdx, p => do
    let (p, turn) ← parseTurn env raw cbufIdx p
    let cbufIdx := cbufIdx + turn.consume
    let cbufLen : ℤ := raw.length - cbufIdx
    if cbufIdx ≤ cbufLen ∧ 0 < turn.consume then do
      let (p, rest) ← parseLoop env raw turns cbufIdx p
      return (p, turn :: rest)
    else return (p, [turn])

/-- `ParseUartBuffer(si, buf, len)`, with its return value and its turns. Every turn that
goes on has consumed a byte, so the loop ends within the turns. -/
def parseUartBuffer (env : Env) (p : LidarParser) : Except Fault (ℤ × LidarParser × List Turn) :=
  let cbufLen := p.cbufRaw.cbufSize
  if cbufLen ≤ 100 then .ok (0, p, [])
  else do
    let (ok, raw) ← p.cbufRaw.readSafely (List.replicate cbufLen.toNat 0)
    if !ok then return (-1, p, [])
    let (p, turns) ← parseLoop env raw (raw.length + 1) 0 p
    return (0, p, turns)

/-! ## What a turn does to the circular buffer -/

variable {env : Env} {raw : List Byte} {p : LidarParser}

theorem firstAngle_leaves {dat : RawData} {p' : LidarParser} (h : p.firstAngle dat = .ok p') :
    p'.cbufRaw = p.cbufRaw ∧ p'.fanSegs = p.fanSegs := by
  unfold firstAngle at h
  split_ifs at h
  · obtain ⟨r, -, hout⟩ := bind_eq_ok.1 h
    rw [← Except.ok.inj hout]
    exact ⟨rfl, rfl⟩
  · rw [← Except.ok.inj h]
    exact ⟨rfl, rfl⟩

theorem takeFan_leaves {dat : RawData} {out : LidarParser × Option FrameData}
    (h : p.takeFan env dat = .ok out) :
    out.1.cbufRaw = p.cbufRaw ∧ out.1.fanSegs = p.fanSegs := by
  unfold takeFan at h
  by_cases hstart : p.startAngle = -1
  · rw [if_pos hstart] at h
    obtain ⟨p', hp', hout⟩ := bind_eq_ok.1 h
    rw [← Except.ok.inj hout, ← (firstAngle_leaves hp').1, ← (firstAngle_leaves hp').2]
    split_ifs <;> exact ⟨rfl, rfl⟩
  · rw [if_neg hstart] at h
    obtain ⟨⟨ret, wholeDatas, error⟩, -, hout⟩ := bind_eq_ok.1 h
    simp only at hout
    by_cases hret : ret = 1
    · rw [if_pos hret] at hout
      obtain ⟨data, -, hout⟩ := bind_eq_ok.1 hout
      rw [← Except.ok.inj hout]
      split_ifs <;> exact ⟨rfl, rfl⟩
    · rw [if_neg hret] at hout
      rw [← Except.ok.inj hout]
      split_ifs <;> exact ⟨rfl, rfl⟩

theorem copyPoints_eq_ok {fans : List RawData} {data : List DataPoint}
    (h : copyPoints fans = .ok data) : data = (fans.map RawData.points).flatten := by
  simp only [copyPoints] at h
  split_ifs at h
  exact (Except.ok.inj h).symm

/-- Once there is a start angle, a decoded fan goes through the assembly of scans, and what
is published are the points of a reported scan. -/
theorem takeFan_wholeDatas (hstart : p.startAngle ≠ -1) {dat : RawData}
    {out : LidarParser × Option FrameData} (h : p.takeFan env dat = .ok out) :
    ∃ outcome, Lidar.takeFan p.startAngle p.wholeDatas dat = .ok (out.1.wholeDatas, outcome) ∧
      out.2.map FrameData.data =
        if outcome.1 = 1 then some (outcome.2.map RawData.points).flatten else none := by
  rw [takeFan, if_neg hstart] at h
  obtain ⟨⟨ret, wholeDatas, error⟩, hprocess, hout⟩ := bind_eq_ok.1 h
  refine ⟨(ret, wholeDatas), ?_⟩
  rw [takeFan_of_process hprocess]
  simp only at hout
  by_cases hret : ret = 1
  · rw [if_pos hret] at hout
    obtain ⟨data, hdata, hout⟩ := bind_eq_ok.1 hout
    have hpoints : data = (wholeDatas.map RawData.points).flatten := by
      have hcopy := copyPoints_eq_ok hdata
      split_ifs at hcopy <;> exact hcopy
    rw [← Except.ok.inj hout]
    simp [hret, hpoints]
  · rw [if_neg hret] at hout
    rw [← Except.ok.inj hout]
    split_ifs <;> simp

/-- The dispatch leaves the circular buffer and the pending segments. -/
theorem dispatch_leaves {r : ℤ} {args : ParseArgs} {out : LidarParser × Option FrameData}
    (h : p.dispatch env r args = .ok out) :
    out.1.cbufRaw = p.cbufRaw ∧ out.1.fanSegs = p.fanSegs := by
  unfold dispatch at h
  simp only at h
  split_ifs at h
  · exact takeFan_leaves h
  all_goals
    rw [← Except.ok.inj h]
    exact ⟨rfl, rfl⟩

theorem release_fanSegs {consume : ℕ} {p' : LidarParser} (h : p.release consume = .ok p') :
    p'.fanSegs = p.fanSegs := by
  unfold release at h
  split_ifs at h
  · obtain ⟨r, -, hout⟩ := bind_eq_ok.1 h
    rw [← Except.ok.inj hout]
  · rw [← Except.ok.inj h]

/-- The turn decoded the frame `f` at `off` : it started there and consumed exactly the
frame, and the decoder accepted it. A segment need not complete its fan. -/
def Decoded (k : FrameKind) (f : List Byte) (off : ℕ) (turn : Turn) : Prop :=
  turn.offset = off ∧ turn.consume = f.length ∧
    if k = .xC7 then (∃ seg, Carries f seg) ∧ (turn.ret = 0 ∨ turn.ret = 1) else turn.ret = 1

variable {k : FrameKind} {f rest : List Byte} {off : ℕ}

/-- A turn at a valid frame decodes it and releases it. -/
theorem parseTurn_valid (h : ValidFrame k f) (h99 : k ≠ .x99) (hAA : k ≠ .xAA)
    (hraw : raw.drop off = f ++ rest) (hlen : 12 < (f ++ rest).length)
    (hbuf : p.cbufRaw.Holds (f ++ rest)) {p' : LidarParser} {turn : Turn}
    (hrun : parseTurn env raw off p = .ok (p', turn)) :
    p'.cbufRaw.Holds rest ∧ Decoded k f off turn := by
  simp only [parseTurn, hraw, bind_eq_ok] at hrun
  obtain ⟨⟨r, args⟩, htry, ⟨p₁, frame⟩, hdispatch, p₂, hrelease, hout⟩ := hrun
  obtain ⟨hconsume, hret, hret'⟩ := tryParseRawData_valid h h99 hAA hlen htry
  obtain ⟨rfl, rfl⟩ := Prod.mk.inj (Except.ok.inj hout)
  have hpos : 0 < args.consume := by
    have := h.hdrLen_add_two_le
    simp only at hconsume
    omega
  have hcbuf := (dispatch_leaves hdispatch).1
  refine ⟨?_, rfl, hconsume, ?_⟩
  · rw [release, if_pos hpos] at hrelease
    obtain ⟨⟨ok, cbufRaw⟩, hrestore, hp₂⟩ := bind_eq_ok.1 hrelease
    have hbuf' : p₁.cbufRaw.Holds (f ++ rest) := by
      simp only at hcbuf
      rw [hcbuf]
      exact hbuf
    have hdrop := CircularBuffer.restore_eq_ok hbuf' (by simp at hconsume ⊢; omega) hrestore
    rw [← Except.ok.inj hp₂]
    simp only at hconsume
    rwa [hconsume, List.drop_left] at hdrop
  · split_ifs with hC7
    · subst hC7
      exact ⟨h.carries, hret'⟩
    · exact hret hC7

/-- A turn at the last few bytes leaves them. -/
theorem parseTurn_short (hlen : (raw.drop off).length ≤ 12) {p' : LidarParser} {turn : Turn}
    (hrun : parseTurn env raw off p = .ok (p', turn)) :
    p'.cbufRaw = p.cbufRaw ∧ turn.consume = 0 := by
  simp only [parseTurn, tryParseRawData_short hlen, ok_bind, bind_eq_ok] at hrun
  obtain ⟨⟨p₁, frame⟩, hdispatch, p₂, hrelease, hout⟩ := hrun
  obtain ⟨rfl, rfl⟩ := Prod.mk.inj (Except.ok.inj hout)
  refine ⟨?_, rfl⟩
  rw [release, if_neg (by omega)] at hrelease
  rw [← Except.ok.inj hrelease]
  exact (dispatch_leaves hdispatch).1

/-! ## What a pass gets to -/

/-- How many of the frames a pass over `len` bytes gets to, the first starting at `off`. -/
def drained (len : ℕ) : ℕ → List (List Byte) → ℕ
  | _, [] => 0
  | off, f :: fs =>
    if off + 13 ≤ len then
      1 + if 2 * (off + f.length) ≤ len then drained len (off + f.length) fs else 0
    else 0

/-- Where frame `i` starts. -/
def startOf (frames : List (List Byte)) (i : ℕ) : ℕ :=
  (frames.take i).flatten.length

theorem startOf_succ (f : List Byte) (frames : List (List Byte)) (i : ℕ) :
    startOf (f :: frames) (i + 1) = f.length + startOf frames i := by
  simp [startOf]

/-- A pass gets to the frames that start in the first half and thirteen bytes before the
end. -/
theorem lt_drained_iff {len : ℕ} :
    ∀ {frames : List (List Byte)} {off : ℕ}, 2 * off ≤ len → ∀ i,
      i < drained len off frames ↔ i < frames.length ∧ off + startOf frames i + 13 ≤ len ∧
        2 * (off + startOf frames i) ≤ len
  | [], off, _, i => by simp [drained]
  | f :: fs, off, hoff, 0 => by
    rw [drained]
    split_ifs <;> simp [startOf] <;> omega
  | f :: fs, off, hoff, i + 1 => by
    rw [drained, startOf_succ, List.length_cons]
    by_cases hin : off + 13 ≤ len
    · rw [if_pos hin]
      by_cases hhalf : 2 * (off + f.length) ≤ len
      · have ih : i < drained len (off + f.length) fs ↔ _ := lt_drained_iff hhalf i
        rw [if_pos hhalf]
        omega
      · rw [if_neg hhalf]
        omega
    · rw [if_neg hin]
      omega

/-- Every frame of the buffer is of the kind and valid. -/
def AllValid (k : FrameKind) (frames : List (List Byte)) : Prop :=
  ∀ f ∈ frames, ValidFrame k f

/-- The loop on whole frames releases and decodes the ones it gets to. -/
theorem parseLoop_frames (h99 : k ≠ .x99) (hAA : k ≠ .xAA) :
    ∀ {frames : List (List Byte)} {off turns : ℕ} {p p' : LidarParser} {log : List Turn},
      AllValid k frames → raw.drop off = frames.flatten → p.cbufRaw.Holds frames.flatten →
      off ≤ raw.length → raw.length < off + turns →
      parseLoop env raw turns off p = .ok (p', log) →
      p'.cbufRaw.Holds (frames.drop (drained raw.length off frames)).flatten ∧
        ∀ i f, i < drained raw.length off frames → frames[i]? = some f →
          ∃ turn ∈ log, Decoded k f (off + startOf frames i) turn
  | frames, off, 0, p, p', log, _, _, _, hoff, hturns, _ => by omega
  | [], off, turns + 1, p, p', log, hvalid, hraw, hbuf, _, _, hrun => by
    obtain ⟨⟨p₁, turn⟩, hturn, hrest⟩ := bind_eq_ok.1 hrun
    obtain ⟨hsame, hzero⟩ := parseTurn_short (by simp [hraw]) hturn
    simp only [hzero, Nat.lt_irrefl, and_false, if_false] at hrest
    obtain ⟨rfl, -⟩ := Prod.mk.inj (Except.ok.inj hrest)
    rw [hsame]
    exact ⟨hbuf, fun i f hi => by simp [drained] at hi⟩
  | f :: fs, off, turns + 1, p, p', log, hvalid, hraw, hbuf, hoff, hturns, hrun => by
    obtain ⟨⟨p₁, turn⟩, hturn, hrest⟩ := bind_eq_ok.1 hrun
    have hlen : (raw.drop off).length = raw.length - off := List.length_drop
    rw [List.flatten_cons] at hraw hbuf
    by_cases hin : off + 13 ≤ raw.length
    · obtain ⟨hbuf₁, hdec⟩ := parseTurn_valid (hvalid f (by simp)) h99 hAA hraw
        (by rw [← hraw, hlen]; omega) hbuf hturn
      have hconsume : turn.consume = f.length := hdec.2.1
      have hf := (hvalid f (by simp)).hdrLen_add_two_le
      have hfits : off + f.length ≤ raw.length := by
        rw [hraw, List.length_append] at hlen
        omega
      simp only [hconsume] at hrest
      rw [drained, if_pos hin]
      by_cases hhalf : 2 * (off + f.length) ≤ raw.length
      · rw [if_pos ⟨by push_cast; omega, by omega⟩] at hrest
        obtain ⟨⟨p₂, log'⟩, hloop, hout⟩ := bind_eq_ok.1 hrest
        obtain ⟨rfl, rfl⟩ := Prod.mk.inj (Except.ok.inj hout)
        have hraw₁ : raw.drop (off + f.length) = fs.flatten := by
          rw [← List.drop_drop, hraw, List.drop_left]
        obtain ⟨hend, hlog⟩ := parseLoop_frames h99 hAA (fun g hg => hvalid g (by simp [hg])) hraw₁
          hbuf₁ hfits (by omega) hloop
        rw [if_pos hhalf, Nat.add_comm 1, List.drop_succ_cons]
        refine ⟨hend, ?_⟩
        rintro (_ | i) g hi hg
        · obtain rfl : f = g := by simpa using hg
          exact ⟨turn, by simp, by simpa [startOf] using hdec⟩
        · obtain ⟨turn', hmem, hdec'⟩ := hlog i g (by omega) (by simpa using hg)
          refine ⟨turn', by simp [hmem], ?_⟩
          rwa [startOf_succ, ← Nat.add_assoc]
      · rw [if_neg (by push_cast; omega)] at hrest
        obtain ⟨rfl, rfl⟩ := Prod.mk.inj (Except.ok.inj hrest)
        rw [if_neg hhalf]
        refine ⟨by simpa using hbuf₁, ?_⟩
        intro i g hi hg
        obtain rfl : i = 0 := by omega
        obtain rfl : f = g := by simpa using hg
        exact ⟨turn, by simp, by simpa [startOf] using hdec⟩
    · obtain ⟨hsame, hzero⟩ := parseTurn_short (by omega) hturn
      simp only [hzero, Nat.lt_irrefl, and_false, if_false] at hrest
      obtain ⟨rfl, -⟩ := Prod.mk.inj (Except.ok.inj hrest)
      rw [hsame, drained, if_neg hin]
      exact ⟨by simpa using hbuf, fun i g hi => by omega⟩

/-- A pass over a buffer of whole frames releases and decodes the ones it gets to. -/
theorem parseUartBuffer_frames (h99 : k ≠ .x99) (hAA : k ≠ .xAA) {frames : List (List Byte)}
    (hvalid : AllValid k frames) (hlong : 100 < frames.flatten.length)
    (hbuf : p.cbufRaw.Holds frames.flatten) {ret : ℤ} {p' : LidarParser} {log : List Turn}
    (hrun : parseUartBuffer env p = .ok (ret, p', log)) :
    p'.cbufRaw.Holds (frames.drop (drained frames.flatten.length 0 frames)).flatten ∧
      ∀ i f, i < drained frames.flatten.length 0 frames → frames[i]? = some f →
        ∃ turn ∈ log, Decoded k f (startOf frames i) turn := by
  have hsize := hbuf.cbufSize_eq
  rw [parseUartBuffer, hsize, if_neg (by omega)] at hrun
  obtain ⟨⟨ok, raw⟩, hread, hrest⟩ := bind_eq_ok.1 hrun
  have hvec : (List.replicate (frames.flatten.length : ℤ).toNat (0 : Byte)).length =
      frames.flatten.length := by
    rw [List.length_replicate, Int.toNat_natCast]
  obtain ⟨rfl, rfl⟩ := Prod.mk.inj (CircularBuffer.readSafely_eq_ok hbuf hvec hread)
  obtain ⟨⟨p₁, log₁⟩, hloop, hout⟩ := bind_eq_ok.1 hrest
  obtain ⟨-, hout'⟩ := Prod.mk.inj (Except.ok.inj hout)
  obtain ⟨rfl, rfl⟩ := Prod.mk.inj hout'
  obtain ⟨hend, hlog⟩ := parseLoop_frames h99 hAA hvalid rfl hbuf (Nat.zero_le _) (by omega) hloop
  exact ⟨hend, fun i f hi hf => by simpa using hlog i f hi hf⟩

/-! ## Draining -/

theorem startOf_add (frames : List (List Byte)) (i d : ℕ) :
    startOf frames (i + d) = startOf frames i + startOf (frames.drop i) d := by
  simp [startOf, List.take_add]

theorem startOf_add_length (frames : List (List Byte)) (i : ℕ) :
    startOf frames i + (frames.drop i).flatten.length = frames.flatten.length := by
  rw [startOf, ← List.length_append, ← List.flatten_append, List.take_append_drop]

/-- A later frame starts later. -/
theorem startOf_lt {frames : List (List Byte)} (hvalid : AllValid k frames) {i j : ℕ} (hij : i < j)
    (hi : i < frames.length) : startOf frames i < startOf frames j := by
  obtain ⟨d, rfl⟩ := Nat.exists_eq_add_of_lt hij
  have hf := (hvalid frames[i] (List.getElem_mem hi)).hdrLen_add_two_le
  rw [Nat.add_assoc, startOf_add, List.drop_eq_getElem_cons hi, startOf_succ]
  omega

/-- The number of frames released is the number of frames missing from the buffer. -/
theorem lt_of_holds {frames : List (List Byte)} (hvalid : AllValid k frames)
    {c : CircularBuffer Byte} {m m' : ℕ} (hm : c.Holds (frames.drop m).flatten)
    (hm' : c.Holds (frames.drop m').flatten) {i : ℕ} (him : i < m) (hi : i < frames.length) :
    i < m' := by
  by_contra hle
  have hsize : (frames.drop m).flatten.length = (frames.drop m').flatten.length := by
    exact_mod_cast hm.cbufSize_eq.symm.trans hm'.cbufSize_eq
  have hsum := startOf_add_length frames m
  have hsum' := startOf_add_length frames m'
  have hlt := startOf_lt hvalid him hi
  rcases Nat.eq_or_lt_of_le (Nat.le_of_not_lt hle) with rfl | hlt'
  · omega
  · have := startOf_lt hvalid hlt' (by omega)
    omega

/-- The pass decoded and released every frame that starts thirteen bytes before the end of
the buffered bytes. -/
def Drains (k : FrameKind) (frames : List (List Byte)) (p' : LidarParser) (log : List Turn) :
    Prop :=
  ∃ m, p'.cbufRaw.Holds (frames.drop m).flatten ∧
    ∀ i f, frames[i]? = some f → startOf frames i + 13 ≤ frames.flatten.length →
      i < m ∧ ∃ turn ∈ log, Decoded k f (startOf frames i) turn

/-- A pass over more than a hundred bytes of valid frames of one of five kinds drains them
exactly if every frame that starts thirteen bytes before the end starts in the first
half. -/
theorem drains_iff (env : Env) {p p' : LidarParser} {k : FrameKind} (h99 : k ≠ .x99)
    (hAA : k ≠ .xAA) {frames : List (List Byte)} (hvalid : AllValid k frames)
    (hlong : 100 < frames.flatten.length) (hbuf : p.cbufRaw.Holds frames.flatten) {ret : ℤ}
    {log : List Turn} (hrun : parseUartBuffer env p = .ok (ret, p', log)) :
    Drains k frames p' log ↔
      ∀ i < frames.length, startOf frames i + 13 ≤ frames.flatten.length →
        2 * startOf frames i ≤ frames.flatten.length := by
  obtain ⟨hend, hlog⟩ := parseUartBuffer_frames h99 hAA hvalid hlong hbuf hrun
  have hiff : ∀ i, i < drained frames.flatten.length 0 frames ↔ i < frames.length ∧
      startOf frames i + 13 ≤ frames.flatten.length ∧
        2 * startOf frames i ≤ frames.flatten.length := by
    intro i
    rw [lt_drained_iff (Nat.zero_le _), Nat.zero_add]
  constructor
  · rintro ⟨m, hm, hall⟩ i hi hin
    obtain ⟨him, -⟩ := hall i _ (List.getElem?_eq_getElem hi) hin
    exact ((hiff i).1 (lt_of_holds hvalid hm hend him hi)).2.2
  · intro hhalf
    refine ⟨_, hend, fun i f hf hin => ?_⟩
    have hi : i < frames.length := (List.getElem?_eq_some_iff.1 hf).1
    have hlt := (hiff i).2 ⟨hi, hin, hhalf i hi hin⟩
    exact ⟨hlt, hlog i f hlt hf⟩

/-- A `0xCE` frame of `n` points at zero distance. -/
def zeroFrame (n : ℕ) : List Byte :=
  [0xce, 0xfa, BitVec.ofNat 8 n, 0, 0, 0] ++ List.replicate (3 * n) 0 ++ [BitVec.ofNat 8 n, 0]

/-- A started parser with a full buffer that has not seen a fan. -/
def full (raw : List Byte) : LidarParser where
  cbufRaw := ⟨raw, false, 0, 0, raw.length, 0⟩
  fanSegs := .c7 []
  frame := default
  idx := 0
  action := .offline
  zonemsg := []
  eepromv101 := []
  cmdheader := []
  state := -1
  startAngle := -1
  error := ""
  wholeDatas := []

theorem holds_full {raw : List Byte} (h : 0 < raw.length) : (full raw).cbufRaw.Holds raw where
  isOpen := rfl
  size := rfl
  tail_lt := h
  head_eq := by simp [full]
  free_eq := by simp [full]
  window := by
    refine ⟨Nat.le_refl _, fun i hi => ?_⟩
    have hi' : i < raw.length := hi
    show raw[(0 + i) % raw.length]? = some raw[i]
    rw [Nat.zero_add, Nat.mod_eq_of_lt hi', List.getElem?_eq_getElem hi']

/-- Two frames of 68 bytes, the second starting in the middle. -/
theorem drains_iff_two :
    ∃ ret p' log, parseUartBuffer ⟨0, 0, default, default⟩
        (full [zeroFrame 20, zeroFrame 20].flatten) = .ok (ret, p', log) ∧
      (Drains .xCE [zeroFrame 20, zeroFrame 20] p' log ↔
        ∀ i < [zeroFrame 20, zeroFrame 20].length,
          startOf [zeroFrame 20, zeroFrame 20] i + 13 ≤
              [zeroFrame 20, zeroFrame 20].flatten.length →
            2 * startOf [zeroFrame 20, zeroFrame 20] i ≤
              [zeroFrame 20, zeroFrame 20].flatten.length) := by
  obtain ⟨⟨ret, p', log⟩, hrun⟩ : ∃ out, parseUartBuffer ⟨0, 0, default, default⟩
      (full [zeroFrame 20, zeroFrame 20].flatten) = .ok out :=
    exists_of_isOk (by decide +kernel)
  have hvalid : AllValid .xCE [zeroFrame 20, zeroFrame 20] := by
    have hframe : ValidFrame .xCE (zeroFrame 20) := by decide +kernel
    intro f hf
    obtain rfl : f = zeroFrame 20 := by simpa using hf
    exact hframe
  have hlong : 100 < [zeroFrame 20, zeroFrame 20].flatten.length := by simp [zeroFrame]
  exact ⟨ret, p', log, hrun, drains_iff _ (by decide) (by decide) hvalid hlong
    (holds_full (by omega)) hrun⟩

/-- Thirteen frames of eight bytes : the pass leaves the last six of them, five of which
start thirteen bytes before the end. -/
theorem not_drains :
    ¬∀ (env : Env) (p : LidarParser) (k : FrameKind) (frames : List (List Byte)), k ≠ .x99 →
      k ≠ .xAA → AllValid k frames → 100 < frames.flatten.length →
        p.cbufRaw.Holds frames.flatten → ∀ ret p' log,
          parseUartBuffer env p = .ok (ret, p', log) → Drains k frames p' log := by
  intro h
  obtain ⟨frames, hframes⟩ : ∃ frames, frames = List.replicate 13 (zeroFrame 0) := ⟨_, rfl⟩
  obtain ⟨⟨ret, p', log⟩, hrun⟩ : ∃ out, parseUartBuffer ⟨0, 0, default, default⟩
      (full frames.flatten) = .ok out := by
    rw [hframes]
    exact exists_of_isOk (by decide +kernel)
  have hvalid : AllValid .xCE frames := by
    have hframe : ValidFrame .xCE (zeroFrame 0) := by decide +kernel
    intro f hf
    rw [hframes] at hf
    obtain rfl : f = zeroFrame 0 := (List.mem_replicate.1 hf).2
    exact hframe
  have hlen : frames.flatten.length = 104 := by
    rw [hframes]
    decide
  have hbuf : (full frames.flatten).cbufRaw.Holds frames.flatten := holds_full (by omega)
  obtain ⟨m, hm, hall⟩ :=
    h _ _ .xCE frames (by decide) (by decide) hvalid (by omega) hbuf _ _ _ hrun
  obtain ⟨hend, -⟩ := parseUartBuffer_frames (by decide) (by decide) hvalid (by omega) hbuf hrun
  have hdrained : drained frames.flatten.length 0 frames = 7 := by
    rw [hlen, hframes]
    decide
  have hstart : startOf frames 11 + 13 ≤ frames.flatten.length := by
    rw [hlen, hframes]
    decide
  have hget : frames[11]? = some (zeroFrame 0) := by
    rw [hframes]
    rfl
  obtain ⟨him, -⟩ := hall 11 _ hget hstart
  have hlt := lt_of_holds hvalid hm hend him (by rw [hframes]; decide)
  omega

end LidarParser

end Mastiff.Lidar

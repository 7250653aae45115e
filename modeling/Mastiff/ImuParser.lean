import Mastiff.ParserBase

/-!
# Framing of the IMU stream

`IMUParser` (`parse_libs/imu_parser.{h,cc}`) has two devices, each with a parse function of
its own that differs in the frame's size, header and checksum and in how many bytes it
waits for. `devParse` is both, over an `ImuFormat`.

`scanner` looks at one place of the stream as the loop does, and `frames_devParse` says
that a call is one scan. `framing` : the frames passed on do not depend on the chunks.
What `ParseR6082VFrame` and `ParseZYF143Frame` make of a frame is left out.
-/

set_option linter.unusedSectionVars false

open Memory Machine Bytes Framing

namespace Mastiff.Imu

open ParserBase

/-! ## The devices -/

/-- What the two parse functions differ in. -/
structure ImuFormat where
  /-- With fewer bytes in the buffer the call returns at once. -/
  threshold : ℕ
  /-- The size of the frame structure. -/
  size : ℕ
  /-- The test of the header, on the bytes of a frame. -/
  isHead : List Byte → Bool
  /-- The test of the checksum. -/
  isValid : List Byte → Bool
  size_pos : 0 < size
  size_le : size ≤ threshold

/-- `DevR6082VParse` : `R6082VIMUMsgData`, with the reserved byte as part of the header. -/
def r6082v : ImuFormat where
  threshold := 45
  size := 15
  isHead frame := byteAt frame 0 = 0xAA ∧ byteAt frame 1 = 0x00 ∧ byteAt frame 13 = 0x55
  isValid frame := byteAt frame 14 =
    byteAt frame 2 + byteAt frame 3 + byteAt frame 4 + byteAt frame 5 + byteAt frame 6 +
      byteAt frame 7 + byteAt frame 8 + byteAt frame 9 + byteAt frame 10 + byteAt frame 11 +
      byteAt frame 12 + byteAt frame 13
  size_pos := by omega
  size_le := by omega

/-- `DevZyf143Parse` : `Zyf143IMUData`, whose `crc` is `ang_z + yaw + pitch + roll`. -/
def zyf143 : ImuFormat where
  threshold := 27
  size := 24
  isHead frame := byteAt frame 0 = 0xA5 ∧ byteAt frame 1 = 0xA5
  isValid frame :=
    u16At frame 22 = u16At frame 12 + u16At frame 14 + u16At frame 16 + u16At frame 18
  size_pos := by omega
  size_le := by omega

/-- The loop of a parse function, from the place `head` of `raw_data` : the place it comes
to, and the frames it passes on. -/
def parseLoop (f : ImuFormat) (raw : List Byte) (head : ℕ) :
    Except Fault (ℕ × List (List Byte)) :=
  if _h : head + f.size ≤ raw.length then do
    let frame ← slice raw head f.size
    if f.isHead frame then
      let rest ← parseLoop f raw (head + f.size)
      return (rest.1, (if f.isValid frame then [frame] else []) ++ rest.2)
    else
      parseLoop f raw (head + 1)
  else
    return (head, [])
termination_by raw.length - head
decreasing_by
  all_goals
    have hpos := f.size_pos
    omega

/-- A parse function. -/
def devParse (f : ImuFormat) (c : CircularBuffer Byte) :
    Except Fault (ParseResult (List Byte)) :=
  if c.cbufSize < f.threshold then .ok ⟨0, c, 0, []⟩
  else do
    let r ← c.readSafely (List.replicate c.cbufSize.toNat 0)
    if !r.1 then
      return ⟨-1, c, 0, []⟩
    else
      let out ← parseLoop f r.2 0
      if 0 < out.1 then
        let r ← c.restore out.1
        return ⟨0, r.2, out.1, out.2⟩
      else
        return ⟨0, c, out.1, out.2⟩

/-- `DevR6082VParse`. -/
def devR6082VParse : CircularBuffer Byte → Except Fault (ParseResult (List Byte)) :=
  devParse r6082v

/-- `DevZyf143Parse`. -/
def devZyf143Parse : CircularBuffer Byte → Except Fault (ParseResult (List Byte)) :=
  devParse zyf143

/-! ## One scan -/

/-- What one turn of the loop does with the bytes of a frame's size at its head : how far
the head moves, and what is passed on. -/
def turn (f : ImuFormat) (frame : List Byte) : ℕ × List (List Byte) :=
  if f.isHead frame then (f.size, if f.isValid frame then [frame] else []) else (1, [])

theorem turn_fst (f : ImuFormat) (frame : List Byte) :
    0 < (turn f frame).1 ∧ (turn f frame).1 ≤ f.size := by
  have hpos := f.size_pos
  rw [turn]
  split_ifs <;> simp <;> omega

/-- The loop as a scanner. -/
def scanner (f : ImuFormat) : Scanner Byte (List Byte) where
  look l := if f.size ≤ l.length then some (turn f (l.take f.size)) else none
  pos := by
    intro l n os h
    split_ifs at h
    have hturn := turn_fst f (l.take f.size)
    rw [Option.some.inj h] at hturn
    exact hturn.1
  le := by
    intro l n os h
    split_ifs at h with hlen
    have hturn := turn_fst f (l.take f.size)
    rw [Option.some.inj h] at hturn
    exact hturn.2.trans hlen
  append := by
    intro l n os h m
    split_ifs at h with hlen
    rw [if_pos (by rw [List.length_append]; omega), List.take_append_of_le_length hlen, h]

variable {f : ImuFormat}

theorem look_of_le {l : List Byte} (h : f.size ≤ l.length) :
    (scanner f).look l = some (turn f (l.take f.size)) :=
  if_pos h

/-- The scanner waits for a frame's size. -/
theorem look_eq_none_iff {l : List Byte} : (scanner f).look l = none ↔ l.length < f.size := by
  rcases Nat.lt_or_ge l.length f.size with h | h
  · exact iff_of_true (if_neg (by omega)) h
  · rw [look_of_le h]
    exact iff_of_false (by simp) (by omega)

/-- One turn of the loop. -/
theorem parseLoop_of_le {raw : List Byte} {head : ℕ} (h : head + f.size ≤ raw.length) :
    parseLoop f raw head = do
      let rest ← parseLoop f raw (head + (turn f ((raw.drop head).take f.size)).1)
      return (rest.1, (turn f ((raw.drop head).take f.size)).2 ++ rest.2) := by
  rw [parseLoop, dif_pos h, slice_of_le h, ok_bind]
  by_cases hhead : f.isHead ((raw.drop head).take f.size) = true
  · rw [if_pos hhead, turn, if_pos hhead]
  · rw [if_neg hhead, turn, if_neg hhead]
    cases parseLoop f raw (head + 1) <;> rfl

/-- The loop fails nowhere and scans the bytes from its head on. -/
theorem parseLoop_eq (raw : List Byte) (head : ℕ) (hle : head ≤ raw.length) :
    ∃ head' frames, parseLoop f raw head = .ok (head', frames) ∧ head' ≤ raw.length ∧
      (scanner f).scan (raw.drop head) = (frames, raw.drop head') := by
  by_cases h : head + f.size ≤ raw.length
  · have hturn := turn_fst f ((raw.drop head).take f.size)
    have hlook : (scanner f).look (raw.drop head) =
        some (turn f ((raw.drop head).take f.size)) :=
      look_of_le (by rw [List.length_drop]; omega)
    rw [parseLoop_of_le h]
    generalize turn f ((raw.drop head).take f.size) = t at hturn hlook
    obtain ⟨n, os⟩ := t
    obtain ⟨head', frames, hloop, hle', hscan⟩ := parseLoop_eq raw (head + n) (by omega)
    refine ⟨head', os ++ frames, ?_, hle', ?_⟩
    · rw [hloop]
      rfl
    · rw [Scanner.scan_of_some hlook, List.drop_drop, hscan]
  · refine ⟨head, [], ?_, hle, ?_⟩
    · rw [parseLoop, dif_neg h]
      rfl
    · exact Scanner.scan_of_none (look_eq_none_iff.2 (by rw [List.length_drop]; omega))
termination_by raw.length - head

variable {c : CircularBuffer Byte} {q : List Byte}

/-- A call on a buffer that holds `q`, as far as the `int` arithmetic goes. -/
theorem devParse_of_le (hq : c.Holds q) (hle : f.threshold ≤ q.length)
    (hsum : c.tail + q.length ≤ intMax) :
    ∃ head frames, (scanner f).scan q = (frames, q.drop head) ∧ head ≤ q.length ∧
      devParse f c =
        if 0 < head then do
          let r ← c.restore head
          return ⟨0, r.2, head, frames⟩
        else .ok ⟨0, c, head, frames⟩ := by
  have hp : (List.replicate c.cbufSize.toNat (0 : Byte)).length = q.length := by
    rw [List.length_replicate, hq.cbufSize_eq, Int.toNat_natCast]
  obtain ⟨head, frames, hloop, hhead, hscan⟩ := parseLoop_eq (f := f) q 0 (Nat.zero_le _)
  refine ⟨head, frames, hscan, hhead, ?_⟩
  have hlt : ¬c.cbufSize < f.threshold := by
    rw [hq.cbufSize_eq]
    omega
  rw [devParse, if_neg hlt, CircularBuffer.readSafely_spec hq hp hsum, ok_bind]
  simp only [Bool.not_true, Bool.false_eq_true, if_false, hloop, ok_bind]
  rfl

/-- A call that goes through is one scan, and releases what it has scanned. -/
theorem devParse_eq_ok {res : ParseResult (List Byte)} (hq : c.Holds q)
    (h : devParse f c = .ok res) :
    (res.frames = ((scanner f).gated f.threshold q).1 ∧
      q.drop res.head = ((scanner f).gated f.threshold q).2) ∧
    res.cbufRaw.Holds (q.drop res.head) ∧ res.cbufRaw.capacityCbuf = c.capacityCbuf := by
  rcases Nat.lt_or_ge q.length f.threshold with hlt | hle
  · have hshort : c.cbufSize < f.threshold := by
      rw [hq.cbufSize_eq]
      omega
    rw [devParse, if_pos hshort] at h
    obtain rfl := Except.ok.inj h
    rw [Scanner.gated, if_pos hlt]
    exact ⟨⟨rfl, rfl⟩, hq, rfl⟩
  · rw [Scanner.gated, if_neg (by omega)]
    by_cases hsum : c.tail + q.length ≤ intMax
    · obtain ⟨head, frames, hscan, hhead, hparse⟩ := devParse_of_le hq hle hsum
      rw [hparse] at h
      rw [hscan]
      split_ifs at h
      · obtain ⟨r, hr, h⟩ := bind_eq_ok.1 h
        obtain rfl := Except.ok.inj h
        exact ⟨⟨rfl, rfl⟩, CircularBuffer.restore_eq_ok hq hhead hr,
          CircularBuffer.restore_capacityCbuf hr⟩
      · obtain rfl := Except.ok.inj h
        obtain rfl : head = 0 := by omega
        exact ⟨⟨rfl, rfl⟩, hq, rfl⟩
    · have hlong : ¬c.cbufSize < f.threshold := by
        rw [hq.cbufSize_eq]
        omega
      rw [devParse, if_neg hlong, CircularBuffer.readSafely_overflow hq (by omega)] at h
      cases h

/-- Up to `2 ^ 30` bytes every call goes through. -/
theorem exists_devParse (hq : c.Holds q) (hcap : c.capacityCbuf ≤ 2 ^ 30) :
    ∃ res, devParse f c = .ok res := by
  have hmax : intMax = 2 ^ 31 - 1 := rfl
  have hlen := hq.length_le
  have htail := hq.tail_lt
  rcases Nat.lt_or_ge q.length f.threshold with hlt | hle
  · have hshort : c.cbufSize < f.threshold := by
      rw [hq.cbufSize_eq]
      omega
    exact ⟨_, by rw [devParse, if_pos hshort]⟩
  · obtain ⟨head, frames, -, hhead, hparse⟩ := devParse_of_le hq hle (by omega)
    rw [hparse]
    split_ifs
    · obtain ⟨c', hc', -⟩ := CircularBuffer.restore_of_le hq hhead (by omega) (by omega)
      exact ⟨_, by rw [hc']; rfl⟩
    · exact ⟨_, rfl⟩

theorem frames_devParse (f : ImuFormat) : Frames (scanner f) f.threshold (devParse f) where
  scans hq h := (devParse_eq_ok hq h).1
  releases hq h := (devParse_eq_ok hq h).2.1
  capacity hq h := (devParse_eq_ok hq h).2.2
  total hq hcap := exists_devParse hq hcap

/-! ## Streams -/

/-- The IMUs. -/
inductive ImuType
  | r6082v
  | zyf143

/-- The frames of an IMU. -/
def ImuType.format : ImuType → ImuFormat
  | .r6082v => Imu.r6082v
  | .zyf143 => Imu.zyf143

/-- `dev_parse_`, as `Init` binds it. -/
def ImuType.devParse : ImuType → CircularBuffer Byte → Except Fault (ParseResult (List Byte))
  | .r6082v => devR6082VParse
  | .zyf143 => devZyf143Parse

/-- How many bytes stay unscanned at most, plus one. -/
def ImuType.unscanned : ImuType → ℕ
  | .r6082v => 45
  | .zyf143 => 27

theorem ImuType.devParse_eq (t : ImuType) : t.devParse = Imu.devParse t.format := by
  cases t <;> rfl

theorem ImuType.unscanned_eq (t : ImuType) : t.unscanned = t.format.threshold := by
  cases t <;> rfl

/-- What has been made of the bytes `received` of a stream `received ++ later` : the buffer
holds what is not scanned yet, few bytes, and the frames passed on are those of the scan so
far. -/
structure Framed (t : ImuType) (received later : List Byte) (p : ParserBase)
    (frames : List (List Byte)) (rest : List Byte) : Prop where
  holds : p.cbufRaw.Holds rest
  walk : (scanner t.format).Walk received frames rest
  suffix : rest <:+ received
  short : rest.length < t.unscanned
  isPrefix : frames <+: ((scanner t.format).scan (received ++ later)).1

/-- A run that goes through is framed. -/
theorem exists_framed (t : ImuType) {cap : ℕ} (hpos : 0 < cap) {chunks : List (List Byte)}
    (hroom : Along (onOriginalDataUart t.devParse) HasRoom (opened cap) chunks)
    {p : ParserBase} {log : List (List (List Byte))}
    (hr : tryRun (onOriginalDataUart t.devParse) (opened cap) chunks = .ok (p, log)) :
    ∃ rest, ∀ later, Framed t chunks.flatten later p log.flatten rest := by
  rw [t.devParse_eq] at hroom hr
  obtain ⟨-, hholds⟩ := received (frames_devParse t.format) hpos hroom hr
  have hwalk := walked (frames_devParse t.format) hpos hroom hr
  refine ⟨_, fun later => ⟨hholds, hwalk, hwalk.suffix, ?_, ?_⟩⟩
  · have hpos' := t.format.size_pos
    have hsize := t.format.size_le
    rw [t.unscanned_eq]
    refine Scanner.length_receive_lt (fun l hl => ?_) chunks (by simp only [List.length_nil]; omega)
    have hlt := look_eq_none_iff.1 hl
    omega
  · rw [(hwalk.append later).scan_eq]
    exact List.prefix_append _ _

/-- However a stream is cut into chunks that fit the buffer, and after every chunk, the
frames passed on are those of the scan of the stream so far and the buffer holds what is
not scanned yet; two divisions differ in the frames of these rests. Up to `2 ^ 30` bytes
every run goes through. -/
theorem framing (t : ImuType) {cap : ℕ} (hpos : 0 < cap) (chunks : List (List Byte))
    (hroom : Along (onOriginalDataUart t.devParse) HasRoom (opened cap) chunks) :
    (cap ≤ 2 ^ 30 → (∀ chunk ∈ chunks, chunk ≠ []) → ∃ p log,
      tryRun (onOriginalDataUart t.devParse) (opened cap) chunks = .ok (p, log)) ∧
    ∀ p log, tryRun (onOriginalDataUart t.devParse) (opened cap) chunks = .ok (p, log) →
      ∃ rest, (∀ later, Framed t chunks.flatten later p log.flatten rest) ∧
        ∀ chunks' p' log', chunks'.flatten = chunks.flatten →
          Along (onOriginalDataUart t.devParse) HasRoom (opened cap) chunks' →
          tryRun (onOriginalDataUart t.devParse) (opened cap) chunks' = .ok (p', log') →
          ∃ rest', p'.cbufRaw.Holds rest' ∧
            log.flatten ++ ((scanner t.format).scan rest).1 =
              log'.flatten ++ ((scanner t.format).scan rest').1 := by
  refine ⟨fun hcap hne => ?_, fun p log hr => ?_⟩
  · have hF := frames_devParse t.format
    rw [← t.devParse_eq] at hF
    exact exists_received hF hpos hcap hne hroom
  · obtain ⟨rest, hframed⟩ := exists_framed t hpos hroom hr
    refine ⟨rest, hframed, fun chunks' p' log' hsame hroom' hr' => ?_⟩
    obtain ⟨rest', hframed'⟩ := exists_framed t hpos hroom' hr'
    refine ⟨rest', (hframed' []).holds, ?_⟩
    have hwalk' := (hframed' []).walk
    rw [hsame] at hwalk'
    exact (Prod.mk.inj ((hframed []).walk.scan_eq.symm.trans hwalk'.scan_eq)).1

/-- A frame of the ZYF143 with an angular rate. -/
def rateFrame : List Byte :=
  [0xA5, 0xA5, 0, 0, 0, 0, 0, 0, 0, 0, 0, 0, 0x00, 0x01, 0, 0, 0, 0, 0, 0, 0, 0, 0x00, 0x01]

/-- A frame and the head of another, which come in two chunks, the frame in both of them, and
in one. -/
theorem framing_cut : ∃ p log p' log',
    tryRun (onOriginalDataUart ImuType.zyf143.devParse) (opened 64)
      [rateFrame.take 20, rateFrame.drop 20 ++ rateFrame.take 10] = .ok (p, log) ∧
    tryRun (onOriginalDataUart ImuType.zyf143.devParse) (opened 64)
      [rateFrame ++ rateFrame.take 10] = .ok (p', log') ∧
    log.flatten = [rateFrame] ∧ log'.flatten = [rateFrame] := by
  have hF : Frames (scanner zyf143) zyf143.threshold ImuType.zyf143.devParse :=
    frames_devParse zyf143
  have hroom : ∀ chunks : List (List Byte), chunks.flatten.length ≤ 64 →
      Along (onOriginalDataUart ImuType.zyf143.devParse) HasRoom (opened 64) chunks :=
    fun chunks hle => (unread_opened (by omega)).along_hasRoom hF chunks (by simpa using hle)
  have hlook : (scanner zyf143).look (rateFrame ++ rateFrame.take 10) = some (24, [rateFrame]) := by
    decide
  have hwait : (scanner zyf143).look ((rateFrame ++ rateFrame.take 10).drop 24) = none := by
    decide
  -- what is left is too short to hold the frame
  have hwalk : ∀ {frames rest}, (scanner zyf143).Walk (rateFrame ++ rateFrame.take 10) frames rest →
      rest.length < 27 → frames = [rateFrame] := by
    rintro frames rest hw hshort
    refine (hw.eq_of_look hlook hwait ?_).1
    rintro rfl
    exact absurd hshort (by decide)
  obtain ⟨hgo, hframed⟩ := framing .zyf143 (by omega) _
    (hroom [rateFrame.take 20, rateFrame.drop 20 ++ rateFrame.take 10] (by decide))
  obtain ⟨hgo', hframed'⟩ := framing .zyf143 (by omega) _
    (hroom [rateFrame ++ rateFrame.take 10] (by decide))
  obtain ⟨p, log, hr⟩ := hgo (by omega) (by decide)
  obtain ⟨p', log', hr'⟩ := hgo' (by omega) (by decide)
  obtain ⟨rest, h, -⟩ := hframed p log hr
  obtain ⟨rest', h', -⟩ := hframed' p' log' hr'
  exact ⟨p, log, p', log', hr, hr', hwalk (h []).walk (h []).short,
    hwalk (h' []).walk (h' []).short⟩

end Mastiff.Imu

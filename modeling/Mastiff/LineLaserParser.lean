import Mastiff.ParserBase

/-!
# Framing of the line-laser stream

`LineLaserParser::ParseUartBuffer` (`parse_libs/linelaser_parser.cc`) reads the circular
buffer once and walks through the copy. It releases the bytes as it goes, one at a time
where no header stands and frame by frame where a complete one does, and stops at a header
whose frame has not come yet.

`scanner` is one turn of the loop. `chunk_independent` : what is dispatched and what stays
in the buffer are functions of the stream alone. The parsing of a dispatched frame is left
out.
-/

set_option linter.unusedSectionVars false

open Memory Machine Bytes Framing

namespace Mastiff.LineLaser

open ParserBase

/-! ## The parse function -/

/-- The cases of the switch on `cmd_type`. -/
inductive GsCommand
  | getAddress
  | stop
  | getParameter
  | getVersion
  | ansScan
  | other (cmd : Byte)
  deriving DecidableEq

/-- The switch. -/
def gsCommand (cmd : Byte) : GsCommand :=
  if cmd = 0x60 then .getAddress
  else if cmd = 0x64 then .stop
  else if cmd = 0x61 then .getParameter
  else if cmd = 0x62 then .getVersion
  else if cmd = 0x63 then .ansScan
  else .other cmd

/-- A dispatched frame : `single_buf`, and the case it goes to. -/
structure Dispatch where
  frame : List Byte
  cmd : GsCommand
  deriving DecidableEq

/-- `min_len`. -/
def minLen : ℕ :=
  9

/-- Four `LIDAR_CMD_SYNC_BYTE`s. -/
def isSync (l : List Byte) : Bool :=
  byteAt l 0 = 0xA5 ∧ byteAt l 1 = 0xA5 ∧ byteAt l 2 = 0xA5 ∧ byteAt l 3 = 0xA5

/-- `cmd_type` of the `GSHeaderInfo` after the sync bytes. -/
def cmdType (l : List Byte) : Byte :=
  byteAt l 5

/-- `total_len`, with `data_len` of the `GSHeaderInfo`. -/
def totalLen (l : List Byte) : ℕ :=
  4 + 4 + (u16At l 6).toNat + 1

/-- The loop over `raw_data` from the place `head` : the buffer and the place it leaves,
and the frames it dispatches. -/
def parseLoop (raw : List Byte) (c : CircularBuffer Byte) (head : ℕ) :
    Except Fault (CircularBuffer Byte × ℕ × List Dispatch) :=
  if _h : head + minLen ≤ raw.length then do
    let hdr ← slice raw head 8
    if isSync hdr then
      if raw.length - head < totalLen hdr then
        -- the rest of the frame has not come yet
        return (c, head, [])
      else
        let frame ← slice raw head (totalLen hdr)
        let r ← c.restore (totalLen hdr)
        let rest ← parseLoop raw r.2 (head + totalLen hdr)
        return (rest.1, rest.2.1, ⟨frame, gsCommand (cmdType hdr)⟩ :: rest.2.2)
    else
      let r ← c.restore 1
      parseLoop raw r.2 (head + 1)
  else
    return (c, head, [])
termination_by raw.length - head
decreasing_by
  · simp only [totalLen, minLen] at *
    omega
  · simp only [minLen] at *
    omega

/-- `ParseUartBuffer`. -/
def parseUartBuffer (c : CircularBuffer Byte) : Except Fault (ParseResult Dispatch) :=
  if c.cbufSize < minLen then .ok ⟨0, c, 0, []⟩
  else do
    let r ← c.readSafely (List.replicate c.cbufSize.toNat 0)
    if !r.1 then
      return ⟨-1, c, 0, []⟩
    else
      let out ← parseLoop r.2 c 0
      return ⟨0, out.1, out.2.1, out.2.2⟩

/-! ## One turn -/

theorem minLen_le_totalLen (l : List Byte) : minLen ≤ totalLen l := by
  rw [minLen, totalLen]
  omega

theorem isSync_append {l : List Byte} (h : 4 ≤ l.length) (m : List Byte) :
    isSync (l ++ m) = isSync l := by
  simp only [isSync]
  rw [byteAt_append (by omega), byteAt_append (by omega), byteAt_append (by omega),
    byteAt_append (by omega)]

theorem totalLen_append {l : List Byte} (h : 8 ≤ l.length) (m : List Byte) :
    totalLen (l ++ m) = totalLen l := by
  rw [totalLen, totalLen, u16At, u16At, byteAt_append (by omega), byteAt_append (by omega)]

theorem cmdType_append {l : List Byte} (h : 8 ≤ l.length) (m : List Byte) :
    cmdType (l ++ m) = cmdType l :=
  byteAt_append (by omega)

/-- One turn of the loop on the bytes from its head on, with enough of them for a header. -/
def turn (l : List Byte) : Option (ℕ × List Dispatch) :=
  if isSync l then
    if l.length < totalLen l then none
    else some (totalLen l, [⟨l.take (totalLen l), gsCommand (cmdType l)⟩])
  else some (1, [])

theorem turn_cases {l : List Byte} {n : ℕ} {ds : List Dispatch} (h : turn l = some (n, ds)) :
    isSync l = true ∧ n = totalLen l ∧ totalLen l ≤ l.length ∧
        ds = [⟨l.take (totalLen l), gsCommand (cmdType l)⟩] ∨
      isSync l = false ∧ n = 1 ∧ ds = [] := by
  rw [turn] at h
  split_ifs at h with hsync hlen
  · obtain ⟨rfl, rfl⟩ := Prod.mk.inj (Option.some.inj h)
    exact .inl ⟨hsync, rfl, Nat.le_of_not_lt hlen, rfl⟩
  · obtain ⟨rfl, rfl⟩ := Prod.mk.inj (Option.some.inj h)
    exact .inr ⟨Bool.not_eq_true _ ▸ hsync, rfl, rfl⟩

/-- The loop as a scanner. -/
def scanner : Scanner Byte Dispatch where
  look l := if minLen ≤ l.length then turn l else none
  pos := by
    intro l n ds h
    split_ifs at h with hlen
    obtain ⟨-, rfl, -⟩ | ⟨-, rfl, -⟩ := turn_cases h
    · exact lt_of_lt_of_le (by simp [minLen]) (minLen_le_totalLen l)
    · exact Nat.one_pos
  le := by
    intro l n ds h
    split_ifs at h with hlen
    obtain ⟨-, rfl, hle, -⟩ | ⟨-, rfl, -⟩ := turn_cases h
    · exact hle
    · rw [minLen] at hlen
      omega
  append := by
    intro l n ds h m
    split_ifs at h with hlen
    have hlen' : 9 ≤ l.length := hlen
    rw [if_pos (by rw [List.length_append]; omega), turn, isSync_append (by omega),
      totalLen_append (by omega), cmdType_append (by omega)]
    obtain ⟨hsync, rfl, hle, rfl⟩ | ⟨hsync, rfl, rfl⟩ := turn_cases h
    · rw [if_pos hsync, if_neg (by rw [List.length_append]; omega),
        List.take_append_of_le_length hle]
    · rw [hsync, if_neg (by simp)]

/-- The scanner waits for a shortest frame. -/
theorem look_of_lt {l : List Byte} (h : l.length < minLen) : scanner.look l = none :=
  if_neg (by omega)

/-! ## One call -/

/-- The header is read from its own bytes. -/
theorem header_take (l : List Byte) :
    isSync (l.take 8) = isSync l ∧ totalLen (l.take 8) = totalLen l ∧
      cmdType (l.take 8) = cmdType l := by
  refine ⟨?_, ?_, byteAt_take (by omega)⟩
  · simp only [isSync]
    rw [byteAt_take (by omega), byteAt_take (by omega), byteAt_take (by omega),
      byteAt_take (by omega)]
  · rw [totalLen, totalLen, u16At_take (by omega)]

variable {c : CircularBuffer Byte} {raw q : List Byte} {head : ℕ}

theorem parseLoop_of_none (h : scanner.look (raw.drop head) = none) :
    parseLoop raw c head = .ok (c, head, []) := by
  obtain ⟨hsync, hlen, -⟩ := header_take (raw.drop head)
  change (if minLen ≤ (raw.drop head).length then turn (raw.drop head) else none) = none at h
  rw [parseLoop]
  split_ifs at h with hle
  · rw [List.length_drop, minLen] at hle
    have hrest := List.length_drop (i := head) (l := raw)
    rw [dif_pos (by rw [minLen]; omega), slice_of_le (by omega), ok_bind, hsync, hlen]
    rw [turn] at h
    split_ifs at h with hs hshort
    rw [if_pos hs, if_pos (by omega)]
    rfl
  · rw [List.length_drop, minLen] at hle
    rw [dif_neg (by rw [minLen]; omega)]
    rfl

/-- One turn of the loop, which releases what it passes. -/
theorem parseLoop_of_some {n : ℕ} {ds : List Dispatch}
    (h : scanner.look (raw.drop head) = some (n, ds)) :
    parseLoop raw c head = do
      let r ← c.restore n
      let rest ← parseLoop raw r.2 (head + n)
      return (rest.1, rest.2.1, ds ++ rest.2.2) := by
  obtain ⟨hsync, hlen, hcmd⟩ := header_take (raw.drop head)
  change (if minLen ≤ (raw.drop head).length then turn (raw.drop head) else none) = _ at h
  split_ifs at h with hle
  have hrest := List.length_drop (i := head) (l := raw)
  rw [minLen] at hle
  rw [parseLoop, dif_pos (by rw [minLen]; omega), slice_of_le (by omega), ok_bind, hsync, hlen,
    hcmd]
  obtain ⟨hs, rfl, hfull, rfl⟩ | ⟨hs, rfl, rfl⟩ := turn_cases h
  · rw [if_pos hs, if_neg (by omega), slice_of_le (by omega), ok_bind]
    rfl
  · rw [if_neg (by simp [hs])]
    refine bind_congr fun r => ?_
    cases parseLoop raw r.2 (head + 1) <;> rfl

/-- A loop that goes through scans the bytes from its head on and leaves the buffer with
those it has not passed. -/
theorem parseLoop_eq_ok {c : CircularBuffer Byte} {head : ℕ}
    {out : CircularBuffer Byte × ℕ × List Dispatch} (hle : head ≤ raw.length)
    (hq : c.Holds (raw.drop head)) (h : parseLoop raw c head = .ok out) :
    out.2.1 ≤ raw.length ∧ out.1.Holds (raw.drop out.2.1) ∧
      out.1.capacityCbuf = c.capacityCbuf ∧
      scanner.scan (raw.drop head) = (out.2.2, raw.drop out.2.1) := by
  cases hlook : scanner.look (raw.drop head) with
  | none =>
    rw [parseLoop_of_none hlook] at h
    obtain rfl := Except.ok.inj h
    exact ⟨hle, hq, rfl, Scanner.scan_of_none hlook⟩
  | some r =>
    obtain ⟨n, ds⟩ := r
    have hpos := scanner.pos hlook
    have hn := scanner.le hlook
    have hrest := List.length_drop (i := head) (l := raw)
    rw [parseLoop_of_some hlook] at h
    obtain ⟨r, hr, h⟩ := bind_eq_ok.1 h
    obtain ⟨rest, hloop, h⟩ := bind_eq_ok.1 h
    obtain rfl := Except.ok.inj h
    have hq' := CircularBuffer.restore_eq_ok hq hn hr
    rw [List.drop_drop] at hq'
    obtain ⟨hle', hholds, hcap, hscan⟩ := parseLoop_eq_ok (by omega) hq' hloop
    refine ⟨hle', hholds, hcap.trans (CircularBuffer.restore_capacityCbuf hr), ?_⟩
    rw [Scanner.scan_of_some hlook, List.drop_drop, hscan]
termination_by raw.length - head

/-- Up to `2 ^ 30` bytes the loop goes through. -/
theorem exists_parseLoop {c : CircularBuffer Byte} {head : ℕ} (hle : head ≤ raw.length)
    (hq : c.Holds (raw.drop head)) (hcap : c.capacityCbuf ≤ 2 ^ 30) :
    ∃ out, parseLoop raw c head = .ok out := by
  cases hlook : scanner.look (raw.drop head) with
  | none => exact ⟨_, parseLoop_of_none hlook⟩
  | some r =>
    obtain ⟨n, ds⟩ := r
    have hmax : intMax = 2 ^ 31 - 1 := rfl
    have hpos := scanner.pos hlook
    have hn := scanner.le hlook
    have hlen := hq.length_le
    have htail := hq.tail_lt
    have hrest := List.length_drop (i := head) (l := raw)
    obtain ⟨c', hc', hq', -, hcap'⟩ := CircularBuffer.restore_of_le hq hn (by omega) (by omega)
    rw [List.drop_drop] at hq'
    obtain ⟨out, hout⟩ := exists_parseLoop (by omega) hq' (hcap' ▸ hcap)
    refine ⟨(out.1, out.2.1, ds ++ out.2.2), ?_⟩
    rw [parseLoop_of_some hlook, hc', ok_bind, hout]
    rfl
termination_by raw.length - head

theorem parseUartBuffer_of_lt (hq : c.Holds q) (hlt : q.length < minLen) :
    parseUartBuffer c = .ok ⟨0, c, 0, []⟩ := by
  rw [parseUartBuffer, hq.cbufSize_eq, if_pos (by exact_mod_cast hlt)]

/-- A call reads all the buffer holds, as far as the `int` arithmetic goes, and loops over
it. -/
theorem parseUartBuffer_of_le (hq : c.Holds q) (hle : minLen ≤ q.length) :
    parseUartBuffer c =
      if c.tail + q.length ≤ intMax then do
        let out ← parseLoop q c 0
        return ⟨0, out.1, out.2.1, out.2.2⟩
      else .error .intOverflow := by
  have hlong : ¬(q.length : ℤ) < minLen := by exact_mod_cast Nat.not_lt.2 hle
  rw [parseUartBuffer, hq.cbufSize_eq, if_neg hlong, Int.toNat_natCast]
  split_ifs with hsum
  · rw [CircularBuffer.readSafely_spec hq (List.length_replicate ..) hsum, ok_bind]
    rfl
  · rw [CircularBuffer.readSafely_overflow hq (by omega)]
    rfl

/-- A call that goes through scans the content, releases exactly what its head has passed,
and keeps the capacity. -/
theorem parseUartBuffer_eq_ok {res : ParseResult Dispatch} (hq : c.Holds q)
    (h : parseUartBuffer c = .ok res) :
    res.head ≤ q.length ∧ res.cbufRaw.Holds (q.drop res.head) ∧
      res.cbufRaw.capacityCbuf = c.capacityCbuf ∧
      scanner.scan q = (res.frames, q.drop res.head) := by
  rcases Nat.lt_or_ge q.length minLen with hlt | hle
  · rw [parseUartBuffer_of_lt hq hlt] at h
    obtain rfl := Except.ok.inj h
    exact ⟨Nat.zero_le _, hq, rfl, Scanner.scan_of_none (look_of_lt hlt)⟩
  · rw [parseUartBuffer_of_le hq hle] at h
    split_ifs at h
    obtain ⟨out, hloop, h⟩ := bind_eq_ok.1 h
    obtain rfl := Except.ok.inj h
    exact parseLoop_eq_ok (Nat.zero_le _) hq hloop

theorem gated_minLen (q : List Byte) : scanner.gated minLen q = scanner.scan q := by
  rw [Scanner.gated]
  split_ifs with hlt
  · rw [Scanner.scan_of_none (look_of_lt hlt)]
  · rfl

theorem frames_parseUartBuffer : Frames scanner minLen parseUartBuffer where
  scans hq h := by
    rw [gated_minLen, (parseUartBuffer_eq_ok hq h).2.2.2]
    exact ⟨rfl, rfl⟩
  releases hq h := (parseUartBuffer_eq_ok hq h).2.1
  capacity hq h := (parseUartBuffer_eq_ok hq h).2.2.1
  total {c q} hq hcap := by
    have hmax : intMax = 2 ^ 31 - 1 := rfl
    have hlen := hq.length_le
    have htail := hq.tail_lt
    rcases Nat.lt_or_ge q.length minLen with hlt | hle
    · exact ⟨_, parseUartBuffer_of_lt hq hlt⟩
    · have hq' : c.Holds (q.drop 0) := hq
      obtain ⟨out, hout⟩ := exists_parseLoop (Nat.zero_le _) hq' hcap
      rw [parseUartBuffer_of_le hq hle, if_pos (by omega), hout]
      exact ⟨_, rfl⟩

/-! ## Streams -/

/-- What has been made of the bytes `received` : the buffer holds what the scan of them
leaves, an end of them that waits for more, and what is dispatched is what the scan gives
out, whatever comes later. -/
structure Framed (received : List Byte) (p : ParserBase) (dispatched : List Dispatch)
    (rest : List Byte) : Prop where
  holds : p.cbufRaw.Holds rest
  scan : scanner.scan received = (dispatched, rest)
  suffix : rest <:+ received
  waits : scanner.look rest = none
  isPrefix : ∀ later, dispatched <+: (scanner.scan (received ++ later)).1

/-- A run that goes through has framed its chunks. -/
theorem exists_framed {cap : ℕ} (hpos : 0 < cap) {chunks : List (List Byte)}
    (hroom : Along (onOriginalDataUart parseUartBuffer) HasRoom (opened cap) chunks)
    {p : ParserBase} {log : List (List Dispatch)}
    (hr : tryRun (onOriginalDataUart parseUartBuffer) (opened cap) chunks = .ok (p, log)) :
    ∃ rest, Framed chunks.flatten p log.flatten rest := by
  obtain ⟨-, hholds⟩ := received frames_parseUartBuffer hpos hroom hr
  have hwalk := walked frames_parseUartBuffer hpos hroom hr
  have hwaits := Scanner.look_receive (fun _ => look_of_lt) chunks (Scanner.look_nil scanner)
  refine ⟨_, hholds, hwalk.scan_eq_of_none hwaits, hwalk.suffix, hwaits, fun later => ?_⟩
  rw [(hwalk.append later).scan_eq]
  exact List.prefix_append _ _

/-- A call takes out of the buffer exactly what its head has passed. However a stream is
cut into chunks that fit the buffer, and after every chunk, the buffer holds the part of
the stream that is not scanned yet, and what has been dispatched is a function of the
stream. Up to `2 ^ 30` bytes every run goes through. -/
theorem chunk_independent {cap : ℕ} (hpos : 0 < cap) (chunks : List (List Byte))
    (hroom : Along (onOriginalDataUart parseUartBuffer) HasRoom (opened cap) chunks) :
    (∀ c q res, CircularBuffer.Holds c q → parseUartBuffer c = .ok res →
      res.head ≤ q.length ∧ res.cbufRaw.Holds (q.drop res.head)) ∧
    (cap ≤ 2 ^ 30 → (∀ chunk ∈ chunks, chunk ≠ []) → ∃ p log,
      tryRun (onOriginalDataUart parseUartBuffer) (opened cap) chunks = .ok (p, log)) ∧
    ∀ p log, tryRun (onOriginalDataUart parseUartBuffer) (opened cap) chunks = .ok (p, log) →
      ∃ rest, Framed chunks.flatten p log.flatten rest ∧
        ∀ chunks' p' log', chunks'.flatten = chunks.flatten →
          Along (onOriginalDataUart parseUartBuffer) HasRoom (opened cap) chunks' →
          tryRun (onOriginalDataUart parseUartBuffer) (opened cap) chunks' = .ok (p', log') →
          log'.flatten = log.flatten ∧ p'.cbufRaw.Holds rest := by
  refine ⟨fun c q res hq h => ?_, fun hcap hne => ?_, fun p log hr => ?_⟩
  · obtain ⟨hle, hholds, -⟩ := parseUartBuffer_eq_ok hq h
    exact ⟨hle, hholds⟩
  · exact exists_received frames_parseUartBuffer hpos hcap hne hroom
  · obtain ⟨rest, hframed⟩ := exists_framed hpos hroom hr
    refine ⟨rest, hframed, fun chunks' p' log' hsame hroom' hr' => ?_⟩
    obtain ⟨rest', hframed'⟩ := exists_framed hpos hroom' hr'
    have hscan := hframed'.scan
    rw [hsame, hframed.scan] at hscan
    obtain ⟨hlog, rfl⟩ := Prod.mk.inj hscan
    exact ⟨hlog.symm, hframed'.holds⟩

/-- An answer to `GS_LIDAR_CMD_GET_ADDRESS`. -/
def addressFrame : List Byte :=
  [0xA5, 0xA5, 0xA5, 0xA5, 0x01, 0x60, 0x00, 0x00, 0x61]

/-- A lost byte and two answers, which come in two chunks, the first answer in both of them, and in
one. -/
theorem chunk_independent_cut : ∃ p log p' log',
    tryRun (onOriginalDataUart parseUartBuffer) (opened 64)
      [0x00 :: addressFrame.take 5, addressFrame.drop 5 ++ addressFrame] = .ok (p, log) ∧
    tryRun (onOriginalDataUart parseUartBuffer) (opened 64)
      [0x00 :: (addressFrame ++ addressFrame)] = .ok (p', log') ∧
    log.flatten = [⟨addressFrame, .getAddress⟩, ⟨addressFrame, .getAddress⟩] ∧
    p.cbufRaw.Holds [] ∧ log'.flatten = log.flatten ∧ p'.cbufRaw.Holds [] := by
  have hroom : ∀ chunks : List (List Byte), chunks.flatten.length ≤ 64 →
      Along (onOriginalDataUart parseUartBuffer) HasRoom (opened 64) chunks := fun chunks hle =>
    (unread_opened (by omega)).along_hasRoom frames_parseUartBuffer chunks (by simpa using hle)
  have hscan : scanner.scan (0x00 :: (addressFrame ++ addressFrame)) =
      ([⟨addressFrame, .getAddress⟩, ⟨addressFrame, .getAddress⟩], []) := by
    have hlost : scanner.look (0x00 :: (addressFrame ++ addressFrame)) = some (1, []) := by decide
    have hfirst : scanner.look (addressFrame ++ addressFrame) =
        some (9, [⟨addressFrame, .getAddress⟩]) := by decide
    have hsecond : scanner.look addressFrame = some (9, [⟨addressFrame, .getAddress⟩]) := by decide
    have hwalk : scanner.Walk (0x00 :: (addressFrame ++ addressFrame))
        [⟨addressFrame, .getAddress⟩, ⟨addressFrame, .getAddress⟩] [] :=
      .look hlost (.look hfirst (.look hsecond (.here [])))
    exact hwalk.scan_eq_of_none (Scanner.look_nil scanner)
  have hwhole : [0x00 :: (addressFrame ++ addressFrame)].flatten =
      [0x00 :: addressFrame.take 5, addressFrame.drop 5 ++ addressFrame].flatten := by decide
  obtain ⟨-, hgo, hcut⟩ := chunk_independent (by omega)
    [0x00 :: addressFrame.take 5, addressFrame.drop 5 ++ addressFrame] (hroom _ (by decide))
  have hroom' := hroom [0x00 :: (addressFrame ++ addressFrame)] (by decide)
  obtain ⟨p, log, hr⟩ := hgo (by omega) (by decide)
  obtain ⟨p', log', hr'⟩ := (chunk_independent (by omega) _ hroom').2.1 (by omega) (by decide)
  obtain ⟨rest, hframed, hsame⟩ := hcut p log hr
  obtain ⟨hlog, hholds⟩ := hsame _ p' log' hwhole hroom' hr'
  have hframes := hframed.scan
  rw [← hwhole, List.flatten_singleton, hscan] at hframes
  obtain ⟨hdispatched, rfl⟩ := Prod.mk.inj hframes
  exact ⟨p, log, p', log', hr, hr', hdispatched.symm, hframed.holds, hlog, hholds⟩

end Mastiff.LineLaser

import Mastiff.LidarParse

/-!
# Bytes read and bytes consumed

`lookAt` is the head test of `TryParseRawData` as a function of the bytes, `Reached` the
places its walk comes to. As long as no `0x99` head is cut off by the end of the buffer
the walk stops at the first reached place with something to stop at (`scan_spec`).

For a complete frame the returned `consume` is the end of the frame, but for a `0xCF`
frame with bytes before it, whose length is returned without them, and a `0xAA` frame with
points, which is taken to spend three bytes a point in place of five (`consume_eq_iff`).
The walk and the decoders stay in the buffer, and `consume` too, but for alarm and
parameter messages, `0x99` headers and `0xAA` segments that the end of the buffer cuts off
(`inside_iff`).
-/

set_option linter.unusedSectionVars false

open Memory Bytes

namespace Mastiff.Lidar

/-! ## The head test -/

theorem RawDataHdr.ofBytes_take {l : List Byte} {n : ℕ} (h : hdrSize ≤ n) :
    RawDataHdr.ofBytes (l.take n) = RawDataHdr.ofBytes l := by
  unfold hdrSize at h
  simp only [RawDataHdr.ofBytes]
  rw [u16At_take (by omega), u16At_take (by omega), u16At_take (by omega)]

/-- The first three words at `idx`. -/
def hdrAt (buf : List Byte) (idx : ℕ) : RawDataHdr :=
  .ofBytes (buf.drop idx)

/-- The number of points a frame at `idx` has. -/
def pointsAt (buf : List Byte) (idx : ℕ) : ℕ :=
  (hdrAt buf idx).N.toNat

/-- The kind of the frame head at `idx`. -/
def headAt (buf : List Byte) (idx : ℕ) : Option FrameKind :=
  if byteAt buf (idx + 1) = 0xfa then FrameKind.all.find? fun k => byteAt buf idx = k.byte
  else none

/-- The tests a frame head of kind `k` has to pass. -/
def headOk (buf : List Byte) (idx : ℕ) (k : FrameKind) : Bool :=
  let hdr99 := RawDataHdr99.ofBytes ((buf.drop idx).take hdr99Size)
  let angleOk : Bool := match k with
    | .x99 => hdr99.total ≠ 0 ∧ hdr99.N.toNat * 3600 / hdr99.total.toNat % 90 = 0
    | .xC7 | .xAA => true
    | .xCE | .x9D | .xDF | .xCF => (hdrAt buf idx).angle.toNat % 90 = 0
  angleOk && pointsAt buf idx ≤ maxPoints

/-- What stands at `idx`. -/
def lookAt (buf : List Byte) (idx : ℕ) : Look :=
  match Message.all.find? fun m => SignAt buf idx m.sign with
  | some m => .stop (.message m)
  | none =>
    if SignAt buf idx statusSign then .stop .status
    else match headAt buf idx with
      | none => .skip 1
      | some k => if headOk buf idx k then .stop (.frame k) else .skip 2

variable {buf : List Byte} {idx p : ℕ}

theorem headAt_eq_some {k : FrameKind} (h : headAt buf idx = some k) :
    byteAt buf idx = k.byte := by
  unfold headAt at h
  split_ifs at h
  simpa using List.find?_some h

theorem headAt_of_byte {k : FrameKind} (h0 : byteAt buf idx = k.byte)
    (h1 : byteAt buf (idx + 1) = 0xfa) : headAt buf idx = some k := by
  rw [headAt, if_pos h1]
  rw [h0]
  cases k <;> decide

theorem byteAt_of_head {k : FrameKind} (h : headAt buf idx = some k) :
    byteAt buf idx ≠ 0x4c ∧ byteAt buf idx ≠ 0x53 := by
  rw [headAt_eq_some h]
  cases k <;> decide

/-- A frame head is no control message. -/
theorem find?_message_of_head {k : FrameKind} (h : headAt buf idx = some k) :
    Message.all.find? (fun m => SignAt buf idx m.sign) = none := by
  refine List.find?_eq_none.2 fun m _ hm => ?_
  have hsign : SignAt buf idx m.sign := by simpa using hm
  have h0 : byteAt buf idx = 0x4c := hsign (0, 0x4c) (by cases m <;> simp [Message.sign])
  exact (byteAt_of_head h).1 h0

/-- A frame head is no status packet. -/
theorem not_status_of_head {k : FrameKind} (h : headAt buf idx = some k) :
    ¬SignAt buf idx statusSign := by
  intro hsign
  have h0 : byteAt buf idx = 0x53 := hsign (0, 0x53) (by simp [statusSign])
  exact (byteAt_of_head h).2 h0

theorem lookAt_of_head {k : FrameKind} (h : headAt buf idx = some k) :
    lookAt buf idx = if headOk buf idx k then .stop (.frame k) else .skip 2 := by
  rw [lookAt, find?_message_of_head h]
  simp only [if_neg (not_status_of_head h), h]

theorem lookAt_skip {n : ℕ} (h : lookAt buf idx = .skip n) : n = 1 ∨ n = 2 := by
  unfold lookAt at h
  grind

/-- An alarm message is recognised. -/
theorem lookAt_of_lmsg (h : SignAt buf idx Message.lmsg.sign) :
    lookAt buf idx = .stop (.message .lmsg) := by
  rw [lookAt, Message.all, List.find?_cons_of_pos (by simpa using h)]

/-- A parameter message is recognised. -/
theorem lookAt_of_eprm (h : SignAt buf idx Message.eprm.sign) :
    lookAt buf idx = .stop (.message .eprm) := by
  have h1 : byteAt buf (idx + 1) = 0x48 := h (1, 0x48) (by simp [Message.sign])
  have hnot : ¬SignAt buf idx Message.lmsg.sign := by
    intro hl
    have h1' : byteAt buf (idx + 1) = 0x4d := hl (1, 0x4d) (by simp [Message.sign])
    exact absurd (h1.symm.trans h1') (by decide)
  rw [lookAt, Message.all, List.find?_cons_of_neg (by simpa using hnot),
    List.find?_cons_of_pos (by simpa using h)]

/-! ## The checked head test -/

theorem findMessage_eq (h : idx + 12 < buf.length) (ms : List Message) :
    findMessage buf idx ms = .ok (ms.find? fun m => SignAt buf idx m.sign) := by
  induction ms with
  | nil => rfl
  | cons m ms ih =>
    have hin : ∀ c ∈ m.sign, idx + c.1 < buf.length := by
      have hle : ∀ c ∈ m.sign, c.1 ≤ 3 := by cases m <;> decide
      intro c hc
      have := hle c hc
      omega
    rw [findMessage, matchAt_eq hin, ok_bind, ih]
    by_cases hm : SignAt buf idx m.sign
    · simp [hm]
    · simp [hm]

theorem findHead_eq (h : idx + 12 < buf.length) : findHead buf idx = .ok (headAt buf idx) := by
  rw [findHead, readAt_eq_byteAt (by omega), readAt_eq_byteAt (by omega), headAt]
  by_cases h1 : byteAt buf (idx + 1) = 0xfa
  · simp [h1]
  · rw [ok_bind, if_neg h1, if_neg h1]
    rfl

theorem slice_hdr (h : idx + hdrSize ≤ buf.length) :
    slice buf idx hdrSize = .ok ((buf.drop idx).take hdrSize) :=
  slice_of_le h

theorem acceptHead_eq {k : FrameKind} (h : idx + 12 < buf.length)
    (h99 : k = .x99 → idx + hdr99Size ≤ buf.length) :
    acceptHead buf idx k = .ok (headOk buf idx k) := by
  rw [acceptHead, slice_hdr (by unfold hdrSize; omega), ok_bind]
  cases k with
  | x99 =>
    simp only [slice_of_le (h99 rfl), RawDataHdr.ofBytes_take (Nat.le_refl _)]
    rfl
  | _ =>
    simp only [RawDataHdr.ofBytes_take (Nat.le_refl _)]
    rfl

/-- A `0x99` header that is cut off is read past the end of the buffer. -/
theorem acceptHead_x99 (h : idx + 12 < buf.length) (hcut : buf.length < idx + hdr99Size) :
    acceptHead buf idx .x99 = .error (.outOfBounds (idx + hdr99Size - 1) buf.length) := by
  rw [acceptHead, slice_hdr (by unfold hdrSize; omega), ok_bind]
  simp only [slice_of_lt hcut]
  rfl

/-- Inside the guard of the loop the head test reads no byte outside the buffer until it
comes to a frame head. -/
theorem look_eq_acceptHead (h : idx + 12 < buf.length) :
    look buf idx = match headAt buf idx with
      | none => .ok (lookAt buf idx)
      | some k => do
        if ← acceptHead buf idx k then return .stop (.frame k) else return .skip 2 := by
  have hstatus : ∀ c ∈ statusSign, idx + c.1 < buf.length := by
    have hle : ∀ c ∈ statusSign, c.1 ≤ 7 := by decide
    intro c hc
    have := hle c hc
    omega
  rw [look, findMessage_eq h, ok_bind]
  cases hk : headAt buf idx with
  | none =>
    rw [lookAt]
    cases Message.all.find? fun m => SignAt buf idx m.sign with
    | some m => rfl
    | none =>
      simp only [matchAt_eq hstatus, findHead_eq h, ok_bind, hk]
      by_cases hst : SignAt buf idx statusSign
      · simp [hst]
      · simp [hst]
  | some k =>
    have hmsg := find?_message_of_head hk
    have hst := not_status_of_head hk
    simp only [hmsg, matchAt_eq hstatus, findHead_eq h, ok_bind, hk, hst, decide_false,
      Bool.false_eq_true, if_false]

/-- Inside the guard of the loop a turn reads in the buffer, or comes to a `0x99` header
that is cut off. -/
theorem look_cases (h : idx + 12 < buf.length) :
    look buf idx = .ok (lookAt buf idx) ∧
        (headAt buf idx = some .x99 → idx + hdr99Size ≤ buf.length) ∨
      headAt buf idx = some .x99 ∧ buf.length < idx + hdr99Size ∧
        look buf idx = .error (.outOfBounds (idx + hdr99Size - 1) buf.length) := by
  rw [look_eq_acceptHead h]
  cases hk : headAt buf idx with
  | none => exact Or.inl ⟨rfl, by simp⟩
  | some k =>
    by_cases hcut : k = .x99 ∧ buf.length < idx + hdr99Size
    · obtain ⟨rfl, hlt⟩ := hcut
      refine Or.inr ⟨rfl, hlt, ?_⟩
      simp only [acceptHead_x99 h hlt]
      rfl
    · have h99 : k = .x99 → idx + hdr99Size ≤ buf.length := fun hk =>
        Nat.le_of_not_lt fun hlt => hcut ⟨hk, hlt⟩
      refine Or.inl ⟨?_, fun hk' => h99 (Option.some.inj hk')⟩
      simp only [acceptHead_eq h h99, ok_bind, lookAt_of_head hk, pure_eq_ok]
      split_ifs <;> rfl

theorem look_skip {n : ℕ} (h : idx + 12 < buf.length) (hlook : look buf idx = .ok (.skip n)) :
    n = 1 ∨ n = 2 := by
  rcases look_cases h with ⟨hok, -⟩ | ⟨-, -, herr⟩
  · rw [hok] at hlook
    exact lookAt_skip (Except.ok.inj hlook)
  · rw [herr] at hlook
    cases hlook

/-! ## The walk -/

/-- The places the walk comes to. -/
inductive Reached (buf : List Byte) : ℕ → Prop
  | start : Reached buf 0
  | skip {p n : ℕ} (hp : Reached buf p) (hlt : p + 12 < buf.length)
      (hlook : lookAt buf p = .skip n) : Reached buf (p + n)

theorem Reached.le (h : Reached buf p) : p ≤ buf.length := by
  cases h with
  | start => exact Nat.zero_le _
  | skip hp hlt hlook =>
    have := lookAt_skip hlook
    omega

/-- The turns do not matter once they reach to the end of the buffer. -/
theorem scanFrom_eq :
    ∀ (t t' idx : ℕ), buf.length ≤ idx + t → buf.length ≤ idx + t' →
      scanFrom buf t idx = scanFrom buf t' idx
  | 0, 0, _, _, _ => rfl
  | 0, t' + 1, idx, h, _ => by
    rw [scanFrom, scanFrom, if_neg (by omega)]
  | t + 1, 0, idx, _, h' => by
    rw [scanFrom, scanFrom, if_neg (by omega)]
  | t + 1, t' + 1, idx, h, h' => by
    rw [scanFrom, scanFrom]
    by_cases hlt : idx + 12 < buf.length
    · rw [if_pos hlt, if_pos hlt]
      cases hlook : look buf idx with
      | error e => rfl
      | ok l =>
        cases l with
        | stop s => rfl
        | skip n =>
          have hn := look_skip hlt hlook
          exact scanFrom_eq t t' (idx + n) (by omega) (by omega)
    · rw [if_neg hlt, if_neg hlt]

/-- A turn inside the guard of the loop. -/
theorem scanFrom_of_lt {t : ℕ} (hlt : p + 12 < buf.length) (ht : buf.length ≤ p + t) :
    scanFrom buf t p = (do
      match ← look buf p with
      | .stop s => return (some s, p)
      | .skip n => scanFrom buf buf.length (p + n)) := by
  rw [scanFrom_eq t (buf.length + 1) p ht (by omega)]
  exact if_pos hlt

/-- The guard ends the walk. -/
theorem scanFrom_of_le {t : ℕ} (hle : buf.length ≤ p + 12) : scanFrom buf t p = .ok (none, p) := by
  cases t with
  | zero => rfl
  | succ t => rw [scanFrom, if_neg (by omega)]

/-- No `0x99` header the walk comes to is cut off by the end of the buffer. -/
def Uncut (buf : List Byte) : Prop :=
  ∀ p, Reached buf p → p + 12 < buf.length → headAt buf p = some .x99 →
    p + hdr99Size ≤ buf.length

theorem look_of_uncut (huncut : Uncut buf) (hp : Reached buf p) (h : p + 12 < buf.length) :
    look buf p = .ok (lookAt buf p) := by
  rcases look_cases h with ⟨hok, -⟩ | ⟨h99, hlt, -⟩
  · exact hok
  · have := huncut p hp h h99
    omega

theorem scanFrom_spec (huncut : Uncut buf) :
    ∀ (t idx : ℕ), Reached buf idx → buf.length ≤ idx + t →
      ∃ p, Reached buf p ∧ (scanFrom buf t idx = .ok (none, p) ∨
        ∃ s, p + 12 < buf.length ∧ lookAt buf p = .stop s ∧ scanFrom buf t idx = .ok (some s, p))
  | 0, idx, hr, _ => ⟨idx, hr, Or.inl rfl⟩
  | t + 1, idx, hr, h => by
    rw [scanFrom]
    by_cases hlt : idx + 12 < buf.length
    · rw [if_pos hlt, look_of_uncut huncut hr hlt, ok_bind]
      cases hlook : lookAt buf idx with
      | stop s => exact ⟨idx, hr, Or.inr ⟨s, hlt, hlook, rfl⟩⟩
      | skip n =>
        have hn := lookAt_skip hlook
        exact scanFrom_spec huncut t (idx + n) (.skip hr hlt hlook) (by omega)
    · rw [if_neg hlt]
      exact ⟨idx, hr, Or.inl rfl⟩

/-- The walk ends at a reached place, where it has something to stop at or the buffer
ends. -/
theorem scan_spec (huncut : Uncut buf) :
    ∃ p, Reached buf p ∧ (scan buf = .ok (none, p) ∨
      ∃ s, p + 12 < buf.length ∧ lookAt buf p = .stop s ∧ scan buf = .ok (some s, p)) :=
  scanFrom_spec huncut _ _ .start (by omega)

/-- A turn of the walk does what `lookAt` says, if it does not read a `0x99` header that is
cut off. -/
theorem scanFrom_lookAt {t : ℕ} (hlt : p + 12 < buf.length) (ht : buf.length ≤ p + t) :
    (∃ i, scanFrom buf t p = .error (.outOfBounds i buf.length)) ∨
      scanFrom buf t p = match lookAt buf p with
        | .stop s => .ok (some s, p)
        | .skip n => scanFrom buf buf.length (p + n) := by
  rw [scanFrom_of_lt hlt ht]
  rcases look_cases hlt with ⟨hok, -⟩ | ⟨-, -, herr⟩
  · rw [hok]
    exact Or.inr rfl
  · rw [herr]
    exact Or.inl ⟨_, rfl⟩

/-- The walk goes on from every reached place, if it comes there without reading a `0x99`
header that is cut off. -/
theorem scan_of_reached (hp : Reached buf p) :
    (∃ i, scan buf = .error (.outOfBounds i buf.length)) ∨
      scan buf = scanFrom buf buf.length p := by
  induction hp with
  | start => exact Or.inr rfl
  | @skip p n hp hlt hlook ih =>
    rcases ih with herr | hgo
    · exact Or.inl herr
    · have hturn := scanFrom_lookAt (t := buf.length) hlt (by omega)
      rwa [hlook, ← hgo] at hturn

/-- At a reached place with something to stop at the walk stops. -/
theorem scan_of_stop {s : Stop} (hp : Reached buf p) (hlt : p + 12 < buf.length)
    (hlook : lookAt buf p = .stop s) :
    (∃ i, scan buf = .error (.outOfBounds i buf.length)) ∨ scan buf = .ok (some s, p) := by
  rcases scan_of_reached hp with herr | hgo
  · exact Or.inl herr
  · have hturn := scanFrom_lookAt (t := buf.length) hlt (by omega)
    rwa [hlook, ← hgo] at hturn

/-! ## Complete frames -/

theorem FrameKind.avail_le (k : FrameKind) (n : ℕ) : k.avail n ≤ k.encodedLen n := by
  cases k <;> simp only [avail, encodedLen, hdrLen, pointLen, hdr2Size, hdr3Size] <;> omega

theorem FrameKind.avail_eq {k : FrameKind} (hk : k ≠ .xAA) (n : ℕ) :
    k.avail n = k.encodedLen n := by
  cases k <;> simp only [avail, encodedLen, hdrLen, pointLen, hdr2Size, hdr3Size] <;> grind

/-- The length assigned to `consume` is the end of the frame, but in two kinds. -/
theorem FrameKind.consumed_eq_iff (k : FrameKind) (idx n : ℕ) :
    k.consumed idx n = idx + k.encodedLen n ↔ (k = .xCF → idx = 0) ∧ (k = .xAA → n = 0) := by
  cases k <;> simp [consumed, encodedLen, hdrLen, pointLen] <;> omega

/-- The pending list can be read by the decoder of kind `k` : it is empty or holds
segments of that kind. -/
def FanSegs.Fits (segs : FanSegs) (k : FrameKind) : Prop :=
  (k = .xC7 → ∃ l, segs.asC7 = .ok l) ∧ (k = .xAA → ∃ l, segs.asAA = .ok l)

theorem getData0xC7_cases (now : ℕ) (hdr : RawDataHdr7) (pdat : List Byte) (dat : RawData)
    (last : FanSegs) : (∃ r, getData0xC7 now hdr pdat dat last = .ok r) ∨
      getData0xC7 now hdr pdat dat last = .error .wrongNode ∧ ¬last.Fits .xC7 := by
  rw [getData0xC7]
  cases c7.getFanSegment hdr pdat with
  | none => exact Or.inl ⟨_, rfl⟩
  | some seg =>
    cases last with
    | c7 _ => exact Or.inl ⟨_, rfl⟩
    | aa segs =>
      cases segs with
      | nil => exact Or.inl ⟨_, rfl⟩
      | cons _ _ => exact Or.inr ⟨rfl, by simp [FanSegs.Fits, FanSegs.asC7]⟩

theorem getData0xAA_cases (now : ℕ) (hdr : RawDataHdrAA) (pdat : List Byte) (dat : RawData)
    (last : FanSegs) : (∃ r, getData0xAA now hdr pdat dat last = .ok r) ∨
      getData0xAA now hdr pdat dat last = .error .wrongNode ∧ ¬last.Fits .xAA := by
  rw [getData0xAA]
  cases aa.getFanSegment hdr pdat with
  | none => exact Or.inl ⟨_, rfl⟩
  | some seg =>
    cases last with
    | aa _ => exact Or.inl ⟨_, rfl⟩
    | c7 segs =>
      cases segs with
      | nil => exact Or.inl ⟨_, rfl⟩
      | cons _ _ => exact Or.inr ⟨rfl, by simp [FanSegs.Fits, FanSegs.asAA]⟩

/-- A frame that lies in the buffer is decoded without reading outside it. -/
theorem decodeFrame_full (now : ℕ) (withChk : Bool) (args : ParseArgs) {hdr : RawDataHdr}
    {k : FrameKind} (h : idx + k.encodedLen hdr.N.toNat ≤ buf.length) :
    (∃ got args', decodeFrame now buf idx withChk args hdr k = .ok (got, args') ∧
        args'.consume = k.consumed idx hdr.N.toNat) ∨
      decodeFrame now buf idx withChk args hdr k = .error .wrongNode ∧ ¬args.fanSegs.Fits k := by
  unfold FrameKind.encodedLen at h
  cases k with
  | xCE =>
    simp only [FrameKind.hdrLen, FrameKind.pointLen] at h
    rw [decodeFrame, slice_of_le (by omega)]
    exact Or.inl ⟨_, _, rfl, rfl⟩
  | x9D | xCF | xDF =>
    simp only [FrameKind.hdrLen, FrameKind.pointLen] at h
    rw [decodeFrame, slice_of_le (by omega), ok_bind, slice_of_le (by omega)]
    exact Or.inl ⟨_, _, rfl, rfl⟩
  | x99 =>
    simp only [FrameKind.hdrLen, FrameKind.pointLen] at h
    rw [decodeFrame, slice_of_le (by omega), ok_bind, slice_of_le (by omega)]
    exact Or.inl ⟨_, _, rfl, rfl⟩
  | xC7 =>
    simp only [FrameKind.hdrLen, FrameKind.pointLen] at h
    rw [decodeFrame, slice_of_le (by omega), ok_bind, slice_of_le (by omega), ok_bind]
    rcases getData0xC7_cases now (.ofBytes ((buf.drop idx).take hdr7Size))
      ((buf.drop idx).take (hdr7Size + 5 * hdr.N.toNat + 2)) args.dat args.fanSegs with
      ⟨r, hr⟩ | ⟨herr, hfit⟩
    · simp only [hr]
      exact Or.inl ⟨_, _, rfl, rfl⟩
    · simp only [herr]
      exact Or.inr ⟨rfl, hfit⟩
  | xAA =>
    simp only [FrameKind.hdrLen, FrameKind.pointLen] at h
    rw [decodeFrame, slice_of_le (by omega), ok_bind, slice_of_le (by omega), ok_bind]
    rcases getData0xAA_cases now (.ofBytes ((buf.drop idx).take hdrAASize))
      ((buf.drop idx).take (hdrAASize + 5 * hdr.N.toNat + 2)) args.dat args.fanSegs with
      ⟨r, hr⟩ | ⟨herr, hfit⟩
    · simp only [hr]
      exact Or.inl ⟨_, _, rfl, rfl⟩
    · simp only [herr]
      exact Or.inr ⟨rfl, hfit⟩

/-- The branch of `tryParseRawData` for a frame head at `idx`. -/
theorem tryParseRawData_frame (now : ℕ) (withChk : Bool) (args : ParseArgs) {k : FrameKind}
    (hscan : scan buf = .ok (some (.frame k), idx)) (hhdr : idx + hdrSize ≤ buf.length) :
    tryParseRawData now buf withChk args =
      if idx + k.avail (pointsAt buf idx) ≤ buf.length then do
        let r ← decodeFrame now buf idx withChk args (hdrAt buf idx) k
        return (if r.1 then 1 else 0, r.2)
      else .ok (giveUp idx args) := by
  rw [tryParseRawData, hscan, ok_bind]
  simp only [slice_hdr hhdr, ok_bind, RawDataHdr.ofBytes_take (Nat.le_refl _)]
  rfl

/-- For a complete frame at the first head found, `consume` is the end of the frame
exactly if a `0xCF` frame starts the buffer and a `0xAA` frame has no points. Unless the
pending list is of the other kind, the frame is decoded. -/
theorem consume_eq_iff (now : ℕ) (buf : List Byte) (withChk : Bool) (args : ParseArgs)
    {k : FrameKind} {idx : ℕ} (hscan : scan buf = .ok (some (.frame k), idx))
    (hfull : idx + k.encodedLen (pointsAt buf idx) ≤ buf.length) :
    (args.fanSegs.Fits k → ∃ out, tryParseRawData now buf withChk args = .ok out) ∧
      ∀ out, tryParseRawData now buf withChk args = .ok out →
        (out.2.consume = idx + k.encodedLen (pointsAt buf idx) ↔
          (k = .xCF → idx = 0) ∧ (k = .xAA → pointsAt buf idx = 0)) := by
  have hhdr : idx + hdrSize ≤ buf.length := by
    have hle : hdrSize ≤ k.hdrLen := by cases k <;> decide
    unfold FrameKind.encodedLen at hfull
    omega
  have havail := k.avail_le (pointsAt buf idx)
  rw [tryParseRawData_frame now withChk args hscan hhdr, if_pos (by omega)]
  rcases decodeFrame_full now withChk args hfull with ⟨got, args', hdec, hconsume⟩ | ⟨herr, hfit⟩
  · simp only [hdec, ok_bind, pure_eq_ok]
    refine ⟨fun _ => ⟨_, rfl⟩, ?_⟩
    rintro out hout
    rw [← Except.ok.inj hout, ← FrameKind.consumed_eq_iff]
    simp only [hconsume]
    rfl
  · simp only [herr]
    refine ⟨fun h => absurd h hfit, ?_⟩
    rintro out hout
    cases hout

/-- The arguments of a call with nothing pending. -/
def ParseArgs.fresh : ParseArgs where
  uartstate := default
  dat := default
  consume := 0
  result := .zero
  cmdheader := []
  fanSegs := .c7 []

/-- A `0xCE` frame without points after a byte of garbage. -/
theorem consume_eq_iff_xCE :
    (ParseArgs.fresh.fanSegs.Fits .xCE → ∃ out, tryParseRawData 0
        [0x00, 0xce, 0xfa, 0, 0, 0, 0, 0, 0, 0, 0, 0, 0, 0] true .fresh = .ok out) ∧
      ∀ out, tryParseRawData 0 [0x00, 0xce, 0xfa, 0, 0, 0, 0, 0, 0, 0, 0, 0, 0, 0] true .fresh =
          .ok out →
        (out.2.consume = 1 + FrameKind.xCE.encodedLen 0 ↔
          (FrameKind.xCE = .xCF → 1 = 0) ∧ (FrameKind.xCE = .xAA → 0 = 0)) := by
  have hscan : scan [0x00, 0xce, 0xfa, 0, 0, 0, 0, 0, 0, 0, 0, 0, 0, 0] =
      .ok (some (.frame .xCE), 1) := by decide
  exact consume_eq_iff 0 _ true .fresh hscan (by decide)

/-- A `0xCF` frame without points after a byte of garbage : `consume` ends a byte before
the frame does. -/
theorem not_consume_eq :
    ¬∀ (now : ℕ) (buf : List Byte) (withChk : Bool) (args : ParseArgs) (k : FrameKind) (idx : ℕ),
      scan buf = .ok (some (.frame k), idx) →
        idx + k.encodedLen (pointsAt buf idx) ≤ buf.length →
        ∀ out, tryParseRawData now buf withChk args = .ok out →
          out.2.consume = idx + k.encodedLen (pointsAt buf idx) := by
  intro h
  have hout : ∃ out, tryParseRawData 0
      [0x00, 0xcf, 0xfa, 0, 0, 0, 0, 0, 0, 0, 0, 0, 0, 0] true .fresh = .ok out ∧
        out.2.consume = 10 := ⟨_, rfl, rfl⟩
  obtain ⟨out, hparse, hten⟩ := hout
  have heleven := h 0 _ true .fresh .xCF 1 (by decide) (by decide) out hparse
  rw [hten] at heleven
  exact absurd heleven (by decide)

/-! ## Staying in the buffer -/

/-- The call reads no byte outside the buffer and returns a `consume` inside it. -/
def Inside (buf : List Byte) (r : Except Fault (ℤ × ParseArgs)) : Prop :=
  match r with
  | .ok out => out.2.consume ≤ buf.length
  | .error e => e.isOutOfBounds = false

/-- What the end of the buffer must not cut off at a place the walk comes to. -/
structure FitsAt (buf : List Byte) (p : ℕ) : Prop where
  lmsg : SignAt buf p Message.lmsg.sign → p + lidarMsgHdrSize ≤ buf.length
  eprm : SignAt buf p Message.eprm.sign → p + 8 + eepromV101Size ≤ buf.length
  x99 : headAt buf p = some .x99 → p + hdr99Size ≤ buf.length
  xAA : headAt buf p = some .xAA → pointsAt buf p ≤ maxPoints →
    p + FrameKind.xAA.avail (pointsAt buf p) ≤ buf.length →
    p + FrameKind.xAA.encodedLen (pointsAt buf p) ≤ buf.length

variable (now : ℕ) (withChk : Bool) (args : ParseArgs)

theorem inside_giveUp (hp : p ≤ buf.length) (hconsume : args.consume ≤ buf.length) :
    Inside buf (.ok (giveUp p args)) := by
  unfold giveUp Inside
  split_ifs
  · exact (Nat.div_le_self _ _).trans hp
  · exact hconsume

theorem inside_handle {m : Message} (hlt : p + 12 < buf.length)
    (hl : m = .lmsg → p + lidarMsgHdrSize ≤ buf.length)
    (he : m = .eprm → p + 8 + eepromV101Size ≤ buf.length) :
    Inside buf (m.handle buf p args) := by
  have hcmd : slice buf 0 cmdHeaderSize = .ok ((buf.drop 0).take cmdHeaderSize) :=
    slice_of_le (by unfold cmdHeaderSize; omega)
  cases m with
  | lmsg =>
    rw [Message.handle, slice_of_le (hl rfl)]
    exact hl rfl
  | eprm =>
    have := he rfl
    rw [Message.handle, hcmd, ok_bind, slice_of_le (by omega)]
    simp only [ok_bind, pure_eq_ok, Inside]
    omega
  | timeSync =>
    simp only [Message.handle, Inside]
    omega
  | sPack =>
    rw [Message.handle, hcmd, ok_bind, slice_of_le (by omega)]
    simp only [ok_bind, pure_eq_ok, Inside]
    omega
  | cPack | readZone | writeZone =>
    rw [Message.handle, hcmd]
    simp only [ok_bind, pure_eq_ok, Inside]
    omega

theorem inside_handleStatus (hlt : p + 12 < buf.length) :
    Inside buf (handleStatus buf p args) := by
  rw [handleStatus, readAt_of_lt (by omega)]
  simp only [ok_bind, pure_eq_ok, Inside]
  omega

theorem FrameKind.consumed_le (k : FrameKind) (idx n : ℕ) :
    k.consumed idx n ≤ idx + k.encodedLen n := by
  cases k <;> simp only [consumed, encodedLen, hdrLen, pointLen] <;> omega

theorem inside_frame {k : FrameKind} (h : p + hdrSize ≤ buf.length)
    (hscan : scan buf = .ok (some (.frame k), p)) (hconsume : args.consume ≤ buf.length)
    (hp : p ≤ buf.length) (hfull : p + k.avail (pointsAt buf p) ≤ buf.length →
      p + k.encodedLen (pointsAt buf p) ≤ buf.length) :
    Inside buf (tryParseRawData now buf withChk args) := by
  rw [tryParseRawData_frame now withChk args hscan h]
  split_ifs with havail
  · have hle := FrameKind.consumed_le k p (pointsAt buf p)
    rcases decodeFrame_full now withChk args (hfull havail) with
      ⟨got, args', hdec, hargs⟩ | ⟨herr, -⟩
    · rw [hdec]
      exact (hargs.trans_le hle).trans (hfull havail)
    · rw [herr]
      rfl
  · exact inside_giveUp args hp hconsume

theorem lookAt_message {m : Message} (h : lookAt buf p = .stop (.message m)) :
    SignAt buf p m.sign := by
  unfold lookAt at h
  cases hm : Message.all.find? fun m => SignAt buf p m.sign with
  | some m' =>
    rw [hm] at h
    obtain rfl : m' = m := by simpa using h
    simpa using List.find?_some hm
  | none =>
    rw [hm] at h
    grind

theorem lookAt_frame {k : FrameKind} (h : lookAt buf p = .stop (.frame k)) :
    headAt buf p = some k ∧ pointsAt buf p ≤ maxPoints := by
  have hhead : headAt buf p = some k := by
    unfold lookAt at h
    grind
  refine ⟨hhead, ?_⟩
  have hok : headOk buf p k = true := by
    rw [lookAt_of_head hhead] at h
    by_contra hno
    rw [if_neg hno] at h
    cases h
  simp only [headOk, Bool.and_eq_true, decide_eq_true_eq] at hok
  exact hok.2

/-- The function stays in the buffer if the end of the buffer cuts nothing off that the
walk comes to. -/
theorem inside_of_fits (hconsume : args.consume ≤ buf.length)
    (hfits : ∀ p, Reached buf p → p + 12 < buf.length → FitsAt buf p) :
    Inside buf (tryParseRawData now buf withChk args) := by
  have huncut : Uncut buf := fun p hp hlt => (hfits p hp hlt).x99
  obtain ⟨p, hp, hnone | ⟨s, hlt, hlook, hsome⟩⟩ := scan_spec huncut
  · rw [tryParseRawData, hnone]
    exact inside_giveUp args hp.le hconsume
  · have hfit := hfits p hp hlt
    cases s with
    | message m =>
      have hsign := lookAt_message hlook
      rw [tryParseRawData, hsome]
      refine inside_handle args hlt ?_ ?_
      · rintro rfl
        exact hfit.lmsg hsign
      · rintro rfl
        exact hfit.eprm hsign
    | status =>
      rw [tryParseRawData, hsome]
      exact inside_handleStatus args hlt
    | frame k =>
      obtain ⟨hhead, hmax⟩ := lookAt_frame hlook
      refine inside_frame now withChk args (by unfold hdrSize; omega) hsome hconsume hp.le ?_
      intro havail
      by_cases hk : k = .xAA
      · subst hk
        exact hfit.xAA hhead hmax havail
      · rwa [← FrameKind.avail_eq hk]

theorem not_inside_outOfBounds (i n : ℕ) : ¬Inside buf (.error (.outOfBounds i n)) := by
  simp [Inside, Fault.isOutOfBounds]

/-- If the walk leaves the buffer the function does. -/
theorem not_inside_of_scan {i : ℕ} (h : scan buf = .error (.outOfBounds i buf.length)) :
    ¬Inside buf (tryParseRawData now buf withChk args) := by
  rw [tryParseRawData, h]
  exact not_inside_outOfBounds _ _

variable {now withChk args}

/-- If the function stays in the buffer, it stops where the walk does. -/
theorem scan_of_inside (h : Inside buf (tryParseRawData now buf withChk args)) {s : Stop}
    (hp : Reached buf p) (hlt : p + 12 < buf.length) (hlook : lookAt buf p = .stop s) :
    scan buf = .ok (some s, p) := by
  rcases scan_of_stop hp hlt hlook with ⟨i, herr⟩ | hscan
  · exact absurd h (not_inside_of_scan now withChk args herr)
  · exact hscan

/-- A function that stays in the buffer cuts nothing off that the walk comes to. -/
theorem fits_of_inside (h : Inside buf (tryParseRawData now buf withChk args))
    (hp : Reached buf p) (hlt : p + 12 < buf.length) : FitsAt buf p where
  lmsg hsign := by
    have hscan := scan_of_inside h hp hlt (lookAt_of_lmsg hsign)
    by_contra hcut
    rw [tryParseRawData, hscan, ok_bind] at h
    simp only [Message.handle, slice_of_lt (Nat.lt_of_not_le hcut), error_bind] at h
    exact not_inside_outOfBounds _ _ h
  eprm hsign := by
    have hscan := scan_of_inside h hp hlt (lookAt_of_eprm hsign)
    by_contra hcut
    have hcmd : slice buf 0 cmdHeaderSize = .ok ((buf.drop 0).take cmdHeaderSize) :=
      slice_of_le (by unfold cmdHeaderSize; omega)
    have heeprom : buf.length < 8 + p + eepromV101Size := by omega
    rw [tryParseRawData, hscan, ok_bind] at h
    simp only [Message.handle, hcmd, ok_bind, slice_of_lt heeprom, error_bind] at h
    exact not_inside_outOfBounds _ _ h
  x99 hhead := by
    rcases look_cases hlt with ⟨-, hin⟩ | ⟨-, -, herr⟩
    · exact hin hhead
    · rcases scan_of_reached hp with ⟨i, hscan⟩ | hgo
      · exact absurd h (not_inside_of_scan now withChk args hscan)
      · rw [scanFrom_of_lt hlt (by omega), herr] at hgo
        exact absurd h (not_inside_of_scan now withChk args hgo)
  xAA hhead hmax havail := by
    have hok : headOk buf p .xAA = true := by simp [headOk, hmax]
    have hlook : lookAt buf p = .stop (.frame .xAA) := by
      rw [lookAt_of_head hhead, if_pos hok]
    have hscan := scan_of_inside h hp hlt hlook
    by_contra hcut
    have hhdr : p + hdrAASize ≤ buf.length := by
      simp only [FrameKind.avail] at havail
      omega
    have hpdat : buf.length < p + (hdrAASize + 5 * (hdrAt buf p).N.toNat + 2) :=
      Nat.lt_of_not_le hcut
    rw [tryParseRawData_frame now withChk args hscan (by unfold hdrSize; omega), if_pos havail,
      decodeFrame, slice_of_le hhdr, ok_bind, slice_of_lt hpdat] at h
    exact not_inside_outOfBounds _ _ h

/-- The function reads no byte outside the buffer and returns a `consume` inside it,
exactly if the end of the buffer cuts off no alarm message, no parameter message, no
`0x99` header and no `0xAA` segment that the walk comes to. -/
theorem inside_iff (now : ℕ) (buf : List Byte) (withChk : Bool) (args : ParseArgs) :
    Inside buf (tryParseRawData now buf withChk { args with consume := 0 }) ↔
      ∀ p, Reached buf p → p + 12 < buf.length → FitsAt buf p := by
  constructor
  · intro h p hp hlt
    exact fits_of_inside h hp hlt
  · exact inside_of_fits now withChk _ (Nat.zero_le _)

/-- An alarm message of which thirteen bytes have arrived. -/
theorem not_inside :
    ¬∀ (now : ℕ) (buf : List Byte) (withChk : Bool) (args : ParseArgs),
      Inside buf (tryParseRawData now buf withChk { args with consume := 0 }) := by
  intro h
  have hmsg := h 0 [0x4c, 0x4d, 0x53, 0x47, 0, 0, 0, 0, 0, 0, 0, 0, 0] true .fresh
  have hread : tryParseRawData 0 [0x4c, 0x4d, 0x53, 0x47, 0, 0, 0, 0, 0, 0, 0, 0, 0] true .fresh =
      .error (.outOfBounds 127 13) := by rfl
  exact not_inside_outOfBounds _ _ (hread ▸ hmsg)

end Mastiff.Lidar

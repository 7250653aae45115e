import Mastiff.LidarSent
import Mastiff.LidarSlot

/-!
# Checksums of delivered frames

A frame ends with two bytes of checksum. `GetData0xCE`, `GetData0x9D`, `GetData0xCF`,
`GetData0xDF` and `GetFanSegment` (`parse_libs/lidar_parser.cc`) add up what they decode and
compare, so that a call of `TryParseRawData` that returns 1 has decoded a frame with the sum
of its header and its points (`sumAt_of_one`), and a buffer that differs in the two bytes only
is refused (`SumAt.tested`). The segments of a reassembled fan have been tested by the calls
that took them, whichever calls came between (`Threaded.mem`).

`GetData0x99` compares nothing.
-/

set_option linter.unusedSectionVars false

open Memory Machine Bytes

namespace Mastiff.Lidar

/-! ## The bytes of a frame -/

/-- The bytes of the frame of kind `k` at `idx`. -/
def frameAt (k : FrameKind) (buf : List Byte) (idx : ℕ) : List Byte :=
  (buf.drop idx).take (k.encodedLen (pointsAt buf idx))

/-- Where its checksum stands. -/
def chkAt (k : FrameKind) (buf : List Byte) (idx : ℕ) : ℕ :=
  idx + k.hdrLen + k.pointLen * pointsAt buf idx

/-- The sum the decoders make of a frame. -/
def FrameKind.madeSum (k : FrameKind) (f : List Byte) : U16 :=
  headerSum k.hdrLen f + k.payloadSum (f.drop k.hdrLen) (pointsAt f 0)

/-- The frame at `idx` is inside the buffer, with the sum the decoders make of it. -/
structure SumAt (k : FrameKind) (buf : List Byte) (idx : ℕ) : Prop where
  inside : idx + k.encodedLen (pointsAt buf idx) ≤ buf.length
  sum : u16At buf (chkAt k buf idx) = k.madeSum (frameAt k buf idx)

variable {k : FrameKind} {buf buf' : List Byte} {idx p i : ℕ}

theorem byteAt_frameAt (h : i < k.encodedLen (pointsAt buf idx)) :
    byteAt (frameAt k buf idx) i = byteAt buf (idx + i) := by
  rw [frameAt, byteAt_take h, byteAt_drop]

theorem u16At_frameAt (h : i + 1 < k.encodedLen (pointsAt buf idx)) :
    u16At (frameAt k buf idx) i = u16At buf (idx + i) := by
  rw [frameAt, u16At_take h, u16At_drop]

theorem pointsAt_frameAt : pointsAt (frameAt k buf idx) 0 = pointsAt buf idx := by
  have hhdr := k.hdrSize_le
  unfold hdrSize at hhdr
  simp only [pointsAt, hdrAt, RawDataHdr.ofBytes, List.drop_zero]
  rw [u16At_frameAt (by unfold FrameKind.encodedLen; omega), u16At_drop]

/-! ## Buffers that agree up to a checksum -/

/-- The buffers are as long as each other and have the same bytes before `off`. -/
structure Agree (off : ℕ) (buf buf' : List Byte) : Prop where
  length : buf'.length = buf.length
  byte : ∀ i < off, byteAt buf' i = byteAt buf i

theorem agree_putU16 {off : ℕ} (x : U16) (h : off + 2 ≤ buf.length) :
    Agree off buf (putU16 buf off x) :=
  ⟨length_putU16 x h, fun _ hi => byteAt_putU16_of_lt x h hi⟩

section Agree

variable {off : ℕ} (h : Agree off buf buf')
include h

theorem Agree.u16At_eq (hi : i + 1 < off) : u16At buf' i = u16At buf i := by
  rw [u16At, h.byte i (by omega), h.byte (i + 1) hi, u16At]

theorem Agree.signAt_iff {sign : List (ℕ × Byte)} (hsign : ∀ c ∈ sign, p + c.1 < off) :
    SignAt buf' p sign ↔ SignAt buf p sign := by
  refine forall₂_congr fun c hc => ?_
  rw [h.byte _ (hsign c hc)]

theorem Agree.headAt_eq (hp : p + 1 < off) : headAt buf' p = headAt buf p := by
  rw [headAt, headAt, h.byte p (by omega), h.byte (p + 1) hp]

theorem Agree.pointsAt_eq (hp : p + 6 ≤ off) : pointsAt buf' p = pointsAt buf p := by
  simp only [pointsAt, hdrAt, RawDataHdr.ofBytes, u16At_drop]
  rw [h.u16At_eq (by omega)]

theorem Agree.headOk_eq (hp : p + 6 ≤ off) (h99 : k = .x99 → p + 8 ≤ off) :
    headOk buf' p k = headOk buf p k := by
  have hangle : (hdrAt buf' p).angle = (hdrAt buf p).angle := by
    simp only [hdrAt, RawDataHdr.ofBytes, u16At_drop]
    rw [h.u16At_eq (by omega)]
  cases k with
  | x99 =>
    have h99 := h99 rfl
    have hhdr99 : ∀ j, j + 1 < 8 → u16At ((buf'.drop p).take hdr99Size) j =
        u16At ((buf.drop p).take hdr99Size) j := by
      intro j hj
      rw [u16At_take (by unfold hdr99Size; omega), u16At_take (by unfold hdr99Size; omega),
        u16At_drop, u16At_drop, h.u16At_eq (by omega)]
    have hok : ∀ b, headOk b p .x99 =
        (decide (u16At ((b.drop p).take hdr99Size) 6 ≠ 0 ∧
          (u16At ((b.drop p).take hdr99Size) 2).toNat * 3600 /
            (u16At ((b.drop p).take hdr99Size) 6).toNat % 90 = 0) &&
          decide (pointsAt b p ≤ maxPoints)) := fun b => rfl
    rw [hok, hok, hhdr99 2 (by omega), hhdr99 6 (by omega), h.pointsAt_eq hp]
  | xC7 | xAA => simp only [headOk, h.pointsAt_eq hp]
  | xCE | x9D | xDF | xCF => simp only [headOk, h.pointsAt_eq hp, hangle]

/-- Up to a frame head before the checksum the walk sees the same. -/
theorem Agree.lookAt_eq (hidx : headAt buf idx = some k) (hoff : idx + 6 ≤ off)
    (h99 : k = .x99 → idx + 8 ≤ off) (hp : p ≤ idx) : lookAt buf' p = lookAt buf p := by
  have hmessage : ∀ m : Message, SignAt buf' p m.sign ↔ SignAt buf p m.sign := by
    intro m
    refine h.signAt_iff fun c hc => ?_
    have hle : ∀ c ∈ m.sign, c.1 ≤ 3 := by cases m <;> decide
    have := hle c hc
    omega
  have hhead : headAt buf' p = headAt buf p := h.headAt_eq (by omega)
  rcases Nat.lt_or_ge (p + 7) off with hfar | hnear
  · have hstatus : SignAt buf' p statusSign ↔ SignAt buf p statusSign := by
      refine h.signAt_iff fun c hc => ?_
      have hle : ∀ c ∈ statusSign, c.1 ≤ 7 := by decide
      have := hle c hc
      omega
    simp only [lookAt, hmessage, hstatus, hhead]
    cases headAt buf p with
    | none => rfl
    | some k' =>
      have hok : headOk buf' p k' = headOk buf p k' := h.headOk_eq (by omega) fun _ => by omega
      simp only [hok]
  · rcases Nat.lt_or_eq_of_le hp with hlt | rfl
    · -- the first byte of the frame is no second byte of a status packet or a frame head
      obtain rfl : idx = p + 1 := by omega
      have hbyte := headAt_eq_some hidx
      have hnot : k.byte ≠ 0x54 ∧ k.byte ≠ 0xfa := by cases k <;> decide
      have hbyte' : byteAt buf' (p + 1) = k.byte := (h.byte _ (by omega)).trans hbyte
      have hstatus : ¬SignAt buf p statusSign := by
        intro hsign
        have h1 : byteAt buf (p + 1) = 0x54 := hsign (1, 0x54) (by simp [statusSign])
        exact hnot.1 (hbyte.symm.trans h1)
      have hstatus' : ¬SignAt buf' p statusSign := by
        intro hsign
        have h1 : byteAt buf' (p + 1) = 0x54 := hsign (1, 0x54) (by simp [statusSign])
        exact hnot.1 (hbyte'.symm.trans h1)
      have hnone : headAt buf p = none := by rw [headAt, hbyte, if_neg hnot.2]
      simp only [lookAt, hmessage, hhead, hnone, if_neg hstatus, if_neg hstatus']
    · rw [lookAt_of_head hidx, lookAt_of_head (hhead.trans hidx), h.headOk_eq hoff h99]

/-- One turn of the walk up to there does the same. -/
theorem Agree.look_eq (hidx : headAt buf idx = some k) (hoff : idx + 6 ≤ off)
    (h99 : k = .x99 → idx + 8 ≤ off) (hp : p ≤ idx) (hlt : p + 12 < buf.length) {l : Look}
    (hlook : look buf p = .ok l) : look buf' p = .ok l := by
  have hlt' : p + 12 < buf'.length := by rwa [h.length]
  rcases look_cases hlt with ⟨hok, huncut⟩ | ⟨-, -, herr⟩
  · rcases look_cases hlt' with ⟨hok', -⟩ | ⟨hhead, hcut, -⟩
    · rw [hok', h.lookAt_eq hidx hoff h99 hp, ← hok, hlook]
    · rw [h.headAt_eq (by omega)] at hhead
      have := huncut hhead
      rw [h.length] at hcut
      omega
  · rw [herr] at hlook
    cases hlook

end Agree

/-- Where the walk stops. -/
theorem scanFrom_eq_stop {s : Stop} :
    ∀ (t p : ℕ), scanFrom buf t p = .ok (some s, idx) →
      p ≤ idx ∧ idx + 12 < buf.length ∧ lookAt buf idx = .stop s
  | 0, p, hscan => by cases hscan
  | t + 1, p, hscan => by
    by_cases hlt : p + 12 < buf.length
    · rw [scanFrom, if_pos hlt] at hscan
      obtain ⟨l, hlook, hscan⟩ := bind_eq_ok.1 hscan
      cases l with
      | stop s' =>
        obtain ⟨hs, rfl⟩ := Prod.mk.inj (Except.ok.inj hscan)
        obtain rfl := Option.some.inj hs
        rcases look_cases hlt with ⟨hok, -⟩ | ⟨-, -, herr⟩
        · exact ⟨Nat.le_refl _, hlt, Except.ok.inj (hok.symm.trans hlook)⟩
        · rw [herr] at hlook
          cases hlook
      | skip n =>
        have hn := look_skip hlt hlook
        obtain ⟨hle, hstop⟩ := scanFrom_eq_stop t (p + n) hscan
        exact ⟨by omega, hstop⟩
    · rw [scanFrom, if_neg hlt] at hscan
      cases hscan

theorem headAt_of_scan (hscan : scan buf = .ok (some (.frame k), idx)) :
    headAt buf idx = some k :=
  (lookAt_frame (scanFrom_eq_stop _ _ hscan).2.2).1

/-- The walk comes to the same frame if the buffers agree up to its checksum. -/
theorem Agree.scan_eq {off : ℕ} (h : Agree off buf buf')
    (hscan : scan buf = .ok (some (.frame k), idx)) (hoff : idx + 6 ≤ off)
    (h99 : k = .x99 → idx + 8 ≤ off) : scan buf' = .ok (some (.frame k), idx) := by
  have hidx := headAt_of_scan hscan
  have hfrom : ∀ t p, scanFrom buf t p = .ok (some (.frame k), idx) →
      scanFrom buf' t p = .ok (some (.frame k), idx) := by
    intro t
    induction t with
    | zero => exact fun p hp => by cases hp
    | succ t ih =>
      intro p hp
      have hle := (scanFrom_eq_stop _ _ hp).1
      by_cases hlt : p + 12 < buf.length
      · rw [scanFrom, if_pos hlt] at hp
        obtain ⟨l, hlook, hp⟩ := bind_eq_ok.1 hp
        rw [scanFrom, if_pos (by rwa [h.length]), h.look_eq hidx hoff h99 hle hlt hlook, ok_bind]
        cases l with
        | stop s => exact hp
        | skip n => exact ih _ hp
      · rw [scanFrom, if_neg hlt] at hp
        cases hp
  rw [scan, h.length]
  exact hfrom _ _ hscan

/-! ## The sum of a frame with another checksum -/

theorem Agree.headerSum_eq {off n : ℕ} {f f' : List Byte} (h : Agree off f f') (hn : n ≤ off) :
    headerSum n f' = headerSum n f := by
  refine congrArg List.sum (List.map_congr_left fun i hi => ?_)
  have hi := List.mem_range.1 hi
  exact h.u16At_eq (by omega)

/-- The sum of the points reads the points only. -/
theorem Agree.payloadSum_eq {off m n : ℕ} {f f' : List Byte} (h : Agree off f f')
    (hoff : m + k.pointLen * n ≤ off) :
    k.payloadSum (f'.drop m) n = k.payloadSum (f.drop m) n := by
  have hword : ∀ j, j + 2 ≤ k.pointLen * n → u16At (f'.drop m) j = u16At (f.drop m) j := by
    intro j hj
    rw [u16At_drop, u16At_drop, h.u16At_eq (by omega)]
  have hbyte : ∀ j, j + 1 ≤ k.pointLen * n → byteAt (f'.drop m) j = byteAt (f.drop m) j := by
    intro j hj
    rw [byteAt_drop, byteAt_drop, h.byte _ (by omega)]
  cases k with
  | x99 => rfl
  | x9D =>
    simp only [FrameKind.pointLen] at hword
    refine congrArg List.sum (List.map_congr_left fun i hi => ?_)
    have hi := List.mem_range.1 hi
    exact hword _ (by omega)
  | xCE | xCF | xDF =>
    simp only [FrameKind.pointLen] at hword hbyte
    refine congrArg List.sum (List.map_congr_left fun i hi => ?_)
    have hi := List.mem_range.1 hi
    rw [confidence3, dist3, hbyte _ (by omega), hword _ (by omega), confidence3, dist3]
  | xC7 | xAA =>
    simp only [FrameKind.pointLen] at hword hbyte
    refine congrArg List.sum (List.map_congr_left fun i hi => ?_)
    have hi := List.mem_range.1 hi
    rw [hword _ (by omega), hword _ (by omega), hbyte _ (by omega)]

theorem chkAt_add_two_le (hin : idx + k.encodedLen (pointsAt buf idx) ≤ buf.length) :
    chkAt k buf idx + 2 ≤ buf.length := by
  rw [FrameKind.encodedLen] at hin
  rw [chkAt]
  omega

theorem idx_add_six_le_chkAt : idx + 6 ≤ chkAt k buf idx := by
  have hhdr := k.hdrSize_le
  unfold hdrSize at hhdr
  unfold chkAt
  omega

/-- With another checksum a frame no longer has the sum that is made of it. -/
theorem SumAt.putU16 (h : SumAt k buf idx) {x : U16} (hx : x ≠ u16At buf (chkAt k buf idx)) :
    ¬SumAt k (putU16 buf (chkAt k buf idx) x) idx := by
  have hin := chkAt_add_two_le h.inside
  have hagree := agree_putU16 x hin
  have hle : idx + 6 ≤ chkAt k buf idx := idx_add_six_le_chkAt
  have hpoints := hagree.pointsAt_eq hle
  have hchk : chkAt k (Bytes.putU16 buf (chkAt k buf idx) x) idx = chkAt k buf idx := by
    rw [chkAt, hpoints, chkAt]
  have hframe : Agree (k.hdrLen + k.pointLen * pointsAt buf idx) (frameAt k buf idx)
      (frameAt k (Bytes.putU16 buf (chkAt k buf idx) x) idx) := by
    constructor
    · rw [frameAt, frameAt, hpoints, List.length_take, List.length_take, List.length_drop,
        List.length_drop, hagree.length]
    · intro i hi
      rw [byteAt_frameAt (by rw [hpoints, FrameKind.encodedLen]; omega),
        byteAt_frameAt (by rw [FrameKind.encodedLen]; omega), hagree.byte _ (by rw [chkAt]; omega)]
  intro h'
  have hsum := h'.sum
  rw [hchk, u16At_putU16 x hin, FrameKind.madeSum, pointsAt_frameAt, hpoints,
    hframe.headerSum_eq (by omega), hframe.payloadSum_eq (Nat.le_refl _)] at hsum
  have hmade := h.sum
  rw [FrameKind.madeSum, pointsAt_frameAt] at hmade
  exact hx (hsum.trans hmade.symm)

/-! ## What a decoder tests -/

section Decoders

variable {pdat : List Byte} {dat : RawData}

theorem chk_of_getData0xCE {hdr : RawDataHdr} {span : ℕ}
    (h : (getData0xCE hdr pdat span true dat).got = true) :
    u16At pdat (3 * hdr.N.toNat) = hdr.angle + hdr.N + sum3 pdat hdr.N.toNat := by
  by_contra hne
  simp [getData0xCE, hne] at h

theorem chk_of_getData0xCF {hdr : RawDataHdr2} (h : (getData0xCF hdr pdat true dat).got = true) :
    u16At pdat (3 * hdr.N.toNat) = hdr.angle + hdr.N + hdr.span + sum3 pdat hdr.N.toNat := by
  by_contra hne
  simp [getData0xCF, hne] at h

theorem chk_of_getData0xDF {hdr : RawDataHdr3} (h : (getData0xDF hdr pdat true dat).got = true) :
    u16At pdat (3 * hdr.N.toNat) = hdr.angle + hdr.N + hdr.span + hdr.fbase + hdr.first +
      hdr.last + hdr.fend + sum3 pdat hdr.N.toNat := by
  by_contra hne
  simp [getData0xDF, hne] at h

theorem chk_of_getData0x9D {hdr : RawDataHdr2} (h : (getData0x9D hdr pdat true dat).got = true) :
    u16At pdat (2 * hdr.N.toNat) = hdr.angle + hdr.N + hdr.span +
      ((List.range hdr.N.toNat).map fun i => u16At pdat (2 * i)).sum := by
  by_contra hne
  simp [getData0x9D, hne] at h

theorem FanLayout.chk_of_getFanSegment {H : Type} {L : FanLayout H} {hdr : H}
    {seg : FanSegment H} (h : L.getFanSegment hdr pdat = some seg) :
    u16At pdat (L.hdrSize + 5 * (L.N hdr).toNat) = headerSum L.hdrSize pdat +
      ((List.range (L.N hdr).toNat).map fun i => u16At pdat (L.hdrSize + 2 * i) +
        u16At pdat (L.hdrSize + 2 * (L.N hdr).toNat + 2 * i) +
          (byteAt pdat (L.hdrSize + 4 * (L.N hdr).toNat + i)).setWidth 16).sum := by
  simp only [getFanSegment] at h
  split_ifs at h with hne
  exact not_not.1 hne

end Decoders

/-- A frame inside the buffer, the decoder of whose points finds the sum. -/
theorem sumAt_of_payload {pdat : List Byte}
    (hpdat : slice buf (idx + k.hdrLen) (k.pointLen * pointsAt buf idx + 2) = .ok pdat)
    (h : u16At pdat (k.pointLen * pointsAt buf idx) =
      headerSum k.hdrLen (buf.drop idx) + k.payloadSum pdat (pointsAt buf idx)) :
    SumAt k buf idx := by
  obtain ⟨hin, rfl⟩ := slice_eq_ok hpdat
  have hframe : (frameAt k buf idx).drop k.hdrLen =
      (buf.drop (idx + k.hdrLen)).take (k.pointLen * pointsAt buf idx + 2) := by
    rw [frameAt, List.drop_take, List.drop_drop, FrameKind.encodedLen, Nat.add_assoc,
      Nat.add_sub_cancel_left]
  have hheader : headerSum k.hdrLen (frameAt k buf idx) = headerSum k.hdrLen (buf.drop idx) := by
    refine congrArg List.sum (List.map_congr_left fun i hi => ?_)
    have hi := List.mem_range.1 hi
    rw [u16At_frameAt (by rw [FrameKind.encodedLen]; omega), u16At_drop]
  refine ⟨by rw [FrameKind.encodedLen]; omega, ?_⟩
  rw [FrameKind.madeSum, pointsAt_frameAt, hheader, hframe, ← h, u16At_take (by omega), u16At_drop,
    chkAt]

/-- A decoder of a whole fan that delivers it has found the sum. -/
theorem sumAt_of_decodeFrame {now : ℕ} {args args' : ParseArgs} (h99 : k ≠ .x99)
    (hC7 : k ≠ .xC7) (hAA : k ≠ .xAA)
    (hdec : decodeFrame now buf idx true args (hdrAt buf idx) k = .ok (true, args')) :
    SumAt k buf idx := by
  cases k with
  | x99 | xC7 | xAA => contradiction
  | xCE =>
    obtain ⟨pdat, hpdat, hdec⟩ := bind_eq_ok.1 hdec
    have hgot := chk_of_getData0xCE (Prod.mk.inj (Except.ok.inj hdec)).1
    refine sumAt_of_payload hpdat ?_
    rw [show FrameKind.xCE.hdrLen = hdrSize from rfl, headerSum_hdr]
    exact hgot
  | x9D =>
    obtain ⟨hdr2, hhdr2, hdec⟩ := bind_eq_ok.1 hdec
    obtain ⟨-, rfl⟩ := slice_eq_ok hhdr2
    obtain ⟨pdat, hpdat, hdec⟩ := bind_eq_ok.1 hdec
    rw [RawDataHdr2.ofBytes_take (Nat.le_refl _)] at hdec
    have hgot := chk_of_getData0x9D (Prod.mk.inj (Except.ok.inj hdec)).1
    refine sumAt_of_payload hpdat ?_
    rw [show FrameKind.x9D.hdrLen = hdr2Size from rfl, headerSum_hdr2]
    exact hgot
  | xCF =>
    obtain ⟨hdr2, hhdr2, hdec⟩ := bind_eq_ok.1 hdec
    obtain ⟨-, rfl⟩ := slice_eq_ok hhdr2
    obtain ⟨pdat, hpdat, hdec⟩ := bind_eq_ok.1 hdec
    rw [RawDataHdr2.ofBytes_take (Nat.le_refl _)] at hdec
    have hgot := chk_of_getData0xCF (Prod.mk.inj (Except.ok.inj hdec)).1
    refine sumAt_of_payload hpdat ?_
    rw [show FrameKind.xCF.hdrLen = hdr2Size from rfl, headerSum_hdr2]
    exact hgot
  | xDF =>
    obtain ⟨hdr3, hhdr3, hdec⟩ := bind_eq_ok.1 hdec
    obtain ⟨-, rfl⟩ := slice_eq_ok hhdr3
    obtain ⟨pdat, hpdat, hdec⟩ := bind_eq_ok.1 hdec
    rw [RawDataHdr3.ofBytes_take (Nat.le_refl _)] at hdec
    have hgot := chk_of_getData0xDF (Prod.mk.inj (Except.ok.inj hdec)).1
    refine sumAt_of_payload hpdat ?_
    rw [show FrameKind.xDF.hdrLen = hdr3Size from rfl, headerSum_hdr3]
    exact hgot

/-- A segment that is taken has its sum. -/
theorem sumAt_of_segmentAt {H : Type} {L : FanLayout H} {ofBytes : List Byte → H}
    {seg : FanSegment H} (hk : k = .xC7 ∨ k = .xAA) (hsize : L.hdrSize = k.hdrLen)
    (hN : ∀ b, L.N (ofBytes b) = u16At b 2)
    (h : L.segmentAt ofBytes buf idx = .ok (some seg)) : SumAt k buf idx := by
  obtain ⟨b, hb, h⟩ := bind_eq_ok.1 h
  obtain ⟨-, rfl⟩ := slice_eq_ok hb
  obtain ⟨pdat, hpdat, h⟩ := bind_eq_ok.1 h
  obtain ⟨hin, rfl⟩ := slice_eq_ok hpdat
  have hhdr := k.hdrSize_le
  unfold hdrSize at hhdr
  have hpoints : (L.N (ofBytes ((buf.drop idx).take L.hdrSize))).toNat = pointsAt buf idx := by
    rw [hN, u16At_take (by omega)]
    rfl
  have hlen : k.pointLen = 5 := by rcases hk with rfl | rfl <;> rfl
  have hframe : (buf.drop idx).take (L.hdrSize + 5 * pointsAt buf idx + 2) =
      frameAt k buf idx := by
    rw [frameAt, FrameKind.encodedLen, hlen, hsize]
  have hchk := FanLayout.chk_of_getFanSegment (Except.ok.inj h)
  rw [hpoints, hframe, hsize] at hchk
  rw [hsize] at hin
  refine ⟨by rw [FrameKind.encodedLen, hlen]; omega, ?_⟩
  have hchkAt : chkAt k buf idx = idx + (k.hdrLen + 5 * pointsAt buf idx) := by
    rw [chkAt, hlen, Nat.add_assoc]
  rw [hchkAt, ← u16At_frameAt (k := k) (by rw [FrameKind.encodedLen, hlen]; omega), hchk,
    FrameKind.madeSum, pointsAt_frameAt]
  rcases hk with rfl | rfl <;>
    simp only [FrameKind.payloadSum, u16At_drop, byteAt_drop, ← Nat.add_assoc]

/-! ## What is delivered -/

/-- A call takes the segment `seg` of the frame at `idx`. -/
def Takes {H : Type} (L : FanLayout H) (ofBytes : List Byte → H) (as : ℕ → Handed)
    (buf : List Byte) (idx : ℕ) (seg : FanSegment H) : Prop :=
  handed buf = some (as idx) ∧ L.segmentAt ofBytes buf idx = .ok (some seg)

variable {now : ℕ} {args args' : ParseArgs}

/-- A call that returns 1 for a segment has decoded it and got a fan. -/
theorem got_of_takeSegment {H : Type} {decoded : Except Fault (Option (FanSegment H))}
    {take : Option (FanSegment H) → Except Fault (Collected FanSegs)} {n : ℕ}
    (hone : (do
      let seg ← decoded
      let r ← take seg
      let out := args.takeSegment r n
      return (if out.1 then 1 else 0, out.2)) = (.ok (1, args') : Except Fault (ℤ × ParseArgs))) :
    ∃ seg r, decoded = .ok seg ∧ take seg = .ok r ∧ r.got = true ∧ args'.dat = r.dat := by
  obtain ⟨seg, hseg, hone⟩ := bind_eq_ok.1 hone
  obtain ⟨r, hr, hone⟩ := bind_eq_ok.1 hone
  obtain ⟨hcode, rfl⟩ := Prod.mk.inj (Except.ok.inj hone)
  refine ⟨seg, r, hseg, hr, ?_, rfl⟩
  by_contra hno
  simp [ParseArgs.takeSegment, hno] at hcode

/-- After a call there is pending what was and the new segment only. -/
theorem FanLayout.mem_collect {H : Type} [DecidableEq H] {L : FanLayout H} {dat : RawData}
    {pending : List (FanSegment H)} {fanSeg s : FanSegment H}
    (hs : s ∈ (L.collect now dat pending fanSeg).pending) : s ∈ pending ∨ s = fanSeg := by
  rcases L.collect_pending now dat pending fanSeg with heq | heq
  · rw [heq] at hs
    exact mem_store hs
  · rw [heq] at hs
    cases hs

/-- `GetData0xC7` takes a segment into the `0xC7` segments of the slot. -/
theorem takeC7_some {dat : RawData} {last : FanSegs} {fanSeg : FanSegment RawDataHdr7}
    {r : Collected FanSegs} (h : takeC7 now dat last (some fanSeg) = .ok r) :
    r = (c7.collect now dat last.c7s fanSeg).map .c7 := by
  match last, h with
  | .c7 _, h => exact (Except.ok.inj h).symm
  | .aa [], h => exact (Except.ok.inj h).symm

/-- `GetData0xAA` takes a segment into the `0xAA` segments of the slot. -/
theorem takeAA_some {dat : RawData} {last : FanSegs} {fanSeg : FanSegment RawDataHdrAA}
    {r : Collected FanSegs} (h : takeAA now dat last (some fanSeg) = .ok r) :
    r = (aa.collect now dat last.aas fanSeg).map .aa := by
  match last, h with
  | .aa _, h => exact (Except.ok.inj h).symm
  | .c7 [], h => exact (Except.ok.inj h).symm

theorem handle_ne_one {m : Message} {r : ℤ × ParseArgs} (h : m.handle buf idx args = .ok r) :
    r.1 ≠ 1 := by
  cases m with
  | lmsg | cPack | readZone | writeZone =>
    obtain ⟨b, -, h⟩ := bind_eq_ok.1 h
    rw [← Except.ok.inj h]
    simp
  | eprm | sPack =>
    obtain ⟨b, -, h⟩ := bind_eq_ok.1 h
    obtain ⟨b', -, h⟩ := bind_eq_ok.1 h
    rw [← Except.ok.inj h]
    simp
  | timeSync =>
    rw [← Except.ok.inj h]
    simp

/-- A call that returns 1 has decoded a frame. -/
theorem decodeFrame_of_one (hone : tryParseRawData now buf true args = .ok (1, args')) :
    ∃ k idx, scan buf = .ok (some (.frame k), idx) ∧
      idx + k.avail (pointsAt buf idx) ≤ buf.length ∧
      decodeFrame now buf idx true args (hdrAt buf idx) k = .ok (true, args') := by
  obtain ⟨⟨stop, idx⟩, hscan, hrest⟩ := bind_eq_ok.1 hone
  match stop with
  | none => simp [giveUp] at hrest
  | some (.message m) => exact absurd rfl (handle_ne_one hrest)
  | some .status =>
    obtain ⟨flag, -, hrest⟩ := bind_eq_ok.1 hrest
    simp at hrest
  | some (.frame k) =>
    have hlt := (scanFrom_eq_stop _ _ hscan).2.1
    rw [tryParseRawData_frame now true args hscan (by unfold hdrSize; omega)] at hone
    split_ifs at hone with hin
    · obtain ⟨⟨got, args''⟩, hdec, hone⟩ := bind_eq_ok.1 hone
      obtain ⟨hcode, rfl⟩ := Prod.mk.inj (Except.ok.inj hone)
      have hgot : got = true := by
        by_contra hno
        simp [hno] at hcode
      rw [hgot] at hdec
      exact ⟨k, idx, hscan, hin, hdec⟩
    · simp [giveUp] at hone

/-! ## The two kinds of segments -/

/-- The segments of frames of kind `k` : how they are read (`L`, `ofBytes`), handed over (`as`)
and kept in the slot (`own`, `list`), and how their decoder takes one (`take`). -/
structure SegmentKind {H : Type} (k : FrameKind) (L : FanLayout H) (ofBytes : List Byte → H)
    (as : ℕ → Handed) (own : FanSegs → List (FanSegment H)) (list : List (FanSegment H) → FanSegs)
    (take : ℕ → RawData → FanSegs → Option (FanSegment H) → Except Fault (Collected FanSegs)) :
    Prop where
  segment : k = .xC7 ∨ k = .xAA
  as_kind : ∀ idx, (as idx).kind = k
  as_idx : ∀ idx, (as idx).idx = idx
  handed : ∀ {buf idx}, scan buf = .ok (some (.frame k), idx) →
    idx + k.avail (pointsAt buf idx) ≤ buf.length → handed buf = some (as idx)
  hdrSize : L.hdrSize = k.hdrLen
  N : ∀ b, L.N (ofBytes b) = u16At b 2
  call : ∀ {buf idx}, Lidar.handed buf = some (as idx) → ∀ now args,
    tryParseRawData now buf true args = do
      let seg ← L.segmentAt ofBytes buf idx
      let r ← take now args.dat args.fanSegs seg
      let out := args.takeSegment r (k.consumed idx (pointsAt buf idx))
      return (if out.1 then 1 else 0, out.2)
  take_none : ∀ now dat last, take now dat last none = .ok ⟨false, dat, none, last⟩
  take_some : ∀ {now dat last fanSeg r}, take now dat last (some fanSeg) = .ok r →
    r = (L.collect now dat (own last) fanSeg).map list

theorem segmentKind_c7 : SegmentKind .xC7 c7 .ofBytes .c7 FanSegs.c7s .c7 takeC7 where
  segment := Or.inl rfl
  as_kind _ := rfl
  as_idx _ := rfl
  handed hscan hin := by simp only [Lidar.handed, hscan, if_pos hin]
  hdrSize := rfl
  N _ := rfl
  call hh _ _ := tryParseRawData_c7 hh
  take_none _ _ _ := rfl
  take_some := takeC7_some

theorem segmentKind_aa : SegmentKind .xAA aa .ofBytes .aa FanSegs.aas .aa takeAA where
  segment := Or.inr rfl
  as_kind _ := rfl
  as_idx _ := rfl
  handed hscan hin := by simp only [Lidar.handed, hscan, if_pos hin]
  hdrSize := rfl
  N _ := rfl
  call hh _ _ := tryParseRawData_aa hh
  take_none _ _ _ := rfl
  take_some := takeAA_some

namespace SegmentKind

variable {H : Type} [DecidableEq H] {L : FanLayout H} {ofBytes : List Byte → H}
  {as : ℕ → Handed} {own : FanSegs → List (FanSegment H)}
  {list : List (FanSegment H) → FanSegs}
  {take : ℕ → RawData → FanSegs → Option (FanSegment H) → Except Fault (Collected FanSegs)}
  (kind : SegmentKind k L ofBytes as own list take)
include kind

/-- The segment that is taken is that of the frame found, which has its sum. -/
theorem sumAt {seg : FanSegment H} (h : Takes L ofBytes as buf idx seg) :
    scan buf = .ok (some (.frame k), idx) ∧ SumAt k buf idx := by
  have hscan := (handed_eq_some h.1).1
  rw [kind.as_kind, kind.as_idx] at hscan
  exact ⟨hscan, sumAt_of_segmentAt kind.segment kind.hdrSize kind.N h.2⟩

/-- A call that hands a segment frame over and returns 1 has taken its segment, and packed it
with some that were pending. -/
theorem takes_of_one (hh : Lidar.handed buf = some (as idx))
    (hone : tryParseRawData now buf true args = .ok (1, args')) :
    ∃ fanSeg seg rest, Takes L ofBytes as buf idx fanSeg ∧
      (L.store (own args.fanSegs) fanSeg).2 = seg :: rest ∧
      args'.dat = L.packFanData now seg rest := by
  rw [kind.call hh] at hone
  obtain ⟨decoded, r, hseg, hr, hgot, hdat⟩ := got_of_takeSegment hone
  cases decoded with
  | none =>
    rw [kind.take_none] at hr
    rw [← Except.ok.inj hr] at hgot
    cases hgot
  | some fanSeg =>
    obtain rfl := kind.take_some hr
    obtain ⟨seg, rest, hstore, hpack⟩ := FanLayout.collect_got hgot
    exact ⟨fanSeg, seg, rest, ⟨hh, hseg⟩, hstore, hdat.trans hpack⟩

/-- A call that hands a segment frame over leaves the slot, or what becomes of the segments of
the kind with the one it has taken. -/
theorem after_eq {c : ParseCall} (hh : Lidar.handed c.buf = some (as idx)) :
    c.after = c.args.fanSegs ∨ ∃ fanSeg, Takes L ofBytes as c.buf idx fanSeg ∧
      c.after = list (L.collect c.now c.args.dat (own c.args.fanSegs) fanSeg).pending := by
  rw [ParseCall.after]
  cases hout : c.result with
  | error e => exact Or.inl rfl
  | ok out =>
    rw [ParseCall.result, kind.call hh] at hout
    obtain ⟨decoded, hseg, hout⟩ := bind_eq_ok.1 hout
    obtain ⟨r, hr, hout⟩ := bind_eq_ok.1 hout
    have hafter : out.2.fanSegs = r.pending := by
      rw [← Except.ok.inj hout]
      rfl
    cases decoded with
    | none =>
      rw [kind.take_none] at hr
      rw [← Except.ok.inj hr] at hafter
      exact Or.inl hafter
    | some fanSeg =>
      obtain rfl := kind.take_some hr
      exact Or.inr ⟨fanSeg, ⟨hh, hseg⟩, hafter⟩

end SegmentKind

/-- A call that returns 1 has found a frame inside the buffer, with its sum unless it is a
`0x99` frame. -/
theorem sumAt_of_one (hone : tryParseRawData now buf true args = .ok (1, args')) :
    ∃ k idx, scan buf = .ok (some (.frame k), idx) ∧
      idx + k.encodedLen (pointsAt buf idx) ≤ buf.length ∧ (k ≠ .x99 → SumAt k buf idx) := by
  obtain ⟨k, idx, hscan, hin, hdec⟩ := decodeFrame_of_one hone
  refine ⟨k, idx, hscan, ?_⟩
  cases k with
  | x99 =>
    rw [FrameKind.avail_eq (by decide)] at hin
    exact ⟨hin, fun h => absurd rfl h⟩
  | xC7 =>
    have hh := segmentKind_c7.handed hscan hin
    obtain ⟨fanSeg, -, -, htakes, -⟩ := segmentKind_c7.takes_of_one hh hone
    have hsum := (segmentKind_c7.sumAt htakes).2
    exact ⟨hsum.inside, fun _ => hsum⟩
  | xAA =>
    have hh := segmentKind_aa.handed hscan hin
    obtain ⟨fanSeg, -, -, htakes, -⟩ := segmentKind_aa.takes_of_one hh hone
    have hsum := (segmentKind_aa.sumAt htakes).2
    exact ⟨hsum.inside, fun _ => hsum⟩
  | xCE | x9D | xCF | xDF =>
    have hsum := sumAt_of_decodeFrame (by decide) (by decide) (by decide) hdec
    exact ⟨hsum.inside, fun _ => hsum⟩

/-! ## Tested frames -/

/-- The sum a sender puts behind a frame. No code reads the one of a `0x99` frame, which may
be any. -/
def FrameKind.sentSum (sum99 : List Byte → U16) (f : List Byte) : FrameKind → U16
  | x99 => sum99 f
  | k => k.madeSum f

/-- The last two bytes of the frame at `idx` are the sum of its sender, and with any others
in their place the buffer is not accepted. -/
structure Tested (sum99 : List Byte → U16) (k : FrameKind) (buf : List Byte) (idx : ℕ)
    (accepts : List Byte → Prop) : Prop where
  sum : u16At (frameAt k buf idx) ((frameAt k buf idx).length - 2) =
    k.sentSum sum99 (frameAt k buf idx)
  other : ∀ x ≠ u16At buf (chkAt k buf idx), ¬accepts (putU16 buf (chkAt k buf idx) x)

theorem u16At_frameAt_last (hin : idx + k.encodedLen (pointsAt buf idx) ≤ buf.length) :
    u16At (frameAt k buf idx) ((frameAt k buf idx).length - 2) = u16At buf (chkAt k buf idx) := by
  have hlen : (frameAt k buf idx).length = k.encodedLen (pointsAt buf idx) := by
    rw [frameAt, List.length_take, List.length_drop]
    omega
  have hoff : k.encodedLen (pointsAt buf idx) - 2 =
      k.hdrLen + k.pointLen * pointsAt buf idx := by
    rw [FrameKind.encodedLen, Nat.add_sub_cancel]
  rw [hlen, hoff, u16At_frameAt (by rw [FrameKind.encodedLen]; omega), chkAt, Nat.add_assoc]

/-- A frame that is tested before a buffer is accepted. -/
theorem SumAt.tested {accepts : List Byte → Prop} (h : SumAt k buf idx) (h99 : k ≠ .x99)
    (hscan : scan buf = .ok (some (.frame k), idx))
    (haccepts : ∀ buf', accepts buf' → ∃ k' idx', scan buf' = .ok (some (.frame k'), idx') ∧
      (k' ≠ .x99 → SumAt k' buf' idx')) (sum99 : List Byte → U16) :
    Tested sum99 k buf idx accepts := by
  have hsent : k.sentSum sum99 (frameAt k buf idx) = k.madeSum (frameAt k buf idx) := by
    cases k <;> first | contradiction | rfl
  refine ⟨(u16At_frameAt_last h.inside).trans (h.sum.trans hsent.symm), fun x hx hacc => ?_⟩
  have hagree := agree_putU16 x (chkAt_add_two_le h.inside)
  have hscan' := hagree.scan_eq hscan idx_add_six_le_chkAt fun hk => absurd hk h99
  obtain ⟨k', idx', hfound, hsum⟩ := haccepts _ hacc
  rw [hscan'] at hfound
  obtain ⟨hstop, rfl⟩ := Prod.mk.inj (Except.ok.inj hfound)
  cases hstop
  exact h.putU16 hx (hsum h99)

/-- A `0x99` frame is accepted with any checksum. -/
theorem accepts_x99 (hscan : scan buf = .ok (some (.frame .x99), idx))
    (hin : idx + FrameKind.x99.encodedLen (pointsAt buf idx) ≤ buf.length) (x : U16)
    (now : ℕ) (args : ParseArgs) : ∃ args',
      tryParseRawData now (putU16 buf (chkAt .x99 buf idx) x) true args = .ok (1, args') := by
  have hagree := agree_putU16 x (chkAt_add_two_le hin)
  have hoff : idx + 8 ≤ chkAt .x99 buf idx := by
    simp only [chkAt, FrameKind.hdrLen, hdr99Size]
    omega
  have hscan' := hagree.scan_eq hscan (by omega) fun _ => hoff
  have hpoints := hagree.pointsAt_eq (p := idx) (by omega)
  have hin' : idx + FrameKind.x99.encodedLen
      (pointsAt (putU16 buf (chkAt .x99 buf idx) x) idx) ≤
        (putU16 buf (chkAt .x99 buf idx) x).length := by
    rw [hpoints, hagree.length]
    exact hin
  simp only [FrameKind.encodedLen, FrameKind.hdrLen, FrameKind.pointLen, pointsAt] at hin'
  have hhdr : hdrSize ≤ hdr99Size := by decide
  rw [tryParseRawData_frame now true args hscan' (by omega),
    if_pos (by simp only [FrameKind.avail, pointsAt]; omega), decodeFrame,
    slice_of_le (by omega), ok_bind, slice_of_le (by omega)]
  exact ⟨_, rfl⟩

/-! ## Runs -/

/-- The fan is packed from segments that calls have taken, each from a tested frame. -/
def PackedFrom {H : Type} (sum99 : List Byte → U16) (L : FanLayout H) (ofBytes : List Byte → H)
    (as : ℕ → Handed) (calls : List ParseCall) (dat : RawData) : Prop :=
  ∃ now seg rest, dat = L.packFanData now seg rest ∧ ∀ s ∈ seg :: rest, ∃ d ∈ calls, ∃ idx,
    Takes L ofBytes as d.buf idx s ∧ Tested sum99 (as idx).kind d.buf idx fun buf' =>
      ∃ idx' s', Takes L ofBytes as buf' idx' s'

/-- The frame that the call `c` has decoded is tested, and so are the frames of all segments
of a fan it delivers, `pre` being the calls before. -/
def ParseCall.DeliversTested (sum99 : List Byte → U16) (pre : List ParseCall) (c : ParseCall)
    (args' : ParseArgs) : Prop :=
  ∃ k idx, scan c.buf = .ok (some (.frame k), idx) ∧
    Tested sum99 k c.buf idx (fun buf' => ∃ args'',
      tryParseRawData c.now buf' true c.args = .ok (1, args'')) ∧
    (k = .xC7 → PackedFrom sum99 c7 .ofBytes .c7 (pre ++ [c]) args'.dat) ∧
    (k = .xAA → PackedFrom sum99 aa .ofBytes .aa (pre ++ [c]) args'.dat)

/-- After a call there are the segments that were pending and one that it has taken. -/
theorem mem_after (c : ParseCall) :
    (∀ s ∈ c.after.c7s, s ∈ c.args.fanSegs.c7s ∨ ∃ idx, Takes c7 .ofBytes .c7 c.buf idx s) ∧
      ∀ s ∈ c.after.aas, s ∈ c.args.fanSegs.aas ∨ ∃ idx, Takes aa .ofBytes .aa c.buf idx s := by
  have hstay : c.after = c.args.fanSegs → (∀ s ∈ c.after.c7s, s ∈ c.args.fanSegs.c7s ∨
      ∃ idx, Takes c7 .ofBytes .c7 c.buf idx s) ∧ ∀ s ∈ c.after.aas, s ∈ c.args.fanSegs.aas ∨
        ∃ idx, Takes aa .ofBytes .aa c.buf idx s := by
    intro hafter
    rw [hafter]
    exact ⟨fun s hs => Or.inl hs, fun s hs => Or.inl hs⟩
  cases hh : handed c.buf with
  | none =>
    have hleaves : LeavesSlot c.args.fanSegs c.result := leavesSlot_tryParseRawData hh
    refine hstay ?_
    rw [ParseCall.after]
    cases hr : c.result with
    | error e => rfl
    | ok r => exact hleaves.2 r hr
  | some found =>
    cases found with
    | c7 idx =>
      rcases segmentKind_c7.after_eq hh with hafter | ⟨fanSeg, htakes, hafter⟩
      · exact hstay hafter
      · rw [hafter]
        refine ⟨fun s hs => (FanLayout.mem_collect hs).imp_right ?_, by simp [FanSegs.aas]⟩
        rintro rfl
        exact ⟨idx, htakes⟩
    | aa idx =>
      rcases segmentKind_aa.after_eq hh with hafter | ⟨fanSeg, htakes, hafter⟩
      · exact hstay hafter
      · rw [hafter]
        refine ⟨by simp [FanSegs.c7s], fun s hs => (FanLayout.mem_collect hs).imp_right ?_⟩
        rintro rfl
        exact ⟨idx, htakes⟩

/-- After calls made one after the other there are segments that the first one found and
segments that they have taken. -/
theorem Threaded.mem {H : Type} {L : FanLayout H} {ofBytes : List Byte → H} {as : ℕ → Handed}
    {list : FanSegs → List (FanSegment H)}
    (hstep : ∀ c : ParseCall, ∀ s ∈ list c.after,
      s ∈ list c.args.fanSegs ∨ ∃ idx, Takes L ofBytes as c.buf idx s)
    {cs : List ParseCall} {segs segs' : FanSegs} (h : Threaded segs cs segs') :
    ∀ s ∈ list segs', s ∈ list segs ∨ ∃ d ∈ cs, ∃ idx, Takes L ofBytes as d.buf idx s := by
  induction cs generalizing segs with
  | nil =>
    obtain rfl : segs' = segs := h
    exact fun s hs => Or.inl hs
  | cons c cs ih =>
    obtain ⟨rfl, hcs⟩ := h
    intro s hs
    rcases ih hcs s hs with hs | ⟨d, hd, htakes⟩
    · exact (hstep c s hs).imp_right fun htakes => ⟨c, List.mem_cons_self, htakes⟩
    · exact Or.inr ⟨d, List.mem_cons_of_mem _ hd, htakes⟩

theorem Threaded.of_append {cs ds : List ParseCall} {segs segs' : FanSegs}
    (h : Threaded segs (cs ++ ds) segs') :
    ∃ mid, Threaded segs cs mid ∧ Threaded mid ds segs' := by
  induction cs generalizing segs with
  | nil => exact ⟨segs, rfl, h⟩
  | cons c cs ih =>
    obtain ⟨hc, hcs⟩ := h
    obtain ⟨mid, hmid, hds⟩ := ih hcs
    exact ⟨mid, ⟨hc, hmid⟩, hds⟩

namespace SegmentKind

variable {H : Type} [DecidableEq H] {L : FanLayout H} {ofBytes : List Byte → H}
  {as : ℕ → Handed} {own : FanSegs → List (FanSegment H)}
  {list : List (FanSegment H) → FanSegs}
  {take : ℕ → RawData → FanSegs → Option (FanSegment H) → Except Fault (Collected FanSegs)}
  (kind : SegmentKind k L ofBytes as own list take)
include kind

/-- The frame of a segment that is taken is tested. -/
theorem tested {seg : FanSegment H} (h : Takes L ofBytes as buf idx seg)
    (sum99 : List Byte → U16) :
    Tested sum99 k buf idx fun buf' => ∃ idx' s', Takes L ofBytes as buf' idx' s' := by
  have h99 : k ≠ .x99 := by rcases kind.segment with rfl | rfl <;> decide
  obtain ⟨hscan, hsum⟩ := kind.sumAt h
  refine hsum.tested h99 hscan ?_ sum99
  rintro buf' ⟨idx', s', h'⟩
  obtain ⟨hscan', hsum'⟩ := kind.sumAt h'
  exact ⟨_, _, hscan', fun _ => hsum'⟩

/-- A fan is packed from tested frames if those of the pending segments are. -/
theorem packedFrom (sum99 : List Byte → U16) {pre : List ParseCall} {c : ParseCall}
    (hpending : ∀ s ∈ own c.args.fanSegs, ∃ d ∈ pre, ∃ idx, Takes L ofBytes as d.buf idx s)
    (hh : Lidar.handed c.buf = some (as idx)) (hone : c.result = .ok (1, args')) :
    PackedFrom sum99 L ofBytes as (pre ++ [c]) args'.dat := by
  obtain ⟨fanSeg, seg, rest, htakes, hstore, hdat⟩ := kind.takes_of_one hh hone
  refine ⟨c.now, seg, rest, hdat, fun s hs => ?_⟩
  rw [← hstore] at hs
  simp only [kind.as_kind]
  rcases FanLayout.mem_store hs with hs | rfl
  · obtain ⟨d, hd, idx', h⟩ := hpending s hs
    exact ⟨d, List.mem_append_left _ hd, idx', h, kind.tested h sum99⟩
  · exact ⟨c, by simp, idx, htakes, kind.tested htakes sum99⟩

end SegmentKind

/-- In a run from an empty slot, the frame of a call that returns 1 is tested, and the frames
of all segments it delivers are, exactly if it is no `0x99` frame. -/
theorem deliversTested_iff (sum99 : List Byte → U16) {pre post : List ParseCall} {c : ParseCall}
    {segs : FanSegs} {args' : ParseArgs} (hrun : Threaded (.c7 []) (pre ++ c :: post) segs)
    (hone : c.result = .ok (1, args')) :
    c.DeliversTested sum99 pre args' ↔ ¬∃ idx, scan c.buf = .ok (some (.frame .x99), idx) := by
  obtain ⟨mid, hpre, rfl, -⟩ := hrun.of_append
  have hc7s : ∀ s ∈ c.args.fanSegs.c7s, ∃ d ∈ pre, ∃ idx, Takes c7 .ofBytes .c7 d.buf idx s :=
    fun s hs => (hpre.mem (fun d => (mem_after d).1) s hs).resolve_left (by simp [FanSegs.c7s])
  have haas : ∀ s ∈ c.args.fanSegs.aas, ∃ d ∈ pre, ∃ idx, Takes aa .ofBytes .aa d.buf idx s :=
    fun s hs => (hpre.mem (fun d => (mem_after d).2) s hs).resolve_left (by simp [FanSegs.aas])
  obtain ⟨k, idx, hscan, hin, hsum⟩ := sumAt_of_one hone
  have havail : idx + k.avail (pointsAt c.buf idx) ≤ c.buf.length :=
    (Nat.add_le_add_left (k.avail_le _) _).trans hin
  constructor
  · rintro ⟨k', idx', hscan', htested, -⟩ ⟨idx'', h99⟩
    rw [hscan] at hscan' h99
    cases hscan'
    cases h99
    have hother : u16At c.buf (chkAt .x99 c.buf idx) + 1 ≠ u16At c.buf (chkAt .x99 c.buf idx) := by
      simp
    exact htested.other _ hother (accepts_x99 hscan hin _ _ _)
  · intro h99
    have hk : k ≠ .x99 := by
      rintro rfl
      exact h99 ⟨idx, hscan⟩
    refine ⟨k, idx, hscan, ?_, ?_, ?_⟩
    · refine (hsum hk).tested hk hscan ?_ sum99
      rintro buf' ⟨args'', hone'⟩
      obtain ⟨k', idx', hscan', -, hsum'⟩ := sumAt_of_one hone'
      exact ⟨k', idx', hscan', hsum'⟩
    · rintro rfl
      exact segmentKind_c7.packedFrom sum99 hc7s (segmentKind_c7.handed hscan havail) hone
    · rintro rfl
      exact segmentKind_aa.packedFrom sum99 haas (segmentKind_aa.handed hscan havail) hone

/-- The call for the first segment of a fan of two points. -/
def firstCall : ParseCall where
  now := 0
  buf := twoPointFrame 0 1000 0 0x2728
  args := .fresh

/-- The call for the second one. -/
def secondCall : ParseCall where
  now := 0
  buf := twoPointFrame 1 2000 4500 0x3ca5
  args := { ParseArgs.fresh with fanSegs := .c7 [twoPointSegment 0 1000 0] }

/-- The second call delivers the fan, and both frames are tested. -/
theorem deliversTested_iff_two :
    ∃ args', secondCall.result = .ok (1, args') ∧
      (secondCall.DeliversTested (fun _ => 0) [firstCall] args' ↔
        ¬∃ idx, scan secondCall.buf = .ok (some (.frame .x99), idx)) := by
  have hfirst : secondCall.args.fanSegs = firstCall.after := by decide
  have hsecond : .c7 [] = secondCall.after := by decide
  have hrun : Threaded (.c7 []) ([firstCall] ++ secondCall :: []) (.c7 []) :=
    ⟨rfl, hfirst, hsecond⟩
  exact ⟨_, rfl, deliversTested_iff (fun _ => 0) hrun rfl⟩

/-- A `0x99` frame without points. -/
def frame99 : List Byte :=
  [0x99, 0xfa, 0, 0, 0, 0, 1, 0] ++ List.replicate 26 0

/-- It is delivered with any checksum, so that it carries no sum that has been tested. -/
theorem not_deliversTested :
    ¬∃ sum99, ∀ (pre post : List ParseCall) (c : ParseCall) (segs : FanSegs) (args' : ParseArgs),
      Threaded (.c7 []) (pre ++ c :: post) segs → c.result = .ok (1, args') →
        c.DeliversTested sum99 pre args' := by
  rintro ⟨sum99, h⟩
  have hscan : scan frame99 = .ok (some (.frame .x99), 0) := by decide
  obtain ⟨k, idx, hfound, htested, -⟩ := h [] [] ⟨0, frame99, .fresh⟩ _ _ ⟨rfl, rfl⟩ rfl
  rw [hscan] at hfound
  cases hfound
  exact htested.other 1 (by decide) (accepts_x99 hscan (by decide) _ _ _)

end Mastiff.Lidar

import Mathlib.Tactic.Abel
import Mastiff.LidarFraming

/-!
# Frames as they are sent

`ValidFrame k f` : the bytes `f` are a whole frame of kind `k` as the lidar sends it, with
a right checksum. `tryParseRawData_valid` says what one call of `TryParseRawData` does to
a buffer that starts with a valid frame.

The checksum of a frame is the sum of its header's words but the first, and of what its
points add : words for the distances and angles, bytes for the confidences and energies.
-/

set_option linter.unusedSectionVars false

open Memory Bytes

namespace Mastiff.Lidar

/-- What `n` points of kind `k` add to the checksum. The checksum of `0x99` is not read
by any code. -/
def FrameKind.payloadSum (pdat : List Byte) (n : ℕ) : FrameKind → U16
  | x9D => ((List.range n).map fun i => u16At pdat (2 * i)).sum
  | xCE | xCF | xDF => sum3 pdat n
  | xC7 | xAA => ((List.range n).map fun i =>
      u16At pdat (2 * i) + u16At pdat (2 * n + 2 * i) +
        (byteAt pdat (4 * n + i)).setWidth 16).sum
  | x99 => 0

/-- The bytes are a whole frame with a right checksum. -/
structure ValidFrame (k : FrameKind) (f : List Byte) : Prop where
  head : byteAt f 0 = k.byte ∧ byteAt f 1 = 0xfa
  length : f.length = k.encodedLen (pointsAt f 0)
  points : pointsAt f 0 ≤ maxPoints
  angle : k ≠ .xC7 → (hdrAt f 0).angle.toNat % 90 = 0
  checksum : u16At f (f.length - 2) =
    headerSum k.hdrLen f + k.payloadSum (f.drop k.hdrLen) (pointsAt f 0)

instance (k : FrameKind) (f : List Byte) : Decidable (ValidFrame k f) :=
  decidable_of_iff ((byteAt f 0 = k.byte ∧ byteAt f 1 = 0xfa) ∧
      f.length = k.encodedLen (pointsAt f 0) ∧ pointsAt f 0 ≤ maxPoints ∧
      (k ≠ .xC7 → (hdrAt f 0).angle.toNat % 90 = 0) ∧
      u16At f (f.length - 2) =
        headerSum k.hdrLen f + k.payloadSum (f.drop k.hdrLen) (pointsAt f 0))
    ⟨fun ⟨h₁, h₂, h₃, h₄, h₅⟩ => ⟨h₁, h₂, h₃, h₄, h₅⟩,
      fun ⟨h₁, h₂, h₃, h₄, h₅⟩ => ⟨h₁, h₂, h₃, h₄, h₅⟩⟩

variable {k : FrameKind} {f rest : List Byte}

theorem FrameKind.hdrSize_le (k : FrameKind) : hdrSize ≤ k.hdrLen := by
  cases k <;> decide

theorem ValidFrame.hdrLen_add_two_le (h : ValidFrame k f) : k.hdrLen + 2 ≤ f.length := by
  rw [h.length, FrameKind.encodedLen]
  omega

theorem ValidFrame.hdrAt_append (h : ValidFrame k f) (rest : List Byte) :
    hdrAt (f ++ rest) 0 = hdrAt f 0 := by
  have hlen := h.hdrLen_add_two_le
  have hhdr := k.hdrSize_le
  unfold hdrSize at hhdr
  simp only [hdrAt, List.drop_zero, RawDataHdr.ofBytes]
  rw [u16At_append (by omega), u16At_append (by omega), u16At_append (by omega)]

/-! ## The head of a valid frame -/

/-- The walk stops at once at a valid frame, if the loop is entered. -/
theorem ValidFrame.scan (h : ValidFrame k f) (hk : k ≠ .x99) (hlen : 12 < (f ++ rest).length) :
    scan (f ++ rest) = .ok (some (.frame k), 0) := by
  have hf := h.hdrLen_add_two_le
  have hhdr := k.hdrSize_le
  unfold hdrSize at hhdr
  have hhead : headAt (f ++ rest) 0 = some k := by
    refine headAt_of_byte ?_ ?_
    · rw [byteAt_append (by omega), h.head.1]
    · rw [byteAt_append (by omega), h.head.2]
  have hok : headOk (f ++ rest) 0 k = true := by
    have hpoints := h.points
    have hangle := h.angle
    unfold pointsAt at hpoints
    cases k <;> simp [headOk, pointsAt, h.hdrAt_append, hpoints] <;> simp_all
  have hlook : lookAt (f ++ rest) 0 = .stop (.frame k) := by
    rw [lookAt_of_head hhead, if_pos hok]
  rcases look_cases (by omega) with ⟨hread, -⟩ | ⟨h99, -, -⟩
  · rw [Lidar.scan, scanFrom_of_lt (by omega) (by omega), hread, hlook]
    rfl
  · rw [hhead] at h99
    exact absurd (Option.some.inj h99) hk

/-! ## The checksum of a valid frame -/

/-- The checksum stands after the points. -/
theorem ValidFrame.chk (h : ValidFrame k f) :
    u16At (f.drop k.hdrLen) (k.pointLen * pointsAt f 0) =
      headerSum k.hdrLen f + k.payloadSum (f.drop k.hdrLen) (pointsAt f 0) := by
  have hoff : f.length - 2 = k.hdrLen + k.pointLen * pointsAt f 0 := by
    rw [h.length, FrameKind.encodedLen]
    omega
  rw [u16At_drop, ← hoff, h.checksum]

theorem headerSum_hdr (f : List Byte) : headerSum hdrSize f = u16At f 4 + u16At f 2 := by
  simp only [headerSum, hdrSize, List.range_succ]
  simp
  abel

theorem headerSum_hdr2 (f : List Byte) :
    headerSum hdr2Size f = u16At f 4 + u16At f 2 + u16At f 6 := by
  simp only [headerSum, hdr2Size, List.range_succ]
  simp
  abel

theorem headerSum_hdr3 (f : List Byte) :
    headerSum hdr3Size f = u16At f 4 + u16At f 2 + u16At f 6 + u16At f 8 + u16At f 10 +
      u16At f 12 + u16At f 14 := by
  simp only [headerSum, hdr3Size, List.range_succ]
  simp
  abel

/-! ## Decoding a valid frame -/

/-- A decoder does not see what follows the frame. -/
theorem decodeFrame_append (now : ℕ) (withChk : Bool) (args : ParseArgs) {hdr : RawDataHdr}
    (h : k.encodedLen hdr.N.toNat ≤ f.length) :
    decodeFrame now (f ++ rest) 0 withChk args hdr k = decodeFrame now f 0 withChk args hdr k := by
  unfold FrameKind.encodedLen at h
  cases k with
  | xCE =>
    simp only [FrameKind.hdrLen, FrameKind.pointLen] at h
    rw [decodeFrame, decodeFrame, slice_append (by omega)]
  | x9D | xCF | xDF | xC7 | x99 | xAA =>
    simp only [FrameKind.hdrLen, FrameKind.pointLen] at h
    rw [decodeFrame, decodeFrame, slice_append (by omega), slice_append (by omega)]

section Accept

variable {pdat : List Byte} {withChk : Bool} {dat : RawData}

theorem getData0xCE_got {hdr : RawDataHdr} {span : ℕ} (h : u16At pdat (3 * hdr.N.toNat) =
    hdr.angle + hdr.N + sum3 pdat hdr.N.toNat) :
    (getData0xCE hdr pdat span withChk dat).got = true := by
  simp [getData0xCE, h]

theorem getData0xCF_got {hdr : RawDataHdr2} (h : u16At pdat (3 * hdr.N.toNat) =
    hdr.angle + hdr.N + hdr.span + sum3 pdat hdr.N.toNat) :
    (getData0xCF hdr pdat withChk dat).got = true := by
  simp [getData0xCF, h]

theorem getData0xDF_got {hdr : RawDataHdr3} (h : u16At pdat (3 * hdr.N.toNat) =
    hdr.angle + hdr.N + hdr.span + hdr.fbase + hdr.first + hdr.last + hdr.fend +
      sum3 pdat hdr.N.toNat) :
    (getData0xDF hdr pdat withChk dat).got = true := by
  simp [getData0xDF, h]

theorem getData0x9D_got {hdr : RawDataHdr2} (h : u16At pdat (2 * hdr.N.toNat) =
    hdr.angle + hdr.N + hdr.span +
      ((List.range hdr.N.toNat).map fun i => u16At pdat (2 * i)).sum) :
    (getData0x9D hdr pdat withChk dat).got = true := by
  simp [getData0x9D, h]

end Accept

theorem RawDataHdr2.ofBytes_take {l : List Byte} {n : ℕ} (h : hdr2Size ≤ n) :
    RawDataHdr2.ofBytes (l.take n) = RawDataHdr2.ofBytes l := by
  unfold hdr2Size at h
  simp only [RawDataHdr2.ofBytes]
  rw [u16At_take (by omega), u16At_take (by omega), u16At_take (by omega), u16At_take (by omega)]

theorem RawDataHdr3.ofBytes_take {l : List Byte} {n : ℕ} (h : hdr3Size ≤ n) :
    RawDataHdr3.ofBytes (l.take n) = RawDataHdr3.ofBytes l := by
  unfold hdr3Size at h
  simp only [RawDataHdr3.ofBytes]
  rw [u16At_take (by omega), u16At_take (by omega), u16At_take (by omega), u16At_take (by omega),
    u16At_take (by omega), u16At_take (by omega), u16At_take (by omega), u16At_take (by omega)]

/-- A valid frame is decoded, and its checksum accepted. -/
theorem ValidFrame.decodeFrame_got (h : ValidFrame k f) (h99 : k ≠ .x99) (hC7 : k ≠ .xC7)
    (hAA : k ≠ .xAA) (now : ℕ) (args : ParseArgs) :
    ∃ args', decodeFrame now f 0 true args (hdrAt f 0) k = .ok (true, args') := by
  have hlen := h.length
  have hchk := h.chk
  unfold FrameKind.encodedLen at hlen
  cases k with
  | xCE =>
    simp only [FrameKind.hdrLen, FrameKind.pointLen, FrameKind.payloadSum] at hlen hchk
    rw [headerSum_hdr] at hchk
    rw [decodeFrame, slice_drop (by rw [hlen]; unfold pointsAt; omega), ok_bind]
    exact ⟨_, congrArg Except.ok (Prod.ext (getData0xCE_got hchk) rfl)⟩
  | x9D =>
    simp only [FrameKind.hdrLen, FrameKind.pointLen, FrameKind.payloadSum] at hlen hchk
    rw [headerSum_hdr2] at hchk
    rw [decodeFrame, slice_of_le (by rw [hlen]; omega), ok_bind,
      slice_drop (by rw [hlen]; unfold pointsAt; omega), ok_bind,
      RawDataHdr2.ofBytes_take (Nat.le_refl _)]
    exact ⟨_, congrArg Except.ok (Prod.ext (getData0x9D_got hchk) rfl)⟩
  | xCF =>
    simp only [FrameKind.hdrLen, FrameKind.pointLen, FrameKind.payloadSum] at hlen hchk
    rw [headerSum_hdr2] at hchk
    rw [decodeFrame, slice_of_le (by rw [hlen]; omega), ok_bind,
      slice_drop (by rw [hlen]; unfold pointsAt; omega), ok_bind,
      RawDataHdr2.ofBytes_take (Nat.le_refl _)]
    exact ⟨_, congrArg Except.ok (Prod.ext (getData0xCF_got hchk) rfl)⟩
  | xDF =>
    simp only [FrameKind.hdrLen, FrameKind.pointLen, FrameKind.payloadSum] at hlen hchk
    rw [headerSum_hdr3] at hchk
    rw [decodeFrame, slice_of_le (by rw [hlen]; omega), ok_bind,
      slice_drop (by rw [hlen]; unfold pointsAt; omega), ok_bind,
      RawDataHdr3.ofBytes_take (Nat.le_refl _)]
    exact ⟨_, congrArg Except.ok (Prod.ext (getData0xDF_got hchk) rfl)⟩
  | x99 | xC7 | xAA => contradiction

/-- A valid `0xC7` frame carries a segment. -/
theorem ValidFrame.carries (h : ValidFrame .xC7 f) : ∃ seg, Carries f seg := by
  have hchk := h.chk
  simp only [FrameKind.hdrLen, FrameKind.pointLen, FrameKind.payloadSum, u16At_drop, byteAt_drop,
    ← Nat.add_assoc] at hchk
  unfold Carries FanLayout.getFanSegment
  exact ⟨_, if_neg (not_not.2 hchk)⟩

/-! ## One call on a valid frame -/

/-- On a buffer that starts with a valid frame of one of five kinds and enters the loop, a
call that returns consumes exactly the frame. It returns 1, or for a segment of a fan
whether the fan is complete. -/
theorem tryParseRawData_valid (h : ValidFrame k f) (h99 : k ≠ .x99) (hAA : k ≠ .xAA)
    (hlen : 12 < (f ++ rest).length) {now : ℕ} {args : ParseArgs} {out : ℤ × ParseArgs}
    (hrun : tryParseRawData now (f ++ rest) true args = .ok out) :
    out.2.consume = f.length ∧ (k ≠ .xC7 → out.1 = 1) ∧ (out.1 = 0 ∨ out.1 = 1) := by
  have hf := h.hdrLen_add_two_le
  have hhdr := k.hdrSize_le
  have hpoints : pointsAt (f ++ rest) 0 = pointsAt f 0 := by rw [pointsAt, h.hdrAt_append, pointsAt]
  have hfull : k.encodedLen (hdrAt f 0).N.toNat ≤ f.length := h.length.ge
  have hin : 0 + k.avail (pointsAt (f ++ rest) 0) ≤ (f ++ rest).length := by
    have := h.length
    rw [Nat.zero_add, hpoints, FrameKind.avail_eq hAA, List.length_append]
    omega
  rw [tryParseRawData_frame now true args (h.scan h99 hlen) (by simp; omega), if_pos hin,
    h.hdrAt_append, decodeFrame_append now true args hfull] at hrun
  obtain ⟨⟨got, args'⟩, hdec, hout⟩ := bind_eq_ok.1 hrun
  rw [← Except.ok.inj hout]
  have hconsume : args'.consume = k.consumed 0 (pointsAt f 0) := by
    have hwhole : 0 + k.encodedLen (hdrAt f 0).N.toNat ≤ f.length := by
      rw [Nat.zero_add]
      exact hfull
    rcases decodeFrame_full now true args hwhole with ⟨got', args'', hdec', hargs⟩ | ⟨herr, -⟩
    · rw [hdec] at hdec'
      rw [(Prod.mk.inj (Except.ok.inj hdec')).2]
      exact hargs
    · rw [hdec] at herr
      cases herr
  refine ⟨?_, ?_, ?_⟩
  · have hend := (k.consumed_eq_iff 0 (pointsAt f 0)).2 ⟨fun _ => rfl, fun hk => absurd hk hAA⟩
    rw [hconsume, hend, h.length, Nat.zero_add]
  · intro hC7
    obtain ⟨args'', hgot⟩ := h.decodeFrame_got h99 hC7 hAA now args
    rw [hdec] at hgot
    rw [(Prod.mk.inj (Except.ok.inj hgot)).1]
    rfl
  · cases got
    · exact Or.inl rfl
    · exact Or.inr rfl

/-- On a buffer too short to enter the loop a call consumes nothing. -/
theorem tryParseRawData_short {buf : List Byte} (hlen : buf.length ≤ 12) (now : ℕ)
    (withChk : Bool) (args : ParseArgs) :
    tryParseRawData now buf withChk args = .ok (-1, args) := by
  rw [tryParseRawData, scan, scanFrom_of_le (by omega)]
  rfl

end Mastiff.Lidar

import Mathlib.Algebra.Group.Nat.Even
import Mastiff.LineLaserSync

/-!
# The points of a line-laser frame

`LineLaserParser::ParseSigleFrame` turns the payload of a scan frame into a point cloud. Its
loop stands two bytes further each time and goes on up to the checksum, so with an odd
`data_len` the last point is made of the last byte of the payload and of the checksum.
`fromPayload_iff` : the points are the words inside the payload exactly when `data_len` is
even or below 3.

`AngTransform` and the conversion to Cartesian metres are floating point. They are the
parameter `place` of a distance and the number of its point.
-/

set_option linter.unusedSectionVars false

open Memory Bytes Framing

namespace Mastiff.LineLaser

open ParserBase

variable {α : Type}

/-! ## Parsing a scan frame -/

/-- The fields of the message `PointCloud2` that the parser sets, without the time stamp.
The three `float`s of a point are one element of `data`. -/
structure PointCloud2 (α : Type) where
  seq : U32
  frameId : String := "map"
  width : ℕ
  height : ℕ := 1
  pointStep : ℕ := 12
  rowStep : ℕ
  isDense : Bool := true
  isBigendian : Bool := false
  fields : List (String × ℕ) := [("x", 0), ("y", 4), ("z", 8)]
  data : List α

/-- The members that `ParseSigleFrame` uses. -/
structure LineLaserParser (α : Type) where
  haveParams : Bool := false
  frameSeq : BitVec 64 := 0
  frameProcessorSp : Option (PointCloud2 α → ℤ)

/-- What a call of `ParseSigleFrame` leaves, the message it makes, and what it returns, `none`
where `AFATAL` ends the process. -/
structure Parsed (α : Type) where
  parser : LineLaserParser α
  ret : Option ℤ
  response : Option (PointCloud2 α)

/-- The points of the message, none if no message is made. -/
def Parsed.points (r : Parsed α) : List α :=
  (r.response.map PointCloud2.data).getD []

/-- The loop over the points, from the place `i` on. -/
def pointLoop (place : U16 → ℕ → α) (data : List Byte) (len i pointIdx : ℕ) :
    Except Fault (List α) :=
  if _h : i < len - 1 then do
    let point ← readWord16 data i
    let distance := point &&& 0x01FF
    let rest ← pointLoop place data len (i + 2) (pointIdx + 1)
    return place distance pointIdx :: rest
  else
    .ok []
termination_by len - i

/-- `ParseSigleFrame(data, len)`. -/
def parseSigleFrame (place : U16 → ℕ → α) (p : LineLaserParser α) (data : List Byte) (len : ℕ) :
    Except Fault (Parsed α) :=
  if !p.haveParams then .ok ⟨p, some (-1), none⟩
  else if !checkCrc data len then .ok ⟨p, some (-1), none⟩
  else do
    let pointCloud ← pointLoop place data len 10 0
    if pointCloud.length = 0 then
      return ⟨p, some 0, none⟩
    else
      let response : PointCloud2 α :=
        { seq := p.frameSeq.setWidth 32
          width := pointCloud.length
          rowStep := pointCloud.length * 12
          data := pointCloud }
      match p.frameProcessorSp with
      | some frameProcessor => return ⟨p, some (frameProcessor response), some response⟩
      | none => return ⟨p, none, some response⟩

/-! ## The loop -/

/-- The loop makes a point of every second place from `i` on, as long as a word from there
ends before the place `len`. -/
theorem pointLoop_eq {place : U16 → ℕ → α} {data : List Byte} {len i pointIdx : ℕ}
    (h : ∀ k < (len - i) / 2, i + 2 * k + 1 < data.length) :
    pointLoop place data len i pointIdx =
      .ok ((List.range ((len - i) / 2)).map fun k =>
        place (u16At data (i + 2 * k) &&& 0x01FF) (pointIdx + k)) := by
  rw [pointLoop]
  split_ifs with hi
  · obtain ⟨n, hn⟩ : ∃ n, (len - i) / 2 = n + 1 := ⟨(len - i) / 2 - 1, by omega⟩
    have hrest : (len - (i + 2)) / 2 = n := by omega
    have hread : readWord16 data i = .ok (u16At data i) := by
      have hfirst := h 0 (by omega)
      rw [readWord16, readAt_eq_byteAt (by omega), ok_bind, readAt_eq_byteAt (by omega)]
      rfl
    have ih : pointLoop place data len (i + 2) (pointIdx + 1) = _ :=
      pointLoop_eq fun k hk => by
        have hnext := h (k + 1) (by omega)
        omega
    rw [hread, ok_bind, ih, hrest, hn, List.range_succ_eq_map, List.map_cons, List.map_map]
    refine congrArg Except.ok (congrArg₂ List.cons rfl (List.map_congr_left fun k _ => ?_))
    have hplace : i + 2 + 2 * k = i + 2 * (k + 1) := by omega
    have hidx : pointIdx + 1 + k = pointIdx + (k + 1) := by omega
    rw [Function.comp_apply, hplace, hidx]
  · have hnone : (len - i) / 2 = 0 := by omega
    rw [hnone]
    rfl
termination_by len - i

/-! ## Points of the payload -/

/-- `data_len` of the `GSHeaderInfo`. -/
def dataLen (f : List Byte) : ℕ :=
  (u16At f 6).toNat

/-- The points are those of the words at the places 10, 12, … that lie inside the payload,
which ends before the last byte of the frame, and they are read without that byte. -/
structure FromPayload (place : U16 → ℕ → α) (f : List Byte) (points : List α) : Prop where
  words : ∀ k, points[k]? =
    if 10 + 2 * k + 1 ≤ f.length - 2 then some (place (u16At f (10 + 2 * k) &&& 0x01FF) k) else none
  count : points.length = (dataLen f - 2) / 2
  inside : pointLoop place f.dropLast f.length 10 0 = .ok points

variable {f : List Byte}

theorem ValidFrame.length_eq_dataLen (hf : ValidFrame f) : f.length = dataLen f + 9 := by
  rw [← hf.length_eq, totalLen, dataLen]
  omega

/-- A parser that has the camera's parameters makes the loop's points of a valid frame. -/
theorem ValidFrame.parseSigleFrame_points (hf : ValidFrame f) (place : U16 → ℕ → α)
    {p : LineLaserParser α} (hp : p.haveParams = true) :
    ∃ r, parseSigleFrame place p f f.length = .ok r ∧
      r.points = (List.range ((f.length - 10) / 2)).map fun k =>
        place (u16At f (10 + 2 * k) &&& 0x01FF) k := by
  have hloop : pointLoop place f f.length 10 0 = _ := pointLoop_eq fun k hk => by omega
  simp only [Nat.zero_add] at hloop
  rw [parseSigleFrame, hp, if_neg (by simp), hf.crc, if_neg (by simp), hloop, ok_bind]
  split_ifs with hnone
  · exact ⟨_, rfl, (List.eq_nil_of_length_eq_zero hnone).symm⟩
  · cases p.frameProcessorSp with
    | some frameProcessor => exact ⟨_, rfl, rfl⟩
    | none => exact ⟨_, rfl, rfl⟩

/-- The points of a valid frame are those of its payload exactly when the payload has no
odd byte after a first point. -/
theorem fromPayload_iff (place : U16 → ℕ → α) {p : LineLaserParser α} (hp : p.haveParams = true)
    (hf : ValidFrame f) :
    (∃ r, parseSigleFrame place p f f.length = .ok r ∧ FromPayload place f r.points) ↔
      Even (dataLen f) ∨ dataLen f < 3 := by
  obtain ⟨r, hr, hpoints⟩ := hf.parseSigleFrame_points place hp
  have hlen := hf.length_eq_dataLen
  have hcount : r.points.length = (dataLen f - 1) / 2 := by
    rw [hpoints, List.length_map, List.length_range]
    omega
  rw [Nat.even_iff]
  constructor
  · rintro ⟨r', hr', hfrom⟩
    obtain rfl := Except.ok.inj (hr.symm.trans hr')
    have := hfrom.count
    omega
  · intro hdata
    refine ⟨r, hr, fun k => ?_, by omega, ?_⟩
    · rw [hpoints, List.getElem?_map]
      split_ifs with hk
      · rw [List.getElem?_range (by omega)]
        rfl
      · rw [List.getElem?_eq_none (by rw [List.length_range]; omega)]
        rfl
    · have hdrop : f.dropLast.length = f.length - 1 := List.length_dropLast
      rw [pointLoop_eq fun k hk => by omega, hpoints]
      refine congrArg Except.ok (List.map_congr_left fun k hk => ?_)
      rw [List.mem_range] at hk
      rw [List.dropLast_eq_take, u16At_take (by omega), Nat.zero_add]

/-- A scan frame of three bytes of data, one of them after the ambient light. -/
def oddFrame : List Byte :=
  [0xA5, 0xA5, 0xA5, 0xA5, 0x01, 0x63, 0x03, 0x00, 0x00, 0x00, 0x07, 0x6E]

theorem validFrame_oddFrame : ValidFrame oddFrame :=
  ⟨by decide, by decide, by decide⟩

/-- A scan frame of one point. -/
def evenFrame : List Byte :=
  [0xA5, 0xA5, 0xA5, 0xA5, 0x01, 0x63, 0x04, 0x00, 0x00, 0x00, 0x07, 0x00, 0x6F]

theorem fromPayload_iff_evenFrame :
    (∃ r, parseSigleFrame Prod.mk ⟨true, 0, some fun _ => 0⟩ evenFrame evenFrame.length = .ok r ∧
      FromPayload Prod.mk evenFrame r.points) ↔ Even (dataLen evenFrame) ∨ dataLen evenFrame < 3 :=
  fromPayload_iff Prod.mk rfl ⟨by decide, by decide, by decide⟩

/-- The checksum of the odd frame is the high byte of its only point. -/
theorem not_fromPayload :
    gsCommand (cmdType oddFrame) = .ansScan ∧ ValidFrame oddFrame ∧
      ¬∃ r, parseSigleFrame Prod.mk ⟨true, 0, some fun _ => 0⟩ oddFrame oddFrame.length = .ok r ∧
        FromPayload Prod.mk oddFrame r.points := by
  refine ⟨by decide, validFrame_oddFrame, ?_⟩
  rintro ⟨r, hr, hfrom⟩
  have hp : (⟨true, 0, some fun _ => 0⟩ : LineLaserParser (U16 × ℕ)).haveParams = true := rfl
  obtain ⟨r', hr', hpoints⟩ := validFrame_oddFrame.parseSigleFrame_points Prod.mk hp
  obtain rfl := Except.ok.inj (hr.symm.trans hr')
  have hcount := hfrom.count
  rw [hpoints, List.length_map, List.length_range] at hcount
  exact absurd hcount (by decide)

end Mastiff.LineLaser

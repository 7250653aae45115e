import Mathlib.Algebra.Order.Ring.Rat
import Mastiff.Lib.Machine
import Mastiff.Lib.Reassembly
import Mastiff.LidarFrames

/-!
# Fans in segments

The frame kinds `0xC7` and `0xAA` carry a fan in segments. `GetFanSegment` decodes one,
`GetData0xC7` and `GetData0xAA` (`parse_libs/lidar_parser.cc`) collect them on a pending
list and deliver the fan when the points on the list are as many as the fan has. The two
functions differ in the header, in the test for a segment of another fan and in where the
time stamp comes from, which is what a `FanLayout` holds.

`collect_of_missing` and `collect_of_complete` say what one segment does to a pending list
of its own fan, in terms of `addNew`, and `c7_reassembles` what any order of arrival with
any repetitions does.

Both kinds share one pending list in the parser. A list of the other kind is read at the
wrong node type as soon as a decoded segment is compared with it.
-/

set_option linter.unusedSectionVars false

open Memory Machine Bytes Finset

namespace Mastiff.Lidar

/-! ## Layouts -/

/-- What the segment functions take from a header type `H`. -/
structure FanLayout (H : Type) where
  hdrSize : ℕ
  code : U16
  N : H → U16
  wholeFan : H → U16
  ofset : H → U16
  begAng : H → U32
  endAng : H → U32
  flags : H → U32
  ts : ℕ → H → U32 × U32
  isOld : H → H → Bool

/-- `DecTimestamp(ts, ts2)`, with `tv_sec` at `now`. -/
def decTimestamp (now : ℕ) (ts : U32) : U32 × U32 :=
  let sec := now % 3600
  let whole : ℤ := if sec < 5 ∧ 3595 < ts.toNat / 1000 then
      ((now : ℤ) / 3600 - 1) * 3600 + ts.toNat / 1000
    else (now : ℤ) / 3600 * 3600 + ts.toNat / 1000
  (BitVec.ofInt 32 whole, BitVec.ofNat 32 (ts.toNat % 1000 * 1000))

/-- `FanSegment_C7`. -/
def c7 : FanLayout RawDataHdr7 where
  hdrSize := hdr7Size
  code := 0xfac7
  N := RawDataHdr7.N
  wholeFan := RawDataHdr7.wholeFan
  ofset := RawDataHdr7.ofset
  begAng := RawDataHdr7.begAng
  endAng := RawDataHdr7.endAng
  flags := RawDataHdr7.flags
  ts now hdr := decTimestamp now hdr.timestamp
  isOld seg new := seg.timestamp != new.timestamp

/-- `FanSegment_AA`. -/
def aa : FanLayout RawDataHdrAA where
  hdrSize := hdrAASize
  code := 0xfaaa
  N := RawDataHdrAA.N
  wholeFan := RawDataHdrAA.wholeFan
  ofset := RawDataHdrAA.ofset
  begAng := RawDataHdrAA.begAng
  endAng := RawDataHdrAA.endAng
  flags := RawDataHdrAA.flags
  ts _ hdr := (hdr.second, hdr.nanoSec / 1000)
  isOld seg new := seg.second != new.second && seg.nanoSec != new.nanoSec

/-- A decoded segment. The list of segments takes the place of `next`, and of the three
arrays there are the first `N` cells. -/
structure FanSegment (H : Type) where
  hdr : H
  dist : List U16
  angle : List U16
  energy : List Byte
  deriving DecidableEq

/-- The fan a call delivers, the text it leaves in `result` and the pending list. -/
structure Collected (P : Type) where
  got : Bool
  dat : RawData
  result : Option String
  pending : P
  deriving DecidableEq

namespace FanLayout

variable {H : Type} (L : FanLayout H)

/-- `GetFanSegment(hdr, pdat, with_chk)`. There is no segment for a wrong checksum, which
it tests whatever `with_chk` says. The caller has checked that `N` fits the arrays. -/
def getFanSegment (hdr : H) (pdat : List Byte) : Option (FanSegment H) :=
  let n := (L.N hdr).toNat
  let dist i := u16At pdat (L.hdrSize + 2 * i)
  let angle i := u16At pdat (L.hdrSize + 2 * n + 2 * i)
  let energy i := byteAt pdat (L.hdrSize + 4 * n + i)
  let sum := headerSum L.hdrSize pdat +
    ((List.range n).map fun i => dist i + angle i + (energy i).setWidth 16).sum
  let chksum := u16At pdat (L.hdrSize + 5 * n)
  if chksum ≠ sum then none
  else some {
    hdr := hdr
    dist := (List.range n).map dist
    angle := (List.range n).map angle
    energy := (List.range n).map energy }

/-- `GetFanPointCount(seg)`. -/
def getFanPointCount (segs : List (FanSegment H)) : ℕ :=
  (segs.map fun seg => (L.N seg.hdr).toNat).sum

/-- The points `PackFanData` reads off one segment. -/
def segmentPoints (seg : FanSegment H) : List DataPoint :=
  (List.range (L.N seg.hdr).toNat).map fun i =>
    { confidence := seg.energy.getD i 0
      distance := (seg.dist.getD i 0).toNat / 1000
      angle := ((seg.angle.getD i 0).setWidth 32 + L.begAng seg.hdr).toNat / 1000 }

/-- `PackFanData(seg, rdat)`, `seg` the head of the list `seg :: rest`. -/
def packFanData (now : ℕ) (seg : FanSegment H) (rest : List (FanSegment H)) : RawData where
  code := L.code
  N := L.wholeFan seg.hdr
  angle := (L.begAng seg.hdr / 100).setWidth 16
  span := ((L.endAng seg.hdr - L.begAng seg.hdr) / 100).setWidth 16
  fbase := 0
  first := 0
  last := 0
  fend := 0
  flags := L.flags seg.hdr
  points := ((seg :: rest).map L.segmentPoints).flatten
  ts := L.ts now seg.hdr

/-- The walk that drops a duplicate or appends at the end of the list. -/
def link : List (FanSegment H) → FanSegment H → Option String × List (FanSegment H)
  | [], fanSeg => (none, [fanSeg])
  | seg :: rest, fanSeg =>
    if L.ofset seg.hdr = L.ofset fanSeg.hdr then (some "drop duplicated segment", seg :: rest)
    else
      let r := link rest fanSeg
      (r.1, seg :: r.2)

/-- What a segment does to the pending list before the points are counted. -/
def store (pending : List (FanSegment H)) (fanSeg : FanSegment H) :
    Option String × List (FanSegment H) :=
  match pending with
  | [] => (none, [fanSeg])
  | seg :: rest =>
    if L.isOld seg.hdr fanSeg.hdr then (some "drop old fan segments", [fanSeg])
    else L.link (seg :: rest) fanSeg

/-- The rest of `GetData0xC7` and `GetData0xAA` once `GetFanSegment` has a segment. -/
def collect (now : ℕ) (dat : RawData) (pending : List (FanSegment H)) (fanSeg : FanSegment H) :
    Collected (List (FanSegment H)) :=
  match L.store pending fanSeg with
  | (result, []) => ⟨false, dat, result, []⟩
  | (result, seg :: rest) =>
    let n := L.getFanPointCount (seg :: rest)
    if (L.wholeFan seg.hdr).toNat ≤ n then
      if n = (L.wholeFan seg.hdr).toNat then
        if maxPoints < n then
          ⟨false, dat, some ("too many " ++ toString n ++ " points in 1 fan"), []⟩
        else ⟨true, L.packFanData now seg rest, result, []⟩
      else ⟨false, dat, result, []⟩
    else ⟨false, dat, result, seg :: rest⟩

end FanLayout

/-! ## The pending list of the parser -/

/-- `*fan_segs_`, the list with the type its nodes were made at. An empty list is
`nullptr` at both types. -/
inductive FanSegs
  | c7 (segs : List (FanSegment RawDataHdr7))
  | aa (segs : List (FanSegment RawDataHdrAA))
  deriving DecidableEq

/-- Read the list through a `FanSegment_C7**`. -/
def FanSegs.asC7 : FanSegs → Except Fault (List (FanSegment RawDataHdr7))
  | c7 segs => .ok segs
  | aa [] => .ok []
  | aa (_ :: _) => .error .wrongNode

/-- Read the list through a `FanSegment_AA**`. -/
def FanSegs.asAA : FanSegs → Except Fault (List (FanSegment RawDataHdrAA))
  | aa segs => .ok segs
  | c7 [] => .ok []
  | c7 (_ :: _) => .error .wrongNode

/-- `GetData0xC7(hdr, pdat, with_chk, dat, result, last_fan_seg)`. -/
def getData0xC7 (now : ℕ) (hdr : RawDataHdr7) (pdat : List Byte) (dat : RawData)
    (last : FanSegs) : Except Fault (Collected FanSegs) :=
  match c7.getFanSegment hdr pdat with
  | none => .ok ⟨false, dat, none, last⟩
  | some fanSeg => do
    let r := c7.collect now dat (← last.asC7) fanSeg
    return ⟨r.got, r.dat, r.result, .c7 r.pending⟩

/-- `GetData0xAA(hdr, pdat, with_chk, dat, result, last_fan_seg)`. -/
def getData0xAA (now : ℕ) (hdr : RawDataHdrAA) (pdat : List Byte) (dat : RawData)
    (last : FanSegs) : Except Fault (Collected FanSegs) :=
  match aa.getFanSegment hdr pdat with
  | none => .ok ⟨false, dat, none, last⟩
  | some fanSeg => do
    let r := aa.collect now dat (← last.asAA) fanSeg
    return ⟨r.got, r.dat, r.result, .aa r.pending⟩

/-! ## One segment of a fan -/

namespace FanLayout

variable {H : Type} [DecidableEq H] (L : FanLayout H)

/-- The segments of one fan of `w` points. -/
structure IsFan (S : Finset (FanSegment H)) (w : U16) : Prop where
  wholeFan : ∀ s ∈ S, L.wholeFan s.hdr = w
  ofset : Set.InjOn (fun s : FanSegment H => L.ofset s.hdr) S
  pos : ∀ s ∈ S, 0 < (L.N s.hdr).toNat
  sum : ∑ s ∈ S, (L.N s.hdr).toNat = w.toNat
  same : ∀ s ∈ S, ∀ s' ∈ S, L.isOld s.hdr s'.hdr = false

/-- The pending list `pending` holds the segments `q` of the fan `S` : it is `q`, or
segments of another fan that the next one replaces. -/
def Pends (S : Finset (FanSegment H)) (pending q : List (FanSegment H)) : Prop :=
  pending = q ∧ q.toFinset ⊆ S ∨
    q = [] ∧ ∀ p ∈ pending, ∀ s ∈ S, L.isOld p.hdr s.hdr = true

variable {L} {S : Finset (FanSegment H)} {w : U16} {pending q : List (FanSegment H)}
  {fanSeg : FanSegment H}

theorem link_snd (pending : List (FanSegment H)) (fanSeg : FanSegment H) :
    (L.link pending fanSeg).2 = Reassembly.addNew (fun s => L.ofset s.hdr) pending fanSeg := by
  induction pending with
  | nil => simp [link, Reassembly.addNew]
  | cons seg rest ih =>
    rw [link]
    by_cases hseg : L.ofset seg.hdr = L.ofset fanSeg.hdr
    · simp [hseg, Reassembly.addNew]
    · rw [if_neg hseg]
      simp only [ih, Reassembly.addNew, List.map_cons, List.mem_cons, Ne.symm hseg, false_or]
      split_ifs <;> simp

/-- A segment of the fan is added to the segments of the fan that are pending. -/
theorem store_snd (hfan : L.IsFan S w) (h : L.Pends S pending q) (hx : fanSeg ∈ S) :
    (L.store pending fanSeg).2 = Reassembly.addNew (fun s => L.ofset s.hdr) q fanSeg := by
  cases pending with
  | nil =>
    have hq : q = [] := by
      rcases h with ⟨rfl, -⟩ | ⟨hq, -⟩
      · rfl
      · exact hq
    rw [hq, Reassembly.addNew_nil]
    rfl
  | cons seg rest =>
    rw [store]
    rcases h with ⟨rfl, hsub⟩ | ⟨rfl, hold⟩
    · have hseg : seg ∈ S := hsub (by simp)
      simp only [hfan.same seg hseg fanSeg hx, Bool.false_eq_true, if_false]
      exact link_snd _ _
    · rw [hold seg (by simp) fanSeg hx, if_pos rfl, Reassembly.addNew_nil]

theorem getFanPointCount_lt (hfan : L.IsFan S w) (hq : q.Nodup) (hsub : q.toFinset ⊆ S)
    {x : FanSegment H} (hx : x ∈ S) (hmiss : x ∉ q) : L.getFanPointCount q < w.toNat := by
  rw [← hfan.sum]
  exact Reassembly.sum_lt_of_missing hfan.pos hq hsub hx hmiss

theorem getFanPointCount_eq (hfan : L.IsFan S w) (hq : q.Nodup) (hall : q.toFinset = S) :
    L.getFanPointCount q = w.toNat := by
  rw [← hfan.sum]
  exact Reassembly.sum_eq_of_complete _ hq hall

/-- While a segment of the fan is missing, a call delivers nothing. -/
theorem collect_of_missing (now : ℕ) (dat : RawData) (hfan : L.IsFan S w)
    (hstore : (L.store pending fanSeg).2 = q) (hq : q.Nodup) (hsub : q.toFinset ⊆ S)
    {x : FanSegment H} (hx : x ∈ S) (hmiss : x ∉ q) :
    ∃ result, L.collect now dat pending fanSeg = ⟨false, dat, result, q⟩ := by
  have hlt := getFanPointCount_lt hfan hq hsub hx hmiss
  obtain ⟨result, hstored⟩ : ∃ result, L.store pending fanSeg = (result, q) :=
    ⟨_, Prod.ext rfl hstore⟩
  rw [collect, hstored]
  cases q with
  | nil => exact ⟨result, rfl⟩
  | cons seg rest =>
    have hw : L.wholeFan seg.hdr = w := hfan.wholeFan seg (hsub (by simp))
    refine ⟨result, ?_⟩
    simp only [hw]
    rw [if_neg (by omega)]

/-- When every segment of the fan is there, the call delivers it. -/
theorem collect_of_complete (now : ℕ) (dat : RawData) (hfan : L.IsFan S w)
    (hw500 : w.toNat ≤ maxPoints) (hstore : (L.store pending fanSeg).2 = q) (hne : q ≠ [])
    (hq : q.Nodup) (hall : q.toFinset = S) :
    ∃ result dat', L.collect now dat pending fanSeg = ⟨true, dat', result, []⟩ ∧ dat'.N = w ∧
      (dat'.points : Multiset DataPoint) = ∑ s ∈ S, (L.segmentPoints s : Multiset DataPoint) := by
  have hcount := getFanPointCount_eq hfan hq hall
  have hpoints : (((q.map L.segmentPoints).flatten : List DataPoint) : Multiset DataPoint) =
      ∑ s ∈ S, (L.segmentPoints s : Multiset DataPoint) := by
    rw [← Reassembly.sum_eq_of_complete _ hq hall]
    clear * -
    induction q with
    | nil => rfl
    | cons s q ih => simp [← ih]
  obtain ⟨result, hstored⟩ : ∃ result, L.store pending fanSeg = (result, q) :=
    ⟨_, Prod.ext rfl hstore⟩
  rw [collect, hstored]
  cases q with
  | nil => exact absurd rfl hne
  | cons seg rest =>
    have hw : L.wholeFan seg.hdr = w := hfan.wholeFan seg (hall ▸ by simp)
    refine ⟨result, L.packFanData now seg rest, ?_, hw, hpoints⟩
    simp only [hw, hcount]
    rw [if_pos (Nat.le_refl _), if_pos trivial, if_neg (by omega)]

/-! ## Any order of arrival -/

/-- A call of `collect` as a machine step, with the fan it reports. -/
def collectStep (L : FanLayout H) (now : ℕ) (dat : RawData) (pending : List (FanSegment H))
    (fanSeg : FanSegment H) : List (FanSegment H) × (Bool × RawData) :=
  let r := L.collect now dat pending fanSeg
  (r.pending, (r.got, r.dat))

/-- While a segment of the fan is missing, every call delivers nothing and the segments
that arrived are pending, each once. -/
theorem run_of_missing (now : ℕ) (dat : RawData) (hfan : L.IsFan S w) {x : FanSegment H}
    (hx : x ∈ S) :
    ∀ (segs : List (FanSegment H)) {pending q : List (FanSegment H)}, L.Pends S pending q →
      q.Nodup → q.toFinset ⊆ S → x ∉ q → (∀ s ∈ segs, s ∈ S) → x ∉ segs →
      ∃ pending' q', run (L.collectStep now dat) pending segs =
          (pending', List.replicate segs.length (false, dat)) ∧
        L.Pends S pending' q' ∧ q'.Nodup ∧ q'.toFinset = q.toFinset ∪ segs.toFinset
  | [], pending, q, hpend, hq, _, _, _, _ => ⟨pending, q, rfl, hpend, hq, by simp⟩
  | s :: segs, pending, q, hpend, hq, hsub, hmiss, hsegs, hmissing => by
    have hs : s ∈ S := hsegs s (by simp)
    have hadd := Reassembly.toFinset_addNew hfan.ofset hsub hs
    have hsub' : (Reassembly.addNew (fun s => L.ofset s.hdr) q s).toFinset ⊆ S := by
      rw [hadd]
      exact insert_subset hs hsub
    have hmiss' : x ∉ Reassembly.addNew (fun s => L.ofset s.hdr) q s := by
      rw [← List.mem_toFinset, hadd]
      simp only [mem_insert, List.mem_toFinset, not_or]
      exact ⟨fun h => hmissing (by simp [h]), hmiss⟩
    have hq' := Reassembly.nodup_addNew (fun s : FanSegment H => L.ofset s.hdr) hq s
    obtain ⟨result, hcollect⟩ :=
      collect_of_missing now dat hfan (store_snd hfan hpend hs) hq' hsub' hx hmiss'
    obtain ⟨pending', q', hrun, hpend', hnodup, hall⟩ :=
      run_of_missing now dat hfan hx segs (Or.inl ⟨rfl, hsub'⟩) hq' hsub' hmiss'
        (fun t ht => hsegs t (by simp [ht])) fun h => hmissing (by simp [h])
    refine ⟨pending', q', ?_, hpend', hnodup, ?_⟩
    · rw [run_cons, collectStep, hcollect, hrun]
      rfl
    · rw [hall, hadd]
      ext t
      simp only [mem_union, mem_insert, List.mem_toFinset, List.mem_cons]
      tauto

/-- The segments of a fan in any order, with repetitions before the last one : nothing is
delivered before the last one, which delivers the fan with the points of all. -/
theorem run_reassembles (now : ℕ) (dat : RawData) (hfan : L.IsFan S w)
    (hw500 : w.toNat ≤ maxPoints) (hold : ∀ p ∈ pending, ∀ s ∈ S, L.isOld p.hdr s.hdr = true)
    {pre : List (FanSegment H)} {last : FanSegment H} (hpre : ∀ s ∈ pre, s ∈ S)
    (hlast : last ∈ S) (hmiss : last ∉ pre) (hall : ∀ s ∈ S, s = last ∨ s ∈ pre) :
    ∃ dat', run (L.collectStep now dat) pending (pre ++ [last]) =
        ([], List.replicate pre.length (false, dat) ++ [(true, dat')]) ∧ dat'.N = w ∧
      (dat'.points : Multiset DataPoint) = ∑ s ∈ S, (L.segmentPoints s : Multiset DataPoint) := by
  obtain ⟨pending', q', hrun, hpend, hnodup, hset⟩ :=
    run_of_missing now dat hfan hlast pre (Or.inr ⟨rfl, hold⟩) List.nodup_nil (by simp) (by simp)
      hpre hmiss
  have hsub : q'.toFinset ⊆ S := by
    rw [hset]
    intro s hs
    exact hpre s (by simpa using hs)
  have hcomplete : (Reassembly.addNew (fun s => L.ofset s.hdr) q' last).toFinset = S := by
    rw [Reassembly.toFinset_addNew hfan.ofset hsub hlast, hset]
    ext s
    simp only [List.toFinset_nil, empty_union, mem_insert, List.mem_toFinset]
    constructor
    · rintro (rfl | hs)
      · exact hlast
      · exact hpre s hs
    · exact hall s
  obtain ⟨result, dat', hcollect, hN, hpoints⟩ :=
    collect_of_complete now dat hfan hw500 (store_snd hfan hpend hlast)
      (Reassembly.addNew_ne_nil _ _ _) (Reassembly.nodup_addNew _ hnodup last) hcomplete
  refine ⟨dat', ?_, hN, hpoints⟩
  rw [run_snoc, hrun, collectStep, hcollect]

end FanLayout

/-! ## The fans of kind `0xC7` -/

/-- The frame `pdat` is a segment with a right checksum, decoded as `seg`. -/
def Carries (pdat : List Byte) (seg : FanSegment RawDataHdr7) : Prop :=
  c7.getFanSegment (RawDataHdr7.ofBytes pdat) pdat = some seg

/-- A call of `GetData0xC7` with the header at the head of `pdat`, as a machine step. -/
def getData0xC7Step (now : ℕ) (dat : RawData) (last : FanSegs) (pdat : List Byte) :
    Except Fault (FanSegs × (Bool × RawData)) := do
  let r ← getData0xC7 now (RawDataHdr7.ofBytes pdat) pdat dat last
  return (r.pending, (r.got, r.dat))

/-- On frames with right checksums the calls run `collect` on the segments. -/
theorem tryRun_getData0xC7Step (now : ℕ) (dat : RawData) {frames : List (List Byte)}
    {segs : List (FanSegment RawDataHdr7)} (h : List.Forall₂ Carries frames segs)
    (pending : List (FanSegment RawDataHdr7)) :
    tryRun (getData0xC7Step now dat) (.c7 pending) frames =
      .ok (.c7 (run (c7.collectStep now dat) pending segs).1,
        (run (c7.collectStep now dat) pending segs).2) := by
  induction h generalizing pending with
  | nil => rfl
  | @cons pdat seg frames segs hseg _ ih =>
    have hstep : getData0xC7Step now dat (.c7 pending) pdat =
        .ok (.c7 (c7.collectStep now dat pending seg).1,
          (c7.collectStep now dat pending seg).2) := by
      rw [getData0xC7Step, getData0xC7, hseg]
      rfl
    rw [tryRun_cons_of_ok hstep, ih]
    rfl

/-- A fan of distinct segments of one time stamp is delivered exactly once, by the call
for the last missing segment, whatever the order of arrival and the repetitions. -/
theorem c7_reassembles (now : ℕ) (dat : RawData) {S : Finset (FanSegment RawDataHdr7)} {t : U32}
    {w : U16} (htime : ∀ s ∈ S, s.hdr.timestamp = t) (hwhole : ∀ s ∈ S, s.hdr.wholeFan = w)
    (hw : w.toNat ≤ maxPoints)
    (hofset : ∀ s ∈ S, ∀ s' ∈ S, s.hdr.ofset = s'.hdr.ofset → s = s')
    (hpos : ∀ s ∈ S, 0 < s.hdr.N.toNat) (hsum : ∑ s ∈ S, s.hdr.N.toNat = w.toNat)
    {pending : List (FanSegment RawDataHdr7)} (hold : ∀ p ∈ pending, p.hdr.timestamp ≠ t)
    {pre : List (FanSegment RawDataHdr7)} {last : FanSegment RawDataHdr7}
    (hpre : ∀ s ∈ pre, s ∈ S) (hlast : last ∈ S) (hmiss : last ∉ pre)
    (hall : ∀ s ∈ S, s = last ∨ s ∈ pre) {frames : List (List Byte)}
    (hframes : List.Forall₂ Carries frames (pre ++ [last])) :
    ∃ dat', tryRun (getData0xC7Step now dat) (.c7 pending) frames =
        .ok (.c7 [], List.replicate pre.length (false, dat) ++ [(true, dat')]) ∧ dat'.N = w ∧
      (dat'.points : Multiset DataPoint) = ∑ s ∈ S, (c7.segmentPoints s : Multiset DataPoint) := by
  have hfan : c7.IsFan S w :=
    { wholeFan := hwhole
      ofset := fun s hs s' hs' h => hofset s hs s' hs' h
      pos := hpos
      sum := hsum
      same := fun s hs s' hs' => by simp [c7, htime s hs, htime s' hs'] }
  have hold' : ∀ p ∈ pending, ∀ s ∈ S, c7.isOld p.hdr s.hdr = true := by
    intro p hp s hs
    simpa [c7, htime s hs] using hold p hp
  obtain ⟨dat', hrun, hN, hpoints⟩ :=
    FanLayout.run_reassembles now dat hfan hw hold' hpre hlast hmiss hall
  refine ⟨dat', ?_, hN, hpoints⟩
  rw [tryRun_getData0xC7Step now dat hframes, hrun]

/-- One of the two segments of a fan of two points. -/
def twoPointSegment (ofset dist angle : U16) : FanSegment RawDataHdr7 where
  hdr := ⟨0xfac7, 1, 2, ofset, 0, 9000, 0, 9, 7⟩
  dist := [dist]
  angle := [angle]
  energy := [5]

/-- The frame of a segment of that fan, with its checksum. -/
def twoPointFrame (ofset dist angle chksum : U16) : List Byte :=
  let u16 (x : U16) : List Byte := [x.extractLsb' 0 8, x.extractLsb' 8 8]
  u16 0xfac7 ++ u16 1 ++ u16 2 ++ u16 ofset ++ bytes32 0 ++ bytes32 9000 ++ bytes32 0 ++
    bytes32 9 ++ bytes32 7 ++ u16 dist ++ u16 angle ++ [5] ++ u16 chksum

/-- The first segment twice and then the second, after a segment of an older fan. -/
theorem c7_reassembles_two :
    ∃ dat', tryRun (getData0xC7Step 0 default)
        (.c7 [⟨⟨0xfac7, 1, 2, 0, 0, 9000, 0, 8, 7⟩, [500], [0], [5]⟩])
        [twoPointFrame 0 1000 0 0x2728, twoPointFrame 0 1000 0 0x2728,
          twoPointFrame 1 2000 4500 0x3ca5] =
        .ok (.c7 [], List.replicate 2 (false, default) ++ [(true, dat')]) ∧ dat'.N = 2 ∧
      (dat'.points : Multiset DataPoint) =
        ∑ s ∈ {twoPointSegment 0 1000 0, twoPointSegment 1 2000 4500},
          (c7.segmentPoints s : Multiset DataPoint) := by
  have hfirst : Carries (twoPointFrame 0 1000 0 0x2728) (twoPointSegment 0 1000 0) := by
    rw [Carries]
    decide
  have hsecond : Carries (twoPointFrame 1 2000 4500 0x3ca5) (twoPointSegment 1 2000 4500) := by
    rw [Carries]
    decide
  have hframes : List.Forall₂ Carries
      [twoPointFrame 0 1000 0 0x2728, twoPointFrame 0 1000 0 0x2728,
        twoPointFrame 1 2000 4500 0x3ca5]
      ([twoPointSegment 0 1000 0, twoPointSegment 0 1000 0] ++ [twoPointSegment 1 2000 4500]) :=
    .cons hfirst (.cons hfirst (.cons hsecond .nil))
  exact c7_reassembles 0 default (t := 9) (by decide) (by decide) (by decide) (by decide)
    (by decide) (by decide) (by decide) (by decide) (by decide) (by decide) (by decide) hframes

end Mastiff.Lidar

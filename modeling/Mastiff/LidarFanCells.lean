import Mastiff.LidarInstant

/-!
# The arrays of a fan

`GetFanSegment` fills the three arrays of a node, and `PackFanData` fills the array `points`
from all the nodes of the pending list with one running count
(`parse_libs/lidar_parser.cc`). All these arrays have `MAX_POINTS` cells, and neither
function looks at their end : `GetFanSegment` relies on the `N` of the header, and
`PackFanData` on the count that `GetData0xC7` and `GetData0xAA` have made before.

Here a node and a fan have all their cells, and every read and write of a cell is checked.
`trim` forgets the cells behind the points. From a list of such nodes a call goes through
and does what the calls on segments do (`getDataCells_eq`).
-/

set_option linter.unusedSectionVars false

open Memory Machine Bytes

namespace Mastiff.Lidar

namespace FanLayout

variable {H : Type} [DecidableEq H] (L : FanLayout H)

/-! ## Filling a node -/

/-- The distance of point `i` of a segment frame. -/
def distAt (pdat : List Byte) (i : ℕ) : U16 :=
  u16At pdat (L.hdrSize + 2 * i)

/-- The angle of point `i`. -/
def angleAt (hdr : H) (pdat : List Byte) (i : ℕ) : U16 :=
  u16At pdat (L.hdrSize + 2 * (L.N hdr).toNat + 2 * i)

/-- The energy of point `i`. -/
def energyAt (hdr : H) (pdat : List Byte) (i : ℕ) : Byte :=
  byteAt pdat (L.hdrSize + 4 * (L.N hdr).toNat + i)

/-- What the first `i` points add to the checksum. -/
def pointSum (hdr : H) (pdat : List Byte) (i : ℕ) : U16 :=
  ((List.range i).map fun i =>
    L.distAt pdat i + L.angleAt hdr pdat i + (L.energyAt hdr pdat i).setWidth 16).sum

/-- A new node, its cells not written yet. -/
def newNode (hdr : H) : FanSegment H where
  hdr := hdr
  dist := List.replicate maxPoints 0
  angle := List.replicate maxPoints 0
  energy := List.replicate maxPoints 0

/-- The loop of `GetFanSegment` from point `i` on, with `n` points to go. -/
def fillLoop (hdr : H) (pdat : List Byte) :
    ℕ → ℕ → FanSegment H → U16 → Except Fault (FanSegment H × U16)
  | 0, _, fanSeg, sum => .ok (fanSeg, sum)
  | n + 1, i, fanSeg, sum => do
    let dist ← writeAt fanSeg.dist i (L.distAt pdat i)
    let angle ← writeAt fanSeg.angle i (L.angleAt hdr pdat i)
    let energy ← writeAt fanSeg.energy i (L.energyAt hdr pdat i)
    fillLoop hdr pdat n (i + 1) { fanSeg with dist := dist, angle := angle, energy := energy }
      (sum + (L.distAt pdat i + L.angleAt hdr pdat i + (L.energyAt hdr pdat i).setWidth 16))

/-- `GetFanSegment(hdr, pdat, with_chk)` on a whole node. -/
def getFanSegmentCells (hdr : H) (pdat : List Byte) : Except Fault (Option (FanSegment H)) := do
  let n := (L.N hdr).toNat
  let (fanSeg, sum) ← L.fillLoop hdr pdat n 0 (newNode hdr) (headerSum L.hdrSize pdat)
  let chksum := u16At pdat (L.hdrSize + 5 * n)
  if chksum ≠ sum then return none
  else return some fanSeg

/-! ## Packing the list -/

/-- The point `PackFanData` makes of cell `i` of a node. -/
def pointOf (hdr : H) (dist angle : U16) (energy : Byte) : DataPoint where
  confidence := energy
  distance := dist.toNat / 1000
  angle := (angle.setWidth 32 + L.begAng hdr).toNat / 1000

/-- The inner loop of `PackFanData` from point `i` of a node on, with `n` points to go. -/
def packNode (seg : FanSegment H) :
    ℕ → ℕ → ℕ → List DataPoint → Except Fault (ℕ × List DataPoint)
  | 0, _, count, points => .ok (count, points)
  | n + 1, i, count, points => do
    let energy ← readAt seg.energy i
    let dist ← readAt seg.dist i
    let angle ← readAt seg.angle i
    let points ← writeAt points count (L.pointOf seg.hdr dist angle energy)
    packNode seg n (i + 1) (count + 1) points

/-- The outer loop of `PackFanData`. -/
def packNodes : List (FanSegment H) → ℕ → List DataPoint → Except Fault (List DataPoint)
  | [], _, points => .ok points
  | seg :: rest, count, points => do
    let (count, points) ← L.packNode seg (L.N seg.hdr).toNat 0 count points
    packNodes rest count points

/-- `PackFanData(seg, rdat)` on the whole array of points. -/
def packFanDataCells (now : ℕ) (dat : RawData) (seg : FanSegment H) (rest : List (FanSegment H)) :
    Except Fault RawData := do
  let points ← L.packNodes (seg :: rest) 0 dat.points
  return { L.packFanData now seg rest with points := points }

/-! ## A call -/

/-- `collect` on whole nodes. An empty list has no first node to read. -/
def collectCells (now : ℕ) (dat : RawData) (pending : List (FanSegment H))
    (fanSeg : FanSegment H) : Except Fault (Collected (List (FanSegment H))) :=
  match L.store pending fanSeg with
  | (_, []) => .error (.outOfBounds 0 0)
  | (result, seg :: rest) =>
    let n := L.getFanPointCount (seg :: rest)
    if (L.wholeFan seg.hdr).toNat ≤ n then
      if n = (L.wholeFan seg.hdr).toNat then
        if maxPoints < n then
          .ok ⟨false, dat, some ("too many " ++ toString n ++ " points in 1 fan"), []⟩
        else do
          let dat ← L.packFanDataCells now dat seg rest
          return ⟨true, dat, result, []⟩
      else .ok ⟨false, dat, result, []⟩
    else .ok ⟨false, dat, result, seg :: rest⟩

/-- `GetData0xC7` or `GetData0xAA` on whole nodes. -/
def getDataCells (now : ℕ) (hdr : H) (pdat : List Byte) (dat : RawData)
    (pending : List (FanSegment H)) : Except Fault (Collected (List (FanSegment H))) := do
  match ← L.getFanSegmentCells hdr pdat with
  | none => return ⟨false, dat, none, pending⟩
  | some fanSeg => L.collectCells now dat pending fanSeg

/-! ## What a node stands for -/

/-- The arrays of the node have all their cells. -/
structure IsNode (seg : FanSegment H) : Prop where
  dist : seg.dist.length = maxPoints
  angle : seg.angle.length = maxPoints
  energy : seg.energy.length = maxPoints

/-- The segment in a node : of each array the first `N` cells. -/
def trim (seg : FanSegment H) : FanSegment H where
  hdr := seg.hdr
  dist := seg.dist.take (L.N seg.hdr).toNat
  angle := seg.angle.take (L.N seg.hdr).toNat
  energy := seg.energy.take (L.N seg.hdr).toNat

variable {L} {hdr : H} {pdat : List Byte} {pending : List (FanSegment H)} {fanSeg : FanSegment H}

@[simp] theorem hdr_trim (seg : FanSegment H) : (L.trim seg).hdr = seg.hdr :=
  rfl

theorem isNode_newNode (hdr : H) : IsNode (newNode hdr) :=
  ⟨List.length_replicate .., List.length_replicate .., List.length_replicate ..⟩

/-- The points `GetFanPointCount` counts are those of the headers. -/
@[simp] theorem getFanPointCount_map_trim (pending : List (FanSegment H)) :
    L.getFanPointCount (pending.map L.trim) = L.getFanPointCount pending := by
  simp [getFanPointCount, Function.comp_def]

theorem link_map_trim (pending : List (FanSegment H)) (fanSeg : FanSegment H) :
    L.link (pending.map L.trim) (L.trim fanSeg) =
      ((L.link pending fanSeg).1, (L.link pending fanSeg).2.map L.trim) := by
  induction pending with
  | nil => rfl
  | cons seg rest ih =>
    simp only [List.map_cons, link, hdr_trim, ih]
    split_ifs <;> rfl

theorem store_map_trim (pending : List (FanSegment H)) (fanSeg : FanSegment H) :
    L.store (pending.map L.trim) (L.trim fanSeg) =
      ((L.store pending fanSeg).1, (L.store pending fanSeg).2.map L.trim) := by
  cases pending with
  | nil => rfl
  | cons seg rest =>
    rw [List.map_cons, store, store, hdr_trim, hdr_trim]
    by_cases hold : L.isOld seg.hdr fanSeg.hdr = true
    · rw [if_pos hold, if_pos hold]
      rfl
    · rw [if_neg hold, if_neg hold]
      exact link_map_trim (seg :: rest) fanSeg

theorem store_ne_nil (pending : List (FanSegment H)) (fanSeg : FanSegment H) :
    (L.store pending fanSeg).2 ≠ [] := by
  cases pending with
  | nil => simp [store]
  | cons seg rest =>
    rw [store]
    split_ifs
    · simp
    · rw [link_snd]
      exact Reassembly.addNew_ne_nil _ _ _

/-! ## One segment -/

theorem pointSum_succ (i : ℕ) : L.pointSum hdr pdat (i + 1) = L.pointSum hdr pdat i +
    (L.distAt pdat i + L.angleAt hdr pdat i + (L.energyAt hdr pdat i).setWidth 16) := by
  rw [pointSum, List.range_succ, List.map_append, List.sum_append]
  simp [pointSum]

/-- The first `i` points of the frame are in the node. -/
structure Filled (L : FanLayout H) (hdr : H) (pdat : List Byte) (i : ℕ) (seg : FanSegment H) :
    Prop where
  isNode : IsNode seg
  hdr_eq : seg.hdr = hdr
  dist : seg.dist.take i = (List.range i).map (L.distAt pdat)
  angle : seg.angle.take i = (List.range i).map (L.angleAt hdr pdat)
  energy : seg.energy.take i = (List.range i).map (L.energyAt hdr pdat)

/-- The loop stays inside the arrays and fills them as far as it runs. -/
theorem fillLoop_spec (sum : U16) :
    ∀ (n i : ℕ) (seg : FanSegment H), i + n ≤ maxPoints → L.Filled hdr pdat i seg →
      ∃ seg', L.fillLoop hdr pdat n i seg (sum + L.pointSum hdr pdat i) =
          .ok (seg', sum + L.pointSum hdr pdat (i + n)) ∧ L.Filled hdr pdat (i + n) seg'
  | 0, _, seg, _, h => ⟨seg, rfl, h⟩
  | n + 1, i, seg, hi, h => by
    have hdist : i < seg.dist.length := by rw [h.isNode.dist]; omega
    have hangle : i < seg.angle.length := by rw [h.isNode.angle]; omega
    have henergy : i < seg.energy.length := by rw [h.isNode.energy]; omega
    rw [fillLoop, writeAt_of_lt _ hdist, ok_bind, writeAt_of_lt _ hangle, ok_bind,
      writeAt_of_lt _ henergy, ok_bind, add_assoc sum, ← pointSum_succ,
      show i + (n + 1) = i + 1 + n by omega]
    refine fillLoop_spec sum n (i + 1) _ (by omega) ?_
    exact
      { isNode := ⟨by simp [h.isNode.dist], by simp [h.isNode.angle], by simp [h.isNode.energy]⟩
        hdr_eq := h.hdr_eq
        dist := by rw [take_set_succ _ hdist, h.dist, List.range_succ, List.map_append,
          List.map_singleton]
        angle := by rw [take_set_succ _ hangle, h.angle, List.range_succ, List.map_append,
          List.map_singleton]
        energy := by rw [take_set_succ _ henergy, h.energy, List.range_succ, List.map_append,
          List.map_singleton] }

/-- `GetFanSegment` stays inside its arrays and makes a node of the segment. -/
theorem getFanSegmentCells_eq (pdat : List Byte) (hN : (L.N hdr).toNat ≤ maxPoints) :
    ∃ r, L.getFanSegmentCells hdr pdat = .ok r ∧ r.map L.trim = L.getFanSegment hdr pdat ∧
      ∀ seg ∈ r, IsNode seg := by
  have hnew : L.Filled hdr pdat 0 (newNode hdr) := ⟨isNode_newNode hdr, rfl, rfl, rfl, rfl⟩
  obtain ⟨seg, hfill, hseg⟩ :=
    fillLoop_spec (headerSum L.hdrSize pdat) (L.N hdr).toNat 0 _ (by omega) hnew
  rw [Nat.zero_add] at hfill hseg
  have hzero : headerSum L.hdrSize pdat + L.pointSum hdr pdat 0 = headerSum L.hdrSize pdat :=
    BitVec.add_zero _
  rw [hzero] at hfill
  rw [getFanSegmentCells, hfill, ok_bind]
  by_cases hchk : u16At pdat (L.hdrSize + 5 * (L.N hdr).toNat) =
      headerSum L.hdrSize pdat + L.pointSum hdr pdat (L.N hdr).toNat
  · refine ⟨some seg, by simp [hchk], ?_, fun s hs => Option.some.inj hs ▸ hseg.isNode⟩
    have htrim : L.trim seg = ⟨hdr, (List.range (L.N hdr).toNat).map (L.distAt pdat),
        (List.range (L.N hdr).toNat).map (L.angleAt hdr pdat),
        (List.range (L.N hdr).toNat).map (L.energyAt hdr pdat)⟩ := by
      rw [trim, hseg.hdr_eq, hseg.dist, hseg.angle, hseg.energy]
    rw [Option.map_some, htrim]
    exact (if_neg (not_not_intro hchk)).symm
  · refine ⟨none, by simp [hchk], ?_, fun s hs => by cases hs⟩
    exact (if_pos hchk).symm

/-! ## The whole list -/

/-- The point in cell `i` of a node. -/
def cellPoint (L : FanLayout H) (seg : FanSegment H) (i : ℕ) : DataPoint :=
  L.pointOf seg.hdr (seg.dist.getD i 0) (seg.angle.getD i 0) (seg.energy.getD i 0)

/-- The points of a node are those of its segment. -/
theorem segmentPoints_trim (seg : FanSegment H) :
    L.segmentPoints (L.trim seg) = (List.range (L.N seg.hdr).toNat).map (L.cellPoint seg) := by
  refine List.map_congr_left fun i hi => ?_
  have hi : i < (L.N seg.hdr).toNat := List.mem_range.1 hi
  simp [trim, cellPoint, pointOf, List.getElem?_take_of_lt hi]

/-- The loop over a node reads inside its arrays, and it writes inside the points if there is
room for what it writes. -/
theorem packNode_spec {seg : FanSegment H} (hseg : IsNode seg) :
    ∀ (n i count : ℕ) (points : List DataPoint), i + n ≤ maxPoints → count + n ≤ points.length →
      ∃ points', L.packNode seg n i count points = .ok (count + n, points') ∧
        points'.length = points.length ∧
        points'.take (count + n) = points.take count ++ (List.range' i n).map (L.cellPoint seg)
  | 0, _, _, points, _, _ => ⟨points, rfl, rfl, by simp⟩
  | n + 1, i, count, points, hi, hcount => by
    have hdist : i < seg.dist.length := by rw [hseg.dist]; omega
    have hangle : i < seg.angle.length := by rw [hseg.angle]; omega
    have henergy : i < seg.energy.length := by rw [hseg.energy]; omega
    have hpoint : count < points.length := by omega
    have hcell : L.pointOf seg.hdr seg.dist[i] seg.angle[i] seg.energy[i] = L.cellPoint seg i := by
      simp [cellPoint, hdist, hangle, henergy]
    obtain ⟨points', hpack, hlen, htake⟩ := packNode_spec hseg n (i + 1) (count + 1)
      (points.set count (L.cellPoint seg i)) (by omega) (by rw [List.length_set]; omega)
    refine ⟨points', ?_, hlen.trans (List.length_set ..), ?_⟩
    · rw [packNode, readAt_of_lt henergy, ok_bind, readAt_of_lt hdist, ok_bind,
        readAt_of_lt hangle, ok_bind, hcell, writeAt_of_lt _ hpoint, ok_bind, hpack]
      congr 2
      omega
    · rw [show count + (n + 1) = count + 1 + n by omega, htake, take_set_succ _ hpoint,
        List.append_assoc, List.range'_succ, List.map_cons, List.singleton_append]

/-- The loop over the list writes inside the points if they have room for the count. -/
theorem packNodes_spec :
    ∀ (segs : List (FanSegment H)) (count : ℕ) (points : List DataPoint),
      (∀ seg ∈ segs, IsNode seg) → points.length = maxPoints →
      count + L.getFanPointCount segs ≤ maxPoints →
      ∃ points', L.packNodes segs count points = .ok points' ∧ points'.length = maxPoints ∧
        points'.take (count + L.getFanPointCount segs) =
          points.take count ++ ((segs.map L.trim).map L.segmentPoints).flatten
  | [], _, points, _, hlen, _ => ⟨points, rfl, hlen, by simp [getFanPointCount]⟩
  | seg :: rest, count, points, hnode, hlen, hcount => by
    obtain ⟨hseg, hrest⟩ := List.forall_mem_cons.1 hnode
    have hsum : L.getFanPointCount (seg :: rest) =
        (L.N seg.hdr).toNat + L.getFanPointCount rest := by
      simp [getFanPointCount]
    rw [hsum] at hcount
    obtain ⟨points₁, hpack₁, hlen₁, htake₁⟩ := packNode_spec (L := L) hseg (L.N seg.hdr).toNat 0
      count points (by omega) (by omega)
    obtain ⟨points₂, hpack₂, hlen₂, htake₂⟩ := packNodes_spec rest (count + (L.N seg.hdr).toNat)
      points₁ hrest (hlen₁.trans hlen) (by omega)
    refine ⟨points₂, ?_, hlen₂, ?_⟩
    · rw [packNodes, hpack₁]
      exact hpack₂
    · rw [hsum, ← Nat.add_assoc, htake₂, htake₁, List.append_assoc, List.map_cons, List.map_cons,
        List.flatten_cons, segmentPoints_trim, List.range_eq_range']

/-! ## A call on nodes and a call on segments -/

/-- What a call on nodes stands for : the segments of the nodes, and of the points of a fan
the first `N`. -/
def trimCollected (L : FanLayout H) (r : Collected (List (FanSegment H))) :
    Collected (List (FanSegment H)) where
  got := r.got
  dat := if r.got then { r.dat with points := r.dat.points.take r.dat.N.toNat } else r.dat
  result := r.result
  pending := r.pending.map L.trim

/-- The list is empty, or its points are fewer than the fan of its first segment has. -/
def Short (L : FanLayout H) (pending : List (FanSegment H)) : Prop :=
  pending = [] ∨
    ∃ seg rest, pending = seg :: rest ∧ L.getFanPointCount pending < (L.wholeFan seg.hdr).toNat

/-- The list has nodes only, and is short. -/
structure Pending (L : FanLayout H) (pending : List (FanSegment H)) : Prop where
  isNode : ∀ seg ∈ pending, IsNode seg
  short : L.Short pending

theorem pending_nil : L.Pending [] :=
  ⟨by simp, Or.inl rfl⟩

/-- `PackFanData` stays inside its arrays if the points have room for the list. -/
theorem packFanDataCells_eq (now : ℕ) {dat : RawData} {seg : FanSegment H}
    {rest : List (FanSegment H)} (hdat : dat.points.length = maxPoints)
    (hnode : ∀ s ∈ seg :: rest, IsNode s)
    (hcount : L.getFanPointCount (seg :: rest) = (L.wholeFan seg.hdr).toNat)
    (hroom : L.getFanPointCount (seg :: rest) ≤ maxPoints) :
    ∃ dat', L.packFanDataCells now dat seg rest = .ok dat' ∧
      { dat' with points := dat'.points.take dat'.N.toNat } =
        L.packFanData now (L.trim seg) (rest.map L.trim) := by
  obtain ⟨points, hpack, -, htake⟩ := packNodes_spec (L := L) (seg :: rest) 0 dat.points
    hnode hdat (by omega)
  refine ⟨{ L.packFanData now seg rest with points := points }, ?_, ?_⟩
  · rw [packFanDataCells, hpack]
    rfl
  · rw [Nat.zero_add, hcount, List.take_zero, List.nil_append] at htake
    simp only [packFanData, hdr_trim, htake]
    rfl

/-- `collect` on nodes does what it does on their segments, and leaves a short list. -/
theorem collectCells_eq (now : ℕ) {dat : RawData} (hdat : dat.points.length = maxPoints)
    (hpending : ∀ seg ∈ pending, IsNode seg) (hseg : IsNode fanSeg) :
    ∃ r, L.collectCells now dat pending fanSeg = .ok r ∧
      L.trimCollected r = L.collect now dat (pending.map L.trim) (L.trim fanSeg) ∧
      L.Pending r.pending := by
  obtain ⟨result, segs, hstore⟩ : ∃ result segs, L.store pending fanSeg = (result, segs) :=
    ⟨_, _, rfl⟩
  have hnode : ∀ s ∈ segs, IsNode s := by
    intro s hs
    have hmem : s ∈ (L.store pending fanSeg).2 := by rwa [hstore]
    rcases mem_store hmem with h | rfl
    · exact hpending s h
    · exact hseg
  cases segs with
  | nil => exact absurd (by rw [hstore]) (store_ne_nil (L := L) pending fanSeg)
  | cons seg rest =>
    have hn : L.getFanPointCount (L.trim seg :: rest.map L.trim) =
        L.getFanPointCount (seg :: rest) := getFanPointCount_map_trim (seg :: rest)
    rw [collectCells, collect, store_map_trim, hstore]
    simp only [List.map_cons, hdr_trim, hn]
    by_cases hwhole : (L.wholeFan seg.hdr).toNat ≤ L.getFanPointCount (seg :: rest)
    · by_cases heq : L.getFanPointCount (seg :: rest) = (L.wholeFan seg.hdr).toNat
      · by_cases hmany : maxPoints < L.getFanPointCount (seg :: rest)
        · simp only [if_pos hwhole, if_pos heq, if_pos hmany]
          exact ⟨_, rfl, rfl, pending_nil⟩
        · obtain ⟨dat', hpack, hdat'⟩ := packFanDataCells_eq now hdat hnode heq (by omega)
          simp only [if_pos hwhole, if_pos heq, if_neg hmany, hpack, ok_bind]
          exact ⟨_, rfl, by rw [← hdat']; rfl, pending_nil⟩
      · simp only [if_pos hwhole, if_neg heq]
        exact ⟨_, rfl, rfl, pending_nil⟩
    · simp only [if_neg hwhole]
      exact ⟨_, rfl, rfl, hnode, Or.inr ⟨seg, rest, rfl, Nat.lt_of_not_le hwhole⟩⟩

/-- From a list of nodes a call goes through, does what it does on segments and leaves a
short list. -/
theorem getDataCells_eq (now : ℕ) (pdat : List Byte) {dat : RawData}
    (hdat : dat.points.length = maxPoints) (hN : (L.N hdr).toNat ≤ maxPoints)
    (h : L.Pending pending) :
    ∃ r, L.getDataCells now hdr pdat dat pending = .ok r ∧
      L.trimCollected r = L.receive now dat (pending.map L.trim) (L.getFanSegment hdr pdat) ∧
      L.Pending r.pending := by
  obtain ⟨fanSeg, hfill, htrim, hnode⟩ := getFanSegmentCells_eq (L := L) pdat hN
  rw [getDataCells, hfill, ok_bind, ← htrim]
  cases fanSeg with
  | none => exact ⟨_, rfl, rfl, h⟩
  | some fanSeg => exact collectCells_eq now hdat h.isNode (hnode fanSeg rfl)

/-! ## Sequences of calls -/

/-- The arguments of a call, `dat` with the whole array of points. -/
structure CellCall (H : Type) extends SegmentCall H where
  points_length : dat.points.length = maxPoints

/-- A call on nodes as a machine step. -/
def cellCall (L : FanLayout H) (pending : List (FanSegment H)) (c : CellCall H) :
    Except Fault (List (FanSegment H) × Collected (List (FanSegment H))) := do
  let r ← L.getDataCells c.now c.hdr c.pdat c.dat pending
  return (r.pending, r)

/-- The call reads and writes no cell outside its array, and leaves a short list. -/
def StaysInside (L : FanLayout H) (pending : List (FanSegment H)) (c : CellCall H) : Prop :=
  ∃ r, L.getDataCells c.now c.hdr c.pdat c.dat pending = .ok r ∧ L.Short r.pending

/-- Calls for segments with at most `MAX_POINTS` points stay inside the arrays, one after
the other. -/
theorem along_staysInside (calls : List (CellCall H))
    (hN : ∀ c ∈ calls, (L.N c.hdr).toNat ≤ maxPoints) (h : L.Pending pending) :
    Along L.cellCall L.StaysInside pending calls := by
  refine along_of_forall L.Pending ?_ ?_ calls h hN
  · intro pending c h hNc
    obtain ⟨r, hcall, -, hpending⟩ :=
      getDataCells_eq c.now c.pdat c.points_length hNc h
    exact ⟨r, hcall, hpending.short⟩
  · intro pending c pending' r' h hNc hr
    obtain ⟨r, hcall, -, hpending⟩ :=
      getDataCells_eq c.now c.pdat c.points_length hNc h
    rw [cellCall, hcall] at hr
    obtain ⟨rfl, -⟩ := Prod.mk.inj (Except.ok.inj hr)
    exact hpending

/-- A call on nodes is the call on their segments. -/
theorem call_trim {call : FanSegs → SegmentCall H → Except Fault (FanSegs × Collected FanSegs)}
    {list : List (FanSegment H) → FanSegs}
    (hcall : ∀ pending c, call (list pending) c =
      .ok (list (L.callStep pending c).1, (L.callStep pending c).2.map list))
    (h : L.Pending pending) (c : CellCall H) (hN : (L.N c.hdr).toNat ≤ maxPoints) :
    ∃ r, L.getDataCells c.now c.hdr c.pdat c.dat pending = .ok r ∧
      call (list (pending.map L.trim)) c.toSegmentCall =
        .ok (list (L.trimCollected r).pending, (L.trimCollected r).map list) := by
  obtain ⟨r, hr, htrim, -⟩ := getDataCells_eq c.now c.pdat c.points_length hN h
  refine ⟨r, hr, ?_⟩
  rw [htrim]
  exact hcall _ _

end FanLayout

/-- A call of `GetData0xC7` on nodes is the call on their segments. -/
theorem c7Call_trim {pending : List (FanSegment RawDataHdr7)} (h : c7.Pending pending)
    (c : FanLayout.CellCall RawDataHdr7) (hN : c.hdr.N.toNat ≤ maxPoints) :
    ∃ r, c7.getDataCells c.now c.hdr c.pdat c.dat pending = .ok r ∧
      c7Call (.c7 (pending.map c7.trim)) c.toSegmentCall =
        .ok (.c7 (c7.trimCollected r).pending, (c7.trimCollected r).map .c7) :=
  FanLayout.call_trim c7Call_c7 h c hN

/-- A call of `GetData0xAA` on nodes is the call on their segments. -/
theorem aaCall_trim {pending : List (FanSegment RawDataHdrAA)} (h : aa.Pending pending)
    (c : FanLayout.CellCall RawDataHdrAA) (hN : c.hdr.N.toNat ≤ maxPoints) :
    ∃ r, aa.getDataCells c.now c.hdr c.pdat c.dat pending = .ok r ∧
      aaCall (.aa (pending.map aa.trim)) c.toSegmentCall =
        .ok (.aa (aa.trimCollected r).pending, (aa.trimCollected r).map .aa) :=
  FanLayout.call_trim aaCall_aa h c hN

/-- Whatever segments arrive, calls of `GetData0xC7` and calls of `GetData0xAA` stay inside
their arrays, and after every call the points pending are fewer than the fan has. -/
theorem staysInside (calls : List (FanLayout.CellCall RawDataHdr7))
    (callsAA : List (FanLayout.CellCall RawDataHdrAA))
    (hN : ∀ c ∈ calls, c.hdr.N.toNat ≤ maxPoints)
    (hNAA : ∀ c ∈ callsAA, c.hdr.N.toNat ≤ maxPoints) :
    Along c7.cellCall c7.StaysInside [] calls ∧ Along aa.cellCall aa.StaysInside [] callsAA :=
  ⟨FanLayout.along_staysInside calls hN FanLayout.pending_nil,
    FanLayout.along_staysInside callsAA hNAA FanLayout.pending_nil⟩

/-- A fan before any call. -/
def wholeArray : RawData :=
  { (default : RawData) with points := List.replicate maxPoints ⟨0, 0, 0⟩ }

/-- The call with a whole array of points. -/
def SegmentCall.inCells {H : Type} (c : SegmentCall H) : FanLayout.CellCall H where
  toSegmentCall := { c with dat := wholeArray }
  points_length := List.length_replicate ..

/-- The same segment twice, with a wrong checksum in between, and halves of a fan. -/
theorem staysInside_two :
    Along c7.cellCall c7.StaysInside []
        ([twoPointCall 0 1000 0 0x2728, twoPointCall 1 2000 4500 0, twoPointCall 0 1000 0 0x2728,
          twoPointCall 1 2000 4500 0x3ca5].map SegmentCall.inCells) ∧
      Along aa.cellCall aa.StaysInside []
        ([halfCall 0 1000 0 100 0x278c, halfCall 1 2000 4500 100 0x3d09].map
          SegmentCall.inCells) :=
  staysInside _ _ (by decide) (by decide)

end Mastiff.Lidar

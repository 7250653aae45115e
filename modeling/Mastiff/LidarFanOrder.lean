import Mathlib.Tactic.NormNum
import Mastiff.LidarInstant

/-!
# The order of the segments of a fan

The header of a segment says where in the fan its points belong, `ofset`. `GetData0xC7` and
`GetData0xAA` (`parse_libs/lidar_parser.cc`) compare it to drop duplicates only : a new
segment goes to the end of the pending list, and `PackFanData` packs the list as it stands.

So the points of a fan stand in the order in which its segments arrived, and what the header
says of the fan is taken from the segment that arrived first (`deliversAsArrived`). Segments
without points need not have arrived : they are kept for the next fan.
-/

set_option linter.unusedSectionVars false

open Memory Machine Bytes

namespace Mastiff.Lidar

/-! ## What calls deliver -/

section Delivered

variable {P Q : Type}

/-- The fans that calls deliver. -/
def delivered (rs : List (Collected P)) : List RawData :=
  rs.filterMap fun r => if r.got then some r.dat else none

theorem delivered_cons_of_not {r : Collected P} (h : r.got = false) (rs : List (Collected P)) :
    delivered (r :: rs) = delivered rs := by
  simp [delivered, h]

theorem delivered_cons_of_got {r : Collected P} (h : r.got = true) (rs : List (Collected P)) :
    delivered (r :: rs) = r.dat :: delivered rs := by
  simp [delivered, h]

theorem delivered_map (f : P → Q) (rs : List (Collected P)) :
    delivered (rs.map (Collected.map f)) = delivered rs := by
  rw [delivered, List.filterMap_map]
  rfl

end Delivered

namespace FanLayout

variable {H T : Type} [DecidableEq H]

/-- The calls for the segments of a fan of `w` points, all of one instant, in the order in
which the segments arrive. -/
structure Arrival (L : FanLayout H) (instant : H → T) (w : U16) where
  calls : List (SegmentCall H)
  segs : List (FanSegment H)
  decodes : List.Forall₂ (fun c seg => L.getFanSegment c.hdr c.pdat = some seg) calls segs
  oneInstant : OneInstant instant segs
  ofset : (segs.map fun s => L.ofset s.hdr).Nodup
  wholeFan : ∀ s ∈ segs, L.wholeFan s.hdr = w
  sum : L.getFanPointCount segs = w.toNat
  le_maxPoints : w.toNat ≤ maxPoints

/-! ## One segment -/

/-- The segments are told apart by `ofset`, are of fans of `w` points, and none is old to
another. -/
structure Compatible (L : FanLayout H) (w : U16) (segs : List (FanSegment H)) : Prop where
  ofset : (segs.map fun s => L.ofset s.hdr).Nodup
  wholeFan : ∀ s ∈ segs, L.wholeFan s.hdr = w
  same : ∀ s ∈ segs, ∀ s' ∈ segs, L.isOld s.hdr s'.hdr = false

variable {L : FanLayout H} {w : U16} {pending segs : List (FanSegment H)} {fanSeg : FanSegment H}
  {c : SegmentCall H}

theorem Compatible.of_append (h : L.Compatible w (pending ++ segs)) : L.Compatible w segs where
  ofset := by
    have hofset := h.ofset
    rw [List.map_append] at hofset
    exact (List.nodup_append.1 hofset).2.1
  wholeFan s hs := h.wholeFan s (List.mem_append_right _ hs)
  same s hs s' hs' := h.same s (List.mem_append_right _ hs) s' (List.mem_append_right _ hs')

/-- A segment with an `ofset` of its own goes to the end of the list. -/
theorem link_of_new (hnew : L.ofset fanSeg.hdr ∉ pending.map fun s => L.ofset s.hdr) :
    L.link pending fanSeg = (none, pending ++ [fanSeg]) := by
  induction pending with
  | nil => rfl
  | cons seg rest ih =>
    rw [List.map_cons, List.mem_cons, not_or] at hnew
    rw [link, if_neg (Ne.symm hnew.1), ih hnew.2]
    rfl

theorem store_of_compatible (h : L.Compatible w (pending ++ fanSeg :: segs)) :
    L.store pending fanSeg = (none, pending ++ [fanSeg]) := by
  cases pending with
  | nil => rfl
  | cons seg rest =>
    have hsame := h.same seg (by simp) fanSeg (by simp)
    have hnew : L.ofset fanSeg.hdr ∉ (seg :: rest).map fun s => L.ofset s.hdr := by
      have hofset := h.ofset
      rw [List.map_append, List.map_cons] at hofset
      intro hmem
      exact (List.nodup_append.1 hofset).2.2 _ hmem _ List.mem_cons_self rfl
    rw [store, hsame, if_neg Bool.false_ne_true, link_of_new hnew]

/-- The list has a first segment then. -/
theorem Compatible.exists_first (h : L.Compatible w (pending ++ fanSeg :: segs)) :
    ∃ seg rest, pending ++ [fanSeg] = seg :: rest ∧ L.wholeFan seg.hdr = w := by
  obtain ⟨seg, rest, hlist⟩ : ∃ seg rest, pending ++ [fanSeg] = seg :: rest :=
    List.exists_cons_of_ne_nil (by simp)
  refine ⟨seg, rest, hlist, h.wholeFan seg ?_⟩
  rw [← List.singleton_append, ← List.append_assoc, hlist]
  simp

/-- While the points on the list are too few, a segment joins it. -/
theorem receive_of_lt (hseg : L.getFanSegment c.hdr c.pdat = some fanSeg)
    (h : L.Compatible w (pending ++ fanSeg :: segs))
    (hlt : L.getFanPointCount (pending ++ [fanSeg]) < w.toNat) :
    L.receive c.now c.dat pending (L.getFanSegment c.hdr c.pdat) =
      ⟨false, c.dat, none, pending ++ [fanSeg]⟩ := by
  obtain ⟨seg, rest, hlist, hw⟩ := h.exists_first
  rw [hseg, receive, collect, store_of_compatible h, hlist]
  rw [hlist] at hlt
  simp only [hw]
  rw [if_neg (by omega)]

/-- When they are as many as the fan has, the list is packed. -/
theorem receive_of_eq (hw500 : w.toNat ≤ maxPoints)
    (hseg : L.getFanSegment c.hdr c.pdat = some fanSeg)
    (h : L.Compatible w (pending ++ fanSeg :: segs))
    (heq : L.getFanPointCount (pending ++ [fanSeg]) = w.toNat) :
    ∃ seg rest, pending ++ [fanSeg] = seg :: rest ∧
      L.receive c.now c.dat pending (L.getFanSegment c.hdr c.pdat) =
        ⟨true, L.packFanData c.now seg rest, none, []⟩ := by
  obtain ⟨seg, rest, hlist, hw⟩ := h.exists_first
  refine ⟨seg, rest, hlist, ?_⟩
  rw [hseg, receive, collect, store_of_compatible h, hlist]
  rw [hlist] at heq
  simp only [hw, heq]
  rw [if_pos (Nat.le_refl _), if_pos trivial, if_neg (by omega)]

/-! ## All segments of a fan -/

theorem getFanPointCount_append (segs segs' : List (FanSegment H)) :
    L.getFanPointCount (segs ++ segs') = L.getFanPointCount segs + L.getFanPointCount segs' := by
  simp [getFanPointCount]

theorem getFanPointCount_cons (seg : FanSegment H) (segs : List (FanSegment H)) :
    L.getFanPointCount (seg :: segs) = (L.N seg.hdr).toNat + L.getFanPointCount segs := by
  simp [getFanPointCount]

theorem segmentPoints_of_zero (h : L.getFanPointCount segs = 0) {s : FanSegment H}
    (hs : s ∈ segs) : L.segmentPoints s = [] := by
  have hN : (L.N s.hdr).toNat = 0 := by
    rw [getFanPointCount, List.sum_eq_zero_iff] at h
    exact h _ (List.mem_map_of_mem hs)
  rw [segmentPoints, hN]
  rfl

theorem flatten_segmentPoints_of_zero (h : L.getFanPointCount segs = 0) :
    (segs.map L.segmentPoints).flatten = [] := by
  rw [List.flatten_eq_nil_iff]
  intro points hpoints
  obtain ⟨s, hs, rfl⟩ := List.mem_map.1 hpoints
  exact segmentPoints_of_zero h hs

/-- Segments without points do not change the fan they are packed into. -/
theorem packFanData_append (now : ℕ) (seg : FanSegment H) (rest : List (FanSegment H))
    (h : L.getFanPointCount segs = 0) :
    L.packFanData now seg (rest ++ segs) = L.packFanData now seg rest := by
  simp only [packFanData, ← List.cons_append, List.map_append, List.flatten_append,
    flatten_segmentPoints_of_zero h, List.append_nil]

/-- Nothing is delivered of segments without points if the fan has some. -/
theorem delivered_of_empty {calls : List (SegmentCall H)} (hw : 0 < w.toNat)
    (hcalls : List.Forall₂ (fun c seg => L.getFanSegment c.hdr c.pdat = some seg) calls segs)
    (h : L.Compatible w (pending ++ segs))
    (hnone : L.getFanPointCount (pending ++ segs) = 0) :
    delivered (run L.callStep pending calls).2 = [] := by
  induction hcalls generalizing pending with
  | nil => rfl
  | @cons c seg calls segs hseg _ ih =>
    rw [List.append_cons] at hnone
    have hlt : L.getFanPointCount (pending ++ [seg]) < w.toNat := by
      rw [getFanPointCount_append] at hnone
      omega
    have hstep := receive_of_lt hseg h hlt
    rw [run_cons, callStep, hstep, delivered_cons_of_not rfl]
    exact ih (by rwa [← List.append_cons]) hnone

/-- Exactly one fan is delivered of the segments of a fan with points, packed as they stand. -/
theorem delivered_of_pos {calls : List (SegmentCall H)} (hw500 : w.toNat ≤ maxPoints)
    (hcalls : List.Forall₂ (fun c seg => L.getFanSegment c.hdr c.pdat = some seg) calls segs)
    (h : L.Compatible w (pending ++ segs)) (hpending : L.getFanPointCount pending < w.toNat)
    (hsum : L.getFanPointCount (pending ++ segs) = w.toNat) :
    ∃ seg rest, pending ++ segs = seg :: rest ∧ ∃ c ∈ calls,
      delivered (run L.callStep pending calls).2 = [L.packFanData c.now seg rest] := by
  induction hcalls generalizing pending with
  | nil =>
    rw [List.append_nil] at hsum
    omega
  | @cons c seg calls segs hseg hcalls ih =>
    have hrest : L.Compatible w (pending ++ [seg] ++ segs) := by rwa [← List.append_cons]
    rw [List.append_cons] at hsum
    by_cases hlt : L.getFanPointCount (pending ++ [seg]) < w.toNat
    · obtain ⟨first, rest, hlist, c', hc', hfans⟩ := ih hrest hlt hsum
      refine ⟨first, rest, by rw [List.append_cons, hlist], c', List.mem_cons_of_mem _ hc', ?_⟩
      rw [run_cons, callStep, receive_of_lt hseg h hlt, delivered_cons_of_not rfl]
      exact hfans
    · -- the list is complete, and what is still to arrive has no points
      rw [getFanPointCount_append] at hsum
      have hnone : L.getFanPointCount segs = 0 := by omega
      have hw : 0 < w.toNat := by omega
      have hleft : L.Compatible w ([] ++ segs) := hrest.of_append
      obtain ⟨first, rest, hlist, hstep⟩ := receive_of_eq hw500 hseg h (by omega)
      refine ⟨first, rest ++ segs, ?_, c, List.mem_cons_self, ?_⟩
      · rw [List.append_cons, hlist, List.cons_append]
      · rw [run_cons, callStep, hstep, delivered_cons_of_got rfl,
          delivered_of_empty hw hcalls hleft hnone,
          packFanData_append _ _ _ hnone]

/-- Of a fan without points each segment delivers one. -/
theorem delivered_of_zero {calls : List (SegmentCall H)} (hw : w.toNat = 0)
    (hcalls : List.Forall₂ (fun c seg => L.getFanSegment c.hdr c.pdat = some seg) calls segs)
    (h : L.Compatible w segs) (hsum : L.getFanPointCount segs = 0) :
    delivered (run L.callStep [] calls).2 =
      List.zipWith (fun c seg => L.packFanData c.now seg []) calls segs := by
  induction hcalls with
  | nil => rfl
  | @cons c seg calls segs hseg _ ih =>
    have hcount : L.getFanPointCount [seg] = w.toNat := by
      rw [getFanPointCount_cons] at hsum ⊢
      simp only [getFanPointCount, List.map_nil, List.sum_nil]
      omega
    have hfirst : L.Compatible w ([] ++ seg :: segs) := h
    have hrest : L.Compatible w ([seg] ++ segs) := h
    obtain ⟨first, rest, hlist, hstep⟩ := receive_of_eq (by omega) hseg hfirst hcount
    obtain ⟨rfl, rfl⟩ := List.cons.inj hlist
    rw [run_cons, callStep, hstep, delivered_cons_of_got rfl, List.zipWith_cons_cons]
    rw [getFanPointCount_cons] at hsum
    exact congrArg _ (ih hrest.of_append (by omega))

namespace Arrival

variable {instant : H → T} (a b : Arrival L instant w)

theorem compatible (hold : ∀ hdr hdr', instant hdr = instant hdr' → L.isOld hdr hdr' = false) :
    L.Compatible w ([] ++ a.segs) where
  ofset := a.ofset
  wholeFan := a.wholeFan
  same s hs s' hs' := hold _ _ (a.oneInstant s hs s' hs')

/-- The fans are packed from the segments as they arrived : one fan from all of them, or one
from each if the fan has no points. -/
structure AsArrived (fans : List RawData) : Prop where
  pos : 0 < w.toNat → ∃ seg rest, a.segs = seg :: rest ∧
    ∃ c ∈ a.calls, fans = [L.packFanData c.now seg rest]
  zero : w.toNat = 0 →
    fans = List.zipWith (fun c seg => L.packFanData c.now seg []) a.calls a.segs

theorem asArrived (hold : ∀ hdr hdr', instant hdr = instant hdr' → L.isOld hdr hdr' = false) :
    a.AsArrived (delivered (run L.callStep [] a.calls).2) where
  pos hw := delivered_of_pos a.le_maxPoints a.decodes (a.compatible hold) hw a.sum
  zero hw := delivered_of_zero hw a.decodes (a.compatible hold) (a.sum.trans hw)

/-- Whatever the order, a fan has the points of all segments as they arrived, and what its
header says of it is taken from one of them. -/
theorem AsArrived.eq_of_mem {a : Arrival L instant w} {fans : List RawData}
    (h : a.AsArrived fans) {dat : RawData} (hdat : dat ∈ fans) :
    ∃ now, ∃ seg ∈ a.segs, dat =
      { L.packFanData now seg [] with points := (a.segs.map L.segmentPoints).flatten } := by
  rcases Nat.eq_zero_or_pos w.toNat with hw | hw
  · rw [h.zero hw] at hdat
    obtain ⟨i, hi, rfl⟩ := List.getElem_of_mem hdat
    rw [List.length_zipWith] at hi
    have hseg : a.segs[i] ∈ a.segs := List.getElem_mem _
    refine ⟨a.calls[i].now, a.segs[i], hseg, ?_⟩
    have hnone : L.getFanPointCount a.segs = 0 := a.sum.trans hw
    rw [List.getElem_zipWith, flatten_segmentPoints_of_zero hnone]
    simp [packFanData, segmentPoints_of_zero hnone hseg]
  · obtain ⟨seg, rest, hsegs, c, -, rfl⟩ := h.pos hw
    obtain rfl := List.mem_singleton.1 hdat
    rw [hsegs]
    exact ⟨c.now, seg, List.mem_cons_self, rfl⟩

end Arrival

/-! ## Two orders -/

/-- The fans agree but for the order of their points and the time, and, where the headers of
the segments say different things of the fan, in these. -/
structure SameButOrder (L : FanLayout H) (segs : List (FanSegment H)) (dat dat' : RawData) :
    Prop where
  code : dat.code = dat'.code
  N : dat.N = dat'.N
  points : dat.points.Perm dat'.points
  hdr : OneInstant (fun hdr => (L.begAng hdr, L.endAng hdr, L.flags hdr)) segs →
    dat.angle = dat'.angle ∧ dat.span = dat'.span ∧ dat.flags = dat'.flags

theorem Arrival.AsArrived.sameButOrder {instant : H → T} {a b : Arrival L instant w}
    {fans fans' : List RawData} (ha : a.AsArrived fans) (hb : b.AsArrived fans')
    (hperm : a.segs.Perm b.segs) {dat dat' : RawData} (hdat : dat ∈ fans) (hdat' : dat' ∈ fans') :
    L.SameButOrder a.segs dat dat' := by
  obtain ⟨now, seg, hseg, rfl⟩ := ha.eq_of_mem hdat
  obtain ⟨now', seg', hseg', rfl⟩ := hb.eq_of_mem hdat'
  exact
    { code := rfl
      N := (a.wholeFan seg hseg).trans (b.wholeFan seg' hseg').symm
      points := (hperm.map L.segmentPoints).flatten
      hdr := fun hagree => by
        have heq := hagree seg hseg seg' (hperm.mem_iff.2 hseg')
        simp only [Prod.mk.injEq] at heq
        obtain ⟨hbeg, hend, hflags⟩ := heq
        simp [packFanData, hbeg, hend, hflags] }

/-! ## Calls -/

/-- The calls go through from `start` and deliver `fans`. -/
def Delivers (call : FanSegs → SegmentCall H → Except Fault (FanSegs × Collected FanSegs))
    (start : FanSegs) (calls : List (SegmentCall H)) (fans : List RawData) : Prop :=
  ∃ last outs, tryRun call start calls = .ok (last, outs) ∧ fans = delivered outs

/-- In any two orders of arrival of a fan, calls from an empty list deliver it packed from the
segments as they arrived, so that the fans agree but for the order of their points. -/
def DeliversAsArrived (L : FanLayout H) (instant : H → T)
    (call : FanSegs → SegmentCall H → Except Fault (FanSegs × Collected FanSegs))
    (start : FanSegs) : Prop :=
  ∀ (w : U16) (a b : Arrival L instant w), a.segs.Perm b.segs →
    ∃ fans fans', Delivers call start a.calls fans ∧ Delivers call start b.calls fans' ∧
      a.AsArrived fans ∧ b.AsArrived fans' ∧
      ∀ dat ∈ fans, ∀ dat' ∈ fans', L.SameButOrder a.segs dat dat'

/-- Calls that run `callStep` on the lists behind `list` deliver what it does. -/
theorem delivers_of_call
    {call : FanSegs → SegmentCall H → Except Fault (FanSegs × Collected FanSegs)}
    {list : List (FanSegment H) → FanSegs}
    (hcall : ∀ pending c, call (list pending) c =
      .ok (list (L.callStep pending c).1, (L.callStep pending c).2.map list))
    (calls : List (SegmentCall H)) :
    Delivers call (list []) calls (delivered (run L.callStep [] calls).2) := by
  have hrun : ∀ pending, tryRun call (list pending) calls =
      .ok (list (run L.callStep pending calls).1,
        (run L.callStep pending calls).2.map (Collected.map list)) := by
    induction calls with
    | nil => exact fun _ => rfl
    | cons c calls ih =>
      intro pending
      rw [tryRun_cons_of_ok (hcall pending c), ih]
      rfl
  exact ⟨_, _, hrun [], (delivered_map list _).symm⟩

theorem deliversAsArrived_of_call {instant : H → T}
    {call : FanSegs → SegmentCall H → Except Fault (FanSegs × Collected FanSegs)}
    {list : List (FanSegment H) → FanSegs}
    (hold : ∀ hdr hdr', instant hdr = instant hdr' → L.isOld hdr hdr' = false)
    (hcall : ∀ pending c, call (list pending) c =
      .ok (list (L.callStep pending c).1, (L.callStep pending c).2.map list)) :
    DeliversAsArrived L instant call (list []) := by
  intro w a b hperm
  have ha := a.asArrived hold
  have hb := b.asArrived hold
  exact ⟨_, _, delivers_of_call hcall a.calls, delivers_of_call hcall b.calls, ha, hb,
    fun dat hdat dat' hdat' => ha.sameButOrder hb hperm hdat hdat'⟩

end FanLayout

theorem isOld_c7_of_timestamp (hdr hdr' : RawDataHdr7) (h : hdr.timestamp = hdr'.timestamp) :
    c7.isOld hdr hdr' = false := by
  simp [c7, h]

theorem isOld_aa_of_instant (hdr hdr' : RawDataHdrAA) (h : hdr.instant = hdr'.instant) :
    aa.isOld hdr hdr' = false := by
  have hsecond : hdr.second = hdr'.second := congrArg Prod.fst h
  simp [aa, hsecond]

/-- Both kinds of fans are delivered with their points as the segments arrived. -/
theorem deliversAsArrived :
    FanLayout.DeliversAsArrived c7 RawDataHdr7.timestamp c7Call (.c7 []) ∧
      FanLayout.DeliversAsArrived aa RawDataHdrAA.instant aaCall (.aa []) :=
  ⟨FanLayout.deliversAsArrived_of_call isOld_c7_of_timestamp c7Call_c7,
    FanLayout.deliversAsArrived_of_call isOld_aa_of_instant aaCall_aa⟩

/-- The two segments of a fan of two points, in the order of `ofset`. -/
def inOrder : c7.Arrival RawDataHdr7.timestamp 2 where
  calls := [twoPointCall 0 1000 0 0x2728, twoPointCall 1 2000 4500 0x3ca5]
  segs := [twoPointSegment 0 1000 0, twoPointSegment 1 2000 4500]
  decodes := .cons (by decide) (.cons (by decide) .nil)
  oneInstant := by unfold OneInstant; decide
  ofset := by decide
  wholeFan := by decide
  sum := by decide
  le_maxPoints := by decide

/-- The same two segments the other way round. -/
def outOfOrder : c7.Arrival RawDataHdr7.timestamp 2 where
  calls := [twoPointCall 1 2000 4500 0x3ca5, twoPointCall 0 1000 0 0x2728]
  segs := [twoPointSegment 1 2000 4500, twoPointSegment 0 1000 0]
  decodes := .cons (by decide) (.cons (by decide) .nil)
  oneInstant := by unfold OneInstant; decide
  ofset := by decide
  wholeFan := by decide
  sum := by decide
  le_maxPoints := by decide

/-- Delivered in one order and in the other, the points of the fan stand in different places. -/
theorem not_sameOrder :
    ¬∀ (w : U16) (a b : c7.Arrival RawDataHdr7.timestamp w), a.segs.Perm b.segs →
      (∀ c ∈ a.calls ++ b.calls, c.now = 0) → ∀ fans fans',
        FanLayout.Delivers c7Call (.c7 []) a.calls fans →
          FanLayout.Delivers c7Call (.c7 []) b.calls fans' → fans = fans' := by
  intro h
  have heq := h 2 inOrder outOfOrder (List.Perm.swap ..) (by decide) _ _
    (FanLayout.delivers_of_call c7Call_c7 _) (FanLayout.delivers_of_call c7Call_c7 _)
  obtain ⟨seg, rest, hsegs, c, -, hfans⟩ :=
    (inOrder.asArrived isOld_c7_of_timestamp).pos (by decide)
  obtain ⟨seg', rest', hsegs', c', -, hfans'⟩ :=
    (outOfOrder.asArrived isOld_c7_of_timestamp).pos (by decide)
  obtain ⟨rfl, rfl⟩ := List.cons.inj hsegs
  obtain ⟨rfl, rfl⟩ := List.cons.inj hsegs'
  rw [hfans, hfans', List.singleton_inj] at heq
  have hdist := congrArg (fun dat : RawData => dat.points.map DataPoint.distance) heq
  simp [FanLayout.packFanData, FanLayout.segmentPoints, twoPointSegment, c7] at hdist
  exact absurd hdist.1 (by norm_num)

end Mastiff.Lidar

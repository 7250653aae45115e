import Mastiff.LidarFan

/-!
# The instant of a fan

The segments of one fan are measured at one instant, which their headers carry : the time
stamp for `0xC7`, the second and the nanosecond for `0xAA`. `GetData0xC7` and `GetData0xAA`
(`parse_libs/lidar_parser.cc`) drop the pending list when a segment of another instant
arrives.

`GetData0xC7` compares the whole time stamp, so that what is pending is of one instant
after every call. `GetData0xAA` drops the list only if both parts of the time differ : a
segment that agrees in one of them is appended.
-/

set_option linter.unusedSectionVars false

open Memory Machine Bytes

namespace Mastiff.Lidar

/-! ## Segments of one instant -/

/-- The instant a `0xAA` segment was measured at. -/
def RawDataHdrAA.instant (hdr : RawDataHdrAA) : U32 × U32 :=
  (hdr.second, hdr.nanoSec)

section OneInstant

variable {H T : Type}

/-- All segments carry the same instant. -/
def OneInstant (instant : H → T) (segs : List (FanSegment H)) : Prop :=
  ∀ s ∈ segs, ∀ s' ∈ segs, instant s.hdr = instant s'.hdr

theorem oneInstant_nil (instant : H → T) : OneInstant instant [] := by
  intro s hs
  cases hs

theorem oneInstant_singleton (instant : H → T) (s : FanSegment H) :
    OneInstant instant [s] := by
  intro a ha b hb
  rw [List.mem_singleton.1 ha, List.mem_singleton.1 hb]

/-- A segment of the instant of the head joins the list. -/
theorem OneInstant.append {instant : H → T} {seg fanSeg : FanSegment H}
    {rest : List (FanSegment H)} (h : OneInstant instant (seg :: rest))
    (heq : instant seg.hdr = instant fanSeg.hdr) :
    OneInstant instant ((seg :: rest) ++ [fanSeg]) := by
  have hall : ∀ s ∈ (seg :: rest) ++ [fanSeg], instant s.hdr = instant seg.hdr := by
    intro s hs
    rcases List.mem_append.1 hs with hs | hs
    · exact h s hs seg (by simp)
    · rw [List.mem_singleton.1 hs, heq]
  exact fun s hs s' hs' => (hall s hs).trans (hall s' hs').symm

end OneInstant

/-! ## One call -/

namespace FanLayout

variable {H T : Type} [DecidableEq H] {L : FanLayout H} {instant : H → T}
  {pending : List (FanSegment H)} {fanSeg : FanSegment H}

/-- A segment with header `hdr` that joins the pending list carries the instant of its
head. -/
def Joins (L : FanLayout H) (instant : H → T) (pending : List (FanSegment H)) (hdr : H) : Prop :=
  ∀ seg ∈ pending.head?, L.isOld seg.hdr hdr = false →
    instant seg.hdr = instant hdr ∨ L.ofset hdr ∈ pending.map fun s => L.ofset s.hdr

/-- A list of one instant stays one if no segment of another joins it. -/
theorem oneInstant_store (h : OneInstant instant pending)
    (hjoins : L.Joins instant pending fanSeg.hdr) :
    OneInstant instant (L.store pending fanSeg).2 := by
  cases pending with
  | nil => exact oneInstant_singleton instant fanSeg
  | cons seg rest =>
    rw [store]
    by_cases hold : L.isOld seg.hdr fanSeg.hdr = true
    · rw [if_pos hold]
      exact oneInstant_singleton instant fanSeg
    · rw [if_neg hold, link_snd, Reassembly.addNew]
      split_ifs with hdup
      · exact h
      · refine h.append ?_
        rcases hjoins seg rfl (by simpa using hold) with heq | hmem
        · exact heq
        · exact absurd hmem hdup

/-- The list after `store` has the new segment and those that were pending only. -/
theorem mem_store {s : FanSegment H} (hs : s ∈ (L.store pending fanSeg).2) :
    s ∈ pending ∨ s = fanSeg := by
  cases pending with
  | nil => exact Or.inr (List.mem_singleton.1 hs)
  | cons seg rest =>
    rw [store] at hs
    split_ifs at hs
    · exact Or.inr (List.mem_singleton.1 hs)
    · rw [link_snd, Reassembly.addNew] at hs
      split_ifs at hs
      · exact Or.inl hs
      · rcases List.mem_append.1 hs with hs | hs
        · exact Or.inl hs
        · exact Or.inr (List.mem_singleton.1 hs)

/-- A call that returns `true` has packed the list with the new segment. -/
theorem collect_got {now : ℕ} {dat : RawData}
    (h : (L.collect now dat pending fanSeg).got = true) :
    ∃ seg rest, (L.store pending fanSeg).2 = seg :: rest ∧
      (L.collect now dat pending fanSeg).dat = L.packFanData now seg rest := by
  revert h
  rw [collect]
  rcases L.store pending fanSeg with ⟨result, - | ⟨seg, rest⟩⟩
  · simp
  · intro h
    refine ⟨seg, rest, rfl, ?_⟩
    simp only at h ⊢
    split_ifs at h ⊢
    rfl

/-- After a call the list with the new segment is pending, or nothing. -/
theorem collect_pending (now : ℕ) (dat : RawData) (pending : List (FanSegment H))
    (fanSeg : FanSegment H) :
    (L.collect now dat pending fanSeg).pending = (L.store pending fanSeg).2 ∨
      (L.collect now dat pending fanSeg).pending = [] := by
  rw [collect]
  rcases L.store pending fanSeg with ⟨result, - | ⟨seg, rest⟩⟩
  · exact Or.inr rfl
  · simp only
    split_ifs <;> simp

theorem oneInstant_collect {now : ℕ} {dat : RawData} (h : OneInstant instant pending)
    (hjoins : L.Joins instant pending fanSeg.hdr) :
    OneInstant instant (L.collect now dat pending fanSeg).pending := by
  rcases L.collect_pending now dat pending fanSeg with heq | heq
  · rw [heq]
    exact oneInstant_store h hjoins
  · rw [heq]
    exact oneInstant_nil instant

/-- The fan `dat'` is packed from segments of one instant : those that were pending and
the one decoded from `pdat`, as far as they were kept. -/
def Packs (L : FanLayout H) (instant : H → T) (now : ℕ) (pending : List (FanSegment H)) (hdr : H)
    (pdat : List Byte) (dat' : RawData) : Prop :=
  ∃ fanSeg seg rest, L.getFanSegment hdr pdat = some fanSeg ∧
    (L.store pending fanSeg).2 = seg :: rest ∧ dat' = L.packFanData now seg rest ∧
      OneInstant instant (seg :: rest)

theorem hdr_of_getFanSegment {hdr : H} {pdat : List Byte}
    (h : L.getFanSegment hdr pdat = some fanSeg) : fanSeg.hdr = hdr := by
  simp only [getFanSegment] at h
  split_ifs at h
  rw [← Option.some.inj h]

/-- What a call makes of a pending list of its own kind, `seg` being what `GetFanSegment` has
decoded. -/
def receive (L : FanLayout H) (now : ℕ) (dat : RawData) (pending : List (FanSegment H)) :
    Option (FanSegment H) → Collected (List (FanSegment H))
  | none => ⟨false, dat, none, pending⟩
  | some fanSeg => L.collect now dat pending fanSeg

/-- If no segment of another instant joins the list, a call leaves a list of one instant and
a fan it delivers is of one instant. -/
theorem receive_spec (now : ℕ) (dat : RawData) {hdr : H} {pdat : List Byte}
    (h : OneInstant instant pending)
    (hjoins : ∀ fanSeg, L.getFanSegment hdr pdat = some fanSeg →
      L.Joins instant pending fanSeg.hdr) :
    let r := L.receive now dat pending (L.getFanSegment hdr pdat)
    OneInstant instant r.pending ∧ (r.got = true → L.Packs instant now pending hdr pdat r.dat) := by
  cases hseg : L.getFanSegment hdr pdat with
  | none => exact ⟨h, by simp [receive]⟩
  | some fanSeg =>
    have hstored := oneInstant_store h (hjoins fanSeg hseg)
    refine ⟨oneInstant_collect h (hjoins fanSeg hseg), fun hgot => ?_⟩
    obtain ⟨seg, rest, hstore, hdat⟩ := collect_got hgot
    exact ⟨fanSeg, seg, rest, hseg, hstore, hdat, hstore ▸ hstored⟩

end FanLayout

/-! ## Calls -/

/-- The arguments of a call of `GetData0xC7` or `GetData0xAA` apart from the pending list,
with `tv_sec` at `now`. -/
structure SegmentCall (H : Type) where
  now : ℕ
  hdr : H
  pdat : List Byte
  dat : RawData

/-- A call of `GetData0xC7` as a machine step. -/
def c7Call (last : FanSegs) (c : SegmentCall RawDataHdr7) :
    Except Fault (FanSegs × Collected FanSegs) := do
  let r ← getData0xC7 c.now c.hdr c.pdat c.dat last
  return (r.pending, r)

/-- A call of `GetData0xAA` as a machine step. -/
def aaCall (last : FanSegs) (c : SegmentCall RawDataHdrAA) :
    Except Fault (FanSegs × Collected FanSegs) := do
  let r ← getData0xAA c.now c.hdr c.pdat c.dat last
  return (r.pending, r)

/-- The call with another pending list. -/
def Collected.map {P Q : Type} (f : P → Q) (r : Collected P) : Collected Q where
  got := r.got
  dat := r.dat
  result := r.result
  pending := f r.pending

/-- A call on the pending list as a machine step. -/
def FanLayout.callStep {H : Type} (L : FanLayout H) (pending : List (FanSegment H))
    (c : SegmentCall H) : List (FanSegment H) × Collected (List (FanSegment H)) :=
  let r := L.receive c.now c.dat pending (L.getFanSegment c.hdr c.pdat)
  (r.pending, r)

/-- The call goes through, and a fan it delivers is of one time stamp. -/
def SameInstantC7 (last : FanSegs) (c : SegmentCall RawDataHdr7) : Prop :=
  ∃ pending r, last.asC7 = .ok pending ∧ getData0xC7 c.now c.hdr c.pdat c.dat last = .ok r ∧
    (r.got = true → c7.Packs RawDataHdr7.timestamp c.now pending c.hdr c.pdat r.dat)

/-- The call goes through, and a fan it delivers is of one second and nanosecond. -/
def SameInstantAA (last : FanSegs) (c : SegmentCall RawDataHdrAA) : Prop :=
  ∃ pending r, last.asAA = .ok pending ∧ getData0xAA c.now c.hdr c.pdat c.dat last = .ok r ∧
    (r.got = true → aa.Packs RawDataHdrAA.instant c.now pending c.hdr c.pdat r.dat)

/-- The segment, if the checksum is right, does not agree with the head of the pending list
in exactly one of second and nanosecond, or it repeats one that is pending. -/
def Apart (last : FanSegs) (c : SegmentCall RawDataHdrAA) : Prop :=
  (aa.getFanSegment c.hdr c.pdat).isSome → ∀ pending, last.asAA = .ok pending →
    ∀ seg ∈ pending.head?,
      (seg.hdr.second = c.hdr.second ↔ seg.hdr.nanoSec = c.hdr.nanoSec) ∨
        c.hdr.ofset ∈ pending.map fun s => s.hdr.ofset

/-- The list is one of `0xC7` segments of one time stamp. -/
def PendsC7 (last : FanSegs) : Prop :=
  ∃ pending, last = .c7 pending ∧ OneInstant RawDataHdr7.timestamp pending

/-- The list is one of `0xAA` segments of one second and nanosecond. -/
def PendsAA (last : FanSegs) : Prop :=
  ∃ pending, last = .aa pending ∧ OneInstant RawDataHdrAA.instant pending

theorem c7_joins (pending : List (FanSegment RawDataHdr7)) (hdr : RawDataHdr7) :
    c7.Joins RawDataHdr7.timestamp pending hdr := by
  intro seg hseg hold
  exact Or.inl (by simpa [c7] using hold)

theorem aa_joins {pending : List (FanSegment RawDataHdrAA)} {c : SegmentCall RawDataHdrAA}
    {fanSeg : FanSegment RawDataHdrAA} (h : Apart (.aa pending) c)
    (hfan : aa.getFanSegment c.hdr c.pdat = some fanSeg) :
    aa.Joins RawDataHdrAA.instant pending fanSeg.hdr := by
  rw [FanLayout.hdr_of_getFanSegment hfan]
  intro seg hseg hold
  refine (h (by rw [hfan]; rfl) pending rfl seg hseg).imp_left fun hiff => ?_
  have hone : seg.hdr.second = c.hdr.second ∨ seg.hdr.nanoSec = c.hdr.nanoSec := by
    simpa [aa, Classical.or_iff_not_imp_left] using hold
  rcases hone with hsecond | hnano
  · exact Prod.ext hsecond (hiff.1 hsecond)
  · exact Prod.ext (hiff.2 hnano) hnano

theorem getData0xC7_c7 (now : ℕ) (hdr : RawDataHdr7) (pdat : List Byte) (dat : RawData)
    (pending : List (FanSegment RawDataHdr7)) :
    getData0xC7 now hdr pdat dat (.c7 pending) =
      let r := c7.receive now dat pending (c7.getFanSegment hdr pdat)
      .ok ⟨r.got, r.dat, r.result, .c7 r.pending⟩ := by
  rw [getData0xC7]
  cases c7.getFanSegment hdr pdat <;> rfl

theorem getData0xAA_aa (now : ℕ) (hdr : RawDataHdrAA) (pdat : List Byte) (dat : RawData)
    (pending : List (FanSegment RawDataHdrAA)) :
    getData0xAA now hdr pdat dat (.aa pending) =
      let r := aa.receive now dat pending (aa.getFanSegment hdr pdat)
      .ok ⟨r.got, r.dat, r.result, .aa r.pending⟩ := by
  rw [getData0xAA]
  cases aa.getFanSegment hdr pdat <;> rfl

theorem c7Call_c7 (pending : List (FanSegment RawDataHdr7)) (c : SegmentCall RawDataHdr7) :
    c7Call (.c7 pending) c =
      .ok (.c7 (c7.callStep pending c).1, (c7.callStep pending c).2.map .c7) := by
  rw [c7Call, getData0xC7_c7]
  rfl

theorem aaCall_aa (pending : List (FanSegment RawDataHdrAA)) (c : SegmentCall RawDataHdrAA) :
    aaCall (.aa pending) c =
      .ok (.aa (aa.callStep pending c).1, (aa.callStep pending c).2.map .aa) := by
  rw [aaCall, getData0xAA_aa]
  rfl

/-- From a list of one time stamp, a call of `GetData0xC7` delivers a fan of one and leaves
a list of one. -/
theorem PendsC7.c7Call {last : FanSegs} (h : PendsC7 last) (c : SegmentCall RawDataHdr7) :
    SameInstantC7 last c ∧ ∀ last' r, c7Call last c = .ok (last', r) → PendsC7 last' := by
  obtain ⟨pending, rfl, hone⟩ := h
  have hcall := getData0xC7_c7 c.now c.hdr c.pdat c.dat pending
  have hjoins : ∀ fanSeg, c7.getFanSegment c.hdr c.pdat = some fanSeg →
      c7.Joins RawDataHdr7.timestamp pending fanSeg.hdr := fun fanSeg _ => c7_joins _ _
  obtain ⟨hpending, hpacks⟩ := FanLayout.receive_spec c.now c.dat hone hjoins
  refine ⟨⟨pending, _, rfl, hcall, hpacks⟩, fun last' r hr => ?_⟩
  rw [Lidar.c7Call, hcall] at hr
  obtain ⟨rfl, -⟩ := Prod.mk.inj (Except.ok.inj hr)
  exact ⟨_, rfl, hpending⟩

/-- From a list of one instant, a call of `GetData0xAA` whose segment is apart delivers a
fan of one and leaves a list of one. -/
theorem PendsAA.aaCall {last : FanSegs} {c : SegmentCall RawDataHdrAA} (h : PendsAA last)
    (happart : Apart last c) :
    SameInstantAA last c ∧ ∀ last' r, aaCall last c = .ok (last', r) → PendsAA last' := by
  obtain ⟨pending, rfl, hone⟩ := h
  have hcall := getData0xAA_aa c.now c.hdr c.pdat c.dat pending
  obtain ⟨hpending, hpacks⟩ := FanLayout.receive_spec c.now c.dat hone fun fanSeg hseg =>
    aa_joins happart hseg
  refine ⟨⟨pending, _, rfl, hcall, hpacks⟩, fun last' r hr => ?_⟩
  rw [Lidar.aaCall, hcall] at hr
  obtain ⟨rfl, -⟩ := Prod.mk.inj (Except.ok.inj hr)
  exact ⟨_, rfl, hpending⟩

/-! ## Runs -/

/-- Every fan that calls of `GetData0xC7` deliver is of one time stamp. Every fan that calls
of `GetData0xAA` deliver is of one second and nanosecond if every segment is apart. -/
theorem sameInstant_of_apart (calls : List (SegmentCall RawDataHdr7))
    (callsAA : List (SegmentCall RawDataHdrAA)) (h : Along aaCall Apart (.aa []) callsAA) :
    Along c7Call SameInstantC7 (.c7 []) calls ∧
      Along aaCall SameInstantAA (.aa []) callsAA := by
  constructor
  · exact along_mono PendsC7 (fun last c hpends _ => (hpends.c7Call c).1)
      (fun last c last' r hpends _ => (hpends.c7Call c).2 last' r) calls
      ⟨[], rfl, oneInstant_nil _⟩ (along_true calls)
  · exact along_mono PendsAA (fun last c hpends happart => (hpends.aaCall happart).1)
      (fun last c last' r hpends happart => (hpends.aaCall happart).2 last' r) callsAA
      ⟨[], rfl, oneInstant_nil _⟩ h

/-- A segment of one point of a fan of two, at second 9. -/
def halfSegment (ofset dist angle : U16) (nanoSec : U32) : FanSegment RawDataHdrAA where
  hdr := ⟨0xfaaa, 1, 2, ofset, 0, 9000, 0, 9, nanoSec, 7⟩
  dist := [dist]
  angle := [angle]
  energy := [5]

/-- The frame of that segment, with its checksum. -/
def halfFrame (ofset dist angle : U16) (nanoSec : U32) (chksum : U16) : List Byte :=
  let u16 (x : U16) : List Byte := [x.extractLsb' 0 8, x.extractLsb' 8 8]
  u16 0xfaaa ++ u16 1 ++ u16 2 ++ u16 ofset ++ bytes32 0 ++ bytes32 9000 ++ bytes32 0 ++
    bytes32 9 ++ bytes32 nanoSec ++ bytes32 7 ++ List.replicate 16 0 ++ u16 dist ++ u16 angle ++
    [5] ++ u16 chksum

/-- The call for that frame. -/
def halfCall (ofset dist angle : U16) (nanoSec : U32) (chksum : U16) :
    SegmentCall RawDataHdrAA where
  now := 0
  hdr := .ofBytes (halfFrame ofset dist angle nanoSec chksum)
  pdat := halfFrame ofset dist angle nanoSec chksum
  dat := default

/-- The call for the frame of a `0xC7` segment of a fan of two points. -/
def twoPointCall (ofset dist angle chksum : U16) : SegmentCall RawDataHdr7 where
  now := 0
  hdr := .ofBytes (twoPointFrame ofset dist angle chksum)
  pdat := twoPointFrame ofset dist angle chksum
  dat := default

/-- The first half of a fan is kept. -/
theorem aaCall_half :
    aaCall (.aa []) (halfCall 0 1000 0 100 0x278c) =
      .ok (.aa [halfSegment 0 1000 0 100],
        ⟨false, default, none, .aa [halfSegment 0 1000 0 100]⟩) := by
  have hseg : aa.getFanSegment (halfCall 0 1000 0 100 0x278c).hdr
      (halfCall 0 1000 0 100 0x278c).pdat = some (halfSegment 0 1000 0 100) := by
    decide
  rw [aaCall, getData0xAA, hseg]
  rfl

/-- Two halves of one instant. -/
theorem sameInstant_of_apart_halves :
    Along c7Call SameInstantC7 (.c7 []) [] ∧
      Along aaCall SameInstantAA (.aa [])
        [halfCall 0 1000 0 100 0x278c, halfCall 1 2000 4500 100 0x3d09] := by
  refine sameInstant_of_apart [] _ ⟨fun _ pending hpending seg hseg => ?_, fun last r hcall => ?_⟩
  · obtain rfl : [] = pending := Except.ok.inj hpending
    cases hseg
  · rw [aaCall_half] at hcall
    obtain ⟨rfl, rfl⟩ := Prod.mk.inj (Except.ok.inj hcall)
    refine ⟨fun _ pending hpending seg hseg => Or.inl ?_, fun _ _ _ => trivial⟩
    obtain rfl : [halfSegment 0 1000 0 100] = pending := Except.ok.inj hpending
    obtain rfl : halfSegment 0 1000 0 100 = seg := Option.some.inj hseg
    decide

/-- Two halves of one second, a hundred nanoseconds apart : they are packed in one fan. -/
theorem not_sameInstant :
    ¬((∀ calls, Along c7Call SameInstantC7 (.c7 []) calls) ∧
      ∀ calls, Along aaCall SameInstantAA (.aa []) calls) := by
  rintro ⟨-, h⟩
  obtain ⟨-, hrest⟩ := h [halfCall 0 1000 0 100 0x278c, halfCall 1 2000 4500 200 0x3d6d]
  obtain ⟨⟨pending, r, hpending, hr, hpacks⟩, -⟩ := hrest _ _ aaCall_half
  obtain rfl : [halfSegment 0 1000 0 100] = pending := Except.ok.inj hpending
  have hsecond : aa.getFanSegment (halfCall 1 2000 4500 200 0x3d6d).hdr
      (halfCall 1 2000 4500 200 0x3d6d).pdat = some (halfSegment 1 2000 4500 200) := by
    decide
  rw [getData0xAA, hsecond] at hr
  obtain ⟨fanSeg, seg, rest, hseg, hstore, -, hone⟩ := hpacks (by rw [← Except.ok.inj hr]; rfl)
  obtain rfl : halfSegment 1 2000 4500 200 = fanSeg := Option.some.inj (hsecond.symm.trans hseg)
  have hlist : seg :: rest = [halfSegment 0 1000 0 100, halfSegment 1 2000 4500 200] := by
    rw [← hstore]
    decide
  rw [hlist] at hone
  have heq : (halfSegment 0 1000 0 100).hdr.instant = (halfSegment 1 2000 4500 200).hdr.instant :=
    hone _ (by simp) _ (by simp)
  exact absurd heq (by decide)

end Mastiff.Lidar

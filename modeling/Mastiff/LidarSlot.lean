import Mastiff.LidarInstant
import Mastiff.LidarUart

/-!
# One slot for two kinds of segments

The pending segments of `0xC7` frames and those of `0xAA` frames hang on one untyped
pointer, `fan_segs_`, which `TryParseRawData` (`parse_libs/lidar_parser.cc`) casts to the
node type of the frame it has found. Nothing keeps the kinds of the segments apart.

`streamCalls` are the calls of `TryParseRawData` in a run over a byte stream, each with
the slot it is given, and `Slots` is a parser with a slot for each kind. The run uses its
slot at the right type exactly if the parser with two slots never meets a frame of one
kind with a fan of the other one unfinished (`usesOwn_iff`).
-/

set_option linter.unusedSectionVars false

open Memory Machine Bytes

namespace Mastiff.Lidar

/-! ## What is handed over -/

/-- A segment frame found at `idx`, whose decoder is handed the slot. -/
inductive Handed
  | c7 (idx : ℕ)
  | aa (idx : ℕ)
  deriving DecidableEq

/-- The frame kind the decoder is for. -/
def Handed.kind : Handed → FrameKind
  | c7 _ => .xC7
  | aa _ => .xAA

/-- The place of the frame. -/
def Handed.idx : Handed → ℕ
  | c7 idx => idx
  | aa idx => idx

/-- The segment frame `TryParseRawData` decodes. -/
def handed (buf : List Byte) : Option Handed :=
  match scan buf with
  | .ok (some (.frame k), idx) =>
    if idx + k.avail (pointsAt buf idx) ≤ buf.length then
      match k with
      | .xC7 => some (.c7 idx)
      | .xAA => some (.aa idx)
      | _ => none
    else none
  | _ => none

/-- The segments of `0xC7` frames in the slot. -/
def FanSegs.c7s : FanSegs → List (FanSegment RawDataHdr7)
  | c7 segs => segs
  | aa _ => []

/-- The segments of `0xAA` frames in the slot. -/
def FanSegs.aas : FanSegs → List (FanSegment RawDataHdrAA)
  | c7 _ => []
  | aa segs => segs

/-- The kinds of the frames for which `GetFanSegment` created the segments in the slot. -/
def FanSegs.kinds (segs : FanSegs) : List FrameKind :=
  segs.c7s.map (fun _ => .xC7) ++ segs.aas.map fun _ => .xAA

/-- A call of `TryParseRawData` on `buf`. -/
structure ParseCall where
  now : ℕ
  buf : List Byte
  args : ParseArgs

namespace ParseCall

/-- What the call returns. -/
def result (c : ParseCall) : Except Fault (ℤ × ParseArgs) :=
  tryParseRawData c.now c.buf true c.args

/-- The slot after the call. -/
def after (c : ParseCall) : FanSegs :=
  match c.result with
  | .ok r => r.2.fanSegs
  | .error _ => c.args.fanSegs

/-- A decoder is handed segments of its own kind only, and no node is read at the wrong
type. -/
structure UsesOwn (c : ParseCall) : Prop where
  kinds : ∀ h ∈ handed c.buf, ∀ k ∈ c.args.fanSegs.kinds, k = h.kind
  reads : c.result ≠ .error .wrongNode

end ParseCall

/-! ## A slot for each kind -/

/-- The bytes of the segment frame at `idx`, decoded. -/
def FanLayout.segmentAt {H : Type} (L : FanLayout H) (ofBytes : List Byte → H) (buf : List Byte)
    (idx : ℕ) : Except Fault (Option (FanSegment H)) := do
  let hdr := ofBytes (← slice buf idx L.hdrSize)
  let pdat ← slice buf idx (L.hdrSize + 5 * pointsAt buf idx + 2)
  return L.getFanSegment hdr pdat

/-- The pending list after a segment frame. -/
def FanLayout.pendingAfter {H : Type} (L : FanLayout H) (pending : List (FanSegment H)) :
    Except Fault (Option (FanSegment H)) → List (FanSegment H)
  | .ok (some fanSeg) => (L.collect 0 default pending fanSeg).pending
  | _ => pending

/-- The pending segments of each kind. -/
structure Slots where
  c7 : List (FanSegment RawDataHdr7)
  aa : List (FanSegment RawDataHdrAA)

/-- The slots of a parser with `segs` in its slot. -/
def FanSegs.slots (segs : FanSegs) : Slots :=
  ⟨segs.c7s, segs.aas⟩

namespace Slots

/-- A segment frame goes to the slot of its kind. -/
def step (s : Slots) (buf : List Byte) : Slots × Unit :=
  match handed buf with
  | some (.c7 idx) =>
    ({ s with c7 := Lidar.c7.pendingAfter s.c7 (Lidar.c7.segmentAt .ofBytes buf idx) }, ())
  | some (.aa idx) =>
    ({ s with aa := Lidar.aa.pendingAfter s.aa (Lidar.aa.segmentAt .ofBytes buf idx) }, ())
  | none => (s, ())

/-- No fan of the other kind is unfinished. -/
def Lone (s : Slots) : Handed → Prop
  | .c7 _ => s.aa = []
  | .aa _ => s.c7 = []

/-- A segment frame in `buf` does not come into an unfinished fan of the other kind. -/
def Clear (s : Slots) (buf : List Byte) : Prop :=
  ∀ h ∈ handed buf, s.Lone h

end Slots

/-! ## Calls that leave the slot -/

/-- The computation leaves `segs` in the slot, and reads no node at the wrong type. -/
def LeavesSlot {α : Type} (segs : FanSegs) (x : Except Fault (α × ParseArgs)) : Prop :=
  x ≠ .error .wrongNode ∧ ∀ r, x = .ok r → r.2.fanSegs = segs

section LeavesSlot

variable {α β : Type} {segs : FanSegs} {args : ParseArgs} {buf : List Byte} {idx : ℕ}

theorem leavesSlot_ok {r : α × ParseArgs} (h : r.2.fanSegs = segs) :
    LeavesSlot segs (.ok r : Except Fault (α × ParseArgs)) := by
  refine ⟨by simp, fun r' hr' => ?_⟩
  rw [← Except.ok.inj hr', h]

theorem leavesSlot_bind {x : Except Fault β} {f : β → Except Fault (α × ParseArgs)}
    (hx : x ≠ .error .wrongNode) (hf : ∀ a, x = .ok a → LeavesSlot segs (f a)) :
    LeavesSlot segs (x >>= f) := by
  refine ⟨bind_ne_error hx fun a ha => (hf a ha).1, fun r hr => ?_⟩
  obtain ⟨a, ha, hfa⟩ := bind_eq_ok.1 hr
  exact (hf a ha).2 r hfa

theorem leavesSlot_slice {n off : ℕ} {f : List Byte → Except Fault (α × ParseArgs)}
    (hf : ∀ b, LeavesSlot segs (f b)) : LeavesSlot segs (slice buf off n >>= f) :=
  leavesSlot_bind (slice_ne_error _ _ _ rfl) fun b _ => hf b

/-- The walk reads bytes only. -/
theorem scanFrom_ne_wrongNode (buf : List Byte) :
    ∀ turns idx, scanFrom buf turns idx ≠ .error .wrongNode
  | 0, idx => by simp [scanFrom]
  | turns + 1, idx => by
    by_cases hlt : idx + 12 < buf.length
    · rw [scanFrom, if_pos hlt]
      refine bind_ne_error ?_ fun l _ => ?_
      · rcases look_cases hlt with ⟨hok, -⟩ | ⟨-, -, herr⟩
        · simp [hok]
        · simp [herr]
      · cases l with
        | stop s => simp
        | skip n => exact scanFrom_ne_wrongNode buf turns (idx + n)
    · rw [scanFrom, if_neg hlt]
      simp

theorem leavesSlot_handle (m : Message) : LeavesSlot args.fanSegs (m.handle buf idx args) := by
  cases m with
  | lmsg => exact leavesSlot_slice fun b => leavesSlot_ok rfl
  | eprm | sPack => exact leavesSlot_slice fun b => leavesSlot_slice fun b' => leavesSlot_ok rfl
  | timeSync => exact leavesSlot_ok rfl
  | cPack | readZone | writeZone => exact leavesSlot_slice fun b => leavesSlot_ok rfl

theorem leavesSlot_handleStatus : LeavesSlot args.fanSegs (handleStatus buf idx args) := by
  refine leavesSlot_bind ?_ fun b _ => leavesSlot_ok rfl
  unfold readAt
  cases buf[idx + 2]? <;> simp

theorem leavesSlot_giveUp :
    LeavesSlot args.fanSegs (.ok (giveUp idx args) : Except Fault (ℤ × ParseArgs)) := by
  refine leavesSlot_ok ?_
  unfold giveUp
  split_ifs <;> rfl

/-- The kinds that come in one frame have no pending segments. -/
theorem leavesSlot_decodeFrame {now : ℕ} {withChk : Bool} {hdr : RawDataHdr} {k : FrameKind}
    (hC7 : k ≠ .xC7) (hAA : k ≠ .xAA) :
    LeavesSlot args.fanSegs (decodeFrame now buf idx withChk args hdr k) := by
  cases k with
  | xC7 => exact absurd rfl hC7
  | xAA => exact absurd rfl hAA
  | xCE => exact leavesSlot_slice fun b => leavesSlot_ok rfl
  | x9D | xDF | xCF | x99 =>
    exact leavesSlot_slice fun b => leavesSlot_slice fun b' => leavesSlot_ok rfl

theorem ofBytes_slice {b : List Byte} (h : slice buf idx hdrSize = .ok b) :
    RawDataHdr.ofBytes b = hdrAt buf idx := by
  unfold slice at h
  split_ifs at h
  rw [← Except.ok.inj h, RawDataHdr.ofBytes_take (Nat.le_refl _), hdrAt]

/-- A call that hands the slot to no decoder leaves it. -/
theorem leavesSlot_tryParseRawData {now : ℕ} {withChk : Bool} (h : handed buf = none) :
    LeavesSlot args.fanSegs (tryParseRawData now buf withChk args) := by
  refine leavesSlot_bind (scanFrom_ne_wrongNode _ _ _) fun out hscan => ?_
  obtain ⟨stop, idx⟩ := out
  match stop with
  | none => exact leavesSlot_giveUp
  | some (.message m) => exact leavesSlot_handle m
  | some .status => exact leavesSlot_handleStatus
  | some (.frame k) =>
    refine leavesSlot_bind (slice_ne_error _ _ _ rfl) fun b hb => ?_
    simp only [handed, hscan] at h
    simp only [ofBytes_slice hb]
    by_cases hin : idx + k.avail (pointsAt buf idx) ≤ buf.length
    · have hin' : idx + k.avail (hdrAt buf idx).N.toNat ≤ buf.length := hin
      rw [if_pos hin] at h
      rw [if_pos hin']
      have hdec : LeavesSlot args.fanSegs
          (decodeFrame now buf idx withChk args (hdrAt buf idx) k) :=
        leavesSlot_decodeFrame (by rintro rfl; cases h) (by rintro rfl; cases h)
      exact leavesSlot_bind hdec.1 fun out hout => leavesSlot_ok (hdec.2 out hout)
    · have hin' : ¬idx + k.avail (hdrAt buf idx).N.toNat ≤ buf.length := hin
      rw [if_neg hin']
      exact leavesSlot_giveUp

end LeavesSlot

/-! ## Calls that use the slot -/

variable {buf : List Byte} {now : ℕ} {withChk : Bool} {args : ParseArgs}

theorem handed_eq_some {h : Handed} (hh : handed buf = some h) :
    scan buf = .ok (some (.frame h.kind), h.idx) ∧
      h.idx + h.kind.avail (pointsAt buf h.idx) ≤ buf.length := by
  unfold handed at hh
  split at hh
  · rename_i k idx hscan
    split_ifs at hh with hin
    cases k <;> cases hh <;> exact ⟨hscan, hin⟩
  · cases hh

/-- `GetData0xC7` once `GetFanSegment` has decoded `seg`. -/
def takeC7 (now : ℕ) (dat : RawData) (last : FanSegs) :
    Option (FanSegment RawDataHdr7) → Except Fault (Collected FanSegs)
  | none => .ok ⟨false, dat, none, last⟩
  | some fanSeg => do
    let r := c7.collect now dat (← last.asC7) fanSeg
    return ⟨r.got, r.dat, r.result, .c7 r.pending⟩

/-- `GetData0xAA` once `GetFanSegment` has decoded `seg`. -/
def takeAA (now : ℕ) (dat : RawData) (last : FanSegs) :
    Option (FanSegment RawDataHdrAA) → Except Fault (Collected FanSegs)
  | none => .ok ⟨false, dat, none, last⟩
  | some fanSeg => do
    let r := aa.collect now dat (← last.asAA) fanSeg
    return ⟨r.got, r.dat, r.result, .aa r.pending⟩

theorem getData0xC7_eq (now : ℕ) (hdr : RawDataHdr7) (pdat : List Byte) (dat : RawData)
    (last : FanSegs) :
    getData0xC7 now hdr pdat dat last = takeC7 now dat last (c7.getFanSegment hdr pdat) := by
  rw [getData0xC7]
  cases c7.getFanSegment hdr pdat <;> rfl

theorem getData0xAA_eq (now : ℕ) (hdr : RawDataHdrAA) (pdat : List Byte) (dat : RawData)
    (last : FanSegs) :
    getData0xAA now hdr pdat dat last = takeAA now dat last (aa.getFanSegment hdr pdat) := by
  rw [getData0xAA]
  cases aa.getFanSegment hdr pdat <;> rfl

theorem hdrSize_le_of_handed {h : Handed} (hh : handed buf = some h) :
    h.idx + hdrSize ≤ buf.length := by
  have hin := (handed_eq_some hh).2
  cases h <;> simp only [Handed.kind, FrameKind.avail, hdrSize, hdr7Size, hdrAASize] at hin ⊢ <;>
    omega

/-- A call that finds a `0xC7` frame decodes it and gives the slot to `GetData0xC7`. -/
theorem tryParseRawData_c7 {idx : ℕ} (hh : handed buf = some (.c7 idx)) :
    tryParseRawData now buf withChk args = do
      let seg ← c7.segmentAt .ofBytes buf idx
      let r ← takeC7 now args.dat args.fanSegs seg
      let out := args.takeSegment r (FrameKind.xC7.consumed idx (pointsAt buf idx))
      return (if out.1 then 1 else 0, out.2) := by
  obtain ⟨hscan, hin⟩ := handed_eq_some hh
  rw [tryParseRawData_frame now withChk args hscan (hdrSize_le_of_handed hh), if_pos hin]
  simp only [Handed.kind, Handed.idx, decodeFrame, FanLayout.segmentAt, getData0xC7_eq, bind_assoc]
  rfl

/-- A call that finds a `0xAA` frame decodes it and gives the slot to `GetData0xAA`. -/
theorem tryParseRawData_aa {idx : ℕ} (hh : handed buf = some (.aa idx)) :
    tryParseRawData now buf withChk args = do
      let seg ← aa.segmentAt .ofBytes buf idx
      let r ← takeAA now args.dat args.fanSegs seg
      let out := args.takeSegment r (FrameKind.xAA.consumed idx (pointsAt buf idx))
      return (if out.1 then 1 else 0, out.2) := by
  obtain ⟨hscan, hin⟩ := handed_eq_some hh
  rw [tryParseRawData_frame now withChk args hscan (hdrSize_le_of_handed hh), if_pos hin]
  simp only [Handed.kind, Handed.idx, decodeFrame, FanLayout.segmentAt, getData0xAA_eq, bind_assoc]
  rfl

theorem FanLayout.segmentAt_ne_wrongNode {H : Type} (L : FanLayout H) (ofBytes : List Byte → H)
    (buf : List Byte) (idx : ℕ) : L.segmentAt ofBytes buf idx ≠ .error .wrongNode :=
  bind_ne_error (slice_ne_error _ _ _ rfl) fun _ _ =>
    bind_ne_error (slice_ne_error _ _ _ rfl) fun _ _ => by simp

/-- Which segments are pending does not depend on the clock and the fan before. -/
theorem FanLayout.collect_pending_congr {H : Type} (L : FanLayout H) (now now' : ℕ)
    (dat dat' : RawData) (pending : List (FanSegment H)) (fanSeg : FanSegment H) :
    (L.collect now dat pending fanSeg).pending = (L.collect now' dat' pending fanSeg).pending := by
  simp only [collect]
  rcases L.store pending fanSeg with ⟨result, - | ⟨seg, rest⟩⟩
  · rfl
  · simp only
    split_ifs <;> rfl

/-- With no segments of the other kind in the slot `GetData0xC7` goes through. -/
theorem takeC7_spec (now : ℕ) (dat : RawData) {last : FanSegs} (h : last.aas = [])
    (seg : Option (FanSegment RawDataHdr7)) :
    ∃ r, takeC7 now dat last seg = .ok r ∧
      r.pending.slots = ⟨c7.pendingAfter last.c7s (.ok seg), []⟩ := by
  cases seg with
  | none => exact ⟨_, rfl, by rw [FanSegs.slots, h]; rfl⟩
  | some fanSeg =>
    have hcongr := fun l => c7.collect_pending_congr now 0 dat default l fanSeg
    match last, h with
    | .c7 l, _ => exact ⟨_, rfl, congrArg (Slots.mk · []) (hcongr l)⟩
    | .aa [], _ => exact ⟨_, rfl, congrArg (Slots.mk · []) (hcongr [])⟩

/-- With no segments of the other kind in the slot `GetData0xAA` goes through. -/
theorem takeAA_spec (now : ℕ) (dat : RawData) {last : FanSegs} (h : last.c7s = [])
    (seg : Option (FanSegment RawDataHdrAA)) :
    ∃ r, takeAA now dat last seg = .ok r ∧
      r.pending.slots = ⟨[], aa.pendingAfter last.aas (.ok seg)⟩ := by
  cases seg with
  | none => exact ⟨_, rfl, by rw [FanSegs.slots, h]; rfl⟩
  | some fanSeg =>
    have hcongr := fun l => aa.collect_pending_congr now 0 dat default l fanSeg
    match last, h with
    | .aa l, _ => exact ⟨_, rfl, congrArg (Slots.mk []) (hcongr l)⟩
    | .c7 [], _ => exact ⟨_, rfl, congrArg (Slots.mk []) (hcongr [])⟩

/-- The segments in the slot are of the kind of a frame if there are none of the other. -/
theorem FanSegs.lone_iff (segs : FanSegs) (h : Handed) :
    (∀ k ∈ segs.kinds, k = h.kind) ↔ segs.slots.Lone h := by
  cases segs with
  | c7 segs => cases h <;> cases segs <;> simp [kinds, c7s, aas, slots, Slots.Lone, Handed.kind]
  | aa segs => cases h <;> cases segs <;> simp [kinds, c7s, aas, slots, Slots.Lone, Handed.kind]

theorem Slots.step_none (s : Slots) (hh : handed buf = none) : (s.step buf).1 = s := by
  rw [step, hh]

theorem Slots.step_c7 {idx : ℕ} (s : Slots) (hh : handed buf = some (.c7 idx)) :
    (s.step buf).1 = ⟨Lidar.c7.pendingAfter s.c7 (Lidar.c7.segmentAt .ofBytes buf idx), s.aa⟩ := by
  rw [step, hh]

theorem Slots.step_aa {idx : ℕ} (s : Slots) (hh : handed buf = some (.aa idx)) :
    (s.step buf).1 = ⟨s.c7, Lidar.aa.pendingAfter s.aa (Lidar.aa.segmentAt .ofBytes buf idx)⟩ := by
  rw [step, hh]

namespace ParseCall

variable {c : ParseCall}

/-- A call whose decoder goes through leaves what the decoder makes of the segment, or what
there was if the frame cannot be read. -/
theorem after_takeSegment {H : Type} {decoded : Except Fault (Option (FanSegment H))}
    {take : Option (FanSegment H) → Except Fault (Collected FanSegs)} {n : ℕ}
    {f : Except Fault (Option (FanSegment H)) → Slots}
    (hresult : c.result = do
      let seg ← decoded
      let r ← take seg
      let out := c.args.takeSegment r n
      return (if out.1 then 1 else 0, out.2))
    (hne : decoded ≠ .error .wrongNode) (herr : ∀ e, f (.error e) = c.args.fanSegs.slots)
    (htake : ∀ seg, ∃ r, take seg = .ok r ∧ r.pending.slots = f (.ok seg)) :
    c.result ≠ .error .wrongNode ∧ c.after.slots = f decoded := by
  rw [after, hresult]
  cases decoded with
  | error e => exact ⟨by simpa using hne, (herr e).symm⟩
  | ok seg =>
    obtain ⟨r, hr, hslots⟩ := htake seg
    simp only [ok_bind, hr]
    exact ⟨by simp, hslots⟩

/-- A call that meets no fan of the other kind reads no node at the wrong type, and does to
the slot what a parser with two slots does to them. -/
theorem step_of_clear (h : c.args.fanSegs.slots.Clear c.buf) :
    c.result ≠ .error .wrongNode ∧
      c.after.slots = (Slots.step c.args.fanSegs.slots c.buf).1 := by
  cases hh : handed c.buf with
  | none =>
    obtain ⟨hne, hleaves⟩ : LeavesSlot c.args.fanSegs c.result := leavesSlot_tryParseRawData hh
    refine ⟨hne, ?_⟩
    rw [Slots.step_none _ hh, after]
    cases hr : c.result with
    | error e => rfl
    | ok r => exact congrArg FanSegs.slots (hleaves r hr)
  | some found =>
    cases found with
    | c7 idx =>
      have haas : c.args.fanSegs.aas = [] := h _ hh
      rw [Slots.step_c7 _ hh]
      refine after_takeSegment (tryParseRawData_c7 hh) (c7.segmentAt_ne_wrongNode _ _ _)
        (f := fun d => ⟨c7.pendingAfter c.args.fanSegs.c7s d, c.args.fanSegs.aas⟩)
        (fun e => rfl) fun seg => ?_
      rw [haas]
      exact takeC7_spec c.now c.args.dat haas seg
    | aa idx =>
      have hc7s : c.args.fanSegs.c7s = [] := h _ hh
      rw [Slots.step_aa _ hh]
      refine after_takeSegment (tryParseRawData_aa hh) (aa.segmentAt_ne_wrongNode _ _ _)
        (f := fun d => ⟨c.args.fanSegs.c7s, aa.pendingAfter c.args.fanSegs.aas d⟩)
        (fun e => rfl) fun seg => ?_
      rw [hc7s]
      exact takeAA_spec c.now c.args.dat hc7s seg

theorem usesOwn_iff_clear : c.UsesOwn ↔ c.args.fanSegs.slots.Clear c.buf := by
  constructor
  · intro h found hfound
    exact (c.args.fanSegs.lone_iff found).1 (h.kinds found hfound)
  · intro h
    exact ⟨fun found hfound => (c.args.fanSegs.lone_iff found).2 (h found hfound),
      (step_of_clear h).1⟩

end ParseCall

/-! ## Calls one after the other -/

/-- The calls are made one after the other : the first finds `segs` in the slot, every other
one what the call before it left, and the last one leaves `segs'`. -/
def Threaded : FanSegs → List ParseCall → FanSegs → Prop
  | segs, [], segs' => segs' = segs
  | segs, c :: cs, segs' => c.args.fanSegs = segs ∧ Threaded c.after cs segs'

theorem Threaded.append {cs ds : List ParseCall} {segs segs' segs'' : FanSegs}
    (hcs : Threaded segs cs segs') (hds : Threaded segs' ds segs'') :
    Threaded segs (cs ++ ds) segs'' := by
  induction cs generalizing segs with
  | nil =>
    obtain rfl : segs' = segs := hcs
    exact hds
  | cons c cs ih => exact ⟨hcs.1, ih hcs.2⟩

/-- Calls made one after the other use the slot at the right type as long as the parser with
two slots meets no frame of one kind with a fan of the other one unfinished. -/
theorem Threaded.forall_usesOwn_iff {cs : List ParseCall} {segs segs' : FanSegs}
    (h : Threaded segs cs segs') :
    (∀ c ∈ cs, c.UsesOwn) ↔
      ∀ t ∈ trace Slots.step segs.slots (cs.map ParseCall.buf), t.before.Clear t.input := by
  induction cs generalizing segs with
  | nil => simp [trace]
  | cons c cs ih =>
    obtain ⟨rfl, hcs⟩ := h
    simp only [List.map_cons, trace, List.forall_mem_cons]
    rw [ParseCall.usesOwn_iff_clear]
    refine and_congr_right fun hclear => ?_
    rw [← (ParseCall.step_of_clear hclear).2]
    exact ih hcs

/-! ## The calls of a run -/

namespace LidarParser

/-- The call of `TryParseRawData` in a turn. -/
def turnCall (env : Env) (raw : List Byte) (cbufIdx : ℕ) (p : LidarParser) : ParseCall where
  now := env.sec
  buf := raw.drop cbufIdx
  args := {
    uartstate := env.uartstate
    dat := env.dat
    consume := 0
    result := .zero
    cmdheader := p.cmdheader
    fanSegs := p.fanSegs }

/-- The calls of a run of the loop, up to the first that goes wrong. -/
def loopCalls (env : Env) (raw : List Byte) : ℕ → ℕ → LidarParser → List ParseCall
  | 0, _, _ => []
  | turns + 1, cbufIdx, p =>
    turnCall env raw cbufIdx p :: match parseTurn env raw cbufIdx p with
      | .error _ => []
      | .ok (p, turn) =>
        let cbufIdx := cbufIdx + turn.consume
        let cbufLen : ℤ := raw.length - cbufIdx
        if cbufIdx ≤ cbufLen ∧ 0 < turn.consume then loopCalls env raw turns cbufIdx p else []

/-- The calls of a pass of `ParseUartBuffer`. -/
def passCalls (env : Env) (p : LidarParser) : List ParseCall :=
  let cbufLen := p.cbufRaw.cbufSize
  if cbufLen ≤ 100 then []
  else match p.cbufRaw.readSafely (List.replicate cbufLen.toNat 0) with
    | .error _ => []
    | .ok (ok, raw) => if !ok then [] else loopCalls env raw (raw.length + 1) 0 p

/-- `OnOriginalDataUart(si, buf, size)` of an idle parser, `buf` the `size` bytes. -/
def onOriginalDataUart (env : Env) (p : LidarParser) (buf : List Byte) :
    Except Fault LidarParser := do
  let r ← p.cbufRaw.push buf
  let out ← parseUartBuffer env { p with cbufRaw := r.2 }
  return out.2.1

/-- The calls of the pass over a chunk. -/
def chunkCalls (env : Env) (p : LidarParser) (buf : List Byte) : List ParseCall :=
  match p.cbufRaw.push buf with
  | .error _ => []
  | .ok r => passCalls env { p with cbufRaw := r.2 }

/-- The calls of a run over a stream that comes in chunks. -/
def streamCalls : LidarParser → List (Env × List Byte) → List ParseCall
  | _, [] => []
  | p, (env, buf) :: rest =>
    chunkCalls env p buf ++ match onOriginalDataUart env p buf with
      | .error _ => []
      | .ok p => streamCalls p rest

variable {env : Env} {raw : List Byte} {p p' : LidarParser}

/-- A turn leaves in the slot what its call does. -/
theorem parseTurn_fanSegs {cbufIdx : ℕ} {turn : Turn}
    (h : parseTurn env raw cbufIdx p = .ok (p', turn)) :
    p'.fanSegs = (turnCall env raw cbufIdx p).after := by
  obtain ⟨⟨r, args⟩, hcall, h⟩ := bind_eq_ok.1 h
  obtain ⟨⟨p₁, frame⟩, hdispatch, h⟩ := bind_eq_ok.1 h
  obtain ⟨p₂, hrelease, h⟩ := bind_eq_ok.1 h
  obtain ⟨rfl, -⟩ := Prod.mk.inj (Except.ok.inj h)
  have hresult : (turnCall env raw cbufIdx p).result = .ok (r, args) := hcall
  rw [release_fanSegs hrelease, (dispatch_leaves hdispatch).2, ParseCall.after, hresult]

/-- The calls of the loop are made one after the other. -/
theorem threaded_loopCalls (env : Env) (raw : List Byte) :
    ∀ (turns cbufIdx : ℕ) (p : LidarParser), ∃ segs,
      Threaded p.fanSegs (loopCalls env raw turns cbufIdx p) segs ∧
        ∀ p' log, parseLoop env raw turns cbufIdx p = .ok (p', log) → p'.fanSegs = segs
  | 0, cbufIdx, p => by
    refine ⟨p.fanSegs, rfl, fun p' log h => ?_⟩
    obtain ⟨rfl, -⟩ := Prod.mk.inj (Except.ok.inj h)
    rfl
  | turns + 1, cbufIdx, p => by
    rw [loopCalls]
    cases hturn : parseTurn env raw cbufIdx p with
    | error e =>
      refine ⟨_, ⟨rfl, rfl⟩, fun p' log h => ?_⟩
      rw [parseLoop, hturn] at h
      cases h
    | ok out =>
      obtain ⟨p₁, turn⟩ := out
      have hfan := parseTurn_fanSegs hturn
      simp only [parseLoop, hturn, ok_bind]
      by_cases hgo : ((cbufIdx + turn.consume : ℕ) : ℤ) ≤
          raw.length - (cbufIdx + turn.consume : ℕ) ∧ 0 < turn.consume
      · obtain ⟨segs, hthread, hend⟩ := threaded_loopCalls env raw turns (cbufIdx + turn.consume) p₁
        simp only [if_pos hgo]
        refine ⟨segs, ⟨rfl, hfan ▸ hthread⟩, fun p' log h => ?_⟩
        obtain ⟨⟨p₂, log'⟩, hloop, h⟩ := bind_eq_ok.1 h
        obtain ⟨rfl, -⟩ := Prod.mk.inj (Except.ok.inj h)
        exact hend _ _ hloop
      · simp only [if_neg hgo]
        refine ⟨_, ⟨rfl, rfl⟩, fun p' log h => ?_⟩
        obtain ⟨rfl, -⟩ := Prod.mk.inj (Except.ok.inj h)
        exact hfan

/-- The calls of a pass are made one after the other. -/
theorem threaded_passCalls (env : Env) (p : LidarParser) : ∃ segs,
    Threaded p.fanSegs (passCalls env p) segs ∧
      ∀ ret p' log, parseUartBuffer env p = .ok (ret, p', log) → p'.fanSegs = segs := by
  rw [passCalls]
  by_cases hlen : p.cbufRaw.cbufSize ≤ 100
  · simp only [parseUartBuffer, if_pos hlen]
    refine ⟨_, rfl, fun ret p' log h => ?_⟩
    obtain ⟨-, h⟩ := Prod.mk.inj (Except.ok.inj h)
    rw [(Prod.mk.inj h).1]
  · simp only [parseUartBuffer, if_neg hlen]
    cases p.cbufRaw.readSafely (List.replicate p.cbufRaw.cbufSize.toNat 0) with
    | error e => exact ⟨_, rfl, fun ret p' log h => by cases h⟩
    | ok out =>
      obtain ⟨- | -, raw⟩ := out
      · refine ⟨_, rfl, fun ret p' log h => ?_⟩
        obtain ⟨-, h⟩ := Prod.mk.inj (Except.ok.inj h)
        rw [← (Prod.mk.inj h).1]
      · obtain ⟨segs, hthread, hend⟩ := threaded_loopCalls env raw (raw.length + 1) 0 p
        refine ⟨segs, hthread, fun ret p' log h => ?_⟩
        simp only [ok_bind, Bool.not_true, Bool.false_eq_true, if_false] at h
        obtain ⟨⟨p₁, log₁⟩, hloop, h⟩ := bind_eq_ok.1 h
        obtain ⟨-, h⟩ := Prod.mk.inj (Except.ok.inj h)
        rw [← (Prod.mk.inj h).1]
        exact hend _ _ hloop

/-- The calls of a run over a stream are made one after the other. -/
theorem threaded_streamCalls :
    ∀ (chunks : List (Env × List Byte)) (p : LidarParser),
      ∃ segs, Threaded p.fanSegs (streamCalls p chunks) segs
  | [], p => ⟨_, rfl⟩
  | (env, buf) :: rest, p => by
    rw [streamCalls, chunkCalls, onOriginalDataUart]
    cases p.cbufRaw.push buf with
    | error e => exact ⟨_, rfl⟩
    | ok r =>
      obtain ⟨segs, hpass, hend⟩ := threaded_passCalls env { p with cbufRaw := r.2 }
      simp only [ok_bind]
      cases hrun : parseUartBuffer env { p with cbufRaw := r.2 } with
      | error e =>
        refine ⟨segs, ?_⟩
        simpa using hpass
      | ok out =>
        obtain ⟨segs', hrest⟩ := threaded_streamCalls rest out.2.1
        rw [hend _ _ _ hrun] at hrest
        exact ⟨segs', hpass.append hrest⟩

/-- On every stream of bytes, the decoders are handed segments of their own kind and no node
is read at the wrong type exactly if a parser with a slot for each kind meets no frame of
one kind with a fan of the other one unfinished. -/
theorem usesOwn_iff (p : LidarParser) (chunks : List (Env × List Byte)) :
    (∀ c ∈ streamCalls p chunks, c.UsesOwn) ↔
      ∀ t ∈ trace Slots.step p.fanSegs.slots ((streamCalls p chunks).map ParseCall.buf),
        t.before.Clear t.input := by
  obtain ⟨segs, hthread⟩ := threaded_streamCalls chunks p
  exact hthread.forall_usesOwn_iff

/-- A started parser with an empty buffer of `cap` bytes and no pending segments. -/
def started (cap : ℕ) : LidarParser :=
  { full [] with cbufRaw := (CircularBuffer.new cap).opened }

/-- The first half of a `0xAA` fan, then half of a `0xC7` fan. -/
def mixedStream : List Byte :=
  halfFrame 0 1000 0 100 0x278c ++ twoPointFrame 0 1000 0 0x2728 ++ List.replicate 60 0

/-- The second call of the pass hands the segment of the `0xAA` frame to `GetData0xC7`. -/
theorem not_usesOwn :
    ¬∀ (cap : ℕ) (chunks : List (Env × List Byte)),
      ∀ c ∈ streamCalls (started cap) chunks, c.UsesOwn := by
  intro h
  obtain ⟨c, hc, found, hfound, k, hk, hne⟩ :
      ∃ c ∈ streamCalls (started 256) [(⟨0, 0, default, default⟩, mixedStream)],
        ∃ found ∈ handed c.buf, ∃ k ∈ c.args.fanSegs.kinds, k ≠ found.kind := by
    decide +kernel
  exact hne ((h _ _ c hc).kinds found hfound k hk)

end LidarParser

end Mastiff.Lidar

import Mathlib.Logic.Function.Basic
import Mastiff.LineLaserPoints

/-!
# The camera parameters of the line laser

`LineLaserParser::ParseCameraParam` (`parse_libs/linelaser_parser.cc`) stores the parameters of
a frame in arrays of `PackageMaxModuleNums` entries, at half of the address byte.
`AngTransform` reads the first entry for every point, and one flag, `have_params_`, stands for
the entries of all modules.

`keepsModules_iff` : along a sequence of frames the writes stay in bounds, and points are
converted only with an entry that has been written, exactly when every parameter frame has an
address below 6, and no scan frame with a point comes between the first parameter frame and the
first one with the address 0 or 1.
-/

set_option linter.unusedSectionVars false

open Memory Machine Bytes

namespace Mastiff.LineLaser

variable {α β : Type}

/-! ## Parameters -/

/-- `PackageMaxModuleNums`. -/
def packageMaxModuleNums : ℕ :=
  3

/-- An array with an entry for each module. What has not been written is `none`. -/
abbrev ModuleArray (β : Type) :=
  Fin packageMaxModuleNums → Option β

/-- The assignment to the entry `i` of an array. -/
def ModuleArray.write (a : ModuleArray β) (i : ℕ) (v : β) : Except Fault (ModuleArray β) :=
  if h : i < packageMaxModuleNums then .ok (Function.update a ⟨i, h⟩ (some v))
  else .error (.outOfBounds i packageMaxModuleNums)

/-- The arrays of the parser, with the numbers as a frame has them, before the divisions by
10000 and 10. -/
structure Modules where
  k0 : ModuleArray U16 := fun _ => none
  k1 : ModuleArray U16 := fun _ => none
  b0 : ModuleArray U16 := fun _ => none
  b1 : ModuleArray U16 := fun _ => none
  bias : ModuleArray Byte := fun _ => none

/-- `gs_device_para`, packed. -/
structure GsDevicePara where
  k0 : U16
  b0 : U16
  k1 : U16
  b1 : U16
  bias : Byte

/-- The `memcpy` of the parameters of a frame. -/
def gsDevicePara (param : List Byte) : Except Fault GsDevicePara := do
  let info ← slice param 8 9
  return ⟨u16At info 0, u16At info 2, u16At info 4, u16At info 6, byteAt info 8⟩

/-- The parser with its arrays. -/
structure CameraParser (α : Type) extends LineLaserParser α where
  modules : Modules := {}

/-- `mdNum` of an address. -/
def mdNum (address : Byte) : ℕ :=
  (address >>> 1).toNat

/-- `ParseCameraParam(param, len)`. -/
def parseCameraParam (p : CameraParser α) (param : List Byte) (len : ℕ) :
    Except Fault (CameraParser α) :=
  if !checkCrc param len then .ok p
  else if len ≠ 18 then .ok p
  else do
    let address ← readAt param 4
    let info ← gsDevicePara param
    let k0 ← p.modules.k0.write (mdNum address) info.k0
    let k1 ← p.modules.k1.write (mdNum address) info.k1
    let b0 ← p.modules.b0.write (mdNum address) info.b0
    let b1 ← p.modules.b1.write (mdNum address) info.b1
    let bias ← p.modules.bias.write (mdNum address) info.bias
    return { p with haveParams := true, modules := ⟨k0, k1, b0, b1, bias⟩ }

/-! ## Points -/

/-- The entry that `AngTransform` reads, with 1 for `moduleNum`. -/
def angMdNum : Fin packageMaxModuleNums :=
  ⟨0x03 &&& (1 >>> 1), by decide⟩

/-- `AngTransform(dist, n, ...)` and the conversion to metres. `convert` makes a point of the two
coefficients and the bias that are read, the distance and the number of the point. -/
def angTransform (convert : Option U16 → Option U16 → Option Byte → U16 → ℕ → α) (m : Modules)
    (dist : U16) (n : ℕ) : α :=
  if n < 160 / 2 then convert (m.k0 angMdNum) (m.b0 angMdNum) (m.bias angMdNum) dist n
  else convert (m.k1 angMdNum) (m.b1 angMdNum) (m.bias angMdNum) dist n

/-- The switch on a dispatched frame, with the points that are converted. Without a frame
processor nothing comes after the first points. -/
def handle (convert : Option U16 → Option U16 → Option Byte → U16 → ℕ → α) (p : CameraParser α)
    (d : Dispatch) : Except Fault (CameraParser α × List α) :=
  match d.cmd with
  | .getParameter => do
    let p ← parseCameraParam p d.frame d.frame.length
    return (p, [])
  | .ansScan => do
    let r ← parseSigleFrame (angTransform convert p.modules) p.toLineLaserParser d.frame
      d.frame.length
    return ({ p with toLineLaserParser := r.parser }, r.points)
  | _ => return (p, [])

/-! ## Safety -/

/-- An entry has been written in every array. -/
structure Modules.Written (m : Modules) (i : Fin packageMaxModuleNums) : Prop where
  k0 : m.k0 i ≠ none
  k1 : m.k1 i ≠ none
  b0 : m.b0 i ≠ none
  b1 : m.b1 i ≠ none
  bias : m.bias i ≠ none

/-- A frame writes inside the arrays, and points are converted with an entry that has been
written. -/
structure KeepsModules (convert : Option U16 → Option U16 → Option Byte → U16 → ℕ → α)
    (p : CameraParser α) (d : Dispatch) : Prop where
  inBounds : ∃ r, handle convert p d = .ok r
  received : ∀ p' points, handle convert p d = .ok (p', points) → points ≠ [] →
    p.modules.Written angMdNum

namespace Dispatch

/-- `address` of the `GSHeaderInfo`. -/
def address (d : Dispatch) : Byte :=
  byteAt d.frame 4

/-- A parameter frame. -/
structure IsParam (d : Dispatch) : Prop where
  cmd : d.cmd = .getParameter
  crc : checkCrc d.frame d.frame.length = true
  length : d.frame.length = 18

/-- A scan frame with a point. -/
structure HasPoint (d : Dispatch) : Prop where
  cmd : d.cmd = .ansScan
  crc : checkCrc d.frame d.frame.length = true
  length : 12 ≤ d.frame.length

end Dispatch

/-- A parameter frame has an address of a module, and a scan frame with a point that comes after
a parameter frame comes after one with the address 0 or 1. -/
structure Covered (past : List Dispatch) (d : Dispatch) : Prop where
  address : d.IsParam → d.address < 6
  received : d.HasPoint → (∃ g ∈ past, g.IsParam) → ∃ g ∈ past, g.IsParam ∧ g.address < 2

/-! ## One frame -/

variable {convert : Option U16 → Option U16 → Option Byte → U16 → ℕ → α} {p : CameraParser α}
  {d : Dispatch}

theorem mdNum_eq (a : Byte) : mdNum a = a.toNat / 2 := by
  rw [mdNum, BitVec.toNat_ushiftRight, Nat.shiftRight_eq_div_pow]

theorem mdNum_lt_iff (a : Byte) : mdNum a < packageMaxModuleNums ↔ a < 6 := by
  have hsix : (6 : Byte).toNat = 6 := rfl
  rw [mdNum_eq, packageMaxModuleNums, BitVec.lt_def, hsix]
  omega

theorem mdNum_eq_angMdNum_iff (a : Byte) : mdNum a = angMdNum ↔ a < 2 := by
  have hzero : (angMdNum : ℕ) = 0 := rfl
  have htwo : (2 : Byte).toNat = 2 := rfl
  rw [mdNum_eq, hzero, BitVec.lt_def, htwo]
  omega

/-- The arrays with an entry written. -/
def Modules.store (m : Modules) (i : Fin packageMaxModuleNums) (info : GsDevicePara) : Modules where
  k0 := Function.update m.k0 i (some info.k0)
  k1 := Function.update m.k1 i (some info.k1)
  b0 := Function.update m.b0 i (some info.b0)
  b1 := Function.update m.b1 i (some info.b1)
  bias := Function.update m.bias i (some info.bias)

/-- An entry is written now, or was before. -/
theorem Modules.written_store_iff {m : Modules} {i j : Fin packageMaxModuleNums}
    {info : GsDevicePara} : (m.store i info).Written j ↔ i = j ∨ m.Written j := by
  by_cases hij : i = j
  · subst hij
    refine iff_of_true ⟨?_, ?_, ?_, ?_, ?_⟩ (.inl rfl)
    all_goals
      simp only [store, Function.update_self]
      exact Option.some_ne_none _
  · have hne : j ≠ i := Ne.symm hij
    rw [or_iff_right hij]
    constructor
    · rintro ⟨hk0, hk1, hb0, hb1, hbias⟩
      simp only [store, Function.update_of_ne hne] at hk0 hk1 hb0 hb1 hbias
      exact ⟨hk0, hk1, hb0, hb1, hbias⟩
    · rintro ⟨hk0, hk1, hb0, hb1, hbias⟩
      refine ⟨?_, ?_, ?_, ?_, ?_⟩
      all_goals
        simp only [store, Function.update_of_ne hne]
        assumption

theorem not_written_initial (i : Fin packageMaxModuleNums) : ¬Modules.Written {} i :=
  fun h => h.k0 rfl

theorem Dispatch.IsParam.exists_gsDevicePara (h : d.IsParam) :
    ∃ info, gsDevicePara d.frame = .ok info := by
  have hlen := h.length
  rw [gsDevicePara, slice_of_le (by omega)]
  exact ⟨_, rfl⟩

/-- A parameter frame with the address of a module is stored. -/
theorem Dispatch.IsParam.handle_of_lt (h : d.IsParam)
    (hlt : mdNum d.address < packageMaxModuleNums) : ∃ info, handle convert p d =
      .ok ({ p with haveParams := true, modules := p.modules.store ⟨_, hlt⟩ info }, []) := by
  have hlen := h.length
  obtain ⟨info, hinfo⟩ := h.exists_gsDevicePara
  refine ⟨info, ?_⟩
  have hwrite : ∀ {β : Type} (a : ModuleArray β) (v : β), a.write (mdNum d.address) v =
      .ok (Function.update a ⟨_, hlt⟩ (some v)) := fun a v => dif_pos hlt
  have haddress : readAt d.frame 4 = .ok d.address := readAt_eq_byteAt (by omega)
  simp only [handle, h.cmd, parseCameraParam]
  rw [if_neg (by simp [h.crc]), if_neg (by simp [hlen]), haddress, ok_bind, hinfo, ok_bind,
    hwrite, hwrite, hwrite, hwrite, hwrite]
  rfl

/-- With any other address it is written outside the arrays. -/
theorem Dispatch.IsParam.handle_of_le (h : d.IsParam)
    (hle : packageMaxModuleNums ≤ mdNum d.address) :
    handle convert p d = .error (.outOfBounds (mdNum d.address) packageMaxModuleNums) := by
  have hlen := h.length
  obtain ⟨info, hinfo⟩ := h.exists_gsDevicePara
  have hwrite : p.modules.k0.write (mdNum d.address) info.k0 =
      .error (.outOfBounds (mdNum d.address) packageMaxModuleNums) := dif_neg (Nat.not_lt.2 hle)
  have haddress : readAt d.frame 4 = .ok d.address := readAt_eq_byteAt (by omega)
  simp only [handle, h.cmd, parseCameraParam]
  rw [if_neg (by simp [h.crc]), if_neg (by simp [hlen]), haddress, ok_bind, hinfo, ok_bind, hwrite]
  rfl

/-- Points are made of a frame with room for one and a right checksum, once there are
parameters. -/
theorem parseSigleFrame_points (place : U16 → ℕ → α) (p : LineLaserParser α) (f : List Byte) :
    ∃ r, parseSigleFrame place p f f.length = .ok r ∧ r.parser.haveParams = p.haveParams ∧
      (r.points ≠ [] ↔ p.haveParams = true ∧ checkCrc f f.length = true ∧ 12 ≤ f.length) := by
  obtain ⟨points, hloop, hcount⟩ : ∃ points, pointLoop place f f.length 10 0 = .ok points ∧
      points.length = (f.length - 10) / 2 :=
    ⟨_, pointLoop_eq fun k hk => by omega, by rw [List.length_map, List.length_range]⟩
  rw [parseSigleFrame]
  cases hparams : p.haveParams with
  | false => exact ⟨_, rfl, hparams, by simp [Parsed.points]⟩
  | true =>
    cases hcrc : checkCrc f f.length with
    | false => exact ⟨_, rfl, hparams, by simp [Parsed.points]⟩
    | true =>
      rw [if_neg (by simp), if_neg (by simp), hloop, ok_bind]
      have hpoints : points ≠ [] ↔ 12 ≤ f.length := by
        rw [← List.length_pos_iff, hcount]
        omega
      simp only [true_and, ← hpoints]
      split_ifs with hnone
      · have hnil := List.eq_nil_of_length_eq_zero hnone
        exact ⟨_, rfl, hparams, by simp [Parsed.points, hnil]⟩
      · cases p.frameProcessorSp with
        | some frameProcessor => exact ⟨_, rfl, hparams, Iff.rfl⟩
        | none => exact ⟨_, rfl, hparams, Iff.rfl⟩

/-- Every other frame leaves the parameters, and is converted to points if it has some and
there are parameters. -/
theorem handle_of_not_isParam (h : ¬d.IsParam) : ∃ p' points,
    handle convert p d = .ok (p', points) ∧ p'.haveParams = p.haveParams ∧
      p'.modules = p.modules ∧ (points ≠ [] ↔ d.HasPoint ∧ p.haveParams = true) := by
  have hnothing : ∀ cmd, cmd ≠ .ansScan → d.cmd = cmd →
      (([] : List α) ≠ [] ↔ d.HasPoint ∧ p.haveParams = true) := fun cmd hne hcmd =>
    iff_of_false (fun hnil => hnil rfl) fun hscan => hne (hcmd.symm.trans hscan.1.cmd)
  rw [handle]
  cases hcmd : d.cmd with
  | getParameter =>
    have hstay : parseCameraParam p d.frame d.frame.length = .ok p := by
      rw [parseCameraParam]
      cases hcrc : checkCrc d.frame d.frame.length with
      | false => rfl
      | true => rw [if_neg (by simp), if_pos fun hlength => h ⟨hcmd, hcrc, hlength⟩]
    simp only [hstay, ok_bind]
    exact ⟨_, _, rfl, rfl, rfl, hnothing .getParameter (by simp) hcmd⟩
  | ansScan =>
    obtain ⟨r, hr, hparams, hpoints⟩ := parseSigleFrame_points
      (angTransform convert p.modules) p.toLineLaserParser d.frame
    simp only [hr, ok_bind]
    refine ⟨_, _, rfl, hparams, rfl, hpoints.trans ⟨?_, ?_⟩⟩
    · rintro ⟨hhave, hcrc, hlength⟩
      exact ⟨⟨hcmd, hcrc, hlength⟩, hhave⟩
    · rintro ⟨hscan, hhave⟩
      exact ⟨hhave, hscan.crc, hscan.length⟩
  | getAddress => exact ⟨_, _, rfl, rfl, rfl, hnothing .getAddress (by simp) hcmd⟩
  | stop => exact ⟨_, _, rfl, rfl, rfl, hnothing .stop (by simp) hcmd⟩
  | getVersion => exact ⟨_, _, rfl, rfl, rfl, hnothing .getVersion (by simp) hcmd⟩
  | other cmd => exact ⟨_, _, rfl, rfl, rfl, hnothing (.other cmd) (by simp) hcmd⟩

/-! ## Sequences of frames -/

/-- What the parser has of the parameter frames that came before. -/
structure Reflects (past : List Dispatch) (p : CameraParser α) : Prop where
  haveParams : p.haveParams = true ↔ ∃ g ∈ past, g.IsParam
  written : p.modules.Written angMdNum ↔ ∃ g ∈ past, g.IsParam ∧ g.address < 2

variable {past : List Dispatch}

/-- The modules are kept exactly when the frames before cover the frame. -/
theorem Reflects.keepsModules_iff_covered (h : Reflects past p) :
    KeepsModules convert p d ↔ Covered past d := by
  by_cases hparam : d.IsParam
  · have hnoPoint : ¬d.HasPoint := fun hscan => by
      have hcmd := hscan.cmd
      rw [hparam.cmd] at hcmd
      cases hcmd
    constructor
    · rintro ⟨⟨r, hr⟩, -⟩
      refine ⟨fun _ => (mdNum_lt_iff _).1 ?_, fun hscan => absurd hscan hnoPoint⟩
      by_contra hle
      rw [hparam.handle_of_le (Nat.not_lt.1 hle)] at hr
      cases hr
    · intro hcovered
      obtain ⟨info, hok⟩ := @Dispatch.IsParam.handle_of_lt α convert p d hparam
        ((mdNum_lt_iff _).2 (hcovered.address hparam))
      refine ⟨⟨_, hok⟩, fun p' points h' hne => ?_⟩
      obtain ⟨-, rfl⟩ := Prod.mk.inj (Except.ok.inj (hok.symm.trans h'))
      exact absurd rfl hne
  · obtain ⟨p', points, hok, -, -, hpoints⟩ := @handle_of_not_isParam α convert p d hparam
    rw [h.haveParams] at hpoints
    constructor
    · rintro ⟨-, hreceived⟩
      refine ⟨fun h' => absurd h' hparam, fun hscan hsome => h.written.1 ?_⟩
      exact hreceived p' points hok (hpoints.2 ⟨hscan, hsome⟩)
    · intro hcovered
      refine ⟨⟨_, hok⟩, fun p₁ points₁ h₁ hne => h.written.2 ?_⟩
      obtain ⟨-, rfl⟩ := Prod.mk.inj (Except.ok.inj (hok.symm.trans h₁))
      obtain ⟨hscan, hsome⟩ := hpoints.1 hne
      exact hcovered.received hscan hsome

/-- After such a frame the parser has its parameters too. -/
theorem Reflects.step (h : Reflects past p) (hkeeps : KeepsModules convert p d) :
    ∃ p' points, handle convert p d = .ok (p', points) ∧ Reflects (past ++ [d]) p' := by
  have hmore : ∀ P : Dispatch → Prop, (∃ g ∈ past ++ [d], P g) ↔ (∃ g ∈ past, P g) ∨ P d :=
    fun P => by simp [or_and_right, exists_or]
  by_cases hparam : d.IsParam
  · have hlt := (mdNum_lt_iff _).2 ((h.keepsModules_iff_covered.1 hkeeps).address hparam)
    obtain ⟨info, hok⟩ := @Dispatch.IsParam.handle_of_lt α convert p d hparam hlt
    refine ⟨_, _, hok, ?_, ?_⟩
    · rw [hmore]
      exact iff_of_true rfl (.inr hparam)
    · rw [hmore, Modules.written_store_iff, h.written, ← mdNum_eq_angMdNum_iff, Fin.ext_iff,
        or_comm]
      exact or_congr_right (and_iff_right hparam).symm
  · obtain ⟨p', points, hok, hhave, hmodules, -⟩ := @handle_of_not_isParam α convert p d hparam
    refine ⟨p', points, hok, ?_, ?_⟩
    · rw [hmore, hhave, h.haveParams, or_iff_left hparam]
    · rw [hmore, hmodules, h.written, or_iff_left fun h' => hparam h'.1]

/-- The parser before the first frame. -/
def CameraParser.initial (frameProcessorSp : Option (PointCloud2 α → ℤ)) : CameraParser α where
  frameProcessorSp := frameProcessorSp

theorem reflects_initial (frameProcessorSp : Option (PointCloud2 α → ℤ)) :
    Reflects [] (CameraParser.initial frameProcessorSp) where
  haveParams := by simp [CameraParser.initial]
  written := by simp [CameraParser.initial, not_written_initial]

/-- For every sequence of dispatched frames, each writes its parameters in bounds and is
converted with an entry that has been written, exactly when the frames before it cover it. -/
theorem keepsModules_iff (convert : Option U16 → Option U16 → Option Byte → U16 → ℕ → α)
    (frameProcessorSp : Option (PointCloud2 α → ℤ)) (frames : List Dispatch) :
    Along (handle convert) (KeepsModules convert) (CameraParser.initial frameProcessorSp) frames ↔
      ∀ past d later, frames = past ++ d :: later → Covered past d := by
  have hiff := @along_iff_forall_history _ _ _ _ (handle convert) (KeepsModules convert) Covered
    Reflects (fun _ _ _ h => h.keepsModules_iff_covered) (fun _ _ _ h hkeeps => h.step hkeeps)
    frames [] (CameraParser.initial frameProcessorSp) (reflects_initial frameProcessorSp)
  exact hiff

/-- A parameter frame of the module at an address, all numbers zero. -/
def paramFrame (address : Byte) : Dispatch where
  frame := [0xA5, 0xA5, 0xA5, 0xA5, address, 0x61, 0x09, 0x00,
    0, 0, 0, 0, 0, 0, 0, 0, 0, address + 0x6A]
  cmd := .getParameter

/-- The scan frame of one point. -/
def scanFrame : Dispatch :=
  ⟨evenFrame, .ansScan⟩

/-- The address 6 is outside the arrays, and after the address 4 the entry that is read has not
been written. -/
theorem not_keepsModules :
    ((paramFrame 6).cmd = gsCommand (cmdType (paramFrame 6).frame) ∧
      ValidFrame (paramFrame 6).frame ∧
      ¬Along (handle fun k _ _ _ _ => k) (KeepsModules fun k _ _ _ _ => k)
        (CameraParser.initial (some fun _ => 0)) [paramFrame 6]) ∧
    ((paramFrame 4).cmd = gsCommand (cmdType (paramFrame 4).frame) ∧
      scanFrame.cmd = gsCommand (cmdType scanFrame.frame) ∧
      ValidFrame (paramFrame 4).frame ∧ ValidFrame scanFrame.frame ∧
      ¬Along (handle fun k _ _ _ _ => k) (KeepsModules fun k _ _ _ _ => k)
        (CameraParser.initial (some fun _ => 0)) [paramFrame 4, scanFrame]) := by
  have hparam : ∀ address, checkCrc (paramFrame address).frame 18 = true →
      (paramFrame address).IsParam := fun address hcrc => ⟨rfl, hcrc, rfl⟩
  refine ⟨⟨by decide, ⟨by decide, by decide, by decide⟩, ?_⟩,
    ⟨by decide, by decide, ⟨by decide, by decide, by decide⟩,
      ⟨by decide, by decide, by decide⟩, ?_⟩⟩
  · rintro ⟨hkeeps, -⟩
    have hcovered := (reflects_initial (some fun _ => 0)).keepsModules_iff_covered.1 hkeeps
    exact absurd (hcovered.address (hparam 6 (by decide))) (by decide)
  · rintro ⟨hkeeps, hrest⟩
    obtain ⟨p', points, hok, hreflects⟩ := (reflects_initial (some fun _ => 0)).step hkeeps
    have hcovered := hreflects.keepsModules_iff_covered.1 (hrest p' points hok).1
    have hfirst : ∃ g ∈ [paramFrame 4], g.IsParam :=
      ⟨_, List.mem_singleton_self _, hparam 4 (by decide)⟩
    obtain ⟨g, hg, -, haddress⟩ := hcovered.received ⟨rfl, by decide, by decide⟩ hfirst
    rw [List.nil_append, List.mem_singleton] at hg
    subst hg
    exact absurd haddress (by decide)

end Mastiff.LineLaser

import Mathlib.Data.ENat.Basic
import Mastiff.Lib.Circle
import Mastiff.Lib.Machine
import Mastiff.LidarFrames

/-!
# Scans from fans

`autoGetFirstAngle` picks the angle at which scans start, and `whole_data_process`
(`parse_libs/lidar_parser.cc`) collects fans until one ends there : it then reports the
collected fans if their spans add up to the circle and drops them otherwise. The caller
clears a reported list (`takeFan`).

The test does not look at the angles inside the list. Where every fan continues the one
before it, a reported scan covers the circle exactly once (`sound_of_continues`), and on
a stream that always has a fan end at the start angle every revolution after the first
such fan is reported, exactly once and with exactly its fans (`reports_revolutions`).
-/

set_option linter.unusedSectionVars false

open Memory Machine Circle Bytes

namespace Mastiff.Lidar

/-- Where a fan starts, in tenths of a degree. -/
def RawData.start (f : RawData) : ℕ :=
  f.angle.toNat

/-- How far a fan goes, in tenths of a degree. -/
def RawData.len (f : RawData) : ℕ :=
  f.span.toNat

/-! ## Assembling a scan -/

/-- The loop of `whole_data_process` over the fans, with `count`, `n` and `angles`. -/
def sumLoop : List RawData → ℤ → ℤ → ℤ → Except Fault (ℤ × ℤ × ℤ)
  | [], count, n, angles => .ok (count, n, angles)
  | tmp :: rest, count, n, angles => do
    let angles ← intAdd angles tmp.len
    let count ← intAdd count tmp.N.toNat
    let n ← intAdd n 1
    sumLoop rest count n angles

/-- The fan ends at the start angle. -/
def EndsAt (start : ℤ) (f : RawData) : Prop :=
  ((f.start + f.len) % 3600 : ℕ) = start

instance (start : ℤ) (f : RawData) : Decidable (EndsAt start f) :=
  inferInstanceAs (Decidable (_ = _))

/-- `whole_data_process(raw, collect_angle, whole_datas, error)`, with its return value. -/
def wholeDataProcess (raw : RawData) (collectAngle : ℤ) (wholeDatas : List RawData)
    (error : String) : Except Fault (ℤ × List RawData × String) :=
  let wholeDatas := wholeDatas ++ [raw]
  if EndsAt collectAngle raw then do
    let (count, n, angles) ← sumLoop wholeDatas 0 0 0
    if angles ≠ 3600 then
      return (-1, [], "angle sum " ++ toString angles ++ ", drop " ++ toString n ++ " fans " ++
        toString count ++ " points")
    else return (1, wholeDatas, error)
  else .ok (0, wholeDatas, error)

/-- `find(a, n, x)` on the vector `first :: rest` : the angle closest to `x`, the first
of several. -/
def findAngle (first : RawData) (rest : List RawData) (x : ℤ) : ℤ :=
  let near (f : RawData) : ℕ := ((f.start : ℤ) - x).natAbs
  (rest.foldl (fun best f => if near f < near best then f else best) first).start

/-- The loop of `autoGetFirstAngle` over the spans. -/
def spanLoop : List RawData → ℤ → Except Fault ℤ
  | [], angles => .ok angles
  | tmp :: rest, angles => do
    let angles ← intAdd angles tmp.len
    spanLoop rest angles

/-- `autoGetFirstAngle(raw, raws, error)`, with its return value. -/
def autoGetFirstAngle (raw : RawData) (raws : List RawData) (error : String) :
    Except Fault (ℤ × List RawData × String) :=
  match raws with
  | [] => .ok (-1, [raw], error)
  | first :: rest =>
    if raw.angle = first.angle then do
      let angles ← spanLoop (first :: rest) 0
      if angles ≠ 3600 then return (-2, [], "angle sum " ++ toString angles ++ "\n")
      else return (findAngle first rest 1800, [], error)
    else
      let last := rest.getLastD first
      if raw.start = (last.start + last.len) % 3600 then .ok (-1, first :: rest ++ [raw], error)
      else .ok (-1, first :: rest, error)

/-- A fan through `whole_data_process` and its caller, which clears the fans of a
reported scan. The outcome is the return value with the fans held at the return. -/
def takeFan (start : ℤ) (wholeDatas : List RawData) (raw : RawData) :
    Except Fault (List RawData × (ℤ × List RawData)) := do
  let (ret, held, _) ← wholeDataProcess raw start wholeDatas ""
  return (if ret = 1 then [] else held, (ret, held))

/-! ## One fan -/

/-- The sum of the spans. -/
def totalSpan (fans : List RawData) : ℕ :=
  (fans.map RawData.len).sum

theorem sumLoop_angles :
    ∀ {fans : List RawData} {count n angles : ℤ} {r : ℤ × ℤ × ℤ},
      sumLoop fans count n angles = .ok r → r.2.2 = angles + totalSpan fans
  | [], count, n, angles, r, h => by
    rw [← Except.ok.inj h]
    simp [totalSpan]
  | tmp :: rest, count, n, angles, r, h => by
    simp only [sumLoop, bind_eq_ok] at h
    obtain ⟨angles', ha, count', -, n', -, hrest⟩ := h
    rw [sumLoop_angles hrest, intAdd_eq_ok ha]
    simp only [totalSpan, List.map_cons, List.sum_cons, Nat.cast_add]
    omega

variable {start : ℤ} {datas : List RawData} {raw : RawData}

theorem takeFan_of_not_endsAt (datas : List RawData) (h : ¬EndsAt start raw) :
    takeFan start datas raw = .ok (datas ++ [raw], (0, datas ++ [raw])) := by
  rw [takeFan, wholeDataProcess, if_neg h]
  rfl

/-- A fan that ends at the start angle empties the list, and reports it if the spans add
up to the circle. -/
theorem takeFan_of_endsAt (datas : List RawData) (h : EndsAt start raw) :
    takeFan start datas raw = do
      let sums ← sumLoop (datas ++ [raw]) 0 0 0
      return ([], if sums.2.2 = 3600 then (1, datas ++ [raw]) else (-1, [])) := by
  rw [takeFan, wholeDataProcess, if_pos h]
  cases sumLoop (datas ++ [raw]) 0 0 0 with
  | error e => rfl
  | ok sums =>
    by_cases hsum : sums.2.2 = 3600
    · simp [hsum]
    · simp [hsum]

/-- The text left in `error` plays no part in what is held and returned. -/
theorem takeFan_of_process {ret : ℤ} {held : List RawData} {error error' : String}
    (h : wholeDataProcess raw start datas error = .ok (ret, held, error')) :
    takeFan start datas raw = .ok (if ret = 1 then [] else held, (ret, held)) := by
  by_cases hend : EndsAt start raw
  · rw [wholeDataProcess, if_pos hend, bind_eq_ok] at h
    obtain ⟨⟨count, n, angles⟩, hsums, hret⟩ := h
    rw [takeFan_of_endsAt datas hend, hsums, ok_bind]
    simp only at hret
    by_cases hsum : angles = 3600
    · rw [if_neg (not_not.2 hsum)] at hret
      obtain ⟨rfl, hheld⟩ := Prod.mk.inj (Except.ok.inj hret)
      obtain ⟨rfl, -⟩ := Prod.mk.inj hheld
      simp [hsum]
    · rw [if_pos hsum] at hret
      obtain ⟨rfl, hheld⟩ := Prod.mk.inj (Except.ok.inj hret)
      obtain ⟨rfl, -⟩ := Prod.mk.inj hheld
      simp [hsum]
  · rw [wholeDataProcess, if_neg hend] at h
    obtain ⟨rfl, hheld⟩ := Prod.mk.inj (Except.ok.inj h)
    obtain ⟨rfl, -⟩ := Prod.mk.inj hheld
    rw [takeFan_of_not_endsAt datas hend, if_neg (by decide)]

/-- A reported scan ends at the start angle and adds up to the circle. -/
theorem takeFan_eq_one {s : List RawData} {out : ℤ × List RawData}
    (h : takeFan start datas raw = .ok (s, out)) (hone : out.1 = 1) :
    EndsAt start raw ∧ totalSpan (datas ++ [raw]) = 3600 ∧ out.2 = datas ++ [raw] := by
  by_cases hend : EndsAt start raw
  · rw [takeFan_of_endsAt datas hend, bind_eq_ok] at h
    obtain ⟨sums, hsums, hout⟩ := h
    have hang := sumLoop_angles hsums
    obtain ⟨-, rfl⟩ := Prod.mk.inj (Except.ok.inj hout)
    by_cases hsum : sums.2.2 = 3600
    · rw [if_pos hsum]
      exact ⟨hend, by omega, rfl⟩
    · rw [if_neg hsum] at hone
      exact absurd hone (by simp)
  · rw [takeFan_of_not_endsAt datas hend] at h
    obtain ⟨-, rfl⟩ := Prod.mk.inj (Except.ok.inj h)
    cases hone

/-- What is held after a fan. -/
theorem takeFan_held {s : List RawData} {out : ℤ × List RawData}
    (h : takeFan start datas raw = .ok (s, out)) :
    s = if EndsAt start raw then [] else datas ++ [raw] := by
  split_ifs with hend
  · rw [takeFan_of_endsAt datas hend, bind_eq_ok] at h
    obtain ⟨sums, -, hout⟩ := h
    exact (Prod.mk.inj (Except.ok.inj hout)).1.symm
  · rw [takeFan_of_not_endsAt datas hend] at h
    exact (Prod.mk.inj (Except.ok.inj h)).1.symm

/-! ## Soundness -/

/-- The scan is contiguous, starts at the start angle and covers every tenth of a degree
of the circle exactly once. -/
structure Sound (start : ℤ) (scan : List RawData) : Prop where
  contiguous : Chained RawData.start RawData.len 3600 scan
  first : ∀ f ∈ scan.head?, (f.start : ℤ) % 3600 = start % 3600
  once : ∀ t < 3600, (cover RawData.start RawData.len 3600 scan).count t = 1

/-- Contiguous fans that add up to the circle and end at the start angle are a scan. -/
theorem sound_of_chained {fans : List RawData}
    (hchain : Chained RawData.start RawData.len 3600 (fans ++ [raw])) (hend : EndsAt start raw)
    (htotal : totalSpan (fans ++ [raw]) = 3600) : Sound start (fans ++ [raw]) := by
  obtain ⟨f, rest, hf⟩ : ∃ f rest, fans ++ [raw] = f :: rest := by
    cases fans with
    | nil => exact ⟨raw, [], rfl⟩
    | cons f fans => exact ⟨f, fans ++ [raw], rfl⟩
  have hlast : raw ∈ (f :: rest).getLast? := by
    rw [← hf]
    simp
  rw [hf] at hchain htotal ⊢
  refine ⟨hchain, ?_, fun t ht => count_cover hchain htotal ht⟩
  intro g hg
  obtain rfl : f = g := by simpa using hg
  have hto := end_of_chained hchain raw hlast
  have hsum : ((f :: rest).map RawData.len).sum = 3600 := htotal
  rw [hsum, Nat.add_mod_right] at hto
  have hstart : (((raw.start + raw.len) % 3600 : ℕ) : ℤ) = start := hend
  omega

/-- The second fan starts where the first ends, unless that is at the start angle. -/
def Continues (start : ℤ) (f g : RawData) : Prop :=
  EndsAt start f ∨ g.start = (f.start + f.len) % 3600

instance (start : ℤ) (f g : RawData) : Decidable (Continues start f g) :=
  inferInstanceAs (Decidable (_ ∨ _))

theorem chained_of_continues {fans : List RawData} (hchain : fans.IsChain (Continues start))
    (hnot : ∀ f ∈ fans.dropLast, ¬EndsAt start f) :
    Chained RawData.start RawData.len 3600 fans := by
  unfold Chained
  rw [List.isChain_iff_getElem] at hchain ⊢
  intro i hi
  rcases hchain i hi with hend | hnext
  · have hmem : fans[i] ∈ fans.dropLast := by
      refine List.mem_iff_getElem.2 ⟨i, by simp; omega, by simp⟩
    exact absurd hend (hnot _ hmem)
  · exact hnext

theorem sound_run :
    ∀ {fans datas : List RawData} {s : List RawData} {outs : List (ℤ × List RawData)},
      (datas ++ fans).IsChain (Continues start) → (∀ f ∈ datas, ¬EndsAt start f) →
      tryRun (takeFan start) datas fans = .ok (s, outs) →
      ∀ out ∈ outs, out.1 = 1 → Sound start out.2
  | [], datas, s, outs, _, _, hrun => by
    obtain ⟨-, rfl⟩ := Prod.mk.inj (Except.ok.inj hrun)
    simp
  | raw :: fans, datas, s, outs, hchain, hnot, hrun => by
    simp only [tryRun, bind_eq_ok, pure_eq_ok, Except.ok.injEq, Prod.mk.injEq] at hrun
    obtain ⟨⟨held, out₁⟩, hstep, ⟨s', outs'⟩, hrest, rfl, rfl⟩ := hrun
    have hsplit : datas ++ raw :: fans = (datas ++ [raw]) ++ fans := by simp
    rw [hsplit] at hchain
    rw [List.forall_mem_cons]
    constructor
    · intro hone
      obtain ⟨hend, htotal, hout⟩ := takeFan_eq_one hstep hone
      have hheld : Chained RawData.start RawData.len 3600 (datas ++ [raw]) :=
        chained_of_continues hchain.left_of_append (by simpa using hnot)
      exact hout ▸ sound_of_chained hheld hend htotal
    · have hheld := takeFan_held hstep
      split_ifs at hheld with hend
      · subst hheld
        have hfans : ([] ++ fans).IsChain (Continues start) := hchain.right_of_append
        exact sound_run hfans (by simp) hrest
      · subst hheld
        refine sound_run hchain ?_ hrest
        intro f hf
        rcases List.mem_append.1 hf with hf | hf
        · exact hnot f hf
        · rwa [List.mem_singleton.1 hf]

/-- If every fan starts where the one before it ends, unless that is at the start angle,
every reported scan is sound. -/
theorem sound_of_continues {start : ℤ} {fans s : List RawData}
    {outs : List (ℤ × List RawData)} (hchain : fans.IsChain (Continues start))
    (hrun : tryRun (takeFan start) [] fans = .ok (s, outs)) :
    ∀ out ∈ outs, out.1 = 1 → Sound start out.2 :=
  sound_run (show ([] ++ fans).IsChain (Continues start) from hchain) (by simp) hrun

/-- A fan from `angle` over `span` without points. -/
def bareFan (angle span : U16) : RawData :=
  { (default : RawData) with angle := angle, span := span }

/-- Two half circles. -/
theorem sound_of_continues_halves : Sound 0 [bareFan 0 1800, bareFan 1800 1800] := by
  have hchain : [bareFan 0 1800, bareFan 1800 1800].IsChain (Continues 0) := by decide
  have hrun : tryRun (takeFan 0) [] [bareFan 0 1800, bareFan 1800 1800] =
      .ok ([], [(0, [bareFan 0 1800]), (1, [bareFan 0 1800, bareFan 1800 1800])]) := by rfl
  exact sound_of_continues hchain hrun (1, _) (by simp) rfl

/-- A fan is lost and another sent twice : the scan overlaps itself and has a gap. -/
theorem not_sound :
    ¬∀ (start : ℤ) (fans s : List RawData) (outs : List (ℤ × List RawData)),
      tryRun (takeFan start) [] fans = .ok (s, outs) →
        ∀ out ∈ outs, out.1 = 1 → Sound start out.2 := by
  intro h
  have hrun : tryRun (takeFan 0) [] [bareFan 0 1800, bareFan 900 900, bareFan 2700 900] =
      .ok ([], [(0, [bareFan 0 1800]), (0, [bareFan 0 1800, bareFan 900 900]),
        (1, [bareFan 0 1800, bareFan 900 900, bareFan 2700 900])]) := by rfl
  have hsound : Sound 0 [bareFan 0 1800, bareFan 900 900, bareFan 2700 900] :=
    h 0 _ _ _ hrun (1, _) (by simp) rfl
  have hnext : (900 : ℕ) = (0 + 1800) % 3600 := (List.isChain_cons_cons.1 hsound.contiguous).1
  exact absurd hnext (by decide)

/-! ## Completeness -/

/-- The sums of a list whose spans and points stay in the type. -/
theorem sumLoop_of_le :
    ∀ {fans : List RawData} {count n angles : ℤ}, 0 ≤ count → 0 ≤ n → 0 ≤ angles →
      count + 65536 * fans.length ≤ intMax → n + fans.length ≤ intMax →
      angles + totalSpan fans ≤ intMax → ∃ r, sumLoop fans count n angles = .ok r
  | [], count, n, angles, _, _, _, _, _, _ => ⟨_, rfl⟩
  | f :: fans, count, n, angles, hc, hn, ha, hcount, hnum, hang => by
    have hN : f.N.toNat < 65536 := f.N.isLt
    simp only [totalSpan, List.map_cons, List.sum_cons, List.length_cons, Nat.cast_add,
      Nat.cast_one] at hcount hnum hang
    rw [sumLoop, intAdd_of_le (by omega) (by omega), ok_bind,
      intAdd_of_le (by omega) (by omega), ok_bind, intAdd_of_le (by omega) (by omega), ok_bind]
    exact sumLoop_of_le (by omega) (by omega) (by omega) (by omega) (by omega)
      (by simp only [totalSpan]; omega)

theorem length_le_totalSpan {fans : List RawData} (h : ∀ f ∈ fans, 0 < f.len) :
    fans.length ≤ totalSpan fans := by
  simpa [totalSpan] using List.length_le_sum_of_one_le (fans.map RawData.len)
    (List.forall_mem_map.2 h)

/-- The first `len` fans of a stream are contiguous and never pass the start angle inside
a fan : wherever they come to it, a fan ends. -/
structure Stream (start : ℕ) (fans : ℕ → RawData) (len : ℕ∞) : Prop where
  contiguous : ∀ n : ℕ, (n + 1 : ℕ) < len →
    (fans (n + 1)).start = ((fans n).start + (fans n).len) % 3600
  pos : ∀ n : ℕ, n < len → 0 < (fans n).len
  len_le : ∀ n : ℕ, n < len → (fans n).len ≤ 3600
  turns : ∀ n : ℕ, n < len → ∀ o, 0 < o → o < (fans n).len →
    ((fans n).start + o) % 3600 ≠ start

/-- The fans of a stream from `a` to before `b`. -/
def part (fans : ℕ → RawData) (a b : ℕ) : List RawData :=
  (List.range' a (b - a)).map fans

section Part

variable (fans : ℕ → RawData) {a b : ℕ}

theorem part_self (a : ℕ) : part fans a a = [] := by
  simp [part]

theorem part_succ (h : a ≤ b) : part fans a (b + 1) = part fans a b ++ [fans b] := by
  have hlen : b + 1 - a = b - a + 1 := by omega
  rw [part, hlen, List.range'_1_concat, List.map_append, part, Nat.add_sub_cancel' h]
  rfl

theorem totalSpan_part_succ (h : a ≤ b) :
    totalSpan (part fans a (b + 1)) = totalSpan (part fans a b) + (fans b).len := by
  simp [part_succ fans h, totalSpan]

theorem exists_of_mem_part {f : RawData} (h : f ∈ part fans a b) :
    ∃ n, a ≤ n ∧ n < b ∧ f = fans n := by
  obtain ⟨n, hn, rfl⟩ := List.mem_map.1 h
  obtain ⟨hle, hlt⟩ := List.mem_range'_1.1 hn
  exact ⟨n, hle, by omega, rfl⟩

end Part

/-- The number of the first fan held before fan `n` : the one after the last fan that
ends at the start angle. -/
def since (start : ℤ) (fans : ℕ → RawData) : ℕ → ℕ
  | 0 => 0
  | n + 1 => if EndsAt start (fans n) then n + 1 else since start fans n

theorem since_le (start : ℤ) (fans : ℕ → RawData) : ∀ n, since start fans n ≤ n
  | 0 => Nat.le_refl 0
  | n + 1 => by
    rw [since]
    split_ifs
    · exact Nat.le_refl _
    · exact (since_le start fans n).trans (Nat.le_succ n)

/-- No fan after a place ends at the start angle, so nothing is dropped since. -/
theorem since_eq_of_not {start : ℤ} {fans : ℕ → RawData} {a : ℕ} (ha : since start fans a = a) :
    ∀ {n : ℕ}, a ≤ n → (∀ m, a ≤ m → m < n → ¬EndsAt start (fans m)) → since start fans n = a
  | 0, han, _ => by
    obtain rfl : a = 0 := by omega
    exact ha
  | n + 1, han, hnot => by
    rcases Nat.eq_or_lt_of_le han with rfl | hlt
    · exact ha
    · rw [since, if_neg (hnot n (by omega) (by omega))]
      exact since_eq_of_not ha (by omega) fun m hm hmn => hnot m hm (by omega)

/-- The fan before the ones held ends at the start angle, and none of them does. -/
theorem since_spec (start : ℤ) (fans : ℕ → RawData) :
    ∀ n, (since start fans n = 0 ∨ ∃ b, since start fans n = b + 1 ∧ EndsAt start (fans b)) ∧
      ∀ m, since start fans n ≤ m → m < n → ¬EndsAt start (fans m)
  | 0 => ⟨Or.inl rfl, fun m _ hm => by omega⟩
  | n + 1 => by
    obtain ⟨hbefore, hnot⟩ := since_spec start fans n
    rw [since]
    split_ifs with hend
    · exact ⟨Or.inr ⟨n, rfl, hend⟩, fun m hm hmn => by omega⟩
    · refine ⟨hbefore, fun m hm hmn => ?_⟩
      rcases Nat.eq_or_lt_of_le (Nat.le_of_lt_succ hmn) with rfl | hlt
      · exact hend
      · exact hnot m hm hlt

/-- What is reported for fan `n` of a stream : the fans up to it since the last one that
ended at the start angle, if it ends there and they add up to the circle. -/
def report (start : ℤ) (fans : ℕ → RawData) (n : ℕ) : ℤ × List RawData :=
  let scan := part fans (since start fans n) (n + 1)
  if EndsAt start (fans n) then if totalSpan scan = 3600 then (1, scan) else (-1, [])
  else (0, scan)

/-- The scans among the outcomes. -/
def scans (outs : List (ℤ × List RawData)) : List (List RawData) :=
  outs.filterMap fun out => if out.1 = 1 then some out.2 else none

theorem scans_snoc (outs : List (ℤ × List RawData)) (out : ℤ × List RawData) :
    scans (outs ++ [out]) = scans outs ++ if out.1 = 1 then [out.2] else [] := by
  rw [scans, List.filterMap_append, scans]
  split_ifs with h <;> simp [h]

theorem report_of_not_endsAt {start : ℤ} {fans : ℕ → RawData} {n : ℕ}
    (h : ¬EndsAt start (fans n)) : (report start fans n).1 = 0 := by
  simp [report, h]

/-- Before the first fan that ends at the start angle nothing is reported. -/
theorem scans_report_eq_nil {start : ℤ} {fans : ℕ → RawData} :
    ∀ {n : ℕ}, (∀ m < n, ¬EndsAt start (fans m)) →
      scans ((List.range n).map (report start fans)) = []
  | 0, _ => rfl
  | n + 1, h => by
    rw [List.range_succ, List.map_append, List.map_singleton, scans_snoc,
      scans_report_eq_nil fun m hm => h m (by omega), report_of_not_endsAt (h n (by omega))]
    rfl

namespace Stream

variable {start : ℕ} {fans : ℕ → RawData} {len : ℕ∞}

/-- A fan that starts before the start angle, `w` after a fan starting at `a`, ends there
at the latest. -/
theorem reach (hs : Stream start fans len) (hstart : start < 3600) {n a w : ℕ} (hn : n < len)
    (hpos : (a + w) % 3600 = (fans n).start % 3600) (hlt : w < dist 3600 start a) :
    w + (fans n).len ≤ dist 3600 start a ∧
      (EndsAt start (fans n) ↔ w + (fans n).len = dist 3600 start a) := by
  have hmove : ∀ o, ((fans n).start + o) % 3600 = (a + (w + o)) % 3600 := by
    intro o
    rw [← Nat.add_assoc, ← Nat.mod_add_mod, ← hpos, Nat.mod_add_mod]
  have hle : w + (fans n).len ≤ dist 3600 start a := by
    by_contra hpass
    refine hs.turns n hn (dist 3600 start a - w) (by omega) (by omega) ?_
    rw [hmove, Nat.add_sub_cancel' hlt.le]
    exact (add_mod_eq_iff hstart (dist_pos hstart) (Nat.le_refl _)).2 rfl
  refine ⟨hle, ?_⟩
  have hpos' := hs.pos n hn
  rw [← add_mod_eq_iff hstart (by omega) hle, ← hmove, EndsAt, Nat.cast_inj]

/-- The fans held before fan `n` lead to it, and have not come to the start angle. -/
theorem progress (hs : Stream start fans len) (hstart : start < 3600) :
    ∀ {n : ℕ}, n < len →
      ((fans (since start fans n)).start + totalSpan (part fans (since start fans n) n)) % 3600 =
          (fans n).start % 3600 ∧
        totalSpan (part fans (since start fans n) n) <
          dist 3600 start (fans (since start fans n)).start
  | 0, _ => by
    rw [since, part_self]
    exact ⟨rfl, dist_pos hstart⟩
  | n + 1, hn => by
    have hn' : (n : ℕ∞) < len := lt_trans (by exact_mod_cast Nat.lt_succ_self n) hn
    rw [since]
    split_ifs with hend
    · rw [part_self]
      exact ⟨rfl, dist_pos hstart⟩
    · obtain ⟨hpos, hlt⟩ := progress hs hstart hn'
      obtain ⟨hle, hiff⟩ := hs.reach hstart hn' hpos hlt
      rw [totalSpan_part_succ fans (since_le _ _ _)]
      refine ⟨?_, lt_of_le_of_ne hle fun heq => hend (hiff.2 heq)⟩
      rw [hs.contiguous n hn, ← Nat.add_assoc, ← Nat.mod_add_mod, hpos, Nat.mod_add_mod,
        Nat.mod_mod]

/-- At a fan that ends at the start angle, the fans held add up to the way there. -/
theorem totalSpan_of_endsAt (hs : Stream start fans len) (hstart : start < 3600) {n : ℕ}
    (hn : n < len) (hend : EndsAt start (fans n)) :
    totalSpan (part fans (since start fans n) (n + 1)) =
      dist 3600 start (fans (since start fans n)).start := by
  obtain ⟨hpos, hlt⟩ := hs.progress hstart hn
  rw [totalSpan_part_succ fans (since_le _ _ _)]
  exact (hs.reach hstart hn hpos hlt).2.1 hend

theorem takeFan_part (hs : Stream start fans len) (hstart : start < 3600) {n : ℕ} (hn : n < len) :
    takeFan start (part fans (since start fans n) n) (fans n) =
      .ok (part fans (since start fans (n + 1)) (n + 1), report start fans n) := by
  have hpart := part_succ fans (since_le start fans n)
  by_cases hend : EndsAt start (fans n)
  · have htotal := hs.totalSpan_of_endsAt hstart hn hend
    have hle := dist_le 3600 start (fans (since start fans n)).start
    have hlen : (part fans (since start fans n) (n + 1)).length ≤ 3600 := by
      refine (length_le_totalSpan fun f hf => ?_).trans (htotal.trans_le hle)
      obtain ⟨m, -, hm, rfl⟩ := exists_of_mem_part fans hf
      refine hs.pos m (lt_of_le_of_lt ?_ hn)
      exact_mod_cast Nat.le_of_lt_succ hm
    have hmax : intMax = 2 ^ 31 - 1 := rfl
    obtain ⟨sums, hsums⟩ : ∃ r, sumLoop (part fans (since start fans n) (n + 1)) 0 0 0 = .ok r :=
      sumLoop_of_le (Int.le_refl 0) (Int.le_refl 0) (Int.le_refl 0) (by omega) (by omega)
        (by omega)
    have hang := sumLoop_angles hsums
    have hiff : sums.2.2 = 3600 ↔ totalSpan (part fans (since start fans n) (n + 1)) = 3600 := by
      omega
    rw [takeFan_of_endsAt _ hend, ← hpart, hsums, ok_bind, pure_eq_ok, since, if_pos hend,
      part_self, report]
    simp only [hend, hiff, if_true]
  · rw [takeFan_of_not_endsAt _ hend, ← hpart, since, if_neg hend, report]
    simp only [hend, if_false]

/-- The run on the first `n` fans of a stream. -/
theorem tryRun_takeFan (hs : Stream start fans len) (hstart : start < 3600) :
    ∀ {n : ℕ}, n ≤ len → tryRun (takeFan start) [] ((List.range n).map fans) =
      .ok (part fans (since start fans n) n, (List.range n).map (report start fans))
  | 0, _ => rfl
  | n + 1, hn => by
    have hn' : (n : ℕ∞) < len := lt_of_lt_of_le (by exact_mod_cast Nat.lt_succ_self n) hn
    rw [List.range_succ, List.map_append, List.map_append]
    exact tryRun_snoc_of_ok (hs.tryRun_takeFan hstart hn'.le) (hs.takeFan_part hstart hn')

/-- The fans between two that end at the start angle add up to the circle. -/
theorem totalSpan_revolution (hs : Stream start fans len) (hstart : start < 3600) {b n : ℕ}
    (hn : n < len) (hsince : since start fans n = b + 1) (hend : EndsAt start (fans b))
    (hend' : EndsAt start (fans n)) : totalSpan (part fans (b + 1) (n + 1)) = 3600 := by
  have hle := since_le start fans n
  have hnext : (fans (b + 1)).start % 3600 = start := by
    have hlt : ((b + 1 : ℕ) : ℕ∞) < len := lt_of_le_of_lt (by exact_mod_cast hsince ▸ hle) hn
    have hstop : (((fans b).start + (fans b).len) % 3600 : ℕ) = (start : ℤ) := hend
    rw [hs.contiguous b hlt, Nat.mod_mod]
    exact_mod_cast hstop
  have htotal := hs.totalSpan_of_endsAt hstart hn hend'
  rwa [hsince, dist_self hstart hnext] at htotal

/-- A fan that ends at the start angle, like an earlier one, completes a revolution. -/
theorem report_revolution (hs : Stream start fans len) (hstart : start < 3600) {b b' : ℕ}
    (hb : b < b') (hb' : b' < len) (hend : EndsAt start (fans b)) (hend' : EndsAt start (fans b'))
    (hbetween : ∀ m, b < m → m < b' → ¬EndsAt start (fans m)) :
    report start fans b' = (1, part fans (b + 1) (b' + 1)) := by
  have hsince : since start fans b' = b + 1 := by
    refine since_eq_of_not ?_ hb fun m hm hmb => hbetween m hm hmb
    rw [since, if_pos hend]
  rw [report, if_pos hend', hsince, if_pos (hs.totalSpan_revolution hstart hb' hsince hend hend')]

/-- The scans reported so far and the fans held are the stream, but for the fans up to the
first that ends at the start angle. -/
theorem scans_append_held (hs : Stream start fans len) (hstart : start < 3600) :
    ∀ {n : ℕ}, n ≤ len → ∃ d ≤ n,
      (d = 0 ∨ ∃ b, d = b + 1 ∧ EndsAt start (fans b) ∧ ∀ m < b, ¬EndsAt start (fans m)) ∧
        (scans ((List.range n).map (report start fans))).flatten ++
          part fans (since start fans n) n = part fans d n
  | 0, _ => ⟨0, Nat.le_refl 0, Or.inl rfl, rfl⟩
  | n + 1, hn => by
    have hn' : (n : ℕ∞) < len := lt_of_lt_of_le (by exact_mod_cast Nat.lt_succ_self n) hn
    obtain ⟨d, hd, hfirst, heq⟩ := hs.scans_append_held hstart hn'.le
    have hpart := part_succ fans (since_le start fans n)
    rw [List.range_succ, List.map_append, List.map_singleton, scans_snoc]
    by_cases hend : EndsAt start (fans n)
    · by_cases htotal : totalSpan (part fans (since start fans n) (n + 1)) = 3600
      · have hreport : report start fans n = (1, part fans (since start fans n) (n + 1)) := by
          rw [report, if_pos hend, if_pos htotal]
        refine ⟨d, by omega, hfirst, ?_⟩
        rw [hreport, since, if_pos hend, part_self, part_succ fans hd, ← heq, hpart]
        simp
      · have hbefore : ∀ m < n, ¬EndsAt start (fans m) := by
          obtain ⟨hzero | ⟨b, hb, hendb⟩, hnot⟩ := since_spec start fans n
          · exact fun m hm => hnot m (by omega) hm
          · rw [hb, hs.totalSpan_revolution hstart hn' hb hendb hend] at htotal
            exact absurd rfl htotal
        have hreport : report start fans n = (-1, []) := by
          rw [report, if_pos hend, if_neg htotal]
        refine ⟨n + 1, Nat.le_refl _, Or.inr ⟨n, rfl, hend, hbefore⟩, ?_⟩
        rw [hreport, scans_report_eq_nil hbefore, since, if_pos hend, part_self]
        rfl
    · refine ⟨d, by omega, hfirst, ?_⟩
      rw [report_of_not_endsAt hend, since, if_neg hend, hpart, part_succ fans hd, ← heq]
      simp

end Stream

/-- A stream of contiguous fans that always has a fan end at the start angle : a fan that
ends elsewhere reports nothing, the first that ends there reports all fans so far or drops
them, and every later one reports exactly the fans since the one before it. The scans
reported and the fans held are the stream but for what the first boundary dropped. -/
theorem reports_revolutions {start : ℕ} (hstart : start < 3600) {fans : ℕ → RawData} {len : ℕ∞}
    (hs : Stream start fans len) :
    ∃ (held : ℕ → List RawData) (out : ℕ → ℤ × List RawData),
      (∀ n : ℕ, n ≤ len → tryRun (takeFan start) [] ((List.range n).map fans) =
        .ok (held n, (List.range n).map out)) ∧
      (∀ n : ℕ, n < len → ¬EndsAt start (fans n) → (out n).1 = 0) ∧
      (∀ b : ℕ, b < len → EndsAt start (fans b) → (∀ m < b, ¬EndsAt start (fans m)) →
        out b = (1, part fans 0 (b + 1)) ∨ out b = (-1, [])) ∧
      (∀ b b' : ℕ, b < b' → b' < len → EndsAt start (fans b) → EndsAt start (fans b') →
        (∀ m, b < m → m < b' → ¬EndsAt start (fans m)) →
        out b' = (1, part fans (b + 1) (b' + 1))) ∧
      ∀ n : ℕ, n ≤ len → ∃ d ≤ n,
        (d = 0 ∨ ∃ b, d = b + 1 ∧ EndsAt start (fans b) ∧ ∀ m < b, ¬EndsAt start (fans m)) ∧
          (scans ((List.range n).map out)).flatten ++ held n = part fans d n := by
  refine ⟨fun n => part fans (since start fans n) n, report start fans,
    fun n hn => hs.tryRun_takeFan hstart hn, fun n _ hend => report_of_not_endsAt hend, ?_,
    fun b b' hb hb' hend hend' hbetween => hs.report_revolution hstart hb hb' hend hend' hbetween,
    fun n hn => hs.scans_append_held hstart hn⟩
  intro b _ hend hfirst
  have hsince : since start fans b = 0 :=
    since_eq_of_not rfl (Nat.zero_le b) fun m _ hm => hfirst m hm
  rw [report, if_pos hend, hsince]
  split_ifs
  · exact Or.inl rfl
  · exact Or.inr rfl

/-- Half circles for ever, the first of them the second half. -/
def halves (n : ℕ) : RawData :=
  if n % 2 = 0 then bareFan 1800 1800 else bareFan 0 1800

theorem stream_halves : Stream 0 halves ⊤ where
  contiguous n _ := by
    rcases Nat.mod_two_eq_zero_or_one n with h | h
    · rw [halves, halves, if_neg (by omega), if_pos h]
      rfl
    · rw [halves, halves, if_pos (by omega), if_neg (by omega)]
      rfl
  pos n _ := by
    unfold halves
    split_ifs <;> decide
  len_le n _ := by
    unfold halves
    split_ifs <;> decide
  turns n _ o hpos hlt := by
    unfold halves at hlt ⊢
    split_ifs at hlt ⊢
    · have hlt' : o < 1800 := hlt
      show (1800 + o) % 3600 ≠ 0
      omega
    · have hlt' : o < 1800 := hlt
      show (0 + o) % 3600 ≠ 0
      omega

/-- The scan between the first two boundaries of that stream. -/
theorem reports_revolutions_halves :
    ∃ out : ℕ → ℤ × List RawData,
      (∃ held : ℕ → List RawData, ∀ n : ℕ, n ≤ (⊤ : ℕ∞) →
        tryRun (takeFan (0 : ℕ)) [] ((List.range n).map halves) =
          .ok (held n, (List.range n).map out)) ∧
      out 2 = (1, [bareFan 0 1800, bareFan 1800 1800]) := by
  obtain ⟨held, out, hrun, -, -, hscan, -⟩ := reports_revolutions (by decide) stream_halves
  refine ⟨out, ⟨held, hrun⟩, ?_⟩
  refine hscan 0 2 (by decide) (ENat.natCast_lt_top 2) (by decide) (by decide) ?_
  intro m hm hm2
  obtain rfl : m = 1 := by omega
  decide

end Mastiff.Lidar

import Mathlib.Data.BitVec
import Mastiff.Lib.Binary32

/-!
# Grids of correspondence costs

A `Grid2D` (`cartographer/mapping/2d/grid_2d.cc`) has a `uint16` for each cell, which a table
(`cartographer/mapping/value_conversion_tables.cc`) turns into a correspondence cost. The scan
matcher takes one minus its absolute value for the probability of the cell, and maps the
probabilities to 0 to 255 (`ComputeCellValue` of `PrecomputationGrid2D`, `mapping/internal/2d/
scan_matching/fast_correlative_scan_matcher_2d.cc`).

The floats are the numbers of `Binary32`, every operation rounded by itself.

`Grid2D.cellValue_mem` : however the costs of the table are rounded, the value of a cell passes the
checks of `ComputeCellValue`, as long as the bounds of the costs are `Scaled`.
-/

set_option linter.unusedSectionVars false

namespace Mastiff.Cartographer

open Binary32

/-! ## Grids -/

/-- `kUpdateMarker`. -/
def kUpdateMarker : ℕ := 2 ^ 15

/-- `SlowValueToBoundedFloat`, for a value without the marker. -/
def slowValueToBoundedFloat (value unknownValue : ℕ) (unknownResult lowerBound upperBound : ℚ) :
    ℚ :=
  if value = unknownValue then unknownResult
  else
    let kScale := fl (fl (upperBound - lowerBound) / 32766)
    fl (fl (value * kScale) + fl (lowerBound - kScale))

/-- `Grid2D`, as far as the scan matcher reads it. Its constructor checks the bounds. -/
structure Grid2D where
  numXCells : ℕ
  numYCells : ℕ
  correspondenceCostCells : ℕ → BitVec 16
  minCorrespondenceCost : ℚ
  maxCorrespondenceCost : ℚ
  min_lt_max : minCorrespondenceCost < maxCorrespondenceCost

namespace Grid2D

/-- `GetCorrespondenceCost(cell_index)`. -/
def getCorrespondenceCost (g : Grid2D) (x y : ℕ) : ℚ :=
  if x < g.numXCells ∧ y < g.numYCells then
    slowValueToBoundedFloat
      ((g.correspondenceCostCells (g.numXCells * y + x)).toNat % kUpdateMarker) 0
      g.maxCorrespondenceCost g.minCorrespondenceCost g.maxCorrespondenceCost
  else g.maxCorrespondenceCost

/-- The probability of a cell. -/
def probability (g : Grid2D) (x y : ℕ) : ℚ :=
  fl (1 - |g.getCorrespondenceCost x y|)

/-- `min_score_`. -/
def minScore (g : Grid2D) : ℚ :=
  fl (1 - g.maxCorrespondenceCost)

/-- `max_score_`. -/
def maxScore (g : Grid2D) : ℚ :=
  fl (1 - g.minCorrespondenceCost)

/-- The `cell_value` of `ComputeCellValue`. -/
def cellValue (g : Grid2D) (probability : ℚ) : ℤ :=
  lround (fl (fl (probability - g.minScore) * fl (255 / fl (g.maxScore - g.minScore))))

/-- `ComputeCellValue(probability)`, `none` where a `CHECK` fails. -/
def computeCellValue (g : Grid2D) (probability : ℚ) : Option ℕ :=
  if 0 ≤ g.cellValue probability ∧ g.cellValue probability ≤ 255 then
    some (g.cellValue probability).toNat
  else none

/-- The value of a cell, 0 outside of the grid. -/
def value (g : Grid2D) (x y : ℤ) : ℕ :=
  if 0 ≤ x ∧ x < g.numXCells ∧ 0 ≤ y ∧ y < g.numYCells then
    (g.cellValue (g.probability x.toNat y.toNat)).toNat
  else 0

/-- Bounds of the costs that are not too close to each other, and small enough for no operation to
overflow. Those of a probability grid are so, and those of a truncated signed distance field from a
distance of 1/127 on. -/
structure Scaled (g : Grid2D) : Prop where
  neg_max_le : -g.maxCorrespondenceCost ≤ g.minCorrespondenceCost
  le_range : 1 + g.maxCorrespondenceCost ≤
    64 * (g.maxCorrespondenceCost - g.minCorrespondenceCost)
  max_le : g.maxCorrespondenceCost ≤ 2 ^ 60

end Grid2D

/-- `ToScore(value)` of a grid with such a `min_score_` and `max_score_`. -/
def toScore (minScore maxScore value : ℚ) : ℚ :=
  fl (minScore + fl (value * fl (fl (maxScore - minScore) / 255)))

namespace Grid2D

/-! ## Rounding errors -/

variable {g : Grid2D} {x y : ℕ}

/-- A cost of the table is between the bounds, up to its rounding error. -/
theorem slowValueToBoundedFloat_mem {v : ℕ} {m M W : ℚ} (hv : v ≤ 32767) (hW : 1 ≤ W)
    (hm : -W ≤ m) (hmM : m ≤ M) (hM : M ≤ W) :
    m - 21 * (W / 2 ^ 23) ≤ slowValueToBoundedFloat v 0 M m M ∧
      slowValueToBoundedFloat v 0 M m M ≤ M + 21 * (W / 2 ^ 23) := by
  rw [slowValueToBoundedFloat]
  split_ifs with hzero
  · constructor <;> linarith
  · have hone : (1 : ℚ) ≤ v := Nat.one_le_cast.2 (Nat.pos_of_ne_zero hzero)
    have hv' : (v : ℚ) ≤ 32767 := by exact_mod_cast hv
    -- the scale, and its errors
    have hR := abs_fl_sub_le_of_abs_le (x := M - m) (b := 2 * W)
      (by rw [abs_le]; constructor <;> linarith) (by norm_num; linarith)
    obtain ⟨hR₁, hR₂⟩ := abs_le.1 hR
    generalize fl (M - m) = R at hR hR₁ hR₂ ⊢
    have hk := abs_fl_sub_le_of_abs_le (x := R / 32766) (b := W / 10000)
      (by rw [abs_le]; constructor <;> linarith) (by norm_num; linarith)
    obtain ⟨hk₁, hk₂⟩ := abs_le.1 hk
    generalize fl (R / 32766) = k at hk hk₁ hk₂ ⊢
    -- what a value takes of it
    have hvk := mul_le_mul hv' hk (abs_nonneg _) (by norm_num)
    rw [← abs_of_nonneg (zero_le_one.trans hone), ← abs_mul, mul_sub] at hvk
    obtain ⟨hvk₁, hvk₂⟩ := abs_le.1 hvk
    have hvR := mul_le_mul hv' hR (abs_nonneg _) (by norm_num)
    rw [← abs_of_nonneg (zero_le_one.trans hone), ← abs_mul, mul_sub] at hvR
    obtain ⟨hvR₁, hvR₂⟩ := abs_le.1 hvR
    have hlow : M - m ≤ v * (M - m) := le_mul_of_one_le_left (sub_nonneg.2 hmM) hone
    have hhigh : v * (M - m) ≤ 32767 * (M - m) :=
      mul_le_mul_of_nonneg_right hv' (sub_nonneg.2 hmM)
    have ha := abs_fl_sub_le_of_abs_le (x := v * k) (b := 4 * W)
      (by rw [abs_le]; constructor <;> linarith) (by norm_num; linarith)
    obtain ⟨ha₁, ha₂⟩ := abs_le.1 ha
    have hb := abs_fl_sub_le_of_abs_le (x := m - k) (b := 2 * W)
      (by rw [abs_le]; constructor <;> linarith) (by norm_num; linarith)
    obtain ⟨hb₁, hb₂⟩ := abs_le.1 hb
    have hc := abs_fl_sub_le_of_abs_le (x := fl (v * k) + fl (m - k)) (b := 7 * W)
      (by rw [abs_le]; constructor <;> linarith) (by norm_num; linarith)
    obtain ⟨hc₁, hc₂⟩ := abs_le.1 hc
    constructor <;> linarith

namespace Scaled

/-- The part of the numbers in a grid that their errors are measured in. -/
def error (g : Grid2D) : ℚ :=
  (1 + g.maxCorrespondenceCost) / 2 ^ 23

theorem max_pos (h : g.Scaled) : 0 < g.maxCorrespondenceCost := by
  have hlt := g.min_lt_max
  have hle := h.neg_max_le
  linarith

theorem error_le (h : g.Scaled) :
    error g ≤ (g.maxCorrespondenceCost - g.minCorrespondenceCost) / 2 ^ 17 := by
  have hrange := h.le_range
  rw [error]
  linarith

/-- A score that is taken from a cost of the range is rounded once. -/
theorem abs_fl_one_sub_sub_le (h : g.Scaled) {cost : ℚ} (hlow : -g.maxCorrespondenceCost ≤ cost)
    (hhigh : cost ≤ g.maxCorrespondenceCost) : |fl (1 - cost) - (1 - cost)| ≤ error g := by
  have hpos := h.max_pos
  refine abs_fl_sub_le_of_abs_le (abs_le.2 ⟨?_, ?_⟩) (by norm_num; linarith)
  all_goals linarith

theorem abs_minScore_sub_le (h : g.Scaled) :
    |g.minScore - (1 - g.maxCorrespondenceCost)| ≤ error g := by
  have hpos := h.max_pos
  exact h.abs_fl_one_sub_sub_le (by linarith) le_rfl

theorem abs_maxScore_sub_le (h : g.Scaled) :
    |g.maxScore - (1 - g.minCorrespondenceCost)| ≤ error g :=
  h.abs_fl_one_sub_sub_le h.neg_max_le g.min_lt_max.le

theorem abs_cost_mem (h : g.Scaled) (x y : ℕ) :
    g.minCorrespondenceCost - 21 * error g ≤ |g.getCorrespondenceCost x y| ∧
      |g.getCorrespondenceCost x y| ≤ g.maxCorrespondenceCost + 21 * error g := by
  have hpos := h.max_pos
  have hle := h.neg_max_le
  have hlt := g.min_lt_max
  obtain ⟨hlow, hhigh⟩ : g.minCorrespondenceCost - 21 * error g ≤ g.getCorrespondenceCost x y ∧
      g.getCorrespondenceCost x y ≤ g.maxCorrespondenceCost + 21 * error g := by
    rw [getCorrespondenceCost, error]
    split_ifs
    · exact slowValueToBoundedFloat_mem (Nat.le_of_lt_succ (Nat.mod_lt _ (Nat.two_pow_pos 15)))
        (by linarith) (by linarith) hlt.le (by linarith)
    · constructor <;> linarith
  exact ⟨hlow.trans (le_abs_self _), abs_le.2 ⟨by linarith, hhigh⟩⟩

/-- The probability of a cell is between the scores, up to the errors. -/
theorem probability_sub_mem (h : g.Scaled) (x y : ℕ) :
    -(24 * error g) ≤ g.probability x y - g.minScore ∧
      g.probability x y - g.minScore ≤
        g.maxCorrespondenceCost - g.minCorrespondenceCost + 24 * error g := by
  have hpos := h.max_pos
  have hle := h.neg_max_le
  have hlt := g.min_lt_max
  obtain ⟨hlow, hhigh⟩ := h.abs_cost_mem x y
  obtain ⟨hmin₁, hmin₂⟩ := abs_le.1 h.abs_minScore_sub_le
  rw [probability]
  generalize |g.getCorrespondenceCost x y| = cost at hlow hhigh ⊢
  rw [error] at hlow hhigh hmin₁ hmin₂ ⊢
  have hp := abs_fl_sub_le_of_abs_le (x := 1 - cost) (b := 2 * (1 + g.maxCorrespondenceCost))
    (by rw [abs_le]; constructor <;> linarith) (by norm_num; linarith)
  obtain ⟨hp₁, hp₂⟩ := abs_le.1 hp
  constructor <;> linarith

/-- So is the difference of the scores that of the bounds. -/
theorem abs_fl_range_sub_le (h : g.Scaled) :
    |fl (g.maxScore - g.minScore) - (g.maxCorrespondenceCost - g.minCorrespondenceCost)| ≤
      5 * error g := by
  have hpos := h.max_pos
  have hle := h.neg_max_le
  have hlt := g.min_lt_max
  obtain ⟨hmin₁, hmin₂⟩ := abs_le.1 h.abs_minScore_sub_le
  obtain ⟨hmax₁, hmax₂⟩ := abs_le.1 h.abs_maxScore_sub_le
  rw [error] at hmin₁ hmin₂ hmax₁ hmax₂ ⊢
  have hrange := abs_fl_sub_le_of_abs_le (x := g.maxScore - g.minScore)
    (b := 3 * (1 + g.maxCorrespondenceCost))
    (by rw [abs_le]; constructor <;> linarith) (by norm_num; linarith)
  obtain ⟨hrange₁, hrange₂⟩ := abs_le.1 hrange
  rw [abs_le]
  constructor <;> linarith

/-- The factor that takes the range of the scores to 255. -/
theorem scale_mem (h : g.Scaled) :
    0 ≤ fl (255 / fl (g.maxScore - g.minScore)) ∧
      fl (255 / fl (g.maxScore - g.minScore)) *
        (g.maxCorrespondenceCost - g.minCorrespondenceCost) ≤ 255 + 1 / 50 := by
  have hlt := sub_pos.2 g.min_lt_max
  have hle := h.neg_max_le
  have herror := h.error_le
  have hbig : g.maxCorrespondenceCost - g.minCorrespondenceCost ≤ 2 ^ 61 := by
    have hmax := h.max_le
    linarith
  obtain ⟨hlow, -⟩ := abs_le.1 h.abs_fl_range_sub_le
  generalize g.maxCorrespondenceCost - g.minCorrespondenceCost = R at hlt herror hbig hlow ⊢
  generalize fl (g.maxScore - g.minScore) = D at hlow ⊢
  have hD : 0 < D := by linarith
  have hexact : 255 / D * R ≤ 255 + 1 / 100 := by
    rw [div_mul_eq_mul_div, div_le_iff₀ hD]
    linarith
  have hfl := abs_fl_sub_le_of_abs_le (x := 255 / D) (b := 256 / R)
    (by rw [abs_of_pos (by positivity), le_div_iff₀ hlt]; linarith)
    (by rw [le_div_iff₀ hlt]; linarith)
  refine ⟨fl_nonneg (by positivity), ?_⟩
  have herr := mul_le_mul_of_nonneg_right (abs_le.1 hfl).2 hlt.le
  rw [sub_mul, div_right_comm, div_mul_cancel₀ _ hlt.ne'] at herr
  linarith

/-- The scaled difference of a probability to the least score is a number from 0 to 255 but for the
errors. -/
theorem scaled_mem (h : g.Scaled) (x y : ℕ) :
    -(1 / 2) < fl (fl (g.probability x y - g.minScore) * fl (255 / fl (g.maxScore - g.minScore))) ∧
      fl (fl (g.probability x y - g.minScore) * fl (255 / fl (g.maxScore - g.minScore))) <
        255 + 1 / 2 := by
  have hlt := sub_pos.2 g.min_lt_max
  have hpos := h.max_pos
  obtain ⟨hp₁, hp₂⟩ := h.probability_sub_mem x y
  obtain ⟨hs, hsR⟩ := h.scale_mem
  have hrange := h.le_range
  have hle := h.neg_max_le
  have herror := h.error_le
  have herror' : (1 + g.maxCorrespondenceCost) / 2 ^ 23 = error g := rfl
  have hd := abs_fl_sub_le_of_abs_le (x := g.probability x y - g.minScore)
    (b := 3 * (1 + g.maxCorrespondenceCost))
    (by rw [abs_le]; constructor <;> linarith) (by norm_num; linarith)
  rw [mul_div_assoc, herror'] at hd
  obtain ⟨hd₁, hd₂⟩ := abs_le.1 hd
  generalize g.maxCorrespondenceCost - g.minCorrespondenceCost = R at *
  generalize fl (g.probability x y - g.minScore) = d at *
  generalize fl (255 / fl (g.maxScore - g.minScore)) = s at *
  have hlow := mul_le_mul_of_nonneg_right (show -(27 / 2 ^ 17) * R ≤ d by linarith) hs
  have hhigh := mul_le_mul_of_nonneg_right (show d ≤ (1 + 27 / 2 ^ 17) * R by linarith) hs
  rw [mul_assoc, mul_comm R] at hlow hhigh
  have hfl := abs_fl_sub_le_of_abs_le (x := d * s) (b := 256)
    (by rw [abs_le]; constructor <;> linarith) (by norm_num)
  obtain ⟨hfl₁, hfl₂⟩ := abs_le.1 hfl
  constructor <;> linarith

/-- The checks of `ComputeCellValue` pass. -/
theorem cellValue_mem (h : g.Scaled) (x y : ℕ) :
    0 ≤ g.cellValue (g.probability x y) ∧ g.cellValue (g.probability x y) ≤ 255 := by
  obtain ⟨hlow, hhigh⟩ := h.scaled_mem x y
  exact ⟨le_lround (by push_cast; linarith), lround_le (by push_cast; linarith)⟩

theorem value_le (h : g.Scaled) (x y : ℤ) : g.value x y ≤ 255 := by
  rw [value]
  split_ifs
  · exact Int.toNat_le.2 (h.cellValue_mem _ _).2
  · exact Nat.zero_le 255

end Scaled

/-! ## The order of the values -/

theorem minScore_le_maxScore (g : Grid2D) : g.minScore ≤ g.maxScore :=
  fl_mono (sub_le_sub_left g.min_lt_max.le 1)

theorem range_nonneg (g : Grid2D) : 0 ≤ fl (g.maxScore - g.minScore) :=
  fl_nonneg (sub_nonneg.2 g.minScore_le_maxScore)

/-- A greater probability has no smaller value. -/
theorem cellValue_mono {p q : ℚ} (h : p ≤ q) : g.cellValue p ≤ g.cellValue q := by
  have hscale : 0 ≤ fl (255 / fl (g.maxScore - g.minScore)) :=
    fl_nonneg (div_nonneg (by norm_num) g.range_nonneg)
  exact lround_mono (fl_mono (mul_le_mul_of_nonneg_right (fl_mono (sub_le_sub_right h _)) hscale))

theorem toScore_mono (g : Grid2D) {v w : ℚ} (h : v ≤ w) :
    toScore g.minScore g.maxScore v ≤ toScore g.minScore g.maxScore w := by
  have hscale : 0 ≤ fl (fl (g.maxScore - g.minScore) / 255) :=
    fl_nonneg (div_nonneg g.range_nonneg (by norm_num))
  exact fl_mono (add_le_add_right (fl_mono (mul_le_mul_of_nonneg_right h hscale)) _)

end Grid2D

/-! ## Probability grids -/

/-- `kMinProbability`. -/
def kMinProbability : ℚ :=
  fl (1 / 10)

/-- `kMaxProbability`. -/
def kMaxProbability : ℚ :=
  fl (1 - kMinProbability)

/-- `kMinCorrespondenceCost`. -/
def kMinCorrespondenceCost : ℚ :=
  fl (1 - kMaxProbability)

/-- `kMaxCorrespondenceCost`. -/
def kMaxCorrespondenceCost : ℚ :=
  fl (1 - kMinProbability)

/-- A `ProbabilityGrid`. -/
def probabilityGrid (numXCells numYCells : ℕ) (correspondenceCostCells : ℕ → BitVec 16) :
    Grid2D where
  numXCells := numXCells
  numYCells := numYCells
  correspondenceCostCells := correspondenceCostCells
  minCorrespondenceCost := kMinCorrespondenceCost
  maxCorrespondenceCost := kMaxCorrespondenceCost
  min_lt_max := by decide +kernel

theorem scaled_probabilityGrid (numXCells numYCells : ℕ)
    (correspondenceCostCells : ℕ → BitVec 16) :
    (probabilityGrid numXCells numYCells correspondenceCostCells).Scaled where
  neg_max_le := by
    have : -kMaxCorrespondenceCost ≤ kMinCorrespondenceCost := by decide +kernel
    exact this
  le_range := by
    have : 1 + kMaxCorrespondenceCost ≤ 64 * (kMaxCorrespondenceCost - kMinCorrespondenceCost) := by
      decide +kernel
    exact this
  max_le := by
    have : kMaxCorrespondenceCost ≤ 2 ^ 60 := by decide +kernel
    exact this

end Mastiff.Cartographer

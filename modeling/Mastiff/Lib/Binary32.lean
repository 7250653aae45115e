import Mathlib.Algebra.Order.Floor.Ring
import Mathlib.Algebra.Order.Field.Power
import Mathlib.Data.Int.Log
import Mathlib.Data.Rat.Floor
import Mathlib.Tactic.Linarith
import Mathlib.Tactic.Positivity
import Mathlib.Tactic.NormNum

/-!
# Rounding of single precision

`fl` rounds a rational number to the nearest one of single precision, the even one of two, with
gradual underflow. Overflow is not modelled : what is too large for the format keeps its
precision. An operation of the format is that of the rationals, rounded.

`fl_mono` : rounding keeps the order. `abs_fl_sub_le` : it changes a number by a part in `2 ^ 24` at
most, as long as that is not below the least exponent.

`lround` rounds to the nearest integer, and a half away from zero (`lround_mono`, `le_lround`,
`lround_le`).
-/

namespace Binary32

variable {q r x y : ℚ} {n : ℤ}

/-! ## Integers -/

/-- The nearest integer, the even one of two. -/
def roundEven (q : ℚ) : ℤ :=
  if Int.fract q < 1 / 2 ∨ Int.fract q = 1 / 2 ∧ ⌊q⌋ % 2 = 0 then ⌊q⌋ else ⌊q⌋ + 1

theorem floor_le_roundEven (q : ℚ) : ⌊q⌋ ≤ roundEven q := by
  rw [roundEven]
  split_ifs
  · exact le_rfl
  · exact (lt_add_one _).le

theorem roundEven_le_floor_add_one (q : ℚ) : roundEven q ≤ ⌊q⌋ + 1 := by
  rw [roundEven]
  split_ifs
  · exact (lt_add_one _).le
  · exact le_rfl

theorem abs_roundEven_sub_le (q : ℚ) : |(roundEven q : ℚ) - q| ≤ 1 / 2 := by
  have hfract := Int.floor_add_fract q
  have hnonneg := Int.fract_nonneg q
  have hlt := Int.fract_lt_one q
  rw [roundEven, abs_le]
  split_ifs with hhalf
  · have hle : Int.fract q ≤ 1 / 2 := hhalf.elim le_of_lt fun h => h.1.le
    constructor <;> linarith
  · have hge : 1 / 2 ≤ Int.fract q := not_lt.1 fun h => hhalf (.inl h)
    push_cast
    constructor <;> linarith

theorem roundEven_mono (h : q ≤ r) : roundEven q ≤ roundEven r := by
  rcases (Int.floor_mono h).lt_or_eq with hlt | heq
  · exact (roundEven_le_floor_add_one q).trans (hlt.trans_le (floor_le_roundEven r))
  · have hfract : Int.fract q ≤ Int.fract r := by
      rw [Int.fract, Int.fract, heq]
      exact sub_le_sub_right h _
    rw [roundEven, roundEven, heq]
    split_ifs with hq hr hr
    · exact le_rfl
    · exact (lt_add_one _).le
    · -- the greater one is rounded down, and so would be the less
      refine absurd ?_ hq
      rcases hr with hr | ⟨hr, heven⟩
      · exact .inl (hfract.trans_lt hr)
      · exact (hfract.trans hr.le).lt_or_eq.imp_right fun h => ⟨h, heven⟩
    · exact le_rfl

theorem roundEven_intCast (n : ℤ) : roundEven n = n := by
  rw [roundEven, Int.fract_intCast, Int.floor_intCast, if_pos (.inl (by norm_num))]

/-- The nearest integer, that further from zero of two. -/
def lround (q : ℚ) : ℤ :=
  if 0 ≤ q then ⌊q + 1 / 2⌋ else -⌊-q + 1 / 2⌋

theorem lround_mono (h : q ≤ r) : lround q ≤ lround r := by
  rw [lround, lround]
  split_ifs with hq hr hr
  · exact Int.floor_mono (by linarith)
  · exact absurd (hq.trans h) hr
  · have hneg : 0 ≤ ⌊-q + 1 / 2⌋ := Int.floor_nonneg.2 (by linarith)
    have hpos : 0 ≤ ⌊r + 1 / 2⌋ := Int.floor_nonneg.2 (by linarith)
    omega
  · exact neg_le_neg (Int.floor_mono (by linarith))

theorem le_lround (h : (n : ℚ) - 1 / 2 < q) : n ≤ lround q := by
  rw [lround]
  split_ifs
  · exact Int.le_floor.2 (by linarith)
  · have hlt : ⌊-q + 1 / 2⌋ < -n + 1 := Int.floor_lt.2 (by push_cast; linarith)
    omega

theorem lround_le (h : q < n + 1 / 2) : lround q ≤ n := by
  rw [lround]
  split_ifs
  · have hlt : ⌊q + 1 / 2⌋ < n + 1 := Int.floor_lt.2 (by push_cast; linarith)
    omega
  · have hle : -n ≤ ⌊-q + 1 / 2⌋ := Int.le_floor.2 (by push_cast; linarith)
    omega

/-! ## Single precision -/

/-- The exponent of the last place of a number. -/
def lastPlace (x : ℚ) : ℤ :=
  max (Int.log 2 |x| - 23) (-149)

/-- The last place of a number. -/
def ulp (x : ℚ) : ℚ :=
  2 ^ lastPlace x

/-- The nearest number of single precision. -/
def fl (x : ℚ) : ℚ :=
  if 0 ≤ x then roundEven (x / ulp x) * ulp x else -(roundEven (-x / ulp x) * ulp x)

theorem ulp_pos (x : ℚ) : 0 < ulp x :=
  zpow_pos (by norm_num) _

theorem ulp_neg (x : ℚ) : ulp (-x) = ulp x := by
  rw [ulp, ulp, lastPlace, lastPlace, abs_neg]

theorem fl_of_nonneg (hx : 0 ≤ x) : fl x = roundEven (x / ulp x) * ulp x :=
  if_pos hx

theorem fl_nonneg (hx : 0 ≤ x) : 0 ≤ fl x := by
  have hround : roundEven ((0 : ℤ) : ℚ) ≤ roundEven (x / ulp x) :=
    roundEven_mono (by rw [Int.cast_zero]; exact div_nonneg hx (ulp_pos x).le)
  rw [roundEven_intCast] at hround
  rw [fl_of_nonneg hx]
  exact mul_nonneg (Int.cast_nonneg hround) (ulp_pos x).le

theorem fl_neg (x : ℚ) : fl (-x) = -fl x := by
  rcases lt_trichotomy x 0 with hx | rfl | hx
  · rw [fl_of_nonneg (neg_nonneg.2 hx.le), fl, if_neg hx.not_ge, neg_neg, ulp_neg]
  · rw [neg_zero, fl_of_nonneg le_rfl, zero_div, ← Int.cast_zero, roundEven_intCast, Int.cast_zero,
      zero_mul, neg_zero]
  · rw [fl_of_nonneg hx.le, fl, if_neg (by linarith), neg_neg, ulp_neg]

/-- Rounding changes a number by half of its last place at most. -/
theorem abs_fl_sub_le_ulp (x : ℚ) : |fl x - x| ≤ ulp x / 2 := by
  have hpos : ∀ {x : ℚ}, 0 ≤ x → |fl x - x| ≤ ulp x / 2 := fun {x} hx => by
    have hulp := ulp_pos x
    have hx' : x = x / ulp x * ulp x := (div_mul_cancel₀ x hulp.ne').symm
    have hround := mul_le_mul_of_nonneg_right (abs_roundEven_sub_le (x / ulp x)) hulp.le
    calc |fl x - x| = |(roundEven (x / ulp x) - x / ulp x) * ulp x| := by
          rw [fl_of_nonneg hx, sub_mul, ← hx']
      _ = |(roundEven (x / ulp x) : ℚ) - x / ulp x| * ulp x := by
          rw [abs_mul, abs_of_pos hulp]
      _ ≤ 1 / 2 * ulp x := hround
      _ = ulp x / 2 := by ring
  rcases le_total 0 x with hx | hx
  · exact hpos hx
  · have hneg := hpos (neg_nonneg.2 hx)
    rwa [fl_neg, ulp_neg, ← neg_sub', abs_neg] at hneg

theorem ulp_le (hx : x ≠ 0) : ulp x ≤ 2 ^ (-23 : ℤ) * (|x| + 2 ^ (-126 : ℤ)) := by
  have habs : 0 < |x| := abs_pos.2 hx
  have hlog : (2 : ℚ) ^ Int.log 2 |x| ≤ |x| := by
    simpa using Int.zpow_log_le_self (b := 2) Nat.one_lt_two habs
  have htwo : (2 : ℚ) ≠ 0 := by norm_num
  rw [ulp, lastPlace, mul_add, ← zpow_add₀ htwo]
  have hleast : (0 : ℚ) < 2 ^ (-149 : ℤ) := zpow_pos (by norm_num) _
  rcases max_choice (Int.log 2 |x| - 23) (-149) with hmax | hmax
  · rw [hmax, sub_eq_add_neg, zpow_add₀ htwo, mul_comm]
    have := mul_le_mul_of_nonneg_left hlog (zpow_pos (show (0 : ℚ) < 2 by norm_num) (-23)).le
    exact this.trans (le_add_of_nonneg_right hleast.le)
  · rw [hmax]
    exact le_add_of_nonneg_left (mul_nonneg (zpow_pos (by norm_num) _).le habs.le)

/-- It changes it by a part in `2 ^ 24` at most. -/
theorem abs_fl_sub_le (x : ℚ) : |fl x - x| ≤ 2 ^ (-24 : ℤ) * (|x| + 2 ^ (-126 : ℤ)) := by
  have hleast : (0 : ℚ) < 2 ^ (-126 : ℤ) := zpow_pos (by norm_num) _
  by_cases hx : x = 0
  · have hzero : fl 0 = 0 := by
      have hneg := fl_neg 0
      rw [neg_zero] at hneg
      linarith
    rw [hx, hzero, sub_self, abs_zero, zero_add]
    positivity
  · have hhalf := (abs_fl_sub_le_ulp x).trans (div_le_div_of_nonneg_right (ulp_le hx) zero_le_two)
    have htwo : (2 : ℚ) ^ (-24 : ℤ) = 2 ^ (-23 : ℤ) / 2 := by norm_num
    rw [htwo, div_mul_eq_mul_div]
    exact hhalf

/-- The error in parts of a bound of the number. -/
theorem abs_fl_sub_le_of_abs_le {b : ℚ} (hx : |x| ≤ b) (hb : 1 / 2 ^ 126 ≤ b) :
    |fl x - x| ≤ b / 2 ^ 23 := by
  have hleast : (2 : ℚ) ^ (-126 : ℤ) = 1 / 2 ^ 126 := by norm_num
  have hpart : (2 : ℚ) ^ (-24 : ℤ) = 1 / 2 ^ 23 / 2 := by norm_num
  have herror := abs_fl_sub_le x
  rw [hleast, hpart] at herror
  linarith

/-- A power of two that is not below the last place is an integer in it. -/
theorem zpow_eq_mul_ulp {e : ℤ} (he : lastPlace x ≤ e) :
    (2 : ℚ) ^ e = ((2 ^ (e - lastPlace x).toNat : ℕ) : ℤ) * ulp x := by
  have hexp : e = (e - lastPlace x).toNat + lastPlace x := by omega
  rw [ulp, Int.cast_natCast, Nat.cast_pow, Nat.cast_ofNat, ← zpow_natCast,
    ← zpow_add₀ (by norm_num), ← hexp]

theorem fl_le_zpow {e : ℤ} (hx : 0 ≤ x) (he : lastPlace x ≤ e) (h : x ≤ 2 ^ e) :
    fl x ≤ 2 ^ e := by
  rw [zpow_eq_mul_ulp he] at h ⊢
  have hround := roundEven_mono ((div_le_iff₀ (ulp_pos x)).2 h)
  rw [roundEven_intCast] at hround
  rw [fl_of_nonneg hx]
  exact mul_le_mul_of_nonneg_right (Int.cast_le.2 hround) (ulp_pos x).le

theorem zpow_le_fl {e : ℤ} (hx : 0 ≤ x) (he : lastPlace x ≤ e) (h : 2 ^ e ≤ x) :
    2 ^ e ≤ fl x := by
  rw [zpow_eq_mul_ulp he] at h ⊢
  have hround := roundEven_mono ((le_div_iff₀ (ulp_pos x)).2 h)
  rw [roundEven_intCast] at hround
  rw [fl_of_nonneg hx]
  exact mul_le_mul_of_nonneg_right (Int.cast_le.2 hround) (ulp_pos x).le

theorem fl_mono_of_pos (hx : 0 < x) (h : x ≤ y) : fl x ≤ fl y := by
  have hy := hx.trans_le h
  have hxlog : x < 2 ^ (Int.log 2 |x| + 1) := by
    rw [abs_of_pos hx]
    exact_mod_cast Int.lt_zpow_succ_log_self Nat.one_lt_two x
  have hylog : 2 ^ Int.log 2 |y| ≤ y := by
    rw [abs_of_pos hy]
    exact_mod_cast Int.zpow_log_le_self Nat.one_lt_two hy
  have hlog : Int.log 2 |x| ≤ Int.log 2 |y| := by
    rw [abs_of_pos hx, abs_of_pos hy]
    exact Int.log_mono_right hx h
  by_cases heq : lastPlace x = lastPlace y
  · have hulp : ulp x = ulp y := by rw [ulp, ulp, heq]
    rw [fl_of_nonneg hx.le, fl_of_nonneg hy.le, hulp]
    refine mul_le_mul_of_nonneg_right (Int.cast_le.2 (roundEven_mono ?_)) (ulp_pos y).le
    exact div_le_div_of_nonneg_right h (ulp_pos y).le
  · -- the greatest power of two that is not above the greater one is between the two
    have hx' : lastPlace x ≤ Int.log 2 |y| ∧ lastPlace y ≤ Int.log 2 |y| ∧
        Int.log 2 |x| + 1 ≤ Int.log 2 |y| := by
      simp only [lastPlace] at heq ⊢
      omega
    have hle : x ≤ 2 ^ Int.log 2 |y| := hxlog.le.trans (zpow_le_zpow_right₀ one_le_two hx'.2.2)
    exact (fl_le_zpow hx.le hx'.1 hle).trans (zpow_le_fl hy.le hx'.2.1 hylog)

/-- Rounding keeps the order. -/
theorem fl_mono (h : x ≤ y) : fl x ≤ fl y := by
  rcases lt_or_ge 0 x with hx | hx
  · exact fl_mono_of_pos hx h
  · have hflx : fl x ≤ 0 := by
      have hneg := fl_nonneg (neg_nonneg.2 hx)
      rw [fl_neg] at hneg
      linarith
    rcases lt_or_ge y 0 with hy | hy
    · have hneg := fl_mono_of_pos (neg_pos.2 hy) (neg_le_neg h)
      rw [fl_neg, fl_neg] at hneg
      linarith
    · exact hflx.trans (fl_nonneg hy)

end Binary32

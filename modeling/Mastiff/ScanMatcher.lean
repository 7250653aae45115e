import Mathlib.Algebra.Group.Int.Defs
import Mathlib.Algebra.Group.Nat.Defs
import Mathlib.Data.Finset.Lattice.Fold
import Mathlib.Data.Finset.Prod
import Mathlib.Data.List.Sort
import Mathlib.Order.Lattice.Nat
import Mastiff.Lib.BranchBound
import Mastiff.PrecomputationGrid

/-!
# A scan matched by branch and bound

`FastCorrelativeScanMatcher2D` (`cartographer/mapping/internal/2d/scan_matching/
fast_correlative_scan_matcher_2d.cc`, `correlative_scan_matcher_2d.cc`) looks for the rotation
and the offset at which the points of a scan lie on the most probable cells. The offsets are
searched in squares, the score of a square being bounded by a grid of its width
(`Mastiff.Cartographer.PrecomputationGrid2D`), and a square is divided in four when its bound
beats the best score so far.

The rotated scans are taken as the cells of their points. The order in which `std::sort` leaves
candidates of the same score is any (`CandidateSort`), and a scan without points has no score. An
`int` that overflows ends a function as a failed check does.

`FastCorrelativeScanMatcher2D.match_best` : as long as the numbers fit (`Fits`), every check passes,
and the result is what a search of all offsets of the window at full resolution gives.
-/

set_option linter.unusedSectionVars false

namespace Mastiff.Cartographer

open BranchBound Binary32 Memory

/-! ## Search parameters -/

/-- The cells of the points of a rotated scan. -/
abbrev DiscreteScan2D :=
  List (ℤ × ℤ)

/-- `LinearBounds`, inclusive. -/
structure LinearBounds where
  minX : ℤ
  maxX : ℤ
  minY : ℤ
  maxY : ℤ

/-- `SearchParameters`, as far as the search goes. -/
structure SearchParameters where
  numScans : ℕ
  linearBounds : List LinearBounds

namespace SearchParameters

/-- The constructor with `num_linear_perturbations` and `num_angular_perturbations`. -/
def new (numLinear numAngular : ℕ) : SearchParameters where
  numScans := 2 * numAngular + 1
  linearBounds := List.replicate (2 * numAngular + 1)
    ⟨-numLinear, numLinear, -numLinear, numLinear⟩

/-- A turn of the loop of `ShrinkToFit`. -/
def shrink (numX numY : ℕ) (scan : DiscreteScan2D) (b : LinearBounds) : LinearBounds where
  minX := max b.minX (scan.foldl (fun m p => min m (-p.1)) 0)
  maxX := min b.maxX (scan.foldl (fun m p => max m (numX - 1 - p.1)) 0)
  minY := max b.minY (scan.foldl (fun m p => min m (-p.2)) 0)
  maxY := min b.maxY (scan.foldl (fun m p => max m (numY - 1 - p.2)) 0)

/-- What `ShrinkToFit` computes of a point fits into an `int`. -/
def PointFits (numX numY : ℕ) (p : ℤ × ℤ) : Prop :=
  IsInt (-p.1) ∧ IsInt (-p.2) ∧ IsInt (numX - 1 - p.1) ∧ IsInt (numY - 1 - p.2)

instance (numX numY : ℕ) : DecidablePred (PointFits numX numY) := fun _ =>
  inferInstanceAs (Decidable (_ ∧ _ ∧ _ ∧ _))

/-- The parameters after all turns. -/
def fit (s : SearchParameters) (scans : List DiscreteScan2D) (numX numY : ℕ) : SearchParameters :=
  { s with linearBounds := List.zipWith (shrink numX numY) scans s.linearBounds }

/-- `ShrinkToFit(scans, cell_limits)`, `none` where a check fails or an `int` overflows. -/
def shrinkToFit (s : SearchParameters) (scans : List DiscreteScan2D) (numX numY : ℕ) :
    Option SearchParameters :=
  if scans.length = s.numScans ∧ s.linearBounds.length = s.numScans ∧
      ∀ scan ∈ scans, ∀ p ∈ scan, PointFits numX numY p then
    some (s.fit scans numX numY)
  else none

end SearchParameters

/-! ## Candidates -/

/-- A `Candidate2D` without its score. -/
structure Place where
  scanIndex : ℕ
  xIndexOffset : ℤ
  yIndexOffset : ℤ
  deriving DecidableEq

/-- `Candidate2D`. -/
structure Candidate2D extends Place where
  score : ℚ

/-- `std::sort` with `std::greater<Candidate2D>()`. -/
structure CandidateSort where
  sort : List Candidate2D → List Candidate2D
  perm : ∀ cs, (sort cs).Perm cs
  sorted : ∀ cs, (sort cs).Pairwise fun c c' => c'.score ≤ c.score

/-- `PrecomputationGridStack2D`, `none` where a check fails or an `int` overflows. What is reserved
overflows only if the last grid does. `reusable` is what each grid finds in the buffer. -/
def precomputationGridStack (g : Grid2D) (depth : ℕ) (reusable : ℕ → ℕ → ℚ) :
    Option (List PrecomputationGrid2D) :=
  if 1 ≤ depth then (List.range depth).mapM fun i => PrecomputationGrid2D.new g (2 ^ i) (reusable i)
  else none

/-- `FastCorrelativeScanMatcher2D`. -/
structure FastCorrelativeScanMatcher2D where
  grid : Grid2D
  stack : List PrecomputationGrid2D
  order : CandidateSort

namespace FastCorrelativeScanMatcher2D

/-- The constructor, with the option `branch_and_bound_depth`. -/
def new (g : Grid2D) (order : CandidateSort) (depth : ℕ) (reusable : ℕ → ℕ → ℚ) :
    Option FastCorrelativeScanMatcher2D :=
  (precomputationGridStack g depth reusable).map fun stack => ⟨g, stack, order⟩

/-- `max_depth()`. -/
def maxDepth (m : FastCorrelativeScanMatcher2D) : ℕ :=
  m.stack.length - 1

/-- The sum of the values of a scan that is moved to a place, `none` where an `int` overflows. -/
def sumValues (grid : PrecomputationGrid2D) (scan : DiscreteScan2D) (c : Place) : Option ℤ :=
  scan.foldlM (fun sum p => do
    let x ← int (p.1 + c.xIndexOffset)
    let y ← int (p.2 + c.yIndexOffset)
    let value ← grid.getValue x y
    int (sum + value)) 0

/-- The body of the loop of `ScoreCandidates`. -/
def scoreCandidate (grid : PrecomputationGrid2D) (scans : List DiscreteScan2D) (c : Place) :
    Option Candidate2D := do
  let scan ← scans[c.scanIndex]?
  let sum ← sumValues grid scan c
  if scan = [] then none
  else some ⟨c, toScore grid.minScore grid.maxScore (fl (fl sum / fl scan.length))⟩

/-- `ScoreCandidates`. -/
def scoreCandidates (m : FastCorrelativeScanMatcher2D) (grid : PrecomputationGrid2D)
    (scans : List DiscreteScan2D) (candidates : List Place) : Option (List Candidate2D) :=
  (candidates.mapM (scoreCandidate grid scans)).map m.order.sort

/-- The values of a loop from `v` on, up to `max` in steps of `2 ^ h`. -/
def stepsTo (max : ℤ) (h : ℕ) (v : ℤ) : List ℤ :=
  if v ≤ max then v :: stepsTo max h (v + (2 ^ h : ℕ)) else []
termination_by (max + 1 - v).toNat
decreasing_by
  have := Nat.two_pow_pos h
  omega

/-- `num_lowest_resolution_linear_x_candidates`, or that of y. -/
def numAlong (min max step : ℤ) : Option ℤ := do
  let span ← int (max - min)
  let sum ← int (span + step)
  return sum.tdiv step

/-- `GenerateLowestResolutionCandidates`, `none` where its check fails or an `int` overflows. -/
def generateLowestResolutionCandidates (m : FastCorrelativeScanMatcher2D) (s : SearchParameters) :
    Option (List Place) := do
  let linearStepSize ← int (2 ^ m.maxDepth : ℕ)
  let numCandidates ← s.linearBounds.foldlM (fun num b => do
    let numX ← numAlong b.minX b.maxX linearStepSize
    let numY ← numAlong b.minY b.maxY linearStepSize
    let product ← int (numX * numY)
    int (num + product)) 0
  let candidates := s.linearBounds.zipIdx.flatMap fun (b, i) =>
    (stepsTo b.maxX m.maxDepth b.minX).flatMap fun x =>
      (stepsTo b.maxY m.maxDepth b.minY).map fun y => ⟨i, x, y⟩
  if (∀ b ∈ s.linearBounds, ∀ x ∈ stepsTo b.maxX m.maxDepth b.minX, IsInt (x + linearStepSize) ∧
      ∀ y ∈ stepsTo b.maxY m.maxDepth b.minY, IsInt (y + linearStepSize)) ∧
    candidates.length = numCandidates then some candidates else none

/-- The values of a loop over the offsets `0` and `half_width`, which is left at the first beyond
the bound. -/
def halves (max at' halfWidth : ℤ) : Option (List ℤ) :=
  if max < at' then some []
  else do
    let half ← int (at' + halfWidth)
    return if max < half then [at'] else [at', half]

/-- The two loops over the offsets. -/
def higherResolution (s : SearchParameters) (halfWidth : ℤ) (c : Place) :
    Option (List Place) := do
  let b ← s.linearBounds[c.scanIndex]?
  let xs ← halves b.maxX c.xIndexOffset halfWidth
  let rows ← xs.mapM fun x => do
    let ys ← halves b.maxY c.yIndexOffset halfWidth
    return ys.map fun y => ⟨c.scanIndex, x, y⟩
  return rows.flatten

/-- The loop of `BranchAndBound` over the candidates, with `search` what is done with the higher
resolution candidates of one of them, and the best score so far. -/
def boundLoop (search : Candidate2D → ℚ → Option Candidate2D) (minScore : ℚ) :
    List Candidate2D → Candidate2D → Option Candidate2D
  | [], best => some best
  | c :: rest, best =>
    if c.score ≤ minScore then some best
    else do
      let r ← search c best.score
      boundLoop search minScore rest (if best.score < r.score then r else best)

/-- `BranchAndBound`. -/
def branchAndBound (m : FastCorrelativeScanMatcher2D) (scans : List DiscreteScan2D)
    (s : SearchParameters) : ℕ → List Candidate2D → ℚ → Option Candidate2D
  | 0, candidates, _ => candidates.head?
  | depth + 1, candidates, minScore =>
    boundLoop (fun c best => do
      let halfWidth ← int (2 ^ depth : ℕ)
      let higher ← higherResolution s halfWidth c.toPlace
      let grid ← m.stack[depth]?
      let scored ← m.scoreCandidates grid scans higher
      branchAndBound m scans s depth scored best) minScore candidates ⟨⟨0, 0, 0⟩, minScore⟩

/-- `MatchWithSearchParameters` from the discrete scans on : `none` where a check fails or an `int`
overflows, and within, the best candidate if a match is found. -/
def matchWithSearchParameters (m : FastCorrelativeScanMatcher2D) (s : SearchParameters)
    (scans : List DiscreteScan2D) (minScore : ℚ) : Option (Option Candidate2D) := do
  let s ← s.shrinkToFit scans m.grid.numXCells m.grid.numYCells
  let lowest ← m.generateLowestResolutionCandidates s
  let grid ← m.stack[m.maxDepth]?
  let lowest ← m.scoreCandidates grid scans lowest
  let best ← m.branchAndBound scans s m.maxDepth lowest minScore
  return if minScore < best.score then some best else none

/-! ## Scores of squares -/

variable {g : Grid2D} {scans : List DiscreteScan2D} {s : SearchParameters} {h : ℕ} {x y : ℤ}
  {c l : Place} {b : LinearBounds}

/-- The greatest value of the cells in the square of width `2 ^ h` from a cell on. -/
def squareValue (g : Grid2D) (h : ℕ) (x y : ℤ) : ℕ :=
  (Finset.range (2 ^ h) ×ˢ Finset.range (2 ^ h)).sup fun d => g.value (x + d.1) (y + d.2)

theorem value_le_squareValue {i j : ℕ} (hi : i < 2 ^ h) (hj : j < 2 ^ h) :
    g.value (x + i) (y + j) ≤ squareValue g h x y :=
  Finset.le_sup (f := fun d : ℕ × ℕ => g.value (x + d.1) (y + d.2)) (b := (i, j))
    (Finset.mem_product.2 ⟨Finset.mem_range.2 hi, Finset.mem_range.2 hj⟩)

theorem squareValue_le {v : ℕ} (hv : ∀ i < 2 ^ h, ∀ j < 2 ^ h,
    g.value (x + (i : ℕ)) (y + (j : ℕ)) ≤ v) : squareValue g h x y ≤ v :=
  Finset.sup_le fun d hd => by
    obtain ⟨hi, hj⟩ := Finset.mem_product.1 hd
    exact hv d.1 (Finset.mem_range.1 hi) d.2 (Finset.mem_range.1 hj)

/-- A grid of width `2 ^ h` has the greatest values of the squares, and the scores of the grid. -/
structure Squares (g : Grid2D) (h : ℕ) (p : PrecomputationGrid2D) : Prop where
  minScore : p.minScore = g.minScore
  maxScore : p.maxScore = g.maxScore
  value : ∀ x y : ℤ, IsInt (x + (2 ^ h : ℕ) - 1) → IsInt (y + (2 ^ h : ℕ) - 1) →
    p.getValue x y = some (squareValue g h x y)

theorem squareValue_eq {v : ℕ} (hv : IsGreatest
    {v | ∃ i < 2 ^ h, ∃ j < 2 ^ h, g.value (x + (i : ℕ)) (y + (j : ℕ)) = v} v) :
    v = squareValue g h x y := by
  obtain ⟨⟨i, hi, j, hj, hv⟩, hupper⟩ := hv
  refine le_antisymm ?_ (squareValue_le fun i hi j hj => hupper ⟨i, hi, j, hj, rfl⟩)
  rw [← hv]
  exact value_le_squareValue hi hj

theorem squareValue_zero (x y : ℤ) : squareValue g 0 x y = g.value x y := by
  have hone : ∀ i < 2 ^ 0, (i : ℕ) = 0 := fun i hi => Nat.lt_one_iff.1 hi
  refine le_antisymm (squareValue_le fun i hi j hj => ?_) ?_
  · rw [hone i hi, hone j hj, Int.natCast_zero, Int.add_zero, Int.add_zero]
  · have hle := @value_le_squareValue g 0 x y 0 0 Nat.one_pos Nat.one_pos
    rwa [Int.natCast_zero, Int.add_zero, Int.add_zero] at hle

/-- A quarter of a square has no greater values. -/
theorem squareValue_quarter {x' y' : ℤ} (hx : x' = x ∨ x' = x + (2 ^ h : ℕ))
    (hy : y' = y ∨ y' = y + (2 ^ h : ℕ)) : squareValue g h x' y' ≤ squareValue g (h + 1) x y := by
  refine squareValue_le fun i hi j hj => ?_
  have hdouble : 2 ^ (h + 1) = 2 ^ h + 2 ^ h := by rw [pow_succ, Nat.mul_two]
  obtain ⟨i', hi', hxi⟩ : ∃ i' < 2 ^ (h + 1), x' + i = x + (i' : ℕ) := by
    rcases hx with rfl | rfl
    · exact ⟨i, by omega, rfl⟩
    · exact ⟨2 ^ h + i, by omega, by omega⟩
  obtain ⟨j', hj', hyj⟩ : ∃ j' < 2 ^ (h + 1), y' + j = y + (j' : ℕ) := by
    rcases hy with rfl | rfl
    · exact ⟨j, by omega, rfl⟩
    · exact ⟨2 ^ h + j, by omega, by omega⟩
  rw [hxi, hyj]
  exact value_le_squareValue hi' hj'

/-- The sum over a scan that is moved to a place. -/
def sumOver (value : ℤ → ℤ → ℕ) (scan : DiscreteScan2D) (c : Place) : ℕ :=
  scan.foldl (fun sum p => sum + value (p.1 + c.xIndexOffset) (p.2 + c.yIndexOffset)) 0

theorem foldl_add_le {f f' : ℤ × ℤ → ℕ} : ∀ {scan : DiscreteScan2D} {a a' : ℕ},
    (∀ p ∈ scan, f p ≤ f' p) → a ≤ a' →
      scan.foldl (fun sum p => sum + f p) a ≤ scan.foldl (fun sum p => sum + f' p) a'
  | [], _, _, _, ha => ha
  | p :: _, _, _, hf, ha => by
    rw [List.foldl_cons, List.foldl_cons]
    exact foldl_add_le (fun q hq => hf q (List.mem_cons_of_mem p hq))
      (Nat.add_le_add ha (hf p List.mem_cons_self))

/-- The score of a place by given values of the cells. -/
def scoreBy (g : Grid2D) (value : ℤ → ℤ → ℕ) (scans : List DiscreteScan2D) (c : Place) : ℚ :=
  toScore g.minScore g.maxScore (fl (fl (sumOver value (scans.getD c.scanIndex []) c) /
    fl (scans.getD c.scanIndex []).length))

/-- The score at full resolution. -/
def plainScore (g : Grid2D) (scans : List DiscreteScan2D) (c : Place) : ℚ :=
  scoreBy g g.value scans c

theorem scoreBy_le {value value' : ℤ → ℤ → ℕ} (hscan : l.scanIndex = c.scanIndex)
    (hle : ∀ p ∈ scans.getD c.scanIndex [], value (p.1 + l.xIndexOffset) (p.2 + l.yIndexOffset) ≤
      value' (p.1 + c.xIndexOffset) (p.2 + c.yIndexOffset)) :
    scoreBy g value scans l ≤ scoreBy g value' scans c := by
  rw [scoreBy, scoreBy, hscan]
  refine g.toScore_mono (fl_mono (div_le_div_of_nonneg_right (fl_mono ?_) ?_))
  · exact Nat.cast_le.2 (foldl_add_le hle le_rfl)
  · exact fl_nonneg (Nat.cast_nonneg _)

theorem scoreBy_zero (c : Place) : scoreBy g (squareValue g 0) scans c = plainScore g scans c := by
  rw [plainScore, scoreBy, scoreBy, sumOver, sumOver]
  simp only [squareValue_zero]

/-! ## The tree of the places -/

/-- A place and the one a step further, as far as they are not beyond the bound. -/
def halvesWithin (max at' half : ℤ) : List ℤ :=
  if max < at' then [] else if max < at' + half then [at'] else [at', at' + half]

theorem mem_halvesWithin_iff {at' max v : ℤ} {half : ℕ} :
    v ∈ halvesWithin max at' half ↔ (v = at' ∨ v = at' + half) ∧ v ≤ max := by
  rw [halvesWithin]
  split_ifs with hat hhalf
  · simp only [List.not_mem_nil, false_iff]
    omega
  · rw [List.mem_singleton]
    omega
  · rw [List.mem_cons, List.mem_singleton]
    omega

theorem halves_eq {at' max half : ℤ} (h : IsInt (at' + half)) :
    halves max at' half = some (halvesWithin max at' half) := by
  rw [halves, halvesWithin, int_of h]
  simp only [Option.bind_eq_bind, Option.bind_some]
  split_ifs
  all_goals rfl

/-- The quarters of a square, as far as they are not beyond the bounds. -/
def quarters (s : SearchParameters) (half : ℤ) (c : Place) : List Place :=
  s.linearBounds[c.scanIndex]?.elim [] fun b =>
    (halvesWithin b.maxX c.xIndexOffset half).flatMap fun x =>
      (halvesWithin b.maxY c.yIndexOffset half).map fun y => ⟨c.scanIndex, x, y⟩

theorem mem_quarters_iff (hb : s.linearBounds[c.scanIndex]? = some b) {half : ℕ} :
    l ∈ quarters s half c ↔ l.scanIndex = c.scanIndex ∧
      ((l.xIndexOffset = c.xIndexOffset ∨ l.xIndexOffset = c.xIndexOffset + half) ∧
        l.xIndexOffset ≤ b.maxX) ∧
      (l.yIndexOffset = c.yIndexOffset ∨ l.yIndexOffset = c.yIndexOffset + half) ∧
        l.yIndexOffset ≤ b.maxY := by
  rw [quarters, hb, Option.elim_some]
  simp only [List.mem_flatMap, List.mem_map, mem_halvesWithin_iff]
  constructor
  · rintro ⟨x, hx, y, hy, rfl⟩
    exact ⟨rfl, hx, hy⟩
  · rintro ⟨hscan, hx, hy⟩
    exact ⟨l.xIndexOffset, hx, l.yIndexOffset, hy, by rw [← hscan]⟩

/-- The loops give the quarters. -/
theorem higherResolution_eq {half : ℤ} (hb : s.linearBounds[c.scanIndex]? = some b)
    (hx : IsInt (c.xIndexOffset + half)) (hy : IsInt (c.yIndexOffset + half)) :
    higherResolution s half c = some (quarters s half c) := by
  rw [higherResolution, quarters, hb]
  simp only [halves_eq hx, halves_eq hy, Option.bind_eq_bind, Option.bind_some, Option.elim_some]
  rw [List.mapM_pure, List.flatMap_def]
  rfl

/-- The place is within the bounds of its scan. -/
def Within (s : SearchParameters) (c : Place) (b : LinearBounds) : Prop :=
  s.linearBounds[c.scanIndex]? = some b ∧
    (b.minX ≤ c.xIndexOffset ∧ c.xIndexOffset ≤ b.maxX) ∧
    b.minY ≤ c.yIndexOffset ∧ c.yIndexOffset ≤ b.maxY

theorem Within.quarter (hc : Within s c b) (hl : l ∈ quarters s (2 ^ h : ℕ) c) : Within s l b := by
  obtain ⟨hb, hx, hy⟩ := hc
  obtain ⟨hscan, hlx, hly⟩ := (mem_quarters_iff hb).1 hl
  have hpos := Nat.two_pow_pos h
  refine ⟨by rwa [hscan], ⟨?_, hlx.2⟩, ?_, hly.2⟩
  all_goals omega

/-- The search tree : a place of height `h` stands for the square of width `2 ^ h` from there on,
and its children for the quarters. -/
def tree (g : Grid2D) (scans : List DiscreteScan2D) (s : SearchParameters) :
    Tree Place ℚ where
  children h c := quarters s (2 ^ h : ℕ) c
  bound h c := scoreBy g (squareValue g h) scans c
  bound_le h c l hl := by
    cases hb : s.linearBounds[c.scanIndex]? with
    | none =>
      rw [quarters, hb] at hl
      cases hl
    | some b =>
      obtain ⟨hscan, ⟨hx, -⟩, hy, -⟩ := (mem_quarters_iff hb).1 hl
      refine scoreBy_le hscan fun p _ => squareValue_quarter ?_ ?_
      · exact hx.imp (congrArg (p.1 + ·)) fun hx => by rw [hx, ← Int.add_assoc]
      · exact hy.imp (congrArg (p.2 + ·)) fun hy => by rw [hy, ← Int.add_assoc]

theorem score_tree (c : Place) : (tree g scans s).bound 0 c = plainScore g scans c :=
  scoreBy_zero c

/-- The leaves below a place are the places in its square that are within the bounds. -/
theorem mem_leaves_iff : ∀ {h : ℕ} {c : Place}, Within s c b →
    (l ∈ (tree g scans s).leaves h c ↔ l.scanIndex = c.scanIndex ∧
      (c.xIndexOffset ≤ l.xIndexOffset ∧ l.xIndexOffset < c.xIndexOffset + (2 ^ h : ℕ) ∧
        l.xIndexOffset ≤ b.maxX) ∧
      c.yIndexOffset ≤ l.yIndexOffset ∧ l.yIndexOffset < c.yIndexOffset + (2 ^ h : ℕ) ∧
        l.yIndexOffset ≤ b.maxY)
  | 0, c, ⟨hb, hx, hy⟩ => by
    constructor
    · rintro rfl
      have hlt : ∀ v : ℤ, v < v + (2 ^ 0 : ℕ) := fun v => Int.lt_add_one_iff.2 le_rfl
      exact ⟨rfl, ⟨le_rfl, hlt _, hx.2⟩, le_rfl, hlt _, hy.2⟩
    · rintro ⟨hscan, ⟨hx, hx', -⟩, hy, hy', -⟩
      have hone : ((2 ^ 0 : ℕ) : ℤ) = 1 := rfl
      rw [hone] at hx' hy'
      obtain ⟨i, x, y⟩ := l
      obtain ⟨i', x', y'⟩ := c
      obtain rfl : x = x' := le_antisymm (Int.lt_add_one_iff.1 hx') hx
      obtain rfl : y = y' := le_antisymm (Int.lt_add_one_iff.1 hy') hy
      obtain rfl : i = i' := hscan
      rfl
  | h + 1, c, hc => by
    have hdouble : 2 ^ (h + 1) = 2 ^ h + 2 ^ h := by rw [pow_succ, Nat.mul_two]
    constructor
    · rintro ⟨c', hc', hl⟩
      obtain ⟨hscan', ⟨hx', -⟩, hy', -⟩ := (mem_quarters_iff hc.1).1 hc'
      obtain ⟨hscan, hlx, hly⟩ := (mem_leaves_iff (hc.quarter hc')).1 hl
      refine ⟨hscan.trans hscan', ⟨?_, ?_, hlx.2.2⟩, ?_, ?_, hly.2.2⟩
      all_goals omega
    · rintro ⟨hscan, hlx, hly⟩
      have hhalf : ∀ {v at' : ℤ}, at' ≤ v → v < at' + (2 ^ (h + 1) : ℕ) →
          ∃ v', (v' = at' ∨ v' = at' + (2 ^ h : ℕ)) ∧ v' ≤ v ∧ v < v' + (2 ^ h : ℕ) :=
        fun {v at'} hle hlt => by
          by_cases hv : v < at' + (2 ^ h : ℕ)
          · exact ⟨at', .inl rfl, hle, hv⟩
          · exact ⟨at' + (2 ^ h : ℕ), .inr rfl, by omega, by omega⟩
      obtain ⟨x', hx', hxl, hlx'⟩ := hhalf hlx.1 hlx.2.1
      obtain ⟨y', hy', hyl, hly'⟩ := hhalf hly.1 hly.2.1
      have hchild : (⟨c.scanIndex, x', y'⟩ : Place) ∈ quarters s (2 ^ h : ℕ) c :=
        (mem_quarters_iff hc.1).2 ⟨rfl, ⟨hx', hxl.trans hlx.2.2⟩, hy', hyl.trans hly.2.2⟩
      exact ⟨_, hchild, (mem_leaves_iff (hc.quarter hchild)).2
        ⟨hscan, ⟨hxl, hlx', hlx.2.2⟩, hyl, hly', hly.2.2⟩⟩

/-! ## The search -/

variable {m : FastCorrelativeScanMatcher2D} {numLinear depth : ℕ}

/-- A matcher whose grids have the greatest values of the squares. -/
structure Stacked (m : FastCorrelativeScanMatcher2D) (depth : ℕ) : Prop where
  length : m.stack.length = depth
  scaled : m.grid.Scaled
  squares : ∀ h < depth, ∃ p, m.stack[h]? = some p ∧ Squares m.grid h p

/-- Scans with points, one for each of the bounds, that fit into an `int` wherever they are moved to
within the bounds. -/
structure Scanned (scans : List DiscreteScan2D) (s : SearchParameters) (numLinear depth : ℕ) :
    Prop where
  length : scans.length = s.linearBounds.length
  points : ∀ scan ∈ scans, scan ≠ []
  size : ∀ scan ∈ scans, 255 * scan.length ≤ intMax
  cells : ∀ scan ∈ scans, ∀ p ∈ scan, p.1.natAbs + numLinear + 2 ^ (depth - 1) ≤ intMax ∧
    p.2.natAbs + numLinear + 2 ^ (depth - 1) ≤ intMax
  bounds : ∀ b ∈ s.linearBounds, (-(numLinear : ℤ) ≤ b.minX ∧ b.maxX ≤ numLinear) ∧
    -(numLinear : ℤ) ≤ b.minY ∧ b.maxY ≤ numLinear
  span : 2 * numLinear + 2 ^ (depth - 1) ≤ intMax

theorem width_le (hdepth : h < depth) : 2 ^ h ≤ 2 ^ (depth - 1) :=
  Nat.pow_le_pow_right Nat.two_pos (Nat.le_sub_one_of_lt hdepth)

namespace Scanned

theorem isInt_width (hscans : Scanned scans s numLinear depth) (hdepth : h < depth) :
    IsInt (2 ^ h : ℕ) := by
  have hspan := hscans.span
  have hwidth := width_le hdepth
  have hpos := Nat.two_pow_pos h
  constructor
  all_goals omega

/-- A step of a square from a place within the bounds on fits. -/
theorem isInt_step (hscans : Scanned scans s numLinear depth) (hdepth : h < depth)
    (hc : Within s c b) : IsInt (c.xIndexOffset + (2 ^ h : ℕ)) ∧
      IsInt (c.yIndexOffset + (2 ^ h : ℕ)) := by
  obtain ⟨hb, hx, hy⟩ := hc
  have hbounds := hscans.bounds b (List.mem_of_getElem? hb)
  have hspan := hscans.span
  have hwidth := width_le hdepth
  have hpos := Nat.two_pow_pos h
  refine ⟨⟨?_, ?_⟩, ?_, ?_⟩
  all_goals omega

/-- So does a step of a point that is moved there, and the point. -/
theorem isInt_point (hscans : Scanned scans s numLinear depth) (hdepth : h < depth)
    (hc : Within s c b) {scan : DiscreteScan2D} (hscan : scan ∈ scans) {p : ℤ × ℤ}
    (hp : p ∈ scan) : (IsInt (p.1 + c.xIndexOffset) ∧ IsInt (p.2 + c.yIndexOffset)) ∧
      IsInt (p.1 + c.xIndexOffset + (2 ^ h : ℕ) - 1) ∧
      IsInt (p.2 + c.yIndexOffset + (2 ^ h : ℕ) - 1) := by
  obtain ⟨hb, hx, hy⟩ := hc
  have hbounds := hscans.bounds b (List.mem_of_getElem? hb)
  have hcells := hscans.cells scan hscan p hp
  have hwidth := width_le hdepth
  have hpos := Nat.two_pow_pos h
  refine ⟨⟨⟨?_, ?_⟩, ?_, ?_⟩, ⟨?_, ?_⟩, ?_, ?_⟩
  all_goals omega

end Scanned

/-- The sum over a scan of which every point fits. -/
theorem foldlM_sumValues {p : PrecomputationGrid2D} (hp : Squares g h p) (hscaled : g.Scaled)
    {scan : DiscreteScan2D} (hfit : ∀ q ∈ scan,
      (IsInt (q.1 + c.xIndexOffset) ∧ IsInt (q.2 + c.yIndexOffset)) ∧
        IsInt (q.1 + c.xIndexOffset + (2 ^ h : ℕ) - 1) ∧
        IsInt (q.2 + c.yIndexOffset + (2 ^ h : ℕ) - 1)) (a : ℕ)
    (ha : a + 255 * scan.length ≤ intMax) :
    scan.foldlM (fun (sum : ℤ) q => do
      let x ← int (q.1 + c.xIndexOffset)
      let y ← int (q.2 + c.yIndexOffset)
      let value ← p.getValue x y
      int (sum + value)) a = some ((scan.foldl (fun sum q => sum + squareValue g h
        (q.1 + c.xIndexOffset) (q.2 + c.yIndexOffset)) a : ℕ) : ℤ) := by
  simp only [Option.bind_eq_bind]
  induction scan generalizing a with
  | nil => rfl
  | cons q scan ih =>
    obtain ⟨⟨hx, hy⟩, hwx, hwy⟩ := hfit q List.mem_cons_self
    have hvalue : squareValue g h (q.1 + c.xIndexOffset) (q.2 + c.yIndexOffset) ≤ 255 :=
      squareValue_le fun i _ j _ => hscaled.value_le _ _
    rw [List.length_cons] at ha
    have hsum : IsInt (a + squareValue g h (q.1 + c.xIndexOffset) (q.2 + c.yIndexOffset) : ℤ) :=
      ⟨by omega, by omega⟩
    rw [List.foldlM_cons, int_of hx, int_of hy]
    simp only [Option.bind_eq_bind, Option.bind_some, hp.value _ _ hwx hwy, int_of hsum]
    rw [← Int.natCast_add]
    exact ih (fun q hq => hfit q (List.mem_cons_of_mem _ hq)) _ (by omega)

/-- Candidates of a height within the bounds, the best first. -/
structure Ranked (g : Grid2D) (scans : List DiscreteScan2D) (s : SearchParameters) (h : ℕ)
    (cs : List Candidate2D) : Prop where
  sorted : cs.Pairwise fun c c' => c'.score ≤ c.score
  score : ∀ c ∈ cs, c.score = (tree g scans s).bound h c.toPlace
  within : ∀ c ∈ cs, ∃ b, Within s c.toPlace b

theorem Ranked.le_first {c c' : Candidate2D} {rest : List Candidate2D}
    (hr : Ranked g scans s h (c :: rest)) (hc' : c' ∈ c :: rest) : c'.score ≤ c.score := by
  rcases List.mem_cons.1 hc' with rfl | hc'
  · exact le_rfl
  · exact (List.pairwise_cons.1 hr.sorted).1 c' hc'

theorem Ranked.tail {c : Candidate2D} {rest : List Candidate2D}
    (hr : Ranked g scans s h (c :: rest)) : Ranked g scans s h rest where
  sorted := (List.pairwise_cons.1 hr.sorted).2
  score c' hc' := hr.score c' (List.mem_cons_of_mem c hc')
  within c' hc' := hr.within c' (List.mem_cons_of_mem c hc')

theorem mapM_eq_map {A B : Type} {f : A → Option B} {out : A → B} : ∀ {as : List A},
    (∀ a ∈ as, f a = some (out a)) → as.mapM f = some (as.map out)
  | [], _ => rfl
  | a :: as, h => by
    rw [List.mapM_cons, h a List.mem_cons_self,
      mapM_eq_map fun a' ha' => h a' (List.mem_cons_of_mem a ha')]
    rfl

/-- The score of a place within the bounds is the bound that the tree has for it. -/
theorem scoreCandidate_of (hm : Stacked m depth) (hscans : Scanned scans s numLinear depth)
    (hdepth : h < depth) {p : PrecomputationGrid2D} (hp : Squares m.grid h p)
    (hc : Within s c b) :
    scoreCandidate p scans c = some ⟨c, (tree m.grid scans s).bound h c⟩ := by
  have hlt : c.scanIndex < scans.length := by
    rw [hscans.length]
    exact (List.getElem?_eq_some_iff.1 hc.1).1
  have hscan : scans[c.scanIndex]? = some scans[c.scanIndex] := List.getElem?_eq_getElem hlt
  have hmem : scans[c.scanIndex] ∈ scans := List.getElem_mem hlt
  have hsum : sumValues p scans[c.scanIndex] c =
      some ((sumOver (squareValue m.grid h) scans[c.scanIndex] c : ℕ) : ℤ) :=
    foldlM_sumValues hp hm.scaled (fun q hq => hscans.isInt_point hdepth hc hmem hq) 0
      (by rw [Nat.zero_add]; exact hscans.size _ hmem)
  have hbound : (tree m.grid scans s).bound h c = toScore m.grid.minScore m.grid.maxScore
      (fl (fl (sumOver (squareValue m.grid h) scans[c.scanIndex] c) /
        fl scans[c.scanIndex].length)) := by
    rw [tree]
    dsimp only
    rw [scoreBy, List.getD_eq_getElem?_getD, hscan, Option.getD_some]
  rw [scoreCandidate, hscan, hbound, Option.bind_eq_bind, Option.bind_some, hsum,
    Option.bind_eq_bind, Option.bind_some, if_neg (hscans.points _ hmem), hp.minScore, hp.maxScore,
    Int.cast_natCast]

/-- Scoring keeps the places, and ranks them. -/
theorem scoreCandidates_of (hm : Stacked m depth) (hscans : Scanned scans s numLinear depth)
    (hdepth : h < depth) {p : PrecomputationGrid2D} (hp : Squares m.grid h p) {cs : List Place}
    (hcs : ∀ c ∈ cs, ∃ b, Within s c b) :
    ∃ scored, m.scoreCandidates p scans cs = some scored ∧ Ranked m.grid scans s h scored ∧
      ∀ c, c ∈ scored.map Candidate2D.toPlace ↔ c ∈ cs := by
  have hscore : ∀ c ∈ cs, scoreCandidate p scans c =
      some ⟨c, (tree m.grid scans s).bound h c⟩ := fun c hc => by
    obtain ⟨b, hb⟩ := hcs c hc
    exact scoreCandidate_of hm hscans hdepth hp hb
  have hperm := m.order.perm (cs.map fun c => ⟨c, (tree m.grid scans s).bound h c⟩)
  refine ⟨_, by rw [scoreCandidates, mapM_eq_map hscore]; rfl, ⟨m.order.sorted _, ?_, ?_⟩, ?_⟩
  · intro c hc
    obtain ⟨c', -, rfl⟩ := List.mem_map.1 (hperm.mem_iff.1 hc)
    rfl
  · intro c hc
    obtain ⟨c', hc', rfl⟩ := List.mem_map.1 (hperm.mem_iff.1 hc)
    exact hcs c' hc'
  · intro c
    rw [(hperm.map Candidate2D.toPlace).mem_iff, List.map_map, List.mem_map]
    exact ⟨fun ⟨c', hc', h⟩ => h ▸ hc', fun hc => ⟨c, hc, rfl⟩⟩

/-- The loop answers if the search of every candidate does. -/
theorem boundLoop_found {search : Candidate2D → ℚ → Option Candidate2D} {minScore : ℚ} :
    ∀ {cs : List Candidate2D} {L : Set Place} {best : Candidate2D},
      Ranked g scans s (h + 1) cs →
      (∀ c ∈ cs, ∀ sb, ∃ r, search c sb = some r ∧ Answer (plainScore g scans)
        ((tree g scans s).leaves (h + 1) c.toPlace) sb r.toPlace r.score) →
      Found (plainScore g scans) L minScore best.toPlace best.score →
      ∃ r, boundLoop search minScore cs best = some r ∧ Found (plainScore g scans)
        (L ∪ (tree g scans s).below (h + 1) (cs.map Candidate2D.toPlace)) minScore
        r.toPlace r.score
  | [], L, best, _, _, hf => by
    refine ⟨best, rfl, hf.prune fun l hl => ?_⟩
    obtain ⟨c, hc, -⟩ := hl
    cases hc
  | c :: rest, L, best, hr, hsearch, hf => by
    rw [boundLoop]
    split_ifs with hle
    · refine ⟨best, rfl, hf.prune fun l hl => ?_⟩
      rw [← score_tree (s := s)]
      refine Tree.score_le_of_below _ (fun c' hc' => ?_) hl
      obtain ⟨d, hd, rfl⟩ := List.mem_map.1 hc'
      rw [← hr.score d hd]
      exact (hr.le_first hd).trans hle
    · obtain ⟨r, hr', ha⟩ := hsearch c List.mem_cons_self best.score
      rw [hr', Option.bind_eq_bind, Option.bind_some, List.map_cons, Tree.below_cons,
        ← Set.union_assoc]
      have hsearch' := fun c' hc' => hsearch c' (List.mem_cons_of_mem c hc')
      split_ifs with hlt
      · exact boundLoop_found hr.tail hsearch' (hf.search_of_lt ha hlt)
      · exact boundLoop_found hr.tail hsearch' (hf.search_of_le ha (not_lt.1 hlt))

/-- The search of ranked candidates answers with a best one of the places they stand for. -/
theorem branchAndBound_answer (hm : Stacked m depth) (hscans : Scanned scans s numLinear depth) :
    ∀ {h : ℕ} {cs : List Candidate2D} {minScore : ℚ}, h < depth →
      Ranked m.grid scans s h cs → cs ≠ [] →
      ∃ r, m.branchAndBound scans s h cs minScore = some r ∧ Answer (plainScore m.grid scans)
        ((tree m.grid scans s).below h (cs.map Candidate2D.toPlace)) minScore r.toPlace r.score
  | 0, [], _, _, _, hne => absurd rfl hne
  | 0, c :: rest, minScore, _, hr, _ => by
    refine ⟨c, rfl, .inl ⟨⟨c.toPlace, List.mem_cons_self, rfl⟩, ?_, fun l hl => ?_⟩⟩
    · rw [hr.score c List.mem_cons_self, score_tree]
    · obtain ⟨c', hc', rfl⟩ := hl
      obtain ⟨d, hd, rfl⟩ := List.mem_map.1 hc'
      rw [← score_tree (s := s), ← hr.score d hd]
      exact hr.le_first hd
  | h + 1, cs, minScore, hdepth, hr, _ => by
    have hlt : h < depth := (Nat.lt_succ_self h).trans hdepth
    obtain ⟨p, hstack, hp⟩ := hm.squares h hlt
    have hhalf : int (2 ^ h : ℕ) = some ((2 ^ h : ℕ) : ℤ) := int_of (hscans.isInt_width hlt)
    have hsearch : ∀ c ∈ cs, ∀ sb, ∃ r, (do
        let halfWidth ← int (2 ^ h : ℕ)
        let higher ← higherResolution s halfWidth c.toPlace
        let grid ← m.stack[h]?
        let scored ← m.scoreCandidates grid scans higher
        m.branchAndBound scans s h scored sb) = some r ∧ Answer (plainScore m.grid scans)
          ((tree m.grid scans s).leaves (h + 1) c.toPlace) sb r.toPlace r.score := by
      intro c hc sb
      obtain ⟨b, hb⟩ := hr.within c hc
      obtain ⟨hx, hy⟩ := hscans.isInt_step hlt hb
      have hchildren := higherResolution_eq hb.1 hx hy
      obtain ⟨scored, hscored, hranked, hplaces⟩ := scoreCandidates_of hm hscans hlt hp
        fun l hl => ⟨b, hb.quarter hl⟩
      have hne : scored ≠ [] := by
        rintro rfl
        have hself := (hplaces c.toPlace).2 ((mem_quarters_iff hb.1).2
          ⟨rfl, ⟨.inl rfl, hb.2.1.2⟩, .inl rfl, hb.2.2.2⟩)
        cases hself
      have hbelow : (tree m.grid scans s).below h (scored.map Candidate2D.toPlace) =
          (tree m.grid scans s).leaves (h + 1) c.toPlace := by
        ext l
        exact exists_congr fun l' => and_congr_left fun _ => hplaces l'
      have hanswer : ∃ r, m.branchAndBound scans s h scored sb = some r ∧ _ :=
        branchAndBound_answer hm hscans hlt hranked hne
      obtain ⟨r, hr, ha⟩ := hanswer
      refine ⟨r, ?_, hbelow ▸ ha⟩
      simp only [hhalf, hchildren, hstack, Option.bind_eq_bind, Option.bind_some, hscored, hr]
    have hstart := Found.start (plainScore m.grid scans) minScore ⟨0, 0, 0⟩
    obtain ⟨r, hloop, hfound⟩ := @boundLoop_found m.grid scans s h _ minScore cs ∅
      ⟨⟨0, 0, 0⟩, minScore⟩ hr hsearch hstart
    rw [Set.empty_union] at hfound
    exact ⟨r, hloop, hfound.answer⟩

/-! ## The lowest resolution -/

theorem mem_stepsTo {max v x : ℤ} (hx : x ∈ stepsTo max h v) : v ≤ x ∧ x ≤ max := by
  fun_induction stepsTo max h v with
  | case1 v hle ih =>
    rcases List.mem_cons.1 hx with rfl | hx
    · exact ⟨le_rfl, hle⟩
    · have := ih hx
      have := Nat.two_pow_pos h
      omega
  | case2 => cases hx

/-- The steps leave no gap. -/
theorem exists_mem_stepsTo {max v x : ℤ} (hv : v ≤ x) (hx : x ≤ max) :
    ∃ x' ∈ stepsTo max h v, x' ≤ x ∧ x < x' + (2 ^ h : ℕ) := by
  fun_induction stepsTo max h v with
  | case1 v hle ih =>
    by_cases hlt : x < v + (2 ^ h : ℕ)
    · exact ⟨v, List.mem_cons_self, hv, hlt⟩
    · obtain ⟨x', hx', hle'⟩ := ih (by omega)
      exact ⟨x', List.mem_cons_of_mem v hx', hle'⟩
  | case2 v hgt => exact absurd (hv.trans hx) hgt

theorem length_stepsTo {max v : ℤ} (hv : v ≤ max + (2 ^ h : ℕ)) :
    ((stepsTo max h v).length : ℤ) = (max - v + (2 ^ h : ℕ)).tdiv (2 ^ h : ℕ) := by
  have hpos := Nat.two_pow_pos h
  fun_induction stepsTo max h v with
  | case1 v hle ih =>
    rw [List.length_cons, Int.natCast_succ, ih (by omega), Int.tdiv_eq_ediv_of_nonneg (by omega),
      Int.tdiv_eq_ediv_of_nonneg (by omega), ← Int.add_mul_ediv_right _ _ (by omega)]
    congr 1
    omega
  | case2 v hgt =>
    rw [Int.tdiv_eq_ediv_of_nonneg (by omega)]
    exact (Int.ediv_eq_zero_of_lt (by omega) (by omega)).symm

/-- Bounds that hold the offset 0. -/
structure Centered (b : LinearBounds) : Prop where
  minX : b.minX ≤ 0
  maxX : 0 ≤ b.maxX
  minY : b.minY ≤ 0
  maxY : 0 ≤ b.maxY

/-- The offsets that are searched at the lowest resolution, for the bounds of a scan. -/
def lowestOffsets (h i : ℕ) (b : LinearBounds) : List Place :=
  (stepsTo b.maxX h b.minX).flatMap fun x => (stepsTo b.maxY h b.minY).map fun y => ⟨i, x, y⟩

theorem mem_lowestOffsets_iff {i : ℕ} : c ∈ lowestOffsets h i b ↔
    c.xIndexOffset ∈ stepsTo b.maxX h b.minX ∧ c.yIndexOffset ∈ stepsTo b.maxY h b.minY ∧
      c.scanIndex = i := by
  simp only [lowestOffsets, List.mem_flatMap, List.mem_map]
  constructor
  · rintro ⟨x, hx, y, hy, rfl⟩
    exact ⟨hx, hy, rfl⟩
  · rintro ⟨hx, hy, hi⟩
    exact ⟨c.xIndexOffset, hx, c.yIndexOffset, hy, by rw [← hi]⟩

theorem length_lowestOffsets (hb : Centered b) (i : ℕ) : ((lowestOffsets h i b).length : ℤ) =
    (b.maxX - b.minX + (2 ^ h : ℕ)).tdiv (2 ^ h : ℕ) *
      (b.maxY - b.minY + (2 ^ h : ℕ)).tdiv (2 ^ h : ℕ) := by
  obtain ⟨hminX, hmaxX, hminY, hmaxY⟩ := hb
  have hpos := Nat.two_pow_pos h
  rw [← length_stepsTo (by omega), ← length_stepsTo (by omega), lowestOffsets, ← Int.natCast_mul]
  congr 1
  induction stepsTo b.maxX h b.minX with
  | nil => simp only [List.flatMap_nil, List.length_nil, Nat.zero_mul]
  | cons x xs ih =>
    rw [List.flatMap_cons, List.length_append, ih, List.length_map, List.length_cons,
      Nat.succ_mul, Nat.add_comm]

/-- The places of the lowest resolution. -/
def lowestPlaces (s : SearchParameters) (h : ℕ) : List Place :=
  s.linearBounds.zipIdx.flatMap fun b => lowestOffsets h b.2 b.1

theorem numAlong_of {min max : ℤ} (hle : min ≤ max) (hint : max - min + (2 ^ h : ℕ) ≤ intMax) :
    numAlong min max (2 ^ h : ℕ) = some ((max - min + (2 ^ h : ℕ)).tdiv (2 ^ h : ℕ)) := by
  have hpos := Nat.two_pow_pos h
  have hspan : IsInt (max - min) := ⟨by omega, by omega⟩
  have hsum : IsInt (max - min + (2 ^ h : ℕ)) := ⟨by omega, by omega⟩
  rw [numAlong, int_of hspan, Option.bind_eq_bind, Option.bind_some, int_of hsum]
  rfl

/-- As many candidates are counted as there are. -/
theorem foldlM_numAlong {bs : List LinearBounds} (hbs : ∀ b ∈ bs, Centered b ∧
      b.maxX - b.minX + (2 ^ h : ℕ) ≤ intMax ∧ b.maxY - b.minY + (2 ^ h : ℕ) ≤ intMax) (k num : ℕ)
    (hnum : num + ((bs.zipIdx k).flatMap fun b => lowestOffsets h b.2 b.1).length ≤ intMax) :
    bs.foldlM (fun (num : ℤ) b => do
        let numX ← numAlong b.minX b.maxX (2 ^ h : ℕ)
        let numY ← numAlong b.minY b.maxY (2 ^ h : ℕ)
        let product ← int (numX * numY)
        int (num + product)) num =
      some ((num + ((bs.zipIdx k).flatMap fun b => lowestOffsets h b.2 b.1).length : ℕ) : ℤ) := by
  simp only [Option.bind_eq_bind]
  induction bs generalizing k num with
  | nil => rfl
  | cons b bs ih =>
    obtain ⟨hb, hx, hy⟩ := hbs b List.mem_cons_self
    rw [List.zipIdx_cons, List.flatMap_cons, List.length_append] at hnum ⊢
    dsimp only at hnum ⊢
    have hproduct : IsInt (lowestOffsets h k b).length := ⟨by omega, by omega⟩
    have hsum : IsInt (num + (lowestOffsets h k b).length : ℤ) := ⟨by omega, by omega⟩
    rw [List.foldlM_cons, numAlong_of (hb.minX.trans hb.maxX) hx,
      numAlong_of (hb.minY.trans hb.maxY) hy]
    simp only [Option.bind_eq_bind, Option.bind_some, ← length_lowestOffsets hb k, int_of hproduct,
      int_of hsum]
    rw [← Int.natCast_add, ← Nat.add_assoc]
    exact ih (fun b' hb' => hbs b' (List.mem_cons_of_mem b hb')) (k + 1) _ (by omega)

theorem generateLowestResolutionCandidates_of (hscans : Scanned scans s numLinear depth)
    (hmax : m.maxDepth < depth) (hs : ∀ b ∈ s.linearBounds, Centered b)
    (hcount : (lowestPlaces s m.maxDepth).length ≤ intMax) :
    m.generateLowestResolutionCandidates s = some (lowestPlaces s m.maxDepth) := by
  have hspan := hscans.span
  have hwidth := width_le hmax
  have hfold := @foldlM_numAlong m.maxDepth s.linearBounds (fun b hb => by
    have hbounds := hscans.bounds b hb
    refine ⟨hs b hb, ?_, ?_⟩
    all_goals omega) 0 0 (by rw [Nat.zero_add]; exact hcount)
  have hsteps : ∀ {b : LinearBounds}, b ∈ s.linearBounds → ∀ {v : ℤ},
      (b.minX ≤ v ∧ v ≤ b.maxX) ∨ (b.minY ≤ v ∧ v ≤ b.maxY) →
        IsInt (v + (2 ^ m.maxDepth : ℕ)) := fun {b} hb {v} hv => by
    have hbounds := hscans.bounds b hb
    have hpos := Nat.two_pow_pos m.maxDepth
    constructor
    all_goals omega
  rw [generateLowestResolutionCandidates, int_of (hscans.isInt_width hmax), Option.bind_eq_bind,
    Option.bind_some, ← Int.natCast_zero, hfold, Option.bind_some, if_pos]
  · rfl
  · refine ⟨fun b hb x hx => ⟨hsteps hb (.inl (mem_stepsTo hx)), fun y hy =>
      hsteps hb (.inr (mem_stepsTo hy))⟩, ?_⟩
    rw [Nat.zero_add]
    rfl

theorem mem_lowestPlaces_iff : c ∈ lowestPlaces s h ↔
    ∃ b, s.linearBounds[c.scanIndex]? = some b ∧ c.xIndexOffset ∈ stepsTo b.maxX h b.minX ∧
      c.yIndexOffset ∈ stepsTo b.maxY h b.minY := by
  rw [lowestPlaces, List.mem_flatMap]
  constructor
  · rintro ⟨⟨b, i⟩, hbi, hc⟩
    obtain ⟨hx, hy, rfl⟩ := mem_lowestOffsets_iff.1 hc
    exact ⟨b, List.mk_mem_zipIdx_iff_getElem?.1 hbi, hx, hy⟩
  · rintro ⟨b, hb, hx, hy⟩
    exact ⟨(b, c.scanIndex), List.mk_mem_zipIdx_iff_getElem?.2 hb,
      mem_lowestOffsets_iff.2 ⟨hx, hy, rfl⟩⟩

theorem exists_within_of_mem (hc : c ∈ lowestPlaces s h) : ∃ b, Within s c b := by
  obtain ⟨b, hb, hx, hy⟩ := mem_lowestPlaces_iff.1 hc
  exact ⟨b, hb, mem_stepsTo hx, mem_stepsTo hy⟩

/-- The places within the bounds. -/
def window (s : SearchParameters) : Set Place :=
  {l | ∃ b, Within s l b}

/-- The lowest resolution candidates stand for all places within the bounds. -/
theorem below_lowest {cs : List Place} (hcs : ∀ c, c ∈ cs ↔ c ∈ lowestPlaces s h) :
    (tree g scans s).below h cs = window s := by
  ext l
  constructor
  · rintro ⟨c, hc, hl⟩
    obtain ⟨b, hb, hx, hy⟩ := exists_within_of_mem ((hcs c).1 hc)
    obtain ⟨hscan, hlx, hly⟩ := (mem_leaves_iff ⟨hb, hx, hy⟩).1 hl
    exact ⟨b, by rwa [hscan], ⟨hx.1.trans hlx.1, hlx.2.2⟩, hy.1.trans hly.1, hly.2.2⟩
  · rintro ⟨b, hb, hlx, hly⟩
    obtain ⟨x, hx, hxl⟩ := exists_mem_stepsTo (h := h) hlx.1 hlx.2
    obtain ⟨y, hy, hyl⟩ := exists_mem_stepsTo (h := h) hly.1 hly.2
    have hwithin : Within s ⟨l.scanIndex, x, y⟩ b := ⟨hb, mem_stepsTo hx, mem_stepsTo hy⟩
    exact ⟨⟨l.scanIndex, x, y⟩, (hcs _).2 (mem_lowestPlaces_iff.2 ⟨b, hb, hx, hy⟩),
      (mem_leaves_iff hwithin).2 ⟨rfl, ⟨hxl.1, hxl.2, hlx.2⟩, hyl.1, hyl.2, hly.2⟩⟩

/-! ## The whole match -/

theorem foldl_min_le {f : ℤ × ℤ → ℤ} : ∀ {scan : DiscreteScan2D} {a : ℤ},
    scan.foldl (fun m p => min m (f p)) a ≤ a ∧
      ∀ p ∈ scan, scan.foldl (fun m p => min m (f p)) a ≤ f p
  | [], _ => ⟨le_rfl, fun _ hp => nomatch hp⟩
  | q :: scan, a => by
    obtain ⟨hle, hall⟩ := @foldl_min_le f scan (min a (f q))
    rw [List.foldl_cons]
    refine ⟨hle.trans (min_le_left _ _), fun p hp => ?_⟩
    rcases List.mem_cons.1 hp with rfl | hp
    · exact hle.trans (min_le_right _ _)
    · exact hall p hp

theorem le_foldl_max {f : ℤ × ℤ → ℤ} : ∀ {scan : DiscreteScan2D} {a : ℤ},
    a ≤ scan.foldl (fun m p => max m (f p)) a ∧
      ∀ p ∈ scan, f p ≤ scan.foldl (fun m p => max m (f p)) a
  | [], _ => ⟨le_rfl, fun _ hp => nomatch hp⟩
  | q :: scan, a => by
    obtain ⟨hle, hall⟩ := @le_foldl_max f scan (max a (f q))
    rw [List.foldl_cons]
    refine ⟨(le_max_left _ _).trans hle, fun p hp => ?_⟩
    rcases List.mem_cons.1 hp with rfl | hp
    · exact (le_max_right _ _).trans hle
    · exact hall p hp

theorem centered_shrink {numX numY : ℕ} (scan : DiscreteScan2D) (hb : Centered b) :
    Centered (SearchParameters.shrink numX numY scan b) where
  minX := max_le hb.minX foldl_min_le.1
  maxX := le_min hb.maxX le_foldl_max.1
  minY := max_le hb.minY foldl_min_le.1
  maxY := le_min hb.maxY le_foldl_max.1

/-- Where the shrunk bounds are exceeded, but not the bounds, no point lies on the grid. -/
theorem value_eq_zero {scan : DiscreteScan2D}
    (hx : b.minX ≤ x ∧ x ≤ b.maxX) (hy : b.minY ≤ y ∧ y ≤ b.maxY)
    (hout : ¬(((SearchParameters.shrink g.numXCells g.numYCells scan b).minX ≤ x ∧
        x ≤ (SearchParameters.shrink g.numXCells g.numYCells scan b).maxX) ∧
      (SearchParameters.shrink g.numXCells g.numYCells scan b).minY ≤ y ∧
        y ≤ (SearchParameters.shrink g.numXCells g.numYCells scan b).maxY)) :
    ∀ p ∈ scan, g.value (p.1 + x) (p.2 + y) = 0 := by
  intro p hp
  rw [Grid2D.value, if_neg]
  rintro ⟨hx0, hx1, hy0, hy1⟩
  have hminX := (@foldl_min_le (fun p => -p.1) scan 0).2 p hp
  have hmaxX := (@le_foldl_max (fun p => g.numXCells - 1 - p.1) scan 0).2 p hp
  have hminY := (@foldl_min_le (fun p => -p.2) scan 0).2 p hp
  have hmaxY := (@le_foldl_max (fun p => g.numYCells - 1 - p.2) scan 0).2 p hp
  refine hout ⟨⟨max_le hx.1 ?_, le_min hx.2 ?_⟩, max_le hy.1 ?_, le_min hy.2 ?_⟩
  · exact hminX.trans (by omega)
  · exact le_trans (by omega) hmaxX
  · exact hminY.trans (by omega)
  · exact le_trans (by omega) hmaxY

/-- The shrunk bounds are not wider. -/
theorem Scanned.fit (hscans : Scanned scans s numLinear depth) (numX numY : ℕ) :
    Scanned scans (s.fit scans numX numY) numLinear depth where
  length := by
    rw [SearchParameters.fit, List.length_zipWith, hscans.length, Nat.min_self]
  points := hscans.points
  size := hscans.size
  cells := hscans.cells
  bounds b' hb' := by
    obtain ⟨i, hi⟩ := List.mem_iff_getElem?.1 hb'
    obtain ⟨scan, b, -, hb, rfl⟩ := List.getElem?_zipWith_eq_some.1 hi
    obtain ⟨hx, hy⟩ := hscans.bounds b (List.mem_of_getElem? hb)
    exact ⟨⟨hx.1.trans (le_max_left _ _), (min_le_left _ _).trans hx.2⟩,
      hy.1.trans (le_max_left _ _), (min_le_left _ _).trans hy.2⟩
  span := hscans.span

theorem centered_fit (hs : ∀ b ∈ s.linearBounds, Centered b) {numX numY : ℕ} :
    ∀ b ∈ (s.fit scans numX numY).linearBounds, Centered b := fun b' hb' => by
  obtain ⟨i, hi⟩ := List.mem_iff_getElem?.1 hb'
  obtain ⟨scan, b, -, hb, rfl⟩ := List.getElem?_zipWith_eq_some.1 hi
  exact centered_shrink scan (hs b (List.mem_of_getElem? hb))

theorem window_fit_subset {numX numY : ℕ} : window (s.fit scans numX numY) ⊆ window s := by
  rintro l ⟨b', hb', hx, hy⟩
  obtain ⟨scan, b, -, hb, rfl⟩ := List.getElem?_zipWith_eq_some.1 hb'
  exact ⟨b, hb, ⟨(le_max_left _ _).trans hx.1, hx.2.trans (min_le_left _ _)⟩,
    (le_max_left _ _).trans hy.1, hy.2.trans (min_le_left _ _)⟩

/-- What `ShrinkToFit` leaves out scores no more than what is left. -/
theorem mem_window_fit_or (hscans : Scanned scans s numLinear depth)
    (hs : ∀ b ∈ s.linearBounds, Centered b) (hl : l ∈ window s) :
    (⟨l.scanIndex, 0, 0⟩ : Place) ∈ window (s.fit scans g.numXCells g.numYCells) ∧
      (l ∈ window (s.fit scans g.numXCells g.numYCells) ∨
        plainScore g scans l ≤ plainScore g scans ⟨l.scanIndex, 0, 0⟩) := by
  obtain ⟨b, hb, hx, hy⟩ := hl
  have hlt : l.scanIndex < scans.length := by
    rw [hscans.length]
    exact (List.getElem?_eq_some_iff.1 hb).1
  have hb' : (s.fit scans g.numXCells g.numYCells).linearBounds[l.scanIndex]? =
      some (SearchParameters.shrink g.numXCells g.numYCells scans[l.scanIndex] b) :=
    List.getElem?_zipWith_eq_some.2
      ⟨scans[l.scanIndex], b, List.getElem?_eq_getElem hlt, hb, rfl⟩
  have hcentered := @centered_shrink b g.numXCells g.numYCells scans[l.scanIndex]
    (hs b (List.mem_of_getElem? hb))
  refine ⟨⟨_, hb', ⟨hcentered.1, hcentered.2⟩, hcentered.3, hcentered.4⟩, ?_⟩
  refine or_iff_not_imp_left.2 fun hout => scoreBy_le rfl fun p hp => ?_
  rw [List.getD_eq_getElem?_getD, List.getElem?_eq_getElem hlt, Option.getD_some] at hp
  rw [value_eq_zero hx hy (fun hin => hout ⟨_, hb', hin⟩) p hp]
  exact Nat.zero_le _

theorem wideFits_mono {width width' : ℕ} (h : WideFits g width') (hle : width ≤ width') :
    WideFits g width := by
  obtain ⟨hx, hy, hproduct⟩ := h
  refine ⟨by omega, by omega, le_trans (Nat.mul_le_mul ?_ ?_) hproduct⟩
  all_goals omega

/-- The constructor passes its checks. -/
theorem exists_new (order : CandidateSort) (reusable : ℕ → ℕ → ℚ) (hx : 1 ≤ g.numXCells)
    (hy : 1 ≤ g.numYCells) (hdepth : 1 ≤ depth) (hwide : WideFits g (2 ^ (depth - 1)))
    (hscaled : g.Scaled) :
    ∃ m, new g order depth reusable = some m ∧ m.grid = g ∧ Stacked m depth := by
  have hgrid : ∀ h, ∃ p, h < depth → PrecomputationGrid2D.new g (2 ^ h) (reusable h) = some p ∧
      Squares g h p := fun h => by
    by_cases hh : h < depth
    · obtain ⟨p, hp, hmin, hmax, hvalue⟩ := PrecomputationGrid2D.getValue_isGreatest
        (Nat.one_le_two_pow (n := h)) hx hy (wideFits_mono hwide (width_le hh)) hscaled (reusable h)
      refine ⟨p, fun _ => ⟨hp, hmin, hmax, fun x y hxint hyint => ?_⟩⟩
      obtain ⟨v, hv, hgreatest⟩ := hvalue x y hxint hyint
      rw [hv, squareValue_eq hgreatest]
    · exact ⟨⟨0, 0, 0, 0, 0, fun _ => 0⟩, fun hlt => absurd hlt hh⟩
  choose p hp using hgrid
  refine ⟨⟨g, (List.range depth).map p, order⟩, ?_, rfl, ?_, hscaled, fun h hh =>
    ⟨p h, ?_, (hp h hh).2⟩⟩
  · rw [new, precomputationGridStack, if_pos hdepth,
      mapM_eq_map fun h hh => (hp h (List.mem_range.1 hh)).1]
    rfl
  · rw [List.length_map, List.length_range]
  · rw [List.getElem?_map, List.getElem?_range hh]
    rfl

/-- A match for the window, the score it is said to have being the best at full resolution. -/
structure IsBest (g : Grid2D) (scans : List DiscreteScan2D) (s : SearchParameters)
    (minScore : ℚ) (c : Candidate2D) : Prop where
  mem : c.toPlace ∈ window s
  score : c.score = plainScore g scans c.toPlace
  beats : minScore < c.score
  best : ∀ l ∈ window s, plainScore g scans l ≤ c.score

/-- A match is found if any offset of the window beats the score, and it is a best one. -/
theorem matchWithSearchParameters_of (hm : Stacked m depth) (hdepth : 1 ≤ depth)
    (hscans : Scanned scans s numLinear depth) (hnum : s.linearBounds.length = s.numScans)
    (hfits : ∀ scan ∈ scans, ∀ p ∈ scan,
      SearchParameters.PointFits m.grid.numXCells m.grid.numYCells p)
    (hcount : (lowestPlaces (s.fit scans m.grid.numXCells m.grid.numYCells) (depth - 1)).length ≤
      intMax)
    (hs : ∀ b ∈ s.linearBounds, Centered b) (hwindow : ∃ l, l ∈ window s) (minScore : ℚ) :
    ∃ r, m.matchWithSearchParameters s scans minScore = some r ∧
      (∀ c ∈ r, IsBest m.grid scans s minScore c) ∧
      (r = none → ∀ l ∈ window s, plainScore m.grid scans l ≤ minScore) := by
  have hleft := fun {l : Place} (hl : l ∈ window s) =>
    mem_window_fit_or (g := m.grid) hscans hs hl
  have hfit : s.shrinkToFit scans m.grid.numXCells m.grid.numYCells =
      some (s.fit scans m.grid.numXCells m.grid.numYCells) :=
    if_pos ⟨hscans.length.trans hnum, hnum, hfits⟩
  have hscans' := hscans.fit m.grid.numXCells m.grid.numYCells
  have hsub := @window_fit_subset scans s m.grid.numXCells m.grid.numYCells
  have hcentered := @centered_fit scans s hs m.grid.numXCells m.grid.numYCells
  generalize s.fit scans m.grid.numXCells m.grid.numYCells = s' at *
  have hmaxDepth : m.maxDepth = depth - 1 := by rw [maxDepth, hm.length]
  have hmax : m.maxDepth < depth := by omega
  rw [← hmaxDepth] at hcount
  have hlowest := generateLowestResolutionCandidates_of hscans' hmax hcentered hcount
  obtain ⟨p, hstack, hp⟩ := hm.squares m.maxDepth hmax
  obtain ⟨scored, hscored, hranked, hplaces⟩ := scoreCandidates_of hm hscans' hmax hp
    fun c hc => exists_within_of_mem hc
  have hbelow : (tree m.grid scans s').below m.maxDepth (scored.map Candidate2D.toPlace) =
      window s' := below_lowest hplaces
  have hne : scored ≠ [] := by
    rintro rfl
    obtain ⟨l, hl⟩ := hwindow
    have hzero := (hleft hl).1
    rw [← hbelow] at hzero
    obtain ⟨c, hc, -⟩ := hzero
    cases hc
  have hanswer : ∃ best, m.branchAndBound scans s' m.maxDepth scored minScore = some best ∧ _ :=
    branchAndBound_answer hm hscans' hmax hranked hne
  obtain ⟨best, hbest, ha⟩ := hanswer
  rw [hbelow] at ha
  -- what beats the score in the whole window is beaten in what is left of it
  have hall : ∀ {sb : ℚ}, (∀ l ∈ window s', plainScore m.grid scans l ≤ sb) →
      ∀ l ∈ window s, plainScore m.grid scans l ≤ sb := fun hle l hl => by
    obtain ⟨hzero, hl | hl⟩ := hleft hl
    · exact hle l hl
    · exact hl.trans (hle _ hzero)
  refine ⟨if minScore < best.score then some best else none, ?_, fun c hc => ?_, fun hr => ?_⟩
  · rw [matchWithSearchParameters]
    simp only [hfit, hlowest, hstack, hscored, hbest, Option.bind_eq_bind, Option.bind_some]
    rfl
  · split_ifs at hc with hlt
    · obtain rfl := Option.some_inj.1 hc
      obtain ⟨hmem, hscore, hle⟩ := ha.of_lt hlt
      exact ⟨hsub hmem, hscore, hlt, hall hle⟩
    · cases hc
  · split_ifs at hr with hlt
    exact hall (ha.of_le (not_lt.1 hlt))

theorem centered_new {numLinear numAngular : ℕ} :
    ∀ b ∈ (SearchParameters.new numLinear numAngular).linearBounds, Centered b := by
  intro b hb
  obtain ⟨-, rfl⟩ := List.mem_replicate.1 hb
  constructor
  all_goals dsimp only; omega

/-- The numbers of a match fit into an `int` : the widest grid, the rotations, the window with a
step, the sum of a scan, the cells of its points wherever they are moved to, and the candidates of
the lowest resolution. -/
structure Fits (g : Grid2D) (scans : List DiscreteScan2D) (numLinear numAngular depth : ℕ) :
    Prop where
  wide : WideFits g (2 ^ (depth - 1))
  numScans : 2 * numAngular + 1 ≤ intMax
  span : 2 * numLinear + 2 ^ (depth - 1) ≤ intMax
  size : ∀ scan ∈ scans, 255 * scan.length ≤ intMax
  cells : ∀ scan ∈ scans, ∀ p ∈ scan,
    p.1.natAbs + g.numXCells + numLinear + 2 ^ (depth - 1) ≤ intMax ∧
      p.2.natAbs + g.numYCells + numLinear + 2 ^ (depth - 1) ≤ intMax
  candidates : (lowestPlaces ((SearchParameters.new numLinear numAngular).fit scans g.numXCells
    g.numYCells) (depth - 1)).length ≤ intMax

/-- For every grid, depth, window and score for which the numbers fit, the scans being one for each
rotation and having points, and whatever the buffers hold and the sort does with candidates of the
same score : no check fails, a match is found if an offset and a rotation of the window beat the
score, and it is one that scores best of all of them at full resolution. -/
theorem match_best (g : Grid2D) (order : CandidateSort) (reusable : ℕ → ℕ → ℚ)
    {numLinear numAngular depth : ℕ} (hx : 1 ≤ g.numXCells) (hy : 1 ≤ g.numYCells)
    (hscaled : g.Scaled) (hdepth : 1 ≤ depth) (hlength : scans.length = 2 * numAngular + 1)
    (hpoints : ∀ scan ∈ scans, scan ≠ []) (hfits : Fits g scans numLinear numAngular depth)
    (minScore : ℚ) :
    ∃ m r, new g order depth reusable = some m ∧
      m.matchWithSearchParameters (.new numLinear numAngular) scans minScore = some r ∧
      (∀ c ∈ r, IsBest g scans (.new numLinear numAngular) minScore c) ∧
      (r = none → ∀ l ∈ window (.new numLinear numAngular), plainScore g scans l ≤ minScore) := by
  obtain ⟨m, hnew, rfl, hm⟩ := exists_new order reusable hx hy hdepth hfits.wide hscaled
  have hnum : (SearchParameters.new numLinear numAngular).linearBounds.length =
      2 * numAngular + 1 := List.length_replicate
  have hfirst : (SearchParameters.new numLinear numAngular).linearBounds[0]? =
      some ⟨-numLinear, numLinear, -numLinear, numLinear⟩ := by
    rw [SearchParameters.new, List.getElem?_replicate, if_pos (Nat.succ_pos _)]
  have hzero := centered_new _ (List.mem_of_getElem? hfirst)
  have hscans : Scanned scans (.new numLinear numAngular) numLinear depth :=
    { length := hlength.trans hnum.symm
      points := hpoints
      size := hfits.size
      cells := fun scan hscan p hp => by
        have hcells := hfits.cells scan hscan p hp
        omega
      bounds := fun b hb => by
        obtain ⟨-, rfl⟩ := List.mem_replicate.1 hb
        exact ⟨⟨le_rfl, le_rfl⟩, le_rfl, le_rfl⟩
      span := hfits.span }
  have hpointFits : ∀ scan ∈ scans, ∀ p ∈ scan,
      SearchParameters.PointFits m.grid.numXCells m.grid.numYCells p := fun scan hscan p hp => by
    have hcells := hfits.cells scan hscan p hp
    have hpos := Nat.two_pow_pos (depth - 1)
    refine ⟨⟨?_, ?_⟩, ⟨?_, ?_⟩, ⟨?_, ?_⟩, ?_, ?_⟩
    all_goals omega
  obtain ⟨r, hmatch, hbest, hnone⟩ := matchWithSearchParameters_of hm hdepth hscans hnum hpointFits
    hfits.candidates centered_new ⟨⟨0, 0, 0⟩, _, hfirst, ⟨hzero.1, hzero.2⟩, hzero.3, hzero.4⟩
    minScore
  exact ⟨m, r, hnew, hmatch, hbest, hnone⟩

instance : Std.Total fun c c' : Candidate2D => c'.score ≤ c.score :=
  ⟨fun c c' => le_total c'.score c.score⟩

instance : IsTrans Candidate2D fun c c' => c'.score ≤ c.score :=
  ⟨fun _ _ _ h h' => h'.trans h⟩

/-- A sort by insertion. -/
def insertionSort : CandidateSort where
  sort cs := cs.insertionSort fun c c' => c'.score ≤ c.score
  perm cs := List.perm_insertionSort _ cs
  sorted cs := List.pairwise_insertionSort _ cs

/-- Three rotations of a scan of two points. -/
def twoPoints : List DiscreteScan2D :=
  [[(1, 0), (3, 1)], [(2, 0), (2, 1)], [(3, 1), (1, 0)]]

/-- The first of them is moved onto the most probable cells. -/
theorem match_best_twoPoints :
    (∃ m r, new sixCells insertionSort 2 (fun _ _ => 0) = some m ∧
      m.matchWithSearchParameters (.new 2 1) twoPoints (1 / 2) = some r ∧
      (∀ c ∈ r, IsBest sixCells twoPoints (.new 2 1) (1 / 2) c) ∧
      (r = none → ∀ l ∈ window (.new 2 1), plainScore sixCells twoPoints l ≤ 1 / 2)) ∧
    ((new sixCells insertionSort 2 fun _ _ => 0).bind fun m =>
      (m.matchWithSearchParameters (.new 2 1) twoPoints (1 / 2)).map
        (Option.map Candidate2D.toPlace)) = some (some ⟨0, -1, 0⟩) :=
  ⟨match_best sixCells insertionSort (fun _ _ => 0) (by decide) (by decide)
    (scaled_probabilityGrid _ _ _) (Nat.le_succ 1) rfl (by decide)
    ⟨by decide, by decide, by decide, by decide, by decide, by decide +kernel⟩ _,
    by decide +kernel⟩

end FastCorrelativeScanMatcher2D

end Mastiff.Cartographer

import Mathlib.Logic.Function.Basic
import Mathlib.Data.Int.Order.Basic
import Mastiff.Grid2D
import Mastiff.Lib.Memory
import Mastiff.Lib.SlidingMax

/-!
# Precomputed grids of a scan matcher

`PrecomputationGrid2D` (`cartographer/mapping/internal/2d/scan_matching/
fast_correlative_scan_matcher_2d.cc`) holds, for a width, the greatest value in the square of
that width from each cell on. It is computed by a `SlidingWindowMaximum` that moves along every
row and then along every column of what comes out.

An `int` that overflows ends a function as a failed check does.

`PrecomputationGrid2D.getValue_isGreatest` : as long as the wide grid fits into an `int`, every
check of the constructor passes, and every `GetValue` is the greatest value of the cells in the
square, 0 outside of the grid.
-/

set_option linter.unusedSectionVars false

namespace Mastiff.Cartographer

open SlidingMax Memory

variable {P : Type} [LinearOrder P]

/-! ## The sliding window -/

/-- `SlidingWindowMaximum`, its `non_ascending_maxima_`. -/
abbrev SlidingWindowMaximum (P : Type) :=
  List P

namespace SlidingWindowMaximum

/-- `AddValue(value)`. -/
def addValue (w : SlidingWindowMaximum P) (value : P) : SlidingWindowMaximum P :=
  w.rdropWhile (· < value) ++ [value]

/-- `RemoveValue(value)`, `none` where a `DCHECK` fails. -/
def removeValue (w : SlidingWindowMaximum P) (value : P) : Option (SlidingWindowMaximum P) :=
  match w with
  | [] => none
  | m :: rest =>
    if value ≤ m then some (if value = m then rest else m :: rest)
    else none

/-- `GetMaximum()`, `none` where its `DCHECK` fails. -/
def getMaximum (w : SlidingWindowMaximum P) : Option P :=
  w.head?

/-- A turn of a loop : the maximum is written to place `i`, a value is removed and one added. -/
def turn {A : Type} (write : ℕ → P → A → Option A) (i : ℕ) (leave enter : Option P)
    (s : SlidingWindowMaximum P × A) : Option (SlidingWindowMaximum P × A) := do
  let m ← getMaximum s.1
  let a ← write i m s.2
  let w ← leave.elim (some s.1) (removeValue s.1)
  return (enter.elim w (addValue w), a)

/-- The three loops along a row or a column of `num` values, `write` what is done with the maximum
for a place. -/
def slide {A : Type} (width num : ℕ) (value : ℕ → P) (write : ℕ → P → A → Option A) (a : A) :
    Option A := do
  let s ← (List.range (width - 1)).foldlM
    (fun s i => turn write i none (if i + 1 < num then some (value (i + 1)) else none) s)
    (addValue [] (value 0), a)
  let s ← (List.range (num - width)).foldlM
    (fun s x => turn write (x + width - 1) (some (value x)) (some (value (x + width))) s) s
  let s ← (List.range (num - (num - width))).foldlM
    (fun s i => turn write (num - width + i + width - 1) (some (value (num - width + i))) none s) s
  if s.1 = [] then some s.2 else none

end SlidingWindowMaximum

/-! ## Grids -/

/-- The range of an `int`. -/
def IsInt (v : ℤ) : Prop :=
  -(intMax : ℤ) - 1 ≤ v ∧ v ≤ intMax

instance : DecidablePred IsInt := fun v =>
  inferInstanceAs (Decidable (-(intMax : ℤ) - 1 ≤ v ∧ v ≤ intMax))

/-- The value of an expression, `none` where an `int` overflows. -/
def int (v : ℤ) : Option ℤ :=
  if IsInt v then some v else none

theorem int_of {v : ℤ} (h : IsInt v) : int v = some v :=
  if_pos h

/-- The sizes of the wide grid fit into an `int`. -/
def WideFits (g : Grid2D) (width : ℕ) : Prop :=
  g.numXCells + width ≤ intMax ∧ g.numYCells + width ≤ intMax ∧
    (g.numXCells + width - 1) * (g.numYCells + width - 1) ≤ intMax

instance (g : Grid2D) (width : ℕ) : Decidable (WideFits g width) :=
  inferInstanceAs (Decidable (_ ∧ _ ∧ _))

/-- `PrecomputationGrid2D`, with `offset` both coordinates of its `offset_`. -/
structure PrecomputationGrid2D where
  offset : ℤ
  wideX : ℕ
  wideY : ℕ
  minScore : ℚ
  maxScore : ℚ
  cells : ℕ → ℕ

namespace PrecomputationGrid2D

/-- The constructor, `none` where a check fails or an `int` overflows. `reusable` is what is found
in `reusable_intermediate_grid`. -/
def new (g : Grid2D) (width : ℕ) (reusable : ℕ → ℚ) : Option PrecomputationGrid2D :=
  if 1 ≤ width ∧ 1 ≤ g.numXCells ∧ 1 ≤ g.numYCells ∧ WideFits g width then do
    let stride := g.numXCells + width - 1
    let intermediate ← (List.range g.numYCells).foldlM
      (fun cells y => SlidingWindowMaximum.slide width g.numXCells (fun x => g.probability x y)
        (fun i m cells => some (Function.update cells (i + y * stride) m)) cells) reusable
    let cells ← (List.range stride).foldlM
      (fun cells x => SlidingWindowMaximum.slide width g.numYCells
        (fun y => intermediate (x + y * stride))
        (fun i m cells =>
          (g.computeCellValue m).map fun v => Function.update cells (x + i * stride) v) cells)
      fun _ => 0
    return ⟨1 - width, stride, g.numYCells + width - 1, g.minScore, g.maxScore, cells⟩
  else none

/-- `GetValue(xy_index)`, `none` where an `int` overflows. -/
def getValue (p : PrecomputationGrid2D) (x y : ℤ) : Option ℕ := do
  let localX ← int (x - p.offset)
  let localY ← int (y - p.offset)
  return if 0 ≤ localX ∧ localX < p.wideX ∧ 0 ≤ localY ∧ localY < p.wideY then
    p.cells (localX.toNat + localY.toNat * p.wideX)
  else 0

end PrecomputationGrid2D

/-! ## One row or column -/

namespace SlidingWindowMaximum

theorem addValue_maxima (vs : List P) (v : P) : addValue (maxima vs) v = maxima (vs ++ [v]) :=
  (maxima_concat vs v).symm

/-- The first element of the window can be removed, and leaves what the rest has. -/
theorem removeValue_maxima (v : P) (vs : List P) :
    removeValue (maxima (v :: vs)) v = some (maxima vs) := by
  obtain ⟨m, hm⟩ := exists_head?_maxima (List.cons_ne_nil v vs)
  have hle : v ≤ m := (head?_maxima_iff.1 hm).2 List.mem_cons_self
  obtain ⟨rest, hrest⟩ := List.head?_eq_some_iff.1 hm
  rw [hrest, removeValue, if_pos hle]
  split_ifs with hvm
  · subst hvm
    rw [maxima_cons_of_head?_eq hm] at hrest
    rw [List.tail_eq_of_cons_eq hrest]
  · have hne : (maxima (v :: vs)).head? ≠ some v := fun h =>
      hvm (Option.some_inj.1 (h.symm.trans hm))
    rw [← hrest, maxima_cons_of_head?_ne hne]

variable {A : Type} {width num k n : ℕ} {value : ℕ → P} {write : ℕ → P → A → Option A}

/-- The values of the row or column that the window holds at place `k`. -/
def held (width num : ℕ) (value : ℕ → P) (k : ℕ) : List P :=
  window width ((List.range num).map value) k

/-- The maximum for place `k`. -/
def windowMax (width num : ℕ) (value : ℕ → P) (k : ℕ) : P :=
  (maxima (held width num value k)).head?.getD (value 0)

theorem getElem?_values (k : ℕ) :
    ((List.range num).map value)[k]? = if k < num then some (value k) else none := by
  rw [List.getElem?_map]
  split_ifs with hk
  · rw [List.getElem?_range hk]
    rfl
  · rw [List.getElem?_eq_none (by rw [List.length_range]; omega)]
    rfl

theorem mem_held_iff {v : P} :
    v ∈ held width num value k ↔ ∃ i < num, i ≤ k ∧ k < i + width ∧ value i = v := by
  rw [held, mem_window_iff]
  constructor
  · rintro ⟨i, hik, hlt, hv⟩
    rw [getElem?_values] at hv
    split_ifs at hv with hi
    exact ⟨i, hi, hik, hlt, Option.some_inj.1 hv⟩
  · rintro ⟨i, hi, hik, hlt, rfl⟩
    exact ⟨i, hik, hlt, by rw [getElem?_values, if_pos hi]⟩

/-- At every place that is written the window has a maximum. -/
theorem getMaximum_held (hwidth : 0 < width) (hnum : 0 < num) (hk : k + 1 < num + width) :
    getMaximum (maxima (held width num value k)) = some (windowMax width num value k) := by
  have hne : held width num value k ≠ [] := by
    refine List.ne_nil_of_mem (mem_held_iff.2 ⟨min k (num - 1), ?_, ?_, ?_, rfl⟩)
    all_goals omega
  obtain ⟨m, hm⟩ := exists_head?_maxima hne
  rw [windowMax, getMaximum, hm]
  rfl

theorem windowMax_isGreatest (hwidth : 0 < width) (hnum : 0 < num) (hk : k + 1 < num + width) :
    IsGreatest {v | ∃ i < num, i ≤ k ∧ k < i + width ∧ value i = v}
      (windowMax width num value k) := by
  have hm : IsGreatest {v | v ∈ held width num value k} (windowMax width num value k) :=
    head?_maxima_iff.1 (getMaximum_held hwidth hnum hk)
  simpa only [mem_held_iff] using hm

theorem turn_eq {w w' : SlidingWindowMaximum P} {leave enter : Option P} {m : P}
    (hm : getMaximum w = some m) (hleave : leave.elim (some w) (removeValue w) = some w') (a : A) :
    turn write k leave enter (w, a) =
      (write k m a).map fun a => (enter.elim w' (addValue w'), a) := by
  simp only [turn, hm, hleave, Option.bind_eq_bind, Option.bind_some]
  cases write k m a with
  | none => rfl
  | some a => rfl

theorem enter_maxima (vs : List P) (enter : Option P) :
    enter.elim (maxima vs) (addValue (maxima vs)) = maxima (vs ++ enter.toList) := by
  cases enter with
  | none => rw [Option.toList_none, List.append_nil]; rfl
  | some v => exact addValue_maxima vs v

/-- A turn before the window is full. -/
theorem turn_grow (hnum : 0 < num) (hk : k + 1 < width) (a : A) :
    turn write k none (if k + 1 < num then some (value (k + 1)) else none)
        (maxima (held width num value k), a) =
      (write k (windowMax width num value k) a).map
        fun a => (maxima (held width num value (k + 1)), a) := by
  have henter : held width num value (k + 1) = held width num value k ++
      (if k + 1 < num then some (value (k + 1)) else none).toList := by
    rw [held, held, window_succ_of_lt hk, getElem?_values]
  rw [turn_eq (getMaximum_held (by omega) hnum (by omega)) rfl, enter_maxima, henter]

/-- A turn of a full window. -/
theorem turn_move (hwidth : 0 < width) (hk : width ≤ k + 1) (hlt : k + 1 < num + width) (a : A) :
    turn write k (some (value (k + 1 - width)))
        (if k + 1 < num then some (value (k + 1)) else none)
        (maxima (held width num value k), a) =
      (write k (windowMax width num value k) a).map
        fun a => (maxima (held width num value (k + 1)), a) := by
  have hleave : ((List.range num).map value)[k + 1 - width]? =
      some (value (k + 1 - width)) := by
    rw [getElem?_values, if_pos (by omega)]
  have hheld : held width num value k = value (k + 1 - width) ::
      (((List.range num).map value).take (k + 1)).drop (k + 2 - width) :=
    window_eq_cons hk hleave hwidth
  have henter : held width num value (k + 1) =
      (((List.range num).map value).take (k + 1)).drop (k + 2 - width) ++
      (if k + 1 < num then some (value (k + 1)) else none).toList := by
    rw [held, window_succ hwidth, getElem?_values]
  have hremove : (some (value (k + 1 - width))).elim (some (maxima (held width num value k)))
        (removeValue (maxima (held width num value k))) =
      some (maxima ((((List.range num).map value).take (k + 1)).drop (k + 2 - width))) := by
    rw [Option.elim_some, hheld, removeValue_maxima]
  rw [turn_eq (getMaximum_held hwidth (by omega) hlt) hremove, enter_maxima, henter]

/-- The maxima are written for some places, in turn. -/
def writeMaxima (width num : ℕ) (value : ℕ → P) (write : ℕ → P → A → Option A) (places : List ℕ)
    (a : A) : Option A :=
  places.foldlM (fun a k => write k (windowMax width num value k) a) a

theorem writeMaxima_append (ks ks' : List ℕ) (a : A) :
    writeMaxima width num value write (ks ++ ks') a =
      (writeMaxima width num value write ks a).bind (writeMaxima width num value write ks') :=
  List.foldlM_append

/-- Turns in a row, the first of them for place `k`. -/
theorem foldlM_turns {f : SlidingWindowMaximum P × A → ℕ → Option (SlidingWindowMaximum P × A)}
    (a : A) : ∀ {n : ℕ}, (∀ i < n, ∀ a, f (maxima (held width num value (k + i)), a) i =
        (write (k + i) (windowMax width num value (k + i)) a).map
          fun a => (maxima (held width num value (k + i + 1)), a)) →
      (List.range n).foldlM f (maxima (held width num value k), a) =
        (writeMaxima width num value write (List.range' k n) a).map
          fun a => (maxima (held width num value (k + n)), a)
  | 0, _ => rfl
  | n + 1, hf => by
    rw [List.range_succ, List.foldlM_append, foldlM_turns a fun i hi => hf i (by omega),
      List.range'_concat, writeMaxima_append, Nat.one_mul]
    cases writeMaxima width num value write (List.range' k n) a with
    | none => rfl
    | some a =>
      have hturn := hf n (Nat.lt_succ_self n) a
      simp only [Option.map_some, Option.bind_eq_bind, Option.bind_some, List.foldlM_cons,
        List.foldlM_nil, hturn, writeMaxima]
      cases write (k + n) (windowMax width num value (k + n)) a with
      | none => rfl
      | some a => rfl

/-- The first loop, in which the window fills. -/
theorem foldlM_grow (hnum : 0 < num) (a : A) :
    (List.range (width - 1)).foldlM (fun s i => turn write i none
        (if i + 1 < num then some (value (i + 1)) else none) s)
        (maxima (held width num value 0), a) =
      (writeMaxima width num value write (List.range' 0 (width - 1)) a).map
        fun a => (maxima (held width num value (width - 1)), a) := by
  rw [foldlM_turns a fun i hi a => ?_, Nat.zero_add]
  rw [Nat.zero_add]
  exact turn_grow hnum (by omega) a

/-- The second loop, in which a full window moves. -/
theorem foldlM_move (hwidth : 0 < width) (a : A) :
    (List.range (num - width)).foldlM (fun s x => turn write (x + width - 1)
        (some (value x)) (some (value (x + width))) s)
        (maxima (held width num value (width - 1)), a) =
      (writeMaxima width num value write (List.range' (width - 1) (num - width)) a).map
        fun a => (maxima (held width num value (width - 1 + (num - width))), a) := by
  refine foldlM_turns a fun x hx a => ?_
  have hturn := @turn_move P _ A width num (width - 1 + x) value write hwidth (by omega)
    (by omega) a
  have hleave : width - 1 + x + 1 - width = x := by omega
  have henter : width - 1 + x + 1 = x + width := by omega
  have hplace : x + width - 1 = width - 1 + x := by omega
  rw [hleave, henter, if_pos (by omega)] at hturn
  rw [hplace, hturn, henter]

/-- The third loop, in which the window runs empty. -/
theorem foldlM_shrink (hwidth : 0 < width) (hnum : 0 < num) (a : A) :
    (List.range (num - (num - width))).foldlM (fun s i => turn write
        (num - width + i + width - 1) (some (value (num - width + i))) none s)
        (maxima (held width num value (width - 1 + (num - width))), a) =
      (writeMaxima width num value write
        (List.range' (width - 1 + (num - width)) (num - (num - width))) a).map
        fun a => (maxima (held width num value (num + width - 1)), a) := by
  have hend : width - 1 + (num - width) + (num - (num - width)) = num + width - 1 := by omega
  rw [← hend]
  refine foldlM_turns a fun i hi a => ?_
  have hturn := @turn_move P _ A width num (width - 1 + (num - width) + i) value write hwidth
    (by omega) (by omega) a
  have hleave : width - 1 + (num - width) + i + 1 - width = num - width + i := by omega
  have hplace : num - width + i + width - 1 = width - 1 + (num - width) + i := by omega
  rw [hleave, if_neg (by omega)] at hturn
  rw [hplace, hturn]

/-- The maxima are written for all places in turn, and the window is empty in the end. -/
theorem slide_eq (hwidth : 0 < width) (hnum : 0 < num) (a : A) :
    slide width num value write a =
      writeMaxima width num value write (List.range (num + width - 1)) a := by
  have hzero : addValue [] (value 0) = maxima (held width num value 0) := by
    obtain ⟨n, rfl⟩ := Nat.exists_eq_add_one.2 hnum
    rw [held, window_zero hwidth, List.range_succ_eq_map]
    rfl
  have hend : maxima (held width num value (num + width - 1)) = [] := by
    rw [held, window_end (by rw [List.length_map, List.length_range]; omega)]
    rfl
  have hplaces : List.range (num + width - 1) =
      List.range' 0 (width - 1) ++ (List.range' (width - 1) (num - width) ++
        List.range' (width - 1 + (num - width)) (num - (num - width))) := by
    have happend := @List.range'_append_1 0 (width - 1) (num - width + (num - (num - width)))
    rw [Nat.zero_add] at happend
    rw [List.range'_append_1, happend, List.range_eq_range']
    congr 1
    omega
  rw [slide, hzero, foldlM_grow hnum, hplaces, writeMaxima_append]
  cases writeMaxima width num value write (List.range' 0 (width - 1)) a with
  | none => rfl
  | some a =>
    simp only [Option.map_some, Option.bind_eq_bind, Option.bind_some, foldlM_move hwidth,
      writeMaxima_append]
    cases writeMaxima width num value write (List.range' (width - 1) (num - width)) a with
    | none => rfl
    | some a =>
      simp only [Option.map_some, Option.bind_some, foldlM_shrink hwidth hnum, hend]
      cases writeMaxima width num value write
        (List.range' (width - 1 + (num - width)) (num - (num - width))) a with
      | none => rfl
      | some a => rfl

/-- Each place is written once, with what `f` makes of its maximum. -/
theorem writeMaxima_update {β : Type} {f : P → Option β} {out : ℕ → β} {e : ℕ → ℕ}
    (cells : ℕ → β) : ∀ {n : ℕ}, (∀ k < n, f (windowMax width num value k) = some (out k)) →
      (∀ j < n, ∀ k < n, e j = e k → j = k) →
      ∃ cells', writeMaxima width num value
          (fun i m cells => (f m).map fun v => Function.update cells (e i) v) (List.range n) cells =
            some cells' ∧ (∀ k < n, cells' (e k) = out k) ∧
          ∀ j, (∀ k < n, e k ≠ j) → cells' j = cells j
  | 0, _, _ => ⟨cells, rfl, fun k hk => absurd hk (Nat.not_lt_zero k), fun _ _ => rfl⟩
  | n + 1, hf, he => by
    obtain ⟨cells', hcells, hout, hrest⟩ := writeMaxima_update cells
      (fun k hk => hf k (hk.trans (Nat.lt_succ_self n)))
      fun j hj k hk => he j (hj.trans (Nat.lt_succ_self n)) k (hk.trans (Nat.lt_succ_self n))
    refine ⟨Function.update cells' (e n) (out n), ?_, fun k hk => ?_, fun j hj => ?_⟩
    · rw [List.range_succ, writeMaxima_append, hcells]
      simp only [Option.bind_some, writeMaxima, List.foldlM_cons, List.foldlM_nil,
        hf n (Nat.lt_succ_self n)]
      rfl
    · rcases Nat.lt_succ_iff_lt_or_eq.1 hk with hk | rfl
      · rw [Function.update_of_ne, hout k hk]
        exact fun h => hk.ne (he k (hk.trans (Nat.lt_succ_self n)) n (Nat.lt_succ_self n) h)
      · rw [Function.update_self]
    · rw [Function.update_of_ne (hj n (Nat.lt_succ_self n)).symm,
        hrest j fun k hk => hj k (hk.trans (Nat.lt_succ_self n))]

/-- All rows, or all columns : no two write the same place. -/
theorem foldlM_slide {β : Type} (f : P → Option β) (values : ℕ → ℕ → P) (e : ℕ → ℕ → ℕ)
    {out : ℕ → ℕ → β} {lines : ℕ} (hwidth : 0 < width) (hnum : 0 < num)
    (hf : ∀ l < lines, ∀ k < num + width - 1,
      f (windowMax width num (values l) k) = some (out l k))
    (he : ∀ l < lines, ∀ l' < lines, ∀ k < num + width - 1, ∀ k' < num + width - 1,
      e l k = e l' k' → l = l' ∧ k = k') (cells : ℕ → β) : ∀ n ≤ lines,
      ∃ cells', (List.range n).foldlM (fun cells l => slide width num (values l)
          (fun i m cells => (f m).map fun v => Function.update cells (e l i) v) cells) cells =
            some cells' ∧ ∀ l < n, ∀ k < num + width - 1, cells' (e l k) = out l k
  | 0, _ => ⟨cells, rfl, fun l hl => absurd hl (Nat.not_lt_zero l)⟩
  | n + 1, hn => by
    obtain ⟨cells', hcells, hout⟩ :=
      foldlM_slide f values e hwidth hnum hf he cells n (n.le_succ.trans hn)
    obtain ⟨cells'', hline, hown, hothers⟩ := writeMaxima_update cells' (hf n hn)
      fun j hj k hk h => (he n hn n hn j hj k hk h).2
    refine ⟨cells'', ?_, fun l hl k hk => ?_⟩
    · rw [List.range_succ, List.foldlM_append, hcells]
      simp only [Option.bind_eq_bind, Option.bind_some, List.foldlM_cons, List.foldlM_nil,
        slide_eq hwidth hnum, hline]
      rfl
    · rcases Nat.lt_succ_iff_lt_or_eq.1 hl with hl | rfl
      · rw [hothers, hout l hl k hk]
        exact fun k' hk' h => hl.ne (he n hn l (hl.trans hn) k' hk' k hk h).1.symm
      · exact hown k hk

end SlidingWindowMaximum

/-! ## The whole grid -/

namespace PrecomputationGrid2D

variable {g : Grid2D} {width : ℕ}

/-- The places of a grid with rows of `stride` cells. -/
theorem place_injective {stride x x' y y' : ℕ} (hx : x < stride) (hx' : x' < stride)
    (h : x + y * stride = x' + y' * stride) : x = x' ∧ y = y' := by
  have hmod := congrArg (· % stride) h
  have hdiv := congrArg (· / stride) h
  simp only [Nat.add_mul_mod_self_right, Nat.mod_eq_of_lt hx, Nat.mod_eq_of_lt hx'] at hmod
  simp only [Nat.add_mul_div_right _ _ (Nat.zero_lt_of_lt hx), Nat.div_eq_of_lt hx,
    Nat.div_eq_of_lt hx', Nat.zero_add] at hdiv
  exact ⟨hmod, hdiv⟩

/-- The probabilities of the cells whose squares have the place. -/
def Square (g : Grid2D) (width x y : ℕ) : Set ℚ :=
  {v | ∃ i < g.numXCells, ∃ j < g.numYCells,
    (i ≤ x ∧ x < i + width) ∧ (j ≤ y ∧ y < j + width) ∧ g.probability i j = v}

/-- The maximum along a column of maxima along the rows is that of the square. -/
theorem isGreatest_square {x y : ℕ} {rows : ℕ → ℚ} {m : ℚ}
    (hrows : ∀ j < g.numYCells, IsGreatest
      {v | ∃ i < g.numXCells, i ≤ x ∧ x < i + width ∧ g.probability i j = v} (rows j))
    (hm : IsGreatest {v | ∃ j < g.numYCells, j ≤ y ∧ y < j + width ∧ rows j = v} m) :
    IsGreatest (Square g width x y) m := by
  obtain ⟨⟨j, hj, hjy, hyj, rfl⟩, hupper⟩ := hm
  obtain ⟨⟨i, hi, hix, hxi, hv⟩, -⟩ := hrows j hj
  refine ⟨⟨i, hi, j, hj, ⟨hix, hxi⟩, ⟨hjy, hyj⟩, hv⟩, ?_⟩
  rintro v ⟨i, hi, j, hj, ⟨hix, hxi⟩, ⟨hjy, hyj⟩, rfl⟩
  exact ((hrows j hj).2 ⟨i, hi, hix, hxi, rfl⟩).trans (hupper ⟨j, hj, hjy, hyj, rfl⟩)

theorem computeCellValue_of_mem {x y : ℕ} {m : ℚ} (hscaled : g.Scaled)
    (hm : m ∈ Square g width x y) : g.computeCellValue m = some (g.cellValue m).toNat := by
  obtain ⟨i, -, j, -, -, -, rfl⟩ := hm
  rw [Grid2D.computeCellValue, if_pos (hscaled.cellValue_mem i j)]

/-- The constructor passes its checks, and every cell has the value of the greatest probability
of its square. -/
theorem exists_new (hwidth : 1 ≤ width) (hx : 1 ≤ g.numXCells) (hy : 1 ≤ g.numYCells)
    (hfits : WideFits g width) (hscaled : g.Scaled) (reusable : ℕ → ℚ) :
    ∃ cells, new g width reusable = some ⟨1 - width, g.numXCells + width - 1,
        g.numYCells + width - 1, g.minScore, g.maxScore, cells⟩ ∧
      ∀ x < g.numXCells + width - 1, ∀ y < g.numYCells + width - 1,
        ∃ m, IsGreatest (Square g width x y) m ∧
          cells (x + y * (g.numXCells + width - 1)) = (g.cellValue m).toNat := by
  generalize hstride : g.numXCells + width - 1 = stride
  obtain ⟨intermediate, hrows, hrow⟩ := SlidingWindowMaximum.foldlM_slide some
    (fun y x => g.probability x y) (fun y i => i + y * stride) hwidth hx (fun _ _ _ _ => rfl)
    (fun y _ y' _ i hi i' hi' h =>
      (place_injective (hstride ▸ hi) (hstride ▸ hi') h).symm) reusable g.numYCells le_rfl
  have hgreatest : ∀ x < stride, ∀ y < g.numYCells + width - 1, IsGreatest (Square g width x y)
      (SlidingWindowMaximum.windowMax width g.numYCells
        (fun y => intermediate (x + y * stride)) y) := fun x hxs y hys => by
    refine isGreatest_square (fun j hj => ?_)
      (SlidingWindowMaximum.windowMax_isGreatest hwidth hy (by omega))
    rw [hrow j hj x (hstride ▸ hxs)]
    exact SlidingWindowMaximum.windowMax_isGreatest hwidth hx (by omega)
  obtain ⟨cells, hcolumns, hcell⟩ := SlidingWindowMaximum.foldlM_slide g.computeCellValue
    (fun x y => intermediate (x + y * stride)) (fun x i => x + i * stride) hwidth hy
    (fun x hxs y hys => computeCellValue_of_mem hscaled (hgreatest x hxs y hys).1)
    (fun x hxs x' hxs' i _ i' _ h => place_injective hxs hxs' h) (fun _ => 0) stride le_rfl
  refine ⟨cells, ?_, fun x hxs y hys => ⟨_, hgreatest x hxs y hys, hcell x hxs y hys⟩⟩
  rw [new, if_pos ⟨hwidth, hx, hy, hfits⟩]
  simp only [hstride]
  have hsome : (fun (cells : ℕ → ℚ) y => SlidingWindowMaximum.slide width g.numXCells
      (fun x => g.probability x y)
      (fun i m cells => some (Function.update cells (i + y * stride) m)) cells) =
    fun cells y => SlidingWindowMaximum.slide width g.numXCells (fun x => g.probability x y)
      (fun i m cells => (some m).map fun v => Function.update cells (i + y * stride) v) cells := rfl
  rw [hsome, hrows, Option.bind_eq_bind, Option.bind_some, hcolumns]
  rfl

/-- A cell in the square of a place has at most the value of the greatest probability. -/
theorem value_le_of_isGreatest {x y : ℤ} {m : ℚ} {i j : ℕ} (hi : i < width) (hj : j < width)
    (hm : IsGreatest (Square g width (x - (1 - width)).toNat (y - (1 - width)).toNat) m) :
    g.value (x + i) (y + j) ≤ (g.cellValue m).toNat := by
  rw [Grid2D.value]
  split_ifs with hin
  · obtain ⟨hx, hx', hy, hy'⟩ := hin
    refine Int.toNat_le_toNat (g.cellValue_mono (hm.2 ⟨(x + i).toNat, by omega, (y + j).toNat,
      by omega, ⟨by omega, by omega⟩, ⟨by omega, by omega⟩, rfl⟩))
  · exact Nat.zero_le _

/-- For every grid and every width that fit into an `int`, and whatever the buffer holds, the checks
of the constructor pass, and each value, for any index, is the greatest value of the cells in the
square of that width from there on. -/
theorem getValue_isGreatest (hwidth : 1 ≤ width) (hx : 1 ≤ g.numXCells) (hy : 1 ≤ g.numYCells)
    (hfits : WideFits g width) (hscaled : g.Scaled) (reusable : ℕ → ℚ) :
    ∃ p, new g width reusable = some p ∧ p.minScore = g.minScore ∧ p.maxScore = g.maxScore ∧
      ∀ x y : ℤ, IsInt (x + width - 1) → IsInt (y + width - 1) →
        ∃ v, p.getValue x y = some v ∧
          IsGreatest {v | ∃ i < width, ∃ j < width, g.value (x + (i : ℕ)) (y + (j : ℕ)) = v} v := by
  obtain ⟨cells, hnew, hcells⟩ := exists_new hwidth hx hy hfits hscaled reusable
  refine ⟨_, hnew, rfl, rfl, fun x y hxint hyint => ?_⟩
  have hlocal : ∀ {v : ℤ}, IsInt (v + width - 1) → int (v - (1 - width)) =
      some (v - (1 - width)) := fun {v} hv => by
    have hoffset : v - (1 - width) = v + width - 1 := by omega
    rw [hoffset, int_of hv]
  refine ⟨_, by rw [getValue, hlocal hxint, hlocal hyint]; rfl, ?_⟩
  dsimp only
  split_ifs with hin
  · obtain ⟨hlx, hlx', hly, hly'⟩ := hin
    obtain ⟨m, hm, hcell⟩ := hcells (x - (1 - width)).toNat (by omega)
      (y - (1 - width)).toNat (by omega)
    rw [hcell]
    constructor
    · obtain ⟨i, hi, j, hj, hix, hjy, rfl⟩ := hm.1
      refine ⟨(i - x).toNat, by omega, (j - y).toNat, by omega, ?_⟩
      have hi' : x + ((i - x).toNat : ℕ) = i := by omega
      have hj' : y + ((j - y).toNat : ℕ) = j := by omega
      rw [hi', hj', Grid2D.value, if_pos (by omega), Int.toNat_natCast, Int.toNat_natCast]
    · rintro v ⟨i, hi, j, hj, rfl⟩
      exact value_le_of_isGreatest hi hj hm
  · -- no cell of the square is in the grid
    have hout : ∀ i < width, ∀ j < width, g.value (x + (i : ℕ)) (y + (j : ℕ)) = 0 :=
      fun i hi j hj => by rw [Grid2D.value, if_neg (by omega)]
    constructor
    · exact ⟨0, hwidth, 0, hwidth, hout 0 hwidth 0 hwidth⟩
    · rintro v ⟨i, hi, j, hj, rfl⟩
      exact (hout i hi j hj).le

end PrecomputationGrid2D

/-- A probability grid of two rows of three cells, one of them not known. -/
def sixCells : Grid2D :=
  probabilityGrid 3 2 fun i => [1, 20000, 0, 32767, 16384, 40000].getD i 0

/-- Squares of two by two cells there, the value of one of them being that of its last cell. -/
theorem PrecomputationGrid2D.getValue_isGreatest_sixCells :
    (∃ p, new sixCells 2 (fun _ => 0) = some p ∧ p.minScore = sixCells.minScore ∧
      p.maxScore = sixCells.maxScore ∧ ∀ x y : ℤ, IsInt (x + (2 : ℕ) - 1) →
        IsInt (y + (2 : ℕ) - 1) → ∃ v, p.getValue x y = some v ∧
          IsGreatest {v | ∃ i < 2, ∃ j < 2, sixCells.value (x + (i : ℕ)) (y + (j : ℕ)) = v} v) ∧
      (new sixCells 2 fun _ => 0).bind (fun p => p.getValue 1 0) = some (sixCells.value 2 1) :=
  ⟨getValue_isGreatest (Nat.le_succ 1) (by decide) (by decide) (by decide)
    (scaled_probabilityGrid _ _ _) fun _ => 0, by decide +kernel⟩

end Mastiff.Cartographer

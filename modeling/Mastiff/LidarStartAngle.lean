import Mastiff.LidarScan

/-!
# The start angle

`autoGetFirstAngle` collects fans while each starts where the last one ends, passes over
the others, and decides when a fan starts where the first one did. `firstAngle_run` : over
every sequence of fans, what it has collected is always contiguous, and a call returns an
angle exactly when the fans collected are a closed circle. It is then the start of one of
them that is as close to 1800 as any, and the list is empty again.
-/

set_option linter.unusedSectionVars false

open Memory Machine Circle

namespace Mastiff.Lidar

variable {raws raws' : List RawData} {raw : RawData}

/-! ## The nearest fan -/

/-- How far from the angle `x` the fan starts. -/
def offAngle (x : ℤ) (f : RawData) : ℕ :=
  ((f.start : ℤ) - x).natAbs

/-- Keeping the better of two ends with one that is as good as any. -/
theorem foldl_nearest {α : Type*} (near : α → ℕ) :
    ∀ (first : α) (rest : List α),
      rest.foldl (fun best f => if near f < near best then f else best) first ∈ first :: rest ∧
        ∀ g ∈ first :: rest,
          near (rest.foldl (fun best f => if near f < near best then f else best) first) ≤ near g
  | first, [] => ⟨List.mem_singleton_self first, fun g hg => (List.mem_singleton.1 hg ▸ le_rfl)⟩
  | first, f :: rest => by
    obtain ⟨hmem, hle⟩ := foldl_nearest near (if near f < near first then f else first) rest
    rw [List.foldl_cons]
    refine ⟨?_, ?_⟩
    · rcases List.mem_cons.1 hmem with heq | hrest
      · rw [heq]
        split_ifs <;> simp
      · exact List.mem_cons_of_mem _ (List.mem_cons_of_mem _ hrest)
    · rw [List.forall_mem_cons] at hle
      obtain ⟨hkept, hrest⟩ := hle
      have hboth : near (if near f < near first then f else first) ≤ near first ∧
          near (if near f < near first then f else first) ≤ near f := by
        split_ifs <;> omega
      rw [List.forall_mem_cons, List.forall_mem_cons]
      exact ⟨hkept.trans hboth.1, hkept.trans hboth.2, hrest⟩

/-- `find` returns the start of a fan that is as close to the angle as any. -/
theorem findAngle_spec (first : RawData) (rest : List RawData) (x : ℤ) :
    ∃ f ∈ first :: rest, findAngle first rest x = f.start ∧
      ∀ g ∈ first :: rest, offAngle x f ≤ offAngle x g := by
  obtain ⟨hmem, hle⟩ := foldl_nearest (offAngle x) first rest
  exact ⟨_, hmem, rfl, hle⟩

/-! ## One call -/

/-- The fans add up to the circle and the next one starts where the first one did. -/
def Closes (raws : List RawData) (raw : RawData) : Prop :=
  totalSpan raws = 3600 ∧ ∃ first, raws.head? = some first ∧ raw.start = first.start

/-- What a call that has collected `raws` does with a fan : it leaves a contiguous list, and
returns an angle exactly when the fan closes the list. The angle is then the start of a fan
of the list, none starts closer to 1800, and the list left is empty. -/
structure PicksStart (raws : List RawData) (raw : RawData) (ret : ℤ) (raws' : List RawData) :
    Prop where
  before : Chained RawData.start RawData.len 3600 raws
  after : Chained RawData.start RawData.len 3600 raws'
  closes : 0 ≤ ret ↔ Closes raws raw
  nearest : 0 ≤ ret → ∃ f ∈ raws, ret = f.start ∧ ∀ g ∈ raws, offAngle 1800 f ≤ offAngle 1800 g
  empty : 0 ≤ ret → raws' = []

theorem spanLoop_eq_ok : ∀ {fans : List RawData} {angles r : ℤ},
    spanLoop fans angles = .ok r → r = angles + totalSpan fans
  | [], angles, r, h => by
    rw [← Except.ok.inj h]
    simp [totalSpan]
  | tmp :: rest, angles, r, h => by
    obtain ⟨angles', ha, hrest⟩ := bind_eq_ok.1 h
    rw [spanLoop_eq_ok hrest, intAdd_eq_ok ha]
    simp only [totalSpan, List.map_cons, List.sum_cons, Nat.cast_add]
    omega

theorem spanLoop_of_le : ∀ {fans : List RawData} {angles : ℤ}, 0 ≤ angles →
    angles + totalSpan fans ≤ intMax → spanLoop fans angles = .ok (angles + totalSpan fans)
  | [], angles, _, _ => by simp [spanLoop, totalSpan]
  | tmp :: rest, angles, hpos, hle => by
    simp only [totalSpan, List.map_cons, List.sum_cons, Nat.cast_add] at hle ⊢
    rw [spanLoop, intAdd_of_le (by omega) (by omega), ok_bind,
      spanLoop_of_le (by omega) (by simp only [totalSpan]; omega), totalSpan]
    congr 1
    omega

/-- Equal angles are equal starts. -/
theorem angle_eq_iff {f g : RawData} : f.angle = g.angle ↔ f.start = g.start :=
  BitVec.toNat_inj.symm

/-- A fan that starts where a contiguous list ends continues it. -/
theorem chained_snoc {first : RawData} {rest : List RawData}
    (h : Chained RawData.start RawData.len 3600 (first :: rest))
    (hnext : raw.start = ((rest.getLastD first).start + (rest.getLastD first).len) % 3600) :
    Chained RawData.start RawData.len 3600 (first :: rest ++ [raw]) := by
  refine List.isChain_append.2 ⟨h, List.isChain_singleton raw, fun f hf g hg => ?_⟩
  obtain rfl : raw = g := by simpa using hg
  obtain rfl : rest.getLastD first = f := by
    rw [List.getLast?_cons] at hf
    simpa [List.getLastD_eq_getLast?] using hf
  exact hnext

/-- A call on a contiguous list that goes through. -/
theorem autoGetFirstAngle_spec {error error' : String} {ret : ℤ}
    (h : Chained RawData.start RawData.len 3600 raws)
    (hr : autoGetFirstAngle raw raws error = .ok (ret, raws', error')) :
    PicksStart raws raw ret raws' := by
  cases raws with
  | nil =>
    obtain ⟨rfl, hheld⟩ := Prod.mk.inj (Except.ok.inj hr)
    obtain ⟨rfl, -⟩ := Prod.mk.inj hheld
    refine ⟨h, List.isChain_singleton raw, iff_of_false (by simp) ?_, by simp, by simp⟩
    rintro ⟨-, first, hfirst, -⟩
    cases hfirst
  | cons first rest =>
    rw [autoGetFirstAngle] at hr
    by_cases hangle : raw.angle = first.angle
    · rw [if_pos hangle] at hr
      obtain ⟨angles, hsum, hr⟩ := bind_eq_ok.1 hr
      have htotal := spanLoop_eq_ok hsum
      split_ifs at hr with hcircle
      · obtain ⟨rfl, hheld⟩ := Prod.mk.inj (Except.ok.inj hr)
        obtain ⟨rfl, -⟩ := Prod.mk.inj hheld
        refine ⟨h, List.isChain_nil, iff_of_false (by simp) ?_, by simp, by simp⟩
        rintro ⟨hcloses, -⟩
        omega
      · obtain ⟨rfl, hheld⟩ := Prod.mk.inj (Except.ok.inj hr)
        obtain ⟨rfl, -⟩ := Prod.mk.inj hheld
        obtain ⟨f, hf, hret, hnear⟩ := findAngle_spec first rest 1800
        have hcloses : Closes (first :: rest) raw :=
          ⟨by omega, first, rfl, angle_eq_iff.1 hangle⟩
        refine ⟨h, List.isChain_nil, iff_of_true ?_ hcloses, fun _ => ⟨f, hf, hret, hnear⟩,
          fun _ => rfl⟩
        rw [hret]
        omega
    · rw [if_neg hangle] at hr
      have hopen : ¬Closes (first :: rest) raw := by
        rintro ⟨-, g, hg, hstart⟩
        obtain rfl := Option.some.inj hg
        exact hangle (angle_eq_iff.2 hstart)
      dsimp only at hr
      split_ifs at hr with hnext
      · obtain ⟨rfl, hheld⟩ := Prod.mk.inj (Except.ok.inj hr)
        obtain ⟨rfl, -⟩ := Prod.mk.inj hheld
        exact ⟨h, chained_snoc h hnext, iff_of_false (by simp) hopen, by simp, by simp⟩
      · obtain ⟨rfl, hheld⟩ := Prod.mk.inj (Except.ok.inj hr)
        obtain ⟨rfl, -⟩ := Prod.mk.inj hheld
        exact ⟨h, h, iff_of_false (by simp) hopen, by simp, by simp⟩

/-- A call goes through if the spans collected add up to an `int`. -/
theorem exists_autoGetFirstAngle (error : String) (hle : totalSpan raws ≤ intMax) :
    ∃ r, autoGetFirstAngle raw raws error = .ok r := by
  cases raws with
  | nil => exact ⟨_, rfl⟩
  | cons first rest =>
    rw [autoGetFirstAngle, spanLoop_of_le le_rfl (by omega), ok_bind]
    dsimp only
    split_ifs <;> exact ⟨_, rfl⟩

/-! ## Runs -/

/-- The list and the text a call leaves, and the value it returns. -/
def firstAngleStep (s : List RawData × String) (raw : RawData) :
    Except Fault ((List RawData × String) × ℤ) := do
  let (ret, raws, error) ← autoGetFirstAngle raw s.1 s.2
  return ((raws, error), ret)

/-- A call goes through if the spans collected add up to an `int`, and picks the start angle
if it goes through. -/
def PicksStartAt (s : List RawData × String) (raw : RawData) : Prop :=
  (totalSpan s.1 ≤ intMax → ∃ r, firstAngleStep s raw = .ok r) ∧
    ∀ s' ret, firstAngleStep s raw = .ok (s', ret) → PicksStart s.1 raw ret s'.1

theorem picksStartAt {s : List RawData × String}
    (h : Chained RawData.start RawData.len 3600 s.1) (raw : RawData) : PicksStartAt s raw := by
  constructor
  · intro hle
    obtain ⟨r, hr⟩ := exists_autoGetFirstAngle s.2 hle
    exact ⟨_, by rw [firstAngleStep, hr]; rfl⟩
  · intro s' ret hstep
    obtain ⟨r, hr, hout⟩ := bind_eq_ok.1 hstep
    obtain ⟨rfl, rfl⟩ := Prod.mk.inj (Except.ok.inj hout)
    exact autoGetFirstAngle_spec h hr

/-- Over every sequence of fans from the empty list, every call picks the start angle. -/
theorem firstAngle_run (error : String) (fans : List RawData) :
    Along firstAngleStep PicksStartAt ([], error) fans := by
  have hnil : Chained RawData.start RawData.len 3600 [] := List.isChain_nil
  refine along_mono (fun s : List RawData × String => Chained RawData.start RawData.len 3600 s.1)
    (fun s raw h _ => picksStartAt h raw) (fun s raw s' ret h _ hstep => ?_) fans hnil
    (along_true fans)
  exact ((picksStartAt h raw).2 s' ret hstep).after

end Mastiff.Lidar

import Mathlib.Data.List.Count
import Mathlib.Data.List.Nodup
import Mathlib.Data.List.Range
import Mathlib.Data.Nat.ModEq
import Mathlib.Algebra.BigOperators.Group.List.Basic

/-!
# Arcs of a discrete circle

The points of a circle are the numbers below `n`. An arc has a start and a length, and
covers as many points from its start on, modulo `n`. Arcs that each start where the one
before ends cover what one long arc covers (`cover_of_chained`), and an arc of length `n`
covers every point exactly once (`count_arc`).

`dist n s a` is the way from `a` forward to `s`, at least one step and at most `n`. Going
on from `a` one meets `s` for the first time after it (`add_mod_eq_iff`).
-/

namespace Circle

/-- The points an arc covers, in order. -/
def arc (n a len : ℕ) : List ℕ :=
  (List.range len).map fun o => (a + o) % n

theorem arc_mod (n a len : ℕ) : arc n (a % n) len = arc n a len := by
  simp [arc]

/-- An arc can be cut in two. -/
theorem arc_add (n a len len' : ℕ) :
    arc n a (len + len') = arc n a len ++ arc n (a + len) len' := by
  simp [arc, List.range_add, Nat.add_assoc]

/-- An arc of at most the whole circle covers no point twice. -/
theorem nodup_arc {n a len : ℕ} (h : len ≤ n) : (arc n a len).Nodup := by
  refine List.Nodup.map_on ?_ List.nodup_range
  intro o ho o' ho' heq
  have hmod : o ≡ o' [MOD n] := Nat.ModEq.add_left_cancel' a heq
  exact Nat.ModEq.eq_of_lt_of_lt hmod ((List.mem_range.1 ho).trans_le h)
    ((List.mem_range.1 ho').trans_le h)

/-- An arc of the whole circle covers every point. -/
theorem mem_arc {n t : ℕ} (a : ℕ) (ht : t < n) : t ∈ arc n a n := by
  refine List.mem_map.2 ⟨(t + (n - a % n)) % n, List.mem_range.2 (Nat.mod_lt _ (by omega)), ?_⟩
  have hlt : a % n < n := Nat.mod_lt _ (by omega)
  calc (a + (t + (n - a % n)) % n) % n = (a % n + (t + (n - a % n))) % n := by
        rw [Nat.add_mod_mod, Nat.mod_add_mod]
    _ = (t + n) % n := by congr 1; omega
    _ = t := by rw [Nat.add_mod_right, Nat.mod_eq_of_lt ht]

/-- An arc of the whole circle covers every point exactly once. -/
theorem count_arc {n t : ℕ} (a : ℕ) (ht : t < n) : (arc n a n).count t = 1 :=
  List.count_eq_one_of_mem (nodup_arc (Nat.le_refl n)) (mem_arc a ht)

/-! ## Arcs end to end -/

variable {α : Type*} (start len : α → ℕ) (n : ℕ)

/-- Every arc starts where the one before ends. -/
def Chained (arcs : List α) : Prop :=
  arcs.IsChain fun x y => start y = (start x + len x) % n

/-- The points a list of arcs covers, in order. -/
def cover (arcs : List α) : List ℕ :=
  (arcs.map fun x => arc n (start x) (len x)).flatten

variable {start len n}

/-- Arcs end to end cover what one arc of their total length covers. -/
theorem cover_of_chained :
    ∀ {x : α} {arcs : List α}, Chained start len n (x :: arcs) →
      cover start len n (x :: arcs) = arc n (start x) ((x :: arcs).map len).sum
  | x, [], _ => by simp [cover]
  | x, y :: arcs, h => by
    obtain ⟨hxy, htail⟩ := List.isChain_cons_cons.1 h
    have ih := cover_of_chained htail
    rw [List.map_cons, List.sum_cons, arc_add, ← arc_mod n (start x + len x), ← hxy, ← ih]
    simp [cover]

/-- Arcs end to end end where one arc of their total length ends. -/
theorem end_of_chained :
    ∀ {x : α} {arcs : List α}, Chained start len n (x :: arcs) →
      ∀ z ∈ (x :: arcs).getLast?, (start z + len z) % n =
        (start x + ((x :: arcs).map len).sum) % n
  | x, [], _, z, hz => by
    obtain rfl : x = z := by simpa using hz
    simp
  | x, y :: arcs, h, z, hz => by
    obtain ⟨hxy, htail⟩ := List.isChain_cons_cons.1 h
    have ih := end_of_chained htail z (by simpa using hz)
    rw [ih, hxy, List.map_cons (a := x), List.sum_cons (a := len x), Nat.mod_add_mod, Nat.add_assoc]

/-- Arcs end to end that add up to the whole circle cover every point exactly once. -/
theorem count_cover {x : α} {arcs : List α} (h : Chained start len n (x :: arcs))
    (htotal : ((x :: arcs).map len).sum = n) {t : ℕ} (ht : t < n) :
    (cover start len n (x :: arcs)).count t = 1 := by
  rw [cover_of_chained h, htotal, count_arc _ ht]

/-! ## The way to a point -/

/-- The way from `a` forward to `s`. -/
def dist (n s a : ℕ) : ℕ :=
  n - (a + n - s) % n

theorem dist_pos {n s a : ℕ} (hs : s < n) : 0 < dist n s a := by
  have := Nat.mod_lt (a + n - s) (show 0 < n by omega)
  unfold dist
  omega

theorem dist_le (n s a : ℕ) : dist n s a ≤ n :=
  Nat.sub_le _ _

theorem dist_self {n s a : ℕ} (hs : s < n) (h : a % n = s) : dist n s a = n := by
  have hback : (a + n - s) % n = 0 := by
    have hmod : s ≡ a + n [MOD n] := by
      rw [Nat.ModEq, Nat.add_mod_right, h, Nat.mod_eq_of_lt hs]
    have hle : s ≤ a + n := by omega
    exact (Nat.modEq_iff_dvd' hle).1 hmod |>.modEq_zero_nat
  rw [dist, hback, Nat.sub_zero]

/-- Up to the way to `s`, one meets `s` only at its end. -/
theorem add_mod_eq_iff {n s a o : ℕ} (hs : s < n) (hpos : 0 < o) (hle : o ≤ dist n s a) :
    (a + o) % n = s ↔ o = dist n s a := by
  have hn : 0 < n := by omega
  have hend : (a + dist n s a) % n = s := by
    have hdiv := Nat.div_add_mod (a + n - s) n
    have hlt := Nat.mod_lt (a + n - s) hn
    have hsum : a + dist n s a = s + n * ((a + n - s) / n) := by
      unfold dist
      omega
    rw [hsum, Nat.add_mul_mod_self_left, Nat.mod_eq_of_lt hs]
  constructor
  · intro h
    have hmod : o ≡ dist n s a [MOD n] := Nat.ModEq.add_left_cancel' a (h.trans hend.symm)
    have hdvd : n ∣ dist n s a - o := (Nat.modEq_iff_dvd' hle).1 hmod
    have hlt : dist n s a - o < n := by
      have := dist_le n s a
      omega
    have := Nat.eq_zero_of_dvd_of_lt hdvd hlt
    omega
  · rintro rfl
    exact hend

end Circle

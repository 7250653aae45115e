import Mathlib.Data.List.DropRight
import Mathlib.Order.Bounds.Basic
import Mathlib.Order.Defs.LinearOrder

/-!
# The maximum of a sliding window

A window moves over a list. Of what it holds only the elements matter that no later one exceeds
(`maxima`) : the first of them is the greatest of the window, an element that enters drops the
smaller ones before it from the end (`maxima_concat`), and one that leaves is the first of them
or none (`maxima_cons_of_head?_eq`, `maxima_cons_of_head?_ne`).
-/

set_option linter.unusedSectionVars false

namespace SlidingMax

variable {α : Type} [LinearOrder α] {v m : α} {vs : List α}

/-- The elements that no later element exceeds. -/
def maxima : List α → List α
  | [] => []
  | v :: vs => if ∀ u ∈ vs, u ≤ v then v :: maxima vs else maxima vs

theorem maxima_sublist : ∀ vs : List α, (maxima vs).Sublist vs
  | [] => .slnil
  | v :: vs => by
    rw [maxima]
    split_ifs
    · exact (maxima_sublist vs).cons_cons v
    · exact (maxima_sublist vs).cons v

theorem rdropWhile_cons {p : α → Bool} (hv : p v = false) (vs : List α) :
    (v :: vs).rdropWhile p = v :: vs.rdropWhile p := by
  induction vs using List.reverseRecOn with
  | nil => rw [List.rdropWhile_singleton, if_neg (by rw [hv]; exact Bool.false_ne_true)]; rfl
  | append_singleton vs u ih =>
    rw [← List.cons_append, List.rdropWhile_concat, List.rdropWhile_concat, ih]
    split_ifs
    · rfl
    · rfl

/-- An element that enters drops the smaller ones from the end. -/
theorem maxima_concat (vs : List α) (v : α) :
    maxima (vs ++ [v]) = (maxima vs).rdropWhile (· < v) ++ [v] := by
  induction vs with
  | nil => rfl
  | cons u vs ih =>
    rw [List.cons_append, maxima, maxima, ih]
    by_cases hle : ∀ x ∈ vs, x ≤ u
    · rw [if_pos hle]
      by_cases hvu : v ≤ u
      · have hall : ∀ x ∈ vs ++ [v], x ≤ u := by
          simpa only [List.mem_append, List.mem_singleton, or_imp, forall_and, forall_eq]
            using ⟨hle, hvu⟩
        rw [if_pos hall, rdropWhile_cons (by rw [decide_eq_false (not_lt.2 hvu)]), List.cons_append]
      · -- the new element exceeds all that are there
        have hlt : ∀ x ∈ u :: maxima vs, decide (x < v) = true := fun x hx => by
          rw [decide_eq_true_eq]
          rcases List.mem_cons.1 hx with rfl | hx
          · exact not_le.1 hvu
          · exact (hle x ((maxima_sublist vs).mem hx)).trans_lt (not_le.1 hvu)
        have hall : ¬∀ x ∈ vs ++ [v], x ≤ u := fun h =>
          hvu (h v (List.mem_append_right _ (List.mem_singleton_self v)))
        rw [if_neg hall, List.rdropWhile_eq_nil_iff.2 hlt,
          List.rdropWhile_eq_nil_iff.2 fun x hx => hlt x (List.mem_cons_of_mem u hx)]
    · rw [if_neg hle, if_neg fun h => hle fun x hx => h x (List.mem_append_left _ hx)]

/-- The first of them is the greatest element. -/
theorem head?_maxima_iff : ∀ {vs : List α},
    (maxima vs).head? = some m ↔ IsGreatest {v | v ∈ vs} m
  | [] => by simp [maxima, IsGreatest]
  | v :: vs => by
    rw [maxima]
    split_ifs with hle
    · have hgreatest : IsGreatest {u | u ∈ v :: vs} v :=
        ⟨List.mem_cons_self, fun u hu => (List.mem_cons.1 hu).elim (·.le) (hle u)⟩
      rw [List.head?_cons, Option.some_inj]
      exact ⟨fun h => h ▸ hgreatest, hgreatest.unique⟩
    · rw [head?_maxima_iff]
      push Not at hle
      obtain ⟨u, hu, hlt⟩ := hle
      constructor
      · intro h
        refine ⟨List.mem_cons_of_mem v h.1, fun x hx => ?_⟩
        rcases List.mem_cons.1 hx with rfl | hx
        · exact hlt.le.trans (h.2 hu)
        · exact h.2 hx
      · intro h
        refine ⟨?_, fun x hx => h.2 (List.mem_cons_of_mem v hx)⟩
        rcases List.mem_cons.1 h.1 with rfl | hm
        · exact absurd (h.2 (List.mem_cons_of_mem m hu)) (not_le.2 hlt)
        · exact hm

theorem exists_head?_maxima : ∀ {vs : List α}, vs ≠ [] → ∃ m, (maxima vs).head? = some m
  | [], h => absurd rfl h
  | v :: vs, _ => by
    rw [maxima]
    split_ifs with hle
    · exact ⟨v, rfl⟩
    · refine exists_head?_maxima fun hnil => hle fun u hu => ?_
      rw [hnil] at hu
      cases hu

/-- The first of them leaves with the first element if they are equal. -/
theorem maxima_cons_of_head?_eq (h : (maxima (v :: vs)).head? = some v) :
    maxima (v :: vs) = v :: maxima vs := by
  have hle := (head?_maxima_iff.1 h).2
  rw [maxima, if_pos fun u hu => hle (List.mem_cons_of_mem v hu)]

/-- Else none leaves. -/
theorem maxima_cons_of_head?_ne (h : (maxima (v :: vs)).head? ≠ some v) :
    maxima (v :: vs) = maxima vs := by
  rw [maxima, if_neg fun hle => h ?_]
  rw [maxima, if_pos hle, List.head?_cons]

/-! ## Windows -/

variable {w k : ℕ}

/-- What a window of `w` elements that ends at place `k` holds, at the ends of the list the part
of it that is there. -/
def window (w : ℕ) (vs : List α) (k : ℕ) : List α :=
  (vs.take (k + 1)).drop (k + 1 - w)

theorem mem_window_iff : v ∈ window w vs k ↔ ∃ i ≤ k, k < i + w ∧ vs[i]? = some v := by
  rw [window, List.mem_iff_getElem?]
  constructor
  · rintro ⟨i, hi⟩
    rw [List.getElem?_drop] at hi
    have hlt : k + 1 - w + i < k + 1 := by
      by_contra hge
      rw [List.getElem?_take_eq_none (not_lt.1 hge)] at hi
      cases hi
    rw [List.getElem?_take_of_lt hlt] at hi
    exact ⟨_, by omega, by omega, hi⟩
  · rintro ⟨i, hik, hlt, hi⟩
    refine ⟨i - (k + 1 - w), ?_⟩
    rw [List.getElem?_drop, Nat.add_sub_of_le (by omega), List.getElem?_take_of_lt (by omega), hi]

/-- While the window is not full, nothing leaves. -/
theorem window_succ_of_lt (h : k + 1 < w) :
    window w vs (k + 1) = window w vs k ++ vs[k + 1]?.toList := by
  rw [window, window, Nat.sub_eq_zero_of_le (by omega), Nat.sub_eq_zero_of_le (by omega),
    List.drop_zero, List.drop_zero, List.take_add_one]

/-- A full window loses its first element at each move. -/
theorem window_eq_cons (hw : w ≤ k + 1) (hk : vs[k + 1 - w]? = some v) (hpos : 0 < w) :
    window w vs k = v :: (vs.take (k + 1)).drop (k + 2 - w) := by
  have hlt : k + 1 - w < (vs.take (k + 1)).length := by
    have := (List.getElem?_eq_some_iff.1 hk).1
    rw [List.length_take]
    omega
  have hv : (vs.take (k + 1))[k + 1 - w] = v := by
    rw [List.getElem_take]
    exact (List.getElem?_eq_some_iff.1 hk).2
  rw [window, List.drop_eq_getElem_cons hlt, hv, show k + 2 - w = k + 1 - w + 1 by omega]

theorem window_succ (hpos : 0 < w) :
    window w vs (k + 1) = (vs.take (k + 1)).drop (k + 2 - w) ++ vs[k + 1]?.toList := by
  rw [window, List.take_add_one, List.drop_append]
  cases hv : vs[k + 1]? with
  | none => rw [Option.toList_none, List.drop_nil]
  | some v =>
    have hlt := (List.getElem?_eq_some_iff.1 hv).1
    have hlength : k + 1 + 1 - w - (vs.take (k + 1)).length = 0 := by
      rw [List.length_take]
      omega
    rw [hlength, List.drop_zero]

theorem window_zero (hpos : 0 < w) : window w vs 0 = vs.take 1 := by
  rw [window, Nat.sub_eq_zero_of_le hpos, List.drop_zero]

/-- In the end the window is empty. -/
theorem window_end (hk : vs.length + w ≤ k + 1) : window w vs k = [] := by
  rw [window, List.drop_eq_nil_iff, List.length_take]
  omega

end SlidingMax

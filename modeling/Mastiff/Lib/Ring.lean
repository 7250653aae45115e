import Mathlib.Data.List.Basic
import Mathlib.Data.List.DropRight
import Mathlib.Data.Nat.ModEq
import Mathlib.Tactic.Common

/-!
# Ring storage and the drop-oldest queue

`Window data start q` says that the cells of the ring `data`, read from `start` on and
wrapping at the end, are the list `q`. Writing the cell after the window extends it
(`Window.snoc`), moving the start drops its front (`Window.drop`), and a window is one
stretch of the block or two (`Window.eq_take`, `Window.eq_wrap`).

`pushLast cap q xs` is the queue `q` after the elements `xs` arrived and only the last
`cap` of all were kept.
-/

namespace Ring

variable {α : Type*}

/-! ## Windows -/

/-- Reading the ring `data` from `start` on gives `q`. -/
structure Window (data : List α) (start : ℕ) (q : List α) : Prop where
  length_le : q.length ≤ data.length
  cell : ∀ i (h : i < q.length), data[(start + i) % data.length]? = some q[i]

namespace Window

variable {data q : List α} {start : ℕ}

theorem nil (data : List α) (start : ℕ) : Window data start [] :=
  ⟨by simp, fun i h => by simp at h⟩

/-- Two offsets below the size reach different cells. -/
theorem cell_ne {n i j : ℕ} (hi : i < j) (hj : j < n) : (start + i) % n ≠ (start + j) % n := by
  intro h
  have hmod : i ≡ j [MOD n] := Nat.ModEq.add_left_cancel (Nat.ModEq.refl start) h
  rw [Nat.ModEq, Nat.mod_eq_of_lt (by omega), Nat.mod_eq_of_lt hj] at hmod
  omega

/-- Writing the cell after a window that is not full extends it. -/
theorem snoc (h : Window data start q) (x : α) (hlt : q.length < data.length) :
    Window (data.set ((start + q.length) % data.length) x) start (q ++ [x]) := by
  have hpos : 0 < data.length := by omega
  refine ⟨by simp; omega, fun i hi => ?_⟩
  rw [List.length_set]
  rcases Nat.lt_or_ge i q.length with hiq | hiq
  · rw [List.getElem?_set_ne (cell_ne hiq hlt).symm, h.cell i hiq, List.getElem_append_left hiq]
  · obtain rfl : i = q.length := by simp at hi; omega
    rw [List.getElem?_set_self (Nat.mod_lt _ hpos)]
    simp

/-- Moving the start forward drops the front of the window. -/
theorem drop (h : Window data start q) (k : ℕ) :
    Window data ((start + k) % data.length) (q.drop k) := by
  refine ⟨by have := h.length_le; simp; omega, fun i hi => ?_⟩
  have hik : k + i < q.length := by simp at hi; omega
  rw [Nat.mod_add_mod, Nat.add_assoc, h.cell (k + i) hik, List.getElem_drop]

/-- A shorter window from the same start. -/
theorem take (h : Window data start q) (k : ℕ) : Window data start (q.take k) := by
  refine ⟨(List.length_take_le' k q).trans h.length_le, fun i hi => ?_⟩
  have hiq : i < q.length := by simp at hi; omega
  rw [h.cell i hiq, List.getElem_take]

/-- A window that does not reach the end of the block is one stretch of it. -/
theorem eq_take (h : Window data start q) (hle : start + q.length ≤ data.length) :
    (data.drop start).take q.length = q := by
  refine List.ext_getElem (by simp; omega) fun i hi hi' => ?_
  have hc := h.cell i hi'
  rw [Nat.mod_eq_of_lt (by omega), List.getElem?_eq_some_iff] at hc
  obtain ⟨_, hc⟩ := hc
  simpa using hc

/-- A window past the end of the block is its tail, then a stretch from its first cell. -/
theorem eq_wrap (h : Window data start q) (hs : start < data.length)
    (hge : data.length ≤ start + q.length) :
    data.drop start ++ data.take (start + q.length - data.length) = q := by
  have hlen := h.length_le
  refine List.ext_getElem (by simp; omega) fun i hi hi' => ?_
  have hc := h.cell i hi'
  rw [List.getElem?_eq_some_iff] at hc
  obtain ⟨_, hc⟩ := hc
  rcases Nat.lt_or_ge (start + i) data.length with hlt | hle
  · rw [List.getElem_append_left (by simp; omega), List.getElem_drop, ← hc]
    simp only [Nat.mod_eq_of_lt hlt]
  · have hmod : (start + i) % data.length = i - (data.length - start) := by
      rw [Nat.mod_eq_sub_mod hle, Nat.mod_eq_of_lt (by omega)]
      omega
    rw [List.getElem_append_right (by simp; omega), List.getElem_take, ← hc]
    simp only [hmod, List.length_drop]

end Window

/-! ## The drop-oldest queue -/

/-- `q` followed by `xs`, cut to its last `cap` elements. -/
def pushLast (cap : ℕ) (q xs : List α) : List α :=
  (q ++ xs).rtake cap

/-- With room for `xs`, nothing is dropped. -/
theorem pushLast_of_le {cap : ℕ} {q xs : List α} (h : q.length + xs.length ≤ cap) :
    pushLast cap q xs = q ++ xs := by
  simp only [pushLast, List.rtake, List.length_append]
  rw [Nat.sub_eq_zero_of_le h, List.drop_zero]

/-- Without it, the oldest elements of `q` make room. -/
theorem pushLast_eq_drop {cap : ℕ} {q xs : List α} (hxs : xs.length ≤ cap)
    (h : cap ≤ q.length + xs.length) :
    pushLast cap q xs = q.drop (q.length + xs.length - cap) ++ xs := by
  simp only [pushLast, List.rtake, List.length_append]
  rw [List.drop_append_of_le_length (by omega)]

end Ring

import Mathlib.Algebra.BigOperators.Group.Finset.Basic
import Mathlib.Algebra.Order.BigOperators.Group.Finset
import Mathlib.Algebra.Ring.Nat

/-!
# Reassembly from pieces

A whole arrives in pieces, in any order and with repetitions. `addNew` keeps a piece
unless one with its key is there. On a set of pieces with distinct keys the list it
builds has each piece that arrived exactly once (`toFinset_addNew`, `nodup_addNew`), so
with positive weights the weight of the list reaches the weight of the set exactly when
the last piece arrives (`sum_lt_of_missing`, `sum_eq_of_complete`).
-/

open Finset

namespace Reassembly

variable {α κ : Type*} [DecidableEq κ] (key : α → κ)

/-- Append a piece unless one with its key is there. -/
def addNew (l : List α) (x : α) : List α :=
  if key x ∈ l.map key then l else l ++ [x]

theorem addNew_nil (x : α) : addNew key [] x = [x] := by
  simp [addNew]

theorem addNew_ne_nil (l : List α) (x : α) : addNew key l x ≠ [] := by
  unfold addNew
  split_ifs with h
  · rintro rfl
    simp at h
  · simp

/-- Adding a piece never repeats one. -/
theorem nodup_addNew {l : List α} (hl : l.Nodup) (x : α) : (addNew key l x).Nodup := by
  unfold addNew
  split_ifs with h
  · exact hl
  · refine List.nodup_append.2 ⟨hl, by simp, ?_⟩
    rintro y hy z hz rfl
    obtain rfl : y = x := by simpa using hz
    exact h (List.mem_map_of_mem hy)

variable [DecidableEq α] {key} {S : Finset α}

/-- Where keys tell pieces apart, adding a piece adds exactly it. -/
theorem toFinset_addNew (hkey : Set.InjOn key S) {l : List α} (hl : l.toFinset ⊆ S) {x : α}
    (hx : x ∈ S) : (addNew key l x).toFinset = insert x l.toFinset := by
  unfold addNew
  split_ifs with h
  · obtain ⟨y, hy, hyx⟩ := List.mem_map.1 h
    have hyl : y ∈ l.toFinset := List.mem_toFinset.2 hy
    have hxy : y = x := hkey (hl hyl) hx hyx
    rw [insert_eq_of_mem (hxy ▸ hyl)]
  · rw [List.toFinset_append, insert_eq, union_comm]
    simp

/-- While a piece is missing the weight falls short. -/
theorem sum_lt_of_missing {w : α → ℕ} (hpos : ∀ s ∈ S, 0 < w s) {l : List α} (hl : l.Nodup)
    (hsub : l.toFinset ⊆ S) {x : α} (hx : x ∈ S) (hmiss : x ∉ l) :
    (l.map w).sum < ∑ s ∈ S, w s := by
  rw [← List.sum_toFinset w hl]
  exact sum_lt_sum_of_subset hsub hx (by simpa using hmiss) (hpos x hx) fun _ _ _ => Nat.zero_le _

/-- When every piece is there the weight is reached. -/
theorem sum_eq_of_complete {M : Type*} [AddCommMonoid M] (w : α → M) {l : List α} (hl : l.Nodup)
    (hall : l.toFinset = S) : (l.map w).sum = ∑ s ∈ S, w s := by
  rw [← List.sum_toFinset w hl, hall]

end Reassembly

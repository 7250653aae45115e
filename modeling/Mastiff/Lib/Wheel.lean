import Mathlib.Data.List.Nodup
import Mathlib.Data.Nat.ModEq
import Mathlib.Logic.Function.Basic

/-!
# Wheels

A wheel of `m` slots holds things by the time each is due : one that is due at `k` is in slot
`k % m`. At time `n` it holds times from `n` to `n + m - 1` alone (`Window`), so what is in
slot `n % m` is due at `n` (`Window.due_eq`), and once that slot is empty the time can go on
(`Window.advance`). `next m n j` is the time at which slot `j` comes up.
-/

namespace SlotWheel

variable {α : Type*} {m n j k : ℕ}

/-! ## Times -/

/-- The first time from `n` on that is `j` modulo `m`. -/
def next (m n j : ℕ) : ℕ :=
  n + (j + (m - n % m)) % m

theorem le_next (m n j : ℕ) : n ≤ next m n j :=
  Nat.le_add_right ..

theorem next_lt (n : ℕ) (hj : j < m) : next m n j < n + m :=
  Nat.add_lt_add_left (Nat.mod_lt _ (by omega)) n

theorem next_mod (n : ℕ) (hj : j < m) : next m n j % m = j := by
  have hlt : n % m < m := Nat.mod_lt _ (by omega)
  have hsplit : n + (j + (m - n % m)) = j + m * (n / m + 1) := by
    have hdiv := Nat.mod_add_div n m
    rw [Nat.mul_succ]
    omega
  rw [next, Nat.add_mod_mod, hsplit, Nat.add_mul_mod_self_left, Nat.mod_eq_of_lt hj]

/-- Of `m` times that follow each other, no two are in one slot. -/
theorem eq_of_mod_eq {k' : ℕ} (hk : n ≤ k) (hk' : n ≤ k') (hlt : k < n + m) (hlt' : k' < n + m)
    (h : k % m = k' % m) : k = k' := by
  obtain ⟨i, rfl⟩ := Nat.exists_eq_add_of_le hk
  obtain ⟨i', rfl⟩ := Nat.exists_eq_add_of_le hk'
  have hmod : i ≡ i' [MOD m] := Nat.ModEq.add_left_cancel (Nat.ModEq.refl n) h
  rw [Nat.ModEq, Nat.mod_eq_of_lt (by omega), Nat.mod_eq_of_lt (by omega)] at hmod
  rw [hmod]

theorem next_eq (hle : n ≤ k) (hlt : k < n + m) : next m n (k % m) = k := by
  have hmod : k % m < m := Nat.mod_lt _ (by omega)
  exact eq_of_mod_eq (le_next ..) hle (next_lt n hmod) hlt (next_mod n hmod)

/-! ## Slots -/

/-- An updated function has a value other than the new one where it had it before. -/
theorem of_update {β : Type*} [DecidableEq α] {f : α → β} {x y : α} {b c : β}
    (h : Function.update f x b y = c) (hbc : b ≠ c) : y ≠ x ∧ f y = c := by
  by_cases hyx : y = x
  · rw [hyx, Function.update_self] at h
    exact absurd h hbc
  · rw [Function.update_of_ne hyx] at h
    exact ⟨hyx, h⟩

section Slots

variable {slot : ℕ → List α} {x y : α} {xs : List α} {i : ℕ}

theorem mem_push : y ∈ Function.update slot j (slot j ++ [x]) i ↔ y ∈ slot i ∨ y = x ∧ i = j := by
  by_cases hi : i = j
  · rw [hi, Function.update_self, List.mem_append, List.mem_singleton, and_iff_left rfl]
  · rw [Function.update_of_ne hi, or_iff_left fun h => hi h.2]

theorem mem_of_pop (hslot : slot j = x :: xs) (hy : y ∈ Function.update slot j xs i) :
    y ∈ slot i := by
  by_cases hi : i = j
  · rw [hi, Function.update_self] at hy
    rw [hi, hslot]
    exact List.mem_cons_of_mem x hy
  · rwa [Function.update_of_ne hi] at hy

theorem mem_pop (hslot : slot j = x :: xs) (hyx : y ≠ x) (hy : y ∈ slot i) :
    y ∈ Function.update slot j xs i := by
  by_cases hi : i = j
  · rw [hi, hslot] at hy
    rw [hi, Function.update_self]
    exact (List.mem_cons.mp hy).resolve_left hyx
  · rwa [Function.update_of_ne hi]

end Slots

/-- Everything in the slots is due from `n` on and before `n + m`, and in the slot of its time. -/
structure Window (m n : ℕ) (due : α → Option ℕ) (slot : ℕ → List α) : Prop where
  nodup : ∀ j, (slot j).Nodup
  mem : ∀ j x, x ∈ slot j → ∃ k, due x = some k ∧ n ≤ k ∧ k < n + m ∧ k % m = j

namespace Window

variable {due due' : α → Option ℕ} {slot : ℕ → List α} {x : α} {xs : List α}

theorem empty (m n : ℕ) (due : α → Option ℕ) : Window m n due fun _ => [] :=
  ⟨fun _ => List.nodup_nil, nofun⟩

theorem not_mem (h : Window m n due slot) (hx : due x = none) (j : ℕ) : x ∉ slot j := by
  intro hmem
  obtain ⟨k, hk, -⟩ := h.mem j x hmem
  rw [hx] at hk
  exact Option.some_ne_none _ hk.symm

/-- What is in a slot is in no other. -/
theorem slot_eq (h : Window m n due slot) {i : ℕ} (hi : x ∈ slot i) (hj : x ∈ slot j) : i = j := by
  obtain ⟨k, hk, -, -, rfl⟩ := h.mem i x hi
  obtain ⟨k', hk', -, -, rfl⟩ := h.mem j x hj
  rw [Option.some.inj (hk.symm.trans hk')]

/-- What is in the slot of the time is due. -/
theorem due_eq (h : Window m n due slot) (hx : x ∈ slot (n % m)) : due x = some n := by
  obtain ⟨k, hk, hle, hlt, hmod⟩ := h.mem _ x hx
  rw [hk, eq_of_mod_eq hle (Nat.le_refl n) hlt (by omega) hmod]

theorem congr (h : Window m n due slot) (hdue : ∀ j x, x ∈ slot j → due' x = due x) :
    Window m n due' slot := by
  refine ⟨h.nodup, fun j x hx => ?_⟩
  rw [hdue j x hx]
  exact h.mem j x hx

/-- Once nothing is due any more, the time goes on. -/
theorem advance (h : Window m n due slot) (hslot : slot (n % m) = []) :
    Window m (n + 1) due slot := by
  refine ⟨h.nodup, fun j x hx => ?_⟩
  obtain ⟨k, hk, hle, hlt, rfl⟩ := h.mem j x hx
  have hne : k ≠ n := by
    rintro rfl
    rw [hslot] at hx
    exact List.not_mem_nil hx
  exact ⟨k, hk, by omega, by omega, rfl⟩

/-- Something else is put in the slot of its time. -/
theorem push [DecidableEq α] (h : Window m n due slot) (hslot : ∀ j, x ∉ slot j)
    (hdue : ∀ y, y ≠ x → due' y = due y) (hx : due' x = some k) (hle : n ≤ k) (hlt : k < n + m) :
    Window m n due' (Function.update slot (k % m) (slot (k % m) ++ [x])) := by
  refine ⟨fun j => ?_, fun j y hy => ?_⟩
  · by_cases hj : j = k % m
    · rw [hj, Function.update_self, ← List.concat_eq_append]
      exact (h.nodup _).concat (hslot _)
    · rw [Function.update_of_ne hj]
      exact h.nodup j
  · rcases mem_push.mp hy with hmem | ⟨rfl, rfl⟩
    · have hne : y ≠ x := fun hyx => hslot j (hyx ▸ hmem)
      rw [hdue y hne]
      exact h.mem j y hmem
    · exact ⟨k, hx, hle, hlt, rfl⟩

/-- Something else is put in a slot, for the time that comes up there. -/
theorem push_next [DecidableEq α] (h : Window m n due slot) (hslot : ∀ j, x ∉ slot j)
    (hdue : ∀ y, y ≠ x → due' y = due y) (hj : j < m) (hx : due' x = some (next m n j)) :
    Window m n due' (Function.update slot j (slot j ++ [x])) := by
  have hpush := h.push hslot hdue hx (le_next m n j) (next_lt n hj)
  rwa [next_mod n hj] at hpush

theorem nodup_cons (h : Window m n due slot) (hslot : slot j = x :: xs) : x ∉ xs ∧ xs.Nodup := by
  rw [← List.nodup_cons, ← hslot]
  exact h.nodup j

/-- What was taken out of a slot is in none. -/
theorem not_mem_pop (h : Window m n due slot) (hslot : slot j = x :: xs) (i : ℕ) :
    x ∉ Function.update slot j xs i := by
  by_cases hi : i = j
  · rw [hi, Function.update_self]
    exact (h.nodup_cons hslot).1
  · rw [Function.update_of_ne hi]
    intro hx
    exact hi (h.slot_eq hx (hslot ▸ List.mem_cons_self))

/-- The first thing of a slot is taken out. -/
theorem pop (h : Window m n due slot) (hslot : slot j = x :: xs)
    (hdue : ∀ y, y ≠ x → due' y = due y) : Window m n due' (Function.update slot j xs) := by
  refine ⟨fun i => ?_, fun i y hy => ?_⟩
  · by_cases hi : i = j
    · rw [hi, Function.update_self]
      exact (h.nodup_cons hslot).2
    · rw [Function.update_of_ne hi]
      exact h.nodup i
  · have hne : y ≠ x := fun hyx => h.not_mem_pop hslot i (hyx ▸ hy)
    rw [hdue y hne]
    exact h.mem i y (mem_of_pop hslot hy)

end Window

end SlotWheel

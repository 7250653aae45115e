import Mathlib.Logic.Function.Basic
import Mastiff.Lib.Machine

/-!
# Threads that share a state

Any number of threads run one program over a shared state. `act` is an atomic step of a
thread : from the shared state and the place the thread is at, it gives the new ones and an
output. A run of `Threads.step` is any interleaving of such steps.

An invariant is a proof outline (`Outline`) : an assertion about the shared state, one at
each place, and one that the places of two threads meet. If a step of a thread keeps its own
assertion and those of the others (`Stable`), the outline holds after every run
(`outline_run`). The assertions can speak of the outputs so far. `someone_step` is for an
invariant that says that some thread is at a certain place.
-/

namespace Threads

open Machine

variable {τ σ π ι ο : Type}

/-- A shared state, and the place of each thread. -/
structure State (τ σ π : Type) where
  shared : σ
  place : τ → π

variable [DecidableEq τ]

/-- A thread makes a step. -/
def step (act : τ → ι → σ → π → (σ × π) × ο) (s : State τ σ π) (t : τ × ι) : State τ σ π × ο :=
  let r := act t.1 t.2 s.shared (s.place t.1)
  (⟨r.1.1, Function.update s.place t.1 r.1.2⟩, r.2)

@[simp] theorem step_shared (act : τ → ι → σ → π → (σ × π) × ο) (s : State τ σ π) (t : τ × ι) :
    (step act s t).1.shared = (act t.1 t.2 s.shared (s.place t.1)).1.1 :=
  rfl

@[simp] theorem step_output (act : τ → ι → σ → π → (σ × π) × ο) (s : State τ σ π) (t : τ × ι) :
    (step act s t).2 = (act t.1 t.2 s.shared (s.place t.1)).2 :=
  rfl

theorem step_place_self (act : τ → ι → σ → π → (σ × π) × ο) (s : State τ σ π) (t : τ × ι) :
    (step act s t).1.place t.1 = (act t.1 t.2 s.shared (s.place t.1)).1.2 :=
  Function.update_self ..

theorem step_place_of_ne (act : τ → ι → σ → π → (σ × π) × ο) (s : State τ σ π) {t : τ × ι} {u : τ}
    (h : u ≠ t.1) : (step act s t).1.place u = s.place u :=
  Function.update_of_ne h ..

/-- While `A` holds of the shared state, some thread is at a place that satisfies `P`. A step
keeps this if it does, whether the thread that moves is that one or it is another (`W`). -/
theorem someone_step (act : τ → ι → σ → π → (σ × π) × ο) {A : σ → Prop} {P : π → Prop}
    {s : State τ σ π} (h : A s.shared → ∃ u, P (s.place u)) (t : τ × ι)
    (hstep : ∀ W : Prop, (A s.shared → P (s.place t.1) ∨ W) →
      A (act t.1 t.2 s.shared (s.place t.1)).1.1 →
        P (act t.1 t.2 s.shared (s.place t.1)).1.2 ∨ W) :
    A (step act s t).1.shared → ∃ u, P ((step act s t).1.place u) := by
  have hsplit : A s.shared → P (s.place t.1) ∨ ∃ u, u ≠ t.1 ∧ P (s.place u) := by
    intro hA
    obtain ⟨u, hu⟩ := h hA
    by_cases hut : u = t.1
    · exact .inl (hut ▸ hu)
    · exact .inr ⟨u, hut, hu⟩
  intro hA
  rcases hstep _ hsplit hA with h | ⟨u, hut, hu⟩
  · exact ⟨t.1, by rwa [step_place_self]⟩
  · exact ⟨u, by rwa [step_place_of_ne act s hut]⟩

/-- The shared state satisfies `G`, every place `L`, and the places of two threads `D`, where
`os` is what was output so far. -/
structure Outline (G : List ο → σ → Prop) (L : τ → List ο → σ → π → Prop) (D : π → π → Prop)
    (os : List ο) (s : State τ σ π) : Prop where
  shared : G os s.shared
  place : ∀ t, L t os s.shared (s.place t)
  apart : ∀ t u, t ≠ u → D (s.place t) (s.place u)

/-- A step of a thread from a place where its assertion holds leads to one where it does, and
keeps the assertion of any other thread. -/
structure Stable (act : τ → ι → σ → π → (σ × π) × ο) (G : List ο → σ → Prop)
    (L : τ → List ο → σ → π → Prop) (D : π → π → Prop) : Prop where
  symm : ∀ p q, D p q → D q p
  own : ∀ t i os s p, G os s → L t os s p →
    G (os ++ [(act t i s p).2]) (act t i s p).1.1 ∧
      L t (os ++ [(act t i s p).2]) (act t i s p).1.1 (act t i s p).1.2
  other : ∀ t i u os s p q, t ≠ u → G os s → L t os s p → L u os s q → D p q →
    L u (os ++ [(act t i s p).2]) (act t i s p).1.1 q ∧ D (act t i s p).1.2 q

variable {act : τ → ι → σ → π → (σ × π) × ο} {G : List ο → σ → Prop}
  {L : τ → List ο → σ → π → Prop} {D : π → π → Prop}

theorem outline_step (h : Stable act G L D) {os : List ο} {s : State τ σ π}
    (hs : Outline G L D os s) (t : τ × ι) :
    Outline G L D (os ++ [(step act s t).2]) (step act s t).1 := by
  obtain ⟨hG, hL⟩ := h.own t.1 t.2 os s.shared (s.place t.1) hs.shared (hs.place t.1)
  have hother : ∀ u, t.1 ≠ u → _ := fun u hu =>
    h.other t.1 t.2 u os s.shared (s.place t.1) (s.place u) hu hs.shared (hs.place t.1) (hs.place u)
      (hs.apart t.1 u hu)
  refine ⟨hG, fun u => ?_, fun u v huv => ?_⟩
  · by_cases hu : u = t.1
    · rw [hu, step_place_self]
      exact hL
    · rw [step_place_of_ne act s hu]
      exact (hother u (Ne.symm hu)).1
  · by_cases hu : u = t.1
    · have hv : v ≠ t.1 := fun hv => huv (hu.trans hv.symm)
      rw [hu, step_place_self, step_place_of_ne act s hv]
      exact (hother v hv.symm).2
    · by_cases hv : v = t.1
      · rw [hv, step_place_self, step_place_of_ne act s hu]
        exact h.symm _ _ (hother u (Ne.symm hu)).2
      · rw [step_place_of_ne act s hu, step_place_of_ne act s hv]
        exact hs.apart u v huv

/-- A stable outline holds after every interleaving. -/
theorem outline_run (h : Stable act G L D) (is : List (τ × ι)) {s : State τ σ π}
    (hs : Outline G L D [] s) :
    Outline G L D (run (step act) s is).2 (run (step act) s is).1 :=
  run_history (Outline G L D) (fun _ _ t hs => outline_step h hs t) is hs

/-! ## A thread that runs alone -/

/-- While one thread runs alone, it is a machine on the shared state and its own place. -/
theorem run_alone (act : τ → ι → σ → π → (σ × π) × ο) (t : τ) (is : List ι) (s : State τ σ π) :
    run (step act) s (is.map (Prod.mk t)) =
      let r := run (fun sp i => act t i sp.1 sp.2) (s.shared, s.place t) is
      (⟨r.1.1, Function.update s.place t r.1.2⟩, r.2) := by
  induction is generalizing s with
  | nil => simp
  | cons i is ih => simp [ih, step]

end Threads

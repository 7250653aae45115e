import Mathlib.Data.List.Sort
import Mathlib.Data.Prod.Lex

/-!
# Sorted columns

The columns of a list of rows, each sorted on its own. The rows they make side by side are
the rows of the list exactly when any two rows are ordered the same way in every column
(`sortColumns_perm_iff`).
-/

namespace SortedColumns

variable {α β γ : Type} [LinearOrder α] [LinearOrder β] [LinearOrder γ]

/-- A list in descending order. -/
def descending (l : List α) : List α :=
  l.mergeSort fun a b => decide (b ≤ a)

theorem descending_perm (l : List α) : (descending l).Perm l :=
  List.mergeSort_perm l _

theorem pairwise_descending (l : List α) : (descending l).Pairwise fun a b => b ≤ a :=
  List.pairwise_mergeSort' (r := fun a b : α => b ≤ a) l

@[simp] theorem length_descending (l : List α) : (descending l).length = l.length :=
  (descending_perm l).length_eq

/-- There is one descending order. -/
theorem eq_descending {l m : List α} (hperm : m.Perm l) (hm : m.Pairwise fun a b => b ≤ a) :
    m = descending l :=
  (hperm.trans (descending_perm l).symm).eq_of_pairwise (fun _ _ _ _ hba hab => le_antisymm hab hba)
    hm (pairwise_descending l)

/-- A monotone function keeps the order. -/
theorem map_descending {f : α → β} (hf : Monotone f) (l : List α) :
    (descending l).map f = descending (l.map f) := by
  refine eq_descending ((descending_perm l).map f) ?_
  rw [List.pairwise_map]
  exact (pairwise_descending l).imp fun hab => hf hab

theorem descending_replicate (n : ℕ) (a : α) :
    descending (List.replicate n a) = List.replicate n a :=
  (eq_descending (List.Perm.refl _) (List.pairwise_replicate.2 (.inr (le_refl a)))).symm

theorem descending_singleton (a : α) : descending [a] = [a] :=
  descending_replicate 1 a

/-! ## Rows -/

/-- The rows that the columns make, each in descending order. -/
def sortColumns (l : List (α × β × γ)) : List (α × β × γ) :=
  (descending (l.map (·.1))).zip
    ((descending (l.map (·.2.1))).zip (descending (l.map (·.2.2))))

theorem pairwise_zip {σ τ : Type} {R : σ → σ → Prop} {S : τ → τ → Prop} {l : List σ} {m : List τ}
    (hl : l.Pairwise R) (hm : m.Pairwise S) :
    (l.zip m).Pairwise fun x y => R x.1 y.1 ∧ S x.2 y.2 := by
  induction l generalizing m with
  | nil => simp
  | cons a l ih =>
    cases m with
    | nil => simp
    | cons b m =>
      obtain ⟨hal, hl⟩ := List.pairwise_cons.1 hl
      obtain ⟨hbm, hm⟩ := List.pairwise_cons.1 hm
      refine List.pairwise_cons.2 ⟨fun y hy => ?_, ih hl hm⟩
      have hmem := List.of_mem_zip hy
      exact ⟨hal _ hmem.1, hbm _ hmem.2⟩

/-- The rows that sorted columns make are ordered. -/
theorem pairwise_sortColumns (l : List (α × β × γ)) :
    (sortColumns l).Pairwise fun x y => y ≤ x :=
  pairwise_zip (pairwise_descending _)
    (pairwise_zip (pairwise_descending _) (pairwise_descending _))

/-- Rows are those that sorted columns make exactly if their columns are sorted. -/
theorem eq_sortColumns_iff {l m : List (α × β × γ)} :
    m = sortColumns l ↔ m.map (·.1) = descending (l.map (·.1)) ∧
      m.map (·.2.1) = descending (l.map (·.2.1)) ∧
        m.map (·.2.2) = descending (l.map (·.2.2)) := by
  constructor
  · rintro rfl
    have hfst : (sortColumns l).map (·.1) = descending (l.map (·.1)) :=
      List.map_fst_zip (by simp)
    have hsnd : (sortColumns l).map (·.2) =
        (descending (l.map (·.2.1))).zip (descending (l.map (·.2.2))) :=
      List.map_snd_zip (by simp)
    refine ⟨hfst, ?_, ?_⟩
    · have hmap := congrArg (List.map Prod.fst) hsnd
      rw [List.map_map, List.map_fst_zip (by simp)] at hmap
      exact hmap
    · have hmap := congrArg (List.map Prod.snd) hsnd
      rw [List.map_map, List.map_snd_zip (by simp)] at hmap
      exact hmap
  · rintro ⟨h₁, h₂, h₃⟩
    rw [sortColumns, ← h₁, ← h₂, ← h₃, List.zip_map', List.zip_map']
    exact (List.map_id m).symm

/-- Rows that are in descending order are the rows their columns make. -/
theorem eq_sortColumns {l m : List (α × β × γ)} (hperm : m.Perm l)
    (hm : m.Pairwise fun x y => y ≤ x) : m = sortColumns l := by
  refine eq_sortColumns_iff.2 ⟨?_, ?_, ?_⟩
  · exact eq_descending (hperm.map _) (List.pairwise_map.2 (hm.imp fun h => h.1))
  · exact eq_descending (hperm.map _) (List.pairwise_map.2 (hm.imp fun h => h.2.1))
  · exact eq_descending (hperm.map _) (List.pairwise_map.2 (hm.imp fun h => h.2.2))

/-- A key that orders the rows by the columns one after the other. -/
def lexKey (x : α × β × γ) : α ×ₗ β ×ₗ γ :=
  toLex (x.1, toLex x.2)

theorem lexKey_mono : Monotone (lexKey : α × β × γ → α ×ₗ β ×ₗ γ) := by
  intro x y hxy
  exact Prod.Lex.toLex_mono ⟨hxy.1, Prod.Lex.toLex_mono hxy.2⟩

omit [LinearOrder α] [LinearOrder β] [LinearOrder γ] in
theorem lexKey_injective : Function.Injective (lexKey : α × β × γ → α ×ₗ β ×ₗ γ) := by
  intro x y hxy
  have hpair := toLex.injective hxy
  have htail := toLex.injective (congrArg Prod.snd hpair)
  exact Prod.ext (congrArg Prod.fst hpair) htail

/-- Rows any two of which are ordered have a descending order. -/
theorem exists_pairwise_perm {l : List (α × β × γ)}
    (hl : ∀ x ∈ l, ∀ y ∈ l, x ≤ y ∨ y ≤ x) :
    ∃ m : List (α × β × γ), m.Perm l ∧ m.Pairwise fun x y => y ≤ x := by
  have hperm := List.mergeSort_perm l fun x y => decide (lexKey y ≤ lexKey x)
  have hsorted : (l.mergeSort fun x y => decide (lexKey y ≤ lexKey x)).Pairwise
      fun x y => decide (lexKey y ≤ lexKey x) = true := by
    refine List.pairwise_mergeSort (fun x y z hxy hyz => ?_) (fun x y => ?_) l
    · simp only [decide_eq_true_eq] at hxy hyz ⊢
      exact hyz.trans hxy
    · simpa using le_total (lexKey y) (lexKey x)
  refine ⟨_, hperm, hsorted.imp_of_mem fun {x y} hx hy hxy => ?_⟩
  -- the key orders two rows as they are ordered, or they are equal
  rcases hl x (hperm.mem_iff.1 hx) y (hperm.mem_iff.1 hy) with hle | hle
  · have heq := le_antisymm (lexKey_mono hle) (of_decide_eq_true hxy)
    exact (lexKey_injective heq).ge
  · exact hle

/-- The columns of a list, each sorted, make its rows exactly if any two rows are ordered the
same way in every column. -/
theorem sortColumns_perm_iff {l : List (α × β × γ)} :
    (sortColumns l).Perm l ↔ ∀ x ∈ l, ∀ y ∈ l, x ≤ y ∨ y ≤ x := by
  constructor
  · intro hperm x hx y hy
    refine List.Pairwise.forall_of_forall_of_flip (R := fun x y => x ≤ y ∨ y ≤ x)
      (fun x _ => .inl (le_refl x)) ?_ ?_ (hperm.mem_iff.2 hx) (hperm.mem_iff.2 hy)
    · exact (pairwise_sortColumns l).imp fun hyx => .inr hyx
    · exact (pairwise_sortColumns l).imp fun hyx => .inl hyx
  · intro hl
    obtain ⟨m, hperm, hm⟩ := exists_pairwise_perm hl
    rw [← eq_sortColumns hperm hm]
    exact hperm

end SortedColumns

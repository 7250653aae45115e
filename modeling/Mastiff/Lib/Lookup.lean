import Mathlib.Data.List.Infix
import Mathlib.Data.List.Perm.Basic

/-!
# Looking up by part of a name

Lookups that search a name for another one and stop at the first hit. `finds` is the
substring test, and `forall_perm_find?_iff` says what such a lookup finds when the entries
may come in any order.
-/

namespace Lookup

/-- The name `t` occurs in `s`. -/
def finds (s t : String) : Bool :=
  t.toList <:+: s.toList

theorem finds_append_left (s t : String) : finds (s ++ t) s = true := by
  simpa [finds] using (List.prefix_append s.toList t.toList).isInfix

theorem finds_append_right (s t : String) : finds (s ++ t) t = true := by
  simpa [finds] using (List.suffix_append s.toList t.toList).isInfix

/-- What is found first in a list is so in every order exactly when it is of every hit, and
of a miss if there is no hit. -/
theorem forall_perm_find?_iff {α : Type} (l : List α) (p : α → Bool) (Q : Option α → Prop) :
    (∀ l' : List α, l'.Perm l → Q (l'.find? p)) ↔
      (∀ x ∈ l, p x = true → Q (some x)) ∧ ((∀ x ∈ l, p x = false) → Q none) := by
  constructor
  · intro h
    refine ⟨fun x hx hp => ?_, fun hno => ?_⟩
    · obtain ⟨l₁, l₂, rfl⟩ := List.append_of_mem hx
      have hfirst := h (x :: (l₁ ++ l₂)) List.perm_middle.symm
      rwa [List.find?_cons_of_pos hp] at hfirst
    · have hmiss := h l (List.Perm.refl l)
      rwa [List.find?_eq_none.2 (fun x hx => by simp [hno x hx])] at hmiss
  · rintro ⟨hhit, hmiss⟩ l' hl'
    cases hfind : l'.find? p with
    | none =>
      refine hmiss fun x hx => ?_
      simpa using List.find?_eq_none.1 hfind x (hl'.mem_iff.2 hx)
    | some x =>
      exact hhit x (hl'.mem_iff.1 (List.mem_of_find?_eq_some hfind)) (List.find?_some hfind)

end Lookup

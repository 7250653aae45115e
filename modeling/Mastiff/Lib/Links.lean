import Mathlib.Data.List.Chain
import Mathlib.Data.List.Nodup

/-!
# Linked lists

Nodes with a pointer each to the node after them, which lead in a circle (`Circle`) or come to
an end (`Leads`).
-/

namespace Links

variable {α : Type} {next next' : α → Option α} {ps : List α} {p l q : α}

/-- The nodes are different, each leads to the one after it, and the last one to the first. -/
structure Circle (next : α → Option α) (ps : List α) : Prop where
  nodup : ps.Nodup
  chain : List.IsChain (fun a b => next a = some b) (ps ++ ps.head?.toList)

theorem circle_nil (next : α → Option α) : Circle next [] :=
  ⟨List.nodup_nil, .nil⟩

theorem circle_singleton (hp : next p = some p) : Circle next [p] :=
  ⟨List.nodup_singleton p, List.isChain_pair.2 hp⟩

/-- A node leads to the one that comes after it in the circle. -/
theorem Circle.next_eq (h : Circle next ps) (before after : List α)
    (hsplit : ps ++ ps.head?.toList = before ++ p :: q :: after) : next p = some q :=
  List.isChain_iff_forall_rel_of_append_cons_cons.1 h.chain hsplit

theorem Circle.ne_head (h : Circle next (p :: ps)) (hq : q ∈ ps) : q ≠ p := by
  rintro rfl
  exact (List.nodup_cons.1 h.nodup).1 hq

/-- Pointers outside the circle do not count. -/
theorem Circle.congr (h : Circle next ps) (hsame : ∀ a ∈ ps, next' a = next a) :
    Circle next' ps := by
  refine ⟨h.nodup, h.chain.imp_of_mem_imp fun a b ha _ hab => ?_⟩
  have hmem : a ∈ ps := by
    rcases List.mem_append.1 ha with ha | ha
    · exact ha
    · exact List.mem_of_mem_head? (Option.mem_toList.1 ha)
  rw [hsame a hmem]
  exact hab

/-- A node is inserted between the last one and the first. -/
theorem Circle.insert (h : Circle next ps) (hp : ps.head? = some p) (hl : ps.getLast? = some l)
    (hq : q ∉ ps) (hsame : ∀ a ≠ l, a ≠ q → next' a = next a) (hl' : next' l = some q)
    (hq' : next' q = some p) : Circle next' (ps ++ [q]) := by
  obtain ⟨ps, rfl⟩ := List.getLast?_eq_some_iff.1 hl
  have hnodup := h.nodup
  refine ⟨List.nodup_append.2 ⟨hnodup, List.nodup_singleton q, ?_⟩, ?_⟩
  · intro a ha b hb heq
    rw [List.mem_singleton.1 hb] at heq
    exact hq (heq ▸ ha)
  · have hchain : List.IsChain (fun a b => next a = some b) (ps ++ [l]) := h.chain.left_of_append
    have hhead : (ps ++ [l] ++ [q]).head?.toList = [p] := by
      rw [List.head?_append, hp]
      rfl
    have hcircle : ps ++ [l] ++ [q] ++ [p] = ps ++ l :: [q, p] := by simp
    rw [hhead, hcircle, List.isChain_split]
    refine ⟨?_, List.isChain_cons_cons.2 ⟨hl', List.isChain_pair.2 hq'⟩⟩
    rw [List.isChain_iff_forall_rel_of_append_cons_cons] at hchain ⊢
    intro a b l₁ l₂ hsplit
    -- Only the last node leads elsewhere, and no node before it is the last one.
    have ha : a ∈ ps := by
      have hdrop := congrArg List.dropLast hsplit
      rw [List.dropLast_concat] at hdrop
      rw [hdrop]
      simp
    have hal : a ≠ l := by
      rintro rfl
      exact (List.nodup_append.1 hnodup).2.2 a ha a (List.mem_singleton_self a) rfl
    have haq : a ≠ q := by
      rintro rfl
      exact hq (List.mem_append_left _ ha)
    rw [hsame a hal haq]
    exact hchain hsplit

/-- The pointer leads to the nodes in order, and the last one nowhere. -/
def Leads (next : α → Option α) : Option α → List α → Prop
  | p, [] => p = none
  | p, q :: qs => p = some q ∧ Leads next (next q) qs

theorem Leads.congr {r : Option α} (h : Leads next r ps) (hsame : ∀ a ∈ ps, next' a = next a) :
    Leads next' r ps := by
  induction ps generalizing r with
  | nil => exact h
  | cons a ps ih =>
    refine ⟨h.1, ?_⟩
    rw [hsame a List.mem_cons_self]
    exact ih h.2 fun b hb => hsame b (List.mem_cons_of_mem a hb)

theorem Leads.eq_nil (h : Leads next none ps) : ps = [] := by
  cases ps with
  | nil => rfl
  | cons a ps => exact absurd h.1 nofun

theorem Leads.exists_cons (h : Leads next (some p) ps) :
    ∃ qs, ps = p :: qs ∧ Leads next (next p) qs := by
  cases ps with
  | nil => exact absurd h nofun
  | cons a ps =>
    obtain ⟨hp, htail⟩ := h
    obtain rfl := Option.some.inj hp
    exact ⟨ps, rfl, htail⟩

/-- The pointers determine the nodes. -/
theorem Leads.unique {r : Option α} {qs : List α} (h : Leads next r ps) (h' : Leads next r qs) :
    ps = qs := by
  induction ps generalizing r qs with
  | nil =>
    rw [h] at h'
    exact h'.eq_nil.symm
  | cons a ps ih =>
    rw [h.1] at h'
    obtain ⟨qs, rfl, htail⟩ := h'.exists_cons
    rw [ih h.2 htail]

end Links

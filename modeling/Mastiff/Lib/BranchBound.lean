import Mathlib.Data.Set.Basic
import Mathlib.Order.Defs.LinearOrder

/-!
# Branch and bound

A search for the leaf of a tree with the highest score, in which every node has a bound on the
scores below it (`Tree`). A node is searched for what beats a given score, and answers with a
best leaf or with something that does not beat it (`Answer`).

`Found` is what holds while the children of a node are searched one after the other, each for
what beats the best one so far : `Found.search` takes the answer of a child, `Found.prune` leaves
out children whose bounds do not beat the given score, and `Found.answer` is the answer.
-/

namespace BranchBound

variable {N S : Type} [LinearOrder S]

/-- A tree whose nodes have a height, and bounds that do not grow on the way down. The bound of a
leaf is its score. -/
structure Tree (N S : Type) [LinearOrder S] where
  children : ℕ → N → List N
  bound : ℕ → N → S
  bound_le : ∀ h c, ∀ c' ∈ children h c, bound h c' ≤ bound (h + 1) c

namespace Tree

variable (T : Tree N S)

/-- The leaves below a node of height `h`. -/
def leaves : ℕ → N → Set N
  | 0, c => {c}
  | h + 1, c => {l | ∃ c' ∈ T.children h c, l ∈ leaves h c'}

theorem score_le_bound : ∀ {h : ℕ} {c l : N}, l ∈ T.leaves h c → T.bound 0 l ≤ T.bound h c
  | 0, _, _, hl => (congrArg (T.bound 0) hl).le
  | h + 1, c, _, ⟨c', hc', hl⟩ => (score_le_bound hl).trans (T.bound_le h c c' hc')

/-- The leaves below some nodes of height `h`. -/
def below (h : ℕ) (cs : List N) : Set N :=
  {l | ∃ c ∈ cs, l ∈ T.leaves h c}

theorem below_cons (h : ℕ) (c : N) (cs : List N) :
    T.below h (c :: cs) = T.leaves h c ∪ T.below h cs := by
  ext l
  constructor
  · rintro ⟨c', hc', hl⟩
    rcases List.mem_cons.1 hc' with rfl | hc'
    · exact .inl hl
    · exact .inr ⟨c', hc', hl⟩
  · rintro (hl | ⟨c', hc', hl⟩)
    · exact ⟨c, List.mem_cons_self, hl⟩
    · exact ⟨c', List.mem_cons_of_mem c hc', hl⟩

theorem score_le_of_below {h : ℕ} {cs : List N} {min : S} (hcs : ∀ c ∈ cs, T.bound h c ≤ min)
    {l : N} (hl : l ∈ T.below h cs) : T.bound 0 l ≤ min := by
  obtain ⟨c, hc, hl⟩ := hl
  exact (T.score_le_bound hl).trans (hcs c hc)

end Tree

variable {score : N → S} {L L' : Set N} {min : S} {best r : N} {sb sr : S}

/-- The answer `r`, said to have the score `sr`, to a search for what beats `min`. -/
def Answer (score : N → S) (L : Set N) (min : S) (r : N) (sr : S) : Prop :=
  (r ∈ L ∧ sr = score r ∧ ∀ l ∈ L, score l ≤ sr) ∨ (sr ≤ min ∧ ∀ l ∈ L, score l ≤ min)

/-- The best one so far, said to have the score `sb`, where a score of `min` is that of none. -/
structure Found (score : N → S) (L : Set N) (min : S) (best : N) (sb : S) : Prop where
  min_le : min ≤ sb
  le : ∀ l ∈ L, score l ≤ sb
  mem : sb = min ∨ best ∈ L ∧ sb = score best

namespace Found

theorem start (score : N → S) (min : S) (best : N) : Found score ∅ min best min where
  min_le := le_rfl
  le _ hl := absurd hl (Set.notMem_empty _)
  mem := .inl rfl

/-- The answer to a search for more beats the best one so far, and takes its place, -/
theorem search_of_lt (hf : Found score L min best sb) (ha : Answer score L' sb r sr)
    (hlt : sb < sr) : Found score (L ∪ L') min r sr := by
  rcases ha with ⟨hr, hsr, hle⟩ | ⟨hle, -⟩
  · refine ⟨hf.min_le.trans hlt.le, fun l hl => ?_, .inr ⟨.inr hr, hsr⟩⟩
    rcases hl with hl | hl
    · exact (hf.le l hl).trans hlt.le
    · exact hle l hl
  · exact absurd hlt (not_lt.2 hle)

/-- or it does not, and nothing there does. -/
theorem search_of_le (hf : Found score L min best sb) (ha : Answer score L' sb r sr)
    (hsr : sr ≤ sb) : Found score (L ∪ L') min best sb := by
  refine ⟨hf.min_le, fun l hl => ?_, hf.mem.imp_right fun h => ⟨.inl h.1, h.2⟩⟩
  rcases hl with hl | hl
  · exact hf.le l hl
  · rcases ha with ⟨-, -, hle⟩ | ⟨-, hle⟩
    · exact (hle l hl).trans hsr
    · exact hle l hl

/-- What does not beat `min` need not be searched. -/
theorem prune (hf : Found score L min best sb) (hle : ∀ l ∈ L', score l ≤ min) :
    Found score (L ∪ L') min best sb := by
  refine ⟨hf.min_le, fun l hl => ?_, hf.mem.imp_right fun h => ⟨.inl h.1, h.2⟩⟩
  rcases hl with hl | hl
  · exact hf.le l hl
  · exact (hle l hl).trans hf.min_le

theorem answer (hf : Found score L min best sb) : Answer score L min best sb := by
  rcases hf.mem with rfl | ⟨hbest, hsb⟩
  · exact .inr ⟨le_rfl, hf.le⟩
  · exact .inl ⟨hbest, hsb, hf.le⟩

end Found

/-- An answer that beats `min` is a best leaf, -/
theorem Answer.of_lt (ha : Answer score L min r sr) (hlt : min < sr) :
    r ∈ L ∧ sr = score r ∧ ∀ l ∈ L, score l ≤ sr :=
  ha.resolve_right fun h => absurd hlt (not_lt.2 h.1)

/-- and if it does not, no leaf does. -/
theorem Answer.of_le (ha : Answer score L min r sr) (hle : sr ≤ min) :
    ∀ l ∈ L, score l ≤ min := by
  rcases ha with ⟨-, -, h⟩ | ⟨-, h⟩
  · exact fun l hl => (h l hl).trans hle
  · exact h

end BranchBound

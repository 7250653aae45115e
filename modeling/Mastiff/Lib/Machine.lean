import Mathlib.Data.List.Induction
import Mathlib.Logic.Function.Iterate
import Mathlib.Order.RelClasses
import Mastiff.Lib.Memory

/-!
# Machines and their runs

A machine answers each input with a new state and an output. `run` feeds it a list of
inputs (`run_history` is its induction, `run_simulates` relates the runs of two machines),
`trace` keeps its steps, and `tryRun` does the same as `run` for a machine whose step can
fail. What every step from a good state satisfies, every step of a run satisfies
(`forall_trace`), and a fallible machine that is simulated by a total one on the inputs it
is promised never fails and gives the same outputs (`tryRun_refines`).

When one step keeps a property exactly under a condition on the state before it, a whole
run keeps it exactly when every step meets the condition (`forall_trace_iff`, and
`along_congr` for a step that can fail). The condition can be one on the inputs that came
before (`forall_history_iff`, `along_iff_forall_history`) or on the steps before
(`forall_trace_iff_forall_history`), and so can a law of the outputs (`Lawful`).

A machine without inputs is a loop, and comes to its end when a rank sinks
(`exists_iterate_of_rank`).
-/

namespace Machine

open Memory

variable {σ ι ο α ε : Type}

/-! ## Total machines -/

/-- Feed a list of inputs, collecting the outputs in order. -/
def run (step : σ → ι → σ × ο) : σ → List ι → σ × List ο
  | s, [] => (s, [])
  | s, i :: is =>
    let r := step s i
    let rest := run step r.1 is
    (rest.1, r.2 :: rest.2)

@[simp] theorem run_nil (step : σ → ι → σ × ο) (s : σ) : run step s [] = (s, []) :=
  rfl

@[simp] theorem run_cons (step : σ → ι → σ × ο) (s : σ) (i : ι) (is : List ι) :
    run step s (i :: is) =
      ((run step (step s i).1 is).1, (step s i).2 :: (run step (step s i).1 is).2) :=
  rfl

theorem run_append (step : σ → ι → σ × ο) (s : σ) (is js : List ι) :
    run step s (is ++ js) =
      ((run step (run step s is).1 js).1,
        (run step s is).2 ++ (run step (run step s is).1 js).2) := by
  induction is generalizing s with
  | nil => simp
  | cons i is ih => simp [ih]

theorem run_snoc (step : σ → ι → σ × ο) (s : σ) (is : List ι) (i : ι) :
    run step s (is ++ [i]) =
      ((step (run step s is).1 i).1, (run step s is).2 ++ [(step (run step s is).1 i).2]) := by
  rw [run_append]
  simp

/-- The state after one input over and over. -/
theorem run_replicate (step : σ → ι → σ × ο) (i : ι) (n : ℕ) (s : σ) :
    (run step s (List.replicate n i)).1 = (fun s => (step s i).1)^[n] s := by
  induction n generalizing s with
  | zero => rfl
  | succ n ih =>
    rw [List.replicate_succ, run_cons, Function.iterate_succ_apply]
    exact ih (step s i).1

/-- What holds of no outputs and the first state, and is kept by a step with its output,
holds of the outputs and the last state of every run. -/
theorem run_history {step : σ → ι → σ × ο} (R : List ο → σ → Prop)
    (hstep : ∀ os s i, R os s → R (os ++ [(step s i).2]) (step s i).1) (is : List ι) {s : σ}
    (hs : R [] s) : R (run step s is).2 (run step s is).1 := by
  induction is using List.reverseRecOn with
  | nil => exact hs
  | append_singleton is i ih =>
    rw [run_snoc]
    exact hstep _ _ i ih

/-- If related states stay related, and the output is what `f` makes of the other one, then the
runs from related states stay related, and so are their outputs. -/
theorem run_simulates {step : σ → ι → σ × ο} {α ο' : Type} {spec : α → ι → α × ο'} {f : ο' → ο}
    (R : σ → α → Prop)
    (hstep : ∀ s a i, R s a → R (step s i).1 (spec a i).1 ∧ (step s i).2 = f (spec a i).2)
    (is : List ι) {s : σ} {a : α} (hs : R s a) :
    R (run step s is).1 (run spec a is).1 ∧ (run step s is).2 = (run spec a is).2.map f := by
  induction is generalizing s a with
  | nil => exact ⟨hs, rfl⟩
  | cons i is ih =>
    obtain ⟨hR, ho⟩ := hstep s a i hs
    obtain ⟨hrun, hos⟩ := ih hR
    exact ⟨hrun, by rw [run_cons, run_cons, List.map_cons, ho, hos]⟩

/-! ## Traces -/

/-- One step of a run, with the states on both sides of it. -/
structure Step (σ ι ο : Type) where
  before : σ
  input : ι
  after : σ
  output : ο

/-- The steps of a run, in order. -/
def trace (step : σ → ι → σ × ο) : σ → List ι → List (Step σ ι ο)
  | _, [] => []
  | s, i :: is => ⟨s, i, (step s i).1, (step s i).2⟩ :: trace step (step s i).1 is

/-- A step of a run is made by one of its inputs. -/
theorem input_mem_of_mem_trace {step : σ → ι → σ × ο} {is : List ι} {s : σ} {t : Step σ ι ο}
    (ht : t ∈ trace step s is) : t.input ∈ is := by
  induction is generalizing s with
  | nil => cases ht
  | cons i is ih =>
    rcases List.mem_cons.1 ht with rfl | ht
    · exact List.mem_cons_self ..
    · exact List.mem_cons_of_mem _ (ih ht)

/-- If a step from a good state ends in a good state and satisfies `Q`, then every step of
a run from a good state satisfies `Q`. -/
theorem forall_trace {step : σ → ι → σ × ο} (I : σ → Prop) {Q : Step σ ι ο → Prop}
    (hstep : ∀ s i, I s → I (step s i).1 ∧ Q ⟨s, i, (step s i).1, (step s i).2⟩)
    (is : List ι) {s : σ} (hs : I s) : ∀ t ∈ trace step s is, Q t := by
  induction is generalizing s with
  | nil =>
    intro t ht
    cases ht
  | cons i is ih =>
    obtain ⟨hI, hQ⟩ := hstep s i hs
    intro t ht
    rcases List.mem_cons.1 ht with rfl | ht
    · exact hQ
    · exact ih hI t ht

/-- If a step from a good state satisfies `Q` exactly when it meets `Good`, and a step that
meets it ends in a good state, then every step of a run from a good state satisfies `Q`
exactly when every step meets `Good`. -/
theorem forall_trace_iff_of_step {step : σ → ι → σ × ο} (J : σ → Prop) {Q : Step σ ι ο → Prop}
    {Good : σ → ι → Prop}
    (hQ : ∀ s i, J s → (Q ⟨s, i, (step s i).1, (step s i).2⟩ ↔ Good s i))
    (hJ : ∀ s i, J s → Good s i → J (step s i).1) (is : List ι) {s : σ} (hs : J s) :
    (∀ t ∈ trace step s is, Q t) ↔ ∀ t ∈ trace step s is, Good t.before t.input := by
  induction is generalizing s with
  | nil => simp [trace]
  | cons i is ih =>
    simp only [trace, List.forall_mem_cons, hQ s i hs]
    exact and_congr_right fun hgood => ih (hJ s i hs hgood)

/-- If a step from a good state keeps `P` exactly when it meets `Good`, then `P` holds
after every step of a run from a good state with `P` exactly when every step meets
`Good`. -/
theorem forall_trace_iff {step : σ → ι → σ × ο} (I : σ → Prop) {P : σ → Prop} {Good : σ → ι → Prop}
    (hI : ∀ s i, I s → I (step s i).1)
    (hP : ∀ s i, I s → P s → (P (step s i).1 ↔ Good s i))
    (is : List ι) {s : σ} (hs : I s) (hPs : P s) :
    (∀ t ∈ trace step s is, P t.after) ↔ ∀ t ∈ trace step s is, Good t.before t.input :=
  forall_trace_iff_of_step (fun s => I s ∧ P s) (fun s i h => hP s i h.1 h.2)
    (fun s i h hgood => ⟨hI s i h.1, (hP s i h.1 h.2).2 hgood⟩) is ⟨hs, hPs⟩

theorem mem_trace_append {step : σ → ι → σ × ο} {s : σ} {is js : List ι} {t : Step σ ι ο} :
    t ∈ trace step s (is ++ js) ↔ t ∈ trace step s is ∨ t ∈ trace step (run step s is).1 js := by
  induction is generalizing s with
  | nil => simp [trace]
  | cons i is ih => simp [trace, ih, or_assoc]

/-- If a step from a good state that meets `Good` satisfies `Q` and ends in a good state,
then every step of a run from a good state whose steps all meet `Good` satisfies `Q`. -/
theorem forall_trace_of_good {step : σ → ι → σ × ο} (J : σ → Prop) {Q : Step σ ι ο → Prop}
    {Good : σ → ι → Prop}
    (hstep : ∀ s i, J s → Good s i → Q ⟨s, i, (step s i).1, (step s i).2⟩ ∧ J (step s i).1)
    (is : List ι) {s : σ} (hs : J s) (hgood : ∀ t ∈ trace step s is, Good t.before t.input) :
    ∀ t ∈ trace step s is, Q t := by
  induction is generalizing s with
  | nil =>
    intro t ht
    cases ht
  | cons i is ih =>
    simp only [trace, List.forall_mem_cons] at hgood ⊢
    obtain ⟨hQ, hJ⟩ := hstep s i hs hgood.1
    exact ⟨hQ, ih hJ hgood.2⟩

/-- If moreover the inputs `E` always meet `Good`, and after a step that does not meet it some
of them lead to a step without `Q`, then the steps of a run all meet `Good` exactly when `Q`
holds however the inputs `E` go on after any part of the run. -/
theorem forall_prefix_iff {step : σ → ι → σ × ο} (J : σ → Prop) {Q : Step σ ι ο → Prop}
    {Good : σ → ι → Prop} {E : ι → Prop}
    (hstep : ∀ s i, J s → Good s i → Q ⟨s, i, (step s i).1, (step s i).2⟩ ∧ J (step s i).1)
    (hE : ∀ s i, E i → Good s i)
    (hbad : ∀ s i, ¬Good s i →
      ∃ js, (∀ j ∈ js, E j) ∧ ∃ t ∈ trace step (step s i).1 js, ¬Q t)
    (is : List ι) {s : σ} (hs : J s) :
    (∀ us, us <+: is → ∀ js, (∀ j ∈ js, E j) → ∀ t ∈ trace step s (us ++ js), Q t) ↔
      ∀ t ∈ trace step s is, Good t.before t.input := by
  constructor
  · intro h
    clear hs
    induction is generalizing s with
    | nil =>
      intro t ht
      cases ht
    | cons i is ih =>
      rw [trace, List.forall_mem_cons]
      constructor
      · by_contra hno
        obtain ⟨js, hjs, t, ht, hQ⟩ := hbad s i hno
        exact hQ (h [i] (List.prefix_append [i] is) js hjs t (List.mem_cons_of_mem _ ht))
      · refine ih fun us hus js hjs t ht => ?_
        exact h (i :: us) (List.cons_prefix_cons.2 ⟨rfl, hus⟩) js hjs t (List.mem_cons_of_mem _ ht)
  · rintro hgood us ⟨vs, rfl⟩ js hjs
    refine forall_trace_of_good J hstep _ hs fun t ht => ?_
    rcases mem_trace_append.1 ht with ht | ht
    · exact hgood t (mem_trace_append.2 (.inl ht))
    · exact forall_trace (fun _ => True) (Q := fun t => E t.input → Good t.before t.input)
        (fun s i _ => ⟨trivial, hE s i⟩) js trivial t ht (hjs _ (input_mem_of_mem_trace ht))

/-! ## Histories -/

/-- What holds of every input and those before it, for a list with a first input. -/
theorem forall_split_cons {P : List ι → ι → Prop} {j : ι} {is : List ι} :
    (∀ past i rest, j :: is = past ++ i :: rest → P past i) ↔
      P [] j ∧ ∀ past i rest, is = past ++ i :: rest → P (j :: past) i := by
  constructor
  · intro h
    exact ⟨h [] j is rfl, fun past i rest hsplit => h (j :: past) i rest (by rw [hsplit]; rfl)⟩
  · rintro ⟨hfirst, hrest⟩ past i rest hsplit
    cases past with
    | nil =>
      obtain ⟨rfl, -⟩ := List.cons.inj hsplit
      exact hfirst
    | cons k past =>
      obtain ⟨rfl, htail⟩ := List.cons.inj hsplit
      exact hrest past i rest htail

/-- If `Q` of an input after others is `Good` of it, where the state stands for those before,
and after one that is the state stands for them all, then `Q` holds of every input of a run
exactly when they are all `Good`. -/
theorem forall_history_iff {step : σ → ι → σ × ο} {Q Good : List ι → ι → Prop}
    (R : List ι → σ → Prop) {s : σ}
    (hQ : ∀ past i, R past (run step s past).1 → (Q past i ↔ Good past i))
    (hR : ∀ past s i, R past s → Good past i → R (past ++ [i]) (step s i).1)
    (is : List ι) (hs : R [] s) :
    (∀ past i rest, is = past ++ i :: rest → Q past i) ↔
      ∀ past i rest, is = past ++ i :: rest → Good past i := by
  induction is generalizing s Q Good R with
  | nil =>
    have hnil : ∀ (past : List ι) i rest, [] ≠ past ++ i :: rest := fun past i rest h =>
      List.append_ne_nil_of_right_ne_nil past (List.cons_ne_nil i rest) h.symm
    exact iff_of_true (fun past i rest h => absurd h (hnil past i rest))
      fun past i rest h => absurd h (hnil past i rest)
  | cons j is ih =>
    rw [forall_split_cons, forall_split_cons, hQ [] j hs]
    refine and_congr_right fun hgood => ?_
    exact ih (fun past => R (j :: past)) (fun past i h => hQ (j :: past) i h)
      (fun past s i h => hR (j :: past) s i h) (hR [] s j hs hgood)

/-- If a step satisfies `Q` exactly when it is `Good` after those before it, which the state stands
for, then every step of a run satisfies `Q` exactly when every step is `Good` after those before
it. -/
theorem forall_trace_iff_forall_history {step : σ → ι → σ × ο} {Q : Step σ ι ο → Prop}
    {Good : List (Step σ ι ο) → Step σ ι ο → Prop} (J : List (Step σ ι ο) → σ → Prop)
    (hQ : ∀ past s i, J past s → (Q ⟨s, i, (step s i).1, (step s i).2⟩ ↔
      Good past ⟨s, i, (step s i).1, (step s i).2⟩))
    (hJ : ∀ past s i, J past s → Good past ⟨s, i, (step s i).1, (step s i).2⟩ →
      J (past ++ [⟨s, i, (step s i).1, (step s i).2⟩]) (step s i).1)
    (is : List ι) {past : List (Step σ ι ο)} {s : σ} (hs : J past s) :
    (∀ t ∈ trace step s is, Q t) ↔
      ∀ pre t post, trace step s is = pre ++ t :: post → Good (past ++ pre) t := by
  induction is generalizing past s with
  | nil =>
    refine iff_of_true (fun t ht => by cases ht) fun pre t post hsplit => ?_
    cases pre <;> cases hsplit
  | cons i is ih =>
    rw [trace, List.forall_mem_cons, hQ past s i hs,
      forall_split_cons (P := fun pre t => Good (past ++ pre) t), List.append_nil]
    refine and_congr_right fun hgood => (ih (hJ past s i hs hgood)).trans ?_
    simp only [List.append_assoc, List.singleton_append]

/-- Every output is allowed by those before it. -/
def Lawful (Law : List ο → ο → Prop) (os : List ο) : Prop :=
  ∀ past o rest, os = past ++ o :: rest → Law past o

theorem lawful_nil (Law : List ο → ο → Prop) : Lawful Law [] :=
  fun past o rest h =>
    absurd h.symm (List.append_ne_nil_of_right_ne_nil past (List.cons_ne_nil o rest))

theorem lawful_snoc {Law : List ο → ο → Prop} {os : List ο} {o : ο} :
    Lawful Law (os ++ [o]) ↔ Lawful Law os ∧ Law os o := by
  constructor
  · refine fun h => ⟨fun past o' rest heq => ?_, h os o [] rfl⟩
    refine h past o' (rest ++ [o]) ?_
    rw [heq, List.append_assoc, List.cons_append]
  · rintro ⟨h, ho⟩ past o' rest heq
    rcases List.eq_nil_or_concat rest with rfl | ⟨rest, last, rfl⟩
    · obtain ⟨rfl, hlast⟩ := List.append_inj' heq rfl
      rw [← List.singleton_inj.mp hlast]
      exact ho
    · rw [List.concat_eq_append, ← List.cons_append, ← List.append_assoc] at heq
      exact h past o' rest (List.append_inj' heq rfl).1

/-! ## Loops -/

/-- A loop whose rank sinks at every step from a good state that is not at the end comes to the
end, in a good state. -/
theorem exists_iterate_of_rank {ρ : Type} [LT ρ] [WellFoundedLT ρ] {step : σ → σ}
    {done I : σ → Prop} (rank : σ → ρ)
    (hstep : ∀ s, I s → ¬done s → I (step s) ∧ rank (step s) < rank s) {s : σ} (hs : I s) :
    ∃ n, done (step^[n] s) ∧ I (step^[n] s) := by
  induction hrank : rank s using WellFoundedLT.induction generalizing s with
  | ind r ih =>
    by_cases hdone : done s
    · exact ⟨0, hdone, hs⟩
    · obtain ⟨hI, hlt⟩ := hstep s hs hdone
      obtain ⟨n, hn⟩ := ih (rank (step s)) (hrank ▸ hlt) hI rfl
      exact ⟨n + 1, hn⟩

/-! ## Fallible machines -/

/-- Feed a list of inputs to a step that can fail, stopping at the first failure. -/
def tryRun (step : σ → ι → Except ε (σ × ο)) : σ → List ι → Except ε (σ × List ο)
  | s, [] => .ok (s, [])
  | s, i :: is => do
    let r ← step s i
    let rest ← tryRun step r.1 is
    return (rest.1, r.2 :: rest.2)

theorem tryRun_cons_of_ok {step : σ → ι → Except ε (σ × ο)} {s s' : σ} {i : ι} {o : ο}
    (h : step s i = .ok (s', o)) (is : List ι) :
    tryRun step s (i :: is) = do
      let rest ← tryRun step s' is
      return (rest.1, o :: rest.2) := by
  rw [tryRun, h]
  rfl

/-- A run does not fail exactly when the rest of it after a step that does not fail. -/
theorem exists_tryRun_cons_iff {step : σ → ι → Except ε (σ × ο)} {s s' : σ} {i : ι} {o : ο}
    (h : step s i = .ok (s', o)) (is : List ι) :
    (∃ s'' os, tryRun step s (i :: is) = .ok (s'', os)) ↔
      ∃ s'' os, tryRun step s' is = .ok (s'', os) := by
  rw [tryRun_cons_of_ok h]
  constructor
  · rintro ⟨s'', os, hrun⟩
    obtain ⟨⟨t, os'⟩, ht, -⟩ := bind_eq_ok.1 hrun
    exact ⟨t, os', ht⟩
  · rintro ⟨s'', os, hrun⟩
    exact ⟨s'', o :: os, by rw [hrun]; rfl⟩

theorem tryRun_snoc_of_ok {step : σ → ι → Except ε (σ × ο)} {s s' s'' : σ} {is : List ι} {i : ι}
    {os : List ο} {o : ο} (his : tryRun step s is = .ok (s', os)) (hi : step s' i = .ok (s'', o)) :
    tryRun step s (is ++ [i]) = .ok (s'', os ++ [o]) := by
  induction is generalizing s os with
  | nil =>
    obtain ⟨rfl, rfl⟩ : s = s' ∧ os = [] := by simpa [tryRun, eq_comm] using his
    simp [tryRun, hi]
  | cons j is ih =>
    simp only [tryRun, bind_eq_ok, pure_eq_ok, Except.ok.injEq, Prod.mk.injEq] at his
    obtain ⟨r, hr, rest, hrest, rfl, rfl⟩ := his
    rw [List.cons_append, tryRun, hr, ok_bind, ih hrest]
    rfl

/-- A run in two parts. -/
theorem tryRun_append (step : σ → ι → Except ε (σ × ο)) (s : σ) (is js : List ι) :
    tryRun step s (is ++ js) = do
      let r ← tryRun step s is
      let rest ← tryRun step r.1 js
      return (rest.1, r.2 ++ rest.2) := by
  induction is generalizing s with
  | nil =>
    cases h : tryRun step s js with
    | error e => simp [tryRun, h]
    | ok r => simp [tryRun, h]
  | cons i is ih => simp [tryRun, ih]

/-- A run goes through exactly when its parts do. -/
theorem tryRun_append_eq_ok {step : σ → ι → Except ε (σ × ο)} {s s'' : σ} {is js : List ι}
    {os : List ο} : tryRun step s (is ++ js) = .ok (s'', os) ↔
      ∃ s' os₁ os₂, tryRun step s is = .ok (s', os₁) ∧ tryRun step s' js = .ok (s'', os₂) ∧
        os = os₁ ++ os₂ := by
  simp only [tryRun_append, bind_eq_ok, pure_eq_ok, Except.ok.injEq, Prod.mk.injEq, Prod.exists]
  constructor
  · rintro ⟨s', os₁, h₁, t, os₂, h₂, rfl, rfl⟩
    exact ⟨s', os₁, os₂, h₁, h₂, rfl⟩
  · rintro ⟨s', os₁, os₂, h₁, h₂, rfl⟩
    exact ⟨s', os₁, h₁, s'', os₂, h₂, rfl, rfl⟩

theorem tryRun_singleton_eq_ok {step : σ → ι → Except ε (σ × ο)} {s s' : σ} {i : ι} {os : List ο} :
    tryRun step s [i] = .ok (s', os) ↔ ∃ o, step s i = .ok (s', o) ∧ os = [o] := by
  simp only [tryRun, bind_eq_ok, pure_eq_ok, Except.ok.injEq, Prod.mk.injEq, Prod.exists]
  constructor
  · rintro ⟨t, o, h, t', os', ⟨rfl, rfl⟩, rfl, rfl⟩
    exact ⟨o, h, rfl⟩
  · rintro ⟨o, h, rfl⟩
    exact ⟨s', o, h, s', [], ⟨rfl, rfl⟩, rfl, rfl⟩

/-- The induction over the outputs and the state of a run that goes through. -/
theorem tryRun_history {step : σ → ι → Except ε (σ × ο)} (R : List ο → σ → Prop)
    (hstep : ∀ os s i s' o, R os s → step s i = .ok (s', o) → R (os ++ [o]) s') {is : List ι}
    {s s' : σ} {os : List ο} (hs : R [] s) (h : tryRun step s is = .ok (s', os)) : R os s' := by
  induction is using List.reverseRecOn generalizing s' os with
  | nil =>
    obtain ⟨rfl, rfl⟩ := Prod.mk.inj (Except.ok.inj h)
    exact hs
  | append_singleton is i ih =>
    obtain ⟨s₁, os₁, os₂, h₁, h₂, rfl⟩ := tryRun_append_eq_ok.mp h
    obtain ⟨o, hi, rfl⟩ := tryRun_singleton_eq_ok.mp h₂
    exact hstep os₁ s₁ i s' o (ih h₁) hi

/-- `Q` of the state and the input at every step of a run, as far as the run does not
fail. -/
def Along (step : σ → ι → Except ε (σ × ο)) (Q : σ → ι → Prop) : σ → List ι → Prop
  | _, [] => True
  | s, i :: is => Q s i ∧ ∀ s' o, step s i = .ok (s', o) → Along step Q s' is

/-- One step of a run that goes through. -/
theorem along_cons_of_ok {step : σ → ι → Except ε (σ × ο)} {Q : σ → ι → Prop} {i : ι}
    {is : List ι} {s s' : σ} {o : ο} (h : step s i = .ok (s', o)) :
    Along step Q s (i :: is) ↔ Q s i ∧ Along step Q s' is := by
  refine and_congr_right fun _ => ⟨fun hrest => hrest s' o h, fun hrest s'' o' h' => ?_⟩
  obtain ⟨rfl, -⟩ := Prod.mk.inj (Except.ok.inj (h.symm.trans h'))
  exact hrest

/-- A run that goes through and meets the condition, from its first step on. -/
theorem tryRun_along_cons {step : σ → ι → Except ε (σ × ο)} {Q : σ → ι → Prop} {i : ι}
    {is : List ι} {s s' s'' : σ} {o : ο} {os : List ο} (hQ : Q s i) (h : step s i = .ok (s', o))
    (hrest : tryRun step s' is = .ok (s'', os) ∧ Along step Q s' is) :
    tryRun step s (i :: is) = .ok (s'', o :: os) ∧ Along step Q s (i :: is) := by
  refine ⟨?_, (along_cons_of_ok h).2 ⟨hQ, hrest.2⟩⟩
  rw [tryRun_cons_of_ok h, hrest.1]
  rfl

/-- A step that fails. -/
theorem along_cons_of_error {step : σ → ι → Except ε (σ × ο)} {Q : σ → ι → Prop} {i : ι}
    {is : List ι} {s : σ} {e : ε} (h : step s i = .error e) :
    Along step Q s (i :: is) ↔ Q s i :=
  and_iff_left fun _ _ hok => by
    rw [h] at hok
    cases hok

instance along_decidable (step : σ → ι → Except ε (σ × ο)) (Q : σ → ι → Prop)
    [∀ s i, Decidable (Q s i)] : ∀ s is, Decidable (Along step Q s is)
  | _, [] => isTrue trivial
  | s, i :: is =>
    match h : step s i with
    | .ok (s', _) =>
      have := along_decidable step Q s' is
      decidable_of_iff' _ (along_cons_of_ok h)
    | .error _ => decidable_of_iff' _ (along_cons_of_error h)

theorem along_true {step : σ → ι → Except ε (σ × ο)} (is : List ι) {s : σ} :
    Along step (fun _ _ => True) s is := by
  induction is generalizing s with
  | nil => trivial
  | cons i is ih => exact ⟨trivial, fun _ _ _ => ih⟩

/-- A condition is met along a run exactly when it is met after every part of the run that
goes through. -/
theorem along_iff_forall_split {step : σ → ι → Except ε (σ × ο)} {Q : σ → ι → Prop} {is : List ι}
    {s : σ} : Along step Q s is ↔ ∀ pre i post s' os, is = pre ++ i :: post →
      tryRun step s pre = .ok (s', os) → Q s' i := by
  induction is generalizing s with
  | nil => simp [Along]
  | cons j is ih =>
    constructor
    · rintro ⟨hQ, hrest⟩ pre i post s' os hsplit hrun
      cases pre with
      | nil =>
        obtain ⟨rfl, -⟩ := List.cons.inj hsplit
        obtain ⟨rfl, -⟩ := Prod.mk.inj (Except.ok.inj hrun)
        exact hQ
      | cons k pre =>
        obtain ⟨rfl, htail⟩ := List.cons.inj hsplit
        obtain ⟨⟨s₁, o⟩, hstep, hrun⟩ := bind_eq_ok.1 hrun
        obtain ⟨⟨s₂, os'⟩, hpre, hout⟩ := bind_eq_ok.1 hrun
        obtain ⟨rfl, -⟩ := Prod.mk.inj (Except.ok.inj hout)
        exact ih.1 (hrest s₁ o hstep) pre i post s₂ os' htail hpre
    · intro h
      refine ⟨h [] j is s [] rfl rfl, fun s₁ o hstep => ih.2 ?_⟩
      intro pre i post s' os hsplit hrun
      refine h (j :: pre) i post s' (o :: os) (by rw [hsplit]; rfl) ?_
      rw [tryRun_cons_of_ok hstep, hrun]
      rfl

/-- A condition along a run in two parts. -/
theorem along_append {step : σ → ι → Except ε (σ × ο)} {Q : σ → ι → Prop} {is js : List ι} {s : σ} :
    Along step Q s (is ++ js) ↔ Along step Q s is ∧
      ∀ s' os, tryRun step s is = .ok (s', os) → Along step Q s' js := by
  induction is generalizing s with
  | nil =>
    refine ⟨fun h => ⟨trivial, fun s' os hrun => ?_⟩, fun h => h.2 s [] rfl⟩
    obtain ⟨rfl, -⟩ := Prod.mk.inj (Except.ok.inj hrun)
    exact h
  | cons i is ih =>
    constructor
    · rintro ⟨hQ, hrest⟩
      refine ⟨⟨hQ, fun s₁ o hstep => (ih.1 (hrest s₁ o hstep)).1⟩, fun s' os hrun => ?_⟩
      obtain ⟨⟨s₁, o⟩, hstep, hout⟩ := bind_eq_ok.1 hrun
      obtain ⟨⟨s₂, os'⟩, hrun', hout⟩ := bind_eq_ok.1 hout
      obtain ⟨rfl, -⟩ := Prod.mk.inj (Except.ok.inj hout)
      exact (ih.1 (hrest s₁ o hstep)).2 s₂ os' hrun'
    · rintro ⟨⟨hQ, hfirst⟩, hrest⟩
      refine ⟨hQ, fun s₁ o hstep => ih.2 ⟨hfirst s₁ o hstep, fun s' os hrun => ?_⟩⟩
      exact hrest s' (o :: os) (by rw [tryRun_cons_of_ok hstep, hrun]; rfl)

/-- A condition along a run, and one on each of its inputs. -/
theorem along_and {step : σ → ι → Except ε (σ × ο)} {A : σ → ι → Prop} {P : ι → Prop}
    (is : List ι) {s : σ} (hA : Along step A s is) (hP : ∀ i ∈ is, P i) :
    Along step (fun s i => A s i ∧ P i) s is := by
  induction is generalizing s with
  | nil => trivial
  | cons i is ih =>
    obtain ⟨hPi, hP⟩ := List.forall_mem_cons.1 hP
    exact ⟨⟨hA.1, hPi⟩, fun s' o h => ih (hA.2 s' o h) hP⟩

/-- What follows of a condition on good states, with good states to follow, holds along
every run along which the condition does. -/
theorem along_mono {step : σ → ι → Except ε (σ × ο)} (I : σ → Prop) {A Q : σ → ι → Prop}
    (hQ : ∀ s i, I s → A s i → Q s i)
    (hI : ∀ s i s' o, I s → A s i → step s i = .ok (s', o) → I s')
    (is : List ι) {s : σ} (hs : I s) (hA : Along step A s is) : Along step Q s is := by
  induction is generalizing s with
  | nil => trivial
  | cons i is ih => exact ⟨hQ s i hs hA.1, fun s' o h => ih (hI s i s' o hs hA.1 h) (hA.2 s' o h)⟩

/-- A condition that good states and promised inputs meet, with good states to follow, is
met along every run of promised inputs. -/
theorem along_of_forall {step : σ → ι → Except ε (σ × ο)} (I : σ → Prop) {P : ι → Prop}
    {Q : σ → ι → Prop} (hQ : ∀ s i, I s → P i → Q s i)
    (hI : ∀ s i s' o, I s → P i → step s i = .ok (s', o) → I s')
    (is : List ι) {s : σ} (hs : I s) (hP : ∀ i ∈ is, P i) : Along step Q s is := by
  have hA : Along step (fun _ i => True ∧ P i) s is := along_and is (along_true is) hP
  exact along_mono I (fun s i hs h => hQ s i hs h.2) (fun s i s' o hs h => hI s i s' o hs h.2) is
    hs hA

/-- Two conditions that agree on good states, among the inputs that are promised, agree
along every run of promised inputs that keeps to good states under one of them. -/
theorem along_congr {step : σ → ι → Except ε (σ × ο)} (I : σ → Prop) {A Q R : σ → ι → Prop}
    (hQ : ∀ s i, I s → A s i → (Q s i ↔ R s i))
    (hI : ∀ s i s' o, I s → A s i → Q s i → step s i = .ok (s', o) → I s')
    (is : List ι) {s : σ} (hs : I s) (hA : Along step A s is) :
    Along step Q s is ↔ Along step R s is := by
  induction is generalizing s with
  | nil => simp [Along]
  | cons i is ih =>
    obtain ⟨hAi, hA⟩ := hA
    refine (and_congr_left' (hQ s i hs hAi)).trans (and_congr_right fun hR => ?_)
    refine forall_congr' fun s' => forall_congr' fun o => forall_congr' fun ho => ?_
    exact ih (hI s i s' o hs hAi ((hQ s i hs hAi).2 hR) ho) (hA s' o ho)

/-- If a condition on a state is one on the inputs before it, and where it is met the step goes
through, then it is met along a run exactly when it is for every input and those before it. -/
theorem along_iff_forall_history {step : σ → ι → Except ε (σ × ο)} {Q : σ → ι → Prop}
    {Good : List ι → ι → Prop} (R : List ι → σ → Prop)
    (hQ : ∀ past s i, R past s → (Q s i ↔ Good past i))
    (hR : ∀ past s i, R past s → Q s i → ∃ s' o, step s i = .ok (s', o) ∧ R (past ++ [i]) s')
    (is : List ι) {past : List ι} {s : σ} (hs : R past s) :
    Along step Q s is ↔ ∀ pre i post, is = pre ++ i :: post → Good (past ++ pre) i := by
  induction is generalizing past s with
  | nil =>
    refine iff_of_true trivial fun pre i post hsplit => ?_
    cases pre <;> cases hsplit
  | cons j is ih =>
    have hnext : Q s j → ∀ s' o, step s j = .ok (s', o) →
        (Along step Q s' is ↔
          ∀ pre i post, is = pre ++ i :: post → Good (past ++ (j :: pre)) i) := by
      intro hQj s' o hstep
      obtain ⟨s₁, o₁, hstep₁, hs₁⟩ := hR past s j hs hQj
      obtain ⟨rfl, rfl⟩ := Prod.mk.inj (Except.ok.inj (hstep.symm.trans hstep₁))
      simpa only [List.append_assoc, List.singleton_append] using ih hs₁
    rw [forall_split_cons (P := fun pre i => Good (past ++ pre) i), List.append_nil,
      ← hQ past s j hs]
    refine and_congr_right fun hQj => ⟨fun hrest => ?_, fun hall s' o hstep => ?_⟩
    · obtain ⟨s', o, hstep, -⟩ := hR past s j hs hQj
      exact (hnext hQj s' o hstep).1 (hrest s' o hstep)
    · exact (hnext hQj s' o hstep).2 hall

/-- Simulation of the runs that go through. If every promised step from related states that
goes through is the total machine's, so is every run. -/
theorem tryRun_ok_refines {step : σ → ι → Except ε (σ × ο)} {spec : α → ι → α × ο}
    (R : σ → α → Prop) {A : σ → ι → Prop}
    (hsim : ∀ s a i s' o, R s a → A s i → step s i = .ok (s', o) →
      o = (spec a i).2 ∧ R s' (spec a i).1)
    (is : List ι) {s s' : σ} {a : α} {os : List ο} (hA : Along step A s is) (hR : R s a)
    (h : tryRun step s is = .ok (s', os)) : os = (run spec a is).2 ∧ R s' (run spec a is).1 := by
  induction is generalizing s a os with
  | nil =>
    obtain ⟨rfl, rfl⟩ := Prod.mk.inj (Except.ok.inj h)
    exact ⟨rfl, hR⟩
  | cons i is ih =>
    obtain ⟨⟨s₁, o⟩, hs₁, h⟩ := bind_eq_ok.1 h
    obtain ⟨⟨s₂, os'⟩, hs₂, h⟩ := bind_eq_ok.1 h
    obtain ⟨rfl, rfl⟩ := Prod.mk.inj (Except.ok.inj h)
    obtain ⟨rfl, hR₁⟩ := hsim s a i s₁ o hR hA.1 hs₁
    obtain ⟨rfl, hR₂⟩ := ih (hA.2 s₁ _ hs₁) hR₁ hs₂
    exact ⟨rfl, hR₂⟩

/-- A run goes through if every promised step from a good state does, to a good state. -/
theorem exists_tryRun {step : σ → ι → Except ε (σ × ο)} (I : σ → Prop) {A : σ → ι → Prop}
    (hstep : ∀ s i, I s → A s i → ∃ s' o, step s i = .ok (s', o) ∧ I s')
    (is : List ι) {s : σ} (hA : Along step A s is) (hs : I s) :
    ∃ s' os, tryRun step s is = .ok (s', os) ∧ I s' := by
  induction is generalizing s with
  | nil => exact ⟨s, [], rfl, hs⟩
  | cons i is ih =>
    obtain ⟨s₁, o, hs₁, hI₁⟩ := hstep s i hs hA.1
    obtain ⟨s₂, os, hs₂, hI₂⟩ := ih (hA.2 s₁ o hs₁) hI₁
    exact ⟨s₂, o :: os, by rw [tryRun_cons_of_ok hs₁, hs₂]; rfl, hI₂⟩

/-- Forward simulation. If every promised input from related states steps without
failing, to related states and with the total machine's output, then a run of promised
inputs does not fail and gives the total machine's outputs. -/
theorem tryRun_refines {step : σ → ι → Except ε (σ × ο)} {spec : α → ι → α × ο}
    (R : σ → α → Prop) (P : ι → Prop)
    (hsim : ∀ s a i, R s a → P i → ∃ s', step s i = .ok (s', (spec a i).2) ∧ R s' (spec a i).1)
    (is : List ι) (hP : ∀ i ∈ is, P i) {s : σ} {a : α} (hR : R s a) :
    ∃ s', tryRun step s is = .ok (s', (run spec a is).2) ∧ R s' (run spec a is).1 := by
  induction is generalizing s a with
  | nil => exact ⟨s, rfl, hR⟩
  | cons i is ih =>
    obtain ⟨s₁, hs₁, hR₁⟩ := hsim s a i hR (hP i (by simp))
    obtain ⟨s₂, hs₂, hR₂⟩ := ih (fun j hj => hP j (by simp [hj])) hR₁
    refine ⟨s₂, ?_, hR₂⟩
    rw [tryRun_cons_of_ok hs₁, hs₂]
    rfl

end Machine

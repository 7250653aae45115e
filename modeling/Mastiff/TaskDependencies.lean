import Mastiff.ThreadPool

/-!
# What a task waits for

A task goes from one phase to the next (`Follows`), and in between its dependencies are added and
taken away again. `Sound.stepped` : whatever step a thread makes, a task goes on waiting for exactly
those that will still tell it, its count is their number, and it is in the map or in the queue
whenever its phase says so.
-/

set_option linter.unusedSectionVars false

namespace Mastiff.Cartographer

namespace ThreadPool

variable {address : ℕ → ℕ} {c c' : ThreadPool} {p : WorkerPlace} {t d : ℕ} {k : Task}

/-! ## The life of a task -/

/-- The phase that can follow, while the dependencies stay. -/
inductive Follows (k : Task) : TaskPhase → Prop
  | submit (h : k.phase = .inHand) : Follows k .submitted
  | dispatch (h : k.phase = .submitted) (hwaits : k.waits ≠ []) : Follows k .waiting
  | enqueue (h : k.phase = .submitted ∨ k.phase = .waiting) (hwaits : k.waits = []) :
      Follows k .queued
  | take (h : k.phase = .queued) : Follows k .taken
  | begin (h : k.phase = .taken) : Follows k .executing
  | finish (h : k.phase = .executing) : Follows k (.completing k.dependentTasks)
  | unlock (h : k.phase = .completing []) : Follows k .finished

/-- The task that follows. -/
def next (k : Task) (phase : TaskPhase) : Task :=
  { k with state := phase.state, locked := phase.locked, phase := phase }

variable {phase : TaskPhase}

theorem Follows.pending (h : Follows k phase) : (next k phase).pending = k.pending := by
  cases h with
  | submit h | dispatch h | take h | begin h | finish h | unlock h =>
    simp [Task.pending, next, h]
  | enqueue h => rcases h with h | h <;> simp [Task.pending, next, h]

theorem Follows.ne_adding (h : Follows k phase) (d : ℕ) :
    phase ≠ .adding d ∧ k.phase ≠ .adding d := by
  cases h with
  | submit h | dispatch h | take h | begin h | finish h | unlock h => simp [h]
  | enqueue h => rcases h with h | h <;> simp [h]

theorem Follows.given (h : Follows k phase) (hk : k.phase.Given) : phase.Given := by
  cases h with
  | submit h => exact (h ▸ hk : TaskPhase.inHand.Given).elim
  | dispatch | enqueue | take | begin | finish | unlock => trivial

theorem Follows.completed (h : Follows k phase) (hk : k.phase.state = .completed) :
    phase.state = .completed := by
  cases h with
  | submit h | dispatch h | take h | begin h => simp [h, TaskPhase.state] at hk
  | enqueue h => rcases h with h | h <;> simp [h, TaskPhase.state] at hk
  | finish | unlock => rfl

theorem Follows.sound (h : Follows k phase) (hk : k.Sound) : (next k phase).Sound := by
  refine ⟨rfl, rfl, hk.count, hk.waits_nodup, hk.dependents_nodup, hk.waits, ?_, fun hw => ?_⟩
  · rw [h.pending]
    exact hk.pending
  · have hearly := hk.early hw
    cases h with
    | submit | dispatch => trivial
    | enqueue h hwaits => exact absurd hwaits hw
    | take h | begin h | finish h | unlock h =>
      rw [h] at hearly
      exact hearly

/-- The phases of other tasks are not the matter of a task that goes on. -/
theorem Paired.next (h : c.Paired) (hk : Follows (c.tasks t) phase)
    (hc : c'.tasks = (c.set t (next (c.tasks t) phase)).tasks) : c'.Paired := by
  have hrest : ∀ u, (c'.tasks u).dependencies = (c.tasks u).dependencies ∧
      (c'.tasks u).waits = (c.tasks u).waits ∧
      (c'.tasks u).dependentTasks = (c.tasks u).dependentTasks ∧
      (c'.tasks u).pending = (c.tasks u).pending := by
    intro u
    rw [hc, set_tasks]
    split
    case isTrue hu =>
      rw [hu]
      exact ⟨rfl, rfl, rfl, hk.pending⟩
    case isFalse => exact ⟨rfl, rfl, rfl, rfl⟩
  have hphase : ∀ u d, ((c'.tasks u).phase = .adding d ↔ (c.tasks u).phase = .adding d) ∧
      ((c.tasks u).phase.Given → (c'.tasks u).phase.Given) ∧
      ((c.tasks u).phase.state = .completed → (c'.tasks u).phase.state = .completed) := by
    intro u d
    rw [hc, set_tasks]
    split
    case isTrue hu =>
      rw [hu]
      exact ⟨iff_of_false (hk.ne_adding d).1 (hk.ne_adding d).2, hk.given, hk.completed⟩
    case isFalse => exact ⟨Iff.rfl, id, id⟩
  refine ⟨fun u d hd => ?_, fun d u hu => ?_, fun u d => ?_, fun u d hd hw => ?_⟩
  · rw [(hrest u).1] at hd
    exact (hphase d d).2.1 (h.given u d hd)
  · rw [(hrest d).2.2.1] at hu
    rw [(hrest u).1, Ne, (hphase u d).1]
    exact h.linked d u hu
  · rw [(hrest u).2.1, (hphase u d).1, (hrest d).2.2.2]
    exact h.waits u d
  · rw [(hrest u).1] at hd
    rw [(hrest u).2.1] at hw
    exact (hphase d d).2.2 (h.done u d hd hw)

/-- A task goes on. It need not have been settled before. -/
theorem sound_next (htask : ∀ u, (c.tasks u).Sound) (hpaired : c.Paired)
    (hsettled : ∀ u, u ≠ t → (c.tasks u).phase = .waiting → (c.tasks u).waits ≠ [])
    (hk : Follows (c.tasks t) phase) (hc : c'.tasks = (c.set t (next (c.tasks t) phase)).tasks)
    (hlisted : c'.Listed) : c'.Sound := by
  refine ⟨fun u => ?_, hpaired.next hk hc, hlisted, fun u => ?_⟩
  · rw [hc, set_tasks]
    split
    · exact hk.sound (htask t)
    · exact htask u
  · rw [hc, set_tasks]
    split
    case isTrue =>
      intro hphase
      cases hk
      case dispatch hwaits => exact hwaits
      all_goals exact absurd hphase nofun
    case isFalse hu => exact hsettled u hu

theorem Sound.next (h : c.Sound) (hk : Follows (c.tasks t) phase)
    (hc : c'.tasks = (c.set t (next (c.tasks t) phase)).tasks) (hlisted : c'.Listed) : c'.Sound :=
  sound_next h.task h.paired (fun u _ => h.settled u) hk hc hlisted

/-- Phases that are not those of the lists. -/
theorem Listed.set (h : c.Listed)
    (hmap : k.phase = .submitted ∨ k.phase = .waiting ↔
      (c.tasks t).phase = .submitted ∨ (c.tasks t).phase = .waiting)
    (hqueue : k.phase = .queued ↔ (c.tasks t).phase = .queued) : (c.set t k).Listed := by
  refine ⟨fun u => ?_, h.notReady_nodup, fun u => ?_, h.queue_nodup⟩
  · refine (h.notReady u).trans ?_
    rw [set_tasks]
    split
    case isTrue hu => rw [hu, hmap]
    case isFalse => exact Iff.rfl
  · refine (h.queued u).trans ?_
    rw [set_tasks]
    split
    case isTrue hu => rw [hu, hqueue]
    case isFalse => exact Iff.rfl

theorem Listed.submit (h : c.Listed) (hhand : (c.tasks t).phase = .inHand) :
    ({ c with tasksNotReady := t :: c.tasksNotReady }.setPhase t .submitted).Listed := by
  have ht : t ∉ c.tasksNotReady := by simp [h.notReady, hhand]
  refine ⟨fun u => ?_, List.nodup_cons.mpr ⟨ht, h.notReady_nodup⟩, fun u => ?_, h.queue_nodup⟩
  · show u ∈ t :: c.tasksNotReady ↔ _
    rw [List.mem_cons, h.notReady, setPhase, set_tasks]
    split
    case isTrue hu => simp [hu]
    case isFalse hu => simp [hu]
  · refine (h.queued u).trans ?_
    rw [setPhase, set_tasks]
    split
    case isTrue hu => simp [hu, hhand]
    case isFalse => exact Iff.rfl

theorem Listed.enqueue (h : c.Listed)
    (ht : (c.tasks t).phase = .submitted ∨ (c.tasks t).phase = .waiting) :
    (c.enqueue t).Listed := by
  have hqueue : t ∉ c.taskQueue := by
    rw [h.queued]
    rcases ht with ht | ht <;> simp [ht]
  refine ⟨fun u => ?_, h.notReady_nodup.erase t, fun u => ?_, ?_⟩
  · show u ∈ c.tasksNotReady.erase t ↔ _
    rw [h.notReady_nodup.mem_erase_iff, h.notReady, ThreadPool.enqueue, set_tasks]
    split
    case isTrue hu => simp [hu]
    case isFalse hu => simp [hu]
  · show u ∈ c.taskQueue ++ [t] ↔ _
    rw [List.mem_append, List.mem_singleton, h.queued, ThreadPool.enqueue, set_tasks]
    split
    case isTrue hu => simp [hu]
    case isFalse hu => simp [hu]
  · exact h.queue_nodup.append (List.nodup_singleton t) (List.disjoint_singleton.mpr hqueue)

theorem Listed.take {rest : List ℕ} (h : c.Listed) (hqueue : c.taskQueue = t :: rest) :
    ({ c with taskQueue := rest }.setPhase t .taken).Listed := by
  have hnodup := h.queue_nodup
  have hqueued := h.queued
  rw [hqueue] at hnodup hqueued
  obtain ⟨ht, hrest⟩ := List.nodup_cons.mp hnodup
  have hphase : (c.tasks t).phase = .queued := (hqueued t).mp List.mem_cons_self
  refine ⟨fun u => ?_, h.notReady_nodup, fun u => ?_, hrest⟩
  · refine (h.notReady u).trans ?_
    rw [setPhase, set_tasks]
    split
    case isTrue hu => simp [hu, hphase]
    case isFalse => exact Iff.rfl
  · show u ∈ rest ↔ _
    rw [setPhase, set_tasks]
    split
    case isTrue hu => simp [hu, ht]
    case isFalse hu =>
      rw [← hqueued, List.mem_cons]
      exact (or_iff_right hu).symm

/-- A step that need not write the mutex. -/
theorem next_eq (hk : k.Sound) (hlocked : k.phase.locked = phase.locked) :
    { k with state := phase.state, phase := phase } = next k phase := by
  rw [next, ← hlocked, ← hk.locked]

/-- A step that need not write the state either. -/
theorem next_eq_of_state (hk : k.Sound) (hlocked : k.phase.locked = phase.locked)
    (hstate : k.phase.state = phase.state) : { k with phase := phase } = next k phase := by
  rw [next, ← hlocked, ← hk.locked, ← hstate, ← hk.state]

theorem sound_enqueue (htask : ∀ u, (c.tasks u).Sound) (hpaired : c.Paired) (hlisted : c.Listed)
    (hsettled : ∀ u, u ≠ t → (c.tasks u).phase = .waiting → (c.tasks u).waits ≠ [])
    (ht : (c.tasks t).phase = .submitted ∨ (c.tasks t).phase = .waiting)
    (hwaits : (c.tasks t).waits = []) : (c.enqueue t).Sound := by
  refine sound_next htask hpaired hsettled (.enqueue ht hwaits) ?_ (hlisted.enqueue ht)
  rw [← next_eq (htask t)]
  · rfl
  · rcases ht with ht | ht <;> rw [ht] <;> rfl

/-! ## Dependencies -/

/-- A task is told of a dependency, and does not wait for it any more. -/
theorem Paired.told (h : c.Paired) (htask : ∀ u, (c.tasks u).Sound)
    (hdone : (c.tasks d).phase.state = .completed)
    (hrest : ∀ u, (c'.tasks u).dependencies = (c.tasks u).dependencies ∧
      (c'.tasks u).dependentTasks = (c.tasks u).dependentTasks ∧
      (c'.tasks u).waits = if u = t then (c.tasks u).waits.erase d else (c.tasks u).waits)
    (hphase : ∀ u d', ((c'.tasks u).phase = .adding d' → (c.tasks u).phase = .adding d') ∧
      ((c.tasks u).phase.Given → (c'.tasks u).phase.Given) ∧
      ((c.tasks u).phase.state = .completed → (c'.tasks u).phase.state = .completed))
    (hpends : ∀ u d', (c'.tasks u).phase = .adding d' ∨ u ∈ (c'.tasks d').pending ↔
      ((c.tasks u).phase = .adding d' ∨ u ∈ (c.tasks d').pending) ∧ ¬(u = t ∧ d' = d)) :
    c'.Paired := by
  have hwaits : ∀ u d', d' ∈ (c'.tasks u).waits ↔ d' ∈ (c.tasks u).waits ∧ ¬(u = t ∧ d' = d) := by
    intro u d'
    rw [(hrest u).2.2]
    split
    case isTrue hu => simp [hu, (htask t).waits_nodup.mem_erase_iff, and_comm]
    case isFalse hu => simp [hu]
  refine ⟨fun u d' hd' => ?_, fun d' u hu => ?_, fun u d' => ?_, fun u d' hd' hw => ?_⟩
  · rw [(hrest u).1] at hd'
    exact (hphase d' d').2.1 (h.given u d' hd')
  · rw [(hrest d').2.1] at hu
    rw [(hrest u).1]
    obtain ⟨hdep, hadding⟩ := h.linked d' u hu
    exact ⟨hdep, fun hp => hadding ((hphase u d').1 hp)⟩
  · rw [hwaits, h.waits, hpends]
  · rw [(hrest u).1] at hd'
    rw [hwaits, not_and_not_right] at hw
    by_cases hmem : d' ∈ (c.tasks u).waits
    · rw [(hw hmem).2]
      exact (hphase d d).2.2 hdone
    · exact (hphase d' d').2.2 (h.done u d' hd' hmem)

theorem set_pending (h : k.pending = (c.tasks t).pending) (u : ℕ) :
    ((c.set t k).tasks u).pending = (c.tasks u).pending := by
  rw [set_tasks]
  split
  case isTrue hu => rw [hu, h]
  case isFalse => rfl

/-- A task that has been told is as sound as before. -/
theorem sound_unwait (hk : k.Sound) (hd : d ∈ k.waits) :
    Task.Sound { k with
      uncompletedDependencies := k.uncompletedDependencies - 1
      waits := k.waits.erase d } := by
  refine ⟨hk.state, hk.locked, ?_, hk.waits_nodup.erase d, hk.dependents_nodup, fun d' hd' => ?_,
    hk.pending, fun _ => hk.early (List.ne_nil_of_mem hd)⟩
  · rw [hk.count, List.length_erase_of_mem hd]
  · exact hk.waits d' (List.mem_of_mem_erase hd')

/-- A task whose call of `AddDependency` returns. -/
theorem sound_inHand (hk : k.Sound) (hphase : k.phase = .adding d) :
    Task.Sound { k with phase := .inHand } := by
  refine ⟨hk.state.trans ?_, hk.locked.trans ?_, hk.count, hk.waits_nodup, hk.dependents_nodup,
    hk.waits, List.Sublist.refl _, fun _ => trivial⟩
  · rw [hphase]
    rfl
  · rw [hphase]
    rfl

/-- A task that has told the first of those that are left. -/
theorem sound_completing {rest : List ℕ} (hk : k.Sound)
    (hphase : k.phase = .completing (t :: rest)) :
    Task.Sound { k with phase := .completing rest } := by
  have hsub := hk.pending
  rw [Task.pending, hphase] at hsub
  refine ⟨hk.state.trans ?_, hk.locked.trans ?_, hk.count, hk.waits_nodup, hk.dependents_nodup,
    hk.waits, (List.sublist_cons_self t rest).trans hsub, fun hw => ?_⟩
  · rw [hphase]
    rfl
  · rw [hphase]
    rfl
  · have hearly := hk.early hw
    rw [hphase] at hearly
    exact hearly

/-- A task that gets another dependent one. -/
theorem sound_insert (hk : k.Sound) (hdone : k.phase.state ≠ .completed)
    (ht : t ∉ k.dependentTasks) (address : ℕ → ℕ) :
    Task.Sound { k with
      dependentTasks := k.dependentTasks.orderedInsert (fun a b => address a ≤ address b) t } := by
  refine ⟨hk.state, hk.locked, hk.count, hk.waits_nodup, ?_, hk.waits, ?_, hk.early⟩
  · exact (List.perm_orderedInsert _ t _).nodup_iff.mpr
      (List.nodup_cons.mpr ⟨ht, hk.dependents_nodup⟩)
  · rw [Task.pending_of_ne]
    exact hdone

/-- A task that is told is not adding the dependency. -/
theorem Sound.not_adding (h : c.Sound) (ht : t ∈ (c.tasks d).pending) :
    (c.tasks t).phase ≠ .adding d :=
  (h.paired.linked d t ((h.task d).pending.subset ht)).2

/-- The last step of `AddDependency` for a task that is completed. -/
theorem Sound.drop (h : c.Sound) (ht : (c.tasks t).phase = .adding d)
    (hdone : (c.tasks d).phase.state = .completed) :
    ((c.unwait t d).setPhase t .inHand).Sound := by
  have hc : (c.unwait t d).setPhase t .inHand = c.set t { c.tasks t with
      uncompletedDependencies := (c.tasks t).uncompletedDependencies - 1
      phase := .inHand
      waits := (c.tasks t).waits.erase d } := by
    simp [unwait, setPhase]
  have hd : d ∈ (c.tasks t).waits := (h.paired.waits t d).mpr (.inl ht)
  rw [hc]
  refine ⟨fun u => ?_, ?_, ?_, fun u => ?_⟩
  · rw [set_tasks]
    split
    · exact sound_inHand (sound_unwait (h.task t) hd) ht
    · exact h.task u
  · refine h.paired.told (t := t) h.task hdone (fun u => ?_) (fun u d' => ?_) fun u d' => ?_
    · rw [set_tasks]
      split
      case isTrue hu => simp [hu]
      case isFalse hu => simp
    · rw [set_tasks]
      split
      case isTrue hu => simp [hu, ht, TaskPhase.Given, TaskPhase.state]
      case isFalse hu => exact ⟨id, id, id⟩
    · rw [set_pending (by simp [Task.pending, ht]), set_tasks]
      split
      case isTrue hu =>
        rw [hu, ht]
        have hne : t ∈ (c.tasks d').pending → d' ≠ d := fun hmem heq =>
          h.not_adding hmem (heq ▸ ht)
        simp only [reduceCtorEq, false_or, TaskPhase.adding.injEq, true_and]
        exact ⟨fun hmem => ⟨.inr hmem, hne hmem⟩, fun hmem => hmem.1.resolve_left (Ne.symm hmem.2)⟩
      case isFalse hu => simp [hu]
  · exact h.listed.set (by simp [ht]) (by simp [ht])
  · rw [set_tasks]
    split
    · simp
    · exact h.settled u

theorem unwait_tasks (c : ThreadPool) (t d u : ℕ) :
    ((c.unwait t d).tasks u).phase = (c.tasks u).phase ∧
      ((c.unwait t d).tasks u).pending = (c.tasks u).pending ∧
      ((c.unwait t d).tasks u).dependencies = (c.tasks u).dependencies ∧
      ((c.unwait t d).tasks u).dependentTasks = (c.tasks u).dependentTasks ∧
      ((c.unwait t d).tasks u).waits =
        if u = t then (c.tasks u).waits.erase d else (c.tasks u).waits := by
  rw [unwait, set_tasks]
  split
  case isTrue hu =>
    rw [hu]
    exact ⟨rfl, rfl, rfl, rfl, rfl⟩
  case isFalse => exact ⟨rfl, rfl, rfl, rfl, rfl⟩

/-- A task that is told is no longer one that is to be told. -/
theorem Sound.pends_tell {rest : List ℕ} (h : c.Sound)
    (hd : (c.tasks d).phase = .completing (t :: rest)) (u d' : ℕ) :
    (((c.unwait t d).setPhase d (.completing rest)).tasks u).phase = .adding d' ∨
        u ∈ (((c.unwait t d).setPhase d (.completing rest)).tasks d').pending ↔
      ((c.tasks u).phase = .adding d' ∨ u ∈ (c.tasks d').pending) ∧ ¬(u = t ∧ d' = d) := by
  have hpending : (c.tasks d).pending = t :: rest := by rw [Task.pending, hd]
  have ht : t ∈ (c.tasks d).pending := hpending ▸ List.mem_cons_self
  have hnodup : (t :: rest).Nodup := hpending ▸ (h.task d).pending.nodup (h.task d).dependents_nodup
  have hphase : (((c.unwait t d).setPhase d (.completing rest)).tasks u).phase = .adding d' ↔
      (c.tasks u).phase = .adding d' := by
    rw [setPhase, set_tasks]
    split
    case isTrue hu => simp [hu, hd]
    case isFalse hu => rw [(unwait_tasks c t d u).1]
  have hmem : u ∈ (((c.unwait t d).setPhase d (.completing rest)).tasks d').pending ↔
      u ∈ (c.tasks d').pending ∧ ¬(u = t ∧ d' = d) := by
    rw [setPhase, set_tasks]
    split
    case isTrue hdd =>
      rw [hdd, hpending, List.mem_cons]
      have hrest : u ∈ rest → u ≠ t := fun hu hut => (List.nodup_cons.mp hnodup).1 (hut ▸ hu)
      simp only [Task.pending, and_true]
      exact ⟨fun hu => ⟨.inr hu, hrest hu⟩, fun hu => hu.1.resolve_left hu.2⟩
    case isFalse hdd =>
      rw [(unwait_tasks c t d d').2.1]
      simp [hdd]
  have hadding : (c.tasks u).phase = .adding d' → ¬(u = t ∧ d' = d) := by
    rintro hp ⟨rfl, rfl⟩
    exact h.not_adding ht hp
  rw [hphase, hmem, or_and_right]
  exact or_congr_left (iff_self_and.mpr hadding)

/-- The first dependent task that is left has been told. -/
theorem Sound.tell {rest : List ℕ} (h : c.Sound)
    (hd : (c.tasks d).phase = .completing (t :: rest)) :
    (∀ u, (((c.unwait t d).setPhase d (.completing rest)).tasks u).Sound) ∧
      ((c.unwait t d).setPhase d (.completing rest)).Paired ∧
      ((c.unwait t d).setPhase d (.completing rest)).Listed ∧
      ((c.unwait t d).setPhase d (.completing rest)).tasks t = { c.tasks t with
        uncompletedDependencies := (c.tasks t).uncompletedDependencies - 1
        waits := (c.tasks t).waits.erase d } ∧
      ∀ u, u ≠ t → (((c.unwait t d).setPhase d (.completing rest)).tasks u).phase = .waiting →
        (((c.unwait t d).setPhase d (.completing rest)).tasks u).waits ≠ [] := by
  obtain ⟨hwaits, -, hne⟩ := h.waits_of_notify hd
  have hself : (c.unwait t d).tasks d = c.tasks d := set_tasks_of_ne hne.symm
  have htasks := unwait_tasks c t d
  refine ⟨fun u => ?_, ?_, ?_, ?_, fun u hu => ?_⟩
  · rw [setPhase, set_tasks]
    split
    · rw [hself]
      exact sound_completing (h.task d) hd
    · rw [unwait, set_tasks]
      split
      · exact sound_unwait (h.task t) hwaits
      · exact h.task u
  · have hdone : (c.tasks d).phase.state = .completed := by rw [hd, TaskPhase.state]
    refine h.paired.told (t := t) h.task hdone (fun u => ?_) (fun u d' => ?_) (h.pends_tell hd)
    · rw [setPhase, set_tasks]
      split
      case isTrue hu => simp [hu, hself, hne.symm]
      case isFalse => exact (htasks u).2.2
    · rw [setPhase, set_tasks]
      split
      case isTrue hu => simp [hu, hd, TaskPhase.Given, TaskPhase.state]
      case isFalse =>
        rw [(htasks u).1]
        exact ⟨id, id, id⟩
  · have hlisted : (c.unwait t d).Listed := h.listed.set Iff.rfl Iff.rfl
    exact hlisted.set (by simp [hself, hd]) (by simp [hself, hd])
  · rw [setPhase, set_tasks_of_ne hne, unwait, set_tasks_self]
  · rw [setPhase, set_tasks]
    split
    · simp
    · rw [unwait, set_tasks_of_ne hu]
      exact h.settled u

/-- A dependency is added, and waited for (`P`) unless it is completed. -/
theorem Paired.add (h : c.Paired) {P : Prop} (hgiven : (c.tasks d).phase.Given)
    (hnew : d ∉ (c.tasks t).dependencies) (hdone : ¬P → (c.tasks d).phase.state = .completed)
    (hrest : ∀ u, (c'.tasks u).dependentTasks = (c.tasks u).dependentTasks ∧
      (c'.tasks u).pending = (c.tasks u).pending ∧
      ((c.tasks u).phase.Given → (c'.tasks u).phase.Given) ∧
      ((c.tasks u).phase.state = .completed → (c'.tasks u).phase.state = .completed))
    (hadd : ∀ u d',
      (d' ∈ (c'.tasks u).dependencies ↔ d' ∈ (c.tasks u).dependencies ∨ u = t ∧ d' = d) ∧
      (d' ∈ (c'.tasks u).waits ↔ d' ∈ (c.tasks u).waits ∨ (u = t ∧ d' = d) ∧ P) ∧
      ((c'.tasks u).phase = .adding d' ↔ (c.tasks u).phase = .adding d' ∨ (u = t ∧ d' = d) ∧ P)) :
    c'.Paired := by
  refine ⟨fun u d' hd' => ?_, fun d' u hu => ?_, fun u d' => ?_, fun u d' hd' hw => ?_⟩
  · rcases (hadd u d').1.mp hd' with hd' | ⟨-, rfl⟩
    · exact (hrest d').2.2.1 (h.given u d' hd')
    · exact (hrest d').2.2.1 hgiven
  · rw [(hrest d').1] at hu
    obtain ⟨hdep, hadding⟩ := h.linked d' u hu
    refine ⟨(hadd u d').1.mpr (.inl hdep), fun hp => ?_⟩
    rcases (hadd u d').2.2.mp hp with hp | ⟨⟨rfl, rfl⟩, -⟩
    · exact hadding hp
    · exact hnew hdep
  · rw [(hadd u d').2.1, (hadd u d').2.2, (hrest d').2.1, h.waits, or_right_comm]
  · rw [(hadd u d').2.1, not_or] at hw
    refine (hrest d').2.2.2 ?_
    rcases (hadd u d').1.mp hd' with hd' | ⟨rfl, rfl⟩
    · exact h.done u d' hd' hw.1
    · exact hdone fun hP => hw.2 ⟨⟨rfl, rfl⟩, hP⟩

/-- A dependency that has expired. -/
theorem Sound.expire (h : c.Sound) (hfinished : (c.tasks d).phase = .finished)
    (hnew : d ∉ (c.tasks t).dependencies) :
    (c.set t { c.tasks t with dependencies := d :: (c.tasks t).dependencies }).Sound := by
  have hdone : (c.tasks d).phase.state = .completed := by rw [hfinished, TaskPhase.state]
  refine ⟨fun u => ?_, ?_, h.listed.set Iff.rfl Iff.rfl, fun u => ?_⟩
  · rw [set_tasks]
    split
    · have hk := h.task t
      exact ⟨hk.state, hk.locked, hk.count, hk.waits_nodup, hk.dependents_nodup,
        fun d' hd' => List.mem_cons_of_mem d (hk.waits d' hd'), hk.pending, hk.early⟩
    · exact h.task u
  · refine h.paired.add (P := False) (hfinished ▸ trivial) hnew (fun _ => hdone) (fun u => ?_)
      fun u d' => ?_
    · rw [set_tasks]
      split
      case isTrue hu =>
        rw [hu]
        exact ⟨rfl, rfl, id, id⟩
      case isFalse => exact ⟨rfl, rfl, id, id⟩
    · rw [set_tasks]
      split
      case isTrue hu => simp [hu, or_comm]
      case isFalse hu => simp [hu]
  · rw [set_tasks]
    split
    · exact h.settled t
    · exact h.settled u

/-- A dependency that is counted. -/
theorem Sound.depend (h : c.Sound) (ht : (c.tasks t).phase = .inHand)
    (hgiven : (c.tasks d).phase.Given) (hnew : d ∉ (c.tasks t).dependencies) :
    (c.set t { c.tasks t with
      uncompletedDependencies := (c.tasks t).uncompletedDependencies + 1
      phase := .adding d
      dependencies := d :: (c.tasks t).dependencies
      waits := d :: (c.tasks t).waits }).Sound := by
  have hk := h.task t
  have hpending : (c.tasks t).pending = (c.tasks t).dependentTasks := by rw [Task.pending, ht]
  refine ⟨fun u => ?_, ?_, h.listed.set (by simp [ht]) (by simp [ht]), fun u => ?_⟩
  · rw [set_tasks]
    split
    · refine ⟨hk.state.trans ?_, hk.locked.trans ?_, congrArg (· + 1) hk.count,
        List.nodup_cons.mpr ⟨fun hd => hnew (hk.waits d hd), hk.waits_nodup⟩, hk.dependents_nodup,
        fun d' hd' => ?_, List.Sublist.refl _, fun _ => trivial⟩
      · rw [ht]
        rfl
      · rw [ht]
        rfl
      · rcases List.mem_cons.mp hd' with rfl | hd'
        · exact List.mem_cons_self
        · exact List.mem_cons_of_mem d (hk.waits d' hd')
    · exact h.task u
  · refine h.paired.add (P := True) hgiven hnew (fun hP => absurd trivial hP) (fun u => ?_)
      fun u d' => ?_
    · rw [set_tasks]
      split
      case isTrue hu =>
        rw [hu, hpending]
        simp [Task.pending, ht, TaskPhase.Given, TaskPhase.state]
      case isFalse => exact ⟨rfl, rfl, id, id⟩
    · rw [set_tasks]
      split
      case isTrue hu => simp [hu, ht, or_comm, eq_comm]
      case isFalse hu => simp [hu]
  · rw [set_tasks]
    split
    · simp
    · exact h.settled u

/-- The task that was being added to another's dependent ones is one of them. -/
theorem Paired.link (h : c.Paired) (ht : (c.tasks t).phase = .adding d)
    (hd : d ∈ (c.tasks t).dependencies)
    (hphase : ∀ u, (c'.tasks u).phase = if u = t then .inHand else (c.tasks u).phase)
    (hrest : ∀ u, (c'.tasks u).dependencies = (c.tasks u).dependencies ∧
      (c'.tasks u).waits = (c.tasks u).waits)
    (hlinked : ∀ u d',
      (u ∈ (c'.tasks d').dependentTasks ↔ u ∈ (c.tasks d').dependentTasks ∨ u = t ∧ d' = d) ∧
      (u ∈ (c'.tasks d').pending ↔ u ∈ (c.tasks d').pending ∨ u = t ∧ d' = d)) :
    c'.Paired := by
  have hother : ∀ u, u ≠ t → (c'.tasks u).phase = (c.tasks u).phase := fun u hu =>
    (hphase u).trans (if_neg hu)
  refine ⟨fun u d' hd' => ?_, fun d' u hu => ?_, fun u d' => ?_, fun u d' hd' hw => ?_⟩
  · rw [(hrest u).1] at hd'
    have hgiven := h.given u d' hd'
    rw [hother d' fun hdt => by rw [hdt, ht] at hgiven; exact hgiven]
    exact hgiven
  · rw [(hrest u).1, hphase]
    rcases (hlinked u d').1.mp hu with hu | ⟨rfl, rfl⟩
    · obtain ⟨hdep, hadding⟩ := h.linked d' u hu
      refine ⟨hdep, ?_⟩
      split
      · simp
      · exact hadding
    · refine ⟨hd, ?_⟩
      rw [if_pos rfl]
      simp
  · rw [(hrest u).2, h.waits, hphase, (hlinked u d').2]
    split
    case isTrue hut => simp [hut, ht, or_comm, eq_comm]
    case isFalse hut => simp [hut]
  · rw [(hrest u).1] at hd'
    rw [(hrest u).2] at hw
    have hdone := h.done u d' hd' hw
    rw [hother d' fun hdt => by rw [hdt, ht] at hdone; cases hdone]
    exact hdone

/-- The last step of `AddDependency` for a task that is not completed. -/
theorem Sound.link (h : c.Sound) (ht : (c.tasks t).phase = .adding d)
    (hdone : (c.tasks d).phase.state ≠ .completed) :
    ((c.set d { c.tasks d with
      dependentTasks := (c.tasks d).dependentTasks.orderedInsert
        (fun a b => address a ≤ address b) t }).setPhase t .inHand).Sound := by
  have hd : d ∈ (c.tasks t).dependencies :=
    (h.task t).waits d ((h.paired.waits t d).mpr (.inl ht))
  have hne : t ≠ d := by
    have hgiven := h.paired.given t d hd
    rintro rfl
    rw [ht] at hgiven
    exact hgiven
  have hlinks : t ∉ (c.tasks d).dependentTasks := fun hmem => (h.paired.linked d t hmem).2 ht
  obtain ⟨k, hk⟩ : ∃ k, k = { c.tasks d with
      dependentTasks := (c.tasks d).dependentTasks.orderedInsert
        (fun a b => address a ≤ address b) t } := ⟨_, rfl⟩
  have hksound : k.Sound := hk ▸ sound_insert (h.task d) hdone hlinks address
  have hkphase : k.phase = (c.tasks d).phase := by rw [hk]
  have hkpending : k.pending = k.dependentTasks := Task.pending_of_ne (hkphase ▸ hdone)
  have hpending : (c.tasks d).pending = (c.tasks d).dependentTasks := Task.pending_of_ne hdone
  have hmem : ∀ u, u ∈ k.dependentTasks ↔ u = t ∨ u ∈ (c.tasks d).dependentTasks := fun u => by
    rw [hk]
    exact List.mem_orderedInsert _
  have hself : (c.set d k).tasks t = c.tasks t := set_tasks_of_ne hne
  have hphase : ∀ u, (((c.set d k).setPhase t .inHand).tasks u).phase =
      if u = t then .inHand else (c.tasks u).phase := by
    intro u
    rw [setPhase, set_tasks]
    split
    · rfl
    · rw [set_tasks]
      split
      case isTrue hu => rw [hu, hkphase]
      case isFalse => rfl
  have hrest : ∀ u, (((c.set d k).setPhase t .inHand).tasks u).dependencies =
      (c.tasks u).dependencies ∧
      (((c.set d k).setPhase t .inHand).tasks u).waits = (c.tasks u).waits := by
    intro u
    rw [setPhase, set_tasks]
    split
    case isTrue hu => simp [hu, hself]
    case isFalse =>
      rw [set_tasks]
      split
      case isTrue hu => simp [hu, hk]
      case isFalse => exact ⟨rfl, rfl⟩
  rw [← hk]
  refine ⟨fun u => ?_, h.paired.link ht hd hphase hrest fun u d' => ?_, ?_, fun u => ?_⟩
  · rw [setPhase, set_tasks, hself]
    split
    · exact sound_inHand (h.task t) ht
    · rw [set_tasks]
      split
      · exact hksound
      · exact h.task u
  · rw [setPhase, set_tasks, hself]
    split
    case isTrue hdt => simp [hdt, hne, Task.pending, ht]
    case isFalse =>
      rw [set_tasks]
      split
      case isTrue hdd => simp [hdd, hkpending, hpending, hmem, or_comm]
      case isFalse hdd => simp [hdd]
  · have hlisted : (c.set d k).Listed := h.listed.set (by rw [hkphase]) (by rw [hkphase])
    exact hlisted.set (by simp [hself, ht]) (by simp [hself, ht])
  · rw [hphase, (hrest u).2]
    split
    · simp
    · exact h.settled u

/-- A step keeps the invariant. -/
theorem Sound.stepped {r : (ThreadPool × WorkerPlace) × TaskEvent} (h : c.Sound) (hp : c.Knows p)
    (hr : Stepped address c p r) : r.1.1.Sound := by
  cases hr with
  | stay | leave | getState => exact h
  | shutDown =>
    exact ⟨h.task, ⟨h.paired.given, h.paired.linked, h.paired.waits, h.paired.done⟩,
      ⟨h.listed.notReady, h.listed.notReady_nodup, h.listed.queued, h.listed.queue_nodup⟩,
      h.settled⟩
  | expire hhand hfinished hnew => exact h.expire hfinished hnew
  | depend hhand hgiven hnew => exact h.depend hhand hgiven hnew
  | link hdone => exact h.link (hp.call rfl) hdone
  | drop hdone => exact h.drop (hp.call rfl) hdone
  | submit hhand =>
    refine h.next (.submit hhand) ?_ (h.listed.submit hhand)
    rw [← next_eq_of_state (h.task _)]
    · rfl
    all_goals rw [hhand]; rfl
  | dispatch hwaits =>
    have hphase := hp.call rfl
    refine h.next (.dispatch hphase hwaits) ?_ (h.listed.set (by simp [hphase]) (by simp [hphase]))
    rw [← next_eq (h.task _)]
    · rfl
    · rw [hphase]
      rfl
  | ready hwaits =>
    exact sound_enqueue h.task h.paired h.listed (fun u _ => h.settled u) (.inl (hp.call rfl))
      hwaits
  | @take t rest hqueue =>
    have hphase : (c.tasks t).phase = .queued :=
      (h.listed.queued t).mp (hqueue ▸ List.mem_cons_self)
    refine h.next (.take hphase) ?_ (h.listed.take hqueue)
    rw [← next_eq_of_state (h.task _)]
    · rfl
    all_goals rw [hphase]; rfl
  | begin t =>
    have hphase := hp.work rfl
    refine h.next (.begin hphase) ?_ (h.listed.set (by simp [hphase]) (by simp [hphase]))
    rw [← next_eq (h.task _)]
    · rfl
    · rw [hphase]
      rfl
  | finish t =>
    have hphase := hp.work rfl
    exact h.next (.finish hphase) rfl (h.listed.set (by simp [hphase]) (by simp [hphase]))
  | @tell d t rest hwaits =>
    obtain ⟨htask, hpaired, hlisted, ht, hsettled⟩ := h.tell (hp.work rfl)
    refine ⟨htask, hpaired, hlisted, fun u hu => ?_⟩
    by_cases hut : u = t
    · rw [hut, ht] at hu ⊢
      exact fun hnil => hwaits ⟨hu, hnil⟩
    · exact hsettled u hut hu
  | @tellReady d t rest hwaits =>
    obtain ⟨htask, hpaired, hlisted, ht, hsettled⟩ := h.tell (hp.work rfl)
    refine sound_enqueue htask hpaired hlisted hsettled ?_ ?_
    · rw [ht]
      exact .inr hwaits.1
    · rw [ht]
      exact hwaits.2
  | unlock d =>
    have hphase := hp.work rfl
    refine h.next (.unlock hphase) ?_ (h.listed.set (by simp [hphase]) (by simp [hphase]))
    have hstate : (c.tasks d).state = .completed := by rw [h.state, hphase, TaskPhase.state]
    show _ = (c.set d { c.tasks d with
      state := .completed, locked := false, phase := .finished }).tasks
    rw [← hstate]

end ThreadPool

end Mastiff.Cartographer

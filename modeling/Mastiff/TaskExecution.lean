import Mathlib.Data.Prod.Lex
import Mastiff.TaskDependencies

/-!
# The execution of tasks

`dependencies_first` : in every run no `CHECK` fails, a task is executed at most once, after it was
scheduled and after the execution of every task it depends on. When all threads are at rest and the
queue is empty, every task that was scheduled has been executed.

`executes_all` : a thread of the pool that runs alone executes every task that was scheduled.

A thread is at work with certain tasks, and no other is. With every task in an active phase there is
one (`Manned`). So when all threads are at rest, a task that has not been executed waits for one
that was scheduled before it, and that in turn for another.
-/

set_option linter.unusedSectionVars false

namespace Mastiff.Cartographer

open Machine Threads

variable {τ : Type}

/-- How many of `scheduled`, `began` and `ended` have been told of a task. -/
def TaskPhase.progress : TaskPhase → ℕ
  | .inHand | .adding _ => 0
  | .submitted | .waiting | .queued | .taken => 1
  | .executing => 2
  | .completing _ | .finished => 3

theorem TaskPhase.progress_of_completed {p : TaskPhase} (h : p.state = .completed) :
    p.progress = 3 := by
  cases p with
  | completing | finished => rfl
  | inHand | adding | submitted | waiting | queued | taken | executing => exact absurd h nofun

namespace ThreadPool

/-- The events so far are lawful, and tell the phases. -/
structure Told (c : ThreadPool) (es : List TaskEvent) : Prop where
  lawful : Lawful TaskLaw es
  depends : ∀ t d, .depends t d ∈ es ↔ d ∈ (c.tasks t).dependencies
  scheduled : ∀ t, .scheduled t ∈ es ↔ 1 ≤ (c.tasks t).phase.progress
  began : ∀ t, .began t ∈ es ↔ 2 ≤ (c.tasks t).phase.progress
  ended : ∀ t, .ended t ∈ es ↔ 3 ≤ (c.tasks t).phase.progress

variable {address : ℕ → ℕ} {c c' : ThreadPool} {p q : WorkerPlace} {t d : ℕ} {k : Task}
  {phase : TaskPhase} {es : List TaskEvent} {e : TaskEvent}

/-! ## Who has which task -/

theorem set_phase (c : ThreadPool) (t : ℕ) (k : Task) (u : ℕ) :
    ((c.set t k).tasks u).phase = if u = t then k.phase else (c.tasks u).phase := by
  rw [set_tasks, apply_ite Task.phase]

theorem setPhase_phase (c : ThreadPool) (t : ℕ) (phase : TaskPhase) (u : ℕ) :
    ((c.setPhase t phase).tasks u).phase = if u = t then phase else (c.tasks u).phase :=
  set_phase ..

theorem enqueue_phase (c : ThreadPool) (t u : ℕ) :
    ((c.enqueue t).tasks u).phase = if u = t then .queued else (c.tasks u).phase :=
  set_phase ..

theorem unwait_phase (c : ThreadPool) (t d u : ℕ) :
    ((c.unwait t d).tasks u).phase = (c.tasks u).phase := by
  rw [unwait, set_phase]
  split
  case isTrue hu => rw [hu]
  case isFalse => rfl

/-- What becomes of the tasks a thread is at work with. It changes these and the ones nobody is at
work with, and is at work with all that have got to an active phase. -/
structure Turnover (c c' : ThreadPool) (js js' : List (ℕ × TaskPhase)) : Prop where
  own : ∀ x ∈ js', (c'.tasks x.1).phase = x.2
  new : ∀ x ∈ js', (∃ y ∈ js, y.1 = x.1) ∨ ¬(c.tasks x.1).phase.Active
  other : ∀ u, (∀ y ∈ js, y.1 ≠ u) → (c.tasks u).phase.Active →
    (c'.tasks u).phase = (c.tasks u).phase
  found : ∀ u, (c'.tasks u).phase.Active → (u, (c'.tasks u).phase) ∈ js' ∨
    (c'.tasks u).phase = (c.tasks u).phase ∧ ∀ y ∈ js, y.1 ≠ u

variable {js js' : List (ℕ × TaskPhase)} {old : TaskPhase}

theorem Turnover.same (hphase : ∀ u, (c'.tasks u).phase = (c.tasks u).phase)
    (hjs : ∀ x ∈ js, (c.tasks x.1).phase = x.2) : Turnover c c' js js := by
  refine ⟨fun x hx => (hphase x.1).trans (hjs x hx), fun x hx => .inl ⟨x, hx, rfl⟩,
    fun u _ _ => hphase u, fun u _ => ?_⟩
  by_cases hu : ∃ y ∈ js, y.1 = u
  · obtain ⟨y, hy, rfl⟩ := hu
    rw [hphase, hjs y hy]
    exact .inl hy
  · exact .inr ⟨hphase u, fun y hy hyu => hu ⟨y, hy, hyu⟩⟩

/-- A thread takes up a task. -/
theorem Turnover.gain (ht : ¬(c.tasks t).phase.Active)
    (hphase : ∀ u, (c'.tasks u).phase = if u = t then phase else (c.tasks u).phase)
    (hjs : ∀ x ∈ js, (c.tasks x.1).phase = x.2) (hactive : ∀ x ∈ js, x.2.Active) :
    Turnover c c' js ((t, phase) :: js) := by
  have hne : ∀ x ∈ js, x.1 ≠ t := fun x hx hxt => ht (hxt ▸ hjs x hx ▸ hactive x hx)
  have hsame : ∀ u, u ≠ t → (c'.tasks u).phase = (c.tasks u).phase := fun u hu =>
    (hphase u).trans (if_neg hu)
  refine ⟨fun x hx => ?_, fun x hx => ?_, fun u _ hu => hsame u fun hut => ht (hut ▸ hu),
    fun u _ => ?_⟩
  · rcases List.mem_cons.mp hx with rfl | hx
    · exact (hphase t).trans (if_pos rfl)
    · exact (hsame x.1 (hne x hx)).trans (hjs x hx)
  · rcases List.mem_cons.mp hx with rfl | hx
    · exact .inr ht
    · exact .inl ⟨x, hx, rfl⟩
  · by_cases hut : u = t
    · rw [hphase, if_pos hut, hut]
      exact .inl List.mem_cons_self
    · by_cases hu : ∃ y ∈ js, y.1 = u
      · obtain ⟨y, hy, rfl⟩ := hu
        rw [hsame y.1 hut, hjs y hy]
        exact .inl (List.mem_cons_of_mem _ hy)
      · exact .inr ⟨hsame u hut, fun y hy hyu => hu ⟨y, hy, hyu⟩⟩

/-- A thread leaves a task. -/
theorem Turnover.lose (hpassive : ¬phase.Active)
    (hphase : ∀ u, (c'.tasks u).phase = if u = t then phase else (c.tasks u).phase)
    (hjs : ∀ x ∈ js, (c.tasks x.1).phase = x.2) (hne : ∀ x ∈ js, x.1 ≠ t) :
    Turnover c c' ((t, old) :: js) js := by
  have hsame : ∀ u, u ≠ t → (c'.tasks u).phase = (c.tasks u).phase := fun u hu =>
    (hphase u).trans (if_neg hu)
  refine ⟨fun x hx => (hsame x.1 (hne x hx)).trans (hjs x hx),
    fun x hx => .inl ⟨x, List.mem_cons_of_mem _ hx, rfl⟩,
    fun u hu _ => hsame u (hu _ List.mem_cons_self).symm, fun u hactive => ?_⟩
  have hut : u ≠ t := by
    rintro rfl
    rw [hphase, if_pos rfl] at hactive
    exact hpassive hactive
  by_cases hu : ∃ y ∈ js, y.1 = u
  · obtain ⟨y, hy, rfl⟩ := hu
    rw [hsame y.1 hut, hjs y hy]
    exact .inl hy
  · refine .inr ⟨hsame u hut, fun y hy hyu => ?_⟩
    rcases List.mem_cons.mp hy with rfl | hy
    · exact hut hyu.symm
    · exact hu ⟨y, hy, hyu⟩

/-- A thread goes on with its task, while others get from one passive phase to another. -/
theorem Turnover.change (ht : (c'.tasks t).phase = phase)
    (hphase : ∀ u, u ≠ t → (c'.tasks u).phase = (c.tasks u).phase ∨
      ¬(c.tasks u).phase.Active ∧ ¬(c'.tasks u).phase.Active) :
    Turnover c c' [(t, old)] [(t, phase)] := by
  refine ⟨fun x hx => ?_, fun x hx => .inl ⟨(t, old), List.mem_cons_self, ?_⟩,
    fun u hu hactive => ?_, fun u hactive => ?_⟩
  · rw [List.mem_singleton.mp hx]
    exact ht
  · rw [List.mem_singleton.mp hx]
  · exact (hphase u (hu _ List.mem_cons_self).symm).resolve_right fun hno => hno.1 hactive
  · by_cases hut : u = t
    · rw [hut, ht]
      exact .inl List.mem_cons_self
    · refine .inr ⟨(hphase u hut).resolve_right fun hno => hno.2 hactive, fun y hy => ?_⟩
      rw [List.mem_singleton.mp hy]
      exact Ne.symm hut

theorem active_of_mem_jobs {x : ℕ × TaskPhase} (hx : x ∈ p.jobs) : x.2.Active := by
  obtain ⟨work, call⟩ := p
  rw [WorkerPlace.jobs, List.mem_append, Option.mem_toList, Option.mem_toList] at hx
  rcases hx with hx | hx
  · cases call <;> cases hx <;> trivial
  · cases work <;> cases hx <;> trivial

theorem state_of_call {call : TaskCall} (hcall : call.job = some (t, phase)) :
    phase.state = .new := by
  cases call <;> cases hcall <;> rfl

theorem state_of_work {work : PoolWork} (hwork : work.job = some (t, phase)) :
    phase.state ≠ .new := by
  cases work <;> cases hwork <;> exact nofun

/-- A work item that is in a call is not the one of the call's task. -/
theorem Knows.work_ne {work : PoolWork} {call : TaskCall} (h : c.Knows ⟨work, call⟩)
    (hcall : call.job = some (t, phase)) : ∀ x ∈ work.job.toList, x.1 ≠ t := by
  rintro ⟨u, phase'⟩ hx rfl
  have hwork : work.job = some (u, phase') := Option.mem_toList.mp hx
  have hsame : phase' = phase := (h.work hwork).symm.trans (h.call hcall)
  exact state_of_work hwork (hsame ▸ state_of_call hcall)

theorem Knows.work_jobs {work : PoolWork} {call : TaskCall} (h : c.Knows ⟨work, call⟩) :
    ∀ x ∈ work.job.toList, (c.tasks x.1).phase = x.2 :=
  fun x hx => h x (List.mem_append_right _ hx)

variable {r : (ThreadPool × WorkerPlace) × TaskEvent}

theorem Stepped.turnover (h : c.Sound) (hp : c.Knows p) (hr : Stepped address c p r) :
    Turnover c r.1.1 p.jobs r.1.2.jobs := by
  have hactive := fun x => active_of_mem_jobs (p := p) (x := x)
  cases hr with
  | stay | leave | getState | shutDown => exact .same (fun _ => rfl) hp
  | expire =>
    refine .same (fun u => ?_) hp
    rw [set_phase]
    split
    case isTrue hu => rw [hu]
    case isFalse => rfl
  | depend hhand => exact .gain (by simp [hhand, TaskPhase.Active]) (set_phase c _ _) hp hactive
  | submit hhand => exact .gain (by simp [hhand, TaskPhase.Active]) (set_phase c _ _) hp hactive
  | take hqueue =>
    have hphase := (h.listed.queued _).mp (hqueue ▸ List.mem_cons_self)
    exact .gain (by simp [hphase, TaskPhase.Active]) (set_phase c _ _) hp hactive
  | link =>
    refine .lose (show ¬TaskPhase.inHand.Active from id) (fun u => ?_) hp.work_jobs (hp.work_ne rfl)
    rw [setPhase_phase, set_phase]
    split
    · rfl
    · split
      case isTrue hu => rw [hu]
      case isFalse => rfl
  | drop =>
    refine .lose (show ¬TaskPhase.inHand.Active from id) (fun u => ?_) hp.work_jobs (hp.work_ne rfl)
    rw [setPhase_phase, unwait_phase]
  | dispatch => exact .lose id (set_phase c _ _) hp.work_jobs (hp.work_ne rfl)
  | ready => exact .lose id (enqueue_phase c _) hp.work_jobs (hp.work_ne rfl)
  | unlock => exact .lose id (set_phase c _ _) (fun _ => nofun) (fun _ => nofun)
  | begin t | finish t =>
    refine .change (by rw [set_tasks_self]) fun u hu => .inl ?_
    rw [set_tasks_of_ne hu]
  | @tell d t rest =>
    refine .change (by rw [setPhase_phase, if_pos rfl]) fun u hu => .inl ?_
    rw [setPhase_phase, if_neg hu, unwait_phase]
  | @tellReady d t rest hwaits =>
    have hd : (c.tasks d).phase = .completing (t :: rest) := hp.work rfl
    have hne : d ≠ t := fun hdt => by simp [hdt, hwaits.1] at hd
    refine .change ?_ fun u hu => ?_
    · rw [enqueue_phase, if_neg hne, setPhase_phase, if_pos rfl]
    · rw [enqueue_phase, setPhase_phase, if_neg hu, unwait_phase]
      split
      case isTrue hut => exact .inr ⟨by simp [hut, hwaits.1, TaskPhase.Active], id⟩
      case isFalse => exact .inl rfl

/-! ## Events -/

theorem Told.snoc (h : c.Told es) (hlaw : TaskLaw es e)
    (hdep : ∀ u d, d ∈ (c'.tasks u).dependencies ↔ d ∈ (c.tasks u).dependencies ∨ e = .depends u d)
    (hphase : ∀ u, (1 ≤ (c'.tasks u).phase.progress ↔
        1 ≤ (c.tasks u).phase.progress ∨ e = .scheduled u) ∧
      (2 ≤ (c'.tasks u).phase.progress ↔ 2 ≤ (c.tasks u).phase.progress ∨ e = .began u) ∧
      (3 ≤ (c'.tasks u).phase.progress ↔ 3 ≤ (c.tasks u).phase.progress ∨ e = .ended u)) :
    c'.Told (es ++ [e]) := by
  have hmem : ∀ e', e' ∈ es ++ [e] ↔ e' ∈ es ∨ e = e' := fun e' => by
    rw [List.mem_append, List.mem_singleton, eq_comm]
  refine ⟨lawful_snoc.mpr ⟨h.lawful, hlaw⟩, fun u d => ?_, fun u => ?_, fun u => ?_, fun u => ?_⟩
  · rw [hmem, h.depends, hdep]
  · rw [hmem, h.scheduled, (hphase u).1]
  · rw [hmem, h.began, (hphase u).2.1]
  · rw [hmem, h.ended, (hphase u).2.2]

/-- The tasks have the dependencies they had, and have got no further. -/
def Still (c c' : ThreadPool) : Prop :=
  ∀ u, (c'.tasks u).dependencies = (c.tasks u).dependencies ∧
    (c'.tasks u).phase.progress = (c.tasks u).phase.progress

theorem Still.set (hdep : k.dependencies = (c.tasks t).dependencies)
    (hphase : k.phase.progress = (c.tasks t).phase.progress) : Still c (c.set t k) := by
  intro u
  rw [set_tasks]
  split
  case isTrue hu => exact hu ▸ ⟨hdep, hphase⟩
  case isFalse => exact ⟨rfl, rfl⟩

theorem Still.trans {c'' : ThreadPool} (h : Still c c') (h' : Still c' c'') : Still c c'' :=
  fun u => ⟨(h' u).1.trans (h u).1, (h' u).2.trans (h u).2⟩

theorem Still.setPhase (h : Still c c') (ht : phase.progress = (c.tasks t).phase.progress) :
    Still c (c'.setPhase t phase) :=
  h.trans (Still.set rfl (ht.trans (h t).2.symm))

theorem Still.enqueue (h : Still c c') (ht : (c.tasks t).phase.progress = 1) :
    Still c (c'.enqueue t) := by
  have hset : Still c' (c'.set t { c'.tasks t with
      state := .dependenciesCompleted, phase := .queued }) :=
    Still.set rfl ((h t).2.trans ht).symm
  exact h.trans hset

theorem Told.quiet (h : c.Told es) (hc : Still c c') : c'.Told (es ++ [.quiet]) := by
  refine h.snoc trivial (fun u d => ?_) fun u => ?_
  · rw [(hc u).1, or_iff_left nofun]
  · rw [(hc u).2]
    simp

/-- A task gets on, and that is told. -/
theorem Told.set (h : c.Told es) (hlaw : TaskLaw es e)
    (hdep : k.dependencies = (c.tasks t).dependencies)
    (hself : (1 ≤ k.phase.progress ↔ 1 ≤ (c.tasks t).phase.progress ∨ e = .scheduled t) ∧
      (2 ≤ k.phase.progress ↔ 2 ≤ (c.tasks t).phase.progress ∨ e = .began t) ∧
      (3 ≤ k.phase.progress ↔ 3 ≤ (c.tasks t).phase.progress ∨ e = .ended t))
    (hother : ∀ u d, e ≠ .depends u d ∧
      (u ≠ t → e ≠ .scheduled u ∧ e ≠ .began u ∧ e ≠ .ended u)) :
    (c.set t k).Told (es ++ [e]) := by
  refine h.snoc hlaw (fun u d => ?_) fun u => ?_
  · rw [or_iff_left (hother u d).1, set_tasks]
    split
    case isTrue hu => rw [hdep, hu]
    case isFalse => exact Iff.rfl
  · rw [set_tasks]
    split
    case isTrue hu =>
      rw [hu]
      exact hself
    case isFalse hu =>
      obtain ⟨hscheduled, hbegan, hended⟩ := (hother u 0).2 hu
      exact ⟨(or_iff_left hscheduled).symm, (or_iff_left hbegan).symm, (or_iff_left hended).symm⟩

/-- A dependency that is added is told. -/
theorem Told.depend (h : c.Told es) (ht : (c.tasks t).phase = .inHand)
    (hd : (c.tasks d).phase.Given) (hdep : k.dependencies = d :: (c.tasks t).dependencies)
    (hphase : k.phase.progress = 0) : (c.set t k).Told (es ++ [.depends t d]) := by
  refine h.snoc ⟨?_, ?_⟩ (fun u d' => ?_) fun u => ?_
  · rw [h.scheduled, ht]
    exact nofun
  · rw [h.scheduled]
    revert hd
    cases (c.tasks d).phase <;> simp [TaskPhase.Given, TaskPhase.progress]
  · rw [set_tasks]
    split
    case isTrue hu => simp [hu, hdep, or_comm, eq_comm]
    case isFalse hu => simp [Ne.symm hu]
  · rw [set_tasks]
    split
    case isTrue hu =>
      rw [hu, hphase, ht, TaskPhase.progress]
      simp
    case isFalse hu => simp

/-- A step tells what it does. -/
theorem Told.stepped (h : c.Told es) (hsound : c.Sound) (hp : c.Knows p)
    (hr : Stepped address c p r) : r.1.1.Told (es ++ [r.2]) := by
  cases hr with
  | stay | leave | getState | shutDown => exact h.quiet fun u => ⟨rfl, rfl⟩
  | expire hhand hfinished => 
    exact h.depend hhand (hfinished ▸ trivial) rfl (by rw [hhand]; rfl)
  | depend hhand hgiven => exact h.depend hhand hgiven rfl rfl
  | @submit work t hhand =>
    have hnot : TaskEvent.scheduled t ∉ es := by
      rw [h.scheduled, hhand]
      exact nofun
    have hset : (c.set t { c.tasks t with phase := .submitted }).Told (es ++ [.scheduled t]) :=
      h.set hnot rfl (by simp [hhand, TaskPhase.progress]) fun u d => by simp [eq_comm]
    exact ⟨hset.lawful, hset.depends, hset.scheduled, hset.began, hset.ended⟩
  | link | drop =>
    have hphase := hp.call rfl
    refine h.quiet (Still.setPhase (Still.set rfl rfl) ?_)
    rw [hphase]
    rfl
  | dispatch =>
    have hphase := hp.call rfl
    refine h.quiet (Still.set rfl ?_)
    rw [hphase]
    rfl
  | @ready work t =>
    have hphase := hp.call rfl
    refine h.quiet (Still.enqueue (fun u => ⟨rfl, rfl⟩) ?_)
    rw [hphase]
    rfl
  | @take t rest hqueue =>
    have hphase := (hsound.listed.queued _).mp (hqueue ▸ List.mem_cons_self)
    have hstill : Still c (c.setPhase t .taken) :=
      Still.setPhase (fun u => ⟨rfl, rfl⟩) (by rw [hphase]; rfl)
    exact h.quiet hstill
  | begin t =>
    have hphase := hp.work rfl
    refine h.set ⟨?_, ?_, fun d hd => ?_⟩ rfl (by simp [hphase, TaskPhase.progress]) fun u d => by
      simp [eq_comm]
    · rw [h.scheduled, hphase]
      exact Nat.le_refl 1
    · rw [h.began, hphase]
      exact nofun
    · have hwaits : (c.tasks t).waits = [] := by
        by_contra hwaits
        have hearly := (hsound.task t).early hwaits
        rw [hphase] at hearly
        exact hearly
      rw [h.ended]
      rw [h.depends] at hd
      refine le_of_eq (TaskPhase.progress_of_completed ?_).symm
      exact hsound.paired.done t d hd (hwaits ▸ List.not_mem_nil)
  | finish t =>
    have hphase := hp.work rfl
    refine h.set ⟨?_, ?_⟩ rfl (by simp [hphase, TaskPhase.progress]) fun u d => by simp [eq_comm]
    · rw [h.began, hphase]
      exact Nat.le_refl 2
    · rw [h.ended, hphase]
      exact nofun
  | @tell d t rest =>
    have hphase := hp.work rfl
    refine h.quiet (Still.setPhase (Still.set rfl rfl) ?_)
    rw [hphase]
    rfl
  | @tellReady d t rest hwaits =>
    have hphase := hp.work rfl
    refine h.quiet (Still.enqueue (Still.setPhase (Still.set rfl rfl) ?_) ?_)
    · rw [hphase]
      rfl
    · rw [hwaits.1]
      rfl
  | unlock d =>
    have hphase := hp.work rfl
    refine h.quiet (Still.set rfl ?_)
    rw [hphase]
    rfl

/-! ## Runs -/

theorem stable (address : ℕ → ℕ) : Stable (τ := τ) (act address)
    (fun es c => c.Sound ∧ c.Told es) (fun _ _ c p => c.Knows p) WorkerPlace.Apart := by
  refine ⟨fun p q h x hx y hy => Ne.symm (h y hy x hx), fun t i es c p ⟨h, htold⟩ hp => ?_,
    fun t i u es c p q _ ⟨h, htold⟩ hp hq hpq => ?_⟩
  · have hr := stepped address h hp i t
    exact ⟨⟨h.stepped hp hr, htold.stepped h hp hr⟩, (hr.turnover h hp).own⟩
  · have hturn := (stepped address h hp i t).turnover h hp
    have hactive : ∀ y ∈ q.jobs, (c.tasks y.1).phase.Active := fun y hy =>
      hq y hy ▸ active_of_mem_jobs hy
    refine ⟨fun y hy => ?_, fun x hx y hy hxy => ?_⟩
    · exact (hturn.other y.1 (fun z hz => hpq z hz y hy) (hactive y hy)).trans (hq y hy)
    · rcases hturn.new x hx with ⟨z, hz, hzx⟩ | hpassive
      · exact hpq z hz y hy (hzx.trans hxy)
      · exact hpassive (hxy ▸ hactive y hy)

theorem sound_start : ThreadPool.Sound {} := by
  refine ⟨fun t => ?_, ⟨fun t d => nofun, fun d t => nofun, fun t d => ?_, fun t d => nofun⟩,
    ⟨fun t => ?_, List.nodup_nil, fun t => ?_, List.nodup_nil⟩, fun t => nofun⟩
  · exact ⟨rfl, rfl, rfl, List.nodup_nil, List.nodup_nil, fun d => nofun, List.Sublist.refl _,
      fun _ => trivial⟩
  · simp [Task.pending]
  · simp
  · simp

theorem told_start : ThreadPool.Told {} [] := by
  refine ⟨lawful_nil _, fun t d => ?_, fun t => ?_, fun t => ?_, fun t => ?_⟩
  all_goals simp [TaskPhase.progress]

variable [DecidableEq τ]

theorem outline_run (address : ℕ → ℕ) (past : List (τ × TaskTurn)) :
    Outline (fun es c => c.Sound ∧ c.Told es) (fun _ _ c p => c.Knows p) WorkerPlace.Apart
      (run (Threads.step (act address)) start past).2
      (run (Threads.step (act address)) start past).1 :=
  Threads.outline_run (stable address) past
    ⟨⟨sound_start, told_start⟩, fun _ _ => nofun, fun _ _ _ _ => nofun⟩

/-- Some thread is at work with every task in an active phase. -/
def Manned (s : State τ ThreadPool WorkerPlace) : Prop :=
  ∀ t phase, phase.Active → (s.shared.tasks t).phase = phase → ∃ u, (t, phase) ∈ (s.place u).jobs

theorem Manned.step {s : State τ ThreadPool WorkerPlace} (hs : Manned s) (h : s.shared.Sound)
    (t : τ × TaskTurn) (hp : s.shared.Knows (s.place t.1)) :
    Manned (Threads.step (act address) s t).1 := by
  intro u phase hactive
  refine someone_step (act address) (A := fun c => (c.tasks u).phase = phase)
    (P := fun p => (u, phase) ∈ p.jobs) (hs u phase hactive) t fun W hW hu => ?_
  have hturn := (stepped address h hp t.2 t.1).turnover h hp
  rcases hturn.found u (hu ▸ hactive) with hmem | ⟨hsame, hnone⟩
  · exact .inl (hu ▸ hmem)
  · exact .inr ((hW (hsame.symm.trans hu)).resolve_left fun hmem => hnone _ hmem rfl)

theorem manned_run (address : ℕ → ℕ) (past : List (τ × TaskTurn)) :
    Manned (run (Threads.step (act address)) start past).1 := by
  have h : Outline _ _ _ _ (run (Threads.step (act address)) (start (τ := τ)) past).1 ∧
      Manned (run (Threads.step (act address)) start past).1 :=
    run_history (fun es s => Outline (fun es c => c.Sound ∧ c.Told es) (fun _ _ c p => c.Knows p)
        WorkerPlace.Apart es s ∧ Manned s)
      (fun _ _ t h =>
        ⟨outline_step (stable address) h.1 t, h.2.step h.1.shared.1 t (h.1.place t.1)⟩)
      past ⟨outline_run address [], fun t phase hactive ht => ?_⟩
  · exact h.2
  · exact absurd hactive (ht ▸ id)

variable {s : State τ ThreadPool WorkerPlace}

/-- A task that was scheduled and cannot go on waits for one that was scheduled before it. -/
theorem exists_earlier (h : s.shared.Sound) (htold : s.shared.Told es) (hmanned : Manned s)
    (hrest : ∀ u, (s.place u).AtRest) (hqueue : s.shared.taskQueue = []) (ht : .scheduled t ∈ es)
    (hend : .ended t ∉ es) :
    ∃ d, .scheduled d ∈ es ∧ .ended d ∉ es ∧
      es.idxOf (.scheduled d) < es.idxOf (.scheduled t) := by
  have hpassive : ∀ u, ¬(s.shared.tasks u).phase.Active := by
    intro u hu
    obtain ⟨v, hv⟩ := hmanned u _ hu rfl
    rw [(hrest v).jobs] at hv
    exact absurd hv List.not_mem_nil
  have hqueued : ∀ u, (s.shared.tasks u).phase ≠ .queued := fun u hu => by
    have hmem := (h.listed.queued u).mpr hu
    rw [hqueue] at hmem
    exact absurd hmem List.not_mem_nil
  -- the task waits
  have hphase : (s.shared.tasks t).phase = .waiting := by
    rw [htold.scheduled] at ht
    rw [htold.ended] at hend
    have hp := hpassive t
    have hq := hqueued t
    revert ht hend hp hq
    cases (s.shared.tasks t).phase <;> simp [TaskPhase.progress, TaskPhase.Active]
  obtain ⟨d, hd⟩ := List.exists_mem_of_ne_nil _ (h.settled t hphase)
  have hpending : t ∈ (s.shared.tasks d).pending := by
    refine ((h.paired.waits t d).mp hd).resolve_left fun hp => ?_
    rw [hphase] at hp
    exact absurd hp nofun
  have hdep : .depends t d ∈ es := (htold.depends t d).mpr ((h.task t).waits d hd)
  obtain ⟨before, after, rfl⟩ := List.append_of_mem hdep
  obtain ⟨hnot, hbefore⟩ := htold.lawful before _ after rfl
  refine ⟨d, List.mem_append_left _ hbefore, fun hended => ?_, ?_⟩
  · rw [htold.ended] at hended
    have hp := hpassive d
    revert hended hp hpending
    rw [Task.pending]
    cases (s.shared.tasks d).phase <;> simp [TaskPhase.progress, TaskPhase.Active]
  · rw [List.idxOf_append_of_mem hbefore, List.idxOf_append_of_notMem hnot]
    exact Nat.lt_add_right _ (List.idxOf_lt_length_of_mem hbefore)

/-- When all threads are at rest and the queue is empty, every task that was scheduled has ended. -/
theorem ended_of_atRest (h : s.shared.Sound) (htold : s.shared.Told es) (hmanned : Manned s)
    (hrest : ∀ u, (s.place u).AtRest) (hqueue : s.shared.taskQueue = []) (t : ℕ)
    (ht : .scheduled t ∈ es) : .ended t ∈ es := by
  induction hn : es.idxOf (.scheduled t) using Nat.strong_induction_on generalizing t with
  | _ n ih =>
    by_contra hend
    obtain ⟨d, hd, hend', hlt⟩ := exists_earlier h htold hmanned hrest hqueue ht hend
    exact hend' (ih _ (hn ▸ hlt) d hd rfl)

/-- In every run no `CHECK` fails, and every task begins at most once, after it was scheduled and
after the end of all tasks it depends on. When all threads are at rest and the queue is empty, every
task that was scheduled has been executed. -/
theorem dependencies_first (address : ℕ → ℕ) (past : List (τ × TaskTurn)) :
    let r := run (Threads.step (act address)) start past
    Lawful TaskLaw r.2 ∧
      ((∀ u, (r.1.place u).AtRest) → r.1.shared.taskQueue = [] →
        ∀ t, .scheduled t ∈ r.2 → .ended t ∈ r.2) := by
  intro r
  obtain ⟨h, htold⟩ := (outline_run address past).shared
  exact ⟨htold.lawful, fun hrest hqueue t ht =>
    ended_of_atRest h htold (manned_run address past) hrest hqueue t ht⟩

/-! ## A thread that runs alone -/

/-- The steps a thread makes before it is at rest. -/
def left (c : ThreadPool) : PoolWork → ℕ
  | .wait | .returned => 0
  | .getState t => (c.tasks t).dependentTasks.length + 4
  | .execute t => (c.tasks t).dependentTasks.length + 3
  | .run t => (c.tasks t).dependentTasks.length + 2
  | .notify _ rest => rest.length + 1

/-- The tasks that have not been taken, and then the steps with the one that was. -/
def rank (c : ThreadPool) (work : PoolWork) : ℕ ×ₗ ℕ :=
  toLex (c.tasksNotReady.length + c.taskQueue.length, c.left work)

/-- No mutex a thread of the pool takes is held by another. -/
theorem Knows.not_locked {work : PoolWork} (h : c.Sound) (hp : c.Knows ⟨work, .none⟩) :
    ((⟨work, .none⟩ : WorkerPlace).locks.any fun t => (c.tasks t).locked) = false := by
  cases work with
  | wait | returned => rfl
  | getState t | execute t | run t =>
    have hphase := hp.work rfl
    rw [WorkerPlace.locks, Option.any_some, (h.task t).locked, hphase]
    rfl
  | notify d rest =>
    cases rest with
    | nil => rfl
    | cons t rest =>
      obtain ⟨-, hearly, -⟩ := h.waits_of_notify (hp.work rfl)
      rw [WorkerPlace.locks, Option.any_some, (h.task t).locked]
      revert hearly
      cases (c.tasks t).phase <;> simp [TaskPhase.Early, TaskPhase.locked]

/-- With each step there is less left to do, unless there is nothing. -/
theorem rank_workStep {work : PoolWork} (h : c.Sound) (hp : c.Knows ⟨work, .none⟩)
    (hleft : work = .wait ∨ work = .returned → c.taskQueue ≠ []) (hreturned : work ≠ .returned) :
    ∃ r, c.workStep work = some r ∧ r.1.1.rank r.1.2 < c.rank work ∧
      (r.1.2 = .returned → r.1.1.taskQueue = []) := by
  have hlt : ∀ {c' : ThreadPool} {work' : PoolWork},
      c'.tasksNotReady.length + c'.taskQueue.length =
        c.tasksNotReady.length + c.taskQueue.length →
      c'.left work' < c.left work → c'.rank work' < c.rank work := fun hsame hless =>
    Prod.Lex.toLex_lt_toLex.mpr (.inr ⟨hsame, hless⟩)
  cases work with
  | wait =>
    obtain ⟨t, rest, hqueue⟩ := List.exists_cons_of_ne_nil (hleft (.inl rfl))
    have hstep : c.workStep .wait =
        some (({ c with taskQueue := rest }.setPhase t .taken, .getState t), .quiet) := by
      rw [workStep, hqueue]
    refine ⟨_, hstep, Prod.Lex.toLex_lt_toLex.mpr (.inl ?_), fun hret => by cases hret⟩
    show c.tasksNotReady.length + rest.length < c.tasksNotReady.length + c.taskQueue.length
    rw [hqueue, List.length_cons]
    omega
  | getState t =>
    have hstate : (c.tasks t).state = .dependenciesCompleted := by
      rw [h.state, hp.work rfl, TaskPhase.state]
    refine ⟨_, if_pos hstate, hlt rfl ?_, fun hret => by cases hret⟩
    exact Nat.lt_succ_self _
  | execute t =>
    have hstate : (c.tasks t).state = .dependenciesCompleted := by
      rw [h.state, hp.work rfl, TaskPhase.state]
    refine ⟨_, if_pos hstate, hlt rfl ?_, fun hret => by cases hret⟩
    rw [left, left, set_tasks_self]
    exact Nat.lt_succ_self _
  | run t => exact ⟨_, rfl, hlt rfl (Nat.lt_succ_self _), fun hret => by cases hret⟩
  | notify d rest =>
    cases rest with
    | nil => exact ⟨_, rfl, hlt rfl Nat.one_pos, fun hret => by cases hret⟩
    | cons t rest =>
      obtain ⟨hd, -, -⟩ := h.waits_of_notify (hp.work rfl)
      rw [workStep, h.onDependenyCompleted hd]
      refine ⟨_, rfl, hlt ?_ (Nat.lt_succ_self _), fun hret => by cases hret⟩
      split
      case isTrue hwaits =>
        have ht : t ∈ c.tasksNotReady := (h.listed.notReady t).mpr (.inr hwaits.1)
        have hpos := List.length_pos_of_mem ht
        show (c.tasksNotReady.erase t).length + (c.taskQueue ++ [t]).length = _
        rw [List.length_erase_of_mem ht, List.length_append, List.length_singleton]
        omega
      case isFalse => rfl
  | returned => exact absurd rfl hreturned

/-- What a thread that is in no call does next. -/
theorem act_go {work : PoolWork} (h : c.Sound) (hp : c.Knows ⟨work, .none⟩)
    {r : (ThreadPool × PoolWork) × TaskEvent} (hr : c.workStep work = some r) (v : τ) :
    act address v .go c ⟨work, .none⟩ = ((r.1.1, ⟨r.1.2, .none⟩), r.2) := by
  rw [act, goOn, hp.not_locked h]
  simp [hr]

/-- A thread that runs alone. -/
def goAlone (address : ℕ → ℕ) (v : τ) (cp : ThreadPool × WorkerPlace) :
    ThreadPool × WorkerPlace :=
  (act address v .go cp.1 cp.2).1

/-- A thread of the pool that is in no call, and has not returned too early. -/
structure Going (cp : ThreadPool × WorkerPlace) : Prop where
  sound : cp.1.Sound
  knows : cp.1.Knows cp.2
  call : cp.2.call = .none
  returned : cp.2.work = .returned → cp.1.taskQueue = []

/-- The thread is at rest, and there is nothing in the queue. -/
def Idle (cp : ThreadPool × WorkerPlace) : Prop :=
  cp.2.AtRest ∧ cp.1.taskQueue = []

theorem Going.goAlone {cp : ThreadPool × WorkerPlace} (h : Going cp) (hnot : ¬Idle cp)
    (address : ℕ → ℕ) (v : τ) :
    Going (ThreadPool.goAlone address v cp) ∧
      (ThreadPool.goAlone address v cp).1.rank (ThreadPool.goAlone address v cp).2.work <
        cp.1.rank cp.2.work := by
  obtain ⟨c, work, call⟩ := cp
  obtain ⟨h, hp, rfl, hreturned⟩ := h
  have hleft : work = .wait ∨ work = .returned → c.taskQueue ≠ [] := fun hwork hqueue =>
    hnot ⟨⟨rfl, hwork⟩, hqueue⟩
  have hne : work ≠ .returned := fun hwork => hleft (.inr hwork) (hreturned hwork)
  obtain ⟨r, hr, hrank, hnext⟩ := rank_workStep h hp hleft hne
  have hstep := stepped address h hp .go v
  have hturn := hstep.turnover h hp
  have hsound := h.stepped hp hstep
  rw [ThreadPool.goAlone]
  rw [act_go h hp hr v] at hturn hsound ⊢
  exact ⟨⟨hsound, hturn.own, rfl, hnext⟩, hrank⟩

/-- After every run, if all other threads are at rest, a thread of the pool that is in no call and
runs alone executes every task that has been scheduled. -/
theorem executes_all (address : ℕ → ℕ) (past : List (τ × TaskTurn)) (v : τ)
    (hrest : ∀ u, u ≠ v →
      ((run (Threads.step (act address)) start past).1.place u).AtRest)
    (hcall : ((run (Threads.step (act address)) start past).1.place v).call = .none)
    (hwork : ((run (Threads.step (act address)) start past).1.place v).work ≠ .returned) :
    ∃ n, ∀ t, .scheduled t ∈
      (run (Threads.step (act address)) start (past ++ List.replicate n (v, .go))).2 →
        .ended t ∈
          (run (Threads.step (act address)) start (past ++ List.replicate n (v, .go))).2 := by
  obtain ⟨s, hs⟩ : ∃ s, s = (run (Threads.step (act address)) start past).1 := ⟨_, rfl⟩
  have hout := outline_run address past
  rw [← hs] at hout hrest hcall hwork
  have hgoing : Going (s.shared, s.place v) :=
    ⟨hout.shared.1, hout.place v, hcall, fun hret => absurd hret hwork⟩
  obtain ⟨n, ⟨hidle, hqueue⟩, -⟩ := exists_iterate_of_rank (fun cp => cp.1.rank cp.2.work)
    (fun cp (h : Going cp) hnot => h.goAlone hnot address v) hgoing
  have hend : (run (Threads.step (act address)) start (past ++ List.replicate n (v, .go))).1 =
      ⟨((goAlone address v)^[n] (s.shared, s.place v)).1,
        Function.update s.place v ((goAlone address v)^[n] (s.shared, s.place v)).2⟩ := by
    have hrun : (run (fun cp i => act address v i cp.1 cp.2) (s.shared, s.place v)
        (List.replicate n .go)).1 = (goAlone address v)^[n] (s.shared, s.place v) :=
      run_replicate _ _ n _
    rw [run_append, ← hs, ← List.map_replicate, run_alone, ← hrun]
  refine ⟨n, (dependencies_first address _).2 (fun u => ?_) ?_⟩
  · rw [hend]
    by_cases huv : u = v
    · rw [huv]
      show (Function.update s.place v _ v).AtRest
      rw [Function.update_self]
      exact hidle
    · show (Function.update s.place v _ u).AtRest
      rw [Function.update_of_ne huv]
      exact hrest u huv
  · rw [hend]
    exact hqueue

/-- A task and another that depends on it, which a thread of the pool executes. -/
theorem executes_all_two :
    ∃ n, ∀ t, .scheduled t ∈ (run (Threads.step (act id)) start
      ([(false, .schedule 0), (false, .go), (false, .addDependency 1 0 false), (false, .go),
        (false, .schedule 1), (false, .go)] ++ List.replicate n (true, .go))).2 →
        .ended t ∈ (run (Threads.step (act id)) start
          ([(false, .schedule 0), (false, .go), (false, .addDependency 1 0 false), (false, .go),
            (false, .schedule 1), (false, .go)] ++ List.replicate n (true, .go))).2 := by
  refine executes_all id _ true (fun u hu => ?_) rfl nofun
  rw [Bool.eq_false_iff.mpr hu]
  exact ⟨rfl, .inl rfl⟩

end ThreadPool

end Mastiff.Cartographer

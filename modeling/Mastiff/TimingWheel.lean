import Mathlib.Data.Nat.Bitwise
import Mastiff.Lib.Threads
import Mastiff.Lib.Wheel

/-!
# The timing wheel

`TimingWheel` (`cyber/timer/timing_wheel.cc`) runs the timers. A task that is due within 512
ticks of two milliseconds is in a bucket of the work wheel, and a later one in a bucket of the
assistant wheel, whose tasks are moved to the work wheel when that has gone round. One thread
ticks. `Timer::Start` (`cyber/timer/timer.cc`) and the callbacks of periodic timers add tasks
meanwhile : they read the index of the work wheel, choose a bucket, and put the task in it. A
run is any interleaving of these steps, and of the ones by which timers are stopped.

`fires_when_due` : a task that is in a wheel fires at the tick its bucket stands for, unless it
is stopped before, and at no other.

`added_on_time` : that tick is the one asked for, as long as the duration is not more than
`TIMER_MAX_INTERVAL_MS` and the adding thread is not overtaken by it or by the assistant wheel.
Where the work wheel has just gone round and the assistant wheel has not yet been moved on, it
can be 512 ticks early.

`Shutdown` is not modelled, nor what `Async` does with a callback. The indices are read without
a lock, and the reads are taken to be atomic. A timer is stopped when the last `shared_ptr` to its
task goes away : a callback that holds the task can still add it again after `Timer::Stop` has
returned.
-/

set_option linter.unusedSectionVars false

namespace Mastiff.Cyber

open Machine Threads SlotWheel

variable {τ : Type}

/-! ## The wheels -/

/-- `WORK_WHEEL_SIZE`. -/
def workWheelSize : ℕ := 512

/-- `ASSISTANT_WHEEL_SIZE`. -/
def assistantWheelSize : ℕ := 64

/-- `TIMER_RESOLUTION_MS`. -/
def timerResolutionMs : ℕ := 2

/-- `TIMER_MAX_INTERVAL_MS`. -/
def timerMaxIntervalMs : ℕ := workWheelSize * assistantWheelSize * timerResolutionMs

/-- Where the thread that ticks is in `TickFunc` : about to call `Tick`, holding the bucket's
mutex in it, asleep before the index of the work wheel moves, about to move that of the
assistant wheel, about to call `Cascade`, or holding the bucket's mutex in it. -/
inductive TickPhase
  | tick
  | drain
  | advanceWork
  | advanceAssistant
  | lockAssistant
  | cascade
  deriving DecidableEq

/-- The members of `TimingWheel`, with the `remainder_interval_ms` of every task. Tasks are
numbered as they are made. `expired` says that a task's timer was stopped, `calling` that it
fired and its callback has not added it again. `due` is the tick at which a task in a wheel
fires, kept for the statements alone. -/
structure TimingWheel where
  workWheel : ℕ → List ℕ := fun _ => []
  assistantWheel : ℕ → List ℕ := fun _ => []
  currentWorkWheelIndex : ℕ := 0
  currentAssistantWheelIndex : ℕ := 0
  tickCount : ℕ := 0
  phase : TickPhase := .tick
  remainder : ℕ → ℕ := fun _ => 0
  made : ℕ := 0
  expired : ℕ → Bool := fun _ => false
  calling : ℕ → Bool := fun _ => false
  due : ℕ → Option ℕ := fun _ => none

/-- A call of `AddTask` : how many milliseconds it was given, and at which tick it read the index
of the work wheel, which is kept for the statements alone. -/
structure AddCall where
  nextFireDurationMs : ℕ
  began : ℕ

/-- The duration in ticks, rounded up. -/
def AddCall.ticks (c : AddCall) : ℕ :=
  (c.nextFireDurationMs + (timerResolutionMs - 1)) / timerResolutionMs

/-- The tick that the call asks for. -/
def AddCall.asked (c : AddCall) : ℕ :=
  c.began + c.ticks

/-- Where a thread is in `AddTask` : outside, about to read the index, about to choose a wheel, or
about to put the task in a bucket of the work wheel, or in the one so many ticks of the
assistant wheel on. -/
inductive AddPlace
  | outside
  | read (task ms : ℕ)
  | choose (task : ℕ) (call : AddCall) (workWheelIndex : ℕ)
  | addWork (task : ℕ) (call : AddCall) (index : ℕ)
  | addAssistant (task : ℕ) (call : AddCall) (assistantTicks : ℕ)

/-- The task that a thread at the place is adding. -/
def AddPlace.task : AddPlace → Option ℕ
  | .outside => none
  | .read x _ | .choose x _ _ | .addWork x _ _ | .addAssistant x _ _ => some x

/-- A thread that is outside starts a timer, or a callback adds its task again ; a thread makes
its next step of `AddTask` ; a timer is stopped ; the thread that ticks makes its next step.
The last two do not depend on whose turn it is. -/
inductive TimerTurn
  | start (period : ℕ)
  | again (task nextFireDurationMs : ℕ)
  | go
  | stop (task : ℕ)
  | tick

/-- What a step tells : a task fired at a tick, or was put in a wheel to fire at one. -/
inductive TimerEvent
  | quiet
  | fired (task tick : ℕ)
  | added (task : ℕ) (call : AddCall) (due : ℕ)

namespace TimingWheel

/-- `GetWorkWheelIndex`. -/
def getWorkWheelIndex (index : ℕ) : ℕ :=
  index &&& (workWheelSize - 1)

/-- `GetAssistantWheelIndex`. -/
def getAssistantWheelIndex (index : ℕ) : ℕ :=
  index &&& (assistantWheelSize - 1)

/-- The tick that the index of the work wheel stands for. -/
def now (w : TimingWheel) : ℕ :=
  if w.phase = .advanceWork then w.tickCount - 1 else w.tickCount

/-- How often the index of the assistant wheel was moved. -/
def assistantRound (w : TimingWheel) : ℕ :=
  if w.phase = .advanceAssistant then w.now / 512 - 1 else w.now / 512

/-- The first round of the work wheel whose tasks were not all moved to it. -/
def nextRound (w : TimingWheel) : ℕ :=
  match w.phase with
  | .advanceAssistant | .lockAssistant | .cascade => w.now / 512
  | _ => w.now / 512 + 1

/-- The next step of the thread that ticks. -/
def tickStep (w : TimingWheel) : TimingWheel × TimerEvent :=
  match w.phase with
  | .tick => ({ w with phase := .drain }, .quiet)
  | .drain =>
    match w.workWheel w.currentWorkWheelIndex with
    | [] => ({ w with phase := .advanceWork, tickCount := w.tickCount + 1 }, .quiet)
    | task :: rest =>
      let w' := { w with
        workWheel := Function.update w.workWheel w.currentWorkWheelIndex rest
        due := Function.update w.due task none }
      if w.expired task then (w', .quiet)
      else
        ({ w' with calling := Function.update w.calling task true }, .fired task w.tickCount)
  | .advanceWork =>
    let index := getWorkWheelIndex (w.currentWorkWheelIndex + 1)
    ({ w with
      currentWorkWheelIndex := index
      phase := if index = 0 then .advanceAssistant else .tick }, .quiet)
  | .advanceAssistant =>
    ({ w with
      currentAssistantWheelIndex := getAssistantWheelIndex (w.currentAssistantWheelIndex + 1)
      phase := .lockAssistant }, .quiet)
  | .lockAssistant => ({ w with phase := .cascade }, .quiet)
  | .cascade =>
    match w.assistantWheel w.currentAssistantWheelIndex with
    | [] => ({ w with phase := .tick }, .quiet)
    | task :: rest =>
      let w' := { w with
        assistantWheel := Function.update w.assistantWheel w.currentAssistantWheelIndex rest }
      if w.expired task then ({ w' with due := Function.update w.due task none }, .quiet)
      else
        ({ w' with
          workWheel := Function.update w.workWheel (w.remainder task)
            (w.workWheel (w.remainder task) ++ [task]) }, .quiet)

/-- `AddTask` of a bucket of the work wheel. -/
def addWork (w : TimingWheel) (task index : ℕ) : TimingWheel :=
  { w with
    workWheel := Function.update w.workWheel index (w.workWheel index ++ [task])
    due := Function.update w.due task (some (next 512 w.tickCount index)) }

/-- `AddTask` of a bucket of the assistant wheel. -/
def addAssistant (w : TimingWheel) (task index : ℕ) : TimingWheel :=
  { w with
    assistantWheel := Function.update w.assistantWheel index (w.assistantWheel index ++ [task])
    due := Function.update w.due task
      (some (512 * next 64 w.nextRound index + w.remainder task)) }

/-- The next step of a thread in `AddTask`. A bucket whose mutex the thread that ticks holds makes
it wait. -/
def addStep (w : TimingWheel) : AddPlace → (TimingWheel × AddPlace) × TimerEvent
  | .outside => ((w, .outside), .quiet)
  | .read task ms =>
    let call : AddCall := ⟨ms, w.now⟩
    ((w, .choose task call (w.currentWorkWheelIndex + call.ticks)), .quiet)
  | .choose task call workWheelIndex =>
    if workWheelSize ≤ workWheelIndex then
      let realWorkWheelIndex := getWorkWheelIndex workWheelIndex
      let assistantTicks := workWheelIndex / workWheelSize
      let w' := { w with remainder := Function.update w.remainder task realWorkWheelIndex }
      if assistantTicks = 1 ∧ realWorkWheelIndex < w.currentWorkWheelIndex then
        ((w', .addWork task call realWorkWheelIndex), .quiet)
      else ((w', .addAssistant task call assistantTicks), .quiet)
    else ((w, .addWork task call workWheelIndex), .quiet)
  | .addWork task call index =>
    if w.phase = .drain ∧ index = w.currentWorkWheelIndex then
      ((w, .addWork task call index), .quiet)
    else
      ((w.addWork task index, .outside), .added task call (next 512 w.tickCount index))
  | .addAssistant task call assistantTicks =>
    let index := getAssistantWheelIndex (w.currentAssistantWheelIndex + assistantTicks)
    if w.phase = .cascade ∧ index = w.currentAssistantWheelIndex then
      ((w, .addAssistant task call assistantTicks), .quiet)
    else
      ((w.addAssistant task index, .outside),
        .added task call (512 * next 64 w.nextRound index + w.remainder task))

/-- A turn. `InitTimerTask` refuses a period of zero and one that is too long. -/
def act (_ : τ) (i : TimerTurn) (w : TimingWheel) (p : AddPlace) :
    (TimingWheel × AddPlace) × TimerEvent :=
  match i, p with
  | .start period, .outside =>
    if period = 0 ∨ timerMaxIntervalMs ≤ period then ((w, .outside), .quiet)
    else (({ w with made := w.made + 1 }, .read w.made period), .quiet)
  | .again task ms, .outside =>
    if w.calling task = true ∧ w.expired task = false then
      (({ w with calling := Function.update w.calling task false }, .read task ms), .quiet)
    else ((w, .outside), .quiet)
  | .go, p => w.addStep p
  | .stop task, p => (({ w with expired := Function.update w.expired task true }, p), .quiet)
  | .tick, p => ((w.tickStep.1, p), w.tickStep.2)
  | _, p => ((w, p), .quiet)

/-- No tasks, and all threads outside. -/
def start : State τ TimingWheel AddPlace :=
  ⟨{}, fun _ => .outside⟩

/-! ## The thread that ticks -/

theorem getWorkWheelIndex_eq (index : ℕ) : getWorkWheelIndex index = index % 512 :=
  Nat.and_two_pow_sub_one_eq_mod index 9

theorem getAssistantWheelIndex_eq (index : ℕ) : getAssistantWheelIndex index = index % 64 :=
  Nat.and_two_pow_sub_one_eq_mod index 6

/-- What a step of the thread that ticks does. -/
inductive Ticked (w : TimingWheel) : TimingWheel × TimerEvent → Prop
  | lock (hphase : w.phase = .tick) : Ticked w ({ w with phase := .drain }, .quiet)
  | fire {x : ℕ} {rest : List ℕ} (hphase : w.phase = .drain)
      (hslot : w.workWheel w.currentWorkWheelIndex = x :: rest) (halive : w.expired x = false) :
      Ticked w ({ w with
        workWheel := Function.update w.workWheel w.currentWorkWheelIndex rest
        due := Function.update w.due x none
        calling := Function.update w.calling x true }, .fired x w.tickCount)
  | drop {x : ℕ} {rest : List ℕ} (hphase : w.phase = .drain)
      (hslot : w.workWheel w.currentWorkWheelIndex = x :: rest) (hexpired : w.expired x = true) :
      Ticked w ({ w with
        workWheel := Function.update w.workWheel w.currentWorkWheelIndex rest
        due := Function.update w.due x none }, .quiet)
  | ticked (hphase : w.phase = .drain) (hslot : w.workWheel w.currentWorkWheelIndex = []) :
      Ticked w ({ w with phase := .advanceWork, tickCount := w.tickCount + 1 }, .quiet)
  | advanceWork (hphase : w.phase = .advanceWork)
      (hindex : (w.currentWorkWheelIndex + 1) % 512 ≠ 0) :
      Ticked w ({ w with
        currentWorkWheelIndex := (w.currentWorkWheelIndex + 1) % 512, phase := .tick }, .quiet)
  | turn (hphase : w.phase = .advanceWork) (hindex : (w.currentWorkWheelIndex + 1) % 512 = 0) :
      Ticked w ({ w with currentWorkWheelIndex := 0, phase := .advanceAssistant }, .quiet)
  | advanceAssistant (hphase : w.phase = .advanceAssistant) :
      Ticked w ({ w with
        currentAssistantWheelIndex := (w.currentAssistantWheelIndex + 1) % 64
        phase := .lockAssistant }, .quiet)
  | lockAssistant (hphase : w.phase = .lockAssistant) :
      Ticked w ({ w with phase := .cascade }, .quiet)
  | move {x : ℕ} {rest : List ℕ} (hphase : w.phase = .cascade)
      (hslot : w.assistantWheel w.currentAssistantWheelIndex = x :: rest)
      (halive : w.expired x = false) :
      Ticked w ({ w with
        assistantWheel := Function.update w.assistantWheel w.currentAssistantWheelIndex rest
        workWheel := Function.update w.workWheel (w.remainder x)
          (w.workWheel (w.remainder x) ++ [x]) }, .quiet)
  | forget {x : ℕ} {rest : List ℕ} (hphase : w.phase = .cascade)
      (hslot : w.assistantWheel w.currentAssistantWheelIndex = x :: rest)
      (hexpired : w.expired x = true) :
      Ticked w ({ w with
        assistantWheel := Function.update w.assistantWheel w.currentAssistantWheelIndex rest
        due := Function.update w.due x none }, .quiet)
  | cascaded (hphase : w.phase = .cascade)
      (hslot : w.assistantWheel w.currentAssistantWheelIndex = []) :
      Ticked w ({ w with phase := .tick }, .quiet)

theorem ticked (w : TimingWheel) : Ticked w w.tickStep := by
  unfold tickStep
  split
  case h_1 hphase => exact .lock hphase
  case h_2 hphase =>
    split
    case h_1 hslot => exact .ticked hphase hslot
    case h_2 x rest hslot =>
      cases hexpired : w.expired x
      · exact .fire hphase hslot hexpired
      · exact .drop hphase hslot hexpired
  case h_3 hphase =>
    rw [getWorkWheelIndex_eq]
    by_cases hindex : (w.currentWorkWheelIndex + 1) % 512 = 0
    · rw [hindex]
      exact .turn hphase hindex
    · simp only [if_neg hindex]
      exact .advanceWork hphase hindex
  case h_4 hphase =>
    rw [getAssistantWheelIndex_eq]
    exact .advanceAssistant hphase
  case h_5 hphase => exact .lockAssistant hphase
  case h_6 hphase =>
    split
    case h_1 hslot => exact .cascaded hphase hslot
    case h_2 x rest hslot =>
      cases hexpired : w.expired x
      · exact .move hphase hslot hexpired
      · exact .forget hphase hslot hexpired

/-! ## The clock -/

/-- The indices of the wheels are those of the ticks taken and of the rounds. The assistant wheel
moves when the work wheel has gone round. -/
structure Clock (w : TimingWheel) : Prop where
  workIndex : w.currentWorkWheelIndex = w.now % 512
  assistantIndex : w.currentAssistantWheelIndex = w.assistantRound % 64
  advanceWork : w.phase = .advanceWork → 0 < w.tickCount
  advanceAssistant : w.phase = .advanceAssistant → w.tickCount ≠ 0 ∧ w.tickCount % 512 = 0
  lockAssistant : w.phase = .lockAssistant → w.tickCount % 512 = 0
  cascade : w.phase = .cascade → w.tickCount % 512 = 0

variable {w w' : TimingWheel} {x : ℕ}

/-- The clock is that of the ticks, the phase and the indices. -/
theorem Clock.congr (h : w.Clock) (hphase : w'.phase = w.phase)
    (hcount : w'.tickCount = w.tickCount)
    (hwork : w'.currentWorkWheelIndex = w.currentWorkWheelIndex)
    (hassistant : w'.currentAssistantWheelIndex = w.currentAssistantWheelIndex) : w'.Clock := by
  have hnow : w'.now = w.now := by rw [now, now, hphase, hcount]
  have hround : w'.assistantRound = w.assistantRound := by
    rw [assistantRound, assistantRound, hphase, hnow]
  exact ⟨by rw [hwork, hnow]; exact h.workIndex, by rw [hassistant, hround]; exact h.assistantIndex,
    by rw [hphase, hcount]; exact h.advanceWork, by rw [hphase, hcount]; exact h.advanceAssistant,
    by rw [hphase, hcount]; exact h.lockAssistant, by rw [hphase, hcount]; exact h.cascade⟩

theorem Clock.ticked {r : TimingWheel × TimerEvent} (h : w.Clock) (hr : Ticked w r) :
    r.1.Clock := by
  obtain ⟨hwork, hassistant, hadvance, hboundary, hlock, hcascade⟩ := id h
  rw [assistantRound, now] at hassistant
  rw [now] at hwork
  cases hr
  case lock hphase =>
    simp only [hphase, reduceCtorEq, if_false] at hwork hassistant
    exact ⟨hwork, hassistant, nofun, nofun, nofun, nofun⟩
  case fire | drop | move | forget => exact h.congr rfl rfl rfl rfl
  case ticked hphase hslot =>
    simp only [hphase, reduceCtorEq, if_false] at hwork hassistant
    exact ⟨hwork, hassistant, fun _ => Nat.succ_pos _, nofun, nofun, nofun⟩
  case advanceWork hphase hindex =>
    have hpos := hadvance hphase
    simp only [hphase, reduceCtorEq, if_false, if_true] at hwork hassistant
    refine ⟨?_, ?_, nofun, nofun, nofun, nofun⟩
    · simp only [now, reduceCtorEq, if_false]
      omega
    · simp only [assistantRound, now, reduceCtorEq, if_false]
      omega
  case turn hphase hindex =>
    have hpos := hadvance hphase
    simp only [hphase, reduceCtorEq, if_false, if_true] at hwork hassistant
    refine ⟨?_, ?_, nofun, fun _ => ⟨?_, ?_⟩, nofun, nofun⟩
    · simp only [now, reduceCtorEq, if_false]
      omega
    · simp only [assistantRound, now, reduceCtorEq, if_false, if_true]
      omega
    · simp only
      omega
    · simp only
      omega
  case advanceAssistant hphase =>
    obtain ⟨hne, hzero⟩ := hboundary hphase
    simp only [hphase, reduceCtorEq, if_false, if_true] at hwork hassistant
    refine ⟨hwork, ?_, nofun, nofun, fun _ => hzero, nofun⟩
    simp only [assistantRound, now, reduceCtorEq, if_false]
    omega
  case lockAssistant hphase =>
    simp only [hphase, reduceCtorEq, if_false] at hwork hassistant
    exact ⟨hwork, hassistant, nofun, nofun, nofun, fun _ => hlock hphase⟩
  case cascaded hphase hslot =>
    simp only [hphase, reduceCtorEq, if_false] at hwork hassistant
    exact ⟨hwork, hassistant, nofun, nofun, nofun, nofun⟩

/-! ## What is in the buckets -/

/-- At tick `n`, and with the tasks of round `r` the next to be moved to the work wheel, every
task in a bucket is there for the tick it is due at, and one that is due and was not stopped is
in a bucket. -/
structure Filed (w : TimingWheel) (n r : ℕ) : Prop where
  work : Window 512 n w.due w.workWheel
  assistant : Window 64 r (fun x => (w.due x).map (· / 512)) w.assistantWheel
  remainder : ∀ j x k, x ∈ w.assistantWheel j → w.due x = some k → w.remainder x = k % 512
  apart : ∀ i j x, x ∈ w.workWheel i → x ∉ w.assistantWheel j
  waiting : ∀ x k, w.due x = some k → w.expired x = false →
    (∃ i, x ∈ w.workWheel i) ∨ ∃ j, x ∈ w.assistantWheel j
  calling : ∀ x, w.calling x = true → w.due x = none ∧ x < w.made
  made : ∀ x k, w.due x = some k → x < w.made

/-- A task that is in no bucket, and is being added by the thread that has it alone. -/
structure InFlight (w : TimingWheel) (x : ℕ) : Prop where
  due : w.due x = none
  calling : w.calling x = false
  made : x < w.made

namespace Filed

variable {n r j : ℕ} {rest : List ℕ}

theorem not_mem_work (h : w.Filed n r) (hx : w.due x = none) (j : ℕ) : x ∉ w.workWheel j :=
  h.work.not_mem hx j

theorem not_mem_assistant (h : w.Filed n r) (hx : w.due x = none) (j : ℕ) :
    x ∉ w.assistantWheel j :=
  h.assistant.not_mem (by rw [hx]; rfl) j

theorem due_of_update {d : Option ℕ} {y : ℕ} (hyx : y ≠ x) :
    Function.update w.due x d y = w.due y :=
  Function.update_of_ne hyx ..

theorem due_of_clear {y k : ℕ} (h : Function.update w.due x none y = some k) :
    y ≠ x ∧ w.due y = some k :=
  of_update h nofun

/-- A task that is not stopped is due at the tick, or later. -/
theorem le_due (h : w.Filed n r) (hn : n ≤ 512 * r) {k : ℕ} (hk : w.due x = some k)
    (halive : w.expired x = false) : n ≤ k := by
  rcases h.waiting x k hk halive with ⟨i, hi⟩ | ⟨j, hj⟩
  · obtain ⟨k', hk', hle, -⟩ := h.work.mem i x hi
    rw [Option.some.inj (hk.symm.trans hk')]
    exact hle
  · obtain ⟨k', hk', hle, -⟩ := h.assistant.mem j x hj
    rw [hk, Option.map_some, Option.some.injEq] at hk'
    omega

/-- Taking a task out of a bucket of the work wheel. -/
theorem takeWork (h : w.Filed n r) (hslot : w.workWheel j = x :: rest) {calling : ℕ → Bool}
    (hcalling : ∀ y, calling y = true → y = x ∨ w.calling y = true) :
    Filed { w with
      workWheel := Function.update w.workWheel j rest
      due := Function.update w.due x none
      calling := calling } n r := by
  have hx : x ∈ w.workWheel j := by
    rw [hslot]
    exact List.mem_cons_self
  obtain ⟨k, hk, -⟩ := h.work.mem j x hx
  refine ⟨h.work.pop hslot fun y => due_of_update, h.assistant.congr fun i y hy => ?_,
    fun i y k hy hdue => ?_, fun i i' y hy => h.apart i i' y (mem_of_pop hslot hy),
    fun y k hdue halive => ?_, fun y hy => ?_, fun y k hdue => ?_⟩
  · have hyx : y ≠ x := fun hyx => h.apart j i x hx (hyx ▸ hy)
    simp only [due_of_update hyx]
  · have hyx : y ≠ x := fun hyx => h.apart j i x hx (hyx ▸ hy)
    exact h.remainder i y k hy ((due_of_update hyx).symm.trans hdue)
  · obtain ⟨hyx, hk⟩ := due_of_clear hdue
    rcases h.waiting y k hk halive with ⟨i, hi⟩ | hi
    · exact .inl ⟨i, mem_pop hslot hyx hi⟩
    · exact .inr hi
  · by_cases hyx : y = x
    · rw [hyx]
      exact ⟨Function.update_self .., h.made x k hk⟩
    · obtain ⟨hnone, hlt⟩ := h.calling y ((hcalling y hy).resolve_left hyx)
      exact ⟨(due_of_update hyx).trans hnone, hlt⟩
  · exact h.made y k (due_of_clear hdue).2

/-- Taking a task that was stopped out of a bucket of the assistant wheel. -/
theorem forget (h : w.Filed n r) (hslot : w.assistantWheel j = x :: rest) :
    Filed { w with
      assistantWheel := Function.update w.assistantWheel j rest
      due := Function.update w.due x none } n r := by
  have hx : x ∈ w.assistantWheel j := by
    rw [hslot]
    exact List.mem_cons_self
  refine ⟨h.work.congr fun i y hy => ?_, h.assistant.pop hslot fun y hyx => ?_,
    fun i y k hy hdue => ?_, fun i i' y hy hy' => h.apart i i' y hy (mem_of_pop hslot hy'),
    fun y k hdue halive => ?_, fun y hy => ?_, fun y k hdue => ?_⟩
  · have hyx : y ≠ x := fun hyx => h.apart i j x (hyx ▸ hy) hx
    exact due_of_update hyx
  · simp only [due_of_update hyx]
  · have hyx : y ≠ x := fun hyx => h.assistant.not_mem_pop hslot i (hyx ▸ hy)
    exact h.remainder i y k (mem_of_pop hslot hy) ((due_of_update hyx).symm.trans hdue)
  · obtain ⟨hyx, hk⟩ := due_of_clear hdue
    rcases h.waiting y k hk halive with hi | ⟨i, hi⟩
    · exact .inl hi
    · exact .inr ⟨i, mem_pop hslot hyx hi⟩
  · obtain ⟨hnone, hlt⟩ := h.calling y hy
    by_cases hyx : y = x
    · rw [hyx] at hlt ⊢
      exact ⟨Function.update_self .., hlt⟩
    · exact ⟨(due_of_update hyx).trans hnone, hlt⟩
  · exact h.made y k (due_of_clear hdue).2

/-- Moving a task of the round from the assistant wheel to the work wheel. -/
theorem move (h : w.Filed n r) (hn : n = 512 * r) (hj : j = r % 64)
    (hslot : w.assistantWheel j = x :: rest) :
    Filed { w with
      assistantWheel := Function.update w.assistantWheel j rest
      workWheel := Function.update w.workWheel (w.remainder x)
        (w.workWheel (w.remainder x) ++ [x]) } n r := by
  have hx : x ∈ w.assistantWheel j := by
    rw [hslot]
    exact List.mem_cons_self
  obtain ⟨k, hk, hround⟩ := Option.map_eq_some_iff.mp (h.assistant.due_eq (hj ▸ hx))
  have hout : ∀ i, x ∉ w.workWheel i := fun i hi => h.apart i _ x hi hx
  rw [h.remainder _ x k hx hk]
  refine ⟨h.work.push hout (fun _ _ => rfl) hk (by omega) (by omega),
    h.assistant.pop hslot fun _ _ => rfl,
    fun i y k hy => h.remainder i y k (mem_of_pop hslot hy), fun i i' y hy hy' => ?_,
    fun y k hdue halive => ?_, h.calling, h.made⟩
  · rcases mem_push.mp hy with hy | ⟨rfl, -⟩
    · exact h.apart i i' y hy (mem_of_pop hslot hy')
    · exact h.assistant.not_mem_pop hslot i' hy'
  · rcases h.waiting y k hdue halive with ⟨i, hi⟩ | ⟨i, hi⟩
    · exact .inl ⟨i, mem_push.mpr (.inl hi)⟩
    · by_cases hyx : y = x
      · exact .inl ⟨_, mem_push.mpr (.inr ⟨hyx, rfl⟩)⟩
      · exact .inr ⟨i, mem_pop hslot hyx hi⟩

theorem due_of_set {d y k : ℕ} (h : Function.update w.due x (some d) y = some k) :
    (y = x ∧ k = d) ∨ y ≠ x ∧ w.due y = some k := by
  by_cases hyx : y = x
  · rw [hyx, Function.update_self] at h
    exact .inl ⟨hyx, (Option.some.inj h).symm⟩
  · exact .inr ⟨hyx, (due_of_update hyx).symm.trans h⟩

/-- Putting a task in a bucket of the work wheel. -/
theorem addWork (h : w.Filed w.tickCount r) (hx : w.InFlight x) (hj : j < 512) :
    (w.addWork x j).Filed w.tickCount r := by
  have hwork := h.not_mem_work hx.due
  have hassistant := h.not_mem_assistant hx.due
  refine ⟨h.work.push_next hwork (fun _ => due_of_update) hj (Function.update_self ..),
    h.assistant.congr fun i y hy => ?_, fun i y k hy hdue => ?_,
    fun i i' y hy hy' => ?_, fun y k hdue halive => ?_, fun y hy => ?_, fun y k hdue => ?_⟩
  · have hyx : y ≠ x := fun hyx => hassistant i (hyx ▸ hy)
    exact congrArg _ (due_of_update hyx)
  · have hyx : y ≠ x := fun hyx => hassistant i (hyx ▸ hy)
    exact h.remainder i y k hy ((due_of_update hyx).symm.trans hdue)
  · rcases mem_push.mp hy with hy | ⟨rfl, -⟩
    · exact h.apart i i' y hy hy'
    · exact hassistant i' hy'
  · rcases due_of_set hdue with ⟨hyx, -⟩ | ⟨-, hk⟩
    · exact .inl ⟨j, mem_push.mpr (.inr ⟨hyx, rfl⟩)⟩
    · rcases h.waiting y k hk halive with ⟨i, hi⟩ | hi
      · exact .inl ⟨i, mem_push.mpr (.inl hi)⟩
      · exact .inr hi
  · have hyx : y ≠ x := by
      rintro rfl
      exact Bool.noConfusion (hx.calling.symm.trans hy)
    obtain ⟨hnone, hlt⟩ := h.calling y hy
    exact ⟨(due_of_update hyx).trans hnone, hlt⟩
  · rcases due_of_set hdue with ⟨rfl, -⟩ | ⟨-, hk⟩
    · exact hx.made
    · exact h.made y k hk

/-- Putting a task in a bucket of the assistant wheel. -/
theorem addAssistant (h : w.Filed n w.nextRound) (hx : w.InFlight x) (hj : j < 64)
    (hremainder : w.remainder x < 512) : (w.addAssistant x j).Filed n w.nextRound := by
  have hwork := h.not_mem_work hx.due
  have hassistant := h.not_mem_assistant hx.due
  have hround : (512 * next 64 w.nextRound j + w.remainder x) / 512 = next 64 w.nextRound j := by
    omega
  have hdue : ((w.addAssistant x j).due x).map (· / 512) = some (next 64 w.nextRound j) :=
    (congrArg _ (Function.update_self x _ w.due)).trans (congrArg some hround)
  refine ⟨h.work.congr fun i y hy => ?_,
    h.assistant.push_next hassistant (fun y hyx => congrArg _ (due_of_update hyx)) hj hdue,
    fun i y k hy hdue => ?_, fun i i' y hy hy' => ?_, fun y k hdue halive => ?_,
    fun y hy => ?_, fun y k hdue => ?_⟩
  · have hyx : y ≠ x := fun hyx => hwork i (hyx ▸ hy)
    exact due_of_update hyx
  · rcases due_of_set hdue with ⟨hyx, hk⟩ | ⟨hyx, hk⟩
    · rw [hk, hyx]
      show w.remainder x = _
      omega
    · rcases mem_push.mp hy with hy | ⟨hyx', -⟩
      · exact h.remainder i y k hy hk
      · exact absurd hyx' hyx
  · rcases mem_push.mp hy' with hy' | ⟨rfl, -⟩
    · exact h.apart i i' y hy hy'
    · exact hwork i hy
  · rcases due_of_set hdue with ⟨hyx, -⟩ | ⟨-, hk⟩
    · exact .inr ⟨j, mem_push.mpr (.inr ⟨hyx, rfl⟩)⟩
    · rcases h.waiting y k hk halive with hi | ⟨i, hi⟩
      · exact .inl hi
      · exact .inr ⟨i, mem_push.mpr (.inl hi)⟩
  · have hyx : y ≠ x := by
      rintro rfl
      exact Bool.noConfusion (hx.calling.symm.trans hy)
    obtain ⟨hnone, hlt⟩ := h.calling y hy
    exact ⟨(due_of_update hyx).trans hnone, hlt⟩
  · rcases due_of_set hdue with ⟨rfl, -⟩ | ⟨-, hk⟩
    · exact hx.made
    · exact h.made y k hk

end Filed

/-- What holds at every step. -/
structure Good (w : TimingWheel) : Prop where
  filed : w.Filed w.tickCount w.nextRound
  clock : w.Clock

/-- The bucket that `Tick` goes through is that of the tick. -/
theorem Clock.workIndex_of_drain (h : w.Clock) (hphase : w.phase = .drain) :
    w.currentWorkWheelIndex = w.tickCount % 512 := by
  rw [h.workIndex, now, if_neg (by rw [hphase]; nofun)]

/-- The bucket that `Cascade` goes through is that of the next round, which begins with the
tick. -/
theorem Clock.assistantIndex_of_cascade (h : w.Clock) (hphase : w.phase = .cascade) :
    w.currentAssistantWheelIndex = w.nextRound % 64 ∧ w.tickCount = 512 * w.nextRound := by
  have hzero := h.cascade hphase
  have hindex := h.assistantIndex
  simp only [assistantRound, nextRound, now, hphase, reduceCtorEq, if_false] at hindex ⊢
  omega

theorem Clock.tickCount_le (h : w.Clock) : w.tickCount ≤ 512 * w.nextRound := by
  have hboundary := h.advanceAssistant
  have hlock := h.lockAssistant
  have hcascade := h.cascade
  cases hphase : w.phase <;> simp only [nextRound, now, hphase, reduceCtorEq, if_false, if_true,
    forall_const] at hboundary hlock hcascade ⊢ <;> omega

theorem Good.ticked {r : TimingWheel × TimerEvent} (h : w.Good) (hr : Ticked w r) :
    r.1.Good := by
  refine ⟨?_, h.clock.ticked hr⟩
  obtain ⟨hfiled, hclock⟩ := h
  have hnext : w.nextRound = _ := rfl
  conv_rhs at hnext => rw [nextRound, now]
  cases hr
  case lock hphase =>
    simp only [hphase, reduceCtorEq, if_false] at hnext
    rw [hnext] at hfiled
    exact { hfiled with }
  case fire x rest hphase hslot halive =>
    refine hfiled.takeWork hslot fun y hy => ?_
    by_cases hyx : y = x
    · exact .inl hyx
    · rw [Function.update_of_ne hyx] at hy
      exact .inr hy
  case drop x rest hphase hslot hexpired => exact hfiled.takeWork hslot fun _ => .inr
  case ticked hphase hslot =>
    rw [hclock.workIndex_of_drain hphase] at hslot
    simp only [hphase, reduceCtorEq, if_false] at hnext
    rw [hnext] at hfiled
    exact { hfiled with work := hfiled.work.advance hslot }
  case advanceWork hphase hindex =>
    have hpos := hclock.advanceWork hphase
    have hwork := hclock.workIndex
    rw [now, if_pos hphase] at hwork
    simp only [hphase, if_true] at hnext
    have hround : w.nextRound = w.tickCount / 512 + 1 := by omega
    rw [hround] at hfiled
    exact { hfiled with }
  case turn hphase hindex =>
    have hpos := hclock.advanceWork hphase
    have hwork := hclock.workIndex
    rw [now, if_pos hphase] at hwork
    simp only [hphase, if_true] at hnext
    have hround : w.nextRound = w.tickCount / 512 := by omega
    rw [hround] at hfiled
    exact { hfiled with }
  case advanceAssistant hphase =>
    simp only [hphase, reduceCtorEq, if_false] at hnext
    rw [hnext] at hfiled
    exact { hfiled with }
  case lockAssistant hphase =>
    simp only [hphase, reduceCtorEq, if_false] at hnext
    rw [hnext] at hfiled
    exact { hfiled with }
  case move x rest hphase hslot halive =>
    obtain ⟨hindex, hcount⟩ := hclock.assistantIndex_of_cascade hphase
    exact hfiled.move hcount hindex hslot
  case forget x rest hphase hslot hexpired => exact hfiled.forget hslot
  case cascaded hphase hslot =>
    rw [(hclock.assistantIndex_of_cascade hphase).1] at hslot
    have hadvance : w.Filed w.tickCount (w.nextRound + 1) :=
      { hfiled with assistant := hfiled.assistant.advance hslot }
    simp only [hphase, reduceCtorEq, if_false] at hnext
    rw [hnext] at hadvance
    exact { hadvance with }

/-! ## The threads that add tasks -/

/-- What a thread at a place knows of the wheel : its task is its own, and the bucket it chose is
that of the tick it asks for. -/
def Knows (w : TimingWheel) : AddPlace → Prop
  | .outside => True
  | .read x _ => w.InFlight x
  | .choose x call i => w.InFlight x ∧ call.began ≤ w.now ∧ i = call.began % 512 + call.ticks
  | .addWork x call j => w.InFlight x ∧ j = call.asked % 512 ∧ call.asked < w.tickCount + 512
  | .addAssistant x call ticks =>
    w.InFlight x ∧ call.began ≤ w.now ∧ w.remainder x = call.asked % 512 ∧
      call.asked / 512 = call.began / 512 + ticks ∧ 0 < ticks

/-- No two threads are adding one task. -/
def Apart (p q : AddPlace) : Prop :=
  ∀ x, p.task = some x → q.task ≠ some x

/-- A step leaves alone a task that another thread is adding. -/
structure Frame (w w' : TimingWheel) (x : ℕ) : Prop where
  inFlight : w'.InFlight x
  remainder : w'.remainder x = w.remainder x
  now : w.now ≤ w'.now
  tickCount : w.tickCount ≤ w'.tickCount

variable {p q : AddPlace}

theorem Knows.inFlight (h : w.Knows p) (hx : p.task = some x) : w.InFlight x := by
  cases p with
  | outside => exact absurd hx nofun
  | read y ms =>
    rw [← Option.some.inj hx]
    exact h
  | choose y call i | addWork y call j | addAssistant y call ticks =>
    rw [← Option.some.inj hx]
    exact h.1

theorem Knows.frame (h : w.Knows q) (hframe : ∀ x, q.task = some x → w.Frame w' x) :
    w'.Knows q := by
  cases q with
  | outside => exact h
  | read x ms => exact (hframe x rfl).inFlight
  | choose x call i =>
    obtain ⟨hx, -, hnow, -⟩ := hframe x rfl
    exact ⟨hx, h.2.1.trans hnow, h.2.2⟩
  | addWork x call j =>
    obtain ⟨hx, -, -, hcount⟩ := hframe x rfl
    obtain ⟨-, hj, hlt⟩ := h
    exact ⟨hx, hj, by omega⟩
  | addAssistant x call ticks =>
    obtain ⟨hx, hremainder, hnow, -⟩ := hframe x rfl
    obtain ⟨-, hbegan, heq, hround⟩ := h
    exact ⟨hx, hbegan.trans hnow, hremainder.trans heq, hround⟩

/-- The tick never goes back. -/
theorem now_ticked {r : TimingWheel × TimerEvent} (h : w.Clock) (hr : Ticked w r) :
    w.now ≤ r.1.now ∧ w.tickCount ≤ r.1.tickCount := by
  have hadvance := h.advanceWork
  cases hr
  all_goals simp [now, *]

/-- A task in no bucket is not touched by the thread that ticks. -/
theorem Frame.ticked {r : TimingWheel × TimerEvent} (h : w.Good) (hx : w.InFlight x)
    (hr : Ticked w r) : w.Frame r.1 x := by
  obtain ⟨hnow, hcount⟩ := now_ticked h.clock hr
  obtain ⟨hdue, hcalling, hmade⟩ := hx
  have hclear : ∀ y, Function.update w.due y none x = none := by
    intro y
    by_cases hxy : x = y
    · rw [hxy, Function.update_self]
    · rwa [Function.update_of_ne hxy]
  cases hr
  case fire y rest hphase hslot halive =>
    have hxy : x ≠ y := by
      rintro rfl
      refine h.filed.not_mem_work hdue w.currentWorkWheelIndex ?_
      rw [hslot]
      exact List.mem_cons_self
    exact ⟨⟨hclear y, (Function.update_of_ne hxy ..).trans hcalling, hmade⟩, rfl, hnow, hcount⟩
  case drop | forget => exact ⟨⟨hclear _, hcalling, hmade⟩, rfl, hnow, hcount⟩
  all_goals exact ⟨⟨hdue, hcalling, hmade⟩, rfl, hnow, hcount⟩

/-- What a step of a thread that adds a task does. -/
inductive Added (w : TimingWheel) : AddPlace → (TimingWheel × AddPlace) × TimerEvent → Prop
  | wait (p : AddPlace) : Added w p ((w, p), .quiet)
  | read (x ms : ℕ) :
      Added w (.read x ms) ((w, .choose x ⟨ms, w.now⟩
        (w.currentWorkWheelIndex + (AddCall.mk ms w.now).ticks)), .quiet)
  | near (x : ℕ) (call : AddCall) {i : ℕ} (hi : i < 512) :
      Added w (.choose x call i) ((w, .addWork x call i), .quiet)
  | wrapped (x : ℕ) (call : AddCall) {i : ℕ} (hi : i / 512 = 1)
      (hlt : i % 512 < w.currentWorkWheelIndex) :
      Added w (.choose x call i)
        (({ w with remainder := Function.update w.remainder x (i % 512) },
          .addWork x call (i % 512)), .quiet)
  | far (x : ℕ) (call : AddCall) {i : ℕ} (hi : 512 ≤ i) :
      Added w (.choose x call i)
        (({ w with remainder := Function.update w.remainder x (i % 512) },
          .addAssistant x call (i / 512)), .quiet)
  | work (x : ℕ) (call : AddCall) {j : ℕ}
      (hfree : ¬(w.phase = .drain ∧ j = w.currentWorkWheelIndex)) :
      Added w (.addWork x call j)
        ((w.addWork x j, .outside), .added x call (next 512 w.tickCount j))
  | assistant (x : ℕ) (call : AddCall) {ticks j : ℕ}
      (hj : j = (w.currentAssistantWheelIndex + ticks) % 64)
      (hfree : ¬(w.phase = .cascade ∧ j = w.currentAssistantWheelIndex)) :
      Added w (.addAssistant x call ticks)
        ((w.addAssistant x j, .outside),
          .added x call (512 * next 64 w.nextRound j + w.remainder x))

theorem added (w : TimingWheel) (p : AddPlace) : Added w p (w.addStep p) := by
  cases p with
  | outside => exact .wait _
  | read x ms => exact .read x ms
  | choose x call i =>
    rw [addStep, getWorkWheelIndex_eq]
    by_cases hi : workWheelSize ≤ i
    · rw [if_pos hi]
      by_cases hwrap : i / 512 = 1 ∧ i % 512 < w.currentWorkWheelIndex
      · exact (if_pos hwrap).symm ▸ .wrapped x call hwrap.1 hwrap.2
      · exact (if_neg hwrap).symm ▸ .far x call hi
    · rw [if_neg hi]
      exact .near x call (Nat.lt_of_not_le hi)
  | addWork x call j =>
    rw [addStep]
    by_cases hfree : w.phase = .drain ∧ j = w.currentWorkWheelIndex
    · rw [if_pos hfree]
      exact .wait _
    · rw [if_neg hfree]
      exact .work x call hfree
  | addAssistant x call ticks =>
    rw [addStep, getAssistantWheelIndex_eq]
    by_cases hfree : w.phase = .cascade ∧
        (w.currentAssistantWheelIndex + ticks) % 64 = w.currentAssistantWheelIndex
    · exact (if_pos hfree).symm ▸ .wait _
    · exact (if_neg hfree).symm ▸ .assistant x call rfl hfree

/-- A step of a thread that adds a task leaves the others alone. -/
theorem Frame.added {r : (TimingWheel × AddPlace) × TimerEvent} (hx : w.InFlight x)
    (hp : p.task ≠ some x) (hr : Added w p r) : w.Frame r.1.1 x := by
  have hne : ∀ y, p.task = some y → x ≠ y := fun y hy hxy => hp (hxy ▸ hy)
  cases hr
  case wait | read | near => exact ⟨hx, rfl, Nat.le_refl _, Nat.le_refl _⟩
  case wrapped y call i hi hlt =>
    exact ⟨⟨hx.due, hx.calling, hx.made⟩, Function.update_of_ne (hne y rfl) .., Nat.le_refl _,
      Nat.le_refl _⟩
  case far y call i hi =>
    exact ⟨⟨hx.due, hx.calling, hx.made⟩, Function.update_of_ne (hne y rfl) .., Nat.le_refl _,
      Nat.le_refl _⟩
  case work y call j hfree =>
    exact ⟨⟨(Function.update_of_ne (hne y rfl) ..).trans hx.due, hx.calling, hx.made⟩, rfl,
      Nat.le_refl _, Nat.le_refl _⟩
  case assistant y call ticks j hj hfree =>
    exact ⟨⟨(Function.update_of_ne (hne y rfl) ..).trans hx.due, hx.calling, hx.made⟩, rfl,
      Nat.le_refl _, Nat.le_refl _⟩

/-- Setting the remainder of a task that is in no bucket. -/
theorem Good.setRemainder (h : w.Good) (hx : w.InFlight x) (d : ℕ) :
    Good { w with remainder := Function.update w.remainder x d } := by
  refine ⟨{ h.filed with remainder := fun j y k hy hdue => ?_ }, h.clock.congr rfl rfl rfl rfl⟩
  have hyx : y ≠ x := fun hyx => h.filed.not_mem_assistant hx.due j (hyx ▸ hy)
  exact (Function.update_of_ne hyx ..).trans (h.filed.remainder j y k hy hdue)

theorem now_le (w : TimingWheel) : w.now ≤ w.tickCount := by
  rw [now]
  split <;> omega

theorem Good.added {r : (TimingWheel × AddPlace) × TimerEvent} (h : w.Good) (hp : w.Knows p)
    (hr : Added w p r) : r.1.1.Good ∧ r.1.1.Knows r.1.2 := by
  have hnow := w.now_le
  cases hr
  case wait => exact ⟨h, hp⟩
  case read x ms =>
    refine ⟨h, hp, Nat.le_refl _, ?_⟩
    rw [h.clock.workIndex]
  case near x call i hi =>
    obtain ⟨hx, hbegan, hindex⟩ := hp
    refine ⟨h, hx, ?_, ?_⟩ <;> simp only [AddCall.asked] <;> omega
  case wrapped x call i hi hlt =>
    obtain ⟨hx, hbegan, hindex⟩ := hp
    have hwork := h.clock.workIndex
    refine ⟨h.setRemainder hx _, ⟨hx.due, hx.calling, hx.made⟩, ?_, ?_⟩ <;>
      simp only [AddCall.asked] <;> omega
  case far x call i hi =>
    obtain ⟨hx, hbegan, hindex⟩ := hp
    refine ⟨h.setRemainder hx _, ⟨hx.due, hx.calling, hx.made⟩, hbegan, ?_, ?_, ?_⟩
    · refine (Function.update_self ..).trans ?_
      simp only [AddCall.asked]
      omega
    · simp only [AddCall.asked]
      omega
    · omega
  case work x call j hfree =>
    obtain ⟨hx, hj, -⟩ := hp
    have hlt : j < 512 := hj ▸ Nat.mod_lt _ (by omega)
    exact ⟨⟨h.filed.addWork hx hlt, h.clock.congr rfl rfl rfl rfl⟩, trivial⟩
  case assistant x call ticks j hj hfree =>
    obtain ⟨hx, -, hremainder, -⟩ := hp
    have hlt : j < 64 := hj ▸ Nat.mod_lt _ (by omega)
    exact ⟨⟨h.filed.addAssistant hx hlt (hremainder ▸ Nat.mod_lt _ (by omega)),
      h.clock.congr rfl rfl rfl rfl⟩, trivial⟩

/-! ## Turns -/

variable {i : TimerTurn} {t u : τ}

/-- A new task is in no bucket. -/
theorem Good.make (h : w.Good) :
    Good { w with made := w.made + 1 } ∧ InFlight { w with made := w.made + 1 } w.made := by
  have hfiled : Filed { w with made := w.made + 1 } w.tickCount w.nextRound :=
    { h.filed with
      calling := fun y hy => (h.filed.calling y hy).imp id Nat.lt_succ_of_lt
      made := fun y k hk => Nat.lt_succ_of_lt (h.filed.made y k hk) }
  refine ⟨⟨hfiled, h.clock.congr rfl rfl rfl rfl⟩, ?_, ?_, Nat.lt_succ_self _⟩
  · exact Option.eq_none_iff_forall_ne_some.mpr fun k hk => Nat.lt_irrefl _ (h.filed.made _ k hk)
  · exact Bool.eq_false_iff.mpr fun hcalling => Nat.lt_irrefl _ (h.filed.calling _ hcalling).2

/-- Neither is one that fired. -/
theorem Good.again (h : w.Good) (hx : w.calling x = true) :
    Good { w with calling := Function.update w.calling x false } ∧
      InFlight { w with calling := Function.update w.calling x false } x := by
  obtain ⟨hdue, hmade⟩ := h.filed.calling x hx
  have hfiled : Filed { w with calling := Function.update w.calling x false } w.tickCount
      w.nextRound :=
    { h.filed with calling := fun y hy => h.filed.calling y (of_update hy nofun).2 }
  exact ⟨⟨hfiled, h.clock.congr rfl rfl rfl rfl⟩, hdue, Function.update_self .., hmade⟩

theorem Good.stop (h : w.Good) (x : ℕ) :
    Good { w with expired := Function.update w.expired x true } := by
  have hfiled : Filed { w with expired := Function.update w.expired x true } w.tickCount
      w.nextRound :=
    { h.filed with
      waiting := fun y k hk halive => h.filed.waiting y k hk (of_update halive nofun).2 }
  exact ⟨hfiled, h.clock.congr rfl rfl rfl rfl⟩

theorem good_act (h : w.Good) (hp : w.Knows p) :
    (act t i w p).1.1.Good ∧ (act t i w p).1.1.Knows (act t i w p).1.2 := by
  cases i with
  | start period =>
    cases p
    case outside =>
      rw [act]
      split
      · exact ⟨h, trivial⟩
      · exact h.make
    all_goals exact ⟨h, hp⟩
  | again x ms =>
    cases p
    case outside =>
      rw [act]
      split
      case isTrue hcalling => exact h.again hcalling.1
      case isFalse => exact ⟨h, trivial⟩
    all_goals exact ⟨h, hp⟩
  | go => exact h.added hp (added w p)
  | stop x =>
    refine ⟨h.stop x, hp.frame fun y hy => ?_⟩
    obtain ⟨hdue, hcalling, hmade⟩ := hp.inFlight hy
    exact ⟨⟨hdue, hcalling, hmade⟩, rfl, Nat.le_refl _, Nat.le_refl _⟩
  | tick =>
    exact ⟨h.ticked (ticked w), hp.frame fun x hx => .ticked h (hp.inFlight hx) (ticked w)⟩

/-- A turn of a thread leaves alone the task that another is adding, and takes none that is
being added. -/
theorem frame_act (h : w.Good) (hx : w.InFlight x) (hp : p.task ≠ some x) :
    w.Frame (act t i w p).1.1 x ∧ (act t i w p).1.2.task ≠ some x := by
  have hsame : w.Frame w x := ⟨hx, rfl, Nat.le_refl _, Nat.le_refl _⟩
  cases i with
  | start period =>
    cases p
    case outside =>
      rw [act]
      split
      · exact ⟨hsame, nofun⟩
      · refine ⟨⟨⟨hx.due, hx.calling, Nat.lt_succ_of_lt hx.made⟩, rfl, Nat.le_refl _,
          Nat.le_refl _⟩, fun heq => ?_⟩
        have hlt := hx.made
        rw [← Option.some.inj heq] at hlt
        exact Nat.lt_irrefl _ hlt
    all_goals exact ⟨hsame, hp⟩
  | again y ms =>
    cases p
    case outside =>
      rw [act]
      split
      case isTrue hcalling =>
        have hxy : x ≠ y := by
          rintro rfl
          exact absurd (hx.calling.symm.trans hcalling.1) nofun
        exact ⟨⟨⟨hx.due, (Function.update_of_ne hxy ..).trans hx.calling, hx.made⟩, rfl,
          Nat.le_refl _, Nat.le_refl _⟩, fun heq => hxy (Option.some.inj heq).symm⟩
      case isFalse => exact ⟨hsame, nofun⟩
    all_goals exact ⟨hsame, hp⟩
  | go =>
    refine ⟨.added hx hp (added w p), ?_⟩
    have hr := added w p
    show (w.addStep p).1.2.task ≠ some x
    generalize w.addStep p = r at hr
    cases hr
    case work | assistant => exact nofun
    all_goals exact hp
  | stop y =>
    exact ⟨⟨⟨hx.due, hx.calling, hx.made⟩, rfl, Nat.le_refl _, Nat.le_refl _⟩, hp⟩
  | tick => exact ⟨.ticked h hx (ticked w), hp⟩

theorem stable : Stable (τ := τ) act (fun (_ : List TimerEvent) w => w.Good)
    (fun _ _ w p => w.Knows p) Apart := by
  refine ⟨fun p q h x hq hp => h x hp hq, fun t i os w p h hp => good_act h hp,
    fun t i u os w p q htu h hp hq hpq => ⟨hq.frame fun x hx => ?_, fun x hx hqx => ?_⟩⟩
  · exact (frame_act h (hq.inFlight hx) fun hpx => hpq x hpx hx).1
  · exact (frame_act h (hq.inFlight hqx) fun hpx => hpq x hpx hqx).2 hx

variable [DecidableEq τ]

theorem outline_run (past : List (τ × TimerTurn)) :
    Outline (fun _ w => w.Good) (fun _ _ w p => w.Knows p) Apart
      (run (Threads.step act) start past).2 (run (Threads.step act) start past).1 := by
  refine Threads.outline_run stable past ⟨⟨?_, ?_⟩, fun _ => trivial, fun _ _ _ => nofun⟩
  · exact ⟨.empty .., .empty .., nofun, nofun, nofun, nofun, nofun⟩
  · exact ⟨rfl, by simp [start, assistantRound, now], nofun, nofun, nofun, nofun⟩

/-! ## Firing -/

/-- A task fires at the tick it is due at, and is then in no bucket. -/
theorem Good.fired {r : TimingWheel × TimerEvent} (h : w.Good) (hr : Ticked w r) {n : ℕ}
    (hfired : r.2 = .fired x n) :
    w.due x = some n ∧ n = w.tickCount ∧ w.expired x = false ∧ r.1.due x = none := by
  cases hr
  case fire y rest hphase hslot halive =>
    obtain ⟨rfl, rfl⟩ := TimerEvent.fired.inj hfired
    rw [h.clock.workIndex_of_drain hphase] at hslot
    refine ⟨h.filed.work.due_eq ?_, rfl, halive, Function.update_self ..⟩
    rw [hslot]
    exact List.mem_cons_self
  all_goals exact absurd hfired nofun

/-- A task that is due stays so until it fires, unless it is stopped. -/
theorem Good.due_ticked {r : TimingWheel × TimerEvent} (h : w.Good) (hr : Ticked w r) {n : ℕ}
    (hdue : w.due x = some n) (halive : w.expired x = false) :
    r.1.due x = some n ∨ r.2 = .fired x n := by
  cases hr
  case fire y rest hphase hslot _ =>
    by_cases hxy : x = y
    · rw [h.clock.workIndex_of_drain hphase] at hslot
      have hn := h.filed.work.due_eq (hslot ▸ List.mem_cons_self)
      rw [← hxy, hdue] at hn
      rw [Option.some.inj hn, hxy]
      exact .inr rfl
    · exact .inl ((Function.update_of_ne hxy ..).trans hdue)
  case drop y rest hphase hslot hexpired =>
    have hxy : x ≠ y := by
      rintro rfl
      exact absurd (halive.symm.trans hexpired) nofun
    exact .inl ((Function.update_of_ne hxy ..).trans hdue)
  case forget y rest hphase hslot hexpired =>
    have hxy : x ≠ y := by
      rintro rfl
      exact absurd (halive.symm.trans hexpired) nofun
    exact .inl ((Function.update_of_ne hxy ..).trans hdue)
  all_goals exact .inl hdue

theorem due_added {r : (TimingWheel × AddPlace) × TimerEvent} (hp : w.Knows p) (hr : Added w p r)
    {n : ℕ} (hdue : w.due x = some n) : r.1.1.due x = some n := by
  have hne : p.task ≠ some x := by
    intro hx
    rw [(hp.inFlight hx).due] at hdue
    exact absurd hdue nofun
  cases hr
  case work y call j hfree =>
    have hxy : x ≠ y := fun hxy => hne (congrArg some hxy.symm)
    exact (Function.update_of_ne hxy ..).trans hdue
  case assistant y call ticks j hj hfree =>
    have hxy : x ≠ y := fun hxy => hne (congrArg some hxy.symm)
    exact (Function.update_of_ne hxy ..).trans hdue
  all_goals exact hdue

theorem expired_ticked {r : TimingWheel × TimerEvent} (hr : Ticked w r) :
    r.1.expired = w.expired := by
  cases hr <;> rfl

theorem expired_added {r : (TimingWheel × AddPlace) × TimerEvent} (hr : Added w p r) :
    r.1.1.expired = w.expired := by
  cases hr <;> rfl

/-- A timer that was stopped stays so. -/
theorem expired_act (halive : (act t i w p).1.1.expired x = false) : w.expired x = false := by
  cases i with
  | start period | again y ms =>
    cases p
    case outside =>
      rw [act] at halive
      split at halive <;> exact halive
    all_goals exact halive
  | go => exact expired_added (added w p) ▸ halive
  | stop y => exact (of_update halive nofun).2
  | tick => exact expired_ticked (ticked w) ▸ halive

/-- A turn of any thread leaves a task due, or it fires. -/
theorem due_act (h : w.Good) (hp : w.Knows p) {n : ℕ} (hdue : w.due x = some n)
    (halive : w.expired x = false) :
    (act t i w p).1.1.due x = some n ∨ (act t i w p).2 = .fired x n := by
  cases i with
  | start period | again y ms =>
    cases p
    case outside =>
      rw [act]
      split <;> exact .inl hdue
    all_goals exact .inl hdue
  | go => exact .inl (due_added hp (added w p) hdue)
  | stop y => exact .inl hdue
  | tick => exact h.due_ticked (ticked w) hdue halive

theorem output_eq_tickStep {n : ℕ} (hfired : (act t i w p).2 = .fired x n) :
    act t i w p = ((w.tickStep.1, p), w.tickStep.2) := by
  cases i with
  | start period | again y ms =>
    cases p
    case outside =>
      rw [act] at hfired
      split at hfired <;> exact absurd hfired nofun
    all_goals exact absurd hfired nofun
  | go =>
    have hr := added w p
    have hout : (w.addStep p).2 = .fired x n := hfired
    generalize w.addStep p = r at hr hout
    cases hr <;> exact absurd hout nofun
  | stop y => exact absurd hfired nofun
  | tick => rfl

/-- A task that is due stays so until it fires, unless it is stopped. -/
theorem due_run {os : List TimerEvent} {s : State τ TimingWheel AddPlace}
    (hs : Outline (fun _ w => w.Good) (fun _ _ w p => w.Knows p) Apart os s)
    (more : List (τ × TimerTurn)) {n : ℕ} (hdue : s.shared.due x = some n) :
    let r := run (Threads.step act) s more
    Outline (fun _ w => w.Good) (fun _ _ w p => w.Knows p) Apart r.2 r.1 ∧
      (r.1.shared.expired x = false → r.1.shared.due x = some n ∨ .fired x n ∈ r.2) := by
  refine run_history
    (fun os s => Outline (fun _ w => w.Good) (fun _ _ w p => w.Knows p) Apart os s ∧
      (s.shared.expired x = false → s.shared.due x = some n ∨ .fired x n ∈ os))
    (fun os s t ih => ⟨outline_step stable ih.1 t, fun halive => ?_⟩) more
    ⟨⟨hs.shared, hs.place, hs.apart⟩, fun _ => .inl hdue⟩
  obtain ⟨hs, hdue⟩ := ih
  have hexpired : s.shared.expired x = false :=
    expired_act (t := t.1) (i := t.2) (p := s.place t.1) halive
  rcases hdue hexpired with hdue | hmem
  · rcases due_act (t := t.1) (i := t.2) hs.shared (hs.place t.1) hdue hexpired with hdue | hfired
    · exact .inl hdue
    · exact .inr (List.mem_append_right _ (hfired ▸ List.mem_singleton_self _))
  · exact .inr (List.mem_append_left _ hmem)

/-- In every run a task fires only at the tick it is due at, if it was not stopped, and is then
in no bucket. A task that is due at a tick is so until it fires at that tick, or is stopped, and
that tick is not over. -/
theorem fires_when_due (past more : List (τ × TimerTurn)) (t : τ × TimerTurn) (x n : ℕ) :
    let s := (run (Threads.step act) start past).1
    let s' := (run (Threads.step act) s more).1
    ((Threads.step act s t).2 = .fired x n → s.shared.due x = some n ∧ n = s.shared.tickCount ∧
      s.shared.expired x = false ∧ (Threads.step act s t).1.shared.due x = none) ∧
    (s.shared.due x = some n → s'.shared.expired x = false →
      (s'.shared.due x = some n ∧ s'.shared.tickCount ≤ n) ∨
        .fired x n ∈ (run (Threads.step act) s more).2) := by
  intro s s'
  have hs := outline_run past
  refine ⟨fun hfired => ?_, fun hdue halive => ?_⟩
  · have hact := output_eq_tickStep hfired
    rw [step_output, hact] at hfired
    rw [step_shared, hact]
    exact hs.shared.fired (ticked _) hfired
  · obtain ⟨hs', hkept⟩ := due_run hs more hdue
    refine (hkept halive).imp_left fun hdue' => ⟨hdue', ?_⟩
    exact hs'.shared.filed.le_due hs'.shared.clock.tickCount_le hdue' halive

/-! ## The tick asked for -/

theorem ticks_le {call : AddCall} (hms : call.nextFireDurationMs ≤ timerMaxIntervalMs) :
    call.ticks ≤ 32768 := by
  rw [timerMaxIntervalMs, workWheelSize, assistantWheelSize, timerResolutionMs] at hms
  rw [AddCall.ticks, timerResolutionMs]
  omega

theorem Clock.nextRound_eq (h : w.Clock) :
    w.nextRound = w.assistantRound + 1 ∨
      (w.phase = .lockAssistant ∨ w.phase = .cascade) ∧ w.nextRound = w.assistantRound := by
  have hboundary := h.advanceAssistant
  cases hphase : w.phase
  case advanceAssistant =>
    obtain ⟨hne, hzero⟩ := hboundary hphase
    refine .inl ?_
    simp only [nextRound, assistantRound, now, hphase, reduceCtorEq, if_false, if_true]
    omega
  all_goals simp [nextRound, assistantRound, now, hphase]

/-- The rounds that a task waits for in the assistant wheel are the ones it asked for, but for the
last bucket where it is about to be gone through. -/
theorem Clock.next_round (h : w.Clock) {ticks : ℕ} (hpos : 0 < ticks) (hle : ticks ≤ 64)
    (hfree : ¬(w.phase = .cascade ∧
      (w.currentAssistantWheelIndex + ticks) % 64 = w.currentAssistantWheelIndex)) :
    let r := next 64 w.nextRound ((w.currentAssistantWheelIndex + ticks) % 64)
    r = w.assistantRound + ticks ∨
      w.phase = .lockAssistant ∧ ticks = 64 ∧ r = w.assistantRound := by
  have hindex := h.assistantIndex
  have hmod : (w.currentAssistantWheelIndex + ticks) % 64 = (w.assistantRound + ticks) % 64 := by
    rw [hindex, Nat.mod_add_mod]
  rw [hmod]
  rcases h.nextRound_eq with hround | ⟨hphase, hround⟩
  · exact .inl (next_eq (by omega) (by omega))
  · rcases Nat.lt_or_ge ticks 64 with hlt | hge
    · exact .inl (next_eq (by omega) (by omega))
    · obtain rfl : ticks = 64 := by omega
      have hlock : w.phase = .lockAssistant :=
        hphase.resolve_right fun hcascade => hfree ⟨hcascade, by omega⟩
      refine .inr ⟨hlock, rfl, ?_⟩
      rw [hround, Nat.add_mod_right]
      exact next_eq (Nat.le_refl _) (by omega)

/-- Where a call puts its task. -/
theorem Good.due_of_added {r : (TimingWheel × AddPlace) × TimerEvent} (h : w.Good)
    (hp : w.Knows p) (hr : Added w p r) {call : AddCall} {due : ℕ}
    (hadded : r.2 = .added x call due) (hms : call.nextFireDurationMs ≤ timerMaxIntervalMs) :
    r.1.1.due x = some due ∧ due % 512 = call.asked % 512 ∧
      (call.asked < due → call.asked < w.tickCount ∨ call.began / 512 < w.assistantRound) ∧
      (due < call.asked → w.phase = .advanceAssistant ∧ call.began = w.tickCount ∨
        w.phase = .lockAssistant ∧ 32768 ≤ call.began % 512 + call.ticks) ∧
      (w.phase = .advanceAssistant → call.began = w.tickCount → 512 ≤ call.ticks →
        due + 512 = call.asked) := by
  have hticks := ticks_le hms
  cases hr
  case work y call j hfree =>
    obtain ⟨rfl, rfl, rfl⟩ := TimerEvent.added.inj hadded
    obtain ⟨hx, hj, hlt⟩ := hp
    have hjlt : j < 512 := hj ▸ Nat.mod_lt _ (by omega)
    have hle := le_next 512 w.tickCount j
    refine ⟨Function.update_self .., (next_mod _ hjlt).trans hj, fun hlate => ?_, fun hearly => ?_,
      fun _ hbegan hfar => ?_⟩
    · refine .inl (Nat.lt_of_not_le fun hasked => ?_)
      rw [hj, next_eq hasked hlt] at hlate
      exact Nat.lt_irrefl _ hlate
    · have hasked : w.tickCount ≤ call.asked := by omega
      rw [hj, next_eq hasked hlt] at hearly
      exact absurd hearly (Nat.lt_irrefl _)
    · rw [AddCall.asked] at hlt
      omega
  case assistant y call ticks j hj hfree =>
    obtain ⟨rfl, rfl, rfl⟩ := TimerEvent.added.inj hadded
    obtain ⟨hx, hbegan, hremainder, hround, hpos⟩ := hp
    have hasked : call.asked = call.began + call.ticks := rfl
    have hnext := h.clock.next_round hpos (by omega) (hj ▸ hfree)
    rw [← hj] at hnext
    have hnow := w.now_le
    refine ⟨Function.update_self .., by omega, by omega, fun hearly => ?_,
      fun hphase hbegan hfar => ?_⟩
    · by_cases hphase : w.phase = .advanceAssistant
      · obtain ⟨hne, hzero⟩ := h.clock.advanceAssistant hphase
        have hassistant : w.assistantRound = w.now / 512 - 1 := if_pos hphase
        have hnow : w.now = w.tickCount := if_neg (by rw [hphase]; nofun)
        rcases hnext with hnext | ⟨hlock, -⟩
        · exact .inl ⟨hphase, by omega⟩
        · exact absurd (hphase.symm.trans hlock) nofun
      · have hassistant : w.assistantRound = w.now / 512 := if_neg hphase
        rcases hnext with hnext | ⟨hlock, hticks, -⟩
        · omega
        · exact .inr ⟨hlock, by omega⟩
    · obtain ⟨hne, hzero⟩ := h.clock.advanceAssistant hphase
      have hassistant : w.assistantRound = w.now / 512 - 1 := if_pos hphase
      have hnow : w.now = w.tickCount := if_neg (by rw [hphase]; nofun)
      rcases hnext with hnext | ⟨hlock, -⟩
      · omega
      · exact absurd (hphase.symm.trans hlock) nofun
  all_goals exact absurd hadded nofun

theorem output_eq_addStep {call : AddCall} {due : ℕ}
    (hadded : (act t i w p).2 = .added x call due) : act t i w p = w.addStep p := by
  cases i with
  | start period | again y ms =>
    cases p
    case outside =>
      rw [act] at hadded
      split at hadded <;> exact absurd hadded nofun
    all_goals exact absurd hadded nofun
  | go => rfl
  | stop y => exact absurd hadded nofun
  | tick =>
    have hr := ticked w
    have hout : w.tickStep.2 = .added x call due := hadded
    generalize w.tickStep = r at hr hout
    cases hr <;> exact absurd hout nofun

/-- In every run a call whose duration is at most `TIMER_MAX_INTERVAL_MS` puts its task in a bucket
for a tick that is the one asked for modulo 512. It is a later one only if the tick asked for was
over, or the assistant wheel had been moved on since the call began. It is an earlier one only if
the call ran between the moves of the two wheels, or chose the assistant wheel's last bucket as it
was about to be gone through. Between the moves a task that goes to the assistant wheel comes 512
ticks early. -/
theorem added_on_time (past : List (τ × TimerTurn)) (t : τ × TimerTurn) (x : ℕ) (call : AddCall)
    (due : ℕ) (hms : call.nextFireDurationMs ≤ timerMaxIntervalMs)
    (hadded : (Threads.step act (run (Threads.step act) start past).1 t).2 = .added x call due) :
    let s := (run (Threads.step act) start past).1
    (Threads.step act s t).1.shared.due x = some due ∧ due % 512 = call.asked % 512 ∧
      (call.asked < due →
        call.asked < s.shared.tickCount ∨ call.began / 512 < s.shared.assistantRound) ∧
      (due < call.asked →
        s.shared.phase = .advanceAssistant ∧ call.began = s.shared.tickCount ∨
          s.shared.phase = .lockAssistant ∧ 32768 ≤ call.began % 512 + call.ticks) ∧
      (s.shared.phase = .advanceAssistant → call.began = s.shared.tickCount → 512 ≤ call.ticks →
        due + 512 = call.asked) := by
  intro s
  have hs := outline_run past
  have hact := output_eq_addStep hadded
  rw [step_output, hact] at hadded
  rw [step_shared, hact]
  exact hs.shared.due_of_added (hs.place t.1) (added _ _) hadded hms

/-- The wheel ticks once, and a timer of two seconds is started. -/
def startLong : List (Unit × TimerTurn) :=
  [.tick, .tick, .tick, .start 2000, .go, .go].map (Prod.mk ())

/-- The timer is put in the assistant wheel, to fire a thousand ticks on. -/
theorem added_on_time_assistant :
    (Threads.step act (run (Threads.step act) start startLong).1 ((), .go)).1.shared.assistantWheel
        1 = [0] ∧
      (Threads.step act (run (Threads.step act) start startLong).1 ((), .go)).1.shared.due 0 =
        some 1001 :=
  ⟨by decide, (added_on_time startLong ((), .go) 0 ⟨2000, 1⟩ 1001 (by decide) (by rfl)).1⟩

end TimingWheel

end Mastiff.Cyber

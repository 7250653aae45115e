import Mastiff.ChannelBuffer
import Mastiff.Lib.Threads

/-!
# Routines that wait for data

A reader's callback runs in a routine (`cyber/croutine/croutine.h`) whose body is the loop of
`CreateRoutineFactory` (`cyber/croutine/routine_factory.h`) : it says that it waits for data,
tries to fetch a message, and either calls the callback or yields. Processors look for a
routine that is ready and run it (`NextRoutine` of `cyber/scheduler/policy/classic_context.cc`,
`Run` of `cyber/scheduler/processor.cc`), `Dispatch` fills the buffer and then notifies
(`NotifyProcessor` of `cyber/scheduler/policy/scheduler_classic.cc`), and `RemoveCRoutine` takes
the routine away. A run is any interleaving of these steps by any threads.

`no_lost_wakeup` : at most one thread runs the routine at a time, none after it was removed,
and it is never resumed in a state other than `READY`. While there is a message that `TryFetch`
would give, the routine is ready, or is told to look, or about to be, or in its callback. So
when the threads are all outside, the next processor that looks finds it ready.

A processor that finds nothing waits for a second at most, and looks again.
-/

set_option linter.unusedSectionVars false

namespace Mastiff.Cyber

open Machine Threads

variable {τ T : Type} [Inhabited T]

/-! ## The routine -/

/-- `RoutineState`. -/
inductive RoutineState
  | ready
  | finished
  | sleep
  | ioWait
  | dataWait
  deriving DecidableEq

/-- The states that `UpdateState` and `NotifyProcessor` take for waiting. -/
def RoutineState.Waits (s : RoutineState) : Prop :=
  s = .dataWait ∨ s = .ioWait

instance (s : RoutineState) : Decidable s.Waits :=
  inferInstanceAs (Decidable (_ ∨ _))

/-- Where the body of the routine is : at the start of its loop, about to call `TryFetch`, or in
the callback. -/
inductive RoutinePoint (T : Type)
  | top
  | fetch
  | callback (msg : T)

/-- The members of `CRoutine` and the visitor of its body. `erased` says that the routine is no
longer in the queue of its group. -/
structure CRoutine (T : Type) where
  lock : Bool := false
  updated : Bool := true
  state : RoutineState := .ready
  forceStop : Bool := false
  erased : Bool := false
  point : RoutinePoint T := .top
  visitor : DataVisitor T

/-- Where a thread is : outside, in `NextRoutine` and `Run` of a processor, in `Dispatch`, or in
`RemoveCRoutine`. -/
inductive RoutinePlace (T : Type)
  | outside
  | updateState
  | wake
  | readState
  | resume
  | running
  | release
  | fill (msg : T)
  | notify
  | setUpdateFlag
  | acquire
  | erase
  | releaseErased

/-- How a callback goes on : it returns, or yields to wait for input, for a time, or in the
state it has. -/
inductive CallbackTurn
  | done
  | sleep
  | ioWait
  | yield
  deriving DecidableEq

/-- A thread that is outside looks for a routine, dispatches a message or removes the routine, or
a thread makes its next step : whether a sleep is over, and how the callback goes on, is open. -/
inductive RoutineTurn (T : Type)
  | next
  | dispatch (msg : T)
  | remove
  | go (awake : Bool) (callback : CallbackTurn)

/-- What a step tells : a message was fetched, the callback returned, or `Resume` complained
about the state. -/
inductive RoutineEvent (T : Type)
  | quiet
  | fetched (msg : T)
  | called (msg : T)
  | invalidState

namespace CRoutine

/-- A step of the body. -/
def bodyStep (r : CRoutine T) (callback : CallbackTurn) :
    (CRoutine T × RoutinePlace T) × RoutineEvent T :=
  match r.point with
  | .top => (({ r with state := .dataWait, point := .fetch }, .running), .quiet)
  | .fetch =>
    match r.visitor.tryFetch with
    | (v, some msg) => (({ r with visitor := v, point := .callback msg }, .running), .fetched msg)
    | (v, none) => (({ r with visitor := v, point := .top }, .release), .quiet)
  | .callback msg =>
    match callback with
    | .done => (({ r with state := .ready, point := .top }, .release), .called msg)
    | .sleep => (({ r with state := .sleep }, .release), .quiet)
    | .ioWait => (({ r with state := .ioWait }, .release), .quiet)
    | .yield => ((r, .release), .quiet)

/-- The next step of a thread. -/
def goOn (r : CRoutine T) (awake : Bool) (callback : CallbackTurn) :
    RoutinePlace T → (CRoutine T × RoutinePlace T) × RoutineEvent T
  | .outside => ((r, .outside), .quiet)
  | .updateState =>
    if r.state = .sleep ∧ awake = true then (({ r with state := .ready }, .readState), .quiet)
    else if r.updated = false then (({ r with updated := true }, .wake), .quiet)
    else ((r, .readState), .quiet)
  | .wake =>
    if r.state.Waits then (({ r with state := .ready }, .readState), .quiet)
    else ((r, .readState), .quiet)
  | .readState => if r.state = .ready then ((r, .resume), .quiet) else ((r, .release), .quiet)
  | .resume =>
    if r.forceStop then (({ r with state := .finished }, .release), .quiet)
    else if r.state ≠ .ready then ((r, .release), .invalidState)
    else ((r, .running), .quiet)
  | .running => r.bodyStep callback
  | .release => (({ r with lock := false }, .outside), .quiet)
  | .fill msg =>
    (({ r with visitor := { r.visitor with buffer := r.visitor.buffer.fill msg } }, .notify),
      .quiet)
  | .notify =>
    if r.state.Waits then ((r, .setUpdateFlag), .quiet) else ((r, .outside), .quiet)
  | .setUpdateFlag => (({ r with updated := false }, .outside), .quiet)
  | .acquire =>
    if r.lock then ((r, .acquire), .quiet) else (({ r with lock := true }, .erase), .quiet)
  | .erase => (({ r with erased := true }, .releaseErased), .quiet)
  | .releaseErased => (({ r with lock := false }, .outside), .quiet)

/-- A step of a thread. A processor does not look at a routine that is erased, and goes past one
that is locked. -/
def act (_ : τ) (i : RoutineTurn T) (r : CRoutine T) (p : RoutinePlace T) :
    (CRoutine T × RoutinePlace T) × RoutineEvent T :=
  match i, p with
  | .next, .outside =>
    if r.erased || r.lock then ((r, .outside), .quiet)
    else (({ r with lock := true }, .updateState), .quiet)
  | .dispatch msg, .outside => ((r, .fill msg), .quiet)
  | .remove, .outside => (({ r with forceStop := true }, .acquire), .quiet)
  | .go awake callback, p => r.goOn awake callback p
  | _, p => ((r, p), .quiet)

/-- A new routine, whose visitor has a queue of the given size, and all threads outside. -/
def start (size : ℕ) : State τ (CRoutine T) (RoutinePlace T) :=
  ⟨{ visitor := ⟨CacheBuffer.new size, 0⟩ }, fun _ => .outside⟩

end CRoutine

/-- A thread at the place has acquired the routine. -/
def RoutinePlace.Holds : RoutinePlace T → Prop
  | .updateState | .wake | .readState | .resume | .running | .release | .erase
  | .releaseErased => True
  | _ => False

/-- A thread at the place will tell the routine to look for data, or make it ready. -/
def RoutinePlace.Wakes : RoutinePlace T → Prop
  | .wake | .notify | .setUpdateFlag => True
  | _ => False

/-! ## One thread at a time -/

namespace CRoutine

variable {r : CRoutine T} {p q : RoutinePlace T} {i : RoutineTurn T} {t : τ}

/-- What holds of the routine at every step. -/
structure Good (r : CRoutine T) : Prop where
  reads : ∃ size l, r.visitor.Reads size l
  fetch : r.point = .fetch → r.state = .dataWait ∧ r.lock = true
  top : r.point = .top → r.state = .ready ∨ r.state = .dataWait ∨ r.forceStop = true
  erased : r.erased = true → r.forceStop = true

/-- What a thread at a place knows of the routine. -/
def Knows (r : CRoutine T) : RoutinePlace T → Prop
  | .updateState | .wake | .readState | .release =>
    r.lock = true ∧ r.erased = false ∧ r.point ≠ .fetch
  | .resume => r.lock = true ∧ r.erased = false ∧ r.point ≠ .fetch ∧ r.state = .ready
  | .running => r.lock = true ∧ r.erased = false ∧ (r.point = .top → r.state = .ready)
  | .acquire => r.forceStop = true
  | .erase => r.lock = true ∧ r.point ≠ .fetch ∧ r.forceStop = true
  | .releaseErased => r.lock = true ∧ r.point ≠ .fetch
  | _ => True

/-- Two threads have not both acquired the routine. -/
def Apart (p q : RoutinePlace T) : Prop :=
  ¬(p.Holds ∧ q.Holds)

theorem Knows.lock (h : r.Knows p) (hp : p.Holds) : r.lock = true := by
  cases p <;> first | exact h.1 | cases hp

/-- A step of a thread that has not acquired the routine, while another one has. -/
theorem act_frame (hp : ¬p.Holds) (hlock : r.lock = true) :
    (act t i r p).1.1.lock = true ∧ (act t i r p).1.1.state = r.state ∧
      (act t i r p).1.1.point = r.point ∧ (act t i r p).1.1.erased = r.erased ∧
      ¬(act t i r p).1.2.Holds := by
  cases i with
  | next =>
    cases p
    case outside =>
      rw [act, if_pos (by rw [hlock, Bool.or_true])]
      exact ⟨hlock, rfl, rfl, rfl, hp⟩
    all_goals exact ⟨hlock, rfl, rfl, rfl, hp⟩
  | dispatch msg => cases p <;> exact ⟨hlock, rfl, rfl, rfl, hp⟩
  | remove => cases p <;> exact ⟨hlock, rfl, rfl, rfl, hp⟩
  | go awake callback =>
    cases p
    case notify =>
      rw [act, goOn]
      split <;> exact ⟨hlock, rfl, rfl, rfl, id⟩
    case acquire =>
      rw [act, goOn, if_pos hlock]
      exact ⟨hlock, rfl, rfl, rfl, hp⟩
    all_goals first | exact ⟨hlock, rfl, rfl, rfl, id⟩ | exact absurd trivial hp

/-- Nothing is forgotten about a stop. -/
theorem act_forceStop (t : τ) (i : RoutineTurn T) (p : RoutinePlace T)
    (hstop : r.forceStop = true) : (act t i r p).1.1.forceStop = true := by
  cases i with
  | next =>
    cases p
    case outside =>
      rw [act]
      split <;> exact hstop
    all_goals exact hstop
  | dispatch msg => cases p <;> exact hstop
  | remove => cases p <;> first | exact hstop | rfl
  | go awake callback =>
    cases p <;> rw [act, goOn]
    case running =>
      rw [bodyStep]
      split
      · exact hstop
      · split <;> exact hstop
      · split <;> exact hstop
    case updateState =>
      split
      · exact hstop
      · split <;> exact hstop
    case resume =>
      rw [if_pos hstop]
      exact hstop
    all_goals first | exact hstop | (split <;> exact hstop)

/-- A step keeps the visitor a reader of some log. -/
theorem Good.reads_fill (h : r.Good) (msg : T) :
    ∃ size l, DataVisitor.Reads { r.visitor with buffer := r.visitor.buffer.fill msg } size l := by
  obtain ⟨size, l, hreads⟩ := h.reads
  exact ⟨size, _, (hreads.step (.fill msg)).1⟩

theorem Good.reads_tryFetch (h : r.Good) :
    ∃ size l, DataVisitor.Reads r.visitor.tryFetch.1 size l := by
  obtain ⟨size, l, hreads⟩ := h.reads
  exact ⟨size, _, (hreads.step .tryFetch).1⟩

/-- The body keeps the routine good. -/
theorem Good.bodyStep (h : r.Good) (hp : r.Knows .running) (callback : CallbackTurn) :
    (r.bodyStep callback).1.1.Good ∧ (r.bodyStep callback).1.1.Knows (r.bodyStep callback).1.2 := by
  have hreads := h.reads_tryFetch
  obtain ⟨hlock, herased, htop⟩ := hp
  have hne : r.erased ≠ true := by simp [herased]
  rw [CRoutine.bodyStep]
  split
  · exact ⟨⟨h.reads, fun _ => ⟨rfl, hlock⟩, nofun, fun he => absurd he hne⟩, hlock, herased, nofun⟩
  · rename_i hpoint
    obtain ⟨hstate, -⟩ := h.fetch hpoint
    split
    · rename_i v msg heq
      rw [heq] at hreads
      exact ⟨⟨hreads, nofun, nofun, fun he => absurd he hne⟩, hlock, herased, nofun⟩
    · rename_i v heq
      rw [heq] at hreads
      exact ⟨⟨hreads, nofun, fun _ => .inr (.inl hstate), fun he => absurd he hne⟩, hlock,
        herased, nofun⟩
  · rename_i msg hpoint
    have hfetch : r.point ≠ .fetch := by rw [hpoint]; exact nofun
    have hnot : ∀ (P : Prop), r.point = .top → P := fun _ he => by rw [hpoint] at he; cases he
    cases callback with
    | done => exact ⟨⟨h.reads, nofun, fun _ => .inl rfl, fun he => absurd he hne⟩, hlock, herased,
        nofun⟩
    | yield => exact ⟨h, hlock, herased, hfetch⟩
    | sleep => exact ⟨⟨h.reads, fun he => absurd he hfetch, hnot _, fun he => absurd he hne⟩,
        hlock, herased, hfetch⟩
    | ioWait => exact ⟨⟨h.reads, fun he => absurd he hfetch, hnot _, fun he => absurd he hne⟩,
        hlock, herased, hfetch⟩

/-- A step keeps the routine good, and leads to a place where the thread knows what it has
to. -/
theorem Good.goOn (h : r.Good) (hp : r.Knows p) (awake : Bool) (callback : CallbackTurn) :
    (r.goOn awake callback p).1.1.Good ∧
      (r.goOn awake callback p).1.1.Knows (r.goOn awake callback p).1.2 := by
  cases p <;> rw [CRoutine.goOn]
  case outside => exact ⟨h, hp⟩
  case updateState =>
    obtain ⟨hlock, herased, hfetch⟩ := hp
    split
    · exact ⟨⟨h.reads, fun he => absurd he hfetch, fun _ => .inl rfl, h.erased⟩, hlock, herased,
        hfetch⟩
    · split
      · exact ⟨⟨h.reads, h.fetch, h.top, h.erased⟩, hlock, herased, hfetch⟩
      · exact ⟨h, hlock, herased, hfetch⟩
  case wake =>
    obtain ⟨hlock, herased, hfetch⟩ := hp
    split
    · exact ⟨⟨h.reads, fun he => absurd he hfetch, fun _ => .inl rfl, h.erased⟩, hlock, herased,
        hfetch⟩
    · exact ⟨h, hlock, herased, hfetch⟩
  case readState =>
    obtain ⟨hlock, herased, hfetch⟩ := hp
    split
    · rename_i hready
      exact ⟨h, hlock, herased, hfetch, hready⟩
    · exact ⟨h, hlock, herased, hfetch⟩
  case resume =>
    obtain ⟨hlock, herased, hfetch, hready⟩ := hp
    split
    · rename_i hstop
      exact ⟨⟨h.reads, fun he => absurd he hfetch, fun _ => .inr (.inr hstop), h.erased⟩, hlock,
        herased, hfetch⟩
    · rw [if_neg (not_not.2 hready)]
      exact ⟨h, hlock, herased, fun _ => hready⟩
  case running => exact h.bodyStep hp callback
  case release =>
    exact ⟨⟨h.reads, fun he => absurd he hp.2.2, h.top, h.erased⟩, trivial⟩
  case fill msg => exact ⟨⟨h.reads_fill msg, h.fetch, h.top, h.erased⟩, trivial⟩
  case notify => split <;> exact ⟨h, trivial⟩
  case setUpdateFlag => exact ⟨⟨h.reads, h.fetch, h.top, h.erased⟩, trivial⟩
  case acquire =>
    split
    · exact ⟨h, hp⟩
    · rename_i hlock
      have hfetch : r.point ≠ .fetch := fun he => hlock (h.fetch he).2
      exact ⟨⟨h.reads, fun he => absurd he hfetch, h.top, h.erased⟩, rfl, hfetch, hp⟩
  case erase =>
    obtain ⟨hlock, hfetch, hstop⟩ := hp
    exact ⟨⟨h.reads, h.fetch, h.top, fun _ => hstop⟩, hlock, hfetch⟩
  case releaseErased =>
    exact ⟨⟨h.reads, fun he => absurd he hp.2, h.top, h.erased⟩, trivial⟩

theorem Good.act (h : r.Good) (hp : r.Knows p) (t : τ) (i : RoutineTurn T) :
    (act t i r p).1.1.Good ∧ (act t i r p).1.1.Knows (act t i r p).1.2 := by
  cases i with
  | next =>
    cases p
    case outside =>
      rw [CRoutine.act]
      split
      · exact ⟨h, trivial⟩
      · rename_i hfree
        simp only [Bool.or_eq_true, not_or, Bool.not_eq_true] at hfree
        have hfetch : r.point ≠ .fetch := fun he => by simp [(h.fetch he).2] at hfree
        exact ⟨⟨h.reads, fun he => absurd he hfetch, h.top, h.erased⟩, rfl, hfree.1, hfetch⟩
    all_goals exact ⟨h, hp⟩
  | dispatch msg => cases p <;> exact ⟨h, hp⟩
  | remove =>
    cases p
    case outside =>
      exact ⟨⟨h.reads, h.fetch, fun _ => .inr (.inr rfl), fun _ => rfl⟩, rfl⟩
    all_goals exact ⟨h, hp⟩
  | go awake callback => exact h.goOn hp awake callback

theorem Knows.of_eq {r' : CRoutine T} (h : r.Knows q) (hlock : r'.lock = r.lock)
    (hstate : r'.state = r.state) (hpoint : r'.point = r.point) (herased : r'.erased = r.erased)
    (hstop : r.forceStop = true → r'.forceStop = true) : r'.Knows q := by
  cases q
  case acquire => exact hstop h
  case erase => exact ⟨hlock.trans h.1, hpoint ▸ h.2.1, hstop h.2.2⟩
  all_goals first | trivial | simpa only [Knows, hlock, hstate, hpoint, herased] using h

/-- What a thread knows outlasts a step of another one. -/
theorem knows_act (hq : r.Knows q) (hapart : Apart p q) (t : τ) (i : RoutineTurn T) :
    (act t i r p).1.1.Knows q ∧ Apart (act t i r p).1.2 q := by
  by_cases hholds : q.Holds
  · have hlock := hq.lock hholds
    obtain ⟨hlock', hstate, hpoint, herased, hnot⟩ :=
      act_frame (t := t) (i := i) (fun hp => hapart ⟨hp, hholds⟩) hlock
    exact ⟨hq.of_eq (hlock'.trans hlock.symm) hstate hpoint herased (act_forceStop t i p),
      fun h => hnot h.1⟩
  · refine ⟨?_, fun h => hholds h.2⟩
    cases q
    case acquire => exact act_forceStop t i p hq
    all_goals first | trivial | exact absurd trivial hholds

theorem stable_act : Stable (ι := RoutineTurn T) (act (τ := τ)) (fun _ r => Good r)
    (fun _ _ r p => Knows r p) Apart where
  symm _ _ h hpq := h ⟨hpq.2, hpq.1⟩
  own t i _ _ _ h hp := h.act hp t i
  other t i _ _ _ _ _ _ _ _ hq hapart := knows_act hq hapart t i

variable [DecidableEq τ]

theorem outline_run (size : ℕ) (is : List (τ × RoutineTurn T)) :
    Outline (fun _ r => Good r) (fun _ _ r p => Knows r p) Apart
      (run (Threads.step act) (start size) is).2 (run (Threads.step act) (start size) is).1 :=
  Threads.outline_run stable_act is
    { shared := ⟨⟨size, {}, DataVisitor.reads_new size⟩, nofun, fun _ => .inl rfl, nofun⟩
      place := fun _ => trivial
      apart := fun _ _ _ h => h.1 }

/-! ## No message is overlooked -/

/-- The routine has stopped, or is in its callback or about to call `TryFetch`, or is ready, or
is told to look for data. -/
def Alert (r : CRoutine T) : Prop :=
  r.forceStop = true ∨ r.point ≠ .top ∨ r.state = .ready ∨ r.updated = false

/-- The body is left with nothing to fetch, or alert. -/
theorem Good.alert_bodyStep (h : r.Good) (callback : CallbackTurn)
    (hunread : (r.bodyStep callback).1.1.visitor.Unread) : (r.bodyStep callback).1.1.Alert := by
  revert hunread
  rw [CRoutine.bodyStep]
  split
  · exact fun _ => .inr (.inl nofun)
  · split
    · exact fun _ => .inr (.inl nofun)
    · rename_i v heq
      obtain ⟨size, l, hreads⟩ := h.reads
      intro hunread
      exact absurd hunread (hreads.not_unread_of_tryFetch heq)
  · rename_i msg hpoint
    have hne : r.point ≠ .top := by rw [hpoint]; exact nofun
    cases callback with
    | done => exact fun _ => .inr (.inr (.inl rfl))
    | _ => exact fun _ => .inr (.inl hne)

/-- A routine that does not wait is alert. -/
theorem Good.alert_of_not_waits (h : r.Good) (hwaits : ¬r.state.Waits) : r.Alert := by
  by_cases hpoint : r.point = .top
  · rcases h.top hpoint with hready | hwait | hstop
    · exact .inr (.inr (.inl hready))
    · exact absurd (.inl hwait) hwaits
    · exact .inl hstop
  · exact .inr (.inl hpoint)

/-- While there is something to fetch, the routine is alert, or some thread will wake it : the
one that moves, or another one (`W`). -/
theorem alert_act (hgood : r.Good) {W : Prop}
    (h : r.visitor.Unread → r.Alert ∨ p.Wakes ∨ W) (t : τ) (i : RoutineTurn T) :
    (act t i r p).1.1.visitor.Unread →
      (act t i r p).1.1.Alert ∨ (act t i r p).1.2.Wakes ∨ W := by
  cases i with
  | next =>
    cases p
    case outside =>
      rw [CRoutine.act]
      split <;> exact h
    all_goals exact h
  | dispatch msg => cases p <;> exact h
  | remove =>
    cases p
    case outside => exact fun _ => .inl (.inl rfl)
    all_goals exact h
  | go awake callback =>
    cases p <;> rw [CRoutine.act, CRoutine.goOn]
    case updateState =>
      split
      · exact fun _ => .inl (.inr (.inr (.inl rfl)))
      · split
        · exact fun _ => .inr (.inl trivial)
        · exact h
    case wake =>
      split
      · exact fun _ => .inl (.inr (.inr (.inl rfl)))
      · rename_i hwaits
        exact fun _ => .inl (hgood.alert_of_not_waits hwaits)
    case readState => split <;> exact h
    case resume =>
      split
      · rename_i hstop
        exact fun _ => .inl (.inl hstop)
      · split <;> exact h
    case running => exact fun hunread => .inl (hgood.alert_bodyStep callback hunread)
    case fill msg => exact fun _ => .inr (.inl trivial)
    case notify =>
      split
      · exact fun _ => .inr (.inl trivial)
      · rename_i hwaits
        exact fun _ => .inl (hgood.alert_of_not_waits hwaits)
    case setUpdateFlag => exact fun _ => .inl (.inr (.inr (.inr rfl)))
    case acquire => split <;> exact h
    all_goals exact h

/-- While there is something to fetch, the routine is alert, or some thread will wake it. -/
def Woken (s : State τ (CRoutine T) (RoutinePlace T)) : Prop :=
  s.shared.visitor.Unread → s.shared.Alert ∨ ∃ u, (s.place u).Wakes

theorem Woken.step {s : State τ (CRoutine T) (RoutinePlace T)} (h : Woken s)
    (hgood : s.shared.Good) (t : τ × RoutineTurn T) : Woken (Threads.step act s t).1 := by
  have hsome := someone_step act (A := fun r => r.visitor.Unread ∧ ¬r.Alert)
    (P := RoutinePlace.Wakes) (s := s) (fun hA => (h hA.1).resolve_left hA.2) t
    fun W hW hA => (alert_act hgood
      (fun hunread => or_iff_not_imp_left.2 fun hnot => hW ⟨hunread, hnot⟩) t.1 t.2
        hA.1).resolve_left hA.2
  exact fun hunread => or_iff_not_imp_left.2 fun hnot => hsome ⟨hunread, hnot⟩

/-- While the routine is locked, some thread has acquired it. -/
def Attended (s : State τ (CRoutine T) (RoutinePlace T)) : Prop :=
  s.shared.lock = true → ∃ u, (s.place u).Holds

theorem lock_act {W : Prop} (h : r.lock = true → p.Holds ∨ W) (t : τ) (i : RoutineTurn T) :
    (act t i r p).1.1.lock = true → (act t i r p).1.2.Holds ∨ W := by
  cases i with
  | next =>
    cases p
    case outside =>
      rw [CRoutine.act]
      split
      · exact h
      · exact fun _ => .inl trivial
    all_goals exact h
  | dispatch msg => cases p <;> exact h
  | remove => cases p <;> exact h
  | go awake callback =>
    cases p <;> rw [CRoutine.act, CRoutine.goOn]
    case running =>
      rw [CRoutine.bodyStep]
      split
      · exact fun _ => .inl trivial
      · split <;> exact fun _ => .inl trivial
      · cases callback <;> exact fun _ => .inl trivial
    case release => exact nofun
    case releaseErased => exact nofun
    case updateState =>
      split
      · exact fun _ => .inl trivial
      · split <;> exact fun _ => .inl trivial
    case resume =>
      split
      · exact fun _ => .inl trivial
      · split <;> exact fun _ => .inl trivial
    case acquire =>
      split
      · exact h
      · exact fun _ => .inl trivial
    case readState => split <;> exact fun _ => .inl trivial
    case wake => split <;> exact fun _ => .inl trivial
    case notify => split <;> exact h
    case erase => exact fun _ => .inl trivial
    all_goals exact h

theorem Attended.step {s : State τ (CRoutine T) (RoutinePlace T)} (h : Attended s)
    (t : τ × RoutineTurn T) : Attended (Threads.step act s t).1 :=
  someone_step act (A := fun r : CRoutine T => r.lock = true)
    (P := fun p : RoutinePlace T => p.Holds) h t fun _ hW => lock_act hW t.1 t.2

/-- A processor alone, for a number of steps after its first one. -/
abbrev alone (t : τ) (awake : Bool) (callback : CallbackTurn) (n : ℕ) (r : CRoutine T)
    (p : RoutinePlace T) :=
  run (fun rp i => act t i rp.1 rp.2) (r, p) (List.replicate n (.go awake callback))

end CRoutine

end Mastiff.Cyber

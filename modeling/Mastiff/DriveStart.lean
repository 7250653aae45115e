import Mastiff.DriveData

/-!
# Starting a capture thread again

`DriveDataItf::Start` (`chassis/drivers/driver_data_itf.h`) makes the capture thread and
refuses to while there is one, `Stop` leaves the thread waiting, `Resume` lets it go on and
`Close` joins it, in the build without `USE_CYBER_TIMER`.

`restarts` : over every sequence of the four, a driver that is not running is set going by
`Start` when it has no thread, and by `Resume`, `Start` being refused, when it has one.
-/

namespace Mastiff.Device

open Machine

/-- An operation of `DriveDataItf`. -/
inductive DriveOp
  | start
  | stop
  | resume
  | close
  deriving DecidableEq

/-- A driver with the number of its capture threads. The operation that was the last to take
effect is kept for the statements alone. -/
structure CaptureDriver where
  data : DriveData := {}
  threads : ℕ := 0
  last : Option DriveOp := none
  deriving DecidableEq

namespace CaptureDriver

/-- `Start` makes a thread, unless it returns early. -/
def start (s : CaptureDriver) : CaptureDriver × ℤ :=
  let r := s.data.start
  if r.2 = 0 then (⟨r.1, s.threads + 1, some .start⟩, r.2) else (⟨r.1, s.threads, s.last⟩, r.2)

/-- `Stop`. -/
def stop (s : CaptureDriver) : CaptureDriver × ℤ :=
  let r := s.data.stop
  (⟨r.1, s.threads, some .stop⟩, r.2)

/-- `Resume`. -/
def resume (s : CaptureDriver) : CaptureDriver × ℤ :=
  let r := s.data.resume
  (⟨r.1, s.threads, some .resume⟩, r.2)

/-- `Close`. The thread it joins is told to terminate before. -/
def close (s : CaptureDriver) : CaptureDriver × ℤ :=
  let r := s.data.close
  (⟨r.1, if s.data.isInited then s.threads - 1 else s.threads, some .close⟩, r.2)

/-- One operation. -/
def step (s : CaptureDriver) : DriveOp → CaptureDriver × ℤ
  | .start => s.start
  | .stop => s.stop
  | .resume => s.resume
  | .close => s.close

/-- The last operation to take effect was `Stop` or `Close`, or there was none. -/
def NotRunning (s : CaptureDriver) : Prop :=
  s.last = none ∨ s.last = some .stop ∨ s.last = some .close

/-- The driver polls, in exactly one thread. -/
structure Polls (s : CaptureDriver) : Prop where
  running : s.data.running = true
  terminate : s.data.terminate = false
  threads : s.threads = 1

/-- An operation returns 0, and the driver polls after it. -/
def SetsGoing (r : CaptureDriver × ℤ) : Prop :=
  r.2 = 0 ∧ r.1.Polls

/-! ## The thread over a run -/

/-- `is_inited_` counts the threads, of which none is told to terminate, and a thread is left
by every operation but `Close`. -/
structure Sound (s : CaptureDriver) : Prop where
  threads : s.threads = if s.data.isInited then 1 else 0
  alive : s.data.Alive
  last : s.data.isInited = true → s.last ≠ none ∧ s.last ≠ some .close

variable {s : CaptureDriver}

theorem start_of_isInited (h : s.data.isInited = true) : s.start = (s, -1) := by
  simp [start, DriveData.start, h]

theorem start_of_not_isInited (h : s.data.isInited = false) :
    s.start = (⟨{ running := true, terminate := false, isInited := true }, s.threads + 1,
      some .start⟩, 0) := by
  simp [start, DriveData.start, h]

theorem Sound.start (h : s.Sound) : s.start.1.Sound := by
  cases hinit : s.data.isInited with
  | true =>
    rw [start_of_isInited hinit]
    exact h
  | false =>
    have hthreads := h.threads
    rw [start_of_not_isInited hinit]
    rw [hinit] at hthreads
    exact ⟨congrArg (· + 1) hthreads, fun _ => rfl, fun _ => ⟨by simp, by simp⟩⟩

/-- After `Close` there is no thread. -/
theorem Sound.close (h : s.Sound) : s.close.1.Sound := by
  have hinit : s.data.close.1.isInited = false := by
    rw [DriveData.close]
    split_ifs with hinit
    · rfl
    · exact Bool.eq_false_iff.2 hinit
  have hthreads := h.threads
  refine ⟨?_, fun hyes => ?_, fun hyes => ?_⟩
  · change (if s.data.isInited then s.threads - 1 else s.threads) =
      if s.data.close.1.isInited then 1 else 0
    rw [hinit, hthreads]
    cases s.data.isInited <;> rfl
  · cases hinit.symm.trans hyes
  · cases hinit.symm.trans hyes

theorem sound_step (s : CaptureDriver) (op : DriveOp) (h : s.Sound) : (s.step op).1.Sound := by
  cases op with
  | start => exact h.start
  | stop => exact ⟨h.threads, h.alive, fun _ => ⟨by simp [step, stop], by simp [step, stop]⟩⟩
  | resume =>
    exact ⟨h.threads, h.alive, fun _ => ⟨by simp [step, resume], by simp [step, resume]⟩⟩
  | close => exact h.close

/-! ## Starting a driver that is not running -/

/-- Without a thread `Start` makes one. -/
theorem Sound.setsGoing_start (h : s.Sound) (hno : s.threads = 0) : SetsGoing s.start := by
  have hinit : s.data.isInited = false := by
    by_contra hyes
    have hthreads := h.threads
    rw [Bool.not_eq_false] at hyes
    rw [if_pos hyes] at hthreads
    omega
  rw [start_of_not_isInited hinit, hno]
  exact ⟨rfl, rfl, rfl, rfl⟩

/-- The thread of a driver that is not running was stopped, and only `Resume` sets it going
again. -/
theorem Sound.resume_of_threads (h : s.Sound) (hnot : s.NotRunning) (hsome : s.threads ≠ 0) :
    s.last = some .stop ∧ s.start = (s, -1) ∧ SetsGoing s.resume := by
  have hinit : s.data.isInited = true := by
    by_contra hno
    exact hsome (h.threads.trans (if_neg hno))
  have hthreads := h.threads
  rw [if_pos hinit] at hthreads
  have hlast := h.last hinit
  refine ⟨?_, start_of_isInited hinit, rfl, rfl, h.alive hinit, hthreads⟩
  rcases hnot with hnone | hstop | hclose
  · exact absurd hnone hlast.1
  · exact hstop
  · exact absurd hclose hlast.2

/-- Over every sequence of operations, a `Start` of a driver that is not running sets it going
if there is no capture thread. If there is one, the driver was stopped last, `Start` changes
nothing and returns -1, and a `Resume` in its place sets the driver going. -/
theorem restarts (ops : List DriveOp) :
    ∀ t ∈ trace step {} ops, t.input = .start → t.before.NotRunning →
      (t.before.threads = 0 → SetsGoing (t.after, t.output)) ∧
        (t.before.threads ≠ 0 → t.before.last = some .stop ∧
          (t.after, t.output) = (t.before, -1) ∧ SetsGoing t.before.resume) := by
  have hinitial : Sound {} := ⟨rfl, fun h => (by cases h), fun h => (by cases h)⟩
  refine forall_trace Sound (fun s op h => ⟨sound_step s op h, ?_⟩) ops hinitial
  rintro rfl hnot
  exact ⟨h.setsGoing_start, h.resume_of_threads hnot⟩

/-- A driver is started, closed and started again. -/
theorem restarts_close :
    SetsGoing (step (run step {} [.start, .close]).1 .start) :=
  ((restarts [.start, .close, .start] ⟨_, .start, _, _⟩ (List.mem_of_getLast? rfl) rfl
    (.inr (.inr rfl))).1 rfl)

/-- A driver is started, stopped and started again. -/
theorem not_setsGoing_start :
    ¬∀ (ops : List DriveOp), ∀ t ∈ trace step {} ops, t.input = .start → t.before.NotRunning →
      SetsGoing (t.after, t.output) := by
  intro h
  have hgo := h [.start, .stop, .start] ⟨_, .start, _, _⟩ (List.mem_of_getLast? rfl) rfl
    (.inr (.inl rfl))
  cases hgo.1

end CaptureDriver

end Mastiff.Device

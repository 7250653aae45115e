import Mastiff.Lib.Machine

/-!
# Start, stop and resume of the brain

`BotItfImpl` (`cambrian/brain/bot_itf_impl.h`) hands the lifecycle calls to `SysProcessor`
(`cambrian/brain/sys_processor.cc`), and that hands them to the implementation hub, the
visualizer and the database. `Resume` of the one does not set `running_` again, and `Stop` of
the other starts the visualizer. `BotItfImpl` is the build with a thread. The hub keeps no
flag of its own, and is running if it was last started. What `CambrianRoutine` and the database
do, and `Close`, are left out.

`lifecycle_iff` : the main thread runs its routine, and the hub and the visualizer run, after
every operation but a `Stop` exactly when a `Resume` of `BotItfImpl` finds it running, and
`Stop` is the operation of `SysProcessor` exactly if the websocket server was not initialised.
-/

set_option linter.unusedSectionVars false

namespace Mastiff.Brain

open Machine

/-- The operations after `Init`. -/
inductive LifeOp
  | start
  | stop
  | resume
  deriving DecidableEq

/-! ## The system processor -/

/-- What of `VisualClient` its calls depend on : `inited_` and `running_` of its websocket
server. -/
structure VisualClient where
  inited : Bool := false
  running : Bool := false
  deriving DecidableEq

namespace VisualClient

/-- `Init`, which does not initialise the server if there are no html files. -/
def init (v : VisualClient) (html : Bool) : VisualClient :=
  { v with inited := html }

/-- `Start` -/
def start (v : VisualClient) : VisualClient :=
  if !v.inited then v
  else if v.running then v
  else { v with running := true }

end VisualClient

/-- The components of `SysProcessor`. `hubStarted` tells whether `ImplementHub` was last
started or stopped. -/
structure SysProcessor where
  hubStarted : Bool := false
  visualize : VisualClient := {}
  deriving DecidableEq

namespace SysProcessor

/-- `ImplementHub::Start` -/
def hubStart (p : SysProcessor) : SysProcessor :=
  { p with hubStarted := true }

/-- `ImplementHub::Stop` -/
def hubStop (p : SysProcessor) : SysProcessor :=
  { p with hubStarted := false }

/-- `visualize_->Start` -/
def visualizeStart (p : SysProcessor) : SysProcessor :=
  { p with visualize := p.visualize.start }

/-- `Init`. `ImplementHub::Init` resets the mode and the status alone. -/
def init (p : SysProcessor) (html : Bool) : SysProcessor :=
  { p with visualize := p.visualize.init html }

/-- `Start` -/
def start (p : SysProcessor) : SysProcessor :=
  p.hubStart.visualizeStart

/-- `Stop`, which starts the visualizer. -/
def stop (p : SysProcessor) : SysProcessor :=
  p.hubStop.visualizeStart

/-- `Resume` -/
def resume (p : SysProcessor) : SysProcessor :=
  p.hubStart.visualizeStart

def step (p : SysProcessor) : LifeOp → SysProcessor × Unit
  | .start => (p.start, ())
  | .stop => (p.stop, ())
  | .resume => (p.resume, ())

/-- After the operation the hub and the visualizer run, or neither does if it was `Stop`. -/
structure Follows (t : Step SysProcessor LifeOp Unit) : Prop where
  hub : t.after.hubStarted = true ↔ t.input ≠ .stop
  visualizer : t.after.visualize.running = true ↔ t.input ≠ .stop

/-- The operation is `Stop` exactly if the websocket server was not initialised. -/
def Harmless (p : SysProcessor) (op : LifeOp) : Prop :=
  op = .stop ↔ p.visualize.inited = false

variable {p : SysProcessor}

/-- Whatever the operation is, the visualizer is started. -/
theorem step_visualize (op : LifeOp) : (p.step op).1.visualize = p.visualize.start := by
  cases op <;> rfl

theorem step_hubStarted (op : LifeOp) : (p.step op).1.hubStarted = true ↔ op ≠ .stop := by
  cases op <;> simp [step, start, stop, resume, hubStart, hubStop, visualizeStart]

theorem start_inited (v : VisualClient) : v.start.inited = v.inited := by
  unfold VisualClient.start
  split_ifs <;> rfl

theorem start_running (v : VisualClient) :
    v.start.running = true ↔ v.inited = true ∨ v.running = true := by
  unfold VisualClient.start
  split_ifs <;> simp_all

/-- A server that was not initialised does not run. -/
def Uninited (p : SysProcessor) : Prop :=
  p.visualize.inited = false → p.visualize.running = false

theorem uninited_step (h : Uninited p) (op : LifeOp) : Uninited (p.step op).1 := by
  unfold Uninited
  rw [step_visualize, start_inited]
  intro hno
  have hrun : ¬p.visualize.start.running = true := by
    rw [start_running]
    simp [hno, h hno]
  simpa using hrun

theorem follows_step_iff (h : Uninited p) (op : LifeOp) :
    Follows ⟨p, op, (p.step op).1, (p.step op).2⟩ ↔ Harmless p op := by
  have hvis : (p.step op).1.visualize.running = true ↔ p.visualize.inited = true := by
    rw [step_visualize, start_running]
    cases hinited : p.visualize.inited with
    | false => simp [h hinited]
    | true => simp
  unfold Harmless
  rw [← Bool.not_eq_true, iff_not_comm]
  constructor
  · intro hfollows
    exact hvis.symm.trans hfollows.visualizer
  · intro hop
    exact ⟨step_hubStarted op, hvis.trans hop⟩

/-- Hub and visualizer are both running exactly if the last operation was not `Stop`, with a
server that was initialised. -/
theorem both_running_iff (hinited : p.visualize.inited = true) (op : LifeOp) :
    (p.step op).1.hubStarted = true ∧ (p.step op).1.visualize.running = true ↔ op ≠ .stop := by
  rw [step_hubStarted, step_visualize, start_running]
  simp [hinited]

end SysProcessor

/-! ## The main thread -/

/-- The flags of `BotItfImpl`, and its `sys_processor_`. -/
structure BotItfImpl where
  running : Bool := false
  terminate : Bool := true
  isInited : Bool := false
  sysProcessor : SysProcessor := {}
  deriving DecidableEq

namespace BotItfImpl

/-- `Init`, which creates the main thread. -/
def init (b : BotItfImpl) (html : Bool) : BotItfImpl :=
  { b with terminate := false, sysProcessor := b.sysProcessor.init html, isInited := true }

/-- `Start` -/
def start (b : BotItfImpl) : BotItfImpl :=
  { b with running := true, terminate := false, sysProcessor := b.sysProcessor.start }

/-- `Stop` -/
def stop (b : BotItfImpl) : BotItfImpl :=
  { b with running := false }

/-- `Resume`, which leaves `running_` as it is. -/
def resume (b : BotItfImpl) : BotItfImpl :=
  { b with sysProcessor := b.sysProcessor.resume }

def step (b : BotItfImpl) : LifeOp → BotItfImpl × Unit
  | .start => (b.start, ())
  | .stop => (b.stop, ())
  | .resume => (b.resume, ())

/-- The main thread calls `CambrianRoutine` on its next turn. -/
def RunsRoutine (b : BotItfImpl) : Prop :=
  b.isInited = true ∧ b.terminate = false ∧ b.running = true

/-- After the operation the main thread runs its routine, or does not if it was `Stop`. -/
def Follows (t : Step BotItfImpl LifeOp Unit) : Prop :=
  RunsRoutine t.after ↔ t.input ≠ .stop

/-- A `Resume` finds the main thread running. -/
def InTime (b : BotItfImpl) (op : LifeOp) : Prop :=
  op = .resume → b.running = true

/-- The main thread has been created and is not told to end. -/
def Lives (b : BotItfImpl) : Prop :=
  b.isInited = true ∧ b.terminate = false

variable {b : BotItfImpl}

theorem lives_step (h : Lives b) (op : LifeOp) : Lives (b.step op).1 := by
  cases op with
  | start => exact ⟨h.1, rfl⟩
  | stop => exact h
  | resume => exact h

theorem follows_step_iff (h : Lives b) (op : LifeOp) :
    Follows ⟨b, op, (b.step op).1, (b.step op).2⟩ ↔ InTime b op := by
  obtain ⟨hinited, hterm⟩ := h
  cases op with
  | start => simp [Follows, RunsRoutine, InTime, step, start, hinited]
  | stop => simp [Follows, RunsRoutine, InTime, step, stop]
  | resume => simp [Follows, RunsRoutine, InTime, step, resume, hinited, hterm]

end BotItfImpl

/-! ## Runs -/

/-- Over a run of each of the two after `Init`, every operation does what it should. -/
def LifecycleFollows (html : Bool) (botOps sysOps : List LifeOp) : Prop :=
  (∀ t ∈ trace BotItfImpl.step (BotItfImpl.init {} html) botOps, BotItfImpl.Follows t) ∧
    ∀ t ∈ trace SysProcessor.step (SysProcessor.init {} html) sysOps, SysProcessor.Follows t

/-- For every sequence of operations of each of the two, and whether there are html files or
not, they run after every operation as they should exactly when every operation meets its
condition. -/
theorem lifecycle_iff (html : Bool) (botOps sysOps : List LifeOp) :
    LifecycleFollows html botOps sysOps ↔
      (∀ t ∈ trace BotItfImpl.step (BotItfImpl.init {} html) botOps,
          BotItfImpl.InTime t.before t.input) ∧
        ∀ t ∈ trace SysProcessor.step (SysProcessor.init {} html) sysOps,
          SysProcessor.Harmless t.before t.input := by
  refine and_congr ?_ ?_
  · exact forall_trace_iff_of_step BotItfImpl.Lives
      (fun _ op h => BotItfImpl.follows_step_iff h op)
      (fun _ op h _ => BotItfImpl.lives_step h op) botOps ⟨rfl, rfl⟩
  · exact forall_trace_iff_of_step SysProcessor.Uninited
      (fun _ op h => SysProcessor.follows_step_iff h op)
      (fun _ op h _ => SysProcessor.uninited_step h op) sysOps (fun _ => rfl)

/-- The main thread does not run its routine after `Start`, `Stop` and `Resume`. -/
theorem not_lifecycleFollows :
    ¬∀ (html : Bool) (botOps sysOps : List LifeOp), LifecycleFollows html botOps sysOps := by
  intro h
  have hfollows := (h true [.start, .stop, .resume] []).1 ⟨_, .resume, _, _⟩
    (List.mem_of_getLast? rfl)
  have hruns : BotItfImpl.RunsRoutine _ := hfollows.2 (by decide)
  exact absurd hruns.2.2 (by decide)

end Mastiff.Brain

import Mastiff.Lib.Machine
import Mathlib.Data.Finset.Card

/-!
# The websocket server

The event handlers of `WbsktServer` (`cambrian/visualize/websocket/wbskt_server.h`) queue an
action each, on the thread that `server_.run()` occupies ; `process_messages` takes the
actions off the queue on a thread of its own, and `Stop` ends both. A run is any
interleaving of their steps. `process_messages` waits at most once for an action, hands a
message over once for each connection, and is told to stop without the mutex.

`handedOnce_iff` : every message is handed over exactly once, as long as `running_` is true,
exactly when each is processed with one connection open and no wake-up finds the queue empty.
`safe_iff` : no empty queue is read and no stop signal missed exactly when no wake-up finds
the queue empty while `running_` is true and no wait begins after `Stop` has notified.
-/

namespace Mastiff.Web

open Machine

/-! ## Actions -/

/-- The opcodes of a message that `process_messages` tells apart. -/
inductive Opcode
  | text
  | binary
  | other
  deriving DecidableEq

/-- A `server::message_ptr`. -/
structure Message (π : Type) where
  opcode : Opcode
  payload : π
  deriving DecidableEq

/-- An `action` of an `action_type`. -/
inductive Action (κ π : Type)
  | subscribe (hdl : κ)
  | unsubscribe (hdl : κ)
  | message (hdl : κ) (msg : Message π)
  deriving DecidableEq

/-- A call by which the server hands over a payload. -/
inductive WebCall (π : Type)
  | onRecvTextWebMsg (payload : π)
  | onRecvBinaryWebMsg (payload : π)
  deriving DecidableEq

variable {κ π : Type}

/-- What the body of the loop over the connections calls. -/
def Message.calls (msg : Message π) : List (WebCall π) :=
  match msg.opcode with
  | .text => [.onRecvTextWebMsg msg.payload]
  | .binary => [.onRecvBinaryWebMsg msg.payload]
  | .other => []

/-- The calls that hand over the message of an action once. -/
def Action.calls : Action κ π → List (WebCall π)
  | .message _ msg => msg.calls
  | _ => []

/-! ## States -/

/-- The next step of an event handler, if one runs. -/
inductive HandlerStep (κ π : Type)
  | idle
  | lock (a : Action κ π)
  | push (a : Action κ π)
  | unlock
  | notify
  deriving DecidableEq

/-- The next step of `process_messages`. `waiting` is left by a wake-up alone, `wake` locks
the mutex again, and `ended` is past the end of the function. -/
inductive ProcStep (κ π : Type)
  | testRunning
  | lock
  | testEmpty
  | wait
  | waiting
  | wake
  | testStopped
  | front
  | pop (a : Action κ π)
  | unlock (a : Action κ π)
  | act (a : Action κ π)
  | exit
  | ended
  deriving DecidableEq

/-- The next step of `Stop` : it stops the `server_`, joins the thread of the handlers, stores
`running_` and notifies. -/
inductive StopStep
  | stopCore
  | join
  | store
  | notify
  | ended
  deriving DecidableEq

/-- The threads that lock `act_lck_`. -/
inductive Owner
  | handler
  | proc
  deriving DecidableEq

/-- The members of `WbsktServer` that the threads share, from `Start` on, and where each
thread is. What the clients did and what was handed over is kept for the statements alone. -/
structure WbsktServer (κ π : Type) where
  actions : List (Action κ π) := []
  conns : Finset κ := ∅
  actLck : Option Owner := none
  running : Bool := true
  handler : HandlerStep κ π := .idle
  proc : ProcStep κ π := .testRunning
  stop : StopStep := .stopCore
  received : List (Action κ π) := []
  handed : List (WebCall π) := []
  deriving DecidableEq

/-- An atomic step : a client's event arrives, a thread goes on, or the wait is left by a
spurious wake-up. -/
inductive WebTurn (κ π : Type)
  | event (a : Action κ π)
  | handler
  | proc
  | spurious
  | stop
  deriving DecidableEq

namespace WbsktServer

/-- `act_cond_.notify_one()`. -/
def notifyOne (s : WbsktServer κ π) : WbsktServer κ π :=
  match s.proc with
  | .waiting => { s with proc := .wake }
  | _ => s

/-- `on_open`, `on_close` or `on_message` is called. A call waits for the one before it, and
there is none once the `server_` is stopped. -/
def event (s : WbsktServer κ π) (a : Action κ π) : WbsktServer κ π :=
  match s.handler, s.stop with
  | .idle, .stopCore => { s with handler := .lock a, received := s.received ++ [a] }
  | _, _ => s

/-- A step of the handler. -/
def handlerStep (s : WbsktServer κ π) : WbsktServer κ π :=
  match s.handler with
  | .idle => s
  | .lock a =>
    if s.actLck = none then { s with actLck := some .handler, handler := .push a } else s
  | .push a => { s with actions := s.actions ++ [a], handler := .unlock }
  | .unlock => { s with actLck := none, handler := .notify }
  | .notify => { s.notifyOne with handler := .idle }

/-- The branches of `process_messages` on the type of an action. -/
def act [DecidableEq κ] (s : WbsktServer κ π) : Action κ π → WbsktServer κ π
  | .subscribe hdl => { s with conns := insert hdl s.conns }
  | .unsubscribe hdl => { s with conns := s.conns.erase hdl }
  | .message _ msg =>
    { s with handed := s.handed ++ (List.replicate s.conns.card msg.calls).flatten }

/-- A step of `process_messages`. The state does not tell what `front` of an empty queue
leaves. -/
def processMessages [DecidableEq κ] (s : WbsktServer κ π) : WbsktServer κ π :=
  match s.proc with
  | .testRunning => { s with proc := if s.running then .lock else .exit }
  | .lock => if s.actLck = none then { s with actLck := some .proc, proc := .testEmpty } else s
  | .testEmpty => { s with proc := if s.actions = [] then .wait else .front }
  | .wait => { s with actLck := none, proc := .waiting }
  | .waiting => s
  | .wake => if s.actLck = none then { s with actLck := some .proc, proc := .testStopped } else s
  | .testStopped =>
    if s.running then { s with proc := .front } else { s with actLck := none, proc := .exit }
  | .front =>
    match s.actions with
    | [] => s
    | a :: _ => { s with proc := .pop a }
  | .pop a => { s with actions := s.actions.tail, proc := .unlock a }
  | .unlock a => { s with actLck := none, proc := .act a }
  | .act a => { s.act a with proc := .testRunning }
  | .exit => { s with actions := [], proc := .ended }
  | .ended => s

/-- The wait is left without a notify. -/
def spurious (s : WbsktServer κ π) : WbsktServer κ π :=
  s.notifyOne

/-- A step of `Stop`. -/
def stopStep (s : WbsktServer κ π) : WbsktServer κ π :=
  match s.stop with
  | .stopCore => { s with stop := .join }
  | .join =>
    match s.handler with
    | .idle => { s with stop := .store }
    | _ => s
  | .store => { s with running := false, stop := .notify }
  | .notify => { s.notifyOne with stop := .ended }
  | .ended => s

/-- One step. -/
def step [DecidableEq κ] (s : WbsktServer κ π) : WebTurn κ π → WbsktServer κ π × Unit
  | .event a => (s.event a, ())
  | .handler => (s.handlerStep, ())
  | .proc => (s.processMessages, ())
  | .spurious => (s.spurious, ())
  | .stop => (s.stopStep, ())

/-! ## Messages handed over once, stops not missed -/

/-- The thread is about to execute `front` or `pop`. -/
def Takes (s : WbsktServer κ π) : Prop :=
  match s.proc with
  | .front | .pop _ => True
  | _ => False

/-- A handler is yet to notify what it has pushed. -/
def Notifies (s : WbsktServer κ π) : Prop :=
  match s.handler with
  | .unlock | .notify => True
  | _ => False

/-- The action taken off the queue and not acted on yet. -/
def taken (s : WbsktServer κ π) : List (Action κ π) :=
  match s.proc with
  | .unlock a | .act a => [a]
  | _ => []

/-- The action a handler is yet to push. -/
def inHand (s : WbsktServer κ π) : List (Action κ π) :=
  match s.handler with
  | .lock a | .push a => [a]
  | _ => []

/-- The actions received that `process_messages` has not acted on, in the order of arrival. -/
def pending (s : WbsktServer κ π) : List (Action κ π) :=
  s.taken ++ s.actions ++ s.inHand

/-- While `running_` is true, the messages handed over and those pending are the messages
received, one for one and in the order of arrival, and none is left behind : what is taken is
in the queue, and the thread does not wait with an action in the queue and no notify to
come. -/
structure HandedOnce (s : WbsktServer κ π) : Prop where
  once : s.running = true →
    s.handed ++ s.pending.flatMap Action.calls = s.received.flatMap Action.calls
  takes : s.running = true → s.Takes → s.actions ≠ []
  kept : s.running = true → s.proc = .waiting → s.actions ≠ [] → s.Notifies

/-- `running_` is false, `Stop` has notified, and the thread waits with no notify to come. -/
def Stuck (s : WbsktServer κ π) : Prop :=
  s.running = false ∧ s.stop = .ended ∧ s.handler = .idle ∧ s.proc = .waiting

/-- `front` and `pop` are executed on a nonempty queue alone, and the signal of `Stop` is not
missed. -/
structure Safe (s : WbsktServer κ π) : Prop where
  takes : s.Takes → s.actions ≠ []
  stop : ¬s.Stuck

/-- While `running_` is true, a message is processed with one connection open, and the thread
goes on after a wake-up with an action in the queue. -/
structure OneConn (s : WbsktServer κ π) (t : WebTurn κ π) : Prop where
  act : t = .proc → s.running = true → ∀ a, s.proc = .act a → a.calls ≠ [] → s.conns.card = 1
  wake : t = .proc → s.running = true → s.proc = .testStopped → s.actions ≠ []

/-- The thread goes on after a wake-up, `running_` being true, with an action in the queue, and
does not begin to wait after `Stop` has notified. -/
structure InTime (s : WbsktServer κ π) (t : WebTurn κ π) : Prop where
  wake : t = .proc → s.running = true → s.proc = .testStopped → s.actions ≠ []
  wait : t = .proc → s.proc = .wait → s.stop ≠ .ended

/-! ## Where the mutex and the actions are -/

/-- The handler holds the mutex. -/
@[simp] def HandlerLocks (s : WbsktServer κ π) : Prop :=
  match s.handler with
  | .push _ | .unlock => True
  | _ => False

/-- `process_messages` holds the mutex. -/
@[simp] def ProcLocks (s : WbsktServer κ π) : Prop :=
  match s.proc with
  | .testEmpty | .wait | .testStopped | .front | .pop _ | .unlock _ => True
  | _ => False

/-- What `process_messages` knows where it is : the queue is empty where a wait begins, a thread
that waits with an action in the queue is notified, the action that is popped is in front, and
the thread ends when `running_` is false. -/
@[simp] def ProcKnows (s : WbsktServer κ π) : Prop :=
  match s.proc with
  | .wait => s.actions = []
  | .waiting => s.actions ≠ [] → s.Notifies
  | .pop a => s.actions.head? = some a
  | .exit => s.running = false
  | _ => True

/-- The mutex is held by who has locked it, and `running_` is stored after the last handler has
ended. -/
structure Ordered (s : WbsktServer κ π) : Prop where
  handler : s.actLck = some .handler ↔ s.HandlerLocks
  proc : s.actLck = some .proc ↔ s.ProcLocks
  knows : s.ProcKnows
  stop : s.running = false ↔ s.stop = .notify ∨ s.stop = .ended
  core : s.stop = .store ∨ s.stop = .notify ∨ s.stop = .ended → s.handler = .idle

variable {s : WbsktServer κ π}

/-- A notify wakes a thread that waits, and changes nothing else. -/
theorem notifyOne_cases (s : WbsktServer κ π) :
    s.proc = .waiting ∧ s.notifyOne = { s with proc := .wake } ∨
      s.proc ≠ .waiting ∧ s.notifyOne = s := by
  rw [notifyOne]
  split
  · exact .inl ⟨‹_›, rfl⟩
  · exact .inr ⟨‹_›, rfl⟩

theorem Ordered.notifyOne (h : Ordered s) : Ordered s.notifyOne := by
  obtain ⟨hwaiting, heq⟩ | ⟨-, heq⟩ := s.notifyOne_cases
  · have hproc := h.proc
    simp only [ProcLocks, hwaiting] at hproc
    rw [heq]
    exact ⟨h.handler, hproc, trivial, h.stop, h.core⟩
  · rwa [heq]

theorem Ordered.event (h : Ordered s) (a : Action κ π) : Ordered (s.event a) := by
  rw [WbsktServer.event]
  split
  · next hidle hcore =>
    have hhandler := h.handler
    have hknows := h.knows
    simp only [HandlerLocks, ProcKnows, Notifies, hidle] at hhandler hknows
    exact ⟨hhandler, h.proc, hknows, h.stop, by simp [hcore]⟩
  · exact h

theorem Ordered.handlerStep (h : Ordered s) : Ordered s.handlerStep := by
  have hhandler := h.handler
  have hproc := h.proc
  have hknows := h.knows
  have hcore := h.core
  rw [WbsktServer.handlerStep]
  cases hh : s.handler with
  | idle => exact h
  | lock a =>
    dsimp only
    split_ifs with hfree
    · rw [hfree] at hproc
      simp only [ProcKnows, Notifies, hh] at hknows
      exact ⟨by simp, by simpa using hproc, hknows, h.stop, by simpa [hh] using hcore⟩
    · exact h
  | push a =>
    simp only [HandlerLocks, hh, iff_true] at hhandler
    rw [hhandler] at hproc
    refine ⟨by simpa using hhandler, by simpa [hhandler] using hproc, ?_, h.stop,
      by simpa [hh] using hcore⟩
    -- the handler holds the mutex, so the thread is neither at `wait` nor at `pop`
    cases hp : s.proc with
    | wait => simp [hp] at hproc
    | pop b => simp [hp] at hproc
    | waiting => exact fun _ => trivial
    | exit => simpa [hp] using hknows
    | _ => trivial
  | unlock =>
    simp only [HandlerLocks, hh, iff_true] at hhandler
    rw [hhandler] at hproc
    simp only [ProcKnows, Notifies, hh] at hknows
    exact ⟨by simp, by simpa using hproc, hknows, h.stop, by simpa [hh] using hcore⟩
  | notify =>
    have hn := h.notifyOne
    simp only [HandlerLocks, hh] at hhandler
    obtain ⟨hwaiting, heq⟩ | ⟨hwaiting, heq⟩ := s.notifyOne_cases
    · rw [heq] at hn
      simp only [heq]
      exact ⟨hhandler, hn.proc, trivial, h.stop, fun _ => rfl⟩
    · simp only [heq]
      refine ⟨hhandler, h.proc, ?_, h.stop, fun _ => rfl⟩
      cases hp : s.proc with
      | waiting => exact absurd hp hwaiting
      | _ =>
        rw [ProcKnows, hp] at hknows
        exact hknows

theorem Ordered.stopStep (h : Ordered s) : Ordered s.stopStep := by
  have hstop := h.stop
  have hcore := h.core
  rw [WbsktServer.stopStep]
  cases hs : s.stop with
  | stopCore =>
    rw [hs] at hstop
    exact ⟨h.handler, h.proc, h.knows, by simpa using hstop, by simp⟩
  | join =>
    rw [hs] at hstop
    dsimp only
    split
    · next hidle => exact ⟨h.handler, h.proc, h.knows, by simpa using hstop, fun _ => hidle⟩
    · exact h
  | store =>
    refine ⟨h.handler, h.proc, ?_, by simp, fun _ => hcore (.inl hs)⟩
    have hknows := h.knows
    cases hp : s.proc with
    | exit => rfl
    | _ =>
      rw [ProcKnows, hp] at hknows
      exact hknows
  | notify =>
    have hn := h.notifyOne
    have hrun : s.notifyOne.running = false := by
      rw [hn.stop]
      obtain ⟨-, heq⟩ | ⟨-, heq⟩ := s.notifyOne_cases <;> simp [heq, hs]
    have hidle : s.notifyOne.handler = .idle := by
      apply hn.core
      obtain ⟨-, heq⟩ | ⟨-, heq⟩ := s.notifyOne_cases <;> simp [heq, hs]
    exact ⟨hn.handler, hn.proc, hn.knows, by simpa using hrun, fun _ => hidle⟩
  | ended => exact h

theorem Ordered.processMessages [DecidableEq κ] (h : Ordered s) : Ordered s.processMessages := by
  have hhandler := h.handler
  have hproc := h.proc
  rw [WbsktServer.processMessages]
  cases hp : s.proc with
  | testRunning =>
    simp only [ProcLocks, hp] at hproc
    dsimp only
    split_ifs with hrun
    · exact ⟨h.handler, hproc, trivial, h.stop, h.core⟩
    · exact ⟨h.handler, hproc, by simpa using hrun, h.stop, h.core⟩
  | lock =>
    dsimp only
    split_ifs with hfree
    · rw [hfree] at hhandler
      exact ⟨by simpa using hhandler, by simp, trivial, h.stop, h.core⟩
    · exact h
  | testEmpty =>
    simp only [ProcLocks, hp] at hproc
    dsimp only
    split_ifs with hempty
    · exact ⟨h.handler, hproc, hempty, h.stop, h.core⟩
    · exact ⟨h.handler, hproc, trivial, h.stop, h.core⟩
  | wait =>
    have hempty := h.knows
    simp only [ProcLocks, ProcKnows, hp, iff_true] at hproc hempty
    rw [hproc] at hhandler
    exact ⟨by simpa using hhandler, by simp, fun hne => absurd hempty hne, h.stop, h.core⟩
  | waiting => exact h
  | wake =>
    dsimp only
    split_ifs with hfree
    · rw [hfree] at hhandler
      exact ⟨by simpa using hhandler, by simp, trivial, h.stop, h.core⟩
    · exact h
  | testStopped =>
    simp only [ProcLocks, hp, iff_true] at hproc
    dsimp only
    split_ifs with hrun
    · exact ⟨h.handler, by simpa using hproc, trivial, h.stop, h.core⟩
    · rw [hproc] at hhandler
      exact ⟨by simpa using hhandler, by simp, by simpa using hrun, h.stop, h.core⟩
  | front =>
    simp only [ProcLocks, hp, iff_true] at hproc
    cases ha : s.actions with
    | nil => simpa only [ha] using h
    | cons a as => exact ⟨h.handler, by simpa using hproc, by simp, h.stop, h.core⟩
  | pop a =>
    simp only [ProcLocks, hp, iff_true] at hproc
    exact ⟨h.handler, by simpa using hproc, trivial, h.stop, h.core⟩
  | unlock a =>
    simp only [ProcLocks, hp, iff_true] at hproc
    rw [hproc] at hhandler
    exact ⟨by simpa using hhandler, by simp, trivial, h.stop, h.core⟩
  | act a =>
    simp only [ProcLocks, hp] at hproc
    cases a
    all_goals exact ⟨h.handler, hproc, trivial, h.stop, h.core⟩
  | exit =>
    simp only [ProcLocks, hp] at hproc
    exact ⟨h.handler, hproc, trivial, h.stop, h.core⟩
  | ended => exact h

theorem ordered_step [DecidableEq κ] (s : WbsktServer κ π) (t : WebTurn κ π) (h : Ordered s) :
    Ordered (s.step t).1 := by
  cases t with
  | event a => exact h.event a
  | handler => exact h.handlerStep
  | proc => exact h.processMessages
  | spurious => exact h.notifyOne
  | stop => exact h.stopStep

/-! ## Runs -/

theorem notifyOne_proc_ne (s : WbsktServer κ π) : s.notifyOne.proc ≠ .waiting := by
  obtain ⟨-, heq⟩ | ⟨hne, heq⟩ := s.notifyOne_cases
  · simp [heq]
  · rwa [heq]

/-- A notify leaves the queue, and who takes from it. -/
theorem notifyOne_takes (htakes : s.Takes → s.actions ≠ []) :
    s.notifyOne.Takes → s.notifyOne.actions ≠ [] := by
  obtain ⟨-, heq⟩ | ⟨-, heq⟩ := s.notifyOne_cases
  · rw [heq]
    exact False.elim
  · rwa [heq]

/-- A handler only adds to the queue. -/
theorem handlerStep_takes (htakes : s.Takes → s.actions ≠ []) :
    s.handlerStep.Takes → s.handlerStep.actions ≠ [] := by
  rw [handlerStep]
  split
  · exact htakes
  · split_ifs <;> exact htakes
  · simp
  · exact htakes
  · exact notifyOne_takes htakes

theorem stopStep_takes (htakes : s.Takes → s.actions ≠ []) :
    s.stopStep.Takes → s.stopStep.actions ≠ [] := by
  rw [stopStep]
  split
  · exact htakes
  · split <;> exact htakes
  · exact htakes
  · exact notifyOne_takes htakes
  · exact htakes

theorem event_takes (htakes : s.Takes → s.actions ≠ []) (a : Action κ π) :
    (s.event a).Takes → (s.event a).actions ≠ [] := by
  rw [event]
  split <;> exact htakes

/-- `process_messages` goes on to take an action from a nonempty queue, unless a wake-up has
found it empty. -/
theorem Ordered.processMessages_takes_iff [DecidableEq κ] (h : Ordered s)
    (htakes : s.Takes → s.actions ≠ []) :
    (s.processMessages.Takes → s.processMessages.actions ≠ []) ↔
      (s.running = true → s.proc = .testStopped → s.actions ≠ []) := by
  have hknows := h.knows
  rw [WbsktServer.processMessages]
  cases hp : s.proc with
  | testStopped =>
    dsimp only
    split_ifs with hrun
    · simp [hrun, Takes]
    · simp [hrun, Takes]
  | testRunning =>
    dsimp only
    split_ifs <;> simp [Takes]
  | lock =>
    dsimp only
    split_ifs <;> simp [Takes, hp]
  | testEmpty =>
    dsimp only
    split_ifs with hempty <;> simp [Takes, hempty]
  | wake =>
    dsimp only
    split_ifs <;> simp [Takes, hp]
  | front =>
    have hne := htakes (by simp [Takes, hp])
    cases ha : s.actions with
    | nil => exact absurd ha hne
    | cons a as => simp
  | pop a => simp [Takes]
  | act a => simp [Takes]
  | _ => simp [Takes, hp]

/-- Only `process_messages` can miss the signal of `Stop`. -/
theorem not_stuck_step [DecidableEq κ] (hstuck : ¬s.Stuck)
    {t : WebTurn κ π} (ht : t ≠ .proc) : ¬(s.step t).1.Stuck := by
  cases t with
  | event a =>
    change ¬(s.event a).Stuck
    rw [WbsktServer.event]
    split
    · rintro ⟨-, -, hidle, -⟩
      cases hidle
    · exact hstuck
  | handler =>
    change ¬s.handlerStep.Stuck
    rw [WbsktServer.handlerStep]
    split
    · exact hstuck
    · split_ifs
      · rintro ⟨-, -, hidle, -⟩
        cases hidle
      · exact hstuck
    · rintro ⟨-, -, hidle, -⟩
      cases hidle
    · rintro ⟨-, -, hidle, -⟩
      cases hidle
    · rintro ⟨-, -, -, hwaiting⟩
      exact s.notifyOne_proc_ne hwaiting
  | proc => exact absurd rfl ht
  | spurious => exact fun hs => s.notifyOne_proc_ne hs.2.2.2
  | stop =>
    change ¬s.stopStep.Stuck
    rw [WbsktServer.stopStep]
    split
    · rintro ⟨-, hended, -⟩
      cases hended
    · split
      · rintro ⟨-, hended, -⟩
        cases hended
      · exact hstuck
    · rintro ⟨-, hended, -⟩
      cases hended
    · exact fun hs => s.notifyOne_proc_ne hs.2.2.2
    · exact hstuck

/-- `process_messages` begins to wait at `wait` alone. -/
theorem processMessages_eq_of_waiting [DecidableEq κ] (hne : s.proc ≠ .wait)
    (hwaiting : s.processMessages.proc = .waiting) : s.processMessages = s := by
  rw [processMessages] at hwaiting ⊢
  cases hp : s.proc with
  | wait => exact absurd hp hne
  | waiting => rfl
  | ended => rfl
  | testRunning | testEmpty | testStopped =>
    rw [hp] at hwaiting
    dsimp only at hwaiting
    split_ifs at hwaiting
  | lock | wake =>
    rw [hp] at hwaiting
    dsimp only at hwaiting ⊢
    split_ifs at hwaiting ⊢
    rfl
  | front =>
    rw [hp] at hwaiting
    cases ha : s.actions with
    | nil => rfl
    | cons a as =>
      rw [ha] at hwaiting
      cases hwaiting
  | _ =>
    rw [hp] at hwaiting
    cases hwaiting

/-- `process_messages` misses the signal exactly by a wait that begins after it. -/
theorem Ordered.not_stuck_processMessages_iff [DecidableEq κ] (h : Ordered s)
    (hstuck : ¬s.Stuck) : ¬s.processMessages.Stuck ↔ (s.proc = .wait → s.stop ≠ .ended) := by
  cases hp : s.proc with
  | wait =>
    have hstep : s.processMessages = { s with actLck := none, proc := .waiting } := by
      rw [WbsktServer.processMessages, hp]
    rw [hstep]
    constructor
    · intro hno _ hended
      exact hno ⟨h.stop.2 (.inr hended), hended, h.core (.inr (.inr hended)), rfl⟩
    · rintro hne ⟨-, hended, -⟩
      exact hne rfl hended
  | _ =>
    refine iff_of_true (fun hs => ?_) (fun hwait => by cases hwait)
    have heq := processMessages_eq_of_waiting (by simp [hp]) hs.2.2.2
    exact hstuck (heq ▸ hs)

/-- A step is safe exactly if it is in time. -/
theorem Ordered.safe_step_iff [DecidableEq κ] (h : Ordered s) (hs : s.Safe) (t : WebTurn κ π) :
    (s.step t).1.Safe ↔ s.InTime t := by
  by_cases ht : t = .proc
  · subst ht
    have htakes := h.processMessages_takes_iff hs.takes
    have hstop := h.not_stuck_processMessages_iff hs.stop
    exact ⟨fun hsafe => ⟨fun _ => htakes.1 hsafe.takes, fun _ => hstop.1 hsafe.stop⟩,
      fun htime => ⟨htakes.2 (htime.wake rfl), hstop.2 (htime.wait rfl)⟩⟩
  · refine iff_of_true ⟨?_, not_stuck_step hs.stop ht⟩
      ⟨fun heq => absurd heq ht, fun heq => absurd heq ht⟩
    cases t with
    | event a => exact event_takes hs.takes a
    | handler => exact handlerStep_takes hs.takes
    | proc => exact absurd rfl ht
    | spurious => exact notifyOne_takes hs.takes
    | stop => exact stopStep_takes hs.takes

/-- The messages handed over and those pending are the messages received. -/
def Balanced (s : WbsktServer κ π) : Prop :=
  s.handed ++ s.pending.flatMap Action.calls = s.received.flatMap Action.calls

theorem Balanced.notifyOne (hb : s.Balanced) : s.notifyOne.Balanced := by
  obtain ⟨hwaiting, heq⟩ | ⟨-, heq⟩ := s.notifyOne_cases
  · rw [Balanced, pending, taken, hwaiting] at hb
    rwa [heq]
  · rwa [heq]

theorem Balanced.event (hb : s.Balanced) (a : Action κ π) : (s.event a).Balanced := by
  rw [WbsktServer.event]
  split
  · next hidle _ =>
    simp only [Balanced, pending, inHand, hidle, List.append_nil] at hb
    simp only [Balanced, pending, inHand, taken, List.flatMap_append, ← hb]
    simp
  · exact hb

theorem Balanced.handlerStep (hb : s.Balanced) : s.handlerStep.Balanced := by
  rw [WbsktServer.handlerStep]
  cases hh : s.handler with
  | idle => exact hb
  | lock a =>
    dsimp only
    split_ifs
    · rwa [Balanced, pending, inHand, hh] at hb
    · exact hb
  | push a =>
    rw [Balanced, pending, inHand, hh] at hb
    simpa [Balanced, pending, inHand, taken] using hb
  | unlock => rwa [Balanced, pending, inHand, hh] at hb
  | notify =>
    have hn := hb.notifyOne
    have hidle : s.notifyOne.inHand = [] := by
      obtain ⟨-, heq⟩ | ⟨-, heq⟩ := s.notifyOne_cases <;> simp [heq, inHand, hh]
    rwa [Balanced, pending, hidle] at hn

theorem Balanced.stopStep (hb : s.Balanced) : s.stopStep.Balanced := by
  rw [WbsktServer.stopStep]
  split
  · exact hb
  · split <;> exact hb
  · exact hb
  · exact hb.notifyOne
  · exact hb

/-- A list of lists is as long as one of them exactly if it is one, or they are empty. -/
theorem flatten_replicate_eq_iff {α : Type} {n : ℕ} {l : List α} :
    (List.replicate n l).flatten = l ↔ (l ≠ [] → n = 1) := by
  constructor
  · intro heq hne
    have hlen := congrArg List.length heq
    have hpos := List.length_pos_iff.2 hne
    simp only [List.length_flatten, List.map_replicate, List.sum_replicate_nat] at hlen
    exact Nat.eq_of_mul_eq_mul_right hpos (by omega)
  · intro hone
    cases l with
    | nil => simp
    | cons x xs => simp [hone]

/-- Until it acts, `process_messages` leaves what is pending. -/
theorem Ordered.pending_processMessages [DecidableEq κ] (h : Ordered s) (hrun : s.running = true)
    (hact : ∀ a, s.proc ≠ .act a) :
    s.processMessages.pending = s.pending ∧ s.processMessages.handed = s.handed ∧
      s.processMessages.received = s.received := by
  have hknows := h.knows
  rw [WbsktServer.processMessages, pending, pending, taken, taken]
  cases hp : s.proc with
  | act a => exact absurd hp (hact a)
  | pop a =>
    simp only [ProcKnows, hp] at hknows
    obtain ⟨as, has⟩ := List.head?_eq_some_iff.1 hknows
    refine ⟨?_, rfl, rfl⟩
    change [a] ++ s.actions.tail ++ s.inHand = [] ++ s.actions ++ s.inHand
    rw [has]
    rfl
  | exit => simp [hp, hrun] at hknows
  | front =>
    cases ha : s.actions with
    | nil => simp [hp, ha]
    | cons a as => exact ⟨by simp [inHand], rfl, rfl⟩
  | testRunning | testEmpty | testStopped =>
    dsimp only
    split_ifs <;> exact ⟨rfl, rfl, rfl⟩
  | lock | wake =>
    dsimp only
    split_ifs
    · exact ⟨rfl, rfl, rfl⟩
    · exact ⟨by rw [hp], rfl, rfl⟩
  | waiting | ended => exact ⟨by dsimp only; rw [hp], rfl, rfl⟩
  | _ => exact ⟨rfl, rfl, rfl⟩

/-- `process_messages` hands over the message it acts on once for each connection. -/
theorem balanced_act_iff [DecidableEq κ] {a : Action κ π} (hp : s.proc = .act a)
    (hb : s.Balanced) :
    s.processMessages.Balanced ↔ (a.calls ≠ [] → s.conns.card = 1) := by
  have hstep : s.processMessages = { s.act a with proc := .testRunning } := by
    rw [processMessages, hp]
  simp only [Balanced, pending, taken, hp, List.flatMap_append, List.flatMap_singleton] at hb
  rw [hstep]
  cases a with
  | message hdl msg =>
    rw [← flatten_replicate_eq_iff]
    simp only [act, Balanced, pending, taken, List.nil_append, List.flatMap_append, ← hb,
      List.append_assoc, List.append_cancel_left_eq]
    exact ⟨fun heq => List.append_cancel_right heq, fun heq => congrArg (· ++ _) heq⟩
  | _ =>
    refine iff_of_true ?_ (fun hne => absurd rfl hne)
    change s.handed ++ (s.actions ++ s.inHand).flatMap Action.calls =
      s.received.flatMap Action.calls
    simpa [Action.calls] using hb

/-- `process_messages` hands over what is pending exactly once if it does so with one
connection open. -/
theorem Ordered.processMessages_balanced_iff [DecidableEq κ] (h : Ordered s)
    (hrun : s.running = true) (hb : s.Balanced) :
    s.processMessages.Balanced ↔
      ∀ a, s.proc = .act a → a.calls ≠ [] → s.conns.card = 1 := by
  by_cases hact : ∃ a, s.proc = .act a
  · obtain ⟨a, hp⟩ := hact
    rw [balanced_act_iff hp hb]
    constructor
    · intro hcard b hb
      cases hp.symm.trans hb
      exact hcard
    · exact fun hcard => hcard a hp
  · push Not at hact
    obtain ⟨hpending, hhanded, hreceived⟩ := h.pending_processMessages hrun hact
    refine iff_of_true ?_ (fun a hp => absurd hp (hact a))
    rwa [Balanced, hpending, hhanded, hreceived]

theorem notifyOne_running (s : WbsktServer κ π) : s.notifyOne.running = s.running := by
  obtain ⟨-, heq⟩ | ⟨-, heq⟩ := s.notifyOne_cases <;> rw [heq]

theorem processMessages_running [DecidableEq κ] (s : WbsktServer κ π) :
    s.processMessages.running = s.running := by
  rw [processMessages]
  split
  case h_11 a _ => cases a <;> rfl
  all_goals try split_ifs
  all_goals try rfl
  split <;> rfl

/-- `running_` is not set again. -/
theorem running_of_running_step [DecidableEq κ] {t : WebTurn κ π}
    (hrun : (s.step t).1.running = true) : s.running = true := by
  cases t with
  | event a =>
    change (s.event a).running = true at hrun
    rw [event] at hrun
    split at hrun <;> exact hrun
  | handler =>
    change s.handlerStep.running = true at hrun
    rw [handlerStep] at hrun
    split at hrun
    case h_5 => rwa [← s.notifyOne_running]
    case h_2 => split_ifs at hrun <;> exact hrun
    all_goals exact hrun
  | proc => rwa [← s.processMessages_running]
  | spurious => rwa [← s.notifyOne_running]
  | stop =>
    change s.stopStep.running = true at hrun
    rw [stopStep] at hrun
    split at hrun
    case h_2 => split at hrun <;> exact hrun
    case h_3 => cases hrun
    case h_4 => rwa [← s.notifyOne_running]
    all_goals exact hrun

theorem Ordered.kept (h : Ordered s) (hwaiting : s.proc = .waiting) (hne : s.actions ≠ []) :
    s.Notifies := by
  have hknows := h.knows
  simp only [ProcKnows, hwaiting] at hknows
  exact hknows hne

/-- A step leaves every message handed over once exactly if it processes it with one
connection open. -/
theorem Ordered.handedOnce_step_iff [DecidableEq κ] (h : Ordered s) (hs : s.HandedOnce)
    (t : WebTurn κ π) : (s.step t).1.HandedOnce ↔ s.OneConn t := by
  have hkept := (ordered_step s t h).kept
  by_cases hrun : s.running = true
  · have hb : s.Balanced := hs.once hrun
    have htakes := hs.takes hrun
    by_cases ht : t = .proc
    · subst ht
      have honce := h.processMessages_balanced_iff hrun hb
      have hwake := h.processMessages_takes_iff htakes
      have hrun' := s.processMessages_running.trans hrun
      exact ⟨fun ho => ⟨fun _ _ => honce.1 (ho.once hrun'), fun _ => hwake.1 (ho.takes hrun')⟩,
        fun hone => ⟨fun _ => honce.2 (hone.act rfl hrun), fun _ => hwake.2 (hone.wake rfl),
          fun _ => hkept⟩⟩
    · refine iff_of_true ?_ ⟨fun heq => absurd heq ht, fun heq => absurd heq ht⟩
      cases t with
      | event a => exact ⟨fun _ => hb.event a, fun _ => event_takes htakes a, fun _ => hkept⟩
      | handler =>
        exact ⟨fun _ => hb.handlerStep, fun _ => handlerStep_takes htakes, fun _ => hkept⟩
      | proc => exact absurd rfl ht
      | spurious => exact ⟨fun _ => hb.notifyOne, fun _ => notifyOne_takes htakes, fun _ => hkept⟩
      | stop => exact ⟨fun _ => hb.stopStep, fun _ => stopStep_takes htakes, fun _ => hkept⟩
  · have hstop : ∀ {p : Prop}, (s.step t).1.running = true → p :=
      fun hrun' => absurd (running_of_running_step hrun') hrun
    exact iff_of_true ⟨hstop, hstop, hstop⟩
      ⟨fun _ hrun' => absurd hrun' hrun, fun _ hrun' => absurd hrun' hrun⟩

theorem ordered_start (conns : Finset κ) : Ordered ({ conns := conns } : WbsktServer κ π) :=
  ⟨by simp, by simp, trivial, by simp, by simp⟩

/-- For every sequence of events from any number of clients and every interleaving of the
threads, every message is handed over exactly once in every state in which `running_` is
true exactly when, while it is true, each is processed with one connection open and every
wake-up finds an action. -/
theorem handedOnce_iff [DecidableEq κ] (conns : Finset κ) (ts : List (WebTurn κ π)) :
    (∀ t ∈ trace step { conns := conns } ts, t.after.HandedOnce) ↔
      ∀ t ∈ trace step { conns := conns } ts, t.before.OneConn t.input :=
  forall_trace_iff Ordered ordered_step (fun _ t h hs => h.handedOnce_step_iff hs t) ts
    (ordered_start conns) ⟨fun _ => rfl, fun _ htakes => htakes.elim, fun _ hw => by cases hw⟩

/-- Two clients are connected, and the text one of them sends is handed over twice. -/
theorem not_handedOnce :
    ¬∀ ts : List (WebTurn ℕ ℕ), ∀ t ∈ trace step {} ts, t.after.HandedOnce := by
  intro h
  have honce := h ([.subscribe 1, .subscribe 2, .message 1 ⟨.text, 0⟩].flatMap
      (fun a => .event a :: List.replicate 4 .handler) ++ List.replicate 21 .proc) ⟨_, .proc, _, _⟩
    (List.mem_of_getLast? rfl)
  exact absurd (honce.once rfl) (by decide)

/-- For every interleaving of the threads and every spurious wake-up, `front` and `pop` are
executed on a nonempty queue and the signal of `Stop` is not missed, in every state, exactly
when every wake-up finds an action while `running_` is true and no wait begins after `Stop`
has notified. -/
theorem safe_iff [DecidableEq κ] (conns : Finset κ) (ts : List (WebTurn κ π)) :
    (∀ t ∈ trace step { conns := conns } ts, t.after.Safe) ↔
      ∀ t ∈ trace step { conns := conns } ts, t.before.InTime t.input :=
  forall_trace_iff Ordered ordered_step (fun _ t h hs => h.safe_step_iff hs t) ts
    (ordered_start conns) ⟨fun htakes => htakes.elim, fun hstuck => by cases hstuck.1⟩

/-- A spurious wake-up has an empty queue read, and `Stop` notifies between the test of the
queue and the wait. -/
theorem not_safe :
    ¬(∀ ts : List (WebTurn ℕ ℕ), ∀ t ∈ trace step {} ts, t.after.Takes → t.after.actions ≠ []) ∧
      ¬∀ ts : List (WebTurn ℕ ℕ), ∀ t ∈ trace step {} ts, ¬t.after.Stuck := by
  constructor
  · intro h
    have htakes := h [.proc, .proc, .proc, .proc, .spurious, .proc, .proc] ⟨_, .proc, _, _⟩
      (List.mem_of_getLast? rfl)
    exact htakes trivial rfl
  · intro h
    have hstuck := h [.proc, .proc, .proc, .stop, .stop, .stop, .stop, .proc] ⟨_, .proc, _, _⟩
      (List.mem_of_getLast? rfl)
    exact hstuck ⟨rfl, rfl, rfl, rfl⟩

end WbsktServer

end Mastiff.Web

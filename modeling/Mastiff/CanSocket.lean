import Mastiff.DriveData

/-!
# The socket of the CAN driver

`CanData` (`chassis/drivers/can/can_data.cc`) opens and closes the bus by `can_open`,
`can_config` and `can_close` (`can_ops.c`), which keep the socket and an epoll descriptor for
the whole process. The kernel's choice of descriptors is a parameter, and every system call may
fail. What `set_write` does to the socket and the timeout of the polls are left out.

`held_iff` : over a run at most one socket and one epoll descriptor are open, none after
`Close`, and `dev_fd_` is positive exactly for the open socket, exactly when no socket is made
while another is open, a socket that is made gets its epoll descriptor, and `Close` finds
`dev_fd_` positive unless nothing is open.
-/

set_option linter.unusedSectionVars false

namespace Mastiff.Device

open Machine

/-- The kernel's choice of a new descriptor among those not in use. -/
structure DescriptorTable where
  fresh : List ℤ → ℤ
  fresh_nonneg : ∀ used, 0 ≤ fresh used
  fresh_notMem : ∀ used, fresh used ∉ used

/-- What `can_open` makes. -/
inductive CanFd
  | socket
  | epoll
  deriving DecidableEq

/-- The file-scope variables of `can_ops.c`, and what `can_open` has opened and nothing has
closed. -/
structure CanOps where
  canSocket : ℤ := -1
  fdEpoll : ℤ := -1
  opened : List (ℤ × CanFd) := []
  deriving DecidableEq

/-- Which of the calls of `can_open` and `can_config` succeed. The last four are the commands
of `can_config`. -/
structure CanCalls where
  socket : Bool
  epollCreate : Bool
  epollCtl : Bool
  linkDown : Bool
  linkType : Bool
  linkUp : Bool
  queueLen : Bool
  deriving DecidableEq

namespace CanOps

/-- The descriptors in use. -/
def fds (u : CanOps) : List ℤ :=
  u.opened.map Prod.fst

/-- `close`, which fails without effect if the descriptor is not open. -/
def close (u : CanOps) (fd : ℤ) : CanOps :=
  { u with opened := u.opened.filter fun x => x.1 ≠ fd }

/-- `can_open`, with the descriptors `others` in use elsewhere in the process. -/
def canOpen (u : CanOps) (k : DescriptorTable) (others : List ℤ) (c : CanCalls) : CanOps × ℤ :=
  if !c.socket then (u, -1)
  else
    let s := k.fresh (others ++ u.fds)
    let u := { u with canSocket := s, opened := (s, .socket) :: u.opened }
    if !c.epollCreate then ({ u with fdEpoll := -1 }, 1)
    else
      let efd := k.fresh (others ++ u.fds)
      let u := { u with fdEpoll := efd, opened := (efd, .epoll) :: u.opened }
      if !c.epollCtl then (u, 1) else (u, s)

/-- `can_config`, which does not look at what `set_write` returns. -/
def canConfig (c : CanCalls) : ℤ :=
  if !c.linkDown then -1
  else if !c.linkType then -1
  else if !c.linkUp then -1
  else if !c.queueLen then -1
  else 0

/-- `can_close`. `down` tells whether its command succeeds. -/
def canClose (u : CanOps) (s : ℤ) (down : Bool) : CanOps × ℤ :=
  let u := (u.close u.fdEpoll).close s
  if !down then (u, -1) else ({ u with fdEpoll := -1, canSocket := -1 }, 0)

end CanOps

/-- The members of `CanData`, on the variables of `can_ops.c`. -/
structure CanData where
  devFd : ℤ := -1
  drive : DriveData := {}
  ops : CanOps := {}
  deriving DecidableEq

/-- An operation, with the outcome of its system calls. -/
inductive CanOp
  | start (others : List ℤ) (calls : CanCalls)
  | stop
  | resume
  | close (down : Bool)
  deriving DecidableEq

namespace CanData

variable (k : DescriptorTable)

/-- `Start` -/
def start (s : CanData) (others : List ℤ) (c : CanCalls) : CanData × ℤ :=
  let (ops, fd) := s.ops.canOpen k others c
  let s := { s with devFd := fd, ops := ops }
  if fd < 0 then (s, -1)
  else if CanOps.canConfig c ≠ 0 then (s, -1)
  else
    let (drive, ret) := s.drive.start
    ({ s with drive := drive }, ret)

/-- `Stop` -/
def stop (s : CanData) : CanData × ℤ :=
  let (drive, ret) := s.drive.stop
  ({ s with drive := drive }, ret)

/-- `Resume` -/
def resume (s : CanData) : CanData × ℤ :=
  let (drive, ret) := s.drive.resume
  ({ s with drive := drive }, ret)

/-- `Close` -/
def close (s : CanData) (down : Bool) : CanData × ℤ :=
  let s := s.stop.1
  let s := if 0 < s.devFd then
      { s with devFd := -1, ops := (s.ops.canClose s.devFd down).1 }
    else s
  let (drive, ret) := s.drive.close
  ({ s with drive := drive }, ret)

/-- One operation, with its return value. -/
def step (s : CanData) : CanOp → CanData × ℤ
  | .start others calls => s.start k others calls
  | .stop => s.stop
  | .resume => s.resume
  | .close down => s.close down

/-! ## One socket -/

/-- How many descriptors of a kind are open. -/
def count (s : CanData) (fd : CanFd) : ℕ :=
  (s.ops.opened.filter fun x => x.2 = fd).length

/-- After an operation at most one socket and one epoll descriptor are open, none after
`Close`, and `dev_fd_` is positive exactly if it is the open socket. -/
structure Held (t : Step CanData CanOp ℤ) : Prop where
  sockets : t.after.count .socket ≤ 1
  epolls : t.after.count .epoll ≤ 1
  closed : ∀ down, t.input = .close down → t.after.ops.opened = []
  devFd : 0 < t.after.devFd ↔ (t.after.devFd, CanFd.socket) ∈ t.after.ops.opened

/-- A `Start` that makes a socket finds nothing open, and either gives it its epoll descriptor,
the socket not being 0, or fails to, the socket being 1. A `Close` finds nothing open, or
`dev_fd_` positive. -/
def InOrder (s : CanData) : CanOp → Prop
  | .start others c => c.socket = true → s.ops.opened = [] ∧
      if c.epollCreate = true ∧ c.epollCtl = true then 0 < k.fresh (others ++ s.ops.fds)
      else k.fresh (others ++ s.ops.fds) = 1
  | .stop => True
  | .resume => True
  | .close _ => s.ops.opened = [] ∨ 0 < s.devFd

/-- What `can_open` has left open : nothing, or a socket, or a socket and `fd_epoll_`. -/
def Left (u : CanOps) : Prop :=
  u.opened = [] ∨ ∃ fd, 0 ≤ fd ∧
    (u.opened = [(fd, .socket)] ∨ u.opened = [(u.fdEpoll, .epoll), (fd, .socket)])

/-- The descriptors are those of one `can_open`, and `dev_fd_` is positive exactly if it is the
open socket. -/
structure Tidy (s : CanData) : Prop where
  left : Left s.ops
  devFd : 0 < s.devFd ↔ (s.devFd, CanFd.socket) ∈ s.ops.opened

variable {k} {s : CanData}

/-! ## What is left open -/

theorem count_le_one (h : Left s.ops) (fd : CanFd) : s.count fd ≤ 1 := by
  unfold count
  rcases h with h | ⟨n, -, h | h⟩
  · simp [h]
  · cases fd <;> simp [h]
  · cases fd <;> simp [h]

theorem neg_notMem (h : Left s.ops) : ((-1 : ℤ), CanFd.socket) ∉ s.ops.opened := by
  rcases h with h | ⟨n, hn, h | h⟩
  · simp [h]
  · simp only [h, List.mem_singleton, Prod.mk.injEq]
    omega
  · simp only [h, List.mem_cons, Prod.mk.injEq, reduceCtorEq, and_false, List.not_mem_nil, or_false,
      false_or]
    omega

/-- A tidy state is as it should be, unless something is open after `Close`. -/
theorem Tidy.held_of_op_iff (h : Tidy s) (before : CanData) (op : CanOp) (ret : ℤ) :
    Held ⟨before, op, s, ret⟩ ↔ ∀ down, op = .close down → s.ops.opened = [] :=
  ⟨fun hheld => hheld.closed,
    fun hclosed => ⟨count_le_one h.left _, count_le_one h.left _, hclosed, h.devFd⟩⟩

/-- `can_close` of the socket closes all that is left. -/
theorem canClose_opened {u : CanOps} (h : Left u) {fd : ℤ} (hfd : (fd, CanFd.socket) ∈ u.opened)
    (down : Bool) : (u.canClose fd down).1.opened = [] := by
  have hclose : ((u.close u.fdEpoll).close fd).opened = [] := by
    unfold CanOps.close
    rcases h with h | ⟨n, -, h | h⟩
    · simp [h] at hfd
    · obtain rfl : fd = n := by simpa [h] using hfd
      simp [h]
    · obtain rfl : fd = n := by simpa [h] using hfd
      simp [h]
  unfold CanOps.canClose
  split_ifs <;> exact hclose

/-! ## Steps -/

theorem start_eq (others : List ℤ) (c : CanCalls) :
    (s.start k others c).1.ops = (s.ops.canOpen k others c).1 ∧
      (s.start k others c).1.devFd = (s.ops.canOpen k others c).2 := by
  unfold start
  obtain ⟨ops, fd⟩ := s.ops.canOpen k others c
  dsimp only
  split_ifs <;> exact ⟨rfl, rfl⟩

/-- A `Start` whose socket is not made leaves everything open as it was. -/
theorem Tidy.start_of_fails (h : Tidy s) (others : List ℤ) {c : CanCalls} (hc : c.socket = false) :
    Tidy (s.start k others c).1 := by
  obtain ⟨hops, hfd⟩ := start_eq (k := k) (s := s) others c
  have hopen : s.ops.canOpen k others c = (s.ops, -1) := by simp [CanOps.canOpen, hc]
  rw [hopen] at hops hfd
  refine ⟨hops ▸ h.left, ?_⟩
  rw [hops, hfd]
  have hneg : ¬(0 : ℤ) < -1 := by decide
  exact iff_of_false hneg (neg_notMem h.left)

/-- What `can_open` opens when the socket is made, and what it returns. -/
theorem canOpen_of_socket (u : CanOps) (others : List ℤ) {c : CanCalls} (hc : c.socket = true) :
    ∃ u', u.canOpen k others c = (u', if c.epollCreate = true ∧ c.epollCtl = true then
        k.fresh (others ++ u.fds) else 1) ∧
      (u'.opened = (k.fresh (others ++ u.fds), .socket) :: u.opened ∨
        u'.opened = (u'.fdEpoll, .epoll) :: (k.fresh (others ++ u.fds), .socket) :: u.opened) := by
  unfold CanOps.canOpen
  rw [hc]
  cases hcreate : c.epollCreate with
  | false => exact ⟨_, rfl, .inl rfl⟩
  | true =>
    cases hctl : c.epollCtl with
    | false => exact ⟨_, rfl, .inr rfl⟩
    | true => exact ⟨_, rfl, .inr rfl⟩

theorem mem_socket_iff {u : CanOps} {fd n : ℤ}
    (h : u.opened = [(fd, .socket)] ∨ u.opened = [(u.fdEpoll, .epoll), (fd, .socket)]) :
    (n, CanFd.socket) ∈ u.opened ↔ n = fd := by
  rcases h with h | h <;> simp [h]

/-- A `Start` that makes a socket while nothing is open. -/
theorem start_of_opened_eq_nil (hnone : s.ops.opened = []) (others : List ℤ) {c : CanCalls}
    (hc : c.socket = true) :
    Left (s.start k others c).1.ops ∧
      ((0 < (s.start k others c).1.devFd ↔
          ((s.start k others c).1.devFd, CanFd.socket) ∈ (s.start k others c).1.ops.opened) ↔
        s.InOrder k (.start others c)) := by
  obtain ⟨hops, hfd⟩ := start_eq (k := k) (s := s) others c
  obtain ⟨u, hopen, hopened⟩ := canOpen_of_socket (k := k) s.ops others hc
  have hnonneg := k.fresh_nonneg (others ++ s.ops.fds)
  rw [hnone] at hopened
  rw [hops, hfd, hopen]
  refine ⟨.inr ⟨_, hnonneg, hopened⟩, ?_⟩
  rw [mem_socket_iff hopened]
  simp only [InOrder, hc, hnone, true_and, forall_const]
  split_ifs with hboth
  · simp
  · simp [eq_comm]

theorem Tidy.count_pos (h : Tidy s) (hsome : s.ops.opened ≠ []) : s.count .socket = 1 := by
  unfold count
  rcases h.left with h | ⟨n, -, h | h⟩
  · exact absurd h hsome
  · simp [h]
  · simp [h]

/-- A `Start` that makes a second socket. -/
theorem count_start (others : List ℤ) {c : CanCalls} (hc : c.socket = true) :
    (s.start k others c).1.count .socket = s.count .socket + 1 := by
  obtain ⟨hops, -⟩ := start_eq (k := k) (s := s) others c
  obtain ⟨u, hopen, hopened⟩ := canOpen_of_socket (k := k) s.ops others hc
  unfold count
  rw [hops, hopen]
  rcases hopened with hopened | hopened <;> simp [hopened]

theorem Tidy.close (h : Tidy s) (down : Bool) (horder : s.InOrder k (.close down)) :
    Tidy (s.close down).1 ∧ (s.close down).1.ops.opened = [] := by
  by_cases hpos : 0 < s.devFd
  · have hopened : (s.close down).1.ops.opened = [] := by
      have hclosed := canClose_opened h.left (h.devFd.1 hpos) down
      simpa [CanData.close, CanData.stop, hpos] using hclosed
    have hfd : (s.close down).1.devFd = -1 := by simp [CanData.close, CanData.stop, hpos]
    exact ⟨⟨.inl hopened, by rw [hfd, hopened]; simp⟩, hopened⟩
  · have hnone : s.ops.opened = [] := horder.resolve_right hpos
    have hsame : (s.close down).1.ops = s.ops ∧ (s.close down).1.devFd = s.devFd := by
      simp [CanData.close, CanData.stop, hpos]
    rw [← hsame.1] at hnone
    refine ⟨⟨.inl hnone, ?_⟩, hnone⟩
    rw [hsame.2, hnone]
    simpa using hpos

/-- A `Close` that is not in order leaves open what was. -/
theorem not_inOrder_close (down : Bool) (hno : ¬s.InOrder k (.close down)) :
    (s.close down).1.ops.opened ≠ [] := by
  simp only [InOrder, not_or] at hno
  simpa [CanData.close, CanData.stop, hno.2] using hno.1

theorem tidy_step (s : CanData) (op : CanOp) (h : Tidy s) (horder : s.InOrder k op) :
    Tidy (s.step k op).1 := by
  cases op with
  | start others c =>
    cases hc : c.socket with
    | false => exact h.start_of_fails others hc
    | true =>
      obtain ⟨hnone, -⟩ := horder hc
      obtain ⟨hleft, hiff⟩ := start_of_opened_eq_nil (k := k) hnone others hc
      exact ⟨hleft, hiff.2 horder⟩
  | stop => exact ⟨h.left, h.devFd⟩
  | resume => exact ⟨h.left, h.devFd⟩
  | close down => exact (h.close down horder).1

theorem held_step_iff (s : CanData) (op : CanOp) (h : Tidy s) :
    Held ⟨s, op, (s.step k op).1, (s.step k op).2⟩ ↔ s.InOrder k op := by
  constructor
  · intro hheld
    cases op with
    | start others c =>
      intro hc
      have hnone : s.ops.opened = [] := by
        by_contra hsome
        have hsockets : (s.start k others c).1.count .socket ≤ 1 := hheld.sockets
        rw [count_start others hc, h.count_pos hsome] at hsockets
        omega
      exact (start_of_opened_eq_nil (k := k) hnone others hc).2.1 hheld.devFd hc
    | stop => trivial
    | resume => trivial
    | close down =>
      by_contra hno
      exact not_inOrder_close down hno (hheld.closed down rfl)
  · intro horder
    refine ((tidy_step s op h horder).held_of_op_iff s op _).2 ?_
    rintro down rfl
    exact (h.close down horder).2

/-! ## Runs -/

/-- For every sequence of operations, whatever descriptors the kernel chooses and whichever
system calls fail, the driver holds at most one socket after every operation exactly when every
operation is in order. -/
theorem held_iff (k : DescriptorTable) (ops : List CanOp) :
    (∀ t ∈ trace (step k) {} ops, Held t) ↔
      ∀ t ∈ trace (step k) {} ops, t.before.InOrder k t.input :=
  forall_trace_iff_of_step Tidy (held_step_iff (k := k)) (tidy_step (k := k)) ops
    ⟨.inl rfl, by decide⟩

/-- A kernel that chooses the number after the greatest in use, from 3 on. -/
def nextDescriptor : DescriptorTable where
  fresh used := used.foldr (fun fd n => max (fd + 1) n) 3
  fresh_nonneg used := by
    induction used with
    | nil => decide
    | cons fd used ih =>
      rw [List.foldr_cons]
      omega
  fresh_notMem used := by
    have hlt : ∀ fd ∈ used, fd < used.foldr (fun fd n => max (fd + 1) n) 3 := by
      induction used with
      | nil => simp
      | cons fd used ih =>
        intro x hx
        rw [List.foldr_cons]
        rcases List.mem_cons.1 hx with rfl | hx
        · omega
        · have := ih x hx
          omega
    exact fun hmem => Int.lt_irrefl _ (hlt _ hmem)

/-- Every call succeeds. -/
def allSucceed : CanCalls :=
  ⟨true, true, true, true, true, true, true⟩

/-- After `Start`, `Stop` and `Start` two sockets are open. -/
theorem not_held :
    ¬∀ (k : DescriptorTable) (ops : List CanOp), ∀ t ∈ trace (step k) {} ops, Held t := by
  intro h
  have hheld := h nextDescriptor [.start [] allSucceed, .stop, .start [] allSucceed]
    ⟨_, .start [] allSucceed, _, _⟩ (List.mem_of_getLast? rfl)
  exact absurd hheld.sockets (by decide)

end CanData

end Mastiff.Device

import Mastiff.DriveData
import Mastiff.Lib.Bytes

/-!
# The serial devices

`SerialData` (`chassis/drivers/uart/serial_data.cc`) drives a port through `open_uart`,
`close_uart` and `read_uart` (`uart_drive.c`), which keep one epoll descriptor and one
timeout for the whole process. The system calls succeed, and the kernel's choice of
descriptors is a parameter ; baud rate and control flags are left out.

`undisturbed_iff` : over every run of any number of devices, every poll of an open device
is on its own port exactly when no device is opened while another one is open.
-/

set_option linter.unusedSectionVars false

open Bytes

namespace Mastiff.Device

open Machine

/-! ## Descriptors -/

/-- The kernel's choice of a new descriptor, which is positive and not in use. -/
structure Kernel where
  fresh : List ℤ → ℤ
  fresh_pos : ∀ used, 0 < fresh used
  fresh_notMem : ∀ used, fresh used ∉ used

/-- What a descriptor is open on : a port, or an epoll instance and the descriptors it
watches. -/
inductive Opened (ι : Type)
  | port (i : ι)
  | epoll (watched : List ℤ)
  deriving DecidableEq

/-- A closed descriptor is watched no longer. -/
def Opened.unwatch {ι : Type} (fd : ℤ) : Opened ι → Opened ι
  | .port i => .port i
  | .epoll watched => .epoll (watched.filter (· ≠ fd))

/-- The file-scope variables of `uart_drive.c`, and the descriptors that are open. -/
structure Uart (ι : Type) where
  fdEpoll : ℤ := -1
  pollTimeOut : ℤ := 0
  opened : List (ℤ × Opened ι) := []
  deriving DecidableEq

/-- What comes of a poll : the port is not open, `read_uart` returns -1, or it waits on some
descriptors for some time, and the bytes it reads, if there are any, are delivered. -/
inductive Poll
  | notOpen
  | failed
  | read (waits : List ℤ) (timeOut : ℤ) (bytes : List Byte)
  deriving DecidableEq

namespace Uart

variable {ι : Type}

/-- The descriptors in use. -/
def fds (u : Uart ι) : List ℤ :=
  u.opened.map Prod.fst

/-- `close`, which fails without effect if the descriptor is not open. -/
def close (u : Uart ι) (fd : ℤ) : Uart ι :=
  { u with
    opened := (u.opened.filter fun x => x.1 ≠ fd).map fun x => (x.1, x.2.unwatch fd) }

/-- `open_uart`, with the descriptors `others` in use elsewhere in the process. -/
def openUart (u : Uart ι) (k : Kernel) (others : List ℤ) (port : ι) (timeOut : ℤ) :
    Uart ι × ℤ :=
  let fd := k.fresh (others ++ u.fds)
  let u := { u with opened := (fd, .port port) :: u.opened, pollTimeOut := timeOut }
  let efd := k.fresh (others ++ u.fds)
  ({ u with opened := (efd, .epoll [fd]) :: u.opened, fdEpoll := efd }, fd)

/-- `close_uart`. -/
def closeUart (u : Uart ι) (fd : ℤ) : Uart ι :=
  { (u.close u.fdEpoll).close fd with fdEpoll := -1 }

/-- `read_uart`, when a read of a port returns the first of the bytes `data`. -/
def readUart (u : Uart ι) (fd : ℤ) (len : ℕ) (data : ι → List Byte) : Poll :=
  if len = 0 ∨ fd < 0 then .failed
  else if u.fdEpoll < 0 then .failed
  else
    match u.opened.lookup u.fdEpoll, u.opened.lookup fd with
    | some (.epoll watched), some (.port i) => .read watched u.pollTimeOut ((data i).take len)
    | _, _ => .failed

end Uart

/-! ## Devices -/

/-- `serial_read_timeout` and `once_read_size`, which is not zero. -/
structure UartConfig where
  timeOut : ℤ
  onceRead : ℕ
  onceRead_pos : 0 < onceRead

/-- The members of `SerialData`. -/
structure SerialData where
  devFd : ℤ := -1
  drive : DriveData := {}
  deriving DecidableEq

/-- Some devices, each on the port of its own name, and what they share. -/
structure Serials (ι : Type) where
  device : ι → SerialData := fun _ => {}
  uart : Uart ι := {}

/-- A call of a member of one of the devices. While it starts, `others` are the descriptors
in use elsewhere, and a poll finds the bytes `data` at the ports. -/
inductive SerialOp (ι : Type)
  | start (i : ι) (others : List ℤ)
  | stop (i : ι)
  | resume (i : ι)
  | close (i : ι)
  | pollingDriveRutine (i : ι) (data : ι → List Byte)

/-- What a call answers : its return value, or what comes of a poll. -/
inductive Answer
  | ret (r : ℤ)
  | polled (p : Poll)
  deriving DecidableEq

namespace Serials

variable {ι : Type} [DecidableEq ι] (k : Kernel) (conf : ι → UartConfig)

/-- The devices with the device `i` and what they share replaced. -/
def put (s : Serials ι) (i : ι) (d : SerialData) (u : Uart ι) : Serials ι :=
  ⟨Function.update s.device i d, u⟩

/-- The part of `Start` that opens the port, unless it is open : the port is opened once
without its settings and closed, and opened again. -/
def openPort (s : Serials ι) (i : ι) (others : List ℤ) : Serials ι :=
  if 0 < (s.device i).devFd then s
  else
    let r := s.uart.openUart k others i (conf i).timeOut
    let r := (r.1.closeUart r.2).openUart k others i (conf i).timeOut
    s.put i { s.device i with devFd := r.2 } r.1

/-- `Start`. -/
def start (s : Serials ι) (i : ι) (others : List ℤ) : Serials ι × Answer :=
  let s := s.openPort k conf i others
  let r := (s.device i).drive.start
  (s.put i { s.device i with drive := r.1 } s.uart, .ret r.2)

/-- `Stop`. -/
def stop (s : Serials ι) (i : ι) : Serials ι × Answer :=
  let r := (s.device i).drive.stop
  (s.put i { s.device i with drive := r.1 } s.uart, .ret r.2)

/-- `Resume`. -/
def resume (s : Serials ι) (i : ι) : Serials ι × Answer :=
  let r := (s.device i).drive.resume
  (s.put i { s.device i with drive := r.1 } s.uart, .ret r.2)

/-- The part of `Close` that closes the port, if it is open. -/
def closePort (s : Serials ι) (i : ι) : Serials ι :=
  if 0 < (s.device i).devFd then
    s.put i { s.device i with devFd := -1 } (s.uart.closeUart (s.device i).devFd)
  else s

/-- `Close`. -/
def close (s : Serials ι) (i : ι) : Serials ι × Answer :=
  let s := s.closePort i
  let r := (s.device i).drive.stop.1.close
  (s.put i { s.device i with drive := r.1 } s.uart, .ret r.2)

/-- `PollingDriveRutine`. -/
def poll (s : Serials ι) (i : ι) (data : ι → List Byte) : Poll :=
  if (s.device i).devFd < 0 then .notOpen
  else s.uart.readUart (s.device i).devFd (conf i).onceRead data

/-- One call. -/
def step (s : Serials ι) : SerialOp ι → Serials ι × Answer
  | .start i others => s.start k conf i others
  | .stop i => s.stop i
  | .resume i => s.resume i
  | .close i => s.close i
  | .pollingDriveRutine i data => (s, .polled (s.poll conf i data))

/-- The device is started and not closed. -/
def IsOpen (s : Serials ι) (i : ι) : Prop :=
  0 < (s.device i).devFd

instance (s : Serials ι) (i : ι) : Decidable (s.IsOpen i) :=
  inferInstanceAs (Decidable (0 < (s.device i).devFd))

/-- A poll of an open device waits on its own descriptor for its own time and reads its own
port, and without an open device no epoll instance is open. -/
structure Undisturbed (s : Serials ι) : Prop where
  poll : ∀ i, s.IsOpen i → ∀ data, s.poll conf i data =
    .read [(s.device i).devFd] (conf i).timeOut ((data i).take (conf i).onceRead)
  closed : (∀ i, ¬s.IsOpen i) → ∀ x ∈ s.uart.opened, ∀ watched, x.2 ≠ .epoll watched

/-- A start that opens its port finds no device open. -/
def OpensAlone (s : Serials ι) (op : SerialOp ι) : Prop :=
  ∀ i others, op = .start i others → ¬s.IsOpen i → ∀ j, ¬s.IsOpen j

end Serials

/-! ## Opening and closing -/

namespace Uart

variable {ι : Type} {k : Kernel} {others : List ℤ} {u : Uart ι}

/-- What is watched is in use. -/
def Watched (u : Uart ι) : Prop :=
  ∀ x ∈ u.opened, ∀ watched, x.2 = .epoll watched → ∀ fd ∈ watched, fd ∈ u.fds

/-- Closing leaves the entries of other descriptors that do not watch the closed one. -/
theorem closed_eq_self {l : List (ℤ × Opened ι)} {fd : ℤ} (hfd : fd ∉ l.map Prod.fst)
    (hw : ∀ x ∈ l, ∀ watched, x.2 = .epoll watched → fd ∉ watched) :
    ((l.filter fun x => x.1 ≠ fd).map fun x => (x.1, x.2.unwatch fd)) = l := by
  have hkeep : ∀ x ∈ l, x.1 ≠ fd := by
    rintro x hx rfl
    exact hfd (List.mem_map_of_mem hx)
  rw [List.filter_eq_self.2 (fun x hx => by simpa using hkeep x hx)]
  refine (List.map_congr_left (g := id) fun x hx => ?_).trans (List.map_id l)
  obtain ⟨n, o⟩ := x
  cases o with
  | port i => rfl
  | epoll watched =>
    have hself : watched.filter (· ≠ fd) = watched := by
      rw [List.filter_eq_self]
      intro w hmem
      have hno := hw _ hx watched rfl
      simpa using fun h : w = fd => hno (h ▸ hmem)
    rw [Opened.unwatch, hself, id]

/-- What `open_uart` leaves : two new descriptors, a port and an epoll instance for it. -/
theorem openUart_spec (u : Uart ι) (k : Kernel) (others : List ℤ) (port : ι) (timeOut : ℤ) :
    ∃ fd efd, 0 < fd ∧ 0 < efd ∧ fd ∉ u.fds ∧ efd ∉ u.fds ∧ efd ≠ fd ∧
      u.openUart k others port timeOut =
        (⟨efd, timeOut, (efd, .epoll [fd]) :: (fd, .port port) :: u.opened⟩, fd) := by
  have hfd := k.fresh_notMem (others ++ u.fds)
  have hefd := k.fresh_notMem (others ++ k.fresh (others ++ u.fds) :: u.fds)
  simp only [List.mem_append, List.mem_cons, not_or] at hfd hefd
  exact ⟨_, _, k.fresh_pos _, k.fresh_pos _, hfd.2, hefd.2.2, hefd.2.1, rfl⟩

/-- A port that is opened and closed leaves the descriptors as they were. -/
theorem opened_closeUart_openUart (hw : u.Watched) (port : ι) (timeOut : ℤ) :
    ((u.openUart k others port timeOut).1.closeUart (u.openUart k others port timeOut).2).opened =
      u.opened := by
  obtain ⟨fd, efd, -, -, hfd, hefd, hne, hr⟩ := u.openUart_spec k others port timeOut
  have hself : ∀ n, n ∉ u.fds → ((u.opened.filter fun x => x.1 ≠ n).map
      fun x => (x.1, x.2.unwatch n)) = u.opened := fun n hn =>
    closed_eq_self hn fun x hx watched hwatched hmem => hn (hw x hx watched hwatched n hmem)
  have hclose : ((⟨efd, timeOut, (efd, .epoll [fd]) :: (fd, .port port) :: u.opened⟩ : Uart ι).close
      efd).opened = (fd, .port port) :: u.opened := by
    rw [Uart.close]
    simp only [List.filter_cons, ne_eq, not_true_eq_false, decide_false, Bool.false_eq_true,
      if_false, hne.symm, not_false_eq_true, decide_true, if_true, List.map_cons, Opened.unwatch]
    exact congrArg _ (hself efd hefd)
  rw [hr, closeUart, Uart.close, hclose]
  simp only [List.filter_cons, ne_eq, not_true_eq_false, decide_false, Bool.false_eq_true, if_false]
  exact hself fd hfd

/-- Closing the only port leaves no descriptor open. -/
theorem opened_closeUart_of_one {fd efd : ℤ} {i : ι} (hne : efd ≠ fd) (hepoll : u.fdEpoll = efd)
    (hopened : u.opened = [(efd, .epoll [fd]), (fd, .port i)]) : (u.closeUart fd).opened = [] := by
  rw [closeUart, Uart.close, Uart.close, hepoll, hopened]
  simp [Opened.unwatch, hne.symm]

/-- What a read finds. -/
theorem readUart_of_lookup {fd : ℤ} {len : ℕ} {data : ι → List Byte} {watched : List ℤ} {i : ι}
    (hlen : 0 < len) (hfd : 0 < fd) (hepoll : 0 < u.fdEpoll)
    (hwatched : u.opened.lookup u.fdEpoll = some (.epoll watched))
    (hport : u.opened.lookup fd = some (.port i)) :
    u.readUart fd len data = .read watched u.pollTimeOut ((data i).take len) := by
  rw [readUart, if_neg (by omega), if_neg (by omega), hwatched, hport]

/-- A read waits on what the one epoll instance watches. -/
theorem waits_eq {fd timeOut : ℤ} {len : ℕ} {data : ι → List Byte} {watched waits : List ℤ}
    {bytes : List Byte} (hwatched : u.opened.lookup u.fdEpoll = some (.epoll watched))
    (hread : u.readUart fd len data = .read waits timeOut bytes) : waits = watched := by
  rw [readUart, hwatched] at hread
  split_ifs at hread
  split at hread
  · next heq _ =>
    cases heq
    cases hread
    rfl
  · cases hread

end Uart

/-! ## One device open -/

namespace Serials

variable {ι : Type} [DecidableEq ι] {k : Kernel} {conf : ι → UartConfig} {s s' : Serials ι}

/-- Two states agree on what is open. -/
structure SamePorts (s s' : Serials ι) : Prop where
  devFd : ∀ i, (s'.device i).devFd = (s.device i).devFd
  uart : s'.uart = s.uart

theorem samePorts_drive (s : Serials ι) (i : ι) (v : DriveData) :
    SamePorts s (s.put i { s.device i with drive := v } s.uart) := by
  refine ⟨fun j => ?_, rfl⟩
  by_cases hj : j = i
  · subst hj
    simp [put]
  · simp [put, hj]

theorem SamePorts.isOpen_iff (h : SamePorts s s') (i : ι) : s'.IsOpen i ↔ s.IsOpen i := by
  rw [IsOpen, IsOpen, h.devFd]

theorem SamePorts.poll_eq (h : SamePorts s s') (i : ι) (data : ι → List Byte) :
    s'.poll conf i data = s.poll conf i data := by
  rw [poll, poll, h.devFd, h.uart]

/-- At most one device is open, and everything shared is its own. -/
inductive Sole (conf : ι → UartConfig) (s : Serials ι) : Prop
  | none (hdev : ∀ i, (s.device i).devFd = -1) (hopened : s.uart.opened = [])
  | one {i : ι} {fd efd : ℤ} (hfd : 0 < fd) (hefd : 0 < efd) (hne : efd ≠ fd)
      (hdev : ∀ j, (s.device j).devFd = if j = i then fd else -1)
      (huart : s.uart = ⟨efd, (conf i).timeOut, [(efd, .epoll [fd]), (fd, .port i)]⟩)

theorem Sole.samePorts (hs : Sole conf s) (h : SamePorts s s') : Sole conf s' := by
  cases hs with
  | none hdev hopened => exact .none (fun i => (h.devFd i).trans (hdev i)) (by rw [h.uart, hopened])
  | one hfd hefd hne hdev huart =>
    exact .one hfd hefd hne (fun j => (h.devFd j).trans (hdev j)) (h.uart.trans huart)

/-- A device that is open alone is not disturbed. -/
theorem Sole.undisturbed (hs : Sole conf s) : Undisturbed conf s := by
  cases hs with
  | none hdev hopened =>
    refine ⟨fun i hi => ?_, fun _ x hx => ?_⟩
    · rw [IsOpen, hdev] at hi
      omega
    · rw [hopened] at hx
      cases hx
  | @one i fd efd hfd hefd hne hdev huart =>
    have hiff : ∀ j, s.IsOpen j ↔ j = i := by
      intro j
      rw [IsOpen, hdev]
      split_ifs with hj
      · exact iff_of_true hfd hj
      · exact iff_of_false (by omega) hj
    refine ⟨fun j hj data => ?_, fun hno => absurd ((hiff i).2 rfl) (hno i)⟩
    obtain rfl := (hiff j).1 hj
    have hdevFd : (s.device j).devFd = fd := by rw [hdev, if_pos rfl]
    have hwatched : s.uart.opened.lookup s.uart.fdEpoll = some (.epoll [fd]) := by
      rw [huart]
      simp
    have hport : s.uart.opened.lookup fd = some (.port j) := by
      rw [huart]
      simp [List.lookup_cons, beq_eq_false_iff_ne.2 hne.symm]
    rw [poll, if_neg (by omega), hdevFd, Uart.readUart_of_lookup (conf j).onceRead_pos hfd
      (by rw [huart]; exact hefd) hwatched hport, huart]

/-- The descriptor of an open device is in use. -/
theorem Sole.devFd_mem_fds (hs : Sole conf s) {i : ι} (hi : s.IsOpen i) :
    (s.device i).devFd ∈ s.uart.fds := by
  cases hs with
  | none hdev hopened =>
    rw [IsOpen, hdev] at hi
    omega
  | one hfd hefd hne hdev huart =>
    rw [IsOpen, hdev] at hi
    rw [hdev]
    split_ifs at hi ⊢
    · simp [huart, Uart.fds]
    · omega

theorem Sole.watched (hs : Sole conf s) : s.uart.Watched := by
  cases hs with
  | none hdev hopened => simp [Uart.Watched, hopened]
  | one hfd hefd hne hdev huart => simp [Uart.Watched, Uart.fds, huart]

/-! ## One call -/

/-- A port is opened by leaving two new descriptors open. -/
theorem Sole.openPort_spec (hs : Sole conf s) {i : ι} (hi : ¬s.IsOpen i) (others : List ℤ) :
    ∃ fd efd, 0 < fd ∧ 0 < efd ∧ efd ≠ fd ∧ fd ∉ s.uart.fds ∧
      s.openPort k conf i others = s.put i { s.device i with devFd := fd }
        ⟨efd, (conf i).timeOut, (efd, .epoll [fd]) :: (fd, .port i) :: s.uart.opened⟩ := by
  have hclosed : ((s.uart.openUart k others i (conf i).timeOut).1.closeUart
      (s.uart.openUart k others i (conf i).timeOut).2).opened = s.uart.opened :=
    Uart.opened_closeUart_openUart hs.watched i (conf i).timeOut
  have hi' : ¬0 < (s.device i).devFd := hi
  simp only [openPort, if_neg hi']
  generalize (s.uart.openUart k others i (conf i).timeOut).1.closeUart
    (s.uart.openUart k others i (conf i).timeOut).2 = u at hclosed
  obtain ⟨fd, efd, hfd, hefd, hnew, -, hne, hr⟩ := u.openUart_spec k others i (conf i).timeOut
  rw [Uart.fds, hclosed, ← Uart.fds] at hnew
  refine ⟨fd, efd, hfd, hefd, hne, hnew, ?_⟩
  rw [hr, hclosed]

theorem put_devFd (s : Serials ι) (i : ι) (fd : ℤ) (u : Uart ι) (j : ι) :
    ((s.put i { s.device i with devFd := fd } u).device j).devFd =
      if j = i then fd else (s.device j).devFd := by
  by_cases hj : j = i
  · subst hj
    simp [put]
  · simp [put, hj]

/-- A port that is opened while no device is open is open alone. -/
theorem Sole.openPort (hs : Sole conf s) {i : ι} (others : List ℤ)
    (halone : ¬s.IsOpen i → ∀ j, ¬s.IsOpen j) : Sole conf (s.openPort k conf i others) := by
  by_cases hi : s.IsOpen i
  · rw [Serials.openPort, if_pos (show 0 < (s.device i).devFd from hi)]
    exact hs
  · obtain ⟨fd, efd, hfd, hefd, hne, -, hr⟩ := hs.openPort_spec (k := k) hi others
    cases hs with
    | none hdev hopened =>
      rw [hr, hopened]
      exact .one hfd hefd hne (fun j => by rw [put_devFd, hdev]) rfl
    | @one j fd' efd' hfd' _ _ hdev _ =>
      refine absurd ?_ (halone hi j)
      rw [IsOpen, hdev, if_pos rfl]
      exact hfd'

/-- A port that is opened while another device is open disturbs that device. -/
theorem Sole.disturbed_openPort (hs : Sole conf s) {i j : ι} (others : List ℤ) (hi : ¬s.IsOpen i)
    (hj : s.IsOpen j) : ¬Undisturbed conf (s.openPort k conf i others) := by
  obtain ⟨fd, efd, hfd, hefd, hne, hnew, hr⟩ := hs.openPort_spec (k := k) hi others
  intro hu
  have hji : j ≠ i := fun h => hi (h ▸ hj)
  have hdevFd : ((s.openPort k conf i others).device j).devFd = (s.device j).devFd := by
    rw [hr, put_devFd, if_neg hji]
  have hpoll := hu.poll j (by rw [IsOpen, hdevFd]; exact hj) (fun _ => [])
  rw [poll, hdevFd, if_neg (by rw [IsOpen] at hj; omega)] at hpoll
  have hwatched : (s.openPort k conf i others).uart.opened.lookup
      (s.openPort k conf i others).uart.fdEpoll = some (.epoll [fd]) := by
    rw [hr]
    simp [put]
  have hwaits := Uart.waits_eq hwatched hpoll
  rw [List.singleton_inj] at hwaits
  exact hnew (hwaits ▸ hs.devFd_mem_fds hj)

/-- The only port is closed. -/
theorem Sole.closePort (hs : Sole conf s) (i : ι) : Sole conf (s.closePort i) := by
  by_cases hi : s.IsOpen i
  · rw [Serials.closePort, if_pos (show 0 < (s.device i).devFd from hi)]
    cases hs with
    | none hdev hopened =>
      rw [IsOpen, hdev] at hi
      omega
    | @one j fd efd hfd hefd hne hdev huart =>
      rw [IsOpen, hdev] at hi
      split_ifs at hi with hij
      · subst hij
        refine .none (fun l => ?_) ?_
        · rw [put_devFd, hdev]
          split_ifs <;> rfl
        · rw [hdev, if_pos rfl]
          exact Uart.opened_closeUart_of_one hne (by rw [huart]) (by rw [huart])
      · omega
  · rw [Serials.closePort, if_neg (show ¬0 < (s.device i).devFd from hi)]
    exact hs

/-! ## Runs -/

/-- A call that finds at most one device open, and opens none beside it, leaves at most one
open. -/
theorem Sole.step (hs : Sole conf s) {op : SerialOp ι} (halone : s.OpensAlone op) :
    Sole conf (s.step k conf op).1 := by
  cases op with
  | start i others =>
    exact (hs.openPort others (halone i others rfl)).samePorts (samePorts_drive _ i _)
  | stop i => exact hs.samePorts (samePorts_drive s i _)
  | resume i => exact hs.samePorts (samePorts_drive s i _)
  | close i => exact (hs.closePort i).samePorts (samePorts_drive _ i _)
  | pollingDriveRutine i data => exact hs

/-- A call leaves every open device undisturbed exactly when it opens none beside another. -/
theorem Sole.undisturbed_step_iff (hs : Sole conf s) (op : SerialOp ι) :
    Undisturbed conf (s.step k conf op).1 ↔ s.OpensAlone op := by
  refine ⟨fun hu => ?_, fun halone => (hs.step halone).undisturbed⟩
  rintro i others rfl hi j hj
  refine hs.disturbed_openPort others hi hj (k := k) ?_
  have hsame : SamePorts (s.openPort k conf i others) (s.step k conf (.start i others)).1 :=
    samePorts_drive _ i _
  refine ⟨fun l hl data => ?_, fun hno x hx => ?_⟩
  · rw [← hsame.poll_eq, hu.poll l ((hsame.isOpen_iff l).2 hl) data, hsame.devFd]
  · refine hu.closed (fun l hl => hno l ((hsame.isOpen_iff l).1 hl)) x ?_
    rwa [hsame.uart]

/-- Over every run of any number of devices, with any choice of descriptors, no open device
is disturbed and nothing is left open exactly when every start that opens its port finds no
device open. -/
theorem undisturbed_iff (k : Kernel) (conf : ι → UartConfig) (ops : List (SerialOp ι)) :
    (∀ t ∈ trace (step k conf) {} ops, t.after.Undisturbed conf) ↔
      ∀ t ∈ trace (step k conf) {} ops, t.before.OpensAlone t.input :=
  forall_trace_iff_of_step (Sole conf) (fun _ op hs => hs.undisturbed_step_iff op)
    (fun _ _ hs halone => hs.step halone) ops (.none (fun _ => rfl) rfl)

end Serials

/-! ## The lowest descriptor -/

/-- The lowest of `n` descriptors from `fd` on that is not in use, or the one after them. -/
def lowestFrom (used : List ℤ) : ℕ → ℤ → ℤ
  | 0, fd => fd
  | n + 1, fd => if fd ∈ used then lowestFrom used n (fd + 1) else fd

theorem le_lowestFrom (used : List ℤ) (n : ℕ) (fd : ℤ) : fd ≤ lowestFrom used n fd := by
  induction n generalizing fd with
  | zero => exact le_refl fd
  | succ n ih =>
    rw [lowestFrom]
    split_ifs
    · exact (by omega : fd ≤ fd + 1).trans (ih (fd + 1))
    · exact le_refl fd

/-- If the lowest is in use, so are all before it. -/
theorem mem_of_lowestFrom_mem {used : List ℤ} {n : ℕ} {fd : ℤ} (h : lowestFrom used n fd ∈ used) :
    ∀ i ≤ n, fd + (i : ℤ) ∈ used := by
  induction n generalizing fd with
  | zero =>
    intro i hi
    obtain rfl : i = 0 := by omega
    simpa [lowestFrom] using h
  | succ n ih =>
    rw [lowestFrom] at h
    split_ifs at h with hfd
    · intro i hi
      rcases i with _ | i
      · simpa using hfd
      · have hmem := ih h i (by omega)
        rwa [add_assoc, add_comm 1 (i : ℤ)] at hmem
    · exact absurd h hfd

theorem lowestFrom_notMem (used : List ℤ) (fd : ℤ) : lowestFrom used used.length fd ∉ used := by
  intro h
  have hall := mem_of_lowestFrom_mem h
  have hnodup : ((List.range (used.length + 1)).map fun i : ℕ => fd + (i : ℤ)).Nodup :=
    List.nodup_range.map fun i j hij => by simpa using hij
  have hsub : ((List.range (used.length + 1)).map fun i : ℕ => fd + (i : ℤ)) ⊆ used := by
    intro x hx
    obtain ⟨i, hi, rfl⟩ := List.mem_map.1 hx
    exact hall i (by rw [List.mem_range] at hi; omega)
  have hlen := (hnodup.subperm hsub).length_le
  rw [List.length_map, List.length_range] at hlen
  omega

/-- The lowest descriptor that is not in use, after the three standard ones. -/
def Kernel.lowest : Kernel where
  fresh used := lowestFrom used used.length 3
  fresh_pos used := lt_of_lt_of_le (by omega : (0 : ℤ) < 3) (le_lowestFrom used used.length 3)
  fresh_notMem used := lowestFrom_notMem used 3

namespace Serials

/-- A second device is opened and closed, and the first is read no longer. -/
theorem not_undisturbed :
    ¬∀ (k : Kernel) (conf : Bool → UartConfig) (ops : List (SerialOp Bool)),
      ∀ t ∈ trace (step k conf) {} ops, t.after.Undisturbed conf := by
  intro h
  have hpoll := (h Kernel.lowest (fun _ => ⟨100, 1, Nat.one_pos⟩)
    [.start false [], .start true [], .close true] ⟨_, .close true, _, _⟩
    (List.mem_of_getLast? rfl)).poll false (by decide) (fun _ => [])
  exact absurd hpoll (by decide)

end Serials

end Mastiff.Device

import Mastiff.UartDrive

/-!
# Opening a serial port

`open_uart` (`chassis/drivers/uart/uart_drive.c`) with every outcome of its system calls, which
are inputs, as is what `opt` holds if the first `tcgetattr` fails, and what a `tcsetattr` makes of
the attributes of the port. It may return 0 when it has made only some of the changes : that it
makes all of them is the assumption `SetsAll`. A baud rate stands for its constant. In
`UartDrive` the calls all succeed (`openUart_eq`).

`honest_iff` : the return value is positive exactly for a port that is open and configured, and
else nothing stays open, exactly when `open` fails, or the port is closed again, or the request
is one that can be set and every call after `open` succeeds. `open` must not return 0.
-/

set_option linter.unusedSectionVars false

namespace Mastiff.Device

/-! ## Ports -/

/-- What `open_uart` sets of a `struct termios`. -/
structure Termios where
  iSpeed : ℤ
  oSpeed : ℤ
  csize : ℤ
  cstopb : Bool
  parenb : Bool
  parodd : Bool
  crtscts : Bool
  inpck : Bool
  icrnl : Bool
  ixon : Bool
  icanon : Bool
  echo : Bool
  echoe : Bool
  isig : Bool
  opost : Bool
  vtime : ℕ
  vmin : ℕ
  deriving DecidableEq

/-- The parameters of `open_uart`. `dev` tells whether there is a name of a device. -/
structure UartRequest where
  dev : Bool := true
  baud : ℤ
  dataBits : ℤ
  stopBits : ℤ
  parity : ℤ
  timeout : ℤ
  deriving DecidableEq

/-- What the system calls of `open_uart` return, in the order of the calls, and the `opt` that
is not initialised. -/
structure UartCalls where
  openRet : ℤ
  fcntl : ℤ
  opt : Termios
  speedGet : ℤ
  speedSet : ℤ
  flagGet : ℤ
  flagSet : ℤ
  epollCreate : ℤ
  epollCtl : ℤ
  deriving DecidableEq

/-- What `open_uart` returns and leaves behind : the attributes of the port and whether it
blocks, the descriptors opened and not closed, the file-scope variables if they were assigned,
and the descriptor that the epoll instance watches. -/
structure UartResult where
  ret : ℤ
  attrs : Termios
  nonBlocking : Bool := true
  opened : List ℤ := []
  fdEpoll : Option ℤ := none
  pollTimeOut : Option ℤ := none
  watched : Option ℤ := none
  deriving DecidableEq

namespace UartOpen

/-! ## Speed and flags -/

/-- `baud_array` -/
def baudArray : List ℤ :=
  [0, 50, 75, 110, 134, 150, 200, 300, 600,
    1200, 1800, 2400, 4800, 9600, 19200, 38400,
    57600, 115200, 230400, 460800, 500000, 576000,
    921600, 1000000, 1152000, 1500000, 2000000, 2500000,
    3000000, 3500000, 4000000]

/-- `speed_array` -/
def speedArray : List ℤ :=
  [0, 50, 75, 110, 134, 150, 200, 300, 600, 1200, 1800, 2400, 4800,
    9600, 19200, 38400, 57600, 115200, 230400, 460800,
    500000, 576000, 921600, 1000000, 1152000, 1500000, 2000000,
    2500000, 3000000, 3500000, 4000000]

/-- What a `tcsetattr` that returns a number makes of the attributes of the port, given some
options. -/
abbrev SetAttrs :=
  ℤ → Termios → Termios → Termios

/-- A `tcsetattr` that returns 0 has made all the changes. -/
def SetsAll (setAttrs : SetAttrs) : Prop :=
  ∀ attrs options, setAttrs 0 attrs options = options

/-- `tcsetattr`, with what it returns. -/
def tcsetattr (setAttrs : SetAttrs) (ret : ℤ) (attrs options : Termios) : Termios × ℤ :=
  (setAttrs ret attrs options, ret)

/-- `set_uart_speed` -/
def setUartSpeed (setAttrs : SetAttrs) (c : UartCalls) (attrs : Termios) (speed : ℤ) :
    Termios × ℤ :=
  let opt := if c.speedGet = 0 then attrs else c.opt
  match (baudArray.zip speedArray).find? fun e => speed = e.2 with
  | some e => tcsetattr setAttrs c.speedSet attrs { opt with iSpeed := e.1, oSpeed := e.1 }
  | none => (attrs, 0)

/-- The switch on `databits`, after the character size is masked. -/
def setDataBits (options : Termios) (databits : ℤ) : Termios :=
  { options with csize := if databits = 7 then 7 else if databits = 8 then 8 else 5 }

/-- The character is the one asked for, in either case. -/
def IsChar (parity : ℤ) (lower upper : Char) : Prop :=
  parity = lower.toNat ∨ parity = upper.toNat

instance (parity : ℤ) (lower upper : Char) : Decidable (IsChar parity lower upper) :=
  inferInstanceAs (Decidable (_ ∨ _))

/-- The switch on `parity`. -/
def setParity (options : Termios) (parity : ℤ) : Termios :=
  if IsChar parity 'n' 'N' then { options with parenb := false, inpck := false }
  else if IsChar parity 'o' 'O' then
    { options with parodd := true, parenb := true, inpck := true }
  else if IsChar parity 'e' 'E' then
    { options with parenb := true, parodd := false, inpck := true }
  else if IsChar parity 's' 'S' then { options with parenb := false, cstopb := false }
  else options

/-- The switch on `stopbits`. -/
def setStopBits (options : Termios) (stopbits : ℤ) : Termios :=
  if stopbits = 1 then { options with cstopb := false }
  else if stopbits = 2 then { options with cstopb := true }
  else options

/-- The assignments after the switches. -/
def setRaw (options : Termios) (parity : ℤ) : Termios :=
  { options with
    inpck := if parity ≠ 'n'.toNat then true else options.inpck
    vtime := 3
    vmin := 0
    crtscts := false
    icanon := false
    echo := false
    echoe := false
    isig := false
    opost := false
    icrnl := false
    ixon := false }

/-- The options of `set_uart_ctrl_flag`. -/
def ctrlFlags (options : Termios) (databits stopbits parity : ℤ) : Termios :=
  setRaw (setStopBits (setParity (setDataBits options databits) parity) stopbits) parity

/-- `set_uart_ctrl_flag` -/
def setUartCtrlFlag (setAttrs : SetAttrs) (c : UartCalls) (attrs : Termios)
    (databits stopbits parity : ℤ) : Termios × ℤ :=
  if c.flagGet ≠ 0 then (attrs, c.flagGet)
  else tcsetattr setAttrs c.flagSet attrs (ctrlFlags attrs databits stopbits parity)

/-! ## The call -/

/-- The rest of `open_uart` when the port is open and its attributes are set. -/
def setPoll (c : UartCalls) (attrs : Termios) (timeout : ℤ) : UartResult :=
  let result : UartResult :=
    { ret := c.openRet
      attrs
      nonBlocking := decide (c.fcntl ≠ 0)
      opened := [c.openRet]
      fdEpoll := some c.epollCreate
      pollTimeOut := some timeout }
  if c.epollCreate < 0 then { result with ret := -1 }
  else if c.epollCtl ≠ 0 then { result with ret := 1, opened := [c.epollCreate, c.openRet] }
  else { result with opened := [c.epollCreate, c.openRet], watched := some c.openRet }

/-- `open_uart` on a port with some attributes. -/
def openUart (setAttrs : SetAttrs) (c : UartCalls) (attrs : Termios) (req : UartRequest) :
    UartResult :=
  if !req.dev then { ret := -2, attrs := attrs }
  else
    let fd := c.openRet
    if fd < 0 then { ret := fd, attrs := attrs }
    -- `fd <= 0` is the test of the source, and 0 is a descriptor
    else if fd = 0 then { ret := fd, attrs := attrs, opened := [fd] }
    else
      let nonBlocking := decide (c.fcntl ≠ 0)
      let (attrs, speedRet) := setUartSpeed setAttrs c attrs req.baud
      if speedRet ≠ 0 then { ret := -3, attrs, nonBlocking }
      else
        let (attrs, flagRet) :=
          setUartCtrlFlag setAttrs c attrs req.dataBits req.stopBits req.parity
        if flagRet ≠ 0 then { ret := -4, attrs, nonBlocking }
        else setPoll c attrs req.timeout

/-! ## An honest return value -/

/-- The parity asked for is set : none for 'n' and for 's', odd or even. -/
def ParitySet (attrs : Termios) (parity : ℤ) : Prop :=
  (IsChar parity 'n' 'N' ∨ IsChar parity 's' 'S') ∧ attrs.parenb = false ∨
    IsChar parity 'o' 'O' ∧ attrs.parenb = true ∧ attrs.parodd = true ∨
    IsChar parity 'e' 'E' ∧ attrs.parenb = true ∧ attrs.parodd = false

/-- The attributes of a port that every reader of the driver relies on. -/
structure IsRaw (attrs : Termios) : Prop where
  wait : attrs.vtime = 3 ∧ attrs.vmin = 0
  control : attrs.crtscts = false
  local' : attrs.icanon = false ∧ attrs.echo = false ∧ attrs.echoe = false ∧ attrs.isig = false
  output : attrs.opost = false
  input : attrs.icrnl = false ∧ attrs.ixon = false

/-- The port is open and every step of the configuration took effect : the rate is one of the
supported ones and set, data bits, stop bits and parity are those asked for, reads block, and
the epoll instance watches the port. -/
structure Configured (c : UartCalls) (req : UartRequest) (r : UartResult) : Prop where
  opened : c.openRet ∈ r.opened
  blocking : r.nonBlocking = false
  supported : req.baud ∈ speedArray
  speed : r.attrs.iSpeed = req.baud ∧ r.attrs.oSpeed = req.baud
  dataBits : r.attrs.csize = req.dataBits
  stopBits : req.stopBits = 1 ∧ r.attrs.cstopb = false ∨
    req.stopBits = 2 ∧ r.attrs.cstopb = true
  parity : ParitySet r.attrs req.parity
  raw : IsRaw r.attrs
  watched : r.watched = some c.openRet

/-- The return value is positive exactly if the port is open and configured, and it is its
descriptor then ; otherwise nothing that was opened stays open. -/
structure Honest (c : UartCalls) (req : UartRequest) (r : UartResult) : Prop where
  ret : 0 < r.ret ↔ Configured c req r
  value : 0 < r.ret → r.ret = c.openRet
  clean : ¬0 < r.ret → r.opened = []

/-- The port is closed again, with -3 or -4. -/
def ClosesAgain (c : UartCalls) (req : UartRequest) : Prop :=
  req.baud ∈ speedArray ∧ c.speedSet ≠ 0 ∨ c.flagGet ≠ 0 ∨ c.flagSet ≠ 0

/-- The request is one that the switches and the table know. Without a case the data bits
are 5. -/
structure Settable (req : UartRequest) : Prop where
  baud : req.baud ∈ speedArray
  dataBits : req.dataBits = 5 ∨ req.dataBits = 7 ∨ req.dataBits = 8
  stopBits : req.stopBits = 1 ∨ req.stopBits = 2
  parity : IsChar req.parity 'n' 'N' ∨ IsChar req.parity 'o' 'O' ∨ IsChar req.parity 'e' 'E' ∨
    IsChar req.parity 's' 'S'

/-- The calls that are not checked, or not cleaned up after, succeed. -/
structure Succeeds (c : UartCalls) : Prop where
  fcntl : c.fcntl = 0
  epollCreate : 0 ≤ c.epollCreate
  epollCtl : c.epollCtl = 0

/-- There is no device or `open` fails, or it returns a positive descriptor, and the port is
closed again or the request can be set and the other calls succeed. -/
def GoesWell (c : UartCalls) (req : UartRequest) : Prop :=
  req.dev = false ∨ c.openRet < 0 ∨
    0 < c.openRet ∧ (ClosesAgain c req ∨ Settable req ∧ Succeeds c)

/-! ## The two settings -/

variable {setAttrs : SetAttrs} {c : UartCalls} {attrs : Termios} {req : UartRequest}

/-- The tables have the same rate at the same place. -/
theorem find?_speed (speed : ℤ) :
    ((baudArray.zip speedArray).find? fun e => speed = e.2) =
      if speed ∈ speedArray then some (speed, speed) else none := by
  have hzip : baudArray.zip speedArray = speedArray.map fun x => (x, x) := rfl
  rw [hzip, List.find?_map]
  split_ifs with hmem
  · have hsome : (speedArray.find? ((fun e => decide (speed = e.2)) ∘ fun x => (x, x))).isSome := by
      rw [List.find?_isSome]
      exact ⟨speed, hmem, by simp⟩
    obtain ⟨x, hx⟩ := Option.isSome_iff_exists.1 hsome
    obtain rfl : speed = x := by simpa using List.find?_some hx
    rw [hx]
    rfl
  · rw [Option.map_eq_none_iff, List.find?_eq_none]
    intro x hx hspeed
    obtain rfl : speed = x := by simpa using hspeed
    exact hmem hx

theorem setUartSpeed_of_mem {speed : ℤ} (hmem : speed ∈ speedArray) :
    setUartSpeed setAttrs c attrs speed = tcsetattr setAttrs c.speedSet attrs
      { (if c.speedGet = 0 then attrs else c.opt) with iSpeed := speed, oSpeed := speed } := by
  rw [setUartSpeed, find?_speed, if_pos hmem]

theorem setUartSpeed_of_notMem {speed : ℤ} (hmem : speed ∉ speedArray) :
    setUartSpeed setAttrs c attrs speed = (attrs, 0) := by
  rw [setUartSpeed, find?_speed, if_neg hmem]

/-- A rate that the table does not have is no error. -/
theorem setUartSpeed_ret (speed : ℤ) :
    (setUartSpeed setAttrs c attrs speed).2 = 0 ↔ ¬(speed ∈ speedArray ∧ c.speedSet ≠ 0) := by
  by_cases hmem : speed ∈ speedArray
  · rw [setUartSpeed_of_mem hmem, tcsetattr]
    simp [hmem]
  · rw [setUartSpeed_of_notMem hmem]
    simp [hmem]

theorem setUartSpeed_speed (hall : SetsAll setAttrs) (attrs : Termios) {speed : ℤ}
    (hmem : speed ∈ speedArray) (hset : c.speedSet = 0) :
    (setUartSpeed setAttrs c attrs speed).1.iSpeed = speed ∧
      (setUartSpeed setAttrs c attrs speed).1.oSpeed = speed := by
  rw [setUartSpeed_of_mem hmem, tcsetattr, hset, hall]
  exact ⟨rfl, rfl⟩

theorem setUartCtrlFlag_ret (databits stopbits parity : ℤ) :
    (setUartCtrlFlag setAttrs c attrs databits stopbits parity).2 = 0 ↔
      ¬(c.flagGet ≠ 0 ∨ c.flagSet ≠ 0) := by
  unfold setUartCtrlFlag tcsetattr
  split_ifs with hget <;> simp_all

theorem setUartCtrlFlag_attrs (hall : SetsAll setAttrs) (databits stopbits parity : ℤ)
    (h : ¬(c.flagGet ≠ 0 ∨ c.flagSet ≠ 0)) :
    (setUartCtrlFlag setAttrs c attrs databits stopbits parity).1 =
      ctrlFlags attrs databits stopbits parity := by
  push Not at h
  rw [setUartCtrlFlag, if_neg (not_not.2 h.1), tcsetattr, h.2, hall]

/-! ## The flags -/

/-- The switch on the parity changes the parity and the stop bits alone. -/
theorem setParity_kept (options : Termios) (parity : ℤ) :
    (setParity options parity).csize = options.csize ∧
      (setParity options parity).iSpeed = options.iSpeed ∧
        (setParity options parity).oSpeed = options.oSpeed := by
  unfold setParity
  split_ifs <;> exact ⟨rfl, rfl, rfl⟩

/-- The switch on the stop bits changes the stop bits alone. -/
theorem setStopBits_kept (options : Termios) (stopbits : ℤ) :
    ∃ cstopb, setStopBits options stopbits = { options with cstopb := cstopb } := by
  unfold setStopBits
  split_ifs
  · exact ⟨_, rfl⟩
  · exact ⟨_, rfl⟩
  · exact ⟨options.cstopb, rfl⟩

variable (options : Termios) (databits stopbits parity : ℤ)

theorem ctrlFlags_speed : (ctrlFlags options databits stopbits parity).iSpeed = options.iSpeed ∧
    (ctrlFlags options databits stopbits parity).oSpeed = options.oSpeed := by
  obtain ⟨cstopb, hstop⟩ :=
    setStopBits_kept (setParity (setDataBits options databits) parity) stopbits
  obtain ⟨-, hi, ho⟩ := setParity_kept (setDataBits options databits) parity
  unfold ctrlFlags
  rw [hstop]
  exact ⟨hi, ho⟩

theorem ctrlFlags_csize : (ctrlFlags options databits stopbits parity).csize = databits ↔
    databits = 5 ∨ databits = 7 ∨ databits = 8 := by
  obtain ⟨cstopb, hstop⟩ :=
    setStopBits_kept (setParity (setDataBits options databits) parity) stopbits
  obtain ⟨hpar, -⟩ := setParity_kept (setDataBits options databits) parity
  have hsize : (ctrlFlags options databits stopbits parity).csize =
      (setDataBits options databits).csize := by
    unfold ctrlFlags
    rw [hstop]
    exact hpar
  rw [hsize, setDataBits]
  dsimp only
  split_ifs <;> omega

theorem ctrlFlags_cstopb :
    (stopbits = 1 ∧ (ctrlFlags options databits stopbits parity).cstopb = false ∨
        stopbits = 2 ∧ (ctrlFlags options databits stopbits parity).cstopb = true) ↔
      stopbits = 1 ∨ stopbits = 2 := by
  unfold ctrlFlags setRaw setStopBits
  by_cases h₁ : stopbits = 1
  · simp [h₁]
  · by_cases h₂ : stopbits = 2 <;> simp [h₁, h₂]

theorem ctrlFlags_parity : ParitySet (ctrlFlags options databits stopbits parity) parity ↔
    IsChar parity 'n' 'N' ∨ IsChar parity 'o' 'O' ∨ IsChar parity 'e' 'E' ∨
      IsChar parity 's' 'S' := by
  obtain ⟨cstopb, hstop⟩ :=
    setStopBits_kept (setParity (setDataBits options databits) parity) stopbits
  unfold ctrlFlags ParitySet
  rw [hstop]
  simp only [setRaw, setParity]
  split_ifs with hn ho he hs <;> simp_all

theorem isRaw_ctrlFlags : IsRaw (ctrlFlags options databits stopbits parity) :=
  ⟨⟨rfl, rfl⟩, rfl, ⟨rfl, rfl, rfl, rfl⟩, rfl, rfl, rfl⟩

/-! ## The result -/

variable {options databits stopbits parity}

/-- A port that is neither refused nor closed again gets all its attributes. -/
theorem openUart_of_not_closesAgain (attrs : Termios) (hdev : req.dev = true) (hfd : 0 < c.openRet)
    (hclose : ¬ClosesAgain c req) :
    openUart setAttrs c attrs req = setPoll c (setUartCtrlFlag setAttrs c
      (setUartSpeed setAttrs c attrs req.baud).1 req.dataBits req.stopBits req.parity).1
      req.timeout := by
  have hspeed : (setUartSpeed setAttrs c attrs req.baud).2 = 0 := by
    rw [setUartSpeed_ret]
    exact fun h => hclose (.inl h)
  have hflag : ¬(c.flagGet ≠ 0 ∨ c.flagSet ≠ 0) := fun h => hclose (.inr h)
  have hneg : ¬c.openRet < 0 := by omega
  have hzero : ¬c.openRet = 0 := by omega
  simp only [openUart, hdev, Bool.not_true, Bool.false_eq_true, if_false, hneg, hzero, hspeed,
    ne_eq, not_true_eq_false, (setUartCtrlFlag_ret _ _ _).2 hflag]

theorem setPoll_attrs (timeout : ℤ) : (setPoll c attrs timeout).attrs = attrs := by
  unfold setPoll
  split_ifs <;> rfl

theorem setPoll_nonBlocking (timeout : ℤ) :
    (setPoll c attrs timeout).nonBlocking = false ↔ c.fcntl = 0 := by
  unfold setPoll
  split_ifs <;> simp

theorem openRet_mem_setPoll (timeout : ℤ) : c.openRet ∈ (setPoll c attrs timeout).opened := by
  unfold setPoll
  split_ifs <;> simp

theorem setPoll_watched (timeout : ℤ) : (setPoll c attrs timeout).watched = some c.openRet ↔
    0 ≤ c.epollCreate ∧ c.epollCtl = 0 := by
  unfold setPoll
  split_ifs with hcreate hctl
  · simp [hcreate]
  · simp [hctl]
  · simp [not_not.1 hctl, le_of_not_gt hcreate]

theorem setPoll_of_watched (timeout : ℤ) (hcreate : 0 ≤ c.epollCreate) (hctl : c.epollCtl = 0) :
    setPoll c attrs timeout =
      { ret := c.openRet
        attrs
        nonBlocking := decide (c.fcntl ≠ 0)
        opened := [c.epollCreate, c.openRet]
        fdEpoll := some c.epollCreate
        pollTimeOut := some timeout
        watched := some c.openRet } := by
  unfold setPoll
  simp [hcreate.not_gt, hctl]

theorem openUart_of_closesAgain (attrs : Termios) (hdev : req.dev = true) (hfd : 0 < c.openRet)
    (hclose : ClosesAgain c req) :
    (openUart setAttrs c attrs req).ret < 0 ∧ (openUart setAttrs c attrs req).opened = [] := by
  have hneg : ¬c.openRet < 0 := by omega
  have hzero : ¬c.openRet = 0 := by omega
  simp only [openUart, hdev, Bool.not_true, Bool.false_eq_true, if_false, hneg, hzero]
  by_cases hspeed : (setUartSpeed setAttrs c attrs req.baud).2 = 0
  · have hflag : ¬(setUartCtrlFlag setAttrs c (setUartSpeed setAttrs c attrs req.baud).1
        req.dataBits req.stopBits req.parity).2 = 0 := by
      rw [setUartSpeed_ret] at hspeed
      rw [setUartCtrlFlag_ret, not_not]
      exact hclose.resolve_left hspeed
    simp [hspeed, hflag]
  · simp [hspeed]

/-- A call that fails early, or closes the port again, is honest. -/
theorem honest_of_opened_eq_nil {r : UartResult} (hret : r.ret < 0) (hopened : r.opened = []) :
    Honest c req r := by
  refine ⟨iff_of_false hret.not_gt fun h => ?_, fun h => absurd h hret.not_gt, fun _ => hopened⟩
  have hmem := h.opened
  rw [hopened] at hmem
  cases hmem

/-- A port that stays open is configured exactly when the request can be set and the calls that
do not make it close succeed. -/
theorem configured_iff (hall : SetsAll setAttrs) (attrs : Termios) (hdev : req.dev = true)
    (hfd : 0 < c.openRet) (hclose : ¬ClosesAgain c req) :
    Configured c req (openUart setAttrs c attrs req) ↔ Settable req ∧ Succeeds c := by
  rw [openUart_of_not_closesAgain attrs hdev hfd hclose,
    setUartCtrlFlag_attrs hall _ _ _ fun h => hclose (.inr h)]
  constructor
  · intro h
    obtain ⟨hcreate, hctl⟩ := (setPoll_watched _).1 h.watched
    have hbits := h.dataBits
    have hstop := h.stopBits
    have hparity := h.parity
    rw [setPoll_attrs] at hbits hstop hparity
    rw [ctrlFlags_csize] at hbits
    rw [ctrlFlags_cstopb] at hstop
    rw [ctrlFlags_parity] at hparity
    exact ⟨⟨h.supported, hbits, hstop, hparity⟩, (setPoll_nonBlocking _).1 h.blocking, hcreate,
      hctl⟩
  · rintro ⟨hset, hcalls⟩
    have hspeedSet : c.speedSet = 0 := by
      by_contra hno
      exact hclose (.inl ⟨hset.baud, hno⟩)
    obtain ⟨hispeed, hospeed⟩ := setUartSpeed_speed hall attrs hset.baud hspeedSet
    obtain ⟨hi, ho⟩ := ctrlFlags_speed (setUartSpeed setAttrs c attrs req.baud).1 req.dataBits
      req.stopBits req.parity
    refine ⟨openRet_mem_setPoll _, (setPoll_nonBlocking _).2 hcalls.fcntl, hset.baud, ?_, ?_, ?_,
      ?_, ?_, (setPoll_watched _).2 ⟨hcalls.epollCreate, hcalls.epollCtl⟩⟩
    · rw [setPoll_attrs]
      exact ⟨hi.trans hispeed, ho.trans hospeed⟩
    · rw [setPoll_attrs, ctrlFlags_csize]
      exact hset.dataBits
    · rw [setPoll_attrs, ctrlFlags_cstopb]
      exact hset.stopBits
    · rw [setPoll_attrs, ctrlFlags_parity]
      exact hset.parity
    · rw [setPoll_attrs]
      exact isRaw_ctrlFlags _ _ _ _

/-- A port that stays open is honest exactly when it is configured. -/
theorem honest_iff_configured (attrs : Termios) (hdev : req.dev = true) (hfd : 0 < c.openRet)
    (hclose : ¬ClosesAgain c req) : Honest c req (openUart setAttrs c attrs req) ↔
      Configured c req (openUart setAttrs c attrs req) := by
  have hrest := @openUart_of_not_closesAgain setAttrs c req attrs hdev hfd hclose
  constructor
  · intro h
    by_contra hno
    have hopened := h.clean fun hret => hno (h.ret.1 hret)
    rw [hrest] at hopened
    have hmem := hopened ▸ openRet_mem_setPoll (c := c) req.timeout
    cases hmem
  · intro h
    obtain ⟨hcreate, hctl⟩ := (setPoll_watched _).1 (hrest ▸ h.watched)
    have hret : (openUart setAttrs c attrs req).ret = c.openRet := by
      rw [hrest, setPoll_of_watched _ hcreate hctl]
    have hpos : 0 < (openUart setAttrs c attrs req).ret := hret ▸ hfd
    exact ⟨iff_of_true hpos h, fun _ => hret, fun hno => absurd hpos hno⟩

/-- For every request, every port and every outcome of the system calls, of which a `tcsetattr`
that returns 0 sets all attributes, the call succeeds honestly and fails cleanly exactly when it
goes well. -/
theorem honest_iff (hall : SetsAll setAttrs) (c : UartCalls) (attrs : Termios)
    (req : UartRequest) : Honest c req (openUart setAttrs c attrs req) ↔ GoesWell c req := by
  cases hdev : req.dev with
  | false =>
    have hr : openUart setAttrs c attrs req = { ret := -2, attrs := attrs } := by
      rw [openUart, hdev]
      rfl
    rw [hr]
    have hret : (-2 : ℤ) < 0 := by omega
    refine iff_of_true ?_ (.inl hdev)
    exact honest_of_opened_eq_nil hret rfl
  | true =>
    rcases lt_trichotomy c.openRet 0 with hneg | hzero | hfd
    · have hr : openUart setAttrs c attrs req = { ret := c.openRet, attrs := attrs } := by
        simp [openUart, hdev, hneg]
      rw [hr]
      exact iff_of_true (honest_of_opened_eq_nil hneg rfl) (.inr (.inl hneg))
    · have hr : openUart setAttrs c attrs req = { ret := 0, attrs := attrs, opened := [0] } := by
        simp [openUart, hdev, hzero]
      rw [hr]
      refine iff_of_false (fun h => ?_) ?_
      · exact absurd (h.clean (lt_irrefl 0)) (List.cons_ne_nil 0 [])
      · simp [GoesWell, hdev, hzero]
    · have hgoes : GoesWell c req ↔ ClosesAgain c req ∨ Settable req ∧ Succeeds c := by
        simp [GoesWell, hdev, hfd, hfd.not_gt]
      rw [hgoes]
      by_cases hclose : ClosesAgain c req
      · obtain ⟨hret, hopened⟩ := openUart_of_closesAgain attrs hdev hfd hclose
        exact iff_of_true (honest_of_opened_eq_nil hret hopened) (.inl hclose)
      · rw [or_iff_right hclose, honest_iff_configured attrs hdev hfd hclose,
          configured_iff hall attrs hdev hfd hclose]

/-- The attributes of some port. -/
def somePort : Termios :=
  ⟨9600, 9600, 8, false, false, false, false, false, true, true, true, true, true, true, true, 0, 1⟩

/-- Every call succeeds, and the port and the epoll instance are 3 and 4. -/
def allSucceed : UartCalls :=
  ⟨3, 0, somePort, 0, 0, 0, 0, 4, 0⟩

/-- A `tcsetattr` that leaves the attributes alone where it fails. -/
def setOrKeep : SetAttrs := fun ret attrs options => if ret = 0 then options else attrs

theorem setsAll_setOrKeep : SetsAll setOrKeep := fun _ _ => rfl

/-- A port of 115200 baud, 8 data bits, 2 stop bits and odd parity is honestly open, and one whose
flags are not set is honestly closed. -/
theorem honest_iff_odd :
    Honest allSucceed ⟨true, 115200, 8, 2, 79, 10⟩
        (openUart setOrKeep allSucceed somePort ⟨true, 115200, 8, 2, 79, 10⟩) ∧
      Honest { allSucceed with flagSet := -1 } ⟨true, 115200, 8, 2, 79, 10⟩
        (openUart setOrKeep { allSucceed with flagSet := -1 } somePort
          ⟨true, 115200, 8, 2, 79, 10⟩) := by
  refine ⟨(honest_iff setsAll_setOrKeep _ _ _).2 (.inr (.inr ⟨by decide, .inr ⟨?_, ?_⟩⟩)),
    (honest_iff setsAll_setOrKeep _ _ _).2 (.inr (.inr ⟨by decide, .inl (.inr (.inr ?_))⟩))⟩
  · exact ⟨by decide, by decide, by decide, by decide⟩
  · exact ⟨rfl, by decide, rfl⟩
  · decide

/-- 12345 baud are not set, and the descriptor is returned. -/
theorem not_honest :
    ¬∀ setAttrs : SetAttrs, SetsAll setAttrs → ∀ (c : UartCalls) (attrs : Termios)
      (req : UartRequest), Honest c req (openUart setAttrs c attrs req) := by
  intro h
  have hhonest := h setOrKeep setsAll_setOrKeep allSucceed somePort
    { baud := 12345, dataBits := 8, stopBits := 1, parity := 78, timeout := 10 }
  have hconf := hhonest.ret.1 (by decide)
  exact absurd hconf.supported (by decide)

/-! ## Ports that open well -/

/-- When every call succeeds, the return value, the descriptors and the variables are those of
a port whose calls all succeed. -/
theorem openUart_eq {ι : Type} (u : Uart ι) (k : Kernel) (others : List ℤ) (port : ι)
    (hdev : req.dev = true) (hclose : ¬ClosesAgain c req) (hctl : c.epollCtl = 0)
    (hfd : c.openRet = k.fresh (others ++ u.fds))
    (hefd : c.epollCreate = k.fresh (others ++ c.openRet :: u.fds)) :
    (u.openUart k others port req.timeout).2 = (openUart setAttrs c attrs req).ret ∧
      (u.openUart k others port req.timeout).1.fds =
        (openUart setAttrs c attrs req).opened ++ u.fds ∧
      some (u.openUart k others port req.timeout).1.fdEpoll =
        (openUart setAttrs c attrs req).fdEpoll ∧
      some (u.openUart k others port req.timeout).1.pollTimeOut =
        (openUart setAttrs c attrs req).pollTimeOut := by
  have hpos : 0 < c.openRet := hfd ▸ k.fresh_pos _
  have hepos : 0 < c.epollCreate := hefd ▸ k.fresh_pos _
  rw [openUart_of_not_closesAgain attrs hdev hpos hclose, setPoll_of_watched _ hepos.le hctl,
    hefd, hfd]
  exact ⟨rfl, rfl, rfl, rfl⟩

end UartOpen

end Mastiff.Device

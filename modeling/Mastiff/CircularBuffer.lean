import Mastiff.Lib.Machine
import Mastiff.Lib.Ring

/-!
# The circular buffer of the byte-stream parsers

`CircularBuffer` (`parser/circular_buffer.h`) holds the bytes of a serial stream between
the driver and a parser : `push` stores a chunk, dropping old bytes when it does not fit,
`readSafely` copies everything stored without consuming it, `restore` releases a prefix.

`head = tail` means empty or full; `capacityFree` tells which. `Holds c q` is the index
invariant with the list `q` of stored elements, and `push_spec`, `restore_of_le`,
`restore_of_lt` and `readSafely_spec` say what the operations do to `q` at every offset.
With `tryRun_refines` a run of operations is a run of the drop-oldest queue
(`refines_dropOldest`).

The index arithmetic is the code's `int` arithmetic, and from capacity `2 ^ 30 + 1` on the
sum `tail_ + len` can leave the type (`readSafely_overflow`). The timed waits are not
modelled : on the runs of these operations their predicates hold when they are reached.
-/

set_option linter.unusedSectionVars false

open Memory Machine Ring

namespace Mastiff

/-! ## The buffer and its operations -/

/-- `CircularBuffer<T>` without its locks, condition variables and statistics. -/
structure CircularBuffer (T : Type) where
  data : List T
  isClosed : Bool
  head : ℕ
  tail : ℕ
  capacityCbuf : ℕ
  capacityFree : ℤ

namespace CircularBuffer

variable {T : Type}

/-- `CircularBuffer(s, dev)` : `s` cells, closed. -/
def new [Inhabited T] (s : ℕ) : CircularBuffer T where
  data := List.replicate s default
  isClosed := true
  head := 0
  tail := 0
  capacityCbuf := s
  capacityFree := s

/-- `Open()`. -/
def opened (c : CircularBuffer T) : CircularBuffer T :=
  { c with isClosed := false }

/-- `CbufSize()`. -/
def cbufSize (c : CircularBuffer T) : ℤ :=
  c.capacityCbuf - c.capacityFree

/-- The copy loops of `ReadCore(p, len)`. -/
def readCells (c : CircularBuffer T) (p : List T) (len : ℕ) : Except Fault (List T) := do
  let stop ← intAdd c.tail len
  if c.tail < c.head ∨ stop ≤ c.capacityCbuf then
    copyLoop c.data len c.tail 0 p
  else
    let p ← copyLoop c.data (c.capacityCbuf - c.tail) c.tail 0 p
    copyLoop c.data (len + c.tail - c.capacityCbuf) 0 (c.capacityCbuf - c.tail) p

/-- `ReadCore(p, len)`. A vector sized once has its size as capacity. -/
def readCore (c : CircularBuffer T) (p : List T) (len : ℕ) : Except Fault (List T) :=
  if c.isClosed then .ok p
  else if len ≤ c.data.length ∨ len ≤ c.capacityCbuf then c.readCells p len
  else .error .checkFailed

/-- The loop of `WriteCore(val, len)`. -/
def writeLoop (c : CircularBuffer T) : List T → Except Fault (CircularBuffer T)
  | [] => .ok c
  | x :: xs => do
    let data ← writeAt c.data c.head x
    writeLoop { c with
      data := data
      head := (c.head + 1) % c.capacityCbuf
      capacityFree := c.capacityFree - 1 } xs

/-- `WriteCore(val, len)`, `val` the `len` elements. -/
def writeCore (c : CircularBuffer T) (val : List T) : Except Fault (CircularBuffer T) :=
  if c.isClosed then .ok c
  else if 0 < val.length ∧ val.length ≤ c.capacityCbuf then c.writeLoop val
  else .error .checkFailed

/-- Both resetting branches of `Restore(len)`. -/
def reset (c : CircularBuffer T) : CircularBuffer T :=
  { c with tail := 0, head := 0, capacityFree := c.capacityCbuf }

/-- `Restore(len)`, with its return value. -/
def restore (c : CircularBuffer T) (len : ℕ) : Except Fault (Bool × CircularBuffer T) := do
  let past ← intAdd c.cbufSize 1
  if (len : ℤ) = past then
    return (true, c.reset)
  else if c.cbufSize < len then
    return (false, c.reset)
  else
    let tail ← intAdd c.tail len
    return (true, { c with
      tail := (tail % c.capacityCbuf).toNat
      capacityFree := c.capacityFree + len })

/-- `Push(val, len)`, with its return value. -/
def push (c : CircularBuffer T) (val : List T) : Except Fault (Bool × CircularBuffer T) :=
  if c.isClosed then .ok (false, c)
  else do
    let c ← if c.capacityFree < val.length then do
        let need ← intAdd val.length (-c.capacityFree)
        let r ← c.restore need.toNat
        pure r.2
      else pure c
    let c ← c.writeCore val
    return (true, c)

/-- `ReadSafely(p)`, with its return value. It assigns no member of the buffer. -/
def readSafely (c : CircularBuffer T) (p : List T) : Except Fault (Bool × List T) :=
  if c.isClosed then .ok (true, p)
  else do
    let p ← c.readCore p c.cbufSize.toNat
    return (true, p)

/-! ## The index invariant -/

/-- The opened buffer `c` stores the elements `q`, oldest first. -/
structure Holds (c : CircularBuffer T) (q : List T) : Prop where
  isOpen : c.isClosed = false
  size : c.data.length = c.capacityCbuf
  tail_lt : c.tail < c.capacityCbuf
  head_eq : c.head = (c.tail + q.length) % c.capacityCbuf
  free_eq : c.capacityFree = c.capacityCbuf - q.length
  window : Window c.data c.tail q

namespace Holds

variable {c : CircularBuffer T} {q : List T}

theorem length_le (h : c.Holds q) : q.length ≤ c.capacityCbuf :=
  h.size ▸ h.window.length_le

theorem cbufSize_eq (h : c.Holds q) : c.cbufSize = q.length := by
  rw [cbufSize, h.free_eq]
  omega

end Holds

/-- A new buffer, opened, is empty. -/
theorem holds_new [Inhabited T] {cap : ℕ} (hpos : 0 < cap) :
    ((new cap : CircularBuffer T).opened).Holds [] where
  isOpen := rfl
  size := by simp [opened, new]
  tail_lt := hpos
  head_eq := by simp [opened, new]
  free_eq := by simp [opened, new]
  window := Window.nil _ _

/-- Every way `Restore` empties the buffer. -/
theorem Holds.reset {c : CircularBuffer T} {q : List T} (h : c.Holds q) : c.reset.Holds [] where
  isOpen := h.isOpen
  size := h.size
  tail_lt := by
    have := h.tail_lt
    simp only [CircularBuffer.reset]
    omega
  head_eq := by simp [CircularBuffer.reset]
  free_eq := by simp [CircularBuffer.reset]
  window := Window.nil _ _

/-! ## What the operations do -/

variable {c : CircularBuffer T} {q : List T}

/-- Writing elements there is room for appends them. -/
theorem writeLoop_spec :
    ∀ (val : List T) {c : CircularBuffer T} {q : List T}, c.Holds q →
      q.length + val.length ≤ c.capacityCbuf →
      ∃ c', c.writeLoop val = .ok c' ∧ c'.Holds (q ++ val) ∧ c'.tail = c.tail ∧
        c'.capacityCbuf = c.capacityCbuf
  | [], c, q, h, _ => ⟨c, rfl, by simpa using h, rfl, rfl⟩
  | x :: val, c, q, h, hle => by
    simp only [List.length_cons] at hle
    have hpos : 0 < c.capacityCbuf := by omega
    have hhead : c.head < c.data.length := by
      rw [h.size, h.head_eq]
      exact Nat.mod_lt _ hpos
    have hstep : ({ c with
        data := c.data.set c.head x
        head := (c.head + 1) % c.capacityCbuf
        capacityFree := c.capacityFree - 1 } : CircularBuffer T).Holds (q ++ [x]) := by
      refine ⟨h.isOpen, by simpa using h.size, h.tail_lt, ?_, ?_, ?_⟩
      · simp only [h.head_eq, Nat.mod_add_mod, List.length_append, List.length_singleton,
          Nat.add_assoc]
      · simp only [h.free_eq, List.length_append, List.length_singleton]
        omega
      · have hw := h.window.snoc x (by rw [h.size]; omega)
        rwa [h.size, ← h.head_eq] at hw
    obtain ⟨c', hc', hq', ht', hcap'⟩ := writeLoop_spec val hstep (by simp; omega)
    refine ⟨c', ?_, by simpa using hq', ht', hcap'⟩
    rw [writeLoop, writeAt_of_lt x hhead, ok_bind, hc']

theorem writeCore_spec {val : List T} (h : c.Holds q) (hpos : 0 < val.length)
    (hle : q.length + val.length ≤ c.capacityCbuf) :
    ∃ c', c.writeCore val = .ok c' ∧ c'.Holds (q ++ val) ∧ c'.tail = c.tail ∧
      c'.capacityCbuf = c.capacityCbuf := by
  obtain ⟨c', hc', hq', ht', hcap'⟩ := writeLoop_spec val h hle
  refine ⟨c', ?_, hq', ht', hcap'⟩
  rw [writeCore, h.isOpen, if_neg (by simp), if_pos ⟨hpos, by omega⟩, hc']

/-- The tail after `n` elements, computed on the type of the indices. -/
theorem toNat_tail (c : CircularBuffer T) (n : ℕ) :
    (((c.tail : ℤ) + n) % (c.capacityCbuf : ℤ)).toNat = (c.tail + n) % c.capacityCbuf := by
  rw [← Int.natCast_add, ← Int.natCast_mod, Int.toNat_natCast]

/-- Moving the tail past a stored prefix drops it. -/
theorem Holds.advance {n : ℕ} (h : c.Holds q) (hn : n ≤ q.length) :
    Holds { c with
      tail := (((c.tail : ℤ) + n) % (c.capacityCbuf : ℤ)).toNat
      capacityFree := c.capacityFree + n } (q.drop n) := by
  have hpos : 0 < c.capacityCbuf := lt_of_le_of_lt (Nat.zero_le _) h.tail_lt
  refine ⟨h.isOpen, h.size, ?_, ?_, ?_, ?_⟩
  · simp only [c.toNat_tail]
    exact Nat.mod_lt _ hpos
  · simp only [c.toNat_tail, Nat.mod_add_mod, List.length_drop, h.head_eq]
    congr 1
    omega
  · simp only [h.free_eq, List.length_drop]
    omega
  · have hw := h.window.drop n
    simp only [c.toNat_tail]
    rwa [h.size] at hw

/-- Releasing a stored prefix moves the tail past it. -/
theorem restore_of_le {n : ℕ} (h : c.Holds q) (hn : n ≤ q.length)
    (hsize : q.length + 1 ≤ intMax) (hsum : c.tail + n ≤ intMax) :
    ∃ c', c.restore n = .ok (true, c') ∧ c'.Holds (q.drop n) ∧
      c'.tail = (c.tail + n) % c.capacityCbuf ∧ c'.capacityCbuf = c.capacityCbuf := by
  refine ⟨{ c with
    tail := (((c.tail : ℤ) + n) % (c.capacityCbuf : ℤ)).toNat
    capacityFree := c.capacityFree + n }, ?_, h.advance hn, c.toNat_tail n, rfl⟩
  rw [restore, h.cbufSize_eq, intAdd_of_le (by omega) (by omega), ok_bind, if_neg (by omega),
    if_neg (by omega), intAdd_of_le (by omega) (by omega)]
  rfl

/-- Releasing more than is stored empties the buffer, and one element more than is
stored is not reported as an error. -/
theorem restore_of_lt {n : ℕ} (h : c.Holds q) (hn : q.length < n) (hsize : q.length + 1 ≤ intMax) :
    c.restore n = .ok (decide (n = q.length + 1), c.reset) := by
  rw [restore, h.cbufSize_eq, intAdd_of_le (by omega) (by omega), ok_bind]
  by_cases hone : n = q.length + 1
  · rw [if_pos (by omega)]
    simp [hone]
  · rw [if_neg (by omega), if_pos (by omega)]
    simp [hone]

/-- A window that wraps ends at or before its start. -/
theorem Holds.fit_of_lt (h : c.Holds q) (hlt : c.tail < c.head) :
    c.tail + q.length ≤ c.capacityCbuf := by
  by_contra hgt
  rw [h.head_eq, Nat.mod_eq_sub_mod (by omega)] at hlt
  have hle := Nat.mod_le (c.tail + q.length - c.capacityCbuf) c.capacityCbuf
  have hlen := h.length_le
  omega

/-- Reading copies what is stored, whether or not it wraps at the end of the block. -/
theorem readSafely_spec {p : List T} (h : c.Holds q) (hp : p.length = q.length)
    (hsum : c.tail + q.length ≤ intMax) : c.readSafely p = .ok (true, q) := by
  have hlen := h.length_le
  have hread : c.readCells p q.length = .ok q := by
    rw [readCells, intAdd_of_le (by omega) (by omega), ok_bind]
    split_ifs with hone
    · have hfit : c.tail + q.length ≤ c.data.length := by
        rw [h.size]
        rcases hone with hlt | hle
        · exact h.fit_of_lt hlt
        · omega
      rw [← hp, copyLoop_fill (by omega), hp, h.window.eq_take hfit]
    · obtain ⟨-, hgt⟩ := not_or.1 hone
      have htail := h.tail_lt
      have hsize := h.size
      have hq := h.window.eq_wrap (by omega) (by omega)
      rw [Nat.add_comm c.tail] at hq
      rw [← hsize, copyLoop_wrap (by omega) (by omega), hq]
  rw [readSafely, h.isOpen, if_neg (by simp), h.cbufSize_eq, Int.toNat_natCast, readCore,
    h.isOpen, if_neg (by simp), if_pos (Or.inr hlen), hread]
  rfl

/-- A buffer whose tail and content add up to more than an `int` cannot be read. -/
theorem readSafely_overflow {p : List T} (h : c.Holds q) (hsum : intMax < c.tail + q.length) :
    c.readSafely p = .error .intOverflow := by
  rw [readSafely, h.isOpen, if_neg (by simp), h.cbufSize_eq, Int.toNat_natCast, readCore,
    h.isOpen, if_neg (by simp), if_pos (Or.inr h.length_le), readCells,
    intAdd_of_lt (by omega)]
  rfl

/-- The sums of a release that goes through fit. -/
theorem le_of_restore_eq_ok {n : ℕ} {r : Bool × CircularBuffer T} (h : c.Holds q)
    (hn : n ≤ q.length) (hr : c.restore n = .ok r) :
    q.length + 1 ≤ intMax ∧ c.tail + n ≤ intMax := by
  rw [restore, h.cbufSize_eq] at hr
  by_cases hsize : q.length + 1 ≤ intMax
  · refine ⟨hsize, ?_⟩
    by_contra hsum
    rw [intAdd_of_le (by omega) (by omega), ok_bind, if_neg (by omega), if_neg (by omega),
      intAdd_of_lt (by omega)] at hr
    cases hr
  · rw [intAdd_of_lt (by omega)] at hr
    cases hr

/-- A release that does not leave the type of the indices drops the released prefix. -/
theorem restore_eq_ok {n : ℕ} {r : Bool × CircularBuffer T} (h : c.Holds q) (hn : n ≤ q.length)
    (hr : c.restore n = .ok r) : r.2.Holds (q.drop n) := by
  obtain ⟨hsize, hsum⟩ := le_of_restore_eq_ok h hn hr
  obtain ⟨c', hc', hq', -⟩ := restore_of_le h hn hsize hsum
  rw [hc'] at hr
  rw [← Except.ok.inj hr]
  exact hq'

/-- A read that does not leave the type of the indices reads what is stored. -/
theorem readSafely_eq_ok {p : List T} {r : Bool × List T} (h : c.Holds q)
    (hp : p.length = q.length) (hr : c.readSafely p = .ok r) : r = (true, q) := by
  by_cases hsum : c.tail + q.length ≤ intMax
  · rw [readSafely_spec h hp hsum] at hr
    exact (Except.ok.inj hr).symm
  · rw [readSafely_overflow h (Nat.lt_of_not_le hsum)] at hr
    cases hr

/-- Pushing elements there is room for appends them and leaves the tail. -/
theorem push_of_room {val : List T} (h : c.Holds q) (hpos : 0 < val.length)
    (hle : q.length + val.length ≤ c.capacityCbuf) :
    ∃ c', c.push val = .ok (true, c') ∧ c'.Holds (q ++ val) ∧ c'.tail = c.tail ∧
      c'.capacityCbuf = c.capacityCbuf := by
  obtain ⟨c', hc', hq', ht', hcap'⟩ := writeCore_spec h hpos hle
  refine ⟨c', ?_, hq', ht', hcap'⟩
  have hroom : ¬c.capacityFree < val.length := by
    rw [h.free_eq]
    omega
  rw [push, h.isOpen, if_neg (by simp), if_neg hroom]
  simp only [pure_eq_ok, ok_bind, hc']

/-- A push there is room for that goes through appends its elements. -/
theorem push_eq_ok {val : List T} {r : Bool × CircularBuffer T} (h : c.Holds q)
    (hle : q.length + val.length ≤ c.capacityCbuf) (hr : c.push val = .ok r) :
    r.2.Holds (q ++ val) ∧ r.2.capacityCbuf = c.capacityCbuf := by
  rcases Nat.eq_zero_or_pos val.length with hzero | hpos
  · have hroom : ¬c.capacityFree < val.length := by
      rw [h.free_eq]
      omega
    have hwrite : c.writeCore val = .error .checkFailed := by
      rw [writeCore, h.isOpen, if_neg (by simp), if_neg (by omega)]
    rw [push, h.isOpen, if_neg (by simp), if_neg hroom] at hr
    simp only [pure_eq_ok, ok_bind, hwrite] at hr
    cases hr
  · obtain ⟨c', hc', hq', -, hcap'⟩ := push_of_room h hpos hle
    rw [hc'] at hr
    obtain rfl := Except.ok.inj hr
    exact ⟨hq', hcap'⟩

/-- A release keeps the capacity. -/
theorem restore_capacityCbuf {n : ℕ} {r : Bool × CircularBuffer T} (hr : c.restore n = .ok r) :
    r.2.capacityCbuf = c.capacityCbuf := by
  rw [restore] at hr
  obtain ⟨past, -, hr⟩ := bind_eq_ok.1 hr
  split_ifs at hr
  · obtain rfl := Except.ok.inj hr
    rfl
  · obtain rfl := Except.ok.inj hr
    rfl
  · obtain ⟨tail, -, hr⟩ := bind_eq_ok.1 hr
    obtain rfl := Except.ok.inj hr
    rfl

/-- Pushing keeps the last `capacityCbuf` of what was stored and what arrives. -/
theorem push_spec {val : List T} (h : c.Holds q) (hpos : 0 < val.length)
    (hle : val.length ≤ c.capacityCbuf) (hcap : c.capacityCbuf ≤ 2 ^ 30) :
    ∃ c', c.push val = .ok (true, c') ∧ c'.Holds (pushLast c.capacityCbuf q val) ∧
      c'.capacityCbuf = c.capacityCbuf := by
  have hmax : intMax = 2 ^ 31 - 1 := rfl
  rcases Nat.lt_or_ge c.capacityCbuf (q.length + val.length) with hfull | hroom
  · have hlen := h.length_le
    have htail := h.tail_lt
    obtain ⟨c₁, hc₁, hq₁, -, hcap₁⟩ :=
      restore_of_le (n := q.length + val.length - c.capacityCbuf) h (by omega) (by omega) (by omega)
    obtain ⟨c₂, hc₂, hq₂, -, hcap₂⟩ :=
      writeCore_spec hq₁ hpos (by rw [hcap₁, List.length_drop]; omega)
    refine ⟨c₂, ?_, ?_, hcap₂.trans hcap₁⟩
    · have hneed : ((val.length : ℤ) + -c.capacityFree).toNat =
          q.length + val.length - c.capacityCbuf := by
        rw [h.free_eq]
        omega
      have hless : c.capacityFree < val.length := by
        rw [h.free_eq]
        omega
      have hadd : intAdd val.length (-c.capacityFree) = .ok (val.length + -c.capacityFree) := by
        rw [h.free_eq]
        exact intAdd_of_le (by omega) (by omega)
      rw [push, h.isOpen, if_neg (by simp), if_pos hless, hadd, ok_bind, hneed, hc₁]
      simp only [ok_bind, pure_eq_ok, hc₂]
    · rw [pushLast_eq_drop hle hfull.le]
      exact hq₂
  · obtain ⟨c', hc', hq', -, hcap'⟩ := push_of_room h hpos hroom
    rw [pushLast_of_le hroom]
    exact ⟨c', hc', hq', hcap'⟩

/-! ## Runs of operations -/

/-- The operations the byte-stream parsers use, each atomic under the buffer's mutex. -/
inductive Op (T : Type)
  | push (val : List T)
  | readSafely
  | restore (n : ℕ)
  | cbufSize

/-- What a caller sees of an operation. -/
inductive Ret (T : Type)
  | push (ok : Bool)
  | readSafely (ok : Bool) (p : List T)
  | restore (ok : Bool)
  | cbufSize (n : ℤ)

/-- A chunk fits the buffer. -/
def Op.Admissible (cap : ℕ) : Op T → Prop
  | .push val => 0 < val.length ∧ val.length ≤ cap
  | _ => True

/-- One operation, `readSafely` into a vector of `CbufSize()` elements. -/
def step [Inhabited T] (c : CircularBuffer T) : Op T → Except Fault (CircularBuffer T × Ret T)
  | .push val => do
    let r ← c.push val
    return (r.2, .push r.1)
  | .readSafely => do
    let r ← c.readSafely (List.replicate c.cbufSize.toNat default)
    return (c, .readSafely r.1 r.2)
  | .restore n => do
    let r ← c.restore n
    return (r.2, .restore r.1)
  | .cbufSize => .ok (c, .cbufSize c.cbufSize)

/-- The operations on the queue of stored elements : keep the last `cap`, read all,
drop a prefix, count. -/
def fifoStep (cap : ℕ) (q : List T) : Op T → List T × Ret T
  | .push val => (pushLast cap q val, .push true)
  | .readSafely => (q, .readSafely true q)
  | .restore n => (q.drop n, .restore (n ≤ q.length + 1))
  | .cbufSize => (q, .cbufSize q.length)

/-- One operation of a buffer that holds `q` is the queue's operation. -/
theorem step_refines [Inhabited T] (hcap : c.capacityCbuf ≤ 2 ^ 30) (h : c.Holds q) (op : Op T)
    (hop : op.Admissible c.capacityCbuf) :
    ∃ c', c.step op = .ok (c', (fifoStep c.capacityCbuf q op).2) ∧
      c'.Holds (fifoStep c.capacityCbuf q op).1 ∧ c'.capacityCbuf = c.capacityCbuf := by
  have hmax : intMax = 2 ^ 31 - 1 := rfl
  have hlen := h.length_le
  have htail := h.tail_lt
  cases op with
  | push val =>
    obtain ⟨c', hc', hq', hcap'⟩ := push_spec h hop.1 hop.2 hcap
    exact ⟨c', by rw [step, hc']; rfl, hq', hcap'⟩
  | readSafely =>
    have hread := readSafely_spec (p := List.replicate c.cbufSize.toNat default) h
      (by rw [h.cbufSize_eq]; simp) (by omega)
    exact ⟨c, by rw [step, hread]; rfl, h, rfl⟩
  | restore n =>
    rcases Nat.lt_or_ge q.length n with hn | hn
    · refine ⟨c.reset, ?_, ?_, rfl⟩
      · have hret : decide (n = q.length + 1) = decide (n ≤ q.length + 1) := by
          apply decide_eq_decide.2
          omega
        rw [step, restore_of_lt h hn (by omega), hret]
        rfl
      · rw [fifoStep, List.drop_eq_nil_of_le hn.le]
        exact h.reset
    · obtain ⟨c', hc', hq', -, hcap'⟩ := restore_of_le h hn (by omega) (by omega)
      refine ⟨c', ?_, hq', hcap'⟩
      have hret : decide (n ≤ q.length + 1) = true := by simp; omega
      rw [step, hc', fifoStep, hret]
      rfl
  | cbufSize => exact ⟨c, by rw [step, h.cbufSize_eq]; rfl, h, rfl⟩

/-- From the empty buffer of any capacity up to `2 ^ 30`, every run of operations is a
run of the drop-oldest queue : nothing fails, the callers see the queue's answers, and
the buffer goes on holding the queue. -/
theorem refines_dropOldest [Inhabited T] {cap : ℕ} (hpos : 0 < cap) (hcap : cap ≤ 2 ^ 30)
    (ops : List (Op T)) (hops : ∀ op ∈ ops, op.Admissible cap) :
    ∃ c : CircularBuffer T,
      tryRun step (new cap).opened ops = .ok (c, (run (fifoStep cap) [] ops).2) ∧
        c.Holds (run (fifoStep cap) [] ops).1 ∧ (run (fifoStep cap) [] ops).1.length ≤ cap := by
  have hsim : ∀ (c : CircularBuffer T) (q : List T) (op : Op T),
      c.Holds q ∧ c.capacityCbuf = cap → op.Admissible cap →
        ∃ c', step c op = .ok (c', (fifoStep cap q op).2) ∧
          c'.Holds (fifoStep cap q op).1 ∧ c'.capacityCbuf = cap := by
    rintro c q op ⟨h, rfl⟩ hop
    exact step_refines hcap h op hop
  obtain ⟨c, hc, hq, hcap'⟩ := tryRun_refines
    (fun (c : CircularBuffer T) q => c.Holds q ∧ c.capacityCbuf = cap) (Op.Admissible cap)
    hsim ops hops ⟨holds_new hpos, rfl⟩
  exact ⟨c, hc, hq, hcap' ▸ hq.length_le⟩

/-- Two chunks through a buffer of three cells, the second over the wrap. -/
theorem refines_dropOldest_wrap :
    ∃ c : CircularBuffer ℕ,
      tryRun step (new 3).opened [.push [1, 2], .restore 1, .push [3, 4, 5], .readSafely] =
        .ok (c, [.push true, .restore true, .push true, .readSafely true [3, 4, 5]]) ∧
        c.Holds [3, 4, 5] ∧ [3, 4, 5].length ≤ 3 :=
  refines_dropOldest (by decide) (by decide)
    [.push [1, 2], .restore 1, .push [3, 4, 5], .readSafely] (by simp [Op.Admissible])

/-- A run that reads a full buffer of `k + 1` cells from tail `k`. -/
theorem tryRun_overflow [Inhabited T] {k : ℕ} (hk : k + 2 ≤ intMax) (hover : intMax < 2 * k + 1)
    (x : T) :
    tryRun step (new (k + 1) : CircularBuffer T).opened
        [.push (List.replicate (k + 1) x), .restore k, .push (List.replicate k x), .readSafely] =
      .error .intOverflow := by
  have hnew : ((new (k + 1) : CircularBuffer T).opened).Holds [] := holds_new (by omega)
  obtain ⟨c₁, hc₁, hq₁, ht₁, hcap₁⟩ : ∃ c', (new (k + 1) : CircularBuffer T).opened.push
      (List.replicate (k + 1) x) = .ok (true, c') ∧ c'.Holds ([] ++ List.replicate (k + 1) x) ∧
      c'.tail = 0 ∧ c'.capacityCbuf = k + 1 :=
    push_of_room hnew (by simp) (by simp [opened, new])
  obtain ⟨c₂, hc₂, hq₂, ht₂, hcap₂⟩ := restore_of_le (n := k) hq₁ (by simp) (by simp; omega)
    (by omega)
  rw [ht₁, hcap₁, Nat.zero_add, Nat.mod_eq_of_lt (by omega)] at ht₂
  obtain ⟨c₃, hc₃, hq₃, ht₃, -⟩ : ∃ c', c₂.push (List.replicate k x) = .ok (true, c') ∧
      c'.Holds (([] ++ List.replicate (k + 1) x).drop k ++ List.replicate k x) ∧
      c'.tail = c₂.tail ∧ c'.capacityCbuf = c₂.capacityCbuf :=
    push_of_room hq₂ (by simp; omega) (by rw [hcap₂, hcap₁]; simp; omega)
  have hread := readSafely_overflow (p := List.replicate c₃.cbufSize.toNat default) hq₃
    (by rw [ht₃, ht₂]; simp; omega)
  have h₁ : step (new (k + 1)).opened (.push (List.replicate (k + 1) x)) =
      .ok (c₁, .push true) := by
    rw [step, hc₁]
    rfl
  have h₂ : step c₁ (.restore k) = .ok (c₂, .restore true) := by
    rw [step, hc₂]
    rfl
  have h₃ : step c₂ (.push (List.replicate k x)) = .ok (c₃, .push true) := by
    rw [step, hc₃]
    rfl
  rw [tryRun_cons_of_ok h₁, tryRun_cons_of_ok h₂, tryRun_cons_of_ok h₃, tryRun, step, hread]
  rfl

/-- At capacity `2 ^ 30 + 1` a run of admissible operations leaves the `int` arithmetic. -/
theorem not_refines_dropOldest :
    ¬∀ (cap : ℕ), 0 < cap → ∀ ops : List (Op UInt8), (∀ op ∈ ops, op.Admissible cap) →
      ∃ c : CircularBuffer UInt8,
        tryRun step (new cap).opened ops = .ok (c, (run (fifoStep cap) [] ops).2) := by
  intro h
  obtain ⟨k, hk⟩ : ∃ k : ℕ, k = 2 ^ 30 := ⟨_, rfl⟩
  have hmax : intMax = 2 ^ 31 - 1 := rfl
  obtain ⟨c, hc⟩ := h (k + 1) (by omega)
    [.push (List.replicate (k + 1) 0), .restore k, .push (List.replicate k 0), .readSafely]
    (by simp [Op.Admissible]; omega)
  rw [tryRun_overflow (by omega) (by omega)] at hc
  cases hc

end CircularBuffer

end Mastiff

import Mastiff.CircularBuffer

/-!
# Every operation of the circular buffer

All public operations of `CircularBuffer`, each timed wait ending without its condition.
A wait whose condition is met is the same run with the operations of the other threads
before it. `Rep` is the representation invariant. `rep_iff` : over a run of operations on
an opened buffer every operation returns and keeps it exactly when every operation `Keeps`
it, a condition on the buffer before it. `Push` of a single element and `Read` of a given
length go on after a wait that failed.
-/

set_option linter.unusedSectionVars false

open Memory Machine Ring

namespace Mastiff

namespace CircularBuffer

variable {T : Type}

/-! ## The other operations -/

/-- `Push(val)` of a single element. -/
def pushOne (c : CircularBuffer T) (x : T) : Except Fault (Bool × CircularBuffer T) :=
  if c.isClosed then .ok (false, c)
  else do
    let c ← c.writeCore [x]
    return (true, c)

/-- `Read(p)`. -/
def readAll (c : CircularBuffer T) (p : List T) : Except Fault (Bool × List T × CircularBuffer T) :=
  if c.isClosed then .ok (true, p, c)
  else do
    let p ← c.readCore p c.cbufSize.toNat
    return (true, p, { c with tail := c.head, capacityFree := c.capacityCbuf })

/-- `Read(p, len)`. -/
def readLen (c : CircularBuffer T) (p : List T) (len : ℕ) :
    Except Fault (Bool × List T × CircularBuffer T) :=
  if c.isClosed then .ok (true, p, c)
  else do
    let p ← c.readCore p len
    let tail ← intAdd c.tail len
    return (true, p, { c with
      tail := (tail % c.capacityCbuf).toNat
      capacityFree := c.capacityFree + len })

/-- `ReadSafely(p, len)`, which returns `false` for a read that succeeded. -/
def readSafelyLen (c : CircularBuffer T) (p : List T) (len : ℕ) : Except Fault (Bool × List T) :=
  if c.isClosed then .ok (true, p)
  else do
    let p ← c.readCore p len
    return (false, p)

/-- `Restore(len)` of any `int`. The remainder is the code's, which has the sign of its
dividend, and a tail below zero is no cell of the block. -/
def restoreInt (c : CircularBuffer T) (len : ℤ) : Except Fault (Bool × CircularBuffer T) := do
  let past ← intAdd c.cbufSize 1
  if len = past then
    return (true, c.reset)
  else if c.cbufSize < len then
    return (false, c.reset)
  else
    let tail ← intAdd c.tail len
    if tail.tmod c.capacityCbuf < 0 then .error (.outOfBounds 0 c.data.length)
    else
      return (true, { c with
        tail := (tail.tmod c.capacityCbuf).toNat
        capacityFree := c.capacityFree + len })

/-- `Restore()`. -/
def restoreAll (c : CircularBuffer T) : Except Fault (Bool × CircularBuffer T) :=
  c.restoreInt c.cbufSize

/-- `SetCapacity(s)`. A size beyond `int` is no capacity. -/
def setCapacity [Inhabited T] (c : CircularBuffer T) (s : ℕ) : Except Fault (CircularBuffer T) :=
  if s ≤ intMax then
    .ok { c with
      data := c.data.take s ++ List.replicate (s - c.data.length) default
      capacityCbuf := s
      capacityFree := s
      head := 0
      tail := 0 }
  else .error .intOverflow

/-- The public operations. A vector is read into with the size that is read. -/
inductive PublicOp (T : Type)
  | pushOne (x : T)
  | push (val : List T)
  | read
  | readLen (len : ℕ)
  | readSafely
  | readSafelyLen (len : ℕ)
  | restoreAll
  | restore (len : ℤ)
  | setCapacity (s : ℕ)

/-- One operation, with its return value and what it read. -/
def publicStep [Inhabited T] (c : CircularBuffer T) :
    PublicOp T → Except Fault (CircularBuffer T × Bool × List T)
  | .pushOne x => do
    let r ← c.pushOne x
    return (r.2, r.1, [])
  | .push val => do
    let r ← c.push val
    return (r.2, r.1, [])
  | .read => do
    let r ← c.readAll (List.replicate c.cbufSize.toNat default)
    return (r.2.2, r.1, r.2.1)
  | .readLen len => do
    let r ← c.readLen (List.replicate len default) len
    return (r.2.2, r.1, r.2.1)
  | .readSafely => do
    let r ← c.readSafely (List.replicate c.cbufSize.toNat default)
    return (c, r)
  | .readSafelyLen len => do
    let r ← c.readSafelyLen (List.replicate len default) len
    return (c, r)
  | .restoreAll => do
    let r ← c.restoreAll
    return (r.2, r.1, [])
  | .restore len => do
    let r ← c.restoreInt len
    return (r.2, r.1, [])
  | .setCapacity s => do
    let c ← c.setCapacity s
    return (c, true, [])

/-! ## The representation invariant -/

/-- The representation invariant of an opened buffer, its capacity an `int`. -/
structure Rep (c : CircularBuffer T) : Prop where
  isOpen : c.isClosed = false
  size : c.data.length = c.capacityCbuf
  fits : c.capacityCbuf ≤ intMax
  free_nonneg : 0 ≤ c.capacityFree
  free_le : c.capacityFree ≤ c.capacityCbuf
  head_lt : c.head < c.capacityCbuf
  tail_lt : c.tail < c.capacityCbuf
  head_eq : (c.head : ℤ) % c.capacityCbuf =
    (c.tail + (c.capacityCbuf - c.capacityFree)) % c.capacityCbuf

variable {c : CircularBuffer T} {q : List T}

/-- A buffer that holds a list has the invariant. -/
theorem Holds.rep (h : c.Holds q) (hcap : c.capacityCbuf ≤ intMax) : Rep c where
  isOpen := h.isOpen
  size := h.size
  fits := hcap
  free_nonneg := by
    have := h.length_le
    rw [h.free_eq]
    omega
  free_le := by
    rw [h.free_eq]
    omega
  head_lt := by
    rw [h.head_eq]
    exact Nat.mod_lt _ (lt_of_le_of_lt (Nat.zero_le _) h.tail_lt)
  tail_lt := h.tail_lt
  head_eq := by
    have hstored : (c.capacityCbuf : ℤ) - c.capacityFree = q.length := by
      rw [h.free_eq]
      omega
    rw [hstored, h.head_eq, ← Int.natCast_add, ← Int.natCast_mod, ← Int.natCast_mod,
      Nat.mod_mod]

/-- A buffer with the invariant holds the list its cells show. -/
theorem Rep.exists_holds (h : Rep c) : ∃ q, c.Holds q := by
  have hpos : 0 < c.data.length := by
    rw [h.size]
    exact lt_of_le_of_lt (Nat.zero_le _) h.tail_lt
  obtain ⟨n, hn⟩ := Int.eq_ofNat_of_zero_le (Int.sub_nonneg_of_le h.free_le)
  have hfree := h.free_nonneg
  refine ⟨List.ofFn fun i : Fin n =>
    c.data.get ⟨(c.tail + i) % c.data.length, Nat.mod_lt _ hpos⟩, ?_⟩
  refine ⟨h.isOpen, h.size, h.tail_lt, ?_, ?_, ?_, ?_⟩
  · have hmod := h.head_eq
    rw [hn, ← Int.natCast_mod, Nat.mod_eq_of_lt h.head_lt] at hmod
    rw [List.length_ofFn]
    exact_mod_cast hmod
  · rw [List.length_ofFn]
    omega
  · rw [List.length_ofFn, h.size]
    omega
  · intro i hi
    rw [List.getElem_ofFn, List.getElem?_eq_getElem (Nat.mod_lt _ hpos)]
    rfl

/-! ## When an operation keeps it -/

/-- What the callers pass. -/
def PublicOp.Admissible (c : CircularBuffer T) : PublicOp T → Prop
  | .push val => 0 < val.length ∧ val.length ≤ c.capacityCbuf
  | .readLen len => len ≤ c.capacityCbuf
  | .readSafelyLen len => len ≤ c.capacityCbuf
  | .setCapacity s => 0 < s
  | _ => True

instance (c : CircularBuffer T) : ∀ op : PublicOp T, Decidable (op.Admissible c)
  | .push val => inferInstanceAs (Decidable (0 < val.length ∧ val.length ≤ c.capacityCbuf))
  | .readLen len | .readSafelyLen len => inferInstanceAs (Decidable (len ≤ c.capacityCbuf))
  | .setCapacity s => inferInstanceAs (Decidable (0 < s))
  | .pushOne _ | .read | .readSafely | .restoreAll | .restore _ => isTrue trivial

/-- The sums of the operation stay in the type of the indices. -/
def Fits (c : CircularBuffer T) : PublicOp T → Prop
  | .pushOne _ => True
  | .push val => c.capacityFree < val.length →
      c.cbufSize + 1 ≤ intMax ∧ c.tail + (val.length - c.capacityFree) ≤ intMax
  | .read => c.tail + c.cbufSize ≤ intMax
  | .readLen len => c.tail + len ≤ intMax
  | .readSafely => c.tail + c.cbufSize ≤ intMax
  | .readSafelyLen len => c.tail + len ≤ intMax
  | .restoreAll => c.cbufSize + 1 ≤ intMax ∧ c.tail + c.cbufSize ≤ intMax
  | .restore len => c.cbufSize + 1 ≤ intMax ∧ (len ≤ c.cbufSize → c.tail + len ≤ intMax)
  | .setCapacity s => s ≤ intMax

instance (c : CircularBuffer T) : ∀ op : PublicOp T, Decidable (Fits c op)
  | .pushOne _ => isTrue trivial
  | .push val => inferInstanceAs (Decidable (c.capacityFree < val.length → _ ∧ _))
  | .read | .readSafely => inferInstanceAs (Decidable (c.tail + c.cbufSize ≤ intMax))
  | .readLen len | .readSafelyLen len => inferInstanceAs (Decidable (c.tail + len ≤ intMax))
  | .restoreAll => inferInstanceAs (Decidable (_ ∧ c.tail + c.cbufSize ≤ intMax))
  | .restore len => inferInstanceAs (Decidable (_ ∧ (len ≤ c.cbufSize → _)))
  | .setCapacity s => inferInstanceAs (Decidable (s ≤ intMax))

/-- The operation has room to write, elements to read, and steps to no other cell than
one of the block. -/
def Keeps (c : CircularBuffer T) (op : PublicOp T) : Prop :=
  Fits c op ∧
    match op with
    | .pushOne _ => 0 < c.capacityFree
    | .readLen len => len ≤ c.cbufSize
    | .readSafelyLen len => c.tail < c.head → c.tail + len ≤ c.capacityCbuf
    | .restore len => len < 0 →
        -len ≤ c.capacityFree ∧ 0 ≤ ((c.tail : ℤ) + len).tmod c.capacityCbuf
    | _ => True

instance (c : CircularBuffer T) : ∀ op : PublicOp T, Decidable (Keeps c op)
  | .pushOne _ => inferInstanceAs (Decidable (_ ∧ 0 < c.capacityFree))
  | .readLen len => inferInstanceAs (Decidable (_ ∧ len ≤ c.cbufSize))
  | .readSafelyLen len =>
    inferInstanceAs (Decidable (_ ∧ (c.tail < c.head → c.tail + len ≤ c.capacityCbuf)))
  | .restore len => inferInstanceAs (Decidable (_ ∧ (len < 0 → _ ∧ _)))
  | .push _ | .read | .readSafely | .restoreAll | .setCapacity _ =>
    inferInstanceAs (Decidable (_ ∧ True))

/-- The operation returns and keeps the invariant. -/
def Survives [Inhabited T] (c : CircularBuffer T) (op : PublicOp T) : Prop :=
  ∃ c' r, c.publicStep op = .ok (c', r) ∧ Rep c'

/-! ### Writing -/

/-- Every element written takes a free place, whether or not there is one. -/
theorem writeLoop_capacityFree : ∀ (val : List T) {c c' : CircularBuffer T},
    c.writeLoop val = .ok c' → c'.capacityFree = c.capacityFree - val.length
  | [], c, c', h => by
    obtain rfl := Except.ok.inj h
    simp
  | x :: val, c, c', h => by
    obtain ⟨data, -, h⟩ := bind_eq_ok.1 h
    rw [writeLoop_capacityFree val h, List.length_cons]
    change c.capacityFree - 1 - val.length = _
    omega

theorem survives_pushOne_iff [Inhabited T] (h : Rep c) (x : T) :
    Survives c (.pushOne x) ↔ 0 < c.capacityFree := by
  obtain ⟨q, hq⟩ := h.exists_holds
  have hlen := hq.length_le
  constructor
  · rintro ⟨c', r, hstep, hrep⟩
    obtain ⟨⟨ok, c₁⟩, hpush, hr⟩ := bind_eq_ok.1 hstep
    obtain ⟨rfl, -⟩ := Prod.mk.inj (Except.ok.inj hr)
    rw [pushOne, h.isOpen, if_neg (by simp)] at hpush
    obtain ⟨c₂, hwrite, hc⟩ := bind_eq_ok.1 hpush
    obtain ⟨-, rfl⟩ := Prod.mk.inj (Except.ok.inj hc)
    rw [writeCore, h.isOpen, if_neg (by simp)] at hwrite
    split_ifs at hwrite
    have hfree := writeLoop_capacityFree [x] hwrite
    have hnonneg : 0 ≤ c₂.capacityFree := hrep.free_nonneg
    simp only [List.length_singleton] at hfree
    omega
  · intro hfree
    rw [hq.free_eq] at hfree
    have hone : 0 < [x].length := by simp
    obtain ⟨c', hwrite, hc', -, hcap⟩ := writeCore_spec hq hone (by simp; omega)
    refine ⟨c', (true, []), ?_, hc'.rep (hcap ▸ h.fits)⟩
    rw [publicStep, pushOne, h.isOpen, if_neg (by simp), hwrite]
    rfl

/-- A release of a stored prefix goes through exactly when its sums fit. -/
theorem restore_ok_iff {n : ℕ} (hq : c.Holds q) (hn : n ≤ q.length) :
    (∃ r, c.restore n = .ok r) ↔ q.length + 1 ≤ intMax ∧ c.tail + n ≤ intMax := by
  constructor
  · rintro ⟨r, hr⟩
    exact le_of_restore_eq_ok hq hn hr
  · rintro ⟨hsize, hsum⟩
    obtain ⟨c', hc', -⟩ := restore_of_le hq hn hsize hsum
    exact ⟨_, hc'⟩

theorem survives_push_iff [Inhabited T] (h : Rep c) {val : List T} (hpos : 0 < val.length)
    (hle : val.length ≤ c.capacityCbuf) : Survives c (.push val) ↔ Fits c (.push val) := by
  obtain ⟨q, hq⟩ := h.exists_holds
  have hlen := hq.length_le
  have hfits := h.fits
  rw [Fits, hq.cbufSize_eq, hq.free_eq]
  rcases Nat.lt_or_ge c.capacityCbuf (q.length + val.length) with hfull | hroom
  · obtain ⟨n, hn⟩ : ∃ n, n = q.length + val.length - c.capacityCbuf := ⟨_, rfl⟩
    have hless : c.capacityFree < val.length := by
      rw [hq.free_eq]
      omega
    have hneed : intAdd val.length (-c.capacityFree) = .ok n := by
      rw [hq.free_eq, intAdd_of_le (by omega) (by omega)]
      congr 1
      omega
    have hsums : (((c.capacityCbuf : ℤ) - q.length < val.length →
        (q.length : ℤ) + 1 ≤ intMax ∧
          c.tail + (val.length - ((c.capacityCbuf : ℤ) - q.length)) ≤ intMax)) ↔
        q.length + 1 ≤ intMax ∧ c.tail + n ≤ intMax := by
      omega
    rw [hsums, ← restore_ok_iff hq (by omega)]
    constructor
    · rintro ⟨c', r, hstep, -⟩
      obtain ⟨r', hpush, -⟩ := bind_eq_ok.1 hstep
      rw [push, h.isOpen, if_neg (by simp), if_pos hless, hneed] at hpush
      simp only [ok_bind, Int.toNat_natCast] at hpush
      obtain ⟨r₁, hr₁, -⟩ := bind_eq_ok.1 hpush
      exact ⟨r₁, hr₁⟩
    · intro hok
      obtain ⟨hsize, hsum⟩ := (restore_ok_iff hq (by omega)).1 hok
      obtain ⟨c₁, hc₁, hq₁, -, hcap₁⟩ := restore_of_le hq (by omega) hsize hsum
      obtain ⟨c₂, hc₂, hq₂, -, hcap₂⟩ := writeCore_spec hq₁ hpos
        (by rw [hcap₁, List.length_drop]; omega)
      refine ⟨c₂, (true, []), ?_, hq₂.rep (by omega)⟩
      rw [publicStep, push, h.isOpen, if_neg (by simp), if_pos hless, hneed, ok_bind,
        Int.toNat_natCast, hc₁]
      simp only [ok_bind, pure_eq_ok, hc₂]
  · obtain ⟨c', hc', hq', -, hcap⟩ := push_of_room hq hpos hroom
    refine iff_of_true ⟨c', (true, []), ?_, hq'.rep (hcap ▸ hfits)⟩ (fun hlt => by omega)
    rw [publicStep, hc']
    rfl

/-! ### Reading -/

/-- A read into a vector of its length goes through exactly when its stop fits the type of
the indices and, unless the content wraps, the block. -/
theorem readCore_ok_iff (h : Rep c) {p : List T} {len : ℕ} (hp : p.length = len)
    (hlen : len ≤ c.capacityCbuf) :
    (∃ p', c.readCore p len = .ok p') ↔
      c.tail + len ≤ intMax ∧ (c.tail < c.head → c.tail + len ≤ c.capacityCbuf) := by
  have htail := h.tail_lt
  have hsize := h.size
  rw [readCore, h.isOpen, if_neg (by simp), if_pos (Or.inr hlen), readCells]
  constructor
  · rintro ⟨p', hread⟩
    obtain ⟨stop, hstop, hread⟩ := bind_eq_ok.1 hread
    have hsum : c.tail + len ≤ intMax := by
      by_contra hgt
      rw [intAdd_of_lt (by omega)] at hstop
      cases hstop
    refine ⟨hsum, fun hlt => ?_⟩
    rw [if_pos (Or.inl hlt)] at hread
    rcases Nat.eq_zero_or_pos len with rfl | hpos
    · omega
    · have := le_of_copyLoop_eq_ok hread hpos
      omega
  · rintro ⟨hsum, hfit⟩
    rw [intAdd_of_le (by omega) (by omega), ok_bind]
    split_ifs with hone
    · have hle : c.tail + len ≤ c.data.length := by
        rcases hone with hlt | hle
        · have := hfit hlt
          omega
        · omega
      exact ⟨_, copyLoop_eq _ _ _ _ _ hle (by omega)⟩
    · obtain ⟨-, hgt⟩ := not_or.1 hone
      rw [← hsize, copyLoop_wrap (by omega) (by omega)]
      exact ⟨_, rfl⟩

/-- A read of what is stored goes through exactly when its stop fits the type. -/
theorem readCore_stored_iff (h : Rep c) (hq : c.Holds q) {p : List T} {len : ℕ}
    (hp : p.length = len) (hlen : len ≤ q.length) :
    (∃ p', c.readCore p len = .ok p') ↔ c.tail + len ≤ intMax := by
  have hcap := hq.length_le
  rw [readCore_ok_iff h hp (by omega)]
  refine and_iff_left_of_imp fun _ hlt => ?_
  have := hq.fit_of_lt hlt
  omega

theorem survives_readSafelyLen_iff [Inhabited T] (h : Rep c) {len : ℕ}
    (hlen : len ≤ c.capacityCbuf) :
    Survives c (.readSafelyLen len) ↔
      c.tail + len ≤ intMax ∧ (c.tail < c.head → c.tail + len ≤ c.capacityCbuf) := by
  rw [← readCore_ok_iff h (p := List.replicate len default) (by simp) hlen]
  constructor
  · rintro ⟨c', r, hstep, -⟩
    obtain ⟨r', hread, -⟩ := bind_eq_ok.1 hstep
    rw [readSafelyLen, h.isOpen, if_neg (by simp)] at hread
    obtain ⟨p', hp', -⟩ := bind_eq_ok.1 hread
    exact ⟨p', hp'⟩
  · rintro ⟨p', hp'⟩
    refine ⟨c, (false, p'), ?_, h⟩
    rw [publicStep, readSafelyLen, h.isOpen, if_neg (by simp), hp']
    rfl

theorem survives_readSafely_iff [Inhabited T] (h : Rep c) :
    Survives c .readSafely ↔ c.tail + c.cbufSize ≤ intMax := by
  obtain ⟨q, hq⟩ := h.exists_holds
  have hp : (List.replicate c.cbufSize.toNat (default : T)).length = q.length := by
    rw [List.length_replicate, hq.cbufSize_eq, Int.toNat_natCast]
  constructor
  · rintro ⟨c', r, hstep, -⟩
    obtain ⟨r', hread, -⟩ := bind_eq_ok.1 hstep
    rw [hq.cbufSize_eq]
    by_contra hgt
    rw [readSafely_overflow hq (by omega)] at hread
    cases hread
  · intro hsum
    rw [hq.cbufSize_eq] at hsum
    refine ⟨c, (true, q), ?_, h⟩
    rw [publicStep, readSafely_spec hq hp (by omega)]
    rfl

theorem survives_read_iff [Inhabited T] (h : Rep c) :
    Survives c .read ↔ c.tail + c.cbufSize ≤ intMax := by
  obtain ⟨q, hq⟩ := h.exists_holds
  have hcore := readCore_stored_iff h hq (p := List.replicate q.length default) (by simp)
    (Nat.le_refl _)
  have hsum : c.tail + c.cbufSize ≤ intMax ↔ c.tail + q.length ≤ intMax := by
    rw [hq.cbufSize_eq]
    omega
  rw [hsum, ← hcore, Survives, publicStep, readAll, if_neg (by simp [h.isOpen]), hq.cbufSize_eq,
    Int.toNat_natCast]
  constructor
  · rintro ⟨c', r, hstep, -⟩
    obtain ⟨r', hread, -⟩ := bind_eq_ok.1 hstep
    obtain ⟨p', hp', -⟩ := bind_eq_ok.1 hread
    exact ⟨p', hp'⟩
  · rintro ⟨p', hp'⟩
    have hempty : Holds { c with tail := c.head, capacityFree := c.capacityCbuf } [] := by
      refine ⟨h.isOpen, h.size, h.head_lt, ?_, by simp, Window.nil _ _⟩
      exact (Nat.mod_eq_of_lt h.head_lt).symm
    refine ⟨_, (true, p'), ?_, hempty.rep h.fits⟩
    rw [hp']
    rfl

theorem survives_readLen_iff [Inhabited T] (h : Rep c) (len : ℕ) :
    Survives c (.readLen len) ↔ c.tail + len ≤ intMax ∧ len ≤ c.cbufSize := by
  obtain ⟨q, hq⟩ := h.exists_holds
  rw [Survives, publicStep, readLen, if_neg (by simp [h.isOpen]), hq.cbufSize_eq]
  constructor
  · rintro ⟨c', r, hstep, hrep⟩
    obtain ⟨r', hread, hr⟩ := bind_eq_ok.1 hstep
    obtain ⟨rfl, -⟩ := Prod.mk.inj (Except.ok.inj hr)
    obtain ⟨p', hp', hread⟩ := bind_eq_ok.1 hread
    obtain ⟨tail, -, hread⟩ := bind_eq_ok.1 hread
    obtain rfl := Except.ok.inj hread
    have hle : c.capacityFree + len ≤ c.capacityCbuf := hrep.free_le
    rw [hq.free_eq] at hle
    have hstored : len ≤ q.length := by omega
    have hsum := (readCore_stored_iff h hq (by simp) hstored).1 ⟨p', hp'⟩
    omega
  · rintro ⟨hsum, hstored⟩
    have hstored' : len ≤ q.length := by omega
    obtain ⟨p', hp'⟩ := (readCore_stored_iff h hq (p := List.replicate len default) (by simp)
      hstored').2 (by omega)
    refine ⟨_, (true, p'), ?_, (hq.advance hstored').rep h.fits⟩
    rw [hp', intAdd_of_le (by omega) (by omega)]
    rfl

/-! ### Releasing -/

/-- Of a length that is not negative, the two releases are one. -/
theorem restoreInt_natCast (c : CircularBuffer T) (n : ℕ) : c.restoreInt n = c.restore n := by
  rw [restoreInt, restore]
  cases intAdd c.cbufSize 1 with
  | error e => rfl
  | ok past =>
    simp only [ok_bind]
    split_ifs with h₁ h₂
    · rfl
    · rfl
    · cases hadd : intAdd c.tail n with
      | error e => rfl
      | ok tail =>
        have hnonneg : 0 ≤ tail := by
          rw [intAdd_eq_ok hadd]
          omega
        have hmod : tail.tmod c.capacityCbuf = tail % c.capacityCbuf :=
          Int.tmod_eq_emod_of_nonneg hnonneg
        have hpos : 0 ≤ tail.tmod c.capacityCbuf := Int.tmod_nonneg _ hnonneg
        rw [ok_bind, ok_bind, if_neg (by omega), hmod]

/-- A release of a length that is not negative. -/
theorem restore_rep_iff (h : Rep c) (n : ℕ) :
    (∃ r, c.restore n = .ok r ∧ Rep r.2) ↔
      c.cbufSize + 1 ≤ intMax ∧ (n ≤ c.cbufSize → (c.tail : ℤ) + n ≤ intMax) := by
  obtain ⟨q, hq⟩ := h.exists_holds
  rw [hq.cbufSize_eq]
  rcases Nat.lt_or_ge q.length n with hlt | hle
  · constructor
    · rintro ⟨r, hr, -⟩
      refine ⟨?_, fun hle => by omega⟩
      by_contra hsize
      rw [restore, hq.cbufSize_eq, intAdd_of_lt (by omega)] at hr
      cases hr
    · rintro ⟨hsize, -⟩
      exact ⟨_, restore_of_lt hq hlt (by omega), hq.reset.rep h.fits⟩
  · have hsums : ((q.length : ℤ) + 1 ≤ intMax ∧
        ((n : ℤ) ≤ q.length → (c.tail : ℤ) + n ≤ intMax)) ↔
        q.length + 1 ≤ intMax ∧ c.tail + n ≤ intMax := by
      omega
    rw [hsums, ← restore_ok_iff hq hle]
    constructor
    · rintro ⟨r, hr, -⟩
      exact ⟨r, hr⟩
    · intro hok
      obtain ⟨hsize, hsum⟩ := (restore_ok_iff hq hle).1 hok
      obtain ⟨c', hc', hq', -, hcap⟩ := restore_of_le hq hle hsize hsum
      exact ⟨_, hc', hq'.rep (hcap ▸ h.fits)⟩

/-- A release of a negative length gives cells back that are free, and the tail stays in
the block. -/
theorem restoreInt_neg_iff (h : Rep c) {len : ℤ} (hneg : len < 0) :
    (∃ r, c.restoreInt len = .ok r ∧ Rep r.2) ↔ c.cbufSize + 1 ≤ intMax ∧
      -len ≤ c.capacityFree ∧ 0 ≤ ((c.tail : ℤ) + len).tmod c.capacityCbuf := by
  have hfree := h.free_le
  have hnonneg := h.free_nonneg
  have hfits := h.fits
  have htail := h.tail_lt
  by_cases hsize : c.cbufSize + 1 ≤ intMax
  swap
  · refine iff_of_false ?_ (fun hno => hsize hno.1)
    rintro ⟨r, hr, -⟩
    rw [restoreInt, intAdd_of_lt (by omega)] at hr
    cases hr
  have hstored : 0 ≤ c.cbufSize := by
    rw [cbufSize]
    omega
  have hsum : -len ≤ c.capacityFree → intAdd c.tail len = .ok (c.tail + len) := by
    intro hle
    exact intAdd_of_le (by omega) (by omega)
  rw [restoreInt, intAdd_of_le (by omega) hsize, ok_bind, if_neg (by omega), if_neg (by omega)]
  constructor
  · rintro ⟨r, hr, hrep⟩
    obtain ⟨tail, hadd, hr⟩ := bind_eq_ok.1 hr
    obtain rfl := intAdd_eq_ok hadd
    split_ifs at hr with hmod
    obtain rfl := Except.ok.inj hr
    have hback : 0 ≤ c.capacityFree + len := hrep.free_nonneg
    exact ⟨hsize, by omega, by omega⟩
  · rintro ⟨-, hback, hmod⟩
    rw [hsum hback, ok_bind, if_neg (by omega)]
    refine ⟨_, rfl, h.isOpen, h.size, h.fits, ?_, ?_, h.head_lt, ?_, ?_⟩
    · change 0 ≤ c.capacityFree + len
      omega
    · change c.capacityFree + len ≤ c.capacityCbuf
      omega
    · change (((c.tail : ℤ) + len).tmod c.capacityCbuf).toNat < c.capacityCbuf
      have := Int.tmod_lt_of_pos ((c.tail : ℤ) + len) (b := c.capacityCbuf) (by omega)
      omega
    · change (c.head : ℤ) % c.capacityCbuf =
        ((((c.tail : ℤ) + len).tmod c.capacityCbuf).toNat +
          (c.capacityCbuf - (c.capacityFree + len))) % c.capacityCbuf
      have hdiv := Int.tmod_add_mul_tdiv ((c.tail : ℤ) + len) c.capacityCbuf
      have hsplit : (c.tail : ℤ) + (c.capacityCbuf - c.capacityFree) =
          ((c.tail : ℤ) + len).tmod c.capacityCbuf + (c.capacityCbuf - (c.capacityFree + len)) +
            c.capacityCbuf * ((c.tail : ℤ) + len).tdiv c.capacityCbuf := by
        omega
      rw [h.head_eq, Int.toNat_of_nonneg hmod, hsplit, Int.add_mul_emod_self_left]

theorem survives_restore_iff [Inhabited T] (len : ℤ) :
    Survives c (.restore len) ↔ ∃ r, c.restoreInt len = .ok r ∧ Rep r.2 := by
  constructor
  · rintro ⟨c', r, hstep, hrep⟩
    obtain ⟨r', hr', hr⟩ := bind_eq_ok.1 hstep
    obtain ⟨rfl, -⟩ := Prod.mk.inj (Except.ok.inj hr)
    exact ⟨r', hr', hrep⟩
  · rintro ⟨r, hr, hrep⟩
    exact ⟨r.2, (r.1, []), by rw [publicStep, hr]; rfl, hrep⟩

theorem survives_setCapacity_iff [Inhabited T] (h : Rep c) {s : ℕ} (hpos : 0 < s) :
    Survives c (.setCapacity s) ↔ s ≤ intMax := by
  rw [Survives, publicStep, setCapacity]
  split_ifs with hs
  · refine iff_of_true ⟨_, _, rfl, Holds.rep (q := []) ?_ hs⟩ hs
    refine ⟨h.isOpen, ?_, hpos, (Nat.zero_mod s).symm, by simp, Window.nil _ _⟩
    simp only [List.length_append, List.length_take, List.length_replicate]
    omega
  · refine iff_of_false ?_ hs
    rintro ⟨c', r, hstep, -⟩
    cases hstep

/-! ## Runs -/

/-- Among what the callers pass, an operation returns and keeps the invariant exactly when
it `Keeps` it. -/
theorem survives_iff [Inhabited T] (h : Rep c) (op : PublicOp T) (hop : op.Admissible c) :
    Survives c op ↔ Keeps c op := by
  cases op with
  | pushOne x => simpa [Keeps, Fits] using survives_pushOne_iff h x
  | push val => simpa [Keeps] using survives_push_iff h hop.1 hop.2
  | read => simpa [Keeps, Fits] using survives_read_iff h
  | readLen len => simpa [Keeps, Fits] using survives_readLen_iff h len
  | readSafely => simpa [Keeps, Fits] using survives_readSafely_iff h
  | readSafelyLen len => simpa [Keeps, Fits] using survives_readSafelyLen_iff h hop
  | setCapacity s => simpa [Keeps, Fits] using survives_setCapacity_iff h hop
  | restoreAll =>
    obtain ⟨q, hq⟩ := h.exists_holds
    have hrestore := restore_rep_iff h q.length
    rw [← restoreInt_natCast, ← hq.cbufSize_eq, ← survives_restore_iff] at hrestore
    have hsame : Survives c .restoreAll ↔ Survives c (.restore c.cbufSize) := Iff.rfl
    rw [hsame, hrestore]
    simp [Keeps, Fits]
  | restore len =>
    rw [survives_restore_iff]
    rcases Int.lt_or_le len 0 with hneg | hnonneg
    · have hcbuf := h.free_le
      have htail := h.tail_lt
      have hfits := h.fits
      rw [restoreInt_neg_iff h hneg, Keeps, Fits]
      constructor
      · rintro ⟨hsize, hback, hmod⟩
        exact ⟨⟨hsize, fun _ => by omega⟩, fun _ => ⟨hback, hmod⟩⟩
      · rintro ⟨⟨hsize, -⟩, hback⟩
        exact ⟨hsize, hback hneg⟩
    · obtain ⟨n, rfl⟩ := Int.eq_ofNat_of_zero_le hnonneg
      rw [restoreInt_natCast, restore_rep_iff h, Keeps, Fits]
      exact (and_iff_left fun hlt => absurd hlt (by omega)).symm

/-- Over every run of public operations of an opened buffer, with what the callers pass,
every operation returns and keeps the invariant exactly when every operation `Keeps` it. -/
theorem rep_iff [Inhabited T] (h : Rep c) (ops : List (PublicOp T))
    (hops : Along publicStep (fun c op => op.Admissible c) c ops) :
    Along publicStep Survives c ops ↔ Along publicStep Keeps c ops := by
  refine along_congr Rep (fun c op h hop => survives_iff h op hop) ?_ ops h hops
  rintro c op c' r - - ⟨c'', r', hstep, hrep⟩ hstep'
  rw [hstep] at hstep'
  obtain ⟨rfl, -⟩ := Prod.mk.inj (Except.ok.inj hstep')
  exact hrep

theorem rep_new [Inhabited T] {cap : ℕ} (hpos : 0 < cap) (hcap : cap ≤ intMax) :
    Rep ((new cap : CircularBuffer T).opened) :=
  (holds_new hpos).rep hcap

/-- A buffer of three that is filled, read in part, and written over the end of the block until
it is full again and an element is lost. -/
def roundOps : List (PublicOp ℕ) :=
  [.push [1, 2], .pushOne 3, .readLen 2, .push [4, 5], .push [6], .readSafely, .readLen 3]

/-- All of these return and keep the invariant. -/
theorem rep_iff_round : Along publicStep Survives (new 3 : CircularBuffer ℕ).opened roundOps :=
  (rep_iff (rep_new (by decide) (by decide)) roundOps (by decide)).2 (by decide)

/-- A single element into a full buffer leaves less than no place free. -/
theorem not_rep :
    ¬∀ cap : ℕ, 0 < cap → cap ≤ intMax → ∀ ops : List (PublicOp ℕ),
      Along publicStep (fun c op => op.Admissible c) (new cap : CircularBuffer ℕ).opened ops →
        Along publicStep Survives (new cap : CircularBuffer ℕ).opened ops := by
  intro h
  have hrun := h 1 (by simp) (by simp [intMax]) [.pushOne 1, .pushOne 2]
    ⟨trivial, fun _ _ _ => ⟨trivial, fun _ _ _ => trivial⟩⟩
  obtain ⟨c, r, hstep, hrep⟩ := (hrun.2 ⟨[1], false, 0, 0, 1, 0⟩ (true, []) rfl).1
  have hfull : publicStep (⟨[1], false, 0, 0, 1, 0⟩ : CircularBuffer ℕ) (.pushOne 2) =
      .ok (⟨[2], false, 0, 0, 1, -1⟩, true, []) := rfl
  rw [hfull] at hstep
  obtain ⟨rfl, -⟩ := Prod.mk.inj (Except.ok.inj hstep)
  exact absurd hrep.free_nonneg (by simp)

end CircularBuffer

end Mastiff

import Mastiff.CircularBufferOps

/-!
# Reading a prefix of the circular buffer

`Read(vec, len)` should be `ReadSafely(vec, len)` followed by `Restore(len)`. `ReadSafely`
of a given length returns `false` for a read that succeeded, so on no buffer and for no
length it is (`not_looksThenReleases`). The vector and the buffer that are left do agree,
and so do the other two results.

A run of the parsers' operations that goes through is the drop-oldest queue's at every
capacity (`holds_of_tryRun`).
-/

set_option linter.unusedSectionVars false

open Memory Machine Ring

namespace Mastiff

namespace CircularBuffer

variable {T : Type} {c : CircularBuffer T} {q : List T}

/-! ## Runs that go through -/

/-- A push that goes through keeps the last elements. -/
theorem push_ok_spec {val : List T} {r : Bool × CircularBuffer T} (h : c.Holds q)
    (hpos : 0 < val.length) (hle : val.length ≤ c.capacityCbuf) (hr : c.push val = .ok r) :
    r.1 = true ∧ r.2.Holds (pushLast c.capacityCbuf q val) ∧
      r.2.capacityCbuf = c.capacityCbuf := by
  have hlen := h.length_le
  rcases Nat.lt_or_ge c.capacityCbuf (q.length + val.length) with hfull | hroom
  · have hless : c.capacityFree < val.length := by
      rw [h.free_eq]
      omega
    rw [push, h.isOpen, if_neg (by simp), if_pos hless] at hr
    obtain ⟨need, hneed, hr⟩ := bind_eq_ok.1 hr
    obtain ⟨r₁, hr₁, hr⟩ := bind_eq_ok.1 hr
    simp only [pure_eq_ok, ok_bind] at hr
    obtain ⟨c₂, hc₂, hr⟩ := bind_eq_ok.1 hr
    obtain rfl := Except.ok.inj hr
    have hn : need.toNat = q.length + val.length - c.capacityCbuf := by
      rw [intAdd_eq_ok hneed, h.free_eq]
      omega
    rw [hn] at hr₁
    have hq₁ := restore_eq_ok h (by omega) hr₁
    have hcap₁ := restore_capacityCbuf hr₁
    obtain ⟨c₃, hc₃, hq₃, -, hcap₃⟩ := writeCore_spec hq₁ hpos
      (by rw [hcap₁, List.length_drop]; omega)
    obtain rfl := Except.ok.inj (hc₃.symm.trans hc₂)
    rw [pushLast_eq_drop hle hfull.le]
    exact ⟨rfl, hq₃, hcap₃.trans hcap₁⟩
  · obtain ⟨c', hc', hq', -, hcap'⟩ := push_of_room h hpos hroom
    rw [hc'] at hr
    obtain rfl := Except.ok.inj hr
    rw [pushLast_of_le hroom]
    exact ⟨rfl, hq', hcap'⟩

/-- An operation that goes through is the queue's operation. -/
theorem step_ok_refines [Inhabited T] {c' : CircularBuffer T} {o : Ret T} (h : c.Holds q)
    (op : Op T) (hop : op.Admissible c.capacityCbuf) (hstep : c.step op = .ok (c', o)) :
    o = (fifoStep c.capacityCbuf q op).2 ∧ c'.Holds (fifoStep c.capacityCbuf q op).1 ∧
      c'.capacityCbuf = c.capacityCbuf := by
  cases op with
  | push val =>
    obtain ⟨r, hr, hret⟩ := bind_eq_ok.1 hstep
    obtain ⟨rfl, rfl⟩ := Prod.mk.inj (Except.ok.inj hret)
    obtain ⟨hok, hq', hcap'⟩ := push_ok_spec h hop.1 hop.2 hr
    exact ⟨congrArg Ret.push hok, hq', hcap'⟩
  | readSafely =>
    obtain ⟨r, hr, hret⟩ := bind_eq_ok.1 hstep
    obtain ⟨rfl, rfl⟩ := Prod.mk.inj (Except.ok.inj hret)
    obtain rfl := readSafely_eq_ok h (by rw [h.cbufSize_eq]; simp) hr
    exact ⟨rfl, h, rfl⟩
  | restore n =>
    obtain ⟨r, hr, hret⟩ := bind_eq_ok.1 hstep
    obtain ⟨rfl, rfl⟩ := Prod.mk.inj (Except.ok.inj hret)
    refine ⟨?_, ?_, restore_capacityCbuf hr⟩
    · rcases Nat.lt_or_ge q.length n with hn | hn
      · have hsize : q.length + 1 ≤ intMax := by
          by_contra hgt
          rw [restore, h.cbufSize_eq, intAdd_of_lt (by omega)] at hr
          cases hr
        rw [restore_of_lt h hn hsize] at hr
        rw [← Except.ok.inj hr]
        exact congrArg Ret.restore (decide_eq_decide.2 (by omega))
      · obtain ⟨hsize, hsum⟩ := le_of_restore_eq_ok h hn hr
        obtain ⟨c₁, hc₁, -⟩ := restore_of_le h hn hsize hsum
        rw [hc₁] at hr
        rw [← Except.ok.inj hr]
        exact congrArg Ret.restore (decide_eq_true (by omega)).symm
    · rcases Nat.lt_or_ge q.length n with hn | hn
      · rw [restore, h.cbufSize_eq] at hr
        obtain ⟨past, hpast, hr⟩ := bind_eq_ok.1 hr
        obtain rfl := intAdd_eq_ok hpast
        have hreset : r.2 = c.reset := by
          split_ifs at hr with h₁ h₂
          · rw [← Except.ok.inj hr]
          · rw [← Except.ok.inj hr]
          · omega
        rw [hreset, fifoStep, List.drop_eq_nil_of_le hn.le]
        exact h.reset
      · exact restore_eq_ok h hn hr
  | cbufSize =>
    obtain ⟨rfl, rfl⟩ := Prod.mk.inj (Except.ok.inj hstep)
    exact ⟨by rw [h.cbufSize_eq]; rfl, h, rfl⟩

/-- At every capacity, a run of the parsers' operations that goes through is a run of the
drop-oldest queue. -/
theorem holds_of_tryRun [Inhabited T] {cap : ℕ} (hpos : 0 < cap) {ops : List (Op T)}
    (hops : ∀ op ∈ ops, op.Admissible cap) {os : List (Ret T)}
    (hrun : tryRun step (new cap : CircularBuffer T).opened ops = .ok (c, os)) :
    os = (run (fifoStep cap) [] ops).2 ∧ c.Holds (run (fifoStep cap) [] ops).1 ∧
      c.capacityCbuf = cap := by
  refine tryRun_ok_refines (fun (c : CircularBuffer T) q => c.Holds q ∧ c.capacityCbuf = cap)
    (A := fun _ op => True ∧ op.Admissible cap) ?_ ops (along_and ops (along_true ops) hops)
    ⟨holds_new hpos, rfl⟩ hrun
  rintro c q op c' o ⟨h, rfl⟩ ⟨-, hop⟩ hstep
  exact step_ok_refines h op hop hstep

/-! ## Reading a prefix -/

/-- A read of a stored prefix overwrites the front of the vector with it. -/
theorem readCore_of_le {p : List T} {len : ℕ} (h : c.Holds q) (hlen : len ≤ q.length)
    (hp : len ≤ p.length) (hsum : c.tail + len ≤ intMax) :
    c.readCore p len = .ok (q.take len ++ p.drop len) := by
  have hcap := h.length_le
  have hsize := h.size
  have hw := h.window.take len
  have htake : (q.take len).length = len := List.length_take_of_le hlen
  rw [readCore, h.isOpen, if_neg (by simp), if_pos (Or.inr (by omega)), readCells,
    intAdd_of_le (by omega) (by omega), ok_bind]
  split_ifs with hone
  · have hfit : c.tail + len ≤ c.data.length := by
      rcases hone with hlt | hle
      · have := h.fit_of_lt hlt
        omega
      · omega
    have hcells := hw.eq_take (by omega)
    rw [htake] at hcells
    rw [copyLoop_eq _ _ _ _ _ hfit (by omega), hcells, List.take_zero, List.nil_append,
      Nat.zero_add]
  · obtain ⟨-, hgt⟩ := not_or.1 hone
    have htail := h.tail_lt
    have hcells := hw.eq_wrap (by omega) (by omega)
    rw [htake, Nat.add_comm c.tail] at hcells
    have hwhole : c.data.length - c.tail + (len + c.tail - c.data.length) = len := by omega
    rw [← hsize, copyLoop_wrap_of_le (by omega) (by omega), hcells, hwhole]

/-- `Read(vec, len)` is `ReadSafely(vec, len)`, which succeeds and changes nothing, and then
`Restore(len)`. -/
def LooksThenReleases (c : CircularBuffer T) (p : List T) (len : ℕ) : Prop :=
  ∃ ok p' c', c.readLen p len = .ok (ok, p', c') ∧ c.readSafelyLen p len = .ok (true, p') ∧
    c.restore len = .ok (ok, c')

/-- They leave the same vector and the same buffer, and `ReadSafely` returns `false`. -/
def LooksAndFails (c : CircularBuffer T) (p : List T) (len : ℕ) (q : List T) : Prop :=
  ∃ c', c.readLen p len = .ok (true, q.take len ++ p.drop len, c') ∧
    c.readSafelyLen p len = .ok (false, q.take len ++ p.drop len) ∧
    c.restore len = .ok (true, c') ∧ c'.Holds (q.drop len)

theorem looksAndFails_of_le {p : List T} {len : ℕ} (h : c.Holds q) (hlen : len ≤ q.length)
    (hp : len ≤ p.length) (hsize : q.length + 1 ≤ intMax) (hsum : c.tail + len ≤ intMax) :
    LooksAndFails c p len q := by
  have hread := readCore_of_le h hlen hp hsum
  have hadd : intAdd c.tail len = .ok (c.tail + len) := intAdd_of_le (by omega) (by omega)
  refine ⟨_, ?_, ?_, ?_, h.advance hlen⟩
  · rw [readLen, h.isOpen, if_neg (by simp), hread, ok_bind, hadd]
    rfl
  · rw [readSafelyLen, h.isOpen, if_neg (by simp), hread]
    rfl
  · rw [restore, h.cbufSize_eq, intAdd_of_le (by omega) (by omega), ok_bind, if_neg (by omega),
      if_neg (by omega), hadd]
    rfl

/-- An opened buffer never returns `true`. -/
theorem readSafelyLen_ne_true {p p' : List T} {len : ℕ} (h : c.isClosed = false) :
    c.readSafelyLen p len ≠ .ok (true, p') := by
  rw [readSafelyLen, h, if_neg (by simp)]
  cases c.readCore p len <;> simp

/-- After every run of the parsers' operations, for every stored length and every vector
that long, `Read` is not `ReadSafely` and `Restore` : where the sums stay in the type of
the indices, all agrees but that `ReadSafely` returns `false`. -/
theorem not_looksThenReleases [Inhabited T] {cap : ℕ} (hpos : 0 < cap) {ops : List (Op T)}
    (hops : ∀ op ∈ ops, op.Admissible cap) {os : List (Ret T)}
    (hrun : tryRun step (new cap : CircularBuffer T).opened ops = .ok (c, os)) {p : List T}
    {len : ℕ} (hlen : (len : ℤ) ≤ c.cbufSize) (hp : len ≤ p.length) :
    ¬LooksThenReleases c p len ∧
      (c.cbufSize + 1 ≤ intMax → c.tail + len ≤ intMax →
        LooksAndFails c p len (run (fifoStep cap) [] ops).1) := by
  obtain ⟨-, h, -⟩ := holds_of_tryRun hpos hops hrun
  rw [h.cbufSize_eq] at hlen ⊢
  refine ⟨?_, fun hsize hsum => looksAndFails_of_le h (by omega) hp (by omega) hsum⟩
  rintro ⟨ok, p', c', -, hsafely, -⟩
  exact readSafelyLen_ne_true h.isOpen hsafely

/-- One of two elements. -/
theorem not_looksThenReleases_push :
    ¬LooksThenReleases (⟨[7, 8], false, 0, 0, 2, 0⟩ : CircularBuffer ℕ) [0] 1 ∧
      ((⟨[7, 8], false, 0, 0, 2, 0⟩ : CircularBuffer ℕ).cbufSize + 1 ≤ intMax →
        0 + 1 ≤ intMax →
          LooksAndFails (⟨[7, 8], false, 0, 0, 2, 0⟩ : CircularBuffer ℕ) [0] 1 [7, 8]) := by
  have hops : ∀ op ∈ [Op.push [7, 8]], op.Admissible 2 := by simp [Op.Admissible]
  exact not_looksThenReleases (Nat.succ_pos 1) hops rfl (by decide) (by decide)

/-- `ReadSafely` of the one element that is stored. -/
theorem not_forall_looksThenReleases :
    ¬∀ (cap : ℕ), 0 < cap → cap ≤ 2 ^ 30 → ∀ (ops : List (Op ℕ)) (c : CircularBuffer ℕ)
      (os : List (Ret ℕ)), (∀ op ∈ ops, op.Admissible cap) →
        tryRun step (new cap).opened ops = .ok (c, os) → ∀ (p : List ℕ) (len : ℕ),
          (len : ℤ) ≤ c.cbufSize → len ≤ p.length → LooksThenReleases c p len := by
  intro h
  obtain ⟨ok, p', c', -, hsafely, -⟩ := h 2 (by decide) (by decide) [.push [7]]
    ⟨[7, 0], false, 1, 0, 2, 1⟩ [.push true] (by simp [Op.Admissible]) rfl [0] 1 (by decide)
    (by decide)
  exact readSafelyLen_ne_true rfl hsafely

end CircularBuffer

end Mastiff

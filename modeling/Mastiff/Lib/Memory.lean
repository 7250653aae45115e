import Mathlib.Algebra.Group.Int.Defs
import Mathlib.Algebra.Group.Nat.Defs
import Mathlib.Data.Int.Notation
import Mathlib.Data.List.Forall2
import Mathlib.Tactic.Common

/-!
# Checked memory

Reads, writes and copies over a block of memory, with the ways a C++ program goes
wrong made explicit. A computation that would step outside a block, fail one of its
own checks, overflow a signed integer or read a node at the wrong type ends in a
`Fault`; one that returns `.ok` did none of that.

`copyLoop` is the element-by-element copy `for (i = j; i < j + n; i++) p[cursor++] = data[i]`,
and `copyLoop_eq` says what it leaves in the destination. `slice` is a block read, and
`intAdd` the sum of two `int`s.
-/

universe u v

namespace Memory

/-- How a run can leave the language: a read or write outside a block, a failed check
of the program itself, a signed overflow, a node read at another type. -/
inductive Fault
  | outOfBounds (index size : ℕ)
  | checkFailed
  | intOverflow
  | wrongNode
  deriving DecidableEq, Repr

/-- The fault is a memory access outside its block. -/
def Fault.isOutOfBounds : Fault → Bool
  | .outOfBounds _ _ => true
  | _ => false

/-! ## Sequencing -/

variable {ε : Type v} {α β : Type u}

/-- A sequenced computation succeeds exactly when both parts do. -/
theorem bind_eq_ok {x : Except ε α} {f : α → Except ε β} {b : β} :
    (x >>= f) = .ok b ↔ ∃ a, x = .ok a ∧ f a = .ok b := by
  cases x <;> simp [bind, Except.bind]

@[simp] theorem ok_bind (a : α) (f : α → Except ε β) : ((.ok a : Except ε α) >>= f) = f a :=
  rfl

@[simp] theorem error_bind (e : ε) (f : α → Except ε β) :
    ((.error e : Except ε α) >>= f) = .error e :=
  rfl

@[simp] theorem pure_eq_ok (a : α) : (pure a : Except ε α) = .ok a :=
  rfl

/-- A computation over a list succeeds exactly when it does for each of its elements. -/
theorem mapM_eq_ok_iff {f : α → Except ε β} {l : List α} {m : List β} :
    l.mapM f = .ok m ↔ List.Forall₂ (fun a b => f a = .ok b) l m := by
  induction l generalizing m with
  | nil =>
    rw [List.mapM_nil, pure_eq_ok, Except.ok.injEq, List.forall₂_nil_left_iff]
    exact eq_comm
  | cons a l ih =>
    rw [List.mapM_cons, bind_eq_ok, List.forall₂_cons_left_iff]
    refine exists_congr fun b => ?_
    rw [bind_eq_ok]
    constructor
    · rintro ⟨hb, bs, hbs, hm⟩
      exact ⟨bs, hb, ih.1 hbs, (Except.ok.inj hm).symm⟩
    · rintro ⟨bs, hb, hbs, rfl⟩
      exact ⟨hb, bs, ih.2 hbs, rfl⟩

/-- A sequenced computation does not end in an error that neither part ends in. -/
theorem bind_ne_error {x : Except ε α} {f : α → Except ε β} {e : ε} (hx : x ≠ .error e)
    (hf : ∀ a, x = .ok a → f a ≠ .error e) : (x >>= f) ≠ .error e := by
  cases x with
  | error e' =>
    intro h
    exact hx (congrArg Except.error (Except.error.inj h))
  | ok a => exact hf a rfl

/-- A computation that is known to succeed has a result. -/
theorem exists_of_isOk {x : Except ε α} (h : x.isOk = true) : ∃ a, x = .ok a := by
  cases x with
  | error e => cases h
  | ok a => exact ⟨a, rfl⟩

/-! ## Signed sums -/

/-- The largest `int`. -/
def intMax : ℕ := 2 ^ 31 - 1

/-- A sum of two `int`s. Leaving the type is undefined. -/
def intAdd (a b : ℤ) : Except Fault ℤ :=
  if -(intMax : ℤ) - 1 ≤ a + b ∧ a + b ≤ intMax then .ok (a + b) else .error .intOverflow

theorem intAdd_of_le {a b : ℤ} (hl : -(intMax : ℤ) - 1 ≤ a + b) (hu : a + b ≤ intMax) :
    intAdd a b = .ok (a + b) :=
  if_pos ⟨hl, hu⟩

theorem intAdd_eq_ok {a b c : ℤ} (h : intAdd a b = .ok c) : c = a + b := by
  unfold intAdd at h
  split_ifs at h
  exact (Except.ok.inj h).symm

theorem intAdd_of_lt {a b : ℤ} (h : (intMax : ℤ) < a + b) : intAdd a b = .error .intOverflow :=
  if_neg (by omega)

/-! ## Single cells -/

/-- Read cell `i` of a block. -/
def readAt (l : List α) (i : ℕ) : Except Fault α :=
  match l[i]? with
  | some x => .ok x
  | none => .error (.outOfBounds i l.length)

/-- Write cell `i` of a block. -/
def writeAt (l : List α) (i : ℕ) (x : α) : Except Fault (List α) :=
  if i < l.length then .ok (l.set i x) else .error (.outOfBounds i l.length)

theorem readAt_eq_ok {l : List α} {i : ℕ} {x : α} : readAt l i = .ok x ↔ l[i]? = some x := by
  unfold readAt
  cases l[i]? <;> simp

theorem readAt_of_lt {l : List α} {i : ℕ} (h : i < l.length) : readAt l i = .ok l[i] :=
  readAt_eq_ok.2 (List.getElem?_eq_getElem h)

theorem writeAt_of_lt {l : List α} {i : ℕ} (x : α) (h : i < l.length) :
    writeAt l i x = .ok (l.set i x) :=
  if_pos h

/-- A write behind the cells written so far adds to them. -/
theorem take_set_succ {l : List α} {i : ℕ} (x : α) (h : i < l.length) :
    (l.set i x).take (i + 1) = l.take i ++ [x] := by
  rw [List.take_add_one, List.take_set_of_le (Nat.le_refl _), List.getElem?_set_self h]
  rfl

/-! ## Blocks -/

/-- Copy `n` cells of `src` from index `j` into `dst` from index `cursor`, one by one. -/
def copyLoop (src : List α) : ℕ → ℕ → ℕ → List α → Except Fault (List α)
  | 0, _, _, dst => .ok dst
  | n + 1, j, cursor, dst => do
    let x ← readAt src j
    let dst ← writeAt dst cursor x
    copyLoop src n (j + 1) (cursor + 1) dst

/-- A copy inside both blocks replaces the cells from `cursor` on. -/
theorem copyLoop_eq (src : List α) :
    ∀ (n j cursor : ℕ) (dst : List α), j + n ≤ src.length → cursor + n ≤ dst.length →
      copyLoop src n j cursor dst =
        .ok (dst.take cursor ++ (src.drop j).take n ++ dst.drop (cursor + n))
  | 0, _, _, dst, _, _ => by simp [copyLoop]
  | n + 1, j, cursor, dst, hj, hc => by
    have hjlt : j < src.length := by omega
    have hclt : cursor < dst.length := by omega
    have ih := copyLoop_eq src n (j + 1) (cursor + 1) (dst.set cursor src[j]) (by omega)
      (by simp; omega)
    have hdrop : (dst.set cursor src[j]).drop (cursor + 1 + n) = dst.drop (cursor + (n + 1)) := by
      rw [List.drop_set_of_lt (by omega)]
      congr 1
      omega
    rw [copyLoop, readAt_of_lt hjlt, ok_bind, writeAt_of_lt _ hclt, ok_bind, ih,
      take_set_succ _ hclt, hdrop, List.drop_eq_getElem_cons hjlt, List.take_succ_cons]
    simp

/-- A copy that goes through read inside its source. -/
theorem le_of_copyLoop_eq_ok {src : List α} : ∀ {n j cursor : ℕ} {dst r : List α},
    copyLoop src n j cursor dst = .ok r → 0 < n → j + n ≤ src.length
  | 0, _, _, _, _, _, hn => absurd hn (Nat.lt_irrefl 0)
  | n + 1, j, cursor, dst, r, h, _ => by
    obtain ⟨x, hx, h⟩ := bind_eq_ok.1 h
    obtain ⟨dst', -, h⟩ := bind_eq_ok.1 h
    obtain ⟨hj, -⟩ := List.getElem?_eq_some_iff.1 (readAt_eq_ok.1 hx)
    rcases Nat.eq_zero_or_pos n with rfl | hn
    · omega
    · have := le_of_copyLoop_eq_ok h hn
      omega

/-- A copy that goes through wrote inside its destination. -/
theorem le_length_of_copyLoop_eq_ok {src : List α} : ∀ {n j cursor : ℕ} {dst r : List α},
    copyLoop src n j cursor dst = .ok r → 0 < n → cursor + n ≤ dst.length
  | 0, _, _, _, _, _, hn => absurd hn (Nat.lt_irrefl 0)
  | n + 1, j, cursor, dst, r, h, _ => by
    obtain ⟨x, -, h⟩ := bind_eq_ok.1 h
    obtain ⟨dst', hwrite, h⟩ := bind_eq_ok.1 h
    unfold writeAt at hwrite
    split_ifs at hwrite with hc
    obtain rfl := Except.ok.inj hwrite
    rcases Nat.eq_zero_or_pos n with rfl | hn
    · omega
    · have hle := le_length_of_copyLoop_eq_ok h hn
      rw [List.length_set] at hle
      omega

/-- A copy that fills the destination from its first cell leaves what it read. -/
theorem copyLoop_fill {src dst : List α} {j : ℕ} (hj : j + dst.length ≤ src.length) :
    copyLoop src dst.length j 0 dst = .ok ((src.drop j).take dst.length) := by
  rw [copyLoop_eq src _ _ _ _ hj (by omega)]
  simp

/-- A copy of the cells from `j` to the end and then of the first `n` cells. -/
theorem copyLoop_wrap_of_le {src dst : List α} {j n : ℕ} (hn : n ≤ src.length)
    (hdst : src.length - j + n ≤ dst.length) :
    (copyLoop src (src.length - j) j 0 dst >>= copyLoop src n 0 (src.length - j)) =
      .ok (src.drop j ++ src.take n ++ dst.drop (src.length - j + n)) := by
  rcases Nat.lt_or_ge j src.length with hj | hj
  · have hfirst : (src.drop j).take (src.length - j) = src.drop j :=
      List.take_of_length_le (by simp)
    have hlen : (src.drop j).length = src.length - j := by simp
    have hrest : (src.drop j ++ dst.drop (src.length - j)).drop (src.length - j + n) =
        dst.drop (src.length - j + n) := by
      rw [List.drop_append, List.drop_eq_nil_of_le (by omega), List.nil_append, List.drop_drop,
        hlen]
      congr 1
      omega
    rw [copyLoop_eq _ _ _ _ _ (by omega) (by omega), ok_bind, hfirst,
      copyLoop_eq _ _ _ _ _ (by omega) (by simp; omega)]
    simp only [List.take_zero, List.nil_append, Nat.zero_add, List.drop_zero]
    rw [List.take_left' hlen, hrest]
  · have hz : src.length - j = 0 := by omega
    rw [hz, copyLoop, ok_bind, List.drop_eq_nil_of_le hj,
      copyLoop_eq _ _ _ _ _ (by omega) (by omega)]
    simp

/-- The same copy into a destination that is exactly as long. -/
theorem copyLoop_wrap {src dst : List α} {j n : ℕ} (hn : n ≤ src.length)
    (hdst : dst.length = src.length - j + n) :
    (copyLoop src (src.length - j) j 0 dst >>= copyLoop src n 0 (src.length - j)) =
      .ok (src.drop j ++ src.take n) := by
  have hrest : dst.drop (src.length - j + n) = [] := List.drop_eq_nil_of_le (by omega)
  rw [copyLoop_wrap_of_le hn (by omega), hrest, List.append_nil]

/-- The `n` cells of a block from `off` on. -/
def slice (l : List α) (off n : ℕ) : Except Fault (List α) :=
  if off + n ≤ l.length then .ok ((l.drop off).take n)
  else .error (.outOfBounds (off + n - 1) l.length)

theorem slice_of_le {l : List α} {off n : ℕ} (h : off + n ≤ l.length) :
    slice l off n = .ok ((l.drop off).take n) :=
  if_pos h

theorem slice_of_lt {l : List α} {off n : ℕ} (h : l.length < off + n) :
    slice l off n = .error (.outOfBounds (off + n - 1) l.length) :=
  if_neg (by omega)

/-- A block read that goes through lies inside the block. -/
theorem slice_eq_ok {l r : List α} {off n : ℕ} (h : slice l off n = .ok r) :
    off + n ≤ l.length ∧ r = (l.drop off).take n := by
  unfold slice at h
  split_ifs at h with hle
  exact ⟨hle, (Except.ok.inj h).symm⟩

/-- A block read goes wrong in no other way than outside the block. -/
theorem slice_ne_error (l : List α) (off n : ℕ) {e : Fault} (he : e.isOutOfBounds = false) :
    slice l off n ≠ .error e := by
  unfold slice
  split_ifs
  · simp
  · rintro h
    rw [← Except.error.inj h] at he
    cases he

/-- A block read does not see what follows it. -/
theorem slice_append {l r : List α} {off n : ℕ} (h : off + n ≤ l.length) :
    slice (l ++ r) off n = slice l off n := by
  rw [slice_of_le h, slice_of_le (by simp; omega), List.drop_append_of_le_length (by omega),
    List.take_append_of_le_length (by simp; omega)]

/-- A block read up to the end. -/
theorem slice_drop {l : List α} {off n : ℕ} (h : off + n = l.length) :
    slice l off n = .ok (l.drop off) := by
  rw [slice_of_le (Nat.le_of_eq h), List.take_of_length_le (by simp; omega)]

/-! ## Reading within a block

A computation that reads a block and stays inside it gives the same on every longer one.
-/

/-- What the computation gives on a block, it gives on every longer one. -/
def Extends (f : List α → Except Fault β) : Prop :=
  ∀ ⦃l b⦄, f l = .ok b → ∀ r, f (l ++ r) = .ok b

theorem extends_const (x : Except Fault β) : Extends fun _ : List α => x :=
  fun _ _ h _ => h

theorem extends_readAt (i : ℕ) : Extends fun l : List α => readAt l i := by
  intro l b h r
  obtain ⟨hi, -⟩ := List.getElem?_eq_some_iff.1 (readAt_eq_ok.1 h)
  exact readAt_eq_ok.2 ((List.getElem?_append_left hi).trans (readAt_eq_ok.1 h))

theorem extends_slice (off n : ℕ) : Extends fun l : List α => slice l off n := by
  intro l b h r
  have hle : off + n ≤ l.length := by
    by_contra hgt
    cases (slice_of_lt (Nat.lt_of_not_le hgt)).symm.trans h
  exact (slice_append hle).trans h

theorem extends_bind {γ : Type u} {f : List α → Except Fault β}
    {g : β → List α → Except Fault γ} (hf : Extends f) (hg : ∀ b, Extends (g b)) :
    Extends fun l => f l >>= fun b => g b l := by
  intro l c h r
  obtain ⟨b, hb, hc⟩ := bind_eq_ok.1 h
  exact bind_eq_ok.2 ⟨b, hf hb r, hg b hc r⟩

theorem extends_ite {p : Prop} [Decidable p] {f g : List α → Except Fault β} (hf : Extends f)
    (hg : Extends g) : Extends fun l => if p then f l else g l := by
  split_ifs
  · exact hf
  · exact hg

/-- A computation that extends goes the same way on every longer block exactly when it goes
through on the block itself. -/
theorem Extends.exists_forall_iff {f : List α → Except Fault β} (hf : Extends f) (l : List α) :
    (∃ b, ∀ r, f (l ++ r) = .ok b) ↔ (f l).isOk = true := by
  constructor
  · rintro ⟨b, hb⟩
    rw [← List.append_nil l, hb []]
    rfl
  · intro h
    obtain ⟨b, hb⟩ := exists_of_isOk h
    exact ⟨b, hf hb⟩

@[simp] theorem isOk_ok (b : β) : (Except.ok b : Except ε β).isOk = true :=
  rfl

/-- A block read goes through inside the block only. -/
theorem isOk_slice_bind {l : List α} {off n : ℕ} {f : List α → Except Fault β} :
    (slice l off n >>= f).isOk = true ↔
      off + n ≤ l.length ∧ (f ((l.drop off).take n)).isOk = true := by
  rcases Nat.lt_or_ge l.length (off + n) with hlt | hle
  · rw [slice_of_lt hlt]
    exact iff_of_false (by simp [Except.isOk, Except.toBool]) fun h => by omega
  · rw [slice_of_le hle, ok_bind]
    exact (and_iff_right hle).symm

end Memory

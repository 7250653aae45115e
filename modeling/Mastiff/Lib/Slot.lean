import Mathlib.Data.List.GetD
import Mathlib.Tactic.Common

/-!
# Values handed over through one cell

A writer gives values one after the other and stores them in a cell, and a reader takes what
the cell holds. The values are numbered from 1 in the order given, `stored` is the number of
the value in the cell, 0 for none, and `taken` has the numbers taken, the last one first.

As long as every value is taken after a later store than the one before it (`InOrder.take`),
a value taken is new exactly if its number is past the last one taken (`fresh_iff`), and the
last value given has been taken exactly if it is the last one taken (`length_mem_iff`).

Where the cell is only taken after it was stored, both can be told from the order of the
operations alone (`Recorded`).
-/

namespace Slot

variable {α : Type} {given : List α} {stored : ℕ} {held a : α} {taken : List ℕ}

/-- The number of the value last taken. -/
def lastTaken (taken : List ℕ) : ℕ :=
  taken.headD 0

theorem lastTaken_mem (h : 0 < lastTaken taken) : lastTaken taken ∈ taken := by
  cases taken with
  | nil => cases h
  | cons n ns => exact List.mem_cons_self ..

/-- The values are taken in the order given, and the cell holds one of those given from the
last one taken on, or none. -/
structure InOrder (given : List α) (stored : ℕ) (held : α) (taken : List ℕ) : Prop where
  le_lastTaken : ∀ n ∈ taken, n ≤ lastTaken taken
  lastTaken_le : lastTaken taken ≤ given.length
  lastTaken_le_stored : stored ≠ 0 → lastTaken taken ≤ stored
  stored_le : stored ≤ given.length
  getElem?_held : ∀ i, stored = i + 1 → given[i]? = some held

/-! ## The operations -/

theorem InOrder.nil (held : α) : InOrder [] 0 held [] :=
  ⟨by simp, Nat.le_refl 0, by simp, Nat.le_refl 0, by simp⟩

theorem InOrder.give (h : InOrder given stored held taken) (a : α) :
    InOrder (given ++ [a]) stored held taken := by
  have hlength : (given ++ [a]).length = given.length + 1 := by simp
  refine ⟨h.le_lastTaken, ?_, h.lastTaken_le_stored, ?_, fun i hi => ?_⟩
  · exact hlength ▸ Nat.le_succ_of_le h.lastTaken_le
  · exact hlength ▸ Nat.le_succ_of_le h.stored_le
  · have hget := h.getElem?_held i hi
    rw [List.getElem?_append_left (List.getElem?_eq_some_iff.1 hget).1, hget]

/-- The value given last is stored. -/
theorem InOrder.store (h : InOrder given stored held taken) (hlast : given.getLast? = some a) :
    InOrder given given.length a taken := by
  refine ⟨h.le_lastTaken, h.lastTaken_le, fun _ => h.lastTaken_le, Nat.le_refl _, fun i hi => ?_⟩
  rwa [List.getLast?_eq_getElem?, hi, Nat.add_sub_cancel] at hlast

/-- The cell is emptied. -/
theorem InOrder.clear (h : InOrder given stored held taken) (empty : α) :
    InOrder given 0 empty taken :=
  ⟨h.le_lastTaken, h.lastTaken_le, fun hne => absurd rfl hne, Nat.zero_le _, by simp⟩

theorem InOrder.take (h : InOrder given stored held taken) (hle : lastTaken taken ≤ stored) :
    InOrder given stored held (stored :: taken) := by
  refine ⟨fun n hn => ?_, h.stored_le, fun _ => Nat.le_refl _, h.stored_le, h.getElem?_held⟩
  rcases List.mem_cons.1 hn with rfl | hn
  · exact Nat.le_refl _
  · exact Nat.le_trans (h.le_lastTaken n hn) hle

/-! ## What has been taken -/

/-- The last value given has been taken exactly if it is the last one taken. -/
theorem InOrder.length_mem_iff (h : InOrder given stored held taken) (hne : given ≠ []) :
    given.length ∈ taken ↔ lastTaken taken = given.length := by
  have hpos := List.length_pos_iff.2 hne
  constructor
  · intro hmem
    exact Nat.le_antisymm h.lastTaken_le (h.le_lastTaken _ hmem)
  · intro hlast
    rw [← hlast] at hpos ⊢
    exact lastTaken_mem hpos

/-- The cell holds a value that has not been taken exactly if it was stored after the last one
taken. -/
theorem InOrder.fresh_iff (h : InOrder given stored held taken) :
    (∃ i, stored = i + 1 ∧ given[i]? = some held) ∧ stored ∉ taken ↔
      lastTaken taken < stored := by
  constructor
  · rintro ⟨⟨i, hi, -⟩, hnot⟩
    have hle := h.lastTaken_le_stored (by omega)
    by_contra hlt
    have heq : lastTaken taken = stored := by omega
    exact hnot (heq ▸ lastTaken_mem (by omega))
  · intro hlt
    obtain ⟨i, hi⟩ := Nat.exists_eq_add_one_of_ne_zero (n := stored) (by omega)
    refine ⟨⟨i, hi, h.getElem?_held i hi⟩, fun hmem => ?_⟩
    have hle := h.le_lastTaken _ hmem
    omega

/-! ## The order of the operations -/

/-- What is done with the cell. -/
inductive Use
  | give
  | store
  | clear
  | take
  deriving DecidableEq

/-- Of the operations, the latest first : a value has been stored since the cell was last taken
or emptied. -/
def StoredSince : List Use → Prop
  | .store :: _ => True
  | .give :: us => StoredSince us
  | _ => False

/-- The last value given has been stored. -/
def LastStored : List Use → Prop
  | [] => True
  | .give :: _ => False
  | .store :: _ => True
  | _ :: us => LastStored us

/-- The last value given has been stored, and the cell taken after that. -/
def LastServed : List Use → Prop
  | [] => True
  | .give :: _ => False
  | .take :: us => LastStored us
  | _ :: us => LastServed us

variable {us : List Use}

/-- The order of the operations says what the numbers do. -/
structure Recorded (us : List Use) (given : List α) (stored : ℕ) (taken : List ℕ) : Prop where
  storedSince : StoredSince us ↔ lastTaken taken < stored
  lastStored : StoredSince us → (LastStored us ↔ stored = given.length)
  lastServed : LastServed us ↔ lastTaken taken = given.length

theorem Recorded.nil : Recorded [] ([] : List α) 0 [] :=
  ⟨iff_of_false id (Nat.lt_irrefl 0), fun h => h.elim, iff_of_true trivial rfl⟩

theorem Recorded.give (h : Recorded us given stored taken)
    (hin : InOrder given stored held taken) (a : α) :
    Recorded (.give :: us) (given ++ [a]) stored taken := by
  have hlength : (given ++ [a]).length = given.length + 1 := by simp
  have hstored := hin.stored_le
  have htaken := hin.lastTaken_le
  exact ⟨h.storedSince, fun _ => iff_of_false id (by omega), iff_of_false id (by omega)⟩

theorem Recorded.clear (h : Recorded us given stored taken) :
    Recorded (.clear :: us) given 0 taken :=
  ⟨iff_of_false id (Nat.not_lt_zero _), fun hno => hno.elim, h.lastServed⟩

/-- The cell is taken after it was stored. -/
theorem Recorded.take (h : Recorded us given stored taken) (hsince : StoredSince us) :
    Recorded (.take :: us) given stored (stored :: taken) :=
  ⟨iff_of_false id (Nat.lt_irrefl stored), fun hno => hno.elim, h.lastStored hsince⟩

/-- The last value given is neither stored nor taken. -/
structure Unstored (given : List α) (stored : ℕ) (taken : List ℕ) (a : α) : Prop where
  getLast?_given : given.getLast? = some a
  stored_lt : stored < given.length
  lastTaken_lt : lastTaken taken < given.length

theorem InOrder.unstored (h : InOrder given stored held taken) (a : α) :
    Unstored (given ++ [a]) stored taken a := by
  have hlength : (given ++ [a]).length = given.length + 1 := by simp
  refine ⟨List.getLast?_concat, ?_, ?_⟩
  · exact hlength ▸ Nat.lt_succ_of_le h.stored_le
  · exact hlength ▸ Nat.lt_succ_of_le h.lastTaken_le

theorem Unstored.clear (h : Unstored given stored taken a) : Unstored given 0 taken a :=
  ⟨h.getLast?_given, Nat.zero_lt_of_lt h.stored_lt, h.lastTaken_lt⟩

theorem Unstored.take (h : Unstored given stored taken a) :
    Unstored given stored (stored :: taken) a :=
  ⟨h.getLast?_given, h.stored_lt, h.stored_lt⟩

theorem Recorded.store (h : Recorded us given stored taken)
    (hlast : Unstored given stored taken a) :
    Recorded (.store :: us) given given.length taken :=
  ⟨iff_of_true trivial hlast.lastTaken_lt, fun _ => iff_of_true trivial rfl, h.lastServed⟩

end Slot

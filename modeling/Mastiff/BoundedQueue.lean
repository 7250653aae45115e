import Mathlib.Data.Fin.VecNotation
import Mathlib.Data.Int.ModEq
import Mastiff.Lib.Threads

/-!
# The bounded queue

`BoundedQueue` (`cyber/base/bounded_queue.h`) is the queue of the scheduler's task pool and
of the timers. Any number of threads call `Enqueue` and `Dequeue`, without a lock. A call is
modelled as the steps in which it reaches shared memory : the loads and the weak
compare-exchanges of the three counters, and the copy of an element into its slot and out of
it, one word a step. A run is any interleaving of the steps of any threads.

`fifo` : in every run the elements dequeued are the first of those enqueued, in order and as
they were, at most `size` elements are in between, and `Dequeue` reports an empty queue only
when all that was committed has been dequeued. Elements that other threads overwrite while
they are copied out are never returned.

The counters are taken not to reach 2^64.
-/

set_option linter.unusedSectionVars false

namespace Mastiff.Cyber

open Machine Threads

variable {τ β : Type} {w : ℕ}

/-! ## The queue -/

/-- The members of `BoundedQueue`. An element has `w` words. -/
structure BoundedQueue (w : ℕ) (β : Type) where
  head : ℕ := 0
  tail : ℕ := 1
  commit : ℕ := 1
  poolSize : ℕ
  pool : ℕ → Fin w → β

/-- Where a thread is : outside, or about to make a step of `Enqueue` or `Dequeue`. -/
inductive QueuePlace (w : ℕ) (β : Type)
  | idle
  | loadTail (element : Fin w → β)
  | checkFull (element : Fin w → β) (oldTail : ℕ)
  | casTail (element : Fin w → β) (oldTail : ℕ)
  | write (element : Fin w → β) (oldTail j : ℕ)
  | casCommit (element : Fin w → β) (oldTail : ℕ)
  | loadHead (element : Fin w → β)
  | checkEmpty (element : Fin w → β) (oldHead : ℕ)
  | read (element : Fin w → β) (oldHead j : ℕ)
  | casHead (element : Fin w → β) (oldHead : ℕ)

/-- A thread that is outside calls a function, the out parameter of `Dequeue` as its caller
left it, or a thread makes its next step, in which a weak compare-exchange may fail. -/
inductive QueueTurn (w : ℕ) (β : Type)
  | enqueue (element : Fin w → β)
  | dequeue (element : Fin w → β)
  | go (weak : Bool)

/-- What a step tells : an element got its slot, a call of `Enqueue` returned true or false,
or one of `Dequeue` did. -/
inductive QueueEvent (w : ℕ) (β : Type)
  | quiet
  | reserved (element : Fin w → β)
  | enqueued (element : Fin w → β)
  | full
  | dequeued (element : Fin w → β)
  | empty

namespace BoundedQueue

/-- `GetIndex`. -/
def getIndex (q : BoundedQueue w β) (num : ℕ) : ℕ :=
  num - num / q.poolSize * q.poolSize

/-- `Size`. -/
def size (q : BoundedQueue w β) : ℕ :=
  q.tail - q.head - 1

/-- `Init`. -/
def init (size : ℕ) (blank : Fin w → β) : BoundedQueue w β :=
  { poolSize := size + 2, pool := fun _ => blank }

/-- One word of a slot is written. -/
def store (q : BoundedQueue w β) (num : ℕ) (j : Fin w) (word : β) : BoundedQueue w β :=
  let i := q.getIndex num
  { q with pool := Function.update q.pool i (Function.update (q.pool i) j word) }

/-- `Enqueue`, from its first load on. -/
def enqueueStep (q : BoundedQueue w β) (weak : Bool) :
    QueuePlace w β → (BoundedQueue w β × QueuePlace w β) × QueueEvent w β
  | .loadTail x => ((q, .checkFull x q.tail), .quiet)
  | .checkFull x oldTail =>
    if q.getIndex (oldTail + 1) = q.getIndex q.head then ((q, .idle), .full)
    else ((q, .casTail x oldTail), .quiet)
  | .casTail x oldTail =>
    if q.tail = oldTail ∧ weak = false then
      (({ q with tail := oldTail + 1 }, .write x oldTail 0), .reserved x)
    else ((q, .checkFull x q.tail), .quiet)
  | .write x oldTail j =>
    if h : j < w then ((q.store oldTail ⟨j, h⟩ (x ⟨j, h⟩), .write x oldTail (j + 1)), .quiet)
    else ((q, .casCommit x oldTail), .quiet)
  | .casCommit x oldTail =>
    if q.commit = oldTail ∧ weak = false then
      (({ q with commit := oldTail + 1 }, .idle), .enqueued x)
    else ((q, .casCommit x oldTail), .quiet)
  | p => ((q, p), .quiet)

/-- `Dequeue`, from its first load on. -/
def dequeueStep (q : BoundedQueue w β) (weak : Bool) :
    QueuePlace w β → (BoundedQueue w β × QueuePlace w β) × QueueEvent w β
  | .loadHead x => ((q, .checkEmpty x q.head), .quiet)
  | .checkEmpty x oldHead =>
    if oldHead + 1 = q.commit then ((q, .idle), .empty) else ((q, .read x oldHead 0), .quiet)
  | .read x oldHead j =>
    if h : j < w then
      ((q, .read (Function.update x ⟨j, h⟩ (q.pool (q.getIndex (oldHead + 1)) ⟨j, h⟩)) oldHead
        (j + 1)), .quiet)
    else ((q, .casHead x oldHead), .quiet)
  | .casHead x oldHead =>
    if q.head = oldHead ∧ weak = false then
      (({ q with head := oldHead + 1 }, .idle), .dequeued x)
    else ((q, .checkEmpty x q.head), .quiet)
  | p => ((q, p), .quiet)

end BoundedQueue

/-- The place is one of `Enqueue`. -/
def QueuePlace.inEnqueue : QueuePlace w β → Bool
  | .loadTail _ | .checkFull _ _ | .casTail _ _ | .write _ _ _ | .casCommit _ _ => true
  | _ => false

/-- A step of a thread. Only a thread that is outside can call. -/
def BoundedQueue.act (_ : τ) (i : QueueTurn w β) (q : BoundedQueue w β) (p : QueuePlace w β) :
    (BoundedQueue w β × QueuePlace w β) × QueueEvent w β :=
  match i, p with
  | .enqueue x, .idle => ((q, .loadTail x), .quiet)
  | .dequeue x, .idle => ((q, .loadHead x), .quiet)
  | .enqueue _, p => ((q, p), .quiet)
  | .dequeue _, p => ((q, p), .quiet)
  | .go weak, p => if p.inEnqueue then q.enqueueStep weak p else q.dequeueStep weak p

/-- All threads are outside a queue of the given size. -/
def BoundedQueue.start (size : ℕ) (blank : Fin w → β) :
    State τ (BoundedQueue w β) (QueuePlace w β) :=
  ⟨BoundedQueue.init size blank, fun _ => .idle⟩

/-- The elements that got a slot, in order. -/
def entered (os : List (QueueEvent w β)) : List (Fin w → β) :=
  os.filterMap fun o => match o with
    | .reserved x => some x
    | _ => none

/-- The elements whose `Enqueue` returned true, in order. -/
def enqueued (os : List (QueueEvent w β)) : List (Fin w → β) :=
  os.filterMap fun o => match o with
    | .enqueued x => some x
    | _ => none

/-- The elements returned by `Dequeue`, in order. -/
def left (os : List (QueueEvent w β)) : List (Fin w → β) :=
  os.filterMap fun o => match o with
    | .dequeued x => some x
    | _ => none

/-! ## What a step does -/

namespace BoundedQueue

variable {q : BoundedQueue w β} {size k m : ℕ} {x : Fin w → β} {os : List (QueueEvent w β)}

theorem getIndex_eq (q : BoundedQueue w β) (num : ℕ) : q.getIndex num = num % q.poolSize := by
  have h := Nat.mod_add_div' num q.poolSize
  rw [getIndex]
  omega

/-- Numbers less than the size of the pool apart have different slots. -/
theorem getIndex_ne (hlt : k < m) (hm : m < k + q.poolSize) : q.getIndex k ≠ q.getIndex m := by
  intro h
  rw [getIndex_eq, getIndex_eq] at h
  have hdvd : q.poolSize ∣ m - k := (Nat.modEq_iff_dvd' hlt.le).1 h
  have hle := Nat.le_of_dvd (by omega) hdvd
  omega

theorem store_pool_of_ne {j : Fin w} {word : β} (h : q.getIndex m ≠ q.getIndex k) :
    (q.store k j word).pool (q.getIndex m) = q.pool (q.getIndex m) :=
  Function.update_of_ne h _ _

theorem store_pool_self {j : Fin w} {word : β} :
    (q.store k j word).pool (q.getIndex k) =
      Function.update (q.pool (q.getIndex k)) j word :=
  Function.update_self ..

end BoundedQueue

/-- The number that a thread has reserved and not yet committed. -/
def QueuePlace.number : QueuePlace w β → Option ℕ
  | .write _ k _ | .casCommit _ k => some k
  | _ => none

/-- The ways in which a step from the place `p` can change the queue. -/
inductive Effect (q : BoundedQueue w β) (p : QueuePlace w β) :
    BoundedQueue w β → QueuePlace w β → QueueEvent w β → Prop
  | quiet {p' : QueuePlace w β} {o : QueueEvent w β} (hnumber : p'.number = p.number)
      (hentered : entered [o] = []) (henqueued : enqueued [o] = []) (hleft : left [o] = []) :
      Effect q p q p' o
  | reserve (x : Fin w → β) (hp : p = .casTail x q.tail) :
      Effect q p { q with tail := q.tail + 1 } (.write x q.tail 0) (.reserved x)
  | store (x : Fin w → β) (k : ℕ) (j : Fin w) (hp : p = .write x k j) :
      Effect q p (q.store k j (x j)) (.write x k (j + 1)) .quiet
  | commit (x : Fin w → β) (hp : p = .casCommit x q.commit) :
      Effect q p { q with commit := q.commit + 1 } .idle (.enqueued x)
  | take (x : Fin w → β) (hp : p = .casHead x q.head) :
      Effect q p { q with head := q.head + 1 } .idle (.dequeued x)

namespace BoundedQueue

theorem enqueueStep_effect (q : BoundedQueue w β) (weak : Bool) (p : QueuePlace w β) :
    Effect q p (q.enqueueStep weak p).1.1 (q.enqueueStep weak p).1.2
      (q.enqueueStep weak p).2 := by
  cases p <;> simp only [enqueueStep]
  case checkFull x oldTail => split <;> exact .quiet rfl rfl rfl rfl
  case casTail x oldTail =>
    split
    · rename_i h
      obtain rfl := h.1
      exact .reserve x rfl
    · exact .quiet rfl rfl rfl rfl
  case write x oldTail j =>
    split
    · rename_i h
      exact .store x oldTail ⟨j, h⟩ rfl
    · exact .quiet rfl rfl rfl rfl
  case casCommit x oldTail =>
    split
    · rename_i h
      obtain rfl := h.1
      exact .commit x rfl
    · exact .quiet rfl rfl rfl rfl
  all_goals exact .quiet rfl rfl rfl rfl

theorem dequeueStep_effect (q : BoundedQueue w β) (weak : Bool) (p : QueuePlace w β) :
    Effect q p (q.dequeueStep weak p).1.1 (q.dequeueStep weak p).1.2
      (q.dequeueStep weak p).2 := by
  cases p <;> simp only [dequeueStep]
  case checkEmpty x oldHead => split <;> exact .quiet rfl rfl rfl rfl
  case read x oldHead j => split <;> exact .quiet rfl rfl rfl rfl
  case casHead x oldHead =>
    split
    · rename_i h
      obtain rfl := h.1
      exact .take x rfl
    · exact .quiet rfl rfl rfl rfl
  all_goals exact .quiet rfl rfl rfl rfl

theorem act_effect (t : τ) (i : QueueTurn w β) (q : BoundedQueue w β) (p : QueuePlace w β) :
    Effect q p (act t i q p).1.1 (act t i q p).1.2 (act t i q p).2 := by
  cases i with
  | enqueue x => cases p <;> exact .quiet rfl rfl rfl rfl
  | dequeue x => cases p <;> exact .quiet rfl rfl rfl rfl
  | go weak =>
    rw [act]
    split
    · exact enqueueStep_effect q weak p
    · exact dequeueStep_effect q weak p

end BoundedQueue

/-! ## The outline -/

/-- The numbers from 1 on are given to the elements in the order they enter. Those up to the
head have left, those below the commit are in their slots, and the tail is the next one. -/
structure BoundedQueue.Good (size : ℕ) (os : List (QueueEvent w β)) (q : BoundedQueue w β) :
    Prop where
  poolSize : q.poolSize = size + 2
  length : (entered os).length + 1 = q.tail
  enqueued_eq : enqueued os = (entered os).take (q.commit - 1)
  left_eq : left os = (entered os).take q.head
  head_lt : q.head < q.commit
  commit_le : q.commit ≤ q.tail
  tail_lt : q.tail < q.head + q.poolSize
  slot : ∀ k x, q.head ≤ k → k + 1 < q.commit → (entered os)[k]? = some x →
    q.pool (q.getIndex (k + 1)) = x

/-- What a thread at a place knows of the queue. The counters it has loaded may be old, but
they never go back, and a compare-exchange that succeeds finds that they are not. -/
def QueuePlace.Knows (os : List (QueueEvent w β)) (q : BoundedQueue w β) :
    QueuePlace w β → Prop
  | .idle | .loadTail _ | .loadHead _ => True
  | .checkFull _ k => k ≤ q.tail
  | .casTail _ k => k ≤ q.tail ∧ (k = q.tail → k + 1 < q.head + q.poolSize)
  | .write x k j => q.commit ≤ k ∧ k < q.tail ∧ (entered os)[k - 1]? = some x ∧
      ∀ i : Fin w, i < j → q.pool (q.getIndex k) i = x i
  | .casCommit x k => q.commit ≤ k ∧ k < q.tail ∧ (entered os)[k - 1]? = some x ∧
      q.pool (q.getIndex k) = x
  | .checkEmpty _ k => k ≤ q.head
  | .read x k j => k ≤ q.head ∧ (k = q.head → k + 1 < q.commit ∧
      ∃ y, (entered os)[k]? = some y ∧ ∀ i : Fin w, i < j → x i = y i)
  | .casHead x k => k ≤ q.head ∧ (k = q.head → k + 1 < q.commit ∧ (entered os)[k]? = some x)

/-- Two threads have not reserved the same number. -/
def QueuePlace.Apart (p p' : QueuePlace w β) : Prop :=
  ∀ k, p.number = some k → p'.number ≠ some k

variable {q q' : BoundedQueue w β} {p p' r : QueuePlace w β} {o : QueueEvent w β}
  {os : List (QueueEvent w β)} {size : ℕ}

theorem entered_append (os : List (QueueEvent w β)) (o : QueueEvent w β) :
    entered (os ++ [o]) = entered os ++ entered [o] :=
  List.filterMap_append

theorem enqueued_append (os : List (QueueEvent w β)) (o : QueueEvent w β) :
    enqueued (os ++ [o]) = enqueued os ++ enqueued [o] :=
  List.filterMap_append

theorem left_append (os : List (QueueEvent w β)) (o : QueueEvent w β) :
    left (os ++ [o]) = left os ++ left [o] :=
  List.filterMap_append

theorem entered_append_of_nil (os : List (QueueEvent w β)) (h : entered [o] = []) :
    entered (os ++ [o]) = entered os := by
  rw [entered_append, h, List.append_nil]

theorem enqueued_append_of_nil (os : List (QueueEvent w β)) (h : enqueued [o] = []) :
    enqueued (os ++ [o]) = enqueued os := by
  rw [enqueued_append, h, List.append_nil]

theorem left_append_of_nil (os : List (QueueEvent w β)) (h : left [o] = []) :
    left (os ++ [o]) = left os := by
  rw [left_append, h, List.append_nil]

/-- An element that has entered keeps its number. -/
theorem entered_getElem? {k : ℕ} {x : Fin w → β} (h : (entered os)[k]? = some x) :
    (entered (os ++ [o]))[k]? = some x := by
  rw [entered_append, List.getElem?_append_left (List.getElem?_eq_some_iff.1 h).1, h]

theorem knows_congr {os' : List (QueueEvent w β)} (h : entered os' = entered os) :
    r.Knows os' q ↔ r.Knows os q := by
  cases r <;> simp only [QueuePlace.Knows, h]

namespace BoundedQueue

theorem Good.head_le_length (h : q.Good size os) : q.head ≤ (entered os).length := by
  have hlength := h.length
  have hhead := h.head_lt
  have hcommit := h.commit_le
  omega

theorem Good.effect (h : q.Good size os) (hp : p.Knows os q) (he : Effect q p q' p' o) :
    q'.Good size (os ++ [o]) := by
  obtain ⟨hsize, hlength, henqueued, hleft, hhead, hcommit, htail, hslot⟩ := h
  cases he with
  | quiet _ hnone₁ hnone₂ hnone₃ =>
    have he := entered_append_of_nil os hnone₁
    refine ⟨hsize, he ▸ hlength, ?_, ?_, hhead, hcommit, htail, he ▸ hslot⟩
    · rw [enqueued_append_of_nil os hnone₂, he, henqueued]
    · rw [left_append_of_nil os hnone₃, he, hleft]
  | reserve x hp' =>
    subst hp'
    have hroom := hp.2 rfl
    have he : entered (os ++ [.reserved x]) = entered os ++ [x] := entered_append os _
    have hle : q.commit - 1 ≤ (entered os).length := by omega
    have hle' : q.head ≤ (entered os).length := by omega
    refine ⟨hsize, ?_, ?_, ?_, hhead, Nat.le_succ_of_le hcommit, hroom, fun k y hk hlt hy => ?_⟩
    · rw [he, List.length_append, List.length_singleton]
      exact congrArg (· + 1) hlength
    · rw [enqueued_append_of_nil os rfl, he, List.take_append_of_le_length hle, henqueued]
    · rw [left_append_of_nil os rfl, he, List.take_append_of_le_length hle', hleft]
    · have hlt' : k + 1 < q.commit := hlt
      rw [he, List.getElem?_append_left (by omega)] at hy
      exact hslot k y hk hlt hy
  | store x n j hp' =>
    subst hp'
    obtain ⟨hn, hlt, -, -⟩ := hp
    have he := entered_append_of_nil os (o := .quiet) rfl
    refine ⟨hsize, he ▸ hlength, ?_, ?_, hhead, hcommit, htail, fun k y hk hk' hy => ?_⟩
    · exact (enqueued_append_of_nil os rfl).trans (he ▸ henqueued)
    · exact (left_append_of_nil os rfl).trans (he ▸ hleft)
    · have hk'' : k + 1 < q.commit := hk'
      have hne : q.getIndex (k + 1) ≠ q.getIndex n :=
        getIndex_ne (by omega) (by have : q.head ≤ k := hk; omega)
      exact (store_pool_of_ne hne).trans (hslot k y hk hk' (he ▸ hy))
  | commit x hp' =>
    subst hp'
    obtain ⟨-, hlt, hx, hpool⟩ := hp
    have he := entered_append_of_nil os (o := .enqueued x) rfl
    have hq : enqueued (os ++ [.enqueued x]) = enqueued os ++ [x] := enqueued_append os _
    have hnumber : q.commit + 1 - 1 = q.commit - 1 + 1 := by omega
    refine ⟨hsize, he ▸ hlength, ?_, ?_, Nat.lt_succ_of_lt hhead, hlt, htail,
      fun k y hk hk' hy => ?_⟩
    · rw [hq, he, henqueued, hnumber, List.take_add_one, hx]
      rfl
    · exact (left_append_of_nil os rfl).trans (he ▸ hleft)
    · rw [he] at hy
      rcases Nat.lt_or_ge (k + 1) q.commit with hlt' | hge
      · exact hslot k y hk hlt' hy
      · have hk'' : k + 1 < q.commit + 1 := hk'
        obtain rfl : k = q.commit - 1 := by omega
        obtain rfl := Option.some.inj (hx.symm.trans hy)
        rw [show q.commit - 1 + 1 = q.commit by omega]
        exact hpool
  | take x hp' =>
    subst hp'
    obtain ⟨hlt, hx⟩ := hp.2 rfl
    have he := entered_append_of_nil os (o := .dequeued x) rfl
    have hl : left (os ++ [.dequeued x]) = left os ++ [x] := left_append os _
    refine ⟨hsize, he ▸ hlength, ?_, ?_, hlt, hcommit, by simp only; omega,
      fun k y hk hk' hy => ?_⟩
    · exact (enqueued_append_of_nil os rfl).trans (he ▸ henqueued)
    · rw [hl, he, hleft, List.take_add_one, hx]
      rfl
    · exact hslot k y (Nat.le_of_succ_le hk) hk' (he ▸ hy)

/-- What a thread knows outlasts a step of another one. -/
theorem knows_effect (h : q.Good size os) (hp : p.Knows os q) (hr : r.Knows os q)
    (hapart : p.Apart r) (he : Effect q p q' p' o) : r.Knows (os ++ [o]) q' := by
  obtain ⟨-, hlength, -, -, hhead, hcommit, htail, -⟩ := h
  cases he with
  | quiet _ hentered _ _ =>
    exact (knows_congr (entered_append_of_nil os hentered)).2 hr
  | reserve x hp' =>
    cases r with
    | checkFull y k => exact Nat.le_succ_of_le hr
    | casTail y k => exact ⟨Nat.le_succ_of_le hr.1, fun hk => absurd hr.1 (by simp at hk; omega)⟩
    | write y k j => exact ⟨hr.1, Nat.lt_succ_of_lt hr.2.1, entered_getElem? hr.2.2.1, hr.2.2.2⟩
    | casCommit y k => exact ⟨hr.1, Nat.lt_succ_of_lt hr.2.1, entered_getElem? hr.2.2.1, hr.2.2.2⟩
    | read y k j =>
      refine ⟨hr.1, fun hk => ?_⟩
      obtain ⟨hlt, z, hz, hwords⟩ := hr.2 hk
      exact ⟨hlt, z, entered_getElem? hz, hwords⟩
    | casHead y k => exact ⟨hr.1, fun hk => ⟨(hr.2 hk).1, entered_getElem? (hr.2 hk).2⟩⟩
    | _ => exact hr
  | store x n j hp' =>
    subst hp'
    obtain ⟨hn, hlt, -, -⟩ := hp
    have hne : ∀ k, q.commit ≤ k → k < q.tail → k ≠ n → q.getIndex k ≠ q.getIndex n := by
      intro k hk hk' hkn
      rcases Nat.lt_or_gt_of_ne hkn with h | h
      · exact getIndex_ne h (by omega)
      · exact (getIndex_ne h (by omega)).symm
    cases r with
    | write y k j' =>
      have hkn : k ≠ n := fun hkn => hapart n rfl (congrArg some hkn)
      refine ⟨hr.1, hr.2.1, entered_getElem? hr.2.2.1, fun i hi => ?_⟩
      exact (congrFun (store_pool_of_ne (hne k hr.1 hr.2.1 hkn)) i).trans (hr.2.2.2 i hi)
    | casCommit y k =>
      have hkn : k ≠ n := fun hkn => hapart n rfl (congrArg some hkn)
      refine ⟨hr.1, hr.2.1, entered_getElem? hr.2.2.1, ?_⟩
      exact (store_pool_of_ne (hne k hr.1 hr.2.1 hkn)).trans hr.2.2.2
    | read y k j' =>
      refine ⟨hr.1, fun hk => ?_⟩
      obtain ⟨hlt, z, hz, hwords⟩ := hr.2 hk
      exact ⟨hlt, z, entered_getElem? hz, hwords⟩
    | casHead y k => exact ⟨hr.1, fun hk => ⟨(hr.2 hk).1, entered_getElem? (hr.2 hk).2⟩⟩
    | _ => exact hr
  | commit x hp' =>
    subst hp'
    have hne : ∀ k, q.commit ≤ k → r.number = some k → q.commit + 1 ≤ k := by
      intro k hk hr
      rcases Nat.lt_or_eq_of_le hk with hlt | rfl
      · exact hlt
      · exact absurd hr (hapart _ rfl)
    cases r with
    | write y k j => exact ⟨hne k hr.1 rfl, hr.2.1, entered_getElem? hr.2.2.1, hr.2.2.2⟩
    | casCommit y k => exact ⟨hne k hr.1 rfl, hr.2.1, entered_getElem? hr.2.2.1, hr.2.2.2⟩
    | read y k j =>
      refine ⟨hr.1, fun hk => ?_⟩
      obtain ⟨hlt, z, hz, hwords⟩ := hr.2 hk
      exact ⟨Nat.lt_succ_of_lt hlt, z, entered_getElem? hz, hwords⟩
    | casHead y k =>
      exact ⟨hr.1, fun hk => ⟨Nat.lt_succ_of_lt (hr.2 hk).1, entered_getElem? (hr.2 hk).2⟩⟩
    | _ => exact hr
  | take x hp' =>
    cases r with
    | casTail y k => exact ⟨hr.1, fun hk => Nat.lt_trans (hr.2 hk) (by simp only; omega)⟩
    | write y k j => exact ⟨hr.1, hr.2.1, entered_getElem? hr.2.2.1, hr.2.2.2⟩
    | casCommit y k => exact ⟨hr.1, hr.2.1, entered_getElem? hr.2.2.1, hr.2.2.2⟩
    | checkEmpty y k => exact Nat.le_succ_of_le hr
    | read y k j =>
      exact ⟨Nat.le_succ_of_le hr.1, fun hk => absurd hr.1 (by simp at hk; omega)⟩
    | casHead y k =>
      exact ⟨Nat.le_succ_of_le hr.1, fun hk => absurd hr.1 (by simp at hk; omega)⟩
    | _ => exact hr

/-- A number that another thread has reserved is not reserved again. -/
theorem apart_effect (hr : r.Knows os q) (hapart : p.Apart r) (he : Effect q p q' p' o) :
    p'.Apart r := by
  cases he with
  | quiet hnumber _ _ _ =>
    intro k hk
    exact hapart k (hnumber ▸ hk)
  | reserve x _ =>
    rintro k hk hrk
    obtain rfl : q.tail = k := Option.some.inj hk
    cases r with
    | write y n j =>
      obtain rfl : n = q.tail := Option.some.inj hrk
      exact Nat.lt_irrefl _ hr.2.1
    | casCommit y n =>
      obtain rfl : n = q.tail := Option.some.inj hrk
      exact Nat.lt_irrefl _ hr.2.1
    | _ => cases hrk
  | store x k j hp' =>
    subst hp'
    exact hapart
  | commit x _ =>
    intro k hk
    cases hk
  | take x _ =>
    intro k hk
    cases hk

/-! ## What a thread knows after its own step -/

theorem getIndex_add_poolSize (q : BoundedQueue w β) (num : ℕ) :
    q.getIndex (num + q.poolSize) = q.getIndex num := by
  rw [getIndex_eq, getIndex_eq, Nat.add_mod_right]

/-- A step of `Enqueue` leads to a place whose assertion holds. -/
theorem knows_enqueueStep (h : q.Good size os) (hp : p.Knows os q) (weak : Bool) :
    (q.enqueueStep weak p).1.2.Knows (os ++ [(q.enqueueStep weak p).2])
      (q.enqueueStep weak p).1.1 := by
  obtain ⟨-, hlength, -, -, hhead, hcommit, htail, -⟩ := h
  cases p <;> simp only [enqueueStep]
  case loadTail x => exact Nat.le_refl _
  case checkFull x k =>
    split
    · trivial
    · rename_i hne
      refine ⟨hp, fun hk => ?_⟩
      obtain rfl : k = q.tail := hk
      exact Nat.lt_of_le_of_ne htail fun heq => hne (by rw [heq, getIndex_add_poolSize])
  case casTail x k =>
    split
    · rename_i hcas
      obtain rfl := hcas.1
      refine ⟨hcommit, Nat.lt_succ_self _, ?_, fun i hi => absurd hi (Nat.not_lt_zero _)⟩
      have he : entered (os ++ [.reserved x]) = entered os ++ [x] := entered_append os _
      rw [he, ← hlength, Nat.add_sub_cancel]
      exact List.getElem?_concat_length
    · exact Nat.le_refl _
  case write x k j =>
    obtain ⟨hk, hlt, hx, hwords⟩ := hp
    split
    · rename_i hj
      refine ⟨hk, hlt, entered_getElem? hx, fun i hi => ?_⟩
      refine (congrFun store_pool_self i).trans ?_
      rcases Nat.lt_or_eq_of_le (Nat.le_of_lt_succ hi) with hij | hij
      · rw [Function.update_of_ne (by rintro rfl; exact Nat.lt_irrefl _ hij), hwords i hij]
      · obtain rfl : i = ⟨j, hj⟩ := Fin.ext hij
        exact Function.update_self ..
    · rename_i hj
      refine ⟨hk, hlt, entered_getElem? hx, funext fun i => hwords i ?_⟩
      exact Nat.lt_of_lt_of_le i.isLt (Nat.not_lt.1 hj)
  case casCommit x k =>
    split
    · trivial
    · exact ⟨hp.1, hp.2.1, entered_getElem? hp.2.2.1, hp.2.2.2⟩
  all_goals exact (knows_congr (entered_append_of_nil os rfl)).2 hp

/-- A step of `Dequeue` leads to a place whose assertion holds. -/
theorem knows_dequeueStep (h : q.Good size os) (hp : p.Knows os q) (weak : Bool) :
    (q.dequeueStep weak p).1.2.Knows (os ++ [(q.dequeueStep weak p).2])
      (q.dequeueStep weak p).1.1 := by
  obtain ⟨-, hlength, -, -, hhead, hcommit, -, hslot⟩ := h
  cases p <;> simp only [dequeueStep]
  case loadHead x => exact Nat.le_refl _
  case checkEmpty x k =>
    split
    · trivial
    · rename_i hne
      refine ⟨hp, fun hk => ?_⟩
      obtain rfl : k = q.head := hk
      have hlt : q.head < (entered os).length := by omega
      exact ⟨Nat.lt_of_le_of_ne hhead hne, (entered os)[q.head],
        entered_getElem? (List.getElem?_eq_getElem hlt), fun i hi => absurd hi (Nat.not_lt_zero _)⟩
  case read x k j =>
    split
    · rename_i hj
      refine ⟨hp.1, fun hk => ?_⟩
      obtain ⟨hlt, y, hy, hwords⟩ := hp.2 hk
      refine ⟨hlt, y, entered_getElem? hy, fun i hi => ?_⟩
      rcases Nat.lt_or_eq_of_le (Nat.le_of_lt_succ hi) with hij | hij
      · rw [Function.update_of_ne (by rintro rfl; exact Nat.lt_irrefl _ hij), hwords i hij]
      · obtain rfl : i = ⟨j, hj⟩ := Fin.ext hij
        rw [Function.update_self, hslot k y (Nat.le_of_eq hk.symm) hlt hy]
    · rename_i hj
      refine ⟨hp.1, fun hk => ?_⟩
      obtain ⟨hlt, y, hy, hwords⟩ := hp.2 hk
      obtain rfl : x = y :=
        funext fun i => hwords i (Nat.lt_of_lt_of_le i.isLt (Nat.not_lt.1 hj))
      exact ⟨hlt, entered_getElem? hy⟩
  case casHead x k =>
    split
    · trivial
    · exact Nat.le_refl _
  all_goals exact (knows_congr (entered_append_of_nil os rfl)).2 hp

theorem knows_act (h : q.Good size os) (hp : p.Knows os q) (t : τ) (i : QueueTurn w β) :
    (act t i q p).1.2.Knows (os ++ [(act t i q p).2]) (act t i q p).1.1 := by
  have he : entered (os ++ [.quiet]) = entered os := entered_append_of_nil os rfl
  cases i with
  | enqueue x => cases p <;> first | trivial | exact (knows_congr he).2 hp
  | dequeue x => cases p <;> first | trivial | exact (knows_congr he).2 hp
  | go weak =>
    simp only [act]
    split
    · exact knows_enqueueStep h hp weak
    · exact knows_dequeueStep h hp weak

theorem stable (size : ℕ) :
    Stable (ι := QueueTurn w β) (act (τ := τ)) (Good size) (fun _ os q p => p.Knows os q)
      QueuePlace.Apart where
  symm _ _ h k hk hk' := h k hk' hk
  own t i _ q p h hp := ⟨h.effect hp (act_effect t i q p), knows_act h hp t i⟩
  other t i _ _ q p _ _ h hp hr hapart :=
    ⟨knows_effect h hp hr hapart (act_effect t i q p), apart_effect hr hapart (act_effect t i q p)⟩

variable [DecidableEq τ]

theorem outline_start (size : ℕ) (blank : Fin w → β) :
    Outline (Good size) (fun (_ : τ) os q p => p.Knows os q) QueuePlace.Apart []
      (start size blank) where
  shared := ⟨rfl, rfl, rfl, rfl, Nat.zero_lt_one, Nat.le_refl 1, by simp only [start, init]; omega,
    fun k _ _ hk => absurd hk (by simp [start, init])⟩
  place _ := trivial
  apart _ _ _ _ h := by cases h

/-- The outline holds after every run. -/
theorem outline (size : ℕ) (blank : Fin w → β) (is : List (τ × QueueTurn w β)) :
    Outline (Good size) (fun _ os q p => p.Knows os q) QueuePlace.Apart
      (run (Threads.step act) (start size blank) is).2
      (run (Threads.step act) (start size blank) is).1 :=
  outline_run (stable size) is (outline_start size blank)

/-! ## First in, first out -/

theorem Good.length_left (h : q.Good size os) : (left os).length = q.head := by
  rw [h.left_eq, List.length_take, Nat.min_eq_left h.head_le_length]

theorem Good.left_prefix_enqueued (h : q.Good size os) : left os <+: enqueued os := by
  have hhead := h.head_lt
  rw [h.left_eq, h.enqueued_eq]
  exact List.take_prefix_take_left (by omega)

theorem Good.enqueued_prefix_entered (h : q.Good size os) : enqueued os <+: entered os := by
  rw [h.enqueued_eq]
  exact List.take_prefix _ _

/-- What `Size` gives. -/
theorem Good.size_eq (h : q.Good size os) :
    q.size = (entered os).length - (left os).length := by
  have hlength := h.length
  rw [h.length_left, BoundedQueue.size]
  omega

theorem Good.length_le (h : q.Good size os) :
    (entered os).length ≤ (left os).length + size := by
  have hlength := h.length
  have htail := h.tail_lt
  have hsize := h.poolSize
  rw [h.length_left]
  omega

/-- `Dequeue` reports an empty queue where it compares the head it has loaded with the
commit. -/
theorem act_eq_empty {t : τ} {i : QueueTurn w β} (h : (act t i q p).2 = .empty) :
    ∃ x k, p = .checkEmpty x k ∧ k + 1 = q.commit := by
  cases i with
  | go weak =>
    cases p <;> simp only [act, QueuePlace.inEnqueue, enqueueStep, dequeueStep, if_true,
      Bool.false_eq_true, if_false] at h
    case checkEmpty x k =>
      by_cases heq : k + 1 = q.commit
      · exact ⟨x, k, rfl, heq⟩
      · simp [heq] at h
    all_goals first | cases h | (split at h <;> cases h)
  | _ => cases p <;> cases h

/-- `Enqueue` refuses an element where it compares the tail it has loaded with the head. -/
theorem act_eq_full {t : τ} {i : QueueTurn w β} (h : (act t i q p).2 = .full) :
    ∃ x k, p = .checkFull x k ∧ q.getIndex (k + 1) = q.getIndex q.head := by
  cases i with
  | go weak =>
    cases p <;> simp only [act, QueuePlace.inEnqueue, enqueueStep, dequeueStep, if_true,
      Bool.false_eq_true, if_false] at h
    case checkFull x k =>
      by_cases heq : q.getIndex (k + 1) = q.getIndex q.head
      · exact ⟨x, k, rfl, heq⟩
      · simp [heq] at h
    all_goals first | cases h | (split at h <;> cases h)
  | _ => cases p <;> cases h

/-- When `Dequeue` reports an empty queue, everything committed has left. -/
theorem Good.of_empty (h : q.Good size os) (hp : p.Knows os q) {t : τ} {i : QueueTurn w β}
    (hempty : (act t i q p).2 = .empty) : left os = enqueued os := by
  obtain ⟨x, k, rfl, hk⟩ := act_eq_empty hempty
  have hle : k ≤ q.head := hp
  have hhead := h.head_lt
  rw [h.left_eq, h.enqueued_eq, show q.commit - 1 = q.head by omega]

/-- When `Enqueue` refuses an element, the queue is full, or the tail that it compares with the
head was loaded so long ago that the head has gone past it. -/
theorem Good.of_full (h : q.Good size os) (hp : p.Knows os q) {t : τ} {i : QueueTurn w β}
    (hfull : (act t i q p).2 = .full) :
    (entered os).length = (left os).length + size ∨ ∃ x k, p = .checkFull x k ∧ k < q.head := by
  obtain ⟨x, k, rfl, hk⟩ := act_eq_full hfull
  rcases Nat.lt_or_ge k q.head with hlt | hge
  · exact .inr ⟨x, k, rfl, hlt⟩
  · have hle : k ≤ q.tail := hp
    have hlength := h.length
    have htail := h.tail_lt
    have hsize := h.poolSize
    have hwrap : ¬k + 1 < q.head + q.poolSize := fun hlt =>
      getIndex_ne (Nat.lt_succ_of_le hge) hlt hk.symm
    rw [h.length_left]
    omega

/-- In every run the elements returned by `Dequeue` are the first of those whose `Enqueue`
returned, which are the first of those that entered, unchanged and in order. At most `size`
elements are in between. `Dequeue` reports an empty queue only when everything enqueued has
been returned, and `Enqueue` refuses an element only when `size` elements are in between or
its view of the tail has been overtaken. -/
theorem fifo (size : ℕ) (blank : Fin w → β) (past : List (τ × QueueTurn w β))
    (t : τ × QueueTurn w β) :
    let r := run (Threads.step act) (start size blank) past
    let o := (Threads.step act r.1 t).2
    left r.2 <+: enqueued r.2 ∧ enqueued r.2 <+: entered r.2 ∧
      (entered r.2).length ≤ (left r.2).length + size ∧
      r.1.shared.size = (entered r.2).length - (left r.2).length ∧
      (o = .empty → left r.2 = enqueued r.2) ∧
      (o = .full → (entered r.2).length = (left r.2).length + size ∨
        ∃ x k, r.1.place t.1 = .checkFull x k ∧ k < r.1.shared.head) := by
  have h := outline size blank past
  have hgood := h.shared
  exact ⟨hgood.left_prefix_enqueued, hgood.enqueued_prefix_entered, hgood.length_le,
    hgood.size_eq, hgood.of_empty (h.place t.1), hgood.of_full (h.place t.1)⟩

/-! ## No number is lost -/

/-- Every number that is reserved and not committed is some thread's. -/
def Owned (s : State τ (BoundedQueue w β) (QueuePlace w β)) : Prop :=
  ∀ k, s.shared.commit ≤ k → k < s.shared.tail → ∃ u, (s.place u).number = some k

theorem number_effect {q q' : BoundedQueue w β} {p p' : QueuePlace w β} {o : QueueEvent w β}
    (he : Effect q p q' p' o) {k : ℕ} {W : Prop}
    (h : q.commit ≤ k ∧ k < q.tail → p.number = some k ∨ W) :
    q'.commit ≤ k ∧ k < q'.tail → p'.number = some k ∨ W := by
  cases he with
  | quiet hnumber _ _ _ => rwa [hnumber]
  | reserve x hp =>
    subst hp
    rintro ⟨hcommit, htail⟩
    rcases Nat.lt_or_eq_of_le (Nat.le_of_lt_succ htail) with hlt | rfl
    · exact .inr ((h ⟨hcommit, hlt⟩).resolve_left nofun)
    · exact .inl rfl
  | store x n j hp =>
    subst hp
    exact h
  | commit x hp =>
    subst hp
    rintro ⟨hcommit, htail⟩
    have hlt : q.commit < k := hcommit
    refine .inr ((h ⟨hlt.le, htail⟩).resolve_left fun hk => ?_)
    exact hlt.ne (Option.some.inj hk)
  | take x hp =>
    subst hp
    exact h

theorem Owned.step {s : State τ (BoundedQueue w β) (QueuePlace w β)} (h : Owned s)
    (t : τ × QueueTurn w β) : Owned (Threads.step act s t).1 := fun k hcommit htail =>
  someone_step act (A := fun q : BoundedQueue w β => q.commit ≤ k ∧ k < q.tail)
    (P := fun p : QueuePlace w β => p.number = some k)
    (fun hA => h k hA.1 hA.2) t (fun _ hW => number_effect (act_effect _ _ _ _) hW)
    ⟨hcommit, htail⟩

theorem owned (size : ℕ) (blank : Fin w → β) (is : List (τ × QueueTurn w β)) :
    Owned (run (Threads.step act) (start size blank) is).1 := by
  refine run_history (fun _ s => Owned s) (fun _ _ t h => h.step t) is ?_
  intro k hle hlt
  exact absurd (Nat.lt_of_le_of_lt hle hlt) (Nat.lt_irrefl 1)

/-! ## A call that runs alone -/

/-- A thread that runs alone goes on. -/
abbrev goOn (t : τ) (n : ℕ) (q : BoundedQueue w β) (p : QueuePlace w β) :=
  run (fun qp i => act t i qp.1 qp.2) (q, p) (List.replicate n (.go false))

theorem goOn_zero (t : τ) (q : BoundedQueue w β) (p : QueuePlace w β) :
    goOn t 0 q p = ((q, p), []) :=
  rfl

theorem goOn_succ (t : τ) (n : ℕ) (q : BoundedQueue w β) (p : QueuePlace w β) :
    goOn t (n + 1) q p =
      ((goOn t n (act t (.go false) q p).1.1 (act t (.go false) q p).1.2).1,
        (act t (.go false) q p).2 ::
          (goOn t n (act t (.go false) q p).1.1 (act t (.go false) q p).1.2).2) :=
  rfl

theorem goOn_add (t : τ) (m n : ℕ) (q : BoundedQueue w β) (p : QueuePlace w β) :
    goOn t (m + n) q p =
      ((goOn t n (goOn t m q p).1.1 (goOn t m q p).1.2).1,
        (goOn t m q p).2 ++ (goOn t n (goOn t m q p).1.1 (goOn t m q p).1.2).2) := by
  rw [goOn, List.replicate_add, run_append]

theorem goOn_idle (t : τ) (n : ℕ) (q : BoundedQueue w β) : (goOn t n q .idle).1 = (q, .idle) := by
  induction n with
  | zero => rfl
  | succ n ih => exact ih

/-- An element is copied out of its slot. -/
theorem goOn_read (t : τ) (q : BoundedQueue w β) (k : ℕ) (n : ℕ) :
    ∀ (j : ℕ) (x : Fin w → β), w = j + n →
      ∃ y, (goOn t n q (.read x k j)).1 = (q, .read y k w) := by
  induction n with
  | zero =>
    rintro j x rfl
    exact ⟨x, rfl⟩
  | succ n ih =>
    intro j x hj
    have hj' : j < w := by omega
    obtain ⟨y, hy⟩ := ih (j + 1)
      (Function.update x ⟨j, hj'⟩ (q.pool (q.getIndex (k + 1)) ⟨j, hj'⟩)) (by omega)
    refine ⟨y, Eq.trans ?_ hy⟩
    rw [goOn_succ]
    simp only [act, QueuePlace.inEnqueue, Bool.false_eq_true, if_false, dequeueStep, dif_pos hj']

/-- An element is copied into its slot, and nothing else is done. -/
theorem goOn_write (t : τ) (k : ℕ) (x : Fin w → β) (n : ℕ) :
    ∀ (j : ℕ) (q : BoundedQueue w β), w = j + n →
      ∃ q', (goOn t n q (.write x k j)).1 = (q', .write x k w) ∧ q'.commit = q.commit ∧
        entered (goOn t n q (.write x k j)).2 = [] := by
  induction n with
  | zero =>
    rintro j q rfl
    exact ⟨q, rfl, rfl, rfl⟩
  | succ n ih =>
    intro j q hj
    have hj' : j < w := by omega
    obtain ⟨q', hq', hcommit, hentered⟩ := ih (j + 1) (q.store k ⟨j, hj'⟩ (x ⟨j, hj'⟩)) (by omega)
    refine ⟨q', ?_, hcommit, ?_⟩
    all_goals
      rw [goOn_succ]
      simp only [act, QueuePlace.inEnqueue, if_true, enqueueStep, dif_pos hj']
    · exact hq'
    · exact hentered

/-- `Dequeue` from its first load on, where there is nothing to take. -/
theorem goOn_loadHead_of_eq (t : τ) (q : BoundedQueue w β) (e : Fin w → β)
    (h : q.head + 1 = q.commit) : (goOn t (w + 4) q (.loadHead e)).1 = (q, .idle) := by
  rw [goOn_succ]
  change (goOn t (w + 3) q (.checkEmpty e q.head)).1 = (q, .idle)
  rw [goOn_succ]
  simp only [act, QueuePlace.inEnqueue, Bool.false_eq_true, if_false, dequeueStep, if_pos h]
  exact goOn_idle t (w + 2) q

/-- `Dequeue` from its first load on, where there is something to take. -/
theorem goOn_loadHead_of_ne (t : τ) (q : BoundedQueue w β) (e : Fin w → β)
    (h : q.head + 1 ≠ q.commit) :
    (goOn t (w + 4) q (.loadHead e)).1 = ({ q with head := q.head + 1 }, .idle) := by
  obtain ⟨y, hy⟩ := goOn_read t q q.head w 0 e (Nat.zero_add w).symm
  rw [goOn_succ]
  change (goOn t (w + 3) q (.checkEmpty e q.head)).1 = _
  rw [goOn_succ]
  simp only [act, QueuePlace.inEnqueue, Bool.false_eq_true, if_false, dequeueStep, if_neg h]
  rw [goOn_add, hy, goOn_succ]
  simp only [act, QueuePlace.inEnqueue, Bool.false_eq_true, if_false, dequeueStep, lt_irrefl,
    dif_neg, not_false_eq_true]
  rw [goOn_succ]
  simp only [act, QueuePlace.inEnqueue, Bool.false_eq_true, if_false, dequeueStep, and_self,
    if_true]
  exact goOn_idle t 0 _

/-- `Enqueue` from its first load on, where the queue is full. -/
theorem goOn_loadTail_of_eq (t : τ) (q : BoundedQueue w β) (x : Fin w → β)
    (h : q.getIndex (q.tail + 1) = q.getIndex q.head) :
    (goOn t (w + 5) q (.loadTail x)).1 = (q, .idle) ∧
      entered (goOn t (w + 5) q (.loadTail x)).2 = [] := by
  have hstep : goOn t (w + 5) q (.loadTail x) =
      ((goOn t (w + 3) q .idle).1, .quiet :: .full :: (goOn t (w + 3) q .idle).2) := by
    rw [goOn_succ, show (act t (.go false) q (.loadTail x)).1 = (q, .checkFull x q.tail) from rfl,
      goOn_succ]
    simp only [act, QueuePlace.inEnqueue, if_true, enqueueStep, if_pos h]
  have hidle : ∀ n, entered (goOn t n q .idle).2 = [] := by
    intro n
    induction n with
    | zero => rfl
    | succ n ih => exact ih
  rw [hstep]
  exact ⟨goOn_idle t (w + 3) q, hidle (w + 3)⟩

/-- `Enqueue` from its first load on, where there is room and no other element is under way. -/
theorem goOn_loadTail_of_ne (t : τ) (q : BoundedQueue w β) (x : Fin w → β)
    (h : q.getIndex (q.tail + 1) ≠ q.getIndex q.head) (hcommit : q.commit = q.tail) :
    ∃ q', (goOn t (w + 5) q (.loadTail x)).1 = (q', .idle) ∧
      q'.commit = q.commit + 1 ∧ entered (goOn t (w + 5) q (.loadTail x)).2 = [x] := by
  obtain ⟨q', hq', hc, he⟩ :=
    goOn_write t q.tail x w 0 { q with tail := q.tail + 1 } (Nat.zero_add w).symm
  have hc' : q'.commit = q.tail := hc.trans hcommit
  have hreserve : goOn t (w + 5) q (.loadTail x) =
      ((goOn t (w + 2) { q with tail := q.tail + 1 } (.write x q.tail 0)).1,
        .quiet :: .quiet :: .reserved x ::
          (goOn t (w + 2) { q with tail := q.tail + 1 } (.write x q.tail 0)).2) := by
    rw [goOn_succ, show (act t (.go false) q (.loadTail x)).1 = (q, .checkFull x q.tail) from rfl,
      goOn_succ, show (act t (.go false) q (.checkFull x q.tail)) =
        ((q, .casTail x q.tail), .quiet) by simp [act, QueuePlace.inEnqueue, enqueueStep, h],
      goOn_succ]
    simp [act, QueuePlace.inEnqueue, enqueueStep]
  have hend : goOn t 2 q' (.write x q.tail w) =
      (({ q' with commit := q.tail + 1 }, .idle), [.quiet, .enqueued x]) := by
    rw [goOn_succ, show (act t (.go false) q' (.write x q.tail w)) =
      ((q', .casCommit x q.tail), .quiet) by simp [act, QueuePlace.inEnqueue, enqueueStep],
      goOn_succ]
    simp [act, QueuePlace.inEnqueue, enqueueStep, hc', goOn_zero]
  rw [hreserve, goOn_add, hq', hend]
  refine ⟨_, rfl, by rw [hcommit], ?_⟩
  change entered (_ :: _ :: _ :: (_ ++ _)) = [x]
  rw [show ∀ os : List (QueueEvent w β), entered (.quiet :: .quiet :: .reserved x :: os) =
    x :: entered os from fun _ => rfl, entered, List.filterMap_append]
  exact congrArg (x :: ·) (congrArg (· ++ []) he)

/-- A thread makes a call and runs alone from then on. -/
def callAlone (t : τ) (i : QueueTurn w β) (n : ℕ) : List (τ × QueueTurn w β) :=
  (i :: List.replicate n (.go false)).map (Prod.mk t)

theorem run_callAlone {s : State τ (BoundedQueue w β) (QueuePlace w β)} {t : τ}
    {i : QueueTurn w β} {p : QueuePlace w β}
    (h : act t i s.shared (s.place t) = ((s.shared, p), .quiet)) (n : ℕ) :
    run (Threads.step act) s (callAlone t i n) =
      (⟨(goOn t n s.shared p).1.1, Function.update s.place t (goOn t n s.shared p).1.2⟩,
        .quiet :: (goOn t n s.shared p).2) := by
  rw [callAlone, run_alone]
  simp only [run_cons, h]

/-- After any run, a thread that calls `Dequeue` and runs alone returns the first element that
is enqueued and not yet returned, if there is one. -/
theorem dequeue_alone (size : ℕ) (blank : Fin w → β) (past : List (τ × QueueTurn w β)) (t : τ)
    (e : Fin w → β) (hidle : (run (Threads.step act) (start size blank) past).1.place t = .idle) :
    let r := run (Threads.step act) (start size blank) past
    let r' := run (Threads.step act) (start size blank) (past ++ callAlone t (.dequeue e) (w + 4))
    r'.1.place t = .idle ∧ left r'.2 = (enqueued r.2).take ((left r.2).length + 1) := by
  intro r r'
  have h : r.1.shared.Good size r.2 := (outline size blank past).shared
  have h' : r'.1.shared.Good size r'.2 := (outline size blank _).shared
  have hcall : act t (.dequeue e) r.1.shared (r.1.place t) =
      ((r.1.shared, .loadHead e), .quiet) := by
    rw [hidle]
    rfl
  have hrun : r' = _ := (run_append _ _ past _).trans (by rw [run_callAlone hcall])
  have hentered : entered r'.2 = entered r.2 ++
      entered (goOn t (w + 4) r.1.shared (.loadHead e)).2 := by
    rw [hrun]
    exact List.filterMap_append
  have hhead := h.head_lt
  have hcommit := h.commit_le
  have hlength := h.length
  rw [h'.left_eq, h.enqueued_eq, h.length_left, hentered, List.take_take]
  by_cases heq : r.1.shared.head + 1 = r.1.shared.commit
  · have hgo := goOn_loadHead_of_eq t r.1.shared e heq
    have hshared : r'.1.shared = r.1.shared := by rw [hrun, hgo]
    refine ⟨by rw [hrun, hgo]; exact Function.update_self .., ?_⟩
    rw [hshared, List.take_append_of_le_length (by omega), Nat.min_eq_right (by omega), ← heq,
      Nat.add_sub_cancel]
  · have hgo := goOn_loadHead_of_ne t r.1.shared e heq
    have hshared : r'.1.shared.head = r.1.shared.head + 1 := by rw [hrun, hgo]
    refine ⟨by rw [hrun, hgo]; exact Function.update_self .., ?_⟩
    rw [hshared, List.take_append_of_le_length (by omega), Nat.min_eq_left (by omega)]

/-- After any run in which no number is left reserved, a thread that calls `Enqueue` and runs
alone enqueues its element if fewer than `size` are in the queue, and else nothing. -/
theorem enqueue_alone (size : ℕ) (blank : Fin w → β) (past : List (τ × QueueTurn w β)) (t : τ)
    (x : Fin w → β) (hidle : (run (Threads.step act) (start size blank) past).1.place t = .idle)
    (hnone : ∀ u, ((run (Threads.step act) (start size blank) past).1.place u).number = none) :
    let r := run (Threads.step act) (start size blank) past
    let r' := run (Threads.step act) (start size blank) (past ++ callAlone t (.enqueue x) (w + 5))
    r'.1.place t = .idle ∧ enqueued r'.2 =
      if r.1.shared.size < size then enqueued r.2 ++ [x] else enqueued r.2 := by
  intro r r'
  have h : r.1.shared.Good size r.2 := (outline size blank past).shared
  have h' : r'.1.shared.Good size r'.2 := (outline size blank _).shared
  have hcall : act t (.enqueue x) r.1.shared (r.1.place t) =
      ((r.1.shared, .loadTail x), .quiet) := by
    rw [hidle]
    rfl
  have hrun : r' = _ := (run_append _ _ past _).trans (by rw [run_callAlone hcall])
  have hentered : entered r'.2 = entered r.2 ++
      entered (goOn t (w + 5) r.1.shared (.loadTail x)).2 := by
    rw [hrun]
    exact List.filterMap_append
  have hhead := h.head_lt
  have hcommit := h.commit_le
  have hlength := h.length
  have htail := h.tail_lt
  have hsize := h.poolSize
  -- nobody holds a number, so the commit has reached the tail
  have hall : r.1.shared.commit = r.1.shared.tail := by
    refine Nat.le_antisymm hcommit (Nat.not_lt.1 fun hlt => ?_)
    obtain ⟨u, hu⟩ := owned size blank past _ (Nat.le_refl _) hlt
    rw [hnone u] at hu
    cases hu
  have henqueued : enqueued r.2 = entered r.2 := by
    rw [h.enqueued_eq, List.take_of_length_le (by omega)]
  rw [h'.enqueued_eq, hentered, BoundedQueue.size]
  split
  · rename_i hroom
    have hne : r.1.shared.getIndex (r.1.shared.tail + 1) ≠ r.1.shared.getIndex r.1.shared.head :=
      (getIndex_ne (by omega) (by omega)).symm
    obtain ⟨q', hgo, hc, he⟩ := goOn_loadTail_of_ne t r.1.shared x hne hall
    have hshared : r'.1.shared.commit = r.1.shared.commit + 1 := by rw [hrun, hgo]; exact hc
    refine ⟨by rw [hrun, hgo]; exact Function.update_self .., ?_⟩
    rw [hshared, he, henqueued, List.take_of_length_le]
    rw [List.length_append, List.length_singleton]
    omega
  · rename_i hroom
    have heq : r.1.shared.getIndex (r.1.shared.tail + 1) =
        r.1.shared.getIndex r.1.shared.head := by
      rw [← getIndex_add_poolSize r.1.shared r.1.shared.head]
      congr 1
      omega
    obtain ⟨hgo, he⟩ := goOn_loadTail_of_eq t r.1.shared x heq
    have hshared : r'.1.shared = r.1.shared := by rw [hrun, hgo]
    refine ⟨by rw [hrun, hgo]; exact Function.update_self .., ?_⟩
    rw [hshared, he, henqueued, List.append_nil, List.take_of_length_le (by omega)]

/-- After any run, a thread that is outside and runs alone comes to the end of its call.
`Dequeue` returns the first element that is enqueued and not yet returned, if there is one,
and `Enqueue` succeeds exactly if there is room, as long as no other element is under way. -/
theorem call_alone (size : ℕ) (blank : Fin w → β) (past : List (τ × QueueTurn w β)) (t : τ)
    (x : Fin w → β) (hidle : (run (Threads.step act) (start size blank) past).1.place t = .idle) :
    let r := run (Threads.step act) (start size blank) past
    let d := run (Threads.step act) (start size blank) (past ++ callAlone t (.dequeue x) (w + 4))
    let e := run (Threads.step act) (start size blank) (past ++ callAlone t (.enqueue x) (w + 5))
    (d.1.place t = .idle ∧ left d.2 = (enqueued r.2).take ((left r.2).length + 1)) ∧
      ((∀ u, (r.1.place u).number = none) → e.1.place t = .idle ∧
        enqueued e.2 = if r.1.shared.size < size then enqueued r.2 ++ [x] else enqueued r.2) :=
  ⟨dequeue_alone size blank past t x hidle, enqueue_alone size blank past t x hidle⟩

/-- One element in a queue of one, which a second thread takes. -/
theorem call_alone_one :
    left (run (Threads.step act) (start 1 ![0, 0])
      (callAlone false (.enqueue ![7, 8]) 7 ++ callAlone true (.dequeue ![0, 0]) 6)).2 =
        [![7, 8]] :=
  (call_alone 1 ![0, 0] (callAlone false (.enqueue ![7, 8]) 7) true ![0, 0] rfl).1.2.trans rfl

end BoundedQueue

end Mastiff.Cyber

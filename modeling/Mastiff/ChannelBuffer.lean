import Mathlib.Data.List.Chain
import Mathlib.Data.List.GetD
import Mathlib.Data.List.ReduceOption
import Mastiff.Lib.Machine
import Mastiff.Lib.Ring

/-!
# The buffers of a channel

`CacheBuffer` (`cyber/data/cache_buffer.h`) keeps the last messages of a channel,
`ChannelBuffer` (`cyber/data/channel_buffer.h`) reads them by their numbers, and `TryFetch` of
a `DataVisitor` (`cyber/data/data_visitor.h`) gives a reader the next one. Fills and reads hold
the mutex of the buffer, so they are steps.

`tryFetch_refines` : in every run `TryFetch` gives what a reader of the whole log gets
(`LogReader`), who takes the message after the last one taken, or the newest where there is
none or more than `size` have come since. The messages come in order and none comes twice, and
one is left out only before the first or where more than `size` have come since.

The numbers of the messages are taken not to reach 2^64.
-/

set_option linter.unusedSectionVars false

namespace Mastiff.Cyber

open Machine Ring

variable {T : Type} [Inhabited T]

/-! ## The buffer -/

/-- The members of `CacheBuffer`. -/
structure CacheBuffer (T : Type) where
  head : ℕ := 0
  tail : ℕ := 0
  capacity : ℕ
  buffer : List T

namespace CacheBuffer

/-- The constructor. -/
def new (size : ℕ) : CacheBuffer T :=
  { capacity := size + 1, buffer := List.replicate (size + 1) default }

/-- `GetIndex`. -/
def getIndex (b : CacheBuffer T) (pos : ℕ) : ℕ :=
  pos % b.capacity

/-- `at`. -/
def get (b : CacheBuffer T) (pos : ℕ) : T :=
  b.buffer.getD (b.getIndex pos) default

/-- `Head`. -/
def first (b : CacheBuffer T) : ℕ :=
  b.head + 1

/-- `Size`. -/
def size (b : CacheBuffer T) : ℕ :=
  b.tail - b.head

/-- `Empty`. -/
def empty (b : CacheBuffer T) : Bool :=
  b.tail == 0

/-- `Full`. -/
def full (b : CacheBuffer T) : Bool :=
  b.capacity - 1 == b.tail - b.head

/-- `Back`. -/
def back (b : CacheBuffer T) : T :=
  b.get b.tail

/-- `Fill` of a buffer without a fusion callback. -/
def fill (b : CacheBuffer T) (value : T) : CacheBuffer T :=
  if b.full then
    { b with
      buffer := b.buffer.set (b.getIndex b.head) value
      head := b.head + 1
      tail := b.tail + 1 }
  else
    { b with
      buffer := b.buffer.set (b.getIndex (b.tail + 1)) value
      tail := b.tail + 1 }

/-- `ChannelBuffer::Fetch` : the index afterwards, and the message if there is one. -/
def fetch (b : CacheBuffer T) (index : ℕ) : ℕ × Option T :=
  if b.empty then (index, none)
  else if index = 0 then (b.tail, some (b.get b.tail))
  else if index = b.tail + 1 then (index, none)
  else if index < b.first then (b.tail, some (b.get b.tail))
  else (index, some (b.get index))

/-- `ChannelBuffer::Latest`. -/
def latest (b : CacheBuffer T) : Option T :=
  if b.empty then none else some b.back

/-- `ChannelBuffer::FetchMulti`. -/
def fetchMulti (b : CacheBuffer T) (fetchSize : ℕ) : Option (List T) :=
  if b.empty then none
  else
    let num := min b.size fetchSize
    some ((List.range num).map fun i => b.get (b.tail - num + 1 + i))

end CacheBuffer

/-- What a `DataVisitor` of one channel keeps. -/
structure DataVisitor (T : Type) where
  buffer : CacheBuffer T
  nextMsgIndex : ℕ := 0

/-- `TryFetch`. -/
def DataVisitor.tryFetch (v : DataVisitor T) : DataVisitor T × Option T :=
  let r := v.buffer.fetch v.nextMsgIndex
  if r.2.isSome then ({ v with nextMsgIndex := r.1 + 1 }, r.2)
  else ({ v with nextMsgIndex := r.1 }, none)

/-- A message is dispatched to the buffer, or the reader asks for the next one. -/
inductive VisitorOp (T : Type)
  | fill (value : T)
  | tryFetch

/-- One operation. -/
def DataVisitor.step (v : DataVisitor T) : VisitorOp T → DataVisitor T × Option T
  | .fill value => ({ v with buffer := v.buffer.fill value }, none)
  | .tryFetch => v.tryFetch

/-! ## A reader of the log -/

/-- All messages in the order they came, numbered from 1, and the number of the one taken
last, 0 for none. -/
structure LogReader (T : Type) where
  log : List T := []
  taken : ℕ := 0

namespace LogReader

/-- The number of the message to take, if there is a new one : the one after the last one
taken, or the newest where none was taken or more than `size` have come since. -/
def next (size : ℕ) (l : LogReader T) : Option ℕ :=
  if l.taken = l.log.length then none
  else if l.taken = 0 ∨ l.taken + size < l.log.length then some l.log.length
  else some (l.taken + 1)

/-- One operation, and the message taken with its number. -/
def step (size : ℕ) (l : LogReader T) : VisitorOp T → LogReader T × Option (ℕ × T)
  | .fill value => ({ l with log := l.log ++ [value] }, none)
  | .tryFetch =>
    match l.next size with
    | none => (l, none)
    | some n => ({ l with taken := n }, some (n, l.log.getD (n - 1) default))

end LogReader

/-! ## What the buffer holds -/

namespace CacheBuffer

/-- The buffer of the given size after the messages `log`. The last one is there even if the
size is 0 : then one cell is written again and again. -/
structure Holds (b : CacheBuffer T) (size : ℕ) (log : List T) : Prop where
  capacity : b.capacity = size + 1
  length : b.buffer.length = b.capacity
  tail : b.tail = log.length
  head : b.head = log.length - size
  window : Window b.buffer ((b.head + 1) % b.capacity) (log.drop b.head)
  back : ∀ m, log.getLast? = some m → b.get b.tail = m

theorem holds_new (size : ℕ) : (new size : CacheBuffer T).Holds size [] where
  capacity := rfl
  length := List.length_replicate
  tail := rfl
  head := by simp [new]
  window := by simpa [new] using Window.nil _ _
  back m hm := by cases hm

variable {b : CacheBuffer T} {size : ℕ} {log : List T}

theorem Holds.full_iff (h : b.Holds size log) : b.full = true ↔ size ≤ log.length := by
  rw [full, beq_iff_eq, h.capacity, h.tail, h.head]
  omega

/-- The cell written is the one of the new tail. -/
theorem get_fill (h : b.Holds size log) (value : T) : (b.fill value).get (b.tail + 1) = value := by
  have hfull := h.full_iff
  obtain ⟨hcap, hlength, htail, hhead, -, -⟩ := h
  have hcell : ∀ pos, (b.tail + 1) % b.capacity = pos % b.capacity →
      (b.buffer.set (b.getIndex pos) value).getD ((b.tail + 1) % b.capacity) default = value := by
    intro pos hpos
    have hlt : pos % b.capacity < b.buffer.length := by
      rw [hlength]
      exact Nat.mod_lt _ (by omega)
    rw [hpos, List.getD_eq_getElem?_getD, getIndex, List.getElem?_set_self hlt, Option.getD_some]
  rw [CacheBuffer.fill]
  split
  · rename_i h
    have hle := hfull.1 h
    refine hcell b.head ?_
    rw [show b.tail + 1 = b.head + b.capacity by omega, Nat.add_mod_right]
  · exact hcell (b.tail + 1) rfl

theorem fill_tail (b : CacheBuffer T) (value : T) : (b.fill value).tail = b.tail + 1 := by
  rw [CacheBuffer.fill]
  split <;> rfl

theorem Holds.fill (h : b.Holds size log) (value : T) :
    (b.fill value).Holds size (log ++ [value]) := by
  have hfull := h.full_iff
  have hback : ∀ m, (log ++ [value]).getLast? = some m →
      (b.fill value).get (b.fill value).tail = m := by
    intro m hm
    rw [List.getLast?_concat, Option.some.injEq] at hm
    rw [fill_tail, get_fill h, hm]
  obtain ⟨hcap, hlength, htail, hhead, hwindow, -⟩ := h
  have hroom : (log.drop b.head).length < b.buffer.length := by
    rw [List.length_drop]
    omega
  have hsnoc := hwindow.snoc value hroom
  rw [hlength, Nat.mod_add_mod, List.length_drop,
    ← List.drop_append_of_le_length (by omega)] at hsnoc
  have htail' : (b.fill value).tail = (log ++ [value]).length := by
    rw [fill_tail, List.length_append, htail, List.length_singleton]
  revert hback htail'
  rw [CacheBuffer.fill]
  split
  · rename_i h
    intro hback htail'
    have hle := hfull.1 h
    -- the cell after the window is the one before it
    have hcell : (b.head + 1 + (log.length - b.head)) % b.capacity = b.getIndex b.head := by
      rw [getIndex, show b.head + 1 + (log.length - b.head) = b.head + b.capacity by omega,
        Nat.add_mod_right]
    have hdrop := hsnoc.drop 1
    rw [hcell, List.length_set, hlength, Nat.mod_add_mod, List.drop_drop] at hdrop
    refine ⟨hcap, List.length_set.trans hlength, htail', ?_, hdrop, hback⟩
    rw [List.length_append, List.length_singleton]
    exact (congrArg (· + 1) hhead).trans (by omega)
  · rename_i h
    intro hback htail'
    have hlt : log.length < size := Nat.not_le.1 fun hle => h (hfull.2 hle)
    have hcell : (b.head + 1 + (log.length - b.head)) % b.capacity = b.getIndex (b.tail + 1) := by
      rw [getIndex, htail, show b.head + 1 + (log.length - b.head) = log.length + 1 by omega]
    rw [hcell] at hsnoc
    refine ⟨hcap, List.length_set.trans hlength, htail', ?_, hsnoc, hback⟩
    rw [List.length_append, List.length_singleton, hhead]
    omega

/-- A message that is still there. -/
theorem Holds.get_eq (h : b.Holds size log) {k : ℕ} (hlt : b.head < k) (hle : k ≤ log.length) :
    b.get k = log.getD (k - 1) default := by
  have hk : k - 1 - b.head < (log.drop b.head).length := by
    rw [List.length_drop]
    omega
  have hcell := h.window.cell (k - 1 - b.head) hk
  rw [h.length, Nat.mod_add_mod, show b.head + 1 + (k - 1 - b.head) = k by omega,
    List.getElem_drop] at hcell
  rw [get, getIndex, List.getD_eq_getElem?_getD, hcell, List.getD_eq_getElem _ _ (by omega)]
  simp only [Option.getD_some, show b.head + (k - 1 - b.head) = k - 1 by omega]

theorem Holds.empty_iff (h : b.Holds size log) : b.empty = true ↔ log.length = 0 := by
  rw [empty, beq_iff_eq, h.tail]

theorem Holds.get_tail (h : b.Holds size log) (hne : log.length ≠ 0) :
    b.get b.tail = log.getD (log.length - 1) default := by
  refine h.back _ ?_
  rw [List.getLast?_eq_getElem?, List.getD_eq_getElem _ _ (by omega),
    List.getElem?_eq_getElem (by omega)]

/-- `Fetch` for a reader of the log. -/
theorem Holds.fetch_eq (h : b.Holds size log) {taken : ℕ} (hle : taken ≤ log.length) (index : ℕ)
    (hindex : index = 0 ∧ taken = 0 ∨ index = taken + 1 ∧ 0 < taken) :
    b.fetch index = match LogReader.next size ⟨log, taken⟩ with
      | none => (index, none)
      | some n => (n, some (log.getD (n - 1) default)) := by
  have hhead := h.head
  have htail := h.tail
  have hempty := h.empty_iff
  simp only [fetch, LogReader.next]
  by_cases hlog : log.length = 0
  · rw [if_pos (hempty.2 hlog), if_pos (by omega)]
  · have hback := h.get_tail hlog
    rw [if_neg (fun he => hlog (hempty.1 he)), hback]
    rcases hindex with ⟨rfl, rfl⟩ | ⟨rfl, hpos⟩
    · rw [if_pos rfl, if_neg (Ne.symm hlog), if_pos (.inl rfl), htail]
    · rw [if_neg (by omega)]
      by_cases hnew : taken = log.length
      · rw [if_pos (by omega), if_pos hnew]
      · rw [if_neg (by omega), if_neg hnew]
        by_cases hover : taken + size < log.length
        · rw [if_pos (by simp only [first]; omega), if_pos (.inr hover), htail]
        · rw [if_neg (by simp only [first]; omega), if_neg (by omega),
            h.get_eq (by omega) (by omega)]

theorem Holds.latest_eq (h : b.Holds size log) : b.latest = log.getLast? := by
  rw [latest]
  split
  · rename_i hempty
    rw [List.length_eq_zero_iff.1 (h.empty_iff.1 hempty)]
    rfl
  · rename_i hempty
    have hlog : log.length ≠ 0 := fun hlog => hempty (h.empty_iff.2 hlog)
    rw [CacheBuffer.back, h.get_tail hlog, List.getLast?_eq_getElem?,
      List.getD_eq_getElem _ _ (by omega), List.getElem?_eq_getElem (by omega)]

/-- `FetchMulti` gives the last messages that are there. -/
theorem Holds.fetchMulti_eq (h : b.Holds size log) (n : ℕ) :
    b.fetchMulti n = if log.length = 0 then none
      else some (log.drop (log.length - min (min size log.length) n)) := by
  rw [fetchMulti]
  by_cases hlog : log.length = 0
  · rw [if_pos (h.empty_iff.2 hlog), if_pos hlog]
  · rw [if_neg (fun he => hlog (h.empty_iff.1 he)), if_neg hlog]
    have hsize : b.size = min size log.length := by
      rw [CacheBuffer.size, h.tail, h.head]
      omega
    have htail := h.tail
    have hhead := h.head
    simp only [hsize]
    refine congrArg some (List.ext_getElem ?_ fun i hi hi' => ?_)
    · simp only [List.length_map, List.length_range, List.length_drop]
      omega
    · simp only [List.length_map, List.length_range] at hi
      rw [List.getElem_map, List.getElem_range, List.getElem_drop, h.get_eq (by omega) (by omega),
        List.getD_eq_getElem _ _ (by omega)]
      congr 1
      omega

end CacheBuffer

/-! ## Runs -/

/-- The reader's index stands for the last message taken. -/
structure DataVisitor.Reads (v : DataVisitor T) (size : ℕ) (l : LogReader T) : Prop where
  holds : v.buffer.Holds size l.log
  taken_le : l.taken ≤ l.log.length
  index : v.nextMsgIndex = 0 ∧ l.taken = 0 ∨ v.nextMsgIndex = l.taken + 1 ∧ 0 < l.taken

theorem DataVisitor.reads_new (size : ℕ) :
    (⟨CacheBuffer.new size, 0⟩ : DataVisitor T).Reads size {} :=
  ⟨CacheBuffer.holds_new size, Nat.le_refl 0, .inl ⟨rfl, rfl⟩⟩

namespace LogReader

variable {l : LogReader T} {size n : ℕ}

/-- The message taken is a new one, and where some are left out, more than `size` have come
since the last one. -/
theorem of_next_eq_some (h : l.next size = some n) (hle : l.taken ≤ l.log.length) :
    l.taken < n ∧ n ≤ l.log.length ∧ (n = l.taken + 1 ∨ l.taken = 0 ∨ l.taken + size < n) := by
  rw [next] at h
  split at h
  · cases h
  · split at h
    · obtain rfl := Option.some.inj h
      omega
    · obtain rfl := Option.some.inj h
      omega

end LogReader

namespace DataVisitor

variable {v : DataVisitor T} {l : LogReader T} {size : ℕ}

/-- One operation. -/
theorem Reads.step (h : v.Reads size l) (op : VisitorOp T) :
    (v.step op).1.Reads size (l.step size op).1 ∧
      (v.step op).2 = (l.step size op).2.map Prod.snd := by
  obtain ⟨hholds, hle, hindex⟩ := h
  cases op with
  | fill value =>
    refine ⟨⟨hholds.fill value, ?_, hindex⟩, rfl⟩
    exact Nat.le_trans hle (by simp [LogReader.step])
  | tryFetch =>
    have hfetch := hholds.fetch_eq hle v.nextMsgIndex hindex
    simp only [DataVisitor.step, tryFetch, LogReader.step, hfetch]
    cases hnext : LogReader.next size ⟨l.log, l.taken⟩ with
    | none => exact ⟨⟨hholds, hle, hindex⟩, rfl⟩
    | some n =>
      obtain ⟨hlt, hle', -⟩ := LogReader.of_next_eq_some hnext hle
      exact ⟨⟨hholds, hle', .inr ⟨rfl, Nat.lt_of_le_of_lt (Nat.zero_le _) hlt⟩⟩, rfl⟩

/-- There is a message that `TryFetch` would give. -/
def Unread (v : DataVisitor T) : Prop :=
  v.tryFetch.2.isSome

theorem Reads.unread_iff (h : v.Reads size l) : v.Unread ↔ l.taken ≠ l.log.length := by
  have hfetch := (h.step .tryFetch).2
  rw [Unread, show v.tryFetch.2 = _ from hfetch, Option.isSome_map, LogReader.step]
  cases hnext : l.next size with
  | none =>
    rw [LogReader.next] at hnext
    split at hnext
    · rename_i heq
      simp [heq]
    · split at hnext <;> cases hnext
  | some n =>
    obtain ⟨hlt, hle, -⟩ := LogReader.of_next_eq_some hnext h.taken_le
    simp only [Option.isSome_some, true_iff]
    omega

/-- When `TryFetch` gives nothing, it would give nothing again. -/
theorem Reads.not_unread_of_tryFetch (h : v.Reads size l) {v' : DataVisitor T}
    (hnone : v.tryFetch = (v', none)) : ¬v'.Unread := by
  have hnot : ¬v.Unread := by simp [Unread, hnone]
  obtain ⟨hreads, -⟩ := h.step .tryFetch
  have hnext : l.next size = none := by
    rw [LogReader.next, if_pos (not_not.1 (mt h.unread_iff.2 hnot))]
  rw [show (v.step .tryFetch).1 = v' from congrArg Prod.fst hnone, LogReader.step, hnext] at hreads
  exact fun hunread => hnot (h.unread_iff.2 (hreads.unread_iff.1 hunread))

end DataVisitor

/-- What has been taken from the log : the numbers rise, each has its message, the last one is
the number kept, and a number left out was more than `size` old. -/
structure LogReader.Took (size : ℕ) (os : List (Option (ℕ × T))) (l : LogReader T) : Prop where
  taken_le : l.taken ≤ l.log.length
  last : ((os.reduceOption.map Prod.fst).getLast?).getD 0 = l.taken
  pos : ∀ n m, (n, m) ∈ os.reduceOption → 0 < n ∧ l.log[n - 1]? = some m
  chain : (os.reduceOption.map Prod.fst).IsChain fun a b => b = a + 1 ∨ a + size < b

namespace LogReader

variable {l : LogReader T} {size n : ℕ} {os : List (Option (ℕ × T))}

theorem reduceOption_snoc (os : List (Option (ℕ × T))) (o : Option (ℕ × T)) :
    (os ++ [o]).reduceOption = os.reduceOption ++ o.toList := by
  rw [List.reduceOption_append, List.reduceOption_singleton]

theorem Took.step (h : l.Took size os) (op : VisitorOp T) :
    (l.step size op).1.Took size (os ++ [(l.step size op).2]) := by
  obtain ⟨hle, hlast, hpos, hchain⟩ := h
  cases op with
  | fill value =>
    have hnone : (os ++ [(none : Option (ℕ × T))]).reduceOption = os.reduceOption := by
      rw [reduceOption_snoc, Option.toList_none, List.append_nil]
    simp only [LogReader.step]
    refine ⟨?_, by rw [hnone, hlast], fun n m hm => ?_, by rwa [hnone]⟩
    · rw [List.length_append]
      exact Nat.le_add_right_of_le hle
    · obtain ⟨hn, hget⟩ := hpos n m (hnone ▸ hm)
      have hlt := (List.getElem?_eq_some_iff.1 hget).1
      exact ⟨hn, by rw [List.getElem?_append_left hlt, hget]⟩
  | tryFetch =>
    rw [LogReader.step]
    cases hnext : l.next size with
    | none =>
      have hnone : (os ++ [(none : Option (ℕ × T))]).reduceOption = os.reduceOption := by
        rw [reduceOption_snoc, Option.toList_none, List.append_nil]
      exact ⟨hle, by rw [hnone, hlast], fun n m hm => hpos n m (hnone ▸ hm), by rwa [hnone]⟩
    | some n =>
      obtain ⟨hlt, hle', hgap⟩ := of_next_eq_some hnext hle
      have hget : l.log[n - 1]? = some (l.log.getD (n - 1) default) := by
        rw [List.getD_eq_getElem _ _ (by omega), List.getElem?_eq_getElem (by omega)]
      refine ⟨hle', ?_, fun k m hm => ?_, ?_⟩ <;>
        simp only [reduceOption_snoc, Option.toList_some] at *
      · rw [List.map_append, List.map_singleton, List.getLast?_concat, Option.getD_some]
      · rcases List.mem_append.1 hm with hm | hm
        · exact hpos k m hm
        · obtain ⟨rfl, rfl⟩ := Prod.mk.inj (List.mem_singleton.1 hm)
          exact ⟨Nat.lt_of_le_of_lt (Nat.zero_le _) hlt, hget⟩
      · rw [List.map_append, List.map_singleton, List.isChain_append]
        refine ⟨hchain, List.isChain_singleton _, fun a ha b hb => ?_⟩
        obtain rfl : n = b := Option.some.inj hb
        rw [Option.mem_def.1 ha, Option.getD_some] at hlast
        have hapos : 0 < a := by
          obtain ⟨⟨a', m⟩, ham, rfl⟩ := List.mem_map.1 (List.mem_of_getLast? ha)
          exact (hpos a' m ham).1
        omega

end LogReader

/-- In every run `TryFetch` gives what a reader of the whole log gets. The numbers taken rise,
each message taken is the one of its number, and numbers are left out only where more than
`size` messages have come since the last one taken. `Latest` and `FetchMulti` give the last
messages. -/
theorem tryFetch_refines (size : ℕ) (ops : List (VisitorOp T)) :
    let r := run DataVisitor.step ⟨CacheBuffer.new size, 0⟩ ops
    let l := run (LogReader.step size) {} ops
    r.2 = l.2.map (Option.map Prod.snd) ∧ l.1.Took size l.2 ∧
      r.1.buffer.latest = l.1.log.getLast? ∧
      ∀ n, r.1.buffer.fetchMulti n = if l.1.log.length = 0 then none
        else some (l.1.log.drop (l.1.log.length - min (min size l.1.log.length) n)) := by
  intro r l
  have hreads : r.1.Reads size l.1 ∧ r.2 = l.2.map (Option.map Prod.snd) :=
    run_simulates (fun (v : DataVisitor T) l => v.Reads size l) (fun _ _ op h => h.step op) ops
      (DataVisitor.reads_new size)
  have htook : l.1.Took size l.2 :=
    run_history (fun os (l : LogReader T) => l.Took size os) (fun _ _ op h => h.step op) ops
      ⟨Nat.le_refl 0, rfl, nofun, List.isChain_nil⟩
  exact ⟨hreads.2, htook, hreads.1.holds.latest_eq, hreads.1.holds.fetchMulti_eq⟩

end Mastiff.Cyber

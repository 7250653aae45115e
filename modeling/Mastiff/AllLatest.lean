import Mastiff.ChannelBuffer

/-!
# Messages of several channels

A `DataVisitor` of several channels reads tuples that `AllLatest`
(`cyber/data/fusion/all_latest.h`) makes : when a message of the first channel is dispatched,
its fusion callback takes the latest message of every other channel, one after the other, and
fills a buffer of tuples, unless one of the channels has none. The callback runs under the
mutex of the first channel, and takes the other buffers' one at a time, so messages of the
other channels can arrive in between.

`fused_latest` : in every run each message of the first channel is fused or dropped, in order,
and dropped only if another channel is empty. The messages of a tuple are at least as new as
the latest ones when it was begun, no channel goes back from one tuple to the next, and
`TryFetch` gives the tuples as `tryFetch_refines` says.

The numbers of the messages are taken not to reach 2^64.
-/

set_option linter.unusedSectionVars false

namespace Mastiff.Cyber

open Machine

variable {n : ℕ} {M₀ M : Type} [Inhabited M₀] [Inhabited M]

/-! ## The fusion -/

/-- A call of the fusion callback : the message of the first channel, and those gathered so far.
The number of each message in its channel, and how many had come to each channel when the
callback began, are kept for the statements alone. -/
structure Filling (n : ℕ) (M₀ M : Type) where
  m0 : M₀
  seen : Fin n → ℕ
  got : List (ℕ × M)

/-- The tuple. -/
def Filling.data (f : Filling n M₀ M) : M₀ × List M :=
  (f.m0, f.got.map Prod.snd)

/-- The buffers of the channels after the first one, those of the visitor's tuples, and the call
under the mutex of the first channel, if there is one. -/
structure AllLatest (n : ℕ) (M₀ M : Type) where
  others : Fin n → CacheBuffer M
  visitor : DataVisitor (M₀ × List M)
  filling : Option (Filling n M₀ M) := none

/-- A message of the first channel is dispatched, its callback makes its next step, a message of
another channel is dispatched, or the reader asks for a tuple. -/
inductive FusionTurn (n : ℕ) (M₀ M : Type)
  | fillFirst (m0 : M₀)
  | go
  | fill (i : Fin n) (m : M)
  | tryFetch

/-- What a step does. -/
inductive FusionEvent (n : ℕ) (M₀ M : Type)
  | quiet
  | begun (m0 : M₀)
  | dropped (m0 : M₀)
  | fused (f : Filling n M₀ M)
  | filled (i : Fin n) (m : M)
  | fetched (r : Option (M₀ × List M))

namespace AllLatest

/-- The constructor of a visitor with queues of the given sizes. -/
def new (size : ℕ) (sizes : Fin n → ℕ) : AllLatest n M₀ M where
  others i := CacheBuffer.new (sizes i)
  visitor := ⟨CacheBuffer.new ((CacheBuffer.new size : CacheBuffer M₀).capacity - 1), 0⟩

/-- The next step of the fusion callback. -/
def callback (s : AllLatest n M₀ M) (f : Filling n M₀ M) :
    AllLatest n M₀ M × FusionEvent n M₀ M :=
  if h : f.got.length < n then
    match (s.others ⟨f.got.length, h⟩).latest with
    | none => ({ s with filling := none }, .dropped f.m0)
    | some m =>
      ({ s with filling := some { f with
          got := f.got ++ [((s.others ⟨f.got.length, h⟩).tail, m)] } }, .quiet)
  else
    ({ s with
      visitor := { s.visitor with buffer := s.visitor.buffer.fill f.data }
      filling := none }, .fused f)

/-- One step. A message of the first channel waits for the mutex. -/
def step (s : AllLatest n M₀ M) : FusionTurn n M₀ M → AllLatest n M₀ M × FusionEvent n M₀ M
  | .fillFirst m0 =>
    match s.filling with
    | none => ({ s with filling := some ⟨m0, fun i => (s.others i).tail, []⟩ }, .begun m0)
    | some _ => (s, .quiet)
  | .go =>
    match s.filling with
    | none => (s, .quiet)
    | some f => s.callback f
  | .fill i m =>
    ({ s with others := Function.update s.others i ((s.others i).fill m) }, .filled i m)
  | .tryFetch => ({ s with visitor := s.visitor.tryFetch.1 }, .fetched s.visitor.tryFetch.2)

end AllLatest

/-! ## What happened -/

variable {os : List (FusionEvent n M₀ M)} {o : FusionEvent n M₀ M}

/-- The messages of a channel after the first one. -/
def FusionEvent.message (i : Fin n) : FusionEvent n M₀ M → Option M
  | .filled j m => if j = i then some m else none
  | _ => none

/-- The messages of the first channel whose dispatch began. -/
def FusionEvent.first : FusionEvent n M₀ M → Option M₀
  | .begun m0 => some m0
  | _ => none

/-- The messages of the first channel that were fused or dropped. -/
def FusionEvent.finished : FusionEvent n M₀ M → Option M₀
  | .dropped m0 => some m0
  | .fused f => some f.m0
  | _ => none

/-- The tuples. -/
def FusionEvent.tuple : FusionEvent n M₀ M → Option (Filling n M₀ M)
  | .fused f => some f
  | _ => none

/-- What an event is to the visitor of the tuples, and what it gives. -/
def FusionEvent.visit : FusionEvent n M₀ M → Option (VisitorOp (M₀ × List M) × Option (M₀ × List M))
  | .fused f => some (.fill f.data, none)
  | .fetched r => some (.tryFetch, r)
  | _ => none

/-- The messages gathered are none older than the latest of their channels when the callback
began. -/
def Filling.Fresh (f : Filling n M₀ M) (os : List (FusionEvent n M₀ M)) : Prop :=
  ∀ (i : Fin n) k m, f.got[i.val]? = some (k, m) →
    f.seen i ≤ k ∧ 0 < k ∧ (os.filterMap (FusionEvent.message i))[k - 1]? = some m

/-- When the callback of `f` began, all messages of `e` had come. -/
def Filling.Before (e f : Filling n M₀ M) : Prop :=
  ∀ (i : Fin n) k m, e.got[i.val]? = some (k, m) → k ≤ f.seen i

/-- What is known of a call of the callback. -/
structure Filling.Going (f : Filling n M₀ M) (os : List (FusionEvent n M₀ M)) : Prop where
  length_le : f.got.length ≤ n
  fresh : f.Fresh os
  seen_le : ∀ i, f.seen i ≤ (os.filterMap (FusionEvent.message i)).length
  before : ∀ e ∈ os.filterMap FusionEvent.tuple, e.Before f

/-- Each buffer holds the messages of its channel. -/
def AllLatest.Channels (sizes : Fin n → ℕ) (os : List (FusionEvent n M₀ M))
    (s : AllLatest n M₀ M) : Prop :=
  ∀ i, (s.others i).Holds (sizes i) (os.filterMap (FusionEvent.message i))

/-- The visitor reads the log of the tuples. -/
structure AllLatest.Visited (size : ℕ) (os : List (FusionEvent n M₀ M))
    (s : AllLatest n M₀ M) : Prop where
  reads : s.visitor.Reads size
    (run (LogReader.step size) {} ((os.filterMap FusionEvent.visit).map Prod.fst)).1
  fetched : (os.filterMap FusionEvent.visit).map Prod.snd =
    (run (LogReader.step size) {} ((os.filterMap FusionEvent.visit).map Prod.fst)).2.map
      (Option.map Prod.snd)

/-- The tuples made. -/
structure Made (os : List (FusionEvent n M₀ M)) : Prop where
  fresh : ∀ f ∈ os.filterMap FusionEvent.tuple, f.got.length = n ∧ f.Fresh os
  before : (os.filterMap FusionEvent.tuple).Pairwise Filling.Before

/-- The tuples made so far, and the one that is being made. -/
structure AllLatest.Tuples (os : List (FusionEvent n M₀ M)) (s : AllLatest n M₀ M) : Prop where
  order : os.filterMap FusionEvent.first =
    os.filterMap FusionEvent.finished ++ (s.filling.map Filling.m0).toList
  made : Made os
  going : ∀ f, s.filling = some f → f.Going os

/-! ## What a step keeps -/

theorem events_snoc {α : Type} (p : FusionEvent n M₀ M → Option α)
    (os : List (FusionEvent n M₀ M)) (o : FusionEvent n M₀ M) :
    (os ++ [o]).filterMap p = os.filterMap p ++ (p o).toList := by
  rw [List.filterMap_append]
  cases h : p o <;> simp [h]

theorem events_snoc_of_none {α : Type} {p : FusionEvent n M₀ M → Option α}
    (os : List (FusionEvent n M₀ M)) (h : p o = none) :
    (os ++ [o]).filterMap p = os.filterMap p := by
  rw [events_snoc, h, Option.toList_none, List.append_nil]

/-- A message that has come keeps its number. -/
theorem Filling.Fresh.snoc {f : Filling n M₀ M} (h : f.Fresh os) (o : FusionEvent n M₀ M) :
    f.Fresh (os ++ [o]) := by
  intro i k m hm
  obtain ⟨hle, hpos, hget⟩ := h i k m hm
  refine ⟨hle, hpos, ?_⟩
  rw [events_snoc, List.getElem?_append_left (List.getElem?_eq_some_iff.1 hget).1, hget]

theorem Filling.Going.snoc {f : Filling n M₀ M} (h : f.Going os) (ho : o.tuple = none) :
    f.Going (os ++ [o]) where
  length_le := h.length_le
  fresh := h.fresh.snoc o
  seen_le i := by
    rw [events_snoc, List.length_append]
    exact Nat.le_add_right_of_le (h.seen_le i)
  before e he := h.before e (events_snoc_of_none os ho ▸ he)

theorem Made.snoc (h : Made os) (ho : o.tuple = none) : Made (os ++ [o]) where
  fresh f hf := by
    obtain ⟨hlength, hfresh⟩ := h.fresh f (events_snoc_of_none os ho ▸ hf)
    exact ⟨hlength, hfresh.snoc o⟩
  before := (events_snoc_of_none os ho).symm ▸ h.before

namespace AllLatest

variable {s : AllLatest n M₀ M} {size : ℕ} {sizes : Fin n → ℕ} {f : Filling n M₀ M}

theorem callback_others (s : AllLatest n M₀ M) (f : Filling n M₀ M) :
    (s.callback f).1.others = s.others := by
  rw [callback]
  split
  · split <;> rfl
  · rfl

theorem callback_message (s : AllLatest n M₀ M) (f : Filling n M₀ M) (i : Fin n) :
    (s.callback f).2.message i = none := by
  rw [callback]
  split
  · split <;> rfl
  · rfl

theorem Channels.of_eq {s' : AllLatest n M₀ M} (h : s.Channels sizes os)
    (hs : s'.others = s.others) (ho : ∀ i, o.message i = none) : s'.Channels sizes (os ++ [o]) := by
  intro i
  rw [hs, events_snoc_of_none os (ho i)]
  exact h i

theorem Channels.step (h : s.Channels sizes os) (t : FusionTurn n M₀ M) :
    (s.step t).1.Channels sizes (os ++ [(s.step t).2]) := by
  cases t with
  | fillFirst m0 =>
    rw [AllLatest.step]
    split <;> exact h.of_eq rfl fun _ => rfl
  | go =>
    rw [AllLatest.step]
    split
    · exact h.of_eq rfl fun _ => rfl
    · rename_i f _
      exact h.of_eq (callback_others s f) (callback_message s f)
  | fill j m =>
    intro i
    rw [events_snoc]
    by_cases hij : j = i
    · subst hij
      simpa [AllLatest.step, FusionEvent.message] using (h j).fill m
    · simpa [AllLatest.step, FusionEvent.message, hij, Function.update_of_ne (Ne.symm hij)]
        using h i
  | tryFetch => exact h.of_eq rfl fun _ => rfl

theorem Visited.of_eq {s' : AllLatest n M₀ M} (h : s.Visited size os)
    (hs : s'.visitor = s.visitor) (ho : o.visit = none) : s'.Visited size (os ++ [o]) := by
  have he := events_snoc_of_none os ho
  exact ⟨by rw [he, hs]; exact h.reads, by rw [he]; exact h.fetched⟩

/-- An operation of the visitor. -/
theorem Visited.of_step {s' : AllLatest n M₀ M} (h : s.Visited size os)
    (op : VisitorOp (M₀ × List M)) (hs : s'.visitor = (s.visitor.step op).1)
    (ho : o.visit = some (op, (s.visitor.step op).2)) : s'.Visited size (os ++ [o]) := by
  obtain ⟨hreads, hout⟩ := h.reads.step op
  have he : ((os ++ [o]).filterMap FusionEvent.visit) =
      os.filterMap FusionEvent.visit ++ [(op, (s.visitor.step op).2)] := by
    rw [events_snoc, ho, Option.toList_some]
  refine ⟨?_, ?_⟩
  · rw [he, List.map_append, List.map_singleton, run_snoc, hs]
    exact hreads
  · rw [he, List.map_append, List.map_append, List.map_singleton, List.map_singleton, run_snoc,
      List.map_append, List.map_singleton, h.fetched, hout]

theorem Visited.step (h : s.Visited size os) (t : FusionTurn n M₀ M) :
    (s.step t).1.Visited size (os ++ [(s.step t).2]) := by
  cases t with
  | fillFirst m0 =>
    rw [AllLatest.step]
    split <;> exact h.of_eq rfl rfl
  | go =>
    rw [AllLatest.step]
    split
    · exact h.of_eq rfl rfl
    · rename_i f _
      rw [callback]
      split
      · split <;> exact h.of_eq rfl rfl
      · exact h.of_step (.fill f.data) rfl rfl
  | fill j m => exact h.of_eq rfl rfl
  | tryFetch => exact h.of_step .tryFetch rfl rfl

theorem Tuples.of_eq {s' : AllLatest n M₀ M} (h : s.Tuples os) (hs : s'.filling = s.filling)
    (hfirst : o.first = none) (hfinished : o.finished = none) (htuple : o.tuple = none) :
    s'.Tuples (os ++ [o]) where
  order := by
    rw [events_snoc_of_none os hfirst, events_snoc_of_none os hfinished, hs]
    exact h.order
  made := h.made.snoc htuple
  going f hf := (h.going f (hs ▸ hf)).snoc htuple

/-- The callback begins. -/
theorem Tuples.begin (h : s.Tuples os) (hc : s.Channels sizes os) (hnone : s.filling = none)
    (m0 : M₀) : Tuples (os ++ [.begun m0])
      { s with filling := some ⟨m0, fun i => (s.others i).tail, []⟩ } where
  order := by
    rw [events_snoc, events_snoc, h.order, hnone]
    simp [FusionEvent.first, FusionEvent.finished]
  made := h.made.snoc rfl
  going f hf := by
    obtain rfl := Option.some.inj hf
    have hmessage : ∀ i, (os ++ [FusionEvent.begun m0]).filterMap (FusionEvent.message i) =
        os.filterMap (FusionEvent.message i) := fun i => events_snoc_of_none os rfl
    refine ⟨Nat.zero_le n, nofun, fun i => ?_, fun e he i k m hm => ?_⟩
    · rw [hmessage]
      exact (hc i).tail.le
    · obtain ⟨-, hpos, hget⟩ := ((h.made.snoc rfl).fresh e he).2 i k m hm
      rw [hmessage] at hget
      have hlt := (List.getElem?_eq_some_iff.1 hget).1
      have htail := (hc i).tail
      exact Nat.le_trans (by omega) htail.ge

/-- The latest message of the next channel is taken. -/
theorem Tuples.take (h : s.Tuples os) (hc : s.Channels sizes os) (hf : s.filling = some f)
    (hlt : f.got.length < n) {m : M} (hm : (s.others ⟨f.got.length, hlt⟩).latest = some m) :
    Tuples (os ++ [.quiet]) { s with filling := some { f with
      got := f.got ++ [((s.others ⟨f.got.length, hlt⟩).tail, m)] } } where
  order := by
    rw [events_snoc, events_snoc, h.order, hf]
    simp [FusionEvent.first, FusionEvent.finished]
  made := h.made.snoc rfl
  going f' hf' := by
    obtain rfl := Option.some.inj hf'
    obtain ⟨-, hfresh, hseen, hbefore⟩ := (h.going f hf).snoc (o := .quiet) rfl
    refine ⟨?_, fun i k x hx => ?_, hseen, hbefore⟩
    · rw [List.length_append]
      exact hlt
    · rcases Nat.lt_or_ge i.val f.got.length with hi | hi
      · rw [List.getElem?_append_left hi] at hx
        exact hfresh i k x hx
      · obtain ⟨hi', -⟩ := List.getElem?_eq_some_iff.1 hx
        rw [List.length_append, List.length_singleton] at hi'
        obtain rfl : i = ⟨f.got.length, hlt⟩ := Fin.ext (by simp only; omega)
        rw [List.getElem?_concat_length, Option.some.injEq, Prod.mk.injEq] at hx
        obtain ⟨rfl, rfl⟩ := hx
        have hholds := hc ⟨f.got.length, hlt⟩
        have hmessage : (os ++ [FusionEvent.quiet]).filterMap
            (FusionEvent.message ⟨f.got.length, hlt⟩) =
              os.filterMap (FusionEvent.message ⟨f.got.length, hlt⟩) := events_snoc_of_none os rfl
        rw [hholds.latest_eq, List.getLast?_eq_getElem?] at hm
        have hlt' := (List.getElem?_eq_some_iff.1 hm).1
        have hle := hseen ⟨f.got.length, hlt⟩
        rw [hmessage] at hle ⊢
        rw [hholds.tail]
        exact ⟨hle, by omega, hm⟩

/-- Another channel is empty. -/
theorem Tuples.drop (h : s.Tuples os) (hf : s.filling = some f) :
    Tuples (os ++ [.dropped f.m0]) { s with filling := none } where
  order := by
    rw [events_snoc, events_snoc, h.order, hf]
    simp [FusionEvent.first, FusionEvent.finished]
  made := h.made.snoc rfl
  going _ hf' := by cases hf'

/-- The tuple is complete. -/
theorem Tuples.fuse (h : s.Tuples os) (hf : s.filling = some f) (hge : ¬f.got.length < n)
    (v : DataVisitor (M₀ × List M)) :
    Tuples (os ++ [.fused f]) { s with visitor := v, filling := none } where
  order := by
    rw [events_snoc, events_snoc, h.order, hf]
    simp [FusionEvent.first, FusionEvent.finished]
  made := by
    have hgoing := h.going f hf
    have htuple : (os ++ [FusionEvent.fused f]).filterMap FusionEvent.tuple =
        os.filterMap FusionEvent.tuple ++ [f] := events_snoc _ os _
    refine ⟨fun e he => ?_, ?_⟩
    · rw [htuple, List.mem_append, List.mem_singleton] at he
      rcases he with he | rfl
      · exact ⟨(h.made.fresh e he).1, (h.made.fresh e he).2.snoc _⟩
      · exact ⟨Nat.le_antisymm hgoing.length_le (Nat.not_lt.1 hge), hgoing.fresh.snoc _⟩
    · rw [htuple, List.pairwise_append]
      refine ⟨h.made.before, List.pairwise_singleton _ _, fun e he f' hf' => ?_⟩
      rw [List.mem_singleton.1 hf']
      exact hgoing.before e he
  going _ hf' := by cases hf'

theorem Tuples.step (h : s.Tuples os) (hc : s.Channels sizes os) (t : FusionTurn n M₀ M) :
    (s.step t).1.Tuples (os ++ [(s.step t).2]) := by
  cases t with
  | fillFirst m0 =>
    rw [AllLatest.step]
    split
    · rename_i hnone
      exact h.begin hc hnone m0
    · exact h.of_eq rfl rfl rfl rfl
  | go =>
    rw [AllLatest.step]
    split
    · exact h.of_eq rfl rfl rfl rfl
    · rename_i f hf
      rw [callback]
      split
      · rename_i hlt
        split
        · exact h.drop hf
        · rename_i m hm
          exact h.take hc hf hlt hm
      · rename_i hge
        exact h.fuse hf hge _
  | fill j m => exact h.of_eq rfl rfl rfl rfl
  | tryFetch => exact h.of_eq rfl rfl rfl rfl

/-- A message of the first channel is dropped only while another channel is empty. -/
theorem Channels.of_dropped (h : s.Channels sizes os) {t : FusionTurn n M₀ M} {m0 : M₀}
    (hdrop : (s.step t).2 = .dropped m0) : ∃ i, os.filterMap (FusionEvent.message i) = [] := by
  cases t with
  | fillFirst m =>
    rw [AllLatest.step] at hdrop
    split at hdrop <;> cases hdrop
  | go =>
    rw [AllLatest.step] at hdrop
    split at hdrop
    · cases hdrop
    · rename_i f _
      rw [callback] at hdrop
      split at hdrop
      · rename_i hlt
        split at hdrop
        · rename_i hnone
          rw [(h _).latest_eq, List.getLast?_eq_none_iff] at hnone
          exact ⟨_, hnone⟩
        · cases hdrop
      · cases hdrop
  | fill i m => cases hdrop
  | tryFetch => cases hdrop

/-! ## Runs -/

/-- In every run each message of the first channel is fused or dropped, in order, and dropped
only while another channel is empty. Each message of a tuple is at least as new as the latest
of its channel when the tuple's callback began, and that was after all messages of the tuples
before had come. `TryFetch` gives what a reader of the log of the tuples gets. -/
theorem fused_latest (size : ℕ) (sizes : Fin n → ℕ) (past : List (FusionTurn n M₀ M))
    (t : FusionTurn n M₀ M) :
    let r := run AllLatest.step (new size sizes) past
    let l := run (LogReader.step size) {} ((r.2.filterMap FusionEvent.visit).map Prod.fst)
    r.2.filterMap FusionEvent.first =
        r.2.filterMap FusionEvent.finished ++ (r.1.filling.map Filling.m0).toList ∧
      Made r.2 ∧
      (∀ m0, (r.1.step t).2 = .dropped m0 → ∃ i, r.2.filterMap (FusionEvent.message i) = []) ∧
      (r.2.filterMap FusionEvent.visit).map Prod.snd = l.2.map (Option.map Prod.snd) ∧
      l.1.Took size l.2 := by
  intro r l
  have h : r.1.Channels sizes r.2 ∧ r.1.Visited size r.2 ∧ r.1.Tuples r.2 :=
    run_history (fun os s => Channels sizes os s ∧ Visited size os s ∧ Tuples os s)
      (fun _ _ t h => ⟨h.1.step t, h.2.1.step t, h.2.2.step h.1 t⟩) past
      ⟨fun i => CacheBuffer.holds_new (sizes i), ⟨DataVisitor.reads_new size, rfl⟩,
        ⟨rfl, ⟨nofun, List.Pairwise.nil⟩, nofun⟩⟩
  obtain ⟨hchannels, hvisited, htuples⟩ := h
  have htook : l.1.Took size l.2 :=
    run_history (fun os (l : LogReader (M₀ × List M)) => l.Took size os)
      (fun _ _ op h => h.step op) _ ⟨Nat.le_refl 0, rfl, nofun, List.isChain_nil⟩
  exact ⟨htuples.order, htuples.made, fun _ hdrop => hchannels.of_dropped hdrop,
    hvisited.fetched, htook⟩

end AllLatest

end Mastiff.Cyber

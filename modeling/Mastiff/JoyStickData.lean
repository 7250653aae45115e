import Mathlib.Data.List.ReduceOption
import Mastiff.Lib.Bytes
import Mastiff.Lib.Machine

/-!
# Polling the joystick

`PollingJsRutine` (`chassis/drivers/soc/js/joystick_data.cc`) reads the joystick for every event
that `epoll_wait` returns for it, until a read fails. An event without `EPOLLIN`, or with an
error, is looked at over and over again, and so is a device that reads nothing.

`returns_iff` : a call returns, with the complete events read in order, exactly when the events
of the joystick are all readable and as many reads fail as there are such events.
-/

namespace Mastiff.Soc

open Bytes Machine

/-- `struct epoll_event`, `fd` being the file in its `data`. -/
structure EpollEvent where
  events : BitVec 32
  fd : ℤ
  deriving DecidableEq

def epollIn : BitVec 32 := 0x001
def epollErr : BitVec 32 := 0x008
def epollHup : BitVec 32 := 0x010

/-- The test in the loop. -/
def EpollEvent.hasError (e : EpollEvent) : Bool :=
  e.events &&& epollErr ≠ 0 || e.events &&& epollHup ≠ 0 || e.events &&& epollIn = 0

/-- `sizeof(js_event)`. -/
def jsEventSize : ℕ := 8

/-- The complete events among what the reads give, `none` being a read that fails. -/
def completeEvents (reads : List (Option (List Byte))) : List (List Byte) :=
  reads.reduceOption.filter fun bytes => bytes.length = jsEventSize

/-- The local state of `PollingJsRutine` : the events that the loop has not done with, the number
of reads made, and `data`. -/
structure PollingJs where
  events : List EpollEvent
  reads : ℕ := 0
  data : List Byte := []
  deriving DecidableEq

namespace PollingJs

/-- Once round one of the two loops. `read` gives what each read of the joystick does. -/
def step (joyFd : ℤ) (read : ℕ → Option (List Byte)) (s : PollingJs) : PollingJs :=
  match s.events with
  | [] => s
  | e :: es =>
    if e.fd ≠ joyFd then { s with events := es }
    else if e.hasError then s
    else
      match read s.reads with
      | none => { s with events := es, reads := s.reads + 1 }
      | some bytes =>
        { s with
          reads := s.reads + 1
          data := if bytes.length = jsEventSize then s.data ++ bytes else s.data }

/-- What the first `n` reads give. -/
def made (read : ℕ → Option (List Byte)) (n : ℕ) : List (Option (List Byte)) :=
  (List.range n).map read

/-- `PollingJsRutine` returns, and `data` holds the complete events read, in order. -/
def Returns (joyFd : ℤ) (read : ℕ → Option (List Byte)) (events : List EpollEvent) : Prop :=
  ∃ n, ((step joyFd read)^[n] { events := events }).events = [] ∧
    ((step joyFd read)^[n] { events := events }).data =
      (completeEvents (made read ((step joyFd read)^[n] { events := events }).reads)).flatten

/-- The number of events of the joystick. -/
def ofJoy (joyFd : ℤ) (events : List EpollEvent) : ℕ :=
  events.countP fun e => e.fd = joyFd

/-- The events of the joystick are readable, and as many reads fail. -/
structure Ends (joyFd : ℤ) (read : ℕ → Option (List Byte)) (events : List EpollEvent) : Prop where
  readable : ∀ e ∈ events, e.fd = joyFd → e.hasError = false
  fails : ∃ n, ofJoy joyFd events ≤ (made read n).count none

variable {joyFd : ℤ} {read : ℕ → Option (List Byte)} {s : PollingJs}

/-! ## Counting -/

theorem ofJoy_cons_of_eq {e : EpollEvent} (h : e.fd = joyFd) (es : List EpollEvent) :
    ofJoy joyFd (e :: es) = ofJoy joyFd es + 1 := by
  simp [ofJoy, h]

theorem ofJoy_cons_of_ne {e : EpollEvent} (h : e.fd ≠ joyFd) (es : List EpollEvent) :
    ofJoy joyFd (e :: es) = ofJoy joyFd es := by
  simp [ofJoy, h]

theorem made_succ (read : ℕ → Option (List Byte)) (n : ℕ) :
    made read (n + 1) = made read n ++ [read n] := by
  simp [made, List.range_succ]

theorem made_append (read : ℕ → Option (List Byte)) (n k : ℕ) :
    ∃ later, made read (n + k) = made read n ++ later := by
  induction k with
  | zero => exact ⟨[], by simp⟩
  | succ k ih =>
    obtain ⟨later, hlater⟩ := ih
    exact ⟨later ++ [read (n + k)], by rw [← Nat.add_assoc, made_succ, hlater, List.append_assoc]⟩

theorem completeEvents_snoc_some (reads : List (Option (List Byte))) (bytes : List Byte) :
    (completeEvents (reads ++ [some bytes])).flatten =
      if bytes.length = jsEventSize then (completeEvents reads).flatten ++ bytes
      else (completeEvents reads).flatten := by
  split_ifs with h <;> simp [completeEvents, List.reduceOption_append, h]

theorem completeEvents_snoc_none (reads : List (Option (List Byte))) :
    completeEvents (reads ++ [none]) = completeEvents reads := by
  simp [completeEvents, List.reduceOption_append]

/-! ## One round -/

/-- A round leads from `s` to `s'` : it passes over an event of another file, stays with an event
that has an error, ends an event with a read that fails, or reads on. -/
inductive Round (joyFd : ℤ) (read : ℕ → Option (List Byte)) (s : PollingJs) (e : EpollEvent)
    (es : List EpollEvent) : PollingJs → Prop
  | pass : e.fd ≠ joyFd → Round joyFd read s e es { s with events := es }
  | stay : e.fd = joyFd → e.hasError = true → Round joyFd read s e es s
  | fail : e.fd = joyFd → e.hasError = false → read s.reads = none →
      Round joyFd read s e es { s with events := es, reads := s.reads + 1 }
  | more (bytes : List Byte) : e.fd = joyFd → e.hasError = false → read s.reads = some bytes →
      Round joyFd read s e es
        { s with
          reads := s.reads + 1
          data := if bytes.length = jsEventSize then s.data ++ bytes else s.data }

theorem round_step (joyFd : ℤ) (read : ℕ → Option (List Byte)) {e : EpollEvent}
    {es : List EpollEvent} (hevents : s.events = e :: es) :
    Round joyFd read s e es (step joyFd read s) := by
  simp only [step, hevents]
  split_ifs with hfd herror
  · exact .pass hfd
  · exact .stay (not_not.1 hfd) herror
  · rw [Bool.not_eq_true] at herror
    cases hread : read s.reads with
    | none => exact .fail (not_not.1 hfd) herror hread
    | some bytes =>
      simp only [← hevents]
      exact .more bytes (not_not.1 hfd) herror hread

/-- What holds at every round : `data` has the complete events of the reads made, every event of
the joystick done with ended in a read that failed, and none of them has an error. -/
structure Running (joyFd : ℤ) (read : ℕ → Option (List Byte)) (events : List EpollEvent)
    (s : PollingJs) : Prop where
  data : s.data = (completeEvents (made read s.reads)).flatten
  fails : ofJoy joyFd s.events + (made read s.reads).count none = ofJoy joyFd events
  readable : (∀ e ∈ s.events, e.fd = joyFd → e.hasError = false) →
    ∀ e ∈ events, e.fd = joyFd → e.hasError = false

theorem running_start (events : List EpollEvent) :
    Running joyFd read events { events := events } :=
  ⟨rfl, by simp [made], fun h => h⟩

theorem Running.step {events : List EpollEvent} (h : Running joyFd read events s) :
    Running joyFd read events (s.step joyFd read) := by
  cases hevents : s.events with
  | nil =>
    rw [PollingJs.step, hevents]
    exact h
  | cons e es =>
    obtain ⟨hdata, hfails, hreadable⟩ := h
    have hround := round_step joyFd read hevents
    rw [hevents, List.forall_mem_cons] at hreadable
    generalize s.step joyFd read = s' at hround
    cases hround with
    | pass hfd =>
      rw [hevents, ofJoy_cons_of_ne hfd] at hfails
      exact ⟨hdata, hfails, fun hall => hreadable ⟨fun h => absurd h hfd, hall⟩⟩
    | stay _ _ =>
      refine ⟨hdata, hfails, fun hall => hreadable (List.forall_mem_cons.1 (hevents ▸ hall))⟩
    | fail hfd herror hread =>
      rw [hevents, ofJoy_cons_of_eq hfd] at hfails
      refine ⟨?_, ?_, fun hall => hreadable ⟨fun _ => herror, hall⟩⟩
      · rw [made_succ, hread, completeEvents_snoc_none]
        exact hdata
      · simp only [made_succ, hread, List.count_append, List.count_singleton_self]
        omega
    | more bytes hfd herror hread =>
      refine ⟨?_, ?_, fun hall => hreadable (List.forall_mem_cons.1 (hevents ▸ hall))⟩
      · simp only [made_succ, hread, completeEvents_snoc_some, hdata]
      · simpa [made_succ, hread] using hfails

theorem running_iterate (joyFd : ℤ) (read : ℕ → Option (List Byte)) (events : List EpollEvent)
    (n : ℕ) : Running joyFd read events ((step joyFd read)^[n] { events := events }) :=
  Function.Iterate.rec (Running joyFd read events) (running_start events) (fun _ h => h.step) n

/-! ## The end -/

/-- As long as the events left are readable and enough reads fail, a round makes headway. -/
theorem Running.rank_lt {events : List EpollEvent} {n : ℕ} (h : Running joyFd read events s)
    (hn : ofJoy joyFd events ≤ (made read n).count none)
    (hreadable : ∀ e ∈ s.events, e.fd = joyFd → e.hasError = false) (hne : s.events ≠ []) :
    (∀ e ∈ (s.step joyFd read).events, e.fd = joyFd → e.hasError = false) ∧
      (s.step joyFd read).events.length + (n - (s.step joyFd read).reads) <
        s.events.length + (n - s.reads) := by
  obtain ⟨e, es, hevents⟩ := List.exists_cons_of_ne_nil hne
  have hround := round_step joyFd read hevents
  have hfails := h.fails
  rw [hevents, List.forall_mem_cons] at hreadable
  -- a read is left as long as an event of the joystick is
  have hleft : e.fd = joyFd → s.reads < n := by
    intro hfd
    rw [hevents, ofJoy_cons_of_eq hfd] at hfails
    by_contra hle
    obtain ⟨k, hk⟩ := Nat.exists_eq_add_of_le (Nat.le_of_not_lt hle)
    obtain ⟨later, hlater⟩ := made_append read n k
    rw [hk, hlater, List.count_append] at hfails
    omega
  rw [hevents]
  generalize s.step joyFd read = s' at hround
  cases hround with
  | pass _ =>
    refine ⟨hreadable.2, ?_⟩
    simp
  | stay hfd herror => simp [hreadable.1 hfd] at herror
  | fail hfd _ _ =>
    have hlt := hleft hfd
    refine ⟨hreadable.2, ?_⟩
    simp only [List.length_cons]
    omega
  | more _ hfd _ _ =>
    have hlt := hleft hfd
    refine ⟨hevents ▸ List.forall_mem_cons.2 hreadable, ?_⟩
    simp only [hevents, List.length_cons]
    omega

/-- A call that returns has done with all events. -/
theorem ends_of_returns {events : List EpollEvent} (h : Returns joyFd read events) :
    Ends joyFd read events := by
  obtain ⟨n, hdone, -⟩ := h
  obtain ⟨-, hfails, hreadable⟩ := running_iterate joyFd read events n
  rw [hdone] at hfails hreadable
  rw [show ofJoy joyFd [] = 0 from rfl, Nat.zero_add] at hfails
  exact ⟨hreadable (by simp), _, Nat.le_of_eq hfails.symm⟩

theorem returns_of_ends {events : List EpollEvent} (h : Ends joyFd read events) :
    Returns joyFd read events := by
  obtain ⟨hreadable, n, hn⟩ := h
  have hround : ∀ s : PollingJs,
      (Running joyFd read events s ∧ ∀ e ∈ s.events, e.fd = joyFd → e.hasError = false) →
      ¬s.events = [] →
        (Running joyFd read events (s.step joyFd read) ∧
          ∀ e ∈ (s.step joyFd read).events, e.fd = joyFd → e.hasError = false) ∧
        (s.step joyFd read).events.length + (n - (s.step joyFd read).reads) <
          s.events.length + (n - s.reads) := by
    rintro s ⟨hrunning, hleft⟩ hne
    obtain ⟨hleft', hlt⟩ := hrunning.rank_lt hn hleft hne
    exact ⟨⟨hrunning.step, hleft'⟩, hlt⟩
  obtain ⟨k, hdone, -⟩ := exists_iterate_of_rank
    (fun s : PollingJs => s.events.length + (n - s.reads)) hround
    ⟨running_start events, hreadable⟩
  exact ⟨k, hdone, (running_iterate joyFd read events k).data⟩

/-- For every list of events and whatever the reads give, `PollingJsRutine` returns, with the
complete events read in order, exactly when the events of the joystick are readable and as
many reads fail. -/
theorem returns_iff (joyFd : ℤ) (read : ℕ → Option (List Byte)) (events : List EpollEvent) :
    Returns joyFd read events ↔ Ends joyFd read events :=
  ⟨ends_of_returns, returns_of_ends⟩

/-- The joystick is unplugged. -/
theorem not_returns :
    ¬∀ (joyFd : ℤ) (read : ℕ → Option (List Byte)) (events : List EpollEvent),
      (∃ n, ∀ i, n ≤ i → read i = none ∨ read i = some []) → Returns joyFd read events := by
  intro h
  have hends := ends_of_returns
    (h 3 (fun _ => none) [⟨epollIn ||| epollHup, 3⟩] ⟨0, fun _ _ => .inl rfl⟩)
  exact absurd (hends.readable _ (List.mem_singleton_self _) rfl) (by decide)

end PollingJs

end Mastiff.Soc

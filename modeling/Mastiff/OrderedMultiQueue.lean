import Mathlib.Algebra.GroupWithZero.Nat
import Mathlib.Algebra.Order.BigOperators.Group.List
import Mathlib.Data.Int.Order.Basic
import Mathlib.Data.List.Sort
import Mathlib.Data.Prod.Lex
import Mathlib.Data.String.Basic
import Mathlib.Order.BoundedOrder.Basic
import Mathlib.Order.Nat
import Mastiff.Lib.Machine

/-!
# Sensor data in the order of time

`OrderedMultiQueue`
(`modules/slam/cartographer_230401/cartographer/sensor/internal/ordered_multi_queue.cc`)
has a queue for each sensor of each trajectory and calls back with the data of all of them in
the order of time. `Dispatch` goes over the queues, takes the oldest datum, and stops where a
queue that is not finished has none. What came before all sensors of a trajectory had data is
dropped, but for the last datum of each queue.

`dispatched_in_order` : in every run that no `CHECK` ends, the data come in the order of time,
and those of a queue in the order in which they were added. A datum is dropped only where the
next of its queue is not beyond the common start time. What is held back waits for a queue
that needs more data.

`checks_hold` : if the data of each queue are added in order, no `CHECK` fails, and `Flush`
leaves nothing behind.
-/

set_option linter.unusedSectionVars false

namespace Mastiff.Cartographer

open Machine Memory

variable {T β : Type} [LinearOrder T] [OrderBot T]

/-! ## The queues -/

/-- A trajectory id and a sensor id, compared in this order. -/
abbrev QueueKey := ℤ ×ₗ String

/-- The `trajectory_id` of a key. -/
def QueueKey.trajectoryId (key : QueueKey) : ℤ :=
  (ofLex key).1

/-- A datum and its `GetTime`. -/
structure SensorData (T β : Type) where
  time : T
  value : β

/-- The members of `Queue`, without the callback. `floor` is the time of the last datum that was
added, or if there is none the last one dispatched when the queue was, and is kept for the
statements alone. -/
structure SensorQueue (T β : Type) [LE T] [OrderBot T] where
  data : List (SensorData T β) := []
  finished : Bool := false
  floor : T := ⊥

/-- The members of `OrderedMultiQueue`. The map of the queues is the list of its keys in order,
with a queue for each. -/
structure OrderedMultiQueue (T β : Type) [LE T] [OrderBot T] where
  lastDispatchedTime : T := ⊥
  commonStartTime : ℤ → Option T := fun _ => none
  keys : List QueueKey := []
  queue : QueueKey → SensorQueue T β := fun _ => {}
  blocker : QueueKey := toLex (0, "")

/-- The `CHECK`s. -/
inductive CheckFailure
  | queueExists
  | noQueue
  | alreadyFinished
  | unsorted
  | notEmpty

/-- What happens to a datum : it is put in a queue, given to the callback of its queue, or
dropped. -/
inductive CollatorEvent (T β : Type)
  | added (key : QueueKey) (data : SensorData T β)
  | dispatched (key : QueueKey) (data : SensorData T β)
  | dropped (key : QueueKey) (data : SensorData T β)

/-- The calls. -/
inductive CollatorOp (T β : Type)
  | addQueue (key : QueueKey)
  | markQueueAsFinished (key : QueueKey)
  | add (key : QueueKey) (data : SensorData T β)
  | flush

/-- What the loop over the queues comes to : a queue needs data, or it got to the end with the
oldest datum. Queues that are finished and empty are erased on the way. -/
inductive Scan (T β : Type)
  | blocked (keys : List QueueKey) (key : QueueKey)
  | all (keys : List QueueKey) (next : Option (QueueKey × SensorData T β))

/-- A queue stays in the map. -/
def Scan.keep (key : QueueKey) : Scan T β → Scan T β
  | .blocked keys k => .blocked (key :: keys) k
  | .all keys next => .all (key :: keys) next

namespace OrderedMultiQueue

/-- The datum compared with the oldest so far. -/
def older (key : QueueKey) (data : SensorData T β) :
    Option (QueueKey × SensorData T β) → QueueKey × SensorData T β
  | none => (key, data)
  | some next => if data.time < next.2.time then (key, data) else next

/-- The loop over the queues in `Dispatch`. -/
def scan (s : OrderedMultiQueue T β) :
    List QueueKey → Option (QueueKey × SensorData T β) → Except CheckFailure (Scan T β)
  | [], next => .ok (.all [] next)
  | key :: keys, next =>
    match (s.queue key).data with
    | [] =>
      if (s.queue key).finished then s.scan keys next
      else .ok (.blocked (key :: keys) key)
    | data :: _ =>
      if s.lastDispatchedTime ≤ (older key data next).2.time then
        (s.scan keys (some (older key data next))).map (Scan.keep key)
      else .error .unsorted

/-- The latest of the first data of the trajectory's queues. -/
def firstCommonTime (s : OrderedMultiQueue T β) (trajectoryId : ℤ) : T :=
  s.keys.foldl (fun start key =>
    if key.trajectoryId = trajectoryId then
      match (s.queue key).data with
      | [] => start
      | data :: _ => max start data.time
    else start) ⊥

/-- `GetCommonStartTime`. -/
def getCommonStartTime (s : OrderedMultiQueue T β) (trajectoryId : ℤ) :
    OrderedMultiQueue T β × T :=
  match s.commonStartTime trajectoryId with
  | some start => (s, start)
  | none =>
    let start := s.firstCommonTime trajectoryId
    ({ s with commonStartTime := Function.update s.commonStartTime trajectoryId (some start) },
      start)

/-- Pop the first datum of a queue. -/
def pop (s : OrderedMultiQueue T β) (key : QueueKey) (rest : List (SensorData T β)) :
    OrderedMultiQueue T β :=
  { s with queue := Function.update s.queue key { s.queue key with data := rest } }

/-- Pop the first datum of a queue and call back. -/
def callback (s : OrderedMultiQueue T β) (key : QueueKey) (data : SensorData T β)
    (rest : List (SensorData T β)) : OrderedMultiQueue T β × Option (CollatorEvent T β) :=
  ({ s.pop key rest with lastDispatchedTime := data.time }, some (.dispatched key data))

/-- A turn of the loop in `Dispatch`, which returns where nothing happens to a datum. -/
def turn (s : OrderedMultiQueue T β) :
    Except CheckFailure (OrderedMultiQueue T β × Option (CollatorEvent T β)) := do
  match ← s.scan s.keys none with
  | .blocked keys key => return ({ s with keys := keys, blocker := key }, none)
  | .all keys none => if keys = [] then return ({ s with keys := keys }, none) else .error .notEmpty
  | .all keys (some (key, data)) =>
    let (s, start) := { s with keys := keys }.getCommonStartTime key.trajectoryId
    match (s.queue key).data.tail with
    | [] =>
      if start ≤ data.time ∨ (s.queue key).finished = true then return s.callback key data []
      else return ({ s with blocker := key }, none)
    | after :: rest =>
      if start ≤ data.time ∨ start < after.time then
        return s.callback key data (after :: rest)
      else return (s.pop key (after :: rest), some (.dropped key data))

/-! ## A turn of the loop -/

variable {s s' : OrderedMultiQueue T β} {keys ks : List QueueKey} {key : QueueKey}
  {data : SensorData T β} {rest : List (SensorData T β)}

/-- The queues that are left when some were erased, all of them finished and empty. -/
structure Erased (s : OrderedMultiQueue T β) (ks keys : List QueueKey) : Prop where
  sublist : keys.Sublist ks
  gone : ∀ k ∈ ks, k ∉ keys → (s.queue k).finished = true ∧ (s.queue k).data = []

/-- The first datum of a queue, which is the oldest of all. -/
structure Oldest (s : OrderedMultiQueue T β) (keys : List QueueKey) (key : QueueKey)
    (data : SensorData T β) (rest : List (SensorData T β)) : Prop where
  mem : key ∈ keys
  first : (s.queue key).data = data :: rest
  sorted : s.lastDispatchedTime ≤ data.time
  le : ∀ k ∈ keys, ∃ d r, (s.queue k).data = d :: r ∧ data.time ≤ d.time

/-- What the loop over the queues finds out. -/
inductive Scanned (s : OrderedMultiQueue T β) (ks : List QueueKey)
    (next : Option (QueueKey × SensorData T β)) : Scan T β → Prop
  | blocked {keys : List QueueKey} {key : QueueKey} (herased : s.Erased ks keys) (hkey : key ∈ keys)
      (hopen : (s.queue key).finished = false) (hempty : (s.queue key).data = []) :
      Scanned s ks next (.blocked keys key)
  | all {keys : List QueueKey} {next' : Option (QueueKey × SensorData T β)}
      (herased : s.Erased ks keys)
      (hle : ∀ k ∈ keys, ∃ d r, (s.queue k).data = d :: r ∧ ∃ n, next' = some n ∧ n.2.time ≤ d.time)
      (hbefore : ∀ n, next = some n → ∃ n', next' = some n' ∧ n'.2.time ≤ n.2.time)
      (hnext : next' = next ∨ ∃ n, next' = some n ∧ n.1 ∈ keys ∧
        s.lastDispatchedTime ≤ n.2.time ∧ ∃ r, (s.queue n.1).data = n.2 :: r) :
      Scanned s ks next (.all keys next')

theorem Erased.skip (h : s.Erased ks keys) (hfinished : (s.queue key).finished = true)
    (hempty : (s.queue key).data = []) : s.Erased (key :: ks) keys := by
  refine ⟨h.sublist.cons key, fun k hk hout => ?_⟩
  rcases List.mem_cons.mp hk with rfl | hk
  · exact ⟨hfinished, hempty⟩
  · exact h.gone k hk hout

theorem Erased.keep (h : s.Erased ks keys) (key : QueueKey) :
    s.Erased (key :: ks) (key :: keys) := by
  refine ⟨h.sublist.cons_cons key, fun k hk hout => ?_⟩
  rw [List.mem_cons, not_or] at hout
  exact h.gone k ((List.mem_cons.mp hk).resolve_left hout.1) hout.2

theorem older_le (key : QueueKey) (data : SensorData T β)
    (next : Option (QueueKey × SensorData T β)) : (older key data next).2.time ≤ data.time := by
  cases next with
  | none => exact le_refl _
  | some n =>
    rw [older]
    split
    · exact le_refl _
    · exact not_lt.mp ‹_›

theorem older_le_of_some (key : QueueKey) (data : SensorData T β) (n : QueueKey × SensorData T β) :
    (older key data (some n)).2.time ≤ n.2.time := by
  rw [older]
  split
  · exact le_of_lt ‹_›
  · exact le_refl _

theorem older_eq (key : QueueKey) (data : SensorData T β)
    (next : Option (QueueKey × SensorData T β)) :
    older key data next = (key, data) ∨ some (older key data next) = next := by
  cases next with
  | none => exact .inl rfl
  | some n =>
    rw [older]
    split
    · exact .inl rfl
    · exact .inr rfl

theorem scanned : ∀ (ks : List QueueKey) (next : Option (QueueKey × SensorData T β)) {r : Scan T β},
    s.scan ks next = .ok r → s.Scanned ks next r
  | [], next, r, h => by
    obtain rfl := Except.ok.inj h
    exact .all ⟨List.Sublist.refl [], nofun⟩ nofun (fun n hn => ⟨n, hn, le_refl _⟩) (.inl rfl)
  | key :: ks, next, r, h => by
    rw [scan] at h
    split at h
    case h_1 hempty =>
      split at h
      case isTrue hfinished =>
        cases scanned ks next h with
        | blocked herased hkey hopen hempty' =>
          exact .blocked (herased.skip hfinished hempty) hkey hopen hempty'
        | all herased hle hbefore hnext =>
          exact .all (herased.skip hfinished hempty) hle hbefore hnext
      case isFalse hopen =>
        obtain rfl := Except.ok.inj h
        exact .blocked ⟨List.Sublist.refl _, fun k hk hout => absurd hk hout⟩ List.mem_cons_self
          (Bool.eq_false_iff.mpr hopen) hempty
    case h_2 data rest hdata =>
      split at h
      case isTrue hsorted =>
        cases hscan : s.scan ks (some (older key data next)) with
        | error e =>
          rw [hscan] at h
          exact absurd h nofun
        | ok r' =>
          rw [hscan] at h
          obtain rfl := Except.ok.inj h
          cases scanned ks _ hscan with
          | blocked herased hkey hopen hempty =>
            exact .blocked (herased.keep key) (List.mem_cons_of_mem _ hkey) hopen hempty
          | all herased hle hbefore hnext =>
            obtain ⟨n', hn', hn'le⟩ := hbefore _ rfl
            refine .all (herased.keep key) (fun k hk => ?_) (fun n hn => ?_) ?_
            · rcases List.mem_cons.mp hk with rfl | hk
              · exact ⟨data, rest, hdata, n', hn', hn'le.trans (older_le ..)⟩
              · exact hle k hk
            · rw [hn] at hn'le
              exact ⟨n', hn', hn'le.trans (older_le_of_some ..)⟩
            · rcases hnext with hnext | ⟨n, hn, hmem, hlast, hfirst⟩
              · rcases older_eq key data next with heq | heq
                · rw [heq] at hnext hsorted
                  exact .inr ⟨_, hnext, List.mem_cons_self, hsorted, rest, hdata⟩
                · exact .inl (hnext.trans heq)
              · exact .inr ⟨n, hn, List.mem_cons_of_mem _ hmem, hlast, hfirst⟩
      case isFalse => exact absurd h nofun

/-- The common start time of a trajectory is chosen, and those there were stay. -/
structure Started (s : OrderedMultiQueue T β) (times : ℤ → Option T) (trajectoryId : ℤ)
    (start : T) : Prop where
  eq : times trajectoryId = some start
  stays : ∀ t t', s.commonStartTime t = some t' → times t = some t'

/-- What a turn of the loop does. -/
inductive Turned (s : OrderedMultiQueue T β) :
    OrderedMultiQueue T β × Option (CollatorEvent T β) → Prop
  | blocked {keys : List QueueKey} {key : QueueKey} (herased : s.Erased s.keys keys)
      (hkey : key ∈ keys) (hopen : (s.queue key).finished = false)
      (hempty : (s.queue key).data = []) :
      Turned s ({ s with keys := keys, blocker := key }, none)
  | done (herased : s.Erased s.keys []) : Turned s ({ s with keys := [] }, none)
  | hold {keys : List QueueKey} {key : QueueKey} {data : SensorData T β} {times : ℤ → Option T}
      {start : T} (herased : s.Erased s.keys keys) (holdest : s.Oldest keys key data [])
      (hstart : s.Started times key.trajectoryId start) (hopen : (s.queue key).finished = false)
      (hlt : data.time < start) :
      Turned s ({ s with keys := keys, commonStartTime := times, blocker := key }, none)
  | dispatch {keys : List QueueKey} {key : QueueKey} {data : SensorData T β}
      {rest : List (SensorData T β)} {times : ℤ → Option T} {start : T}
      (herased : s.Erased s.keys keys) (holdest : s.Oldest keys key data rest)
      (hstart : s.Started times key.trajectoryId start) :
      Turned s ({ s with
        keys := keys
        commonStartTime := times
        queue := Function.update s.queue key { s.queue key with data := rest }
        lastDispatchedTime := data.time }, some (.dispatched key data))
  | drop {keys : List QueueKey} {key : QueueKey} {data after : SensorData T β}
      {rest : List (SensorData T β)} {times : ℤ → Option T} {start : T}
      (herased : s.Erased s.keys keys) (holdest : s.Oldest keys key data (after :: rest))
      (hstart : s.Started times key.trajectoryId start) (hlt : data.time < start)
      (hafter : after.time ≤ start) :
      Turned s ({ s with
        keys := keys
        commonStartTime := times
        queue := Function.update s.queue key { s.queue key with data := after :: rest } },
        some (.dropped key data))

/-- What the loop over the queues comes to when it begins. -/
theorem scanned_keys {r : Scan T β} (h : s.scan s.keys none = .ok r) :
    (∃ keys key, r = .blocked keys key ∧ s.Erased s.keys keys ∧ key ∈ keys ∧
      (s.queue key).finished = false ∧ (s.queue key).data = []) ∨
    (r = .all [] none ∧ s.Erased s.keys []) ∨
    ∃ keys key data rest, r = .all keys (some (key, data)) ∧ s.Erased s.keys keys ∧
      s.Oldest keys key data rest := by
  cases scanned s.keys none h with
  | blocked herased hkey hopen hempty => exact .inl ⟨_, _, rfl, herased, hkey, hopen, hempty⟩
  | @all keys next' herased hle hbefore hnext =>
    rcases hnext with rfl | ⟨⟨key, data⟩, rfl, hmem, hlast, rest, hfirst⟩
    · have hkeys : keys = [] := by
        refine List.eq_nil_iff_forall_not_mem.mpr fun k hk => ?_
        obtain ⟨-, -, -, n, hn, -⟩ := hle k hk
        exact Option.some_ne_none n hn.symm
      subst hkeys
      exact .inr (.inl ⟨rfl, herased⟩)
    · refine .inr (.inr ⟨keys, key, data, rest, rfl, herased, hmem, hfirst, hlast, fun k hk => ?_⟩)
      obtain ⟨d, r, hd, n, hn, hnd⟩ := hle k hk
      obtain rfl := Option.some.inj hn
      exact ⟨d, r, hd, hnd⟩

theorem getCommonStartTime_eq (s : OrderedMultiQueue T β) (trajectoryId : ℤ) :
    ∃ times start, s.Started times trajectoryId start ∧
      s.getCommonStartTime trajectoryId = ({ s with commonStartTime := times }, start) := by
  rw [getCommonStartTime]
  split
  case h_1 start hstart => exact ⟨s.commonStartTime, start, ⟨hstart, fun _ _ h => h⟩, rfl⟩
  case h_2 hstart =>
    refine ⟨_, _, ⟨Function.update_self .., fun t t' ht => ?_⟩, rfl⟩
    have hne : t ≠ trajectoryId := by
      rintro rfl
      rw [hstart] at ht
      exact Option.some_ne_none t' ht.symm
    rw [Function.update_of_ne hne]
    exact ht

theorem turned {r : OrderedMultiQueue T β × Option (CollatorEvent T β)} (h : s.turn = .ok r) :
    s.Turned r := by
  rw [turn] at h
  cases hscan : s.scan s.keys none with
  | error e =>
    rw [hscan] at h
    exact absurd h nofun
  | ok r' =>
    rw [hscan, ok_bind] at h
    rcases scanned_keys hscan with ⟨keys, key, rfl, herased, hkey, hopen, hempty⟩ |
      ⟨rfl, herased⟩ | ⟨keys, key, data, rest, rfl, herased, holdest⟩
    · obtain rfl := Except.ok.inj h
      exact .blocked herased hkey hopen hempty
    · obtain rfl := Except.ok.inj h
      exact .done herased
    · obtain ⟨times, start, hstart, heq⟩ :=
        getCommonStartTime_eq { s with keys := keys } key.trajectoryId
      have hstart' : s.Started times key.trajectoryId start := ⟨hstart.eq, hstart.stays⟩
      simp only [heq, holdest.first, List.tail_cons] at h
      cases rest with
      | nil =>
        simp only at h
        split at h
        case isTrue =>
          obtain rfl := Except.ok.inj h
          exact .dispatch herased holdest hstart'
        case isFalse hcond =>
          rw [not_or, not_le, Bool.not_eq_true] at hcond
          obtain rfl := Except.ok.inj h
          exact .hold herased holdest hstart' hcond.2 hcond.1
      | cons after rest =>
        simp only at h
        split at h
        case isTrue =>
          obtain rfl := Except.ok.inj h
          exact .dispatch herased holdest hstart'
        case isFalse hcond =>
          rw [not_or, not_le, not_lt] at hcond
          obtain rfl := Except.ok.inj h
          exact .drop herased holdest hstart' hcond.1 hcond.2

/-! ## The loop -/

/-- The number of data in the queues. -/
def size (s : OrderedMultiQueue T β) : ℕ :=
  (s.keys.map fun key => (s.queue key).data.length).sum

theorem size_pop_lt (herased : s.Erased s.keys keys) (hkey : key ∈ keys)
    (hfirst : (s.queue key).data = data :: rest) :
    (keys.map fun k => (Function.update s.queue key
      { s.queue key with data := rest } k).data.length).sum < s.size := by
  refine lt_of_lt_of_le (List.sum_lt_sum _ (fun k => (s.queue k).data.length) (fun k _ => ?_)
    ⟨key, hkey, ?_⟩) ((herased.sublist.map _).sum_le_sum fun _ _ => Nat.zero_le _)
  · by_cases hk : k = key
    · subst hk
      rw [Function.update_self, hfirst]
      exact Nat.le_succ _
    · rw [Function.update_of_ne hk]
  · rw [Function.update_self, hfirst]
    exact Nat.lt_succ_self _

/-- Every turn at which something happens takes a datum out. -/
theorem Turned.size_lt {e : CollatorEvent T β} (h : s.Turned (s', some e)) : s'.size < s.size := by
  cases h with
  | dispatch herased holdest hstart => exact size_pop_lt herased holdest.mem holdest.first
  | drop herased holdest hstart hlt hafter => exact size_pop_lt herased holdest.mem holdest.first

/-- `Dispatch`. -/
def dispatch (s : OrderedMultiQueue T β) :
    Except CheckFailure (OrderedMultiQueue T β × List (CollatorEvent T β)) :=
  match _h : s.turn with
  | .error e => .error e
  | .ok (s', none) => .ok (s', [])
  | .ok (s', some e) => do
    let r ← s'.dispatch
    return (r.1, e :: r.2)
termination_by s.size
decreasing_by exact (turned _h).size_lt

theorem dispatch_of_none (hturn : s.turn = .ok (s', none)) : s.dispatch = .ok (s', []) := by
  rw [dispatch]
  split <;> simp_all

theorem dispatch_of_some {e : CollatorEvent T β} (hturn : s.turn = .ok (s', some e)) :
    s.dispatch = s'.dispatch >>= fun r => .ok (r.1, e :: r.2) := by
  rw [dispatch]
  split <;> simp_all

theorem dispatch_eq_cons {e : CollatorEvent T β} {es : List (CollatorEvent T β)}
    {s₁ : OrderedMultiQueue T β} (hturn : s.turn = .ok (s₁, some e))
    (h : s₁.dispatch = .ok (s', es)) : s.dispatch = .ok (s', e :: es) := by
  rw [dispatch_of_some hturn, h]
  rfl

theorem dispatch_eq_ok {es : List (CollatorEvent T β)} (h : s.dispatch = .ok (s', es)) :
    (s.turn = .ok (s', none) ∧ es = []) ∨
      ∃ s₁ e es₁, s.turn = .ok (s₁, some e) ∧ s₁.dispatch = .ok (s', es₁) ∧ es = e :: es₁ := by
  rw [dispatch] at h
  split at h
  case h_1 => exact absurd h nofun
  case h_2 s₁ hturn =>
    obtain ⟨rfl, rfl⟩ := Prod.mk.inj (Except.ok.inj h)
    exact .inl ⟨hturn, rfl⟩
  case h_3 s₁ e hturn =>
    obtain ⟨⟨s₂, es₁⟩, hdispatch, hret⟩ := bind_eq_ok.mp h
    obtain ⟨rfl, rfl⟩ := Prod.mk.inj (Except.ok.inj hret)
    exact .inr ⟨s₁, e, es₁, hturn, hdispatch, rfl⟩

/-- What every turn keeps, `Dispatch` keeps, and it returns from a turn at which nothing happens
to a datum. -/
theorem dispatch_keeps {R : List (CollatorEvent T β) → OrderedMultiQueue T β → Prop}
    (hturn : ∀ es s s' e, R es s → s.Turned (s', e) → R (es ++ e.toList) s')
    {s s' : OrderedMultiQueue T β} {es es' : List (CollatorEvent T β)} (hs : R es s)
    (h : s.dispatch = .ok (s', es')) :
    R (es ++ es') s' ∧ ∃ s₀ : OrderedMultiQueue T β, s₀.Turned (s', none) := by
  rcases dispatch_eq_ok h with ⟨hlast, rfl⟩ | ⟨s₁, e, es₁, hfirst, hrest, rfl⟩
  · exact ⟨hturn es s s' none hs (turned hlast), s, turned hlast⟩
  · have hs₁ : R (es ++ [e]) s₁ := hturn es s s₁ (some e) hs (turned hfirst)
    have hlt := (turned hfirst).size_lt
    rw [List.append_cons]
    exact dispatch_keeps hturn hs₁ hrest
termination_by s.size

/-! ## The calls -/

/-- `MarkQueueAsFinished`. -/
def markQueueAsFinished (s : OrderedMultiQueue T β) (key : QueueKey) :
    Except CheckFailure (OrderedMultiQueue T β × List (CollatorEvent T β)) :=
  if key ∉ s.keys then .error .noQueue
  else if (s.queue key).finished = true then .error .alreadyFinished
  else
    { s with queue := Function.update s.queue key { s.queue key with finished := true } }.dispatch

/-- A call. -/
def step (s : OrderedMultiQueue T β) :
    CollatorOp T β → Except CheckFailure (OrderedMultiQueue T β × List (CollatorEvent T β))
  | .addQueue key =>
    if key ∈ s.keys then .error .queueExists
    else
      .ok ({ s with
        keys := s.keys.orderedInsert (· ≤ ·) key
        queue := Function.update s.queue key { floor := s.lastDispatchedTime } }, [])
  | .markQueueAsFinished key => s.markQueueAsFinished key
  | .add key data =>
    if key ∈ s.keys then do
      let r ← { s with
        queue := Function.update s.queue key
          { s.queue key with data := (s.queue key).data ++ [data], floor := data.time } }.dispatch
      return (r.1, .added key data :: r.2)
    else .ok (s, [])
  | .flush => do
    let r ← tryRun markQueueAsFinished s (s.keys.filter fun key => !(s.queue key).finished)
    return (r.1, r.2.flatten)

theorem step_add {es : List (CollatorEvent T β)} (hkey : key ∈ s.keys)
    (h : { s with
      queue := Function.update s.queue key
        { s.queue key with data := (s.queue key).data ++ [data], floor := data.time } }.dispatch =
          .ok (s', es)) : s.step (.add key data) = .ok (s', .added key data :: es) := by
  rw [OrderedMultiQueue.step, if_pos hkey, h]
  rfl

/-! ## What came of the data -/

/-- The data put in a queue. -/
def added (key : QueueKey) (es : List (CollatorEvent T β)) : List (SensorData T β) :=
  es.filterMap fun
    | .added k data => if k = key then some data else none
    | _ => none

/-- The data taken out of a queue. -/
def taken (key : QueueKey) (es : List (CollatorEvent T β)) : List (SensorData T β) :=
  es.filterMap fun
    | .added _ _ => none
    | .dispatched k data | .dropped k data => if k = key then some data else none

/-- The times of the data that the callbacks got. -/
def dispatchTimes (es : List (CollatorEvent T β)) : List T :=
  es.filterMap fun
    | .dispatched _ data => some data.time
    | _ => none

/-- The data come in order, each queue gives what was put in it, and what was dropped of a queue
is followed by a datum that is not beyond the common start time. -/
structure Collated (es : List (CollatorEvent T β)) (s : OrderedMultiQueue T β) : Prop where
  sorted : (dispatchTimes es).Pairwise (· ≤ ·)
  le_last : ∀ t ∈ dispatchTimes es, t ≤ s.lastDispatchedTime
  kept : ∀ key, added key es = taken key es ++ (s.queue key).data
  dropped : ∀ pre key data post, es = pre ++ .dropped key data :: post →
    ∃ start after more, s.commonStartTime key.trajectoryId = some start ∧ data.time < start ∧
      taken key post ++ (s.queue key).data = after :: more ∧ after.time ≤ start

variable {es : List (CollatorEvent T β)} {e : Option (CollatorEvent T β)}

/-- What a queue loses at a turn is taken out. -/
theorem Turned.flow (h : s.Turned (s', e)) (k : QueueKey) :
    added k e.toList = [] ∧ taken k e.toList ++ (s'.queue k).data = (s.queue k).data := by
  cases h
  case blocked | done | hold => exact ⟨rfl, rfl⟩
  case dispatch key data rest times start herased holdest hstart =>
    refine ⟨rfl, ?_⟩
    by_cases hk : key = k
    · subst hk
      simp [taken, holdest.first]
    · simp [taken, hk, Function.update_of_ne (Ne.symm hk)]
  case drop key data after rest times start herased holdest hstart hlt hafter =>
    refine ⟨rfl, ?_⟩
    by_cases hk : key = k
    · subst hk
      simp [taken, holdest.first]
    · simp [taken, hk, Function.update_of_ne (Ne.symm hk)]

theorem Turned.stays (h : s.Turned (s', e)) {t : ℤ} {start : T}
    (ht : s.commonStartTime t = some start) : s'.commonStartTime t = some start := by
  cases h
  case blocked | done => exact ht
  case hold | dispatch | drop => exact (‹s.Started _ _ _›).stays t start ht

/-- A datum that is dispatched is not older than those before. -/
theorem Turned.last_le (h : s.Turned (s', e)) :
    s.lastDispatchedTime ≤ s'.lastDispatchedTime ∧
      ∀ t ∈ dispatchTimes e.toList, t = s'.lastDispatchedTime := by
  cases h
  case blocked | done | hold | drop => exact ⟨le_refl _, nofun⟩
  case dispatch key data rest start times herased holdest hstart =>
    refine ⟨holdest.sorted, fun t ht => ?_⟩
    rcases List.mem_singleton.mp ht with rfl
    rfl

theorem dispatchTimes_append (es es' : List (CollatorEvent T β)) :
    dispatchTimes (es ++ es') = dispatchTimes es ++ dispatchTimes es' :=
  List.filterMap_append ..

theorem added_append (key : QueueKey) (es es' : List (CollatorEvent T β)) :
    added key (es ++ es') = added key es ++ added key es' :=
  List.filterMap_append ..

theorem taken_append (key : QueueKey) (es es' : List (CollatorEvent T β)) :
    taken key (es ++ es') = taken key es ++ taken key es' :=
  List.filterMap_append ..

/-- What an old drop is followed by stays what it is. -/
theorem Collated.dropped_old (hs : s.Collated es) (h : s.Turned (s', e)) {key : QueueKey}
    {data : SensorData T β} {pre post : List (CollatorEvent T β)}
    (heq : es = pre ++ .dropped key data :: post) :
    ∃ start after more, s'.commonStartTime key.trajectoryId = some start ∧ data.time < start ∧
      taken key (post ++ e.toList) ++ (s'.queue key).data = after :: more ∧ after.time ≤ start := by
  obtain ⟨start, after, more, hstart, hlt, hflow, hafter⟩ := hs.dropped pre key data post heq
  refine ⟨start, after, more, h.stays hstart, hlt, ?_, hafter⟩
  rw [taken_append, List.append_assoc, (h.flow key).2]
  exact hflow

theorem Collated.turned (hs : s.Collated es) (h : s.Turned (s', e)) :
    s'.Collated (es ++ e.toList) := by
  obtain ⟨hle, htimes⟩ := h.last_le
  refine ⟨?_, fun t ht => ?_, fun key => ?_, fun pre key data post heq => ?_⟩
  · rw [dispatchTimes_append, List.pairwise_append]
    refine ⟨hs.sorted, ?_, fun t ht t' ht' => ?_⟩
    · refine List.pairwise_of_forall_mem_list fun t ht t' ht' => ?_
      rw [htimes t ht, htimes t' ht']
    · rw [htimes t' ht']
      exact (hs.le_last t ht).trans hle
  · rw [dispatchTimes_append, List.mem_append] at ht
    rcases ht with ht | ht
    · exact (hs.le_last t ht).trans hle
    · exact le_of_eq (htimes t ht)
  · obtain ⟨hadded, htaken⟩ := h.flow key
    rw [added_append, taken_append, hadded, List.append_nil, List.append_assoc, htaken]
    exact hs.kept key
  · cases e with
    | none =>
      rw [Option.toList_none, List.append_nil] at heq
      obtain hdropped := hs.dropped_old h heq
      rwa [Option.toList_none, List.append_nil] at hdropped
    | some e =>
      rw [Option.toList_some] at heq
      rcases post.eq_nil_or_concat with rfl | ⟨post', e', rfl⟩
      · obtain ⟨-, rfl⟩ := List.append_singleton_inj.mp heq
        cases h with
        | @drop keys _ _ after rest times start herased holdest hstart hlt hafter =>
          refine ⟨start, after, rest, hstart.eq, hlt, ?_, hafter⟩
          exact congrArg SensorQueue.data (Function.update_self key _ s.queue)
      · rw [List.concat_eq_append, ← List.cons_append, ← List.append_assoc] at heq
        obtain ⟨hes, rfl⟩ := List.append_singleton_inj.mp heq
        rw [List.concat_eq_append]
        exact hs.dropped_old h hes

/-! ## Every call -/

/-- A queue that needs more data before anything can be dispatched. -/
def NeedsData (s : OrderedMultiQueue T β) (key : QueueKey) : Prop :=
  key ∈ s.keys ∧ (s.queue key).finished = false ∧
    ((s.queue key).data = [] ∨ ∃ data start, (s.queue key).data = [data] ∧
      s.commonStartTime key.trajectoryId = some start ∧ data.time < start)

/-- What every turn keeps. -/
structure Sound (es : List (CollatorEvent T β)) (s : OrderedMultiQueue T β) : Prop where
  collated : s.Collated es
  nodup : s.keys.Nodup
  absent : ∀ key, key ∉ s.keys → (s.queue key).data = []

theorem Erased.absent (h : s.Erased s.keys keys)
    (habsent : ∀ k, k ∉ s.keys → (s.queue k).data = []) {k : QueueKey} (hk : k ∉ keys) :
    (s.queue k).data = [] := by
  by_cases hmem : k ∈ s.keys
  · exact (h.gone k hmem hk).2
  · exact habsent k hmem

theorem Sound.turned (hs : s.Sound es) (h : s.Turned (s', e)) : s'.Sound (es ++ e.toList) := by
  refine ⟨hs.collated.turned h, ?_, fun k hk => ?_⟩
  · cases h
    case done => exact List.nodup_nil
    case blocked | hold | dispatch | drop =>
      exact (‹s.Erased s.keys _›).sublist.nodup hs.nodup
  · cases h
    case done herased => exact herased.absent hs.absent hk
    case blocked herased _ _ _ => exact herased.absent hs.absent hk
    case hold herased _ _ _ _ => exact herased.absent hs.absent hk
    case dispatch key data rest times start herased holdest hstart =>
      have hne : k ≠ key := fun hkey => hk (hkey ▸ holdest.mem)
      exact (congrArg _ (Function.update_of_ne hne ..)).trans (herased.absent hs.absent hk)
    case drop key data after rest times start herased holdest hstart hlt hafter =>
      have hne : k ≠ key := fun hkey => hk (hkey ▸ holdest.mem)
      exact (congrArg _ (Function.update_of_ne hne ..)).trans (herased.absent hs.absent hk)

/-- The loop ends where a queue needs data, or nothing is left. -/
theorem Turned.returns (h : s.Turned (s', none)) : s'.keys = [] ∨ s'.NeedsData s'.blocker := by
  cases h with
  | blocked herased hkey hopen hempty => exact .inr ⟨hkey, hopen, .inl hempty⟩
  | done herased => exact .inl rfl
  | hold herased holdest hstart hopen hlt =>
    exact .inr ⟨holdest.mem, hopen, .inr ⟨_, _, holdest.first, hstart.eq, hlt⟩⟩

/-- Nothing that could be dispatched is held back. -/
def Quiet (s : OrderedMultiQueue T β) : Prop :=
  s.keys = [] ∨ ∃ key, s.NeedsData key

theorem Sound.dispatch {es' : List (CollatorEvent T β)} (hs : s.Sound es)
    (h : s.dispatch = .ok (s', es')) : s'.Sound (es ++ es') ∧ s'.Quiet := by
  obtain ⟨hsound, s₀, hlast⟩ := dispatch_keeps (fun _ _ _ _ hs h => Sound.turned hs h) hs h
  exact ⟨hsound, hlast.returns.imp_right fun hblocker => ⟨_, hblocker⟩⟩

/-- The queues can be changed as long as their data are not. -/
theorem Collated.congr (hs : s.Collated es) (hlast : s'.lastDispatchedTime = s.lastDispatchedTime)
    (hstart : s'.commonStartTime = s.commonStartTime)
    (hdata : ∀ key, (s'.queue key).data = (s.queue key).data) : s'.Collated es := by
  refine ⟨hs.sorted, ?_, fun key => ?_, fun pre key data post heq => ?_⟩
  · rw [hlast]
    exact hs.le_last
  · rw [hdata]
    exact hs.kept key
  · rw [hstart, hdata]
    exact hs.dropped pre key data post heq

theorem data_update {f : SensorQueue T β → SensorQueue T β} (hf : ∀ q, (f q).data = q.data)
    (key k : QueueKey) :
    (Function.update s.queue key (f (s.queue key)) k).data = (s.queue k).data := by
  by_cases hk : k = key
  · rw [hk, Function.update_self, hf]
  · rw [Function.update_of_ne hk]

theorem Sound.mark {o : List (CollatorEvent T β)} (hs : s.Sound es)
    (h : s.markQueueAsFinished key = .ok (s', o)) : s'.Sound (es ++ o) ∧ s'.Quiet := by
  rw [markQueueAsFinished] at h
  split at h
  · exact absurd h nofun
  split at h
  · exact absurd h nofun
  have hdata := data_update (s := s) (f := fun q => { q with finished := true }) (fun _ => rfl) key
  have hsound : Sound es { s with
      queue := Function.update s.queue key { s.queue key with finished := true } } :=
    ⟨hs.collated.congr rfl rfl hdata, hs.nodup, fun k hk => (hdata k).trans (hs.absent k hk)⟩
  exact hsound.dispatch h

theorem Sound.addQueue (hs : s.Sound es) (hkey : key ∉ s.keys) :
    Sound es { s with
      keys := s.keys.orderedInsert (· ≤ ·) key
      queue := Function.update s.queue key { floor := s.lastDispatchedTime } } := by
  have hdata : ∀ k, (Function.update s.queue key { floor := s.lastDispatchedTime } k).data =
      (s.queue k).data := by
    intro k
    by_cases hk : k = key
    · rw [hk, Function.update_self, hs.absent key hkey]
    · rw [Function.update_of_ne hk]
  refine ⟨hs.collated.congr rfl rfl hdata, ?_, fun k hk => ?_⟩
  · exact (List.perm_orderedInsert (· ≤ ·) key s.keys).nodup_iff.mpr
      (List.nodup_cons.mpr ⟨hkey, hs.nodup⟩)
  · rw [List.mem_orderedInsert, not_or] at hk
    exact (hdata k).trans (hs.absent k hk.2)

/-- Putting a datum in a queue. -/
theorem Sound.push (hs : s.Sound es) (hkey : key ∈ s.keys) (data : SensorData T β) :
    Sound (es ++ [.added key data]) { s with
      queue := Function.update s.queue key
        { s.queue key with data := (s.queue key).data ++ [data], floor := data.time } } := by
  have hdata : ∀ k, (Function.update s.queue key
      { s.queue key with data := (s.queue key).data ++ [data], floor := data.time } k).data =
      (s.queue k).data ++ added k [.added key data] := by
    intro k
    by_cases hk : k = key
    · subst hk
      simp [added]
    · simp [added, hk, Ne.symm hk]
  obtain ⟨⟨hsorted, hlast, hkept, hdropped⟩, hnodup, habsent⟩ := hs
  have htimes : dispatchTimes (es ++ [.added key data]) = dispatchTimes es := by
    rw [dispatchTimes_append]
    exact List.append_nil _
  refine ⟨⟨?_, ?_, fun k => ?_, fun pre k d post heq => ?_⟩, hnodup, fun k hk => ?_⟩
  · rw [htimes]
    exact hsorted
  · rw [htimes]
    exact hlast
  · have htaken : taken k [CollatorEvent.added key data] = [] := rfl
    rw [added_append, taken_append, htaken, List.append_nil, hkept k, List.append_assoc]
    exact congrArg _ (hdata k).symm
  · rcases post.eq_nil_or_concat with rfl | ⟨post', e', rfl⟩
    · exact absurd (List.append_singleton_inj.mp heq).2 nofun
    · rw [List.concat_eq_append, ← List.cons_append, ← List.append_assoc] at heq
      obtain ⟨hes, rfl⟩ := List.append_singleton_inj.mp heq
      obtain ⟨start, after, more, hstart, hlt, hflow, hafter⟩ := hdropped pre k d post' hes
      refine ⟨start, after, more ++ added k [.added key data], hstart, hlt, ?_, hafter⟩
      have htaken : taken k [CollatorEvent.added key data] = [] := rfl
      rw [List.concat_eq_append, taken_append, htaken, List.append_nil, ← List.cons_append, ← hflow,
        List.append_assoc]
      exact congrArg _ (hdata k)
  · have hne : k ≠ key := fun hkk => hk (hkk ▸ hkey)
    exact (congrArg _ (Function.update_of_ne hne ..)).trans (habsent k hk)

/-- What every call keeps. -/
theorem Sound.step {op : CollatorOp T β} {o : List (CollatorEvent T β)} (hs : s.Sound es)
    (hquiet : s.Quiet) (h : s.step op = .ok (s', o)) : s'.Sound (es ++ o) ∧ s'.Quiet := by
  cases op with
  | addQueue key =>
    rw [OrderedMultiQueue.step] at h
    split at h
    · exact absurd h nofun
    case isFalse hkey =>
      obtain ⟨rfl, rfl⟩ := Prod.mk.inj (Except.ok.inj h)
      rw [List.append_nil]
      have hself := Function.update_self key { floor := s.lastDispatchedTime } s.queue
      refine ⟨hs.addQueue hkey, .inr ⟨key, (List.mem_orderedInsert (· ≤ ·)).mpr (.inl rfl), ?_⟩⟩
      exact ⟨congrArg SensorQueue.finished hself, .inl (congrArg SensorQueue.data hself)⟩
  | markQueueAsFinished key => exact hs.mark h
  | add key data =>
    rw [OrderedMultiQueue.step] at h
    split at h
    case isTrue hkey =>
      obtain ⟨⟨s₁, es₁⟩, hdispatch, hret⟩ := bind_eq_ok.mp h
      obtain ⟨rfl, rfl⟩ := Prod.mk.inj (Except.ok.inj hret)
      rw [List.append_cons]
      exact (hs.push hkey data).dispatch hdispatch
    case isFalse =>
      obtain ⟨rfl, rfl⟩ := Prod.mk.inj (Except.ok.inj h)
      rw [List.append_nil]
      exact ⟨hs, hquiet⟩
  | flush =>
    obtain ⟨⟨s₁, os⟩, hmarks, hret⟩ := bind_eq_ok.mp h
    obtain ⟨rfl, rfl⟩ := Prod.mk.inj (Except.ok.inj hret)
    refine tryRun_history (fun os s => Sound (es ++ os.flatten) s ∧ s.Quiet)
      (fun os s k s' o ih hmark => ?_) (by simpa using ⟨hs, hquiet⟩) hmarks
    rw [List.flatten_append, List.flatten_singleton, ← List.append_assoc]
    exact ih.1.mark hmark

theorem sound_run {ops : List (CollatorOp T β)} {os : List (List (CollatorEvent T β))}
    (h : tryRun OrderedMultiQueue.step {} ops = .ok (s, os)) : Sound os.flatten s ∧ s.Quiet := by
  refine tryRun_history (fun os s => Sound os.flatten s ∧ s.Quiet)
    (fun os s op s' o ih hstep => ?_) ⟨⟨?_, List.nodup_nil, fun _ _ => rfl⟩, .inl rfl⟩ h
  · rw [List.flatten_append, List.flatten_singleton]
    exact ih.1.step ih.2 hstep
  · exact ⟨List.Pairwise.nil, nofun, fun _ => rfl, by simp⟩

/-- In every run that no `CHECK` ends, the data are dispatched in the order of time, each queue
gives the data that were put in it in their order, and what is held back waits for a queue that
needs more data. A datum is dropped only if it is before the common start time of its
trajectory and the next one of its queue is not beyond it. -/
theorem dispatched_in_order (ops : List (CollatorOp T β)) {os : List (List (CollatorEvent T β))}
    (h : tryRun OrderedMultiQueue.step {} ops = .ok (s, os)) :
    (dispatchTimes os.flatten).Pairwise (· ≤ ·) ∧
      (∀ key, added key os.flatten = taken key os.flatten ++ (s.queue key).data) ∧
      (∀ pre key data post, os.flatten = pre ++ .dropped key data :: post →
        ∃ start after more, s.commonStartTime key.trajectoryId = some start ∧ data.time < start ∧
          taken key post ++ (s.queue key).data = after :: more ∧ after.time ≤ start) ∧
      (s.keys = [] ∨ ∃ key, s.NeedsData key) := by
  obtain ⟨⟨hcollated, -, -⟩, hquiet⟩ := sound_run h
  exact ⟨hcollated.sorted, hcollated.kept, hcollated.dropped, hquiet⟩

/-! ## Sorted data -/

/-- The data in the queues are sorted, and not older than what was dispatched. -/
structure Fed (s : OrderedMultiQueue T β) : Prop where
  sorted : ∀ key, (s.queue key).data.Pairwise fun a b => a.time ≤ b.time
  last_le : ∀ key ∈ s.keys, ∀ d ∈ (s.queue key).data, s.lastDispatchedTime ≤ d.time
  le_floor : ∀ key, ∀ d ∈ (s.queue key).data, d.time ≤ (s.queue key).floor
  floor : ∀ key ∈ s.keys, s.lastDispatchedTime ≤ (s.queue key).floor

/-- Putting another queue in the map. -/
theorem Fed.update (hs : s.Fed) {q : SensorQueue T β}
    (hsorted : q.data.Pairwise fun a b => a.time ≤ b.time) (hle : ∀ d ∈ q.data, d.time ≤ q.floor)
    (hlast : ∀ d ∈ q.data, s.lastDispatchedTime ≤ d.time) (hfloor : s.lastDispatchedTime ≤ q.floor)
    (hks : ∀ k ∈ ks, k ≠ key → k ∈ s.keys) :
    Fed { s with keys := ks, queue := Function.update s.queue key q } := by
  refine ⟨fun k => ?_, fun k hk => ?_, fun k => ?_, fun k hk => ?_⟩ <;>
    by_cases hne : k = key
  · simpa only [hne, Function.update_self] using hsorted
  · simpa only [Function.update_of_ne hne] using hs.sorted k
  · simpa only [hne, Function.update_self] using hlast
  · simpa only [Function.update_of_ne hne] using hs.last_le k (hks k hk hne)
  · simpa only [hne, Function.update_self] using hle
  · simpa only [Function.update_of_ne hne] using hs.le_floor k
  · simpa only [hne, Function.update_self] using hfloor
  · simpa only [Function.update_of_ne hne] using hs.floor k (hks k hk hne)

/-- A queue that can still get data. -/
def Open (s : OrderedMultiQueue T β) (key : QueueKey) : Prop :=
  key ∈ s.keys ∧ (s.queue key).finished = false

theorem exists_scan (h : ∀ key ∈ s.keys, ∀ d ∈ (s.queue key).data, s.lastDispatchedTime ≤ d.time) :
    ∀ (ks : List QueueKey) (next : Option (QueueKey × SensorData T β)), (∀ k ∈ ks, k ∈ s.keys) →
      (∀ n, next = some n → s.lastDispatchedTime ≤ n.2.time) → ∃ r, s.scan ks next = .ok r
  | [], next, _, _ => ⟨_, rfl⟩
  | key :: ks, next, hks, hnext => by
    have hkey := hks key List.mem_cons_self
    have hks' : ∀ k ∈ ks, k ∈ s.keys := fun k hk => hks k (List.mem_cons_of_mem _ hk)
    rw [scan]
    split
    case h_1 =>
      split
      · exact exists_scan h ks next hks' hnext
      · exact ⟨_, rfl⟩
    case h_2 data rest hdata =>
      have hlast : s.lastDispatchedTime ≤ (older key data next).2.time := by
        rcases older_eq key data next with heq | heq
        · rw [heq]
          exact h key hkey data (hdata ▸ List.mem_cons_self)
        · exact hnext _ heq.symm
      rw [if_pos hlast]
      obtain ⟨r, hr⟩ := exists_scan h ks (some (older key data next)) hks' fun n hn =>
        Option.some.inj hn ▸ hlast
      exact ⟨_, by rw [hr]; rfl⟩

/-- No `CHECK` fails at a turn. -/
theorem Fed.exists_turn (h : s.Fed) : ∃ r, s.turn = .ok r := by
  obtain ⟨r, hscan⟩ := exists_scan h.last_le s.keys none (fun _ hk => hk) nofun
  rw [turn, hscan, ok_bind]
  rcases scanned_keys hscan with ⟨keys, key, rfl, -⟩ | ⟨rfl, -⟩ | ⟨keys, key, data, rest, rfl, -, -⟩
  · exact ⟨_, rfl⟩
  · exact ⟨_, rfl⟩
  · simp only
    split
    · split <;> exact ⟨_, rfl⟩
    · split <;> exact ⟨_, rfl⟩

/-- A turn leaves each queue as it is, but for data it takes out. -/
structure Popped (s s' : OrderedMultiQueue T β) (key : QueueKey) : Prop where
  data : (s'.queue key).data.Sublist (s.queue key).data
  finished : (s'.queue key).finished = (s.queue key).finished
  floor : (s'.queue key).floor = (s.queue key).floor

theorem popped_update (hfirst : (s.queue key).data = data :: rest)
    (hqueue : s'.queue = Function.update s.queue key { s.queue key with data := rest })
    (k : QueueKey) : s.Popped s' k := by
  by_cases hk : k = key
  · subst hk
    have hself : s'.queue k = { s.queue k with data := rest } := by
      rw [hqueue, Function.update_self]
    refine ⟨?_, by rw [hself], by rw [hself]⟩
    rw [hself, hfirst]
    exact List.sublist_cons_self data rest
  · have hself : s'.queue k = s.queue k := by rw [hqueue, Function.update_of_ne hk]
    exact ⟨hself ▸ List.Sublist.refl _, by rw [hself], by rw [hself]⟩

theorem Turned.popped (h : s.Turned (s', e)) (k : QueueKey) : s.Popped s' k := by
  cases h
  case blocked | done | hold => exact ⟨List.Sublist.refl _, rfl, rfl⟩
  case dispatch herased holdest hstart => exact popped_update holdest.first rfl k
  case drop herased holdest hstart hlt hafter => exact popped_update holdest.first rfl k

/-- The queues that can still get data stay so. -/
theorem Turned.open_iff (h : s.Turned (s', e)) (k : QueueKey) : s'.Open k ↔ s.Open k := by
  obtain ⟨keys, herased, hkeys⟩ : ∃ keys, s.Erased s.keys keys ∧ s'.keys = keys := by
    cases h
    case blocked herased _ _ _ => exact ⟨_, herased, rfl⟩
    case done herased => exact ⟨_, herased, rfl⟩
    case hold herased _ _ _ _ => exact ⟨_, herased, rfl⟩
    case dispatch herased _ _ => exact ⟨_, herased, rfl⟩
    case drop herased _ _ _ _ => exact ⟨_, herased, rfl⟩
  rw [Open, Open, (h.popped k).finished, hkeys]
  refine ⟨fun hk => ⟨herased.sublist.subset hk.1, hk.2⟩, fun hk => ⟨?_, hk.2⟩⟩
  by_contra hout
  exact absurd (hk.2.symm.trans (herased.gone k hk.1 hout).1) nofun

/-- When the oldest datum is taken out, no other is older. -/
theorem Oldest.le_all (h : s.Oldest keys key data rest)
    (hsorted : ∀ k, (s.queue k).data.Pairwise fun a b => a.time ≤ b.time) {k : QueueKey}
    (hk : k ∈ keys) : ∀ d ∈ (s.queue k).data, data.time ≤ d.time := by
  intro d hd
  obtain ⟨d₀, r, heq, hle⟩ := h.le k hk
  have hpairwise := hsorted k
  rw [heq] at hd hpairwise
  rcases List.mem_cons.mp hd with rfl | hd
  · exact hle
  · exact hle.trans (List.rel_of_pairwise_cons hpairwise hd)

theorem Fed.turned (hs : s.Fed) (h : s.Turned (s', e)) : s'.Fed := by
  obtain ⟨hsorted, hlast, hlefloor, hfloor⟩ := hs
  have hpopped := h.popped
  refine ⟨fun k => (hsorted k).sublist (hpopped k).data, fun k hk d hd => ?_, fun k d hd => ?_,
    fun k hk => ?_⟩
  · have hd' := (hpopped k).data.subset hd
    cases h
    case blocked herased _ _ _ => exact hlast k (herased.sublist.subset hk) d hd
    case done herased => exact absurd hk List.not_mem_nil
    case hold herased _ _ _ _ => exact hlast k (herased.sublist.subset hk) d hd
    case dispatch herased holdest hstart => exact holdest.le_all hsorted hk d hd'
    case drop herased holdest hstart hlt hafter =>
      exact hlast k (herased.sublist.subset hk) d hd'
  · rw [(hpopped k).floor]
    exact hlefloor k d ((hpopped k).data.subset hd)
  · rw [(hpopped k).floor]
    cases h
    case blocked herased _ _ _ => exact hfloor k (herased.sublist.subset hk)
    case done herased => exact absurd hk List.not_mem_nil
    case hold herased _ _ _ _ => exact hfloor k (herased.sublist.subset hk)
    case dispatch herased holdest hstart =>
      obtain ⟨d, r, heq, hle⟩ := holdest.le k hk
      exact hle.trans (hlefloor k d (heq ▸ List.mem_cons_self))
    case drop herased holdest hstart hlt hafter => exact hfloor k (herased.sublist.subset hk)

/-- `Dispatch` goes through. -/
theorem Fed.exists_dispatch {s : OrderedMultiQueue T β} (hs : s.Fed) :
    ∃ s' es, s.dispatch = .ok (s', es) ∧ s'.Fed ∧ ∀ k, s'.Open k ↔ s.Open k := by
  obtain ⟨⟨s₁, e⟩, hturn⟩ := hs.exists_turn
  have hs₁ := hs.turned (OrderedMultiQueue.turned hturn)
  have hopen := (OrderedMultiQueue.turned hturn).open_iff
  cases e with
  | none => exact ⟨s₁, [], dispatch_of_none hturn, hs₁, hopen⟩
  | some e =>
    have hlt := (OrderedMultiQueue.turned hturn).size_lt
    obtain ⟨s₂, es, hdispatch, hs₂, hopen₂⟩ := hs₁.exists_dispatch
    refine ⟨s₂, e :: es, ?_, hs₂, fun k => (hopen₂ k).trans (hopen k)⟩
    rw [dispatch_of_some hturn, hdispatch]
    rfl
termination_by s.size

/-- `MarkQueueAsFinished` goes through. -/
theorem Fed.exists_mark (hs : s.Fed) (hkey : s.Open key) :
    ∃ s' es, s.markQueueAsFinished key = .ok (s', es) ∧ s'.Fed ∧
      ∀ k, s'.Open k ↔ s.Open k ∧ k ≠ key := by
  have hmarked : Fed { s with
      queue := Function.update s.queue key { s.queue key with finished := true } } :=
    hs.update (hs.sorted key) (hs.le_floor key) (hs.last_le key hkey.1) (hs.floor key hkey.1)
      fun _ hk _ => hk
  obtain ⟨s', es, hdispatch, hs', hopen⟩ := hmarked.exists_dispatch
  refine ⟨s', es, ?_, hs', fun k => (hopen k).trans ?_⟩
  · rw [markQueueAsFinished, if_neg (not_not.mpr hkey.1), if_neg (by rw [hkey.2]; nofun)]
    exact hdispatch
  · rw [Open, Open]
    by_cases hk : k = key
    · simp [hk]
    · simp [hk]

theorem exists_marks : ∀ (ks : List QueueKey) {s : OrderedMultiQueue T β}, s.Fed → ks.Nodup →
    (∀ k ∈ ks, s.Open k) → ∃ s' os, tryRun markQueueAsFinished s ks = .ok (s', os) ∧ s'.Fed ∧
      ∀ k, s'.Open k ↔ s.Open k ∧ k ∉ ks
  | [], s, hs, _, _ => ⟨s, [], rfl, hs, by simp⟩
  | key :: ks, s, hs, hnodup, hks => by
    obtain ⟨hkey, hnodup⟩ := List.nodup_cons.mp hnodup
    obtain ⟨s₁, o, hmark, hs₁, hopen₁⟩ := hs.exists_mark (hks key List.mem_cons_self)
    have hks₁ : ∀ k ∈ ks, s₁.Open k := fun k hk =>
      (hopen₁ k).mpr ⟨hks k (List.mem_cons_of_mem _ hk), fun hkk => hkey (hkk ▸ hk)⟩
    obtain ⟨s₂, os, hmarks, hs₂, hopen₂⟩ := exists_marks ks hs₁ hnodup hks₁
    refine ⟨s₂, o :: os, ?_, hs₂, fun k => ?_⟩
    · rw [tryRun_cons_of_ok hmark, hmarks]
      rfl
    · rw [hopen₂, hopen₁, List.mem_cons, not_or, and_assoc]

/-- What the callers promise : a queue is added once and marked once, and its data are added in
order, from what was dispatched on. -/
def Promised (s : OrderedMultiQueue T β) : CollatorOp T β → Prop
  | .addQueue key => key ∉ s.keys
  | .markQueueAsFinished key => s.Open key
  | .add key data => key ∈ s.keys → (s.queue key).floor ≤ data.time
  | .flush => True

instance (s : OrderedMultiQueue T β) : ∀ op : CollatorOp T β, Decidable (s.Promised op)
  | .addQueue key => inferInstanceAs (Decidable (key ∉ s.keys))
  | .markQueueAsFinished key =>
    inferInstanceAs (Decidable (key ∈ s.keys ∧ (s.queue key).finished = false))
  | .add key data => inferInstanceAs (Decidable (key ∈ s.keys → (s.queue key).floor ≤ data.time))
  | .flush => isTrue trivial

/-- `Flush` goes through, and leaves no queue that can get data. -/
theorem Fed.exists_flush (hs : s.Fed) (hnodup : s.keys.Nodup) :
    ∃ s' es, s.step .flush = .ok (s', es) ∧ s'.Fed ∧ ∀ k, ¬s'.Open k := by
  obtain ⟨s', os, hmarks, hs', hopen⟩ := exists_marks
    (s.keys.filter fun key => !(s.queue key).finished) hs (hnodup.filter _) (by simp [Open])
  refine ⟨s', os.flatten, by rw [OrderedMultiQueue.step, hmarks]; rfl, hs', fun k hk => ?_⟩
  obtain ⟨⟨hkey, hunfinished⟩, hout⟩ := (hopen k).mp hk
  exact hout (List.mem_filter.mpr ⟨hkey, by rw [hunfinished]; rfl⟩)

theorem Fed.exists_step (hs : s.Fed) (hnodup : s.keys.Nodup) (op : CollatorOp T β)
    (hop : s.Promised op) : ∃ s' o, s.step op = .ok (s', o) ∧ s'.Fed := by
  cases op with
  | addQueue key =>
    refine ⟨_, _, if_neg hop, hs.update List.Pairwise.nil nofun nofun (le_refl _)
      fun k hk hne => ?_⟩
    exact ((List.mem_orderedInsert (· ≤ ·)).mp hk).resolve_left hne
  | markQueueAsFinished key =>
    obtain ⟨s', es, hmark, hs', -⟩ := hs.exists_mark hop
    exact ⟨s', es, hmark, hs'⟩
  | add key data =>
    by_cases hkey : key ∈ s.keys
    · have hlast := (hs.floor key hkey).trans (hop hkey)
      have hfed : Fed { s with
          queue := Function.update s.queue key
            { s.queue key with data := (s.queue key).data ++ [data], floor := data.time } } := by
        refine hs.update (List.pairwise_append.mpr ⟨hs.sorted key, List.pairwise_singleton .., ?_⟩)
          (fun d hd => ?_) (fun d hd => ?_) hlast fun k hk _ => hk
        · intro d hd d' hd'
          rw [List.mem_singleton.mp hd']
          exact (hs.le_floor key d hd).trans (hop hkey)
        · rcases List.mem_append.mp hd with hd | hd
          · exact (hs.le_floor key d hd).trans (hop hkey)
          · exact le_of_eq (List.mem_singleton.mp hd ▸ rfl)
        · rcases List.mem_append.mp hd with hd | hd
          · exact hs.last_le key hkey d hd
          · exact List.mem_singleton.mp hd ▸ hlast
      obtain ⟨s', es, hdispatch, hs', -⟩ := hfed.exists_dispatch
      exact ⟨s', .added key data :: es, step_add hkey hdispatch, hs'⟩
    · exact ⟨s, [], if_neg hkey, hs⟩
  | flush =>
    obtain ⟨s', es, hflush, hs', -⟩ := hs.exists_flush hnodup
    exact ⟨s', es, hflush, hs'⟩

theorem exists_run (ops : List (CollatorOp T β))
    (h : Along OrderedMultiQueue.step Promised ({} : OrderedMultiQueue T β) ops) :
    ∃ s os, tryRun OrderedMultiQueue.step {} ops = .ok (s, os) ∧ s.Fed := by
  have hempty : Fed ({} : OrderedMultiQueue T β) :=
    ⟨fun _ => List.Pairwise.nil, nofun, nofun, nofun⟩
  obtain ⟨s, os, hrun, hfed, -⟩ := exists_tryRun (fun s => s.Fed ∧ ∃ es, Sound es s ∧ s.Quiet)
    (fun s op hs hop => by
      obtain ⟨hfed, es, hsound, hquiet⟩ := hs
      obtain ⟨s', o, hstep, hfed'⟩ := hfed.exists_step hsound.nodup op hop
      exact ⟨s', o, hstep, hfed', es ++ o, hsound.step hquiet hstep⟩)
    ops h ⟨hempty, [], sound_run (show tryRun _ _ [] = _ from rfl)⟩
  exact ⟨s, os, hrun, hfed⟩

/-- In every run in which the callers keep what they promise, no `CHECK` fails. `Flush` then goes
through as well, and leaves no queue and no datum behind. -/
theorem checks_hold (ops : List (CollatorOp T β))
    (h : Along OrderedMultiQueue.step Promised ({} : OrderedMultiQueue T β) ops) :
    ∃ s os, tryRun OrderedMultiQueue.step {} ops = .ok (s, os) ∧
      ∃ s' es, s.step .flush = .ok (s', es) ∧ s'.keys = [] ∧
        ∀ key, added key (os.flatten ++ es) = taken key (os.flatten ++ es) := by
  obtain ⟨s, os, hrun, hfed⟩ := exists_run ops h
  obtain ⟨hsound, hquiet⟩ := sound_run hrun
  obtain ⟨s', es, hflush, -, hopen⟩ := hfed.exists_flush hsound.nodup
  obtain ⟨hsound', hquiet'⟩ := hsound.step hquiet hflush
  have hkeys : s'.keys = [] :=
    hquiet'.resolve_right fun ⟨key, hkey, hunfinished, _⟩ => hopen key ⟨hkey, hunfinished⟩
  refine ⟨s, os, hrun, s', es, hflush, hkeys, fun key => ?_⟩
  have hdata : (s'.queue key).data = [] :=
    hsound'.absent key (by rw [hkeys]; exact List.not_mem_nil)
  rw [hsound'.collated.kept key, hdata, List.append_nil]

/-! ## Two sensors -/

/-- A sensor that gives a datum at 1, 2 and 11. -/
def imu : QueueKey := toLex (0, "imu")

/-- One that gives its first at 10, which is then the common start time. -/
def laser : QueueKey := toLex (0, "laser")

def twoSensors : List (CollatorOp ℕ ℕ) :=
  [.addQueue imu, .addQueue laser, .add imu ⟨1, 0⟩, .add imu ⟨2, 0⟩, .add laser ⟨10, 0⟩,
    .add imu ⟨11, 0⟩]

/-- The datum at 1 is dropped, and the one at 11 is held back. -/
theorem run_twoSensors : ∃ s, (tryRun OrderedMultiQueue.step {} twoSensors = .ok (s,
      [[], [], [.added imu ⟨1, 0⟩], [.added imu ⟨2, 0⟩],
        [.added laser ⟨10, 0⟩, .dropped imu ⟨1, 0⟩],
        [.added imu ⟨11, 0⟩, .dispatched imu ⟨2, 0⟩, .dispatched laser ⟨10, 0⟩]]) ∧
    Along OrderedMultiQueue.step Promised {} twoSensors) ∧ s.keys = [imu, laser] := by
  exact ⟨_, tryRun_along_cons (by decide) rfl <| tryRun_along_cons (by decide) rfl <|
    tryRun_along_cons (by decide) (step_add (by decide) (dispatch_of_none rfl)) <|
    tryRun_along_cons (by decide) (step_add (by decide) (dispatch_of_none rfl)) <|
    tryRun_along_cons (by decide)
      (step_add (by decide) (dispatch_eq_cons rfl (dispatch_of_none rfl))) <|
    tryRun_along_cons (by decide)
      (step_add (by decide) (dispatch_eq_cons rfl (dispatch_eq_cons rfl (dispatch_of_none rfl))))
      ⟨rfl, trivial⟩, rfl⟩

/-- What is said of the run of the two sensors. -/
theorem dispatched_in_order_twoSensors : ∃ s os,
    tryRun OrderedMultiQueue.step {} twoSensors = .ok (s, os) ∧
      (dispatchTimes os.flatten = [2, 10] ∧ (dispatchTimes os.flatten).Pairwise (· ≤ ·)) ∧
      (s.queue imu).data = [⟨11, 0⟩] ∧ (∃ start, s.commonStartTime 0 = some start ∧ 2 ≤ start) ∧
      ∃ key, s.NeedsData key := by
  obtain ⟨s, ⟨hrun, -⟩, hkeys⟩ := run_twoSensors
  obtain ⟨hsorted, hkept, hdropped, hquiet⟩ := dispatched_in_order twoSensors hrun
  obtain ⟨start, after, more, hstart, -, hafter, hle⟩ := hdropped
    [.added imu ⟨1, 0⟩, .added imu ⟨2, 0⟩, .added laser ⟨10, 0⟩] imu ⟨1, 0⟩ _ rfl
  have hdata : [⟨1, 0⟩, ⟨2, 0⟩] ++ [⟨11, 0⟩] = [⟨1, 0⟩, ⟨2, 0⟩] ++ (s.queue imu).data := hkept imu
  obtain ⟨rfl, -⟩ := List.cons.inj hafter
  have hheld := List.append_cancel_left hdata
  refine ⟨s, _, hrun, ⟨rfl, hsorted⟩, hheld.symm, ⟨start, hstart, hle⟩, ?_⟩
  refine hquiet.resolve_left fun hnone => ?_
  rw [hkeys] at hnone
  cases hnone

theorem checks_hold_twoSensors :
    ∃ s os, tryRun OrderedMultiQueue.step {} twoSensors = .ok (s, os) ∧
      ∃ s' es, s.step .flush = .ok (s', es) ∧ s'.keys = [] ∧
        ∀ key, added key (os.flatten ++ es) = taken key (os.flatten ++ es) := by
  obtain ⟨-, ⟨-, hkept⟩, -⟩ := run_twoSensors
  exact checks_hold twoSensors hkept

end OrderedMultiQueue

end Mastiff.Cartographer

import Mathlib.Algebra.Order.Ring.Rat
import Mathlib.Tactic.Linarith
import Mastiff.Lib.Machine

/-!
# The database client

`DbaseClient` (`cambrian/storage/dbase_client.cc`) keeps `VolatileInformation` in memory
and in a database row. Two things depend on the order in which it is loaded, changed and
saved.

The total power-on time is recomputed at every save from the total found when the process
started. `accounted_iff` : it is the sum over the boots exactly when no process saves that
was started after an uptime of its boot had been recorded.

The database loop saves when a flag says so, and clears the flag. `nothingLost_iff` : no
notified change is lost exactly when no notification arrives between the save and the
clearing after a change the save has missed.
-/

set_option linter.unusedSectionVars false

namespace Mastiff.Storage

open Machine

/-! ## Power-on time -/

/-- `poweron_time_sec` and `poweron_time_total_sec` of the job statistics, in `vola_info_`
or in the database (`ITEM_VOLATILE_PWRSEC`, `ITEM_VOLATILE_PWRTTL`). -/
structure PoweronTime where
  sec : ℚ
  totalSec : ℚ
  deriving DecidableEq

/-- `vola_info_`, null until it is loaded, and `last_note_history_time_`. -/
structure DbaseClient where
  volaInfo : Option PoweronTime := none
  lastNoteHistoryTime : ℚ := 0
  deriving DecidableEq

namespace DbaseClient

/-- `UpdatePowerupTime`, `uptime` being what `GetSysUpSecs` returns. It writes through
`vola_info_`, and `none` is the fault if that is null. -/
def updatePowerupTime (c : DbaseClient) (uptime : ℚ) : Option DbaseClient :=
  match c.volaInfo with
  | none => none
  | some _ => some { c with volaInfo := some ⟨uptime, uptime + c.lastNoteHistoryTime⟩ }

/-- `DbLoadSaveVolatile` : the client and the row it leaves of the row `db`. It loads if
`vola_info_` is null, and saves otherwise. -/
def dbLoadSaveVolatile (c : DbaseClient) (db : PoweronTime) (uptime : ℚ) :
    DbaseClient × PoweronTime :=
  match c.volaInfo with
  | none => ({ volaInfo := some db, lastNoteHistoryTime := db.totalSec }, db)
  | some _ =>
    let v : PoweronTime := ⟨uptime, uptime + c.lastNoteHistoryTime⟩
    ({ c with volaInfo := some v }, v)

end DbaseClient

/-- The account of the uptimes that are recorded, which the code does not keep : the sum of
the final ones of the earlier boots, the last one of this boot, and what that was when the
running process started. -/
structure Account where
  earlier : ℚ
  recorded : ℚ := 0
  found : ℚ := 0
  deriving DecidableEq

/-- The database row, the running process if there is one, and the account. -/
structure Robot where
  db : PoweronTime
  client : Option DbaseClient := none
  account : Account
  deriving DecidableEq

/-- What happens to the robot, with what `GetSysUpSecs` returns then. -/
inductive RobotEvent
  | boot
  | processStart (uptime : ℚ)
  | updatePowerupTime (uptime : ℚ)
  | save (uptime : ℚ)
  deriving DecidableEq

namespace Robot

/-- A robot whose row tells the total of the boots before. -/
def new (db : PoweronTime) : Robot where
  db := db
  account := { earlier := db.totalSec }

/-- One event. A boot ends the process, and a process that starts loads. -/
def step (r : Robot) : RobotEvent → Robot × Unit
  | .boot =>
    ({ r with
      client := none
      account := { earlier := r.account.earlier + r.account.recorded } }, ())
  | .processStart uptime =>
    let l := ({} : DbaseClient).dbLoadSaveVolatile r.db uptime
    ({ r with
        db := l.2
        client := some l.1
        account := { r.account with found := r.account.recorded } }, ())
  | .updatePowerupTime uptime =>
    ({ r with client := r.client.bind (·.updatePowerupTime uptime) }, ())
  | .save uptime =>
    match r.client with
    | none => (r, ())
    | some c =>
      let s := c.dbLoadSaveVolatile r.db uptime
      ({ r with
          db := s.2
          client := some s.1
          account := { r.account with recorded := uptime } }, ())

/-- A save leaves the total of the final uptimes of the earlier boots and the current
uptime. -/
def Accounted (t : Step Robot RobotEvent Unit) : Prop :=
  ∀ uptime, t.input = .save uptime → t.before.client.isSome = true →
    t.after.db.totalSec = t.after.account.earlier + uptime

/-- A process that saves was started before any uptime of its boot was recorded. -/
def StartedFirst (r : Robot) (e : RobotEvent) : Prop :=
  ∀ uptime, e = .save uptime → r.client.isSome = true → r.account.found = 0

/-- The row tells the account, and a running process has loaded and remembers the row it
found. -/
structure Balanced (r : Robot) : Prop where
  db : r.db.totalSec = r.account.earlier + r.account.recorded
  loaded : ∀ c, r.client = some c → c.volaInfo.isSome = true
  base : ∀ c, r.client = some c → c.lastNoteHistoryTime = r.account.earlier + r.account.found

theorem balanced_new (db : PoweronTime) : Balanced (new db) where
  db := by simp [new]
  loaded c hc := by cases hc
  base c hc := by cases hc

variable {r : Robot}

/-- A running process saves its uptime on top of what it found. -/
theorem Balanced.step_save (h : Balanced r) (hrun : r.client.isSome = true) (uptime : ℚ) :
    ∃ c, c.volaInfo.isSome = true ∧
      c.lastNoteHistoryTime = r.account.earlier + r.account.found ∧
      (r.step (.save uptime)).1 =
        { r with
          db := ⟨uptime, uptime + (r.account.earlier + r.account.found)⟩
          client := some c
          account := { r.account with recorded := uptime } } := by
  obtain ⟨c, hc⟩ := Option.isSome_iff_exists.1 hrun
  obtain ⟨v, hv⟩ := Option.isSome_iff_exists.1 (h.loaded c hc)
  have hbase := h.base c hc
  refine ⟨{ c with volaInfo := some ⟨uptime, uptime + c.lastNoteHistoryTime⟩ }, rfl, hbase, ?_⟩
  simp only [Robot.step, hc, DbaseClient.dbLoadSaveVolatile, hv, hbase]

/-- A save is right exactly when its process started first. -/
theorem Balanced.accounted_iff_startedFirst (h : Balanced r) (e : RobotEvent) :
    Accounted ⟨r, e, (r.step e).1, (r.step e).2⟩ ↔ StartedFirst r e := by
  refine forall_congr' fun uptime => forall_congr' fun he => forall_congr' fun hrun => ?_
  obtain ⟨c, -, -, hsave⟩ := h.step_save hrun uptime
  change e = .save uptime at he
  subst he
  rw [hsave]
  constructor
  · intro htotal
    change uptime + (r.account.earlier + r.account.found) = r.account.earlier + uptime at htotal
    linarith
  · intro hfound
    change uptime + (r.account.earlier + r.account.found) = r.account.earlier + uptime
    linarith

/-- The balance is kept by every event, as long as a process that saves started first. -/
theorem Balanced.step (h : Balanced r) {e : RobotEvent} (hfirst : StartedFirst r e) :
    Balanced (r.step e).1 := by
  cases e with
  | boot =>
    refine ⟨?_, fun c hc => (by cases hc), fun c hc => (by cases hc)⟩
    change r.db.totalSec = r.account.earlier + r.account.recorded + 0
    rw [h.db, add_zero]
  | processStart uptime =>
    refine ⟨h.db, ?_, ?_⟩
    · rintro c ⟨⟩
      rfl
    · rintro c ⟨⟩
      exact h.db
  | updatePowerupTime uptime =>
    have hclient : ∀ c, r.client.bind (·.updatePowerupTime uptime) = some c →
        ∃ c₀, r.client = some c₀ ∧ c.volaInfo.isSome = true ∧
          c.lastNoteHistoryTime = c₀.lastNoteHistoryTime := by
      intro c hc
      obtain ⟨c₀, hc₀, hc⟩ := Option.bind_eq_some_iff.1 hc
      rw [DbaseClient.updatePowerupTime] at hc
      split at hc <;> cases hc
      exact ⟨c₀, hc₀, rfl, rfl⟩
    refine ⟨h.db, fun c hc => ?_, fun c hc => ?_⟩
    · obtain ⟨-, -, hloaded, -⟩ := hclient c hc
      exact hloaded
    · obtain ⟨c₀, hc₀, -, hbase⟩ := hclient c hc
      exact hbase.trans (h.base c₀ hc₀)
  | save uptime =>
    cases hrun : r.client.isSome with
    | false =>
      have hnone : r.client = none := by simpa using hrun
      rw [show (r.step (.save uptime)).1 = r by simp only [Robot.step, hnone]]
      exact h
    | true =>
      obtain ⟨c, hloaded, hbase, hsave⟩ := h.step_save hrun uptime
      rw [hsave]
      refine ⟨?_, ?_, ?_⟩
      · change uptime + (r.account.earlier + r.account.found) = r.account.earlier + uptime
        rw [hfirst uptime rfl hrun, add_zero, add_comm]
      · rintro c' ⟨⟩
        exact hloaded
      · rintro c' ⟨⟩
        exact hbase

/-- Over every sequence of boots, process starts, updates and saves, every save leaves the
total of the final uptimes of the earlier boots and the current uptime exactly when every
process that saves was started before any uptime of its boot was recorded. -/
theorem accounted_iff (db : PoweronTime) (es : List RobotEvent) :
    (∀ t ∈ trace step (new db) es, Accounted t) ↔
      ∀ t ∈ trace step (new db) es, StartedFirst t.before t.input :=
  forall_trace_iff_of_step Balanced (fun _ e h => h.accounted_iff_startedFirst e)
    (fun _ _ h hfirst => h.step hfirst) es (balanced_new db)

/-- A process is started again in the boot in which it has saved. -/
theorem not_accounted :
    ¬∀ (db : PoweronTime) (es : List RobotEvent), ∀ t ∈ trace step (new db) es, Accounted t := by
  intro h
  have htotal := h ⟨0, 0⟩ [.processStart 1, .save 10, .processStart 11, .save 20]
    ⟨_, .save 20, _, _⟩ (List.mem_cons_of_mem _ (List.mem_cons_of_mem _ (List.mem_cons_of_mem _
      (List.mem_cons_self ..)))) 20 rfl rfl
  change (20 : ℚ) + (10 + 0) = 0 + 20 at htotal
  norm_num at htotal

end Robot

/-! ## Modifications -/

/-- The next atomic step of `DataBaseLoop`. -/
inductive LoopStep
  | readFlag
  | save
  | clearFlag
  deriving DecidableEq

/-- The settings of `vola_info_` and of the database, each as the list of the changes made
to it, `database_need_update_`, and what the database loop does next. The changes made up to
the last notification are kept for the statements alone. -/
structure Settings (α : Type) where
  made : List α := []
  saved : List α := []
  needUpdate : Bool := false
  next : LoopStep := .readFlag
  notified : List α := []
  deriving DecidableEq

/-- An atomic step : a change of the exposed `VolatileInformation`, a `DbNotifyModification`,
or the next step of the database loop. -/
inductive Turn (α : Type)
  | change (c : α)
  | notify
  | loop
  deriving DecidableEq

namespace Settings

variable {α : Type}

/-- `DbNotifyModification`. -/
def dbNotifyModification (s : Settings α) : Settings α :=
  { s with needUpdate := true, notified := s.made }

/-- One step of `DataBaseLoop`. The time `UpdatePowerupTime` sets is not a setting. -/
def dataBaseLoop (s : Settings α) : Settings α :=
  match s.next with
  | .readFlag => if s.needUpdate then { s with next := .save } else s
  | .save => { s with saved := s.made, next := .clearFlag }
  | .clearFlag => { s with needUpdate := false, next := .readFlag }

/-- One step. -/
def step (s : Settings α) : Turn α → Settings α × Unit
  | .change c => ({ s with made := s.made ++ [c] }, ())
  | .notify => (s.dbNotifyModification, ())
  | .loop => (s.dataBaseLoop, ())

/-- With the flag clear and no save in progress, every notified change is in what was
saved. -/
def NothingLost (s : Settings α) : Prop :=
  s.needUpdate = false → s.next = .readFlag → s.notified <+: s.saved

/-- A notification between a save and the clearing of the flag finds every change saved. -/
def InTime (s : Settings α) (t : Turn α) : Prop :=
  t = .notify → s.next = .clearFlag → s.made = s.saved

/-- What is notified and what is saved has been made, and a save is in progress only under
the flag. -/
structure Ordered (s : Settings α) : Prop where
  notified : s.notified <+: s.made
  saved : s.saved <+: s.made
  flag : s.next ≠ .readFlag → s.needUpdate = true

variable {s : Settings α}

/-- Nothing is lost now and after the next step of the loop. -/
theorem Ordered.nothingLost_now_iff (h : Ordered s) :
    s.NothingLost ∧ s.dataBaseLoop.NothingLost ↔
      (s.needUpdate = false ∨ s.next = .clearFlag → s.notified <+: s.saved) := by
  cases hnext : s.next with
  | readFlag =>
    cases hflag : s.needUpdate <;>
      simp [NothingLost, dataBaseLoop, hnext, hflag]
  | save =>
    have hflag := h.flag (by simp [hnext])
    simp [NothingLost, dataBaseLoop, hnext, hflag]
  | clearFlag =>
    have hflag := h.flag (by simp [hnext])
    simp [NothingLost, dataBaseLoop, hnext, hflag]

theorem ordered_step (s : Settings α) (t : Turn α) (h : Ordered s) : Ordered (s.step t).1 := by
  cases t with
  | change c =>
    have hmade : s.made <+: s.made ++ [c] := List.prefix_append _ _
    exact ⟨h.notified.trans hmade, h.saved.trans hmade, h.flag⟩
  | notify => exact ⟨List.prefix_rfl, h.saved, fun _ => rfl⟩
  | loop =>
    change Ordered s.dataBaseLoop
    rw [dataBaseLoop]
    split
    · split_ifs with hflag
      · exact ⟨h.notified, h.saved, fun _ => hflag⟩
      · exact h
    · next hnext => exact ⟨h.notified, List.prefix_rfl, fun _ => h.flag (by simp [hnext])⟩
    · exact ⟨h.notified, h.saved, fun hno => absurd rfl hno⟩

/-- A step goes on losing nothing exactly when it is in time. -/
theorem Ordered.nothingLost_step_iff (h : Ordered s)
    (hl : s.NothingLost ∧ s.dataBaseLoop.NothingLost) (t : Turn α) :
    (s.step t).1.NothingLost ∧ (s.step t).1.dataBaseLoop.NothingLost ↔ s.InTime t := by
  rw [(ordered_step s t h).nothingLost_now_iff]
  rw [h.nothingLost_now_iff] at hl
  cases t with
  | change c => exact iff_of_true hl (fun ht => by cases ht)
  | notify =>
    change (true = false ∨ s.next = .clearFlag → s.made <+: s.saved) ↔ _
    constructor
    · intro hmade _ hnext
      exact (hmade (.inr hnext)).eq_of_length_le h.saved.length_le
    · rintro htime (hflag | hnext)
      · cases hflag
      · exact (htime rfl hnext) ▸ List.prefix_rfl
  | loop =>
    refine iff_of_true ?_ (fun ht => by cases ht)
    change (s.dataBaseLoop.needUpdate = false ∨ s.dataBaseLoop.next = .clearFlag →
      s.dataBaseLoop.notified <+: s.dataBaseLoop.saved)
    rw [dataBaseLoop]
    split
    · next hnext =>
      split_ifs with hflag
      · simp [hflag]
      · exact hl
    · exact fun _ => h.notified
    · next hnext => exact fun _ => hl (.inr hnext)

/-- For every interleaving of the changing thread and the database loop, nothing is lost in
any state reached, nor by the loop's next step, exactly when every notification between a
save and the clearing of the flag finds every change saved. -/
theorem nothingLost_iff (ts : List (Turn α)) :
    (∀ t ∈ trace step {} ts, t.after.NothingLost ∧ t.after.dataBaseLoop.NothingLost) ↔
      ∀ t ∈ trace step {} ts, InTime t.before t.input := by
  have hordered : Ordered ({} : Settings α) :=
    ⟨List.prefix_rfl, List.prefix_rfl, fun hno => absurd rfl hno⟩
  refine forall_trace_iff (P := fun s => s.NothingLost ∧ s.dataBaseLoop.NothingLost) Ordered
    ordered_step (fun s t h hl => h.nothingLost_step_iff hl t) ts hordered ?_
  rw [hordered.nothingLost_now_iff]
  exact fun _ => List.prefix_rfl

/-- A second change is notified between the save of the first and the clearing of the
flag. -/
theorem not_nothingLost :
    ¬∀ ts : List (Turn ℕ), ∀ t ∈ trace step {} ts, t.after.NothingLost := by
  intro h
  have hlost := h [.change 1, .notify, .loop, .loop, .change 2, .notify, .loop]
    ⟨_, .loop, _, _⟩ (List.mem_of_getLast? rfl) (by decide) (by decide)
  exact absurd hlost (by decide)

end Settings

end Mastiff.Storage

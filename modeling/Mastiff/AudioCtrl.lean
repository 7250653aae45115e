import Mastiff.Lib.Machine
import Mastiff.Lib.Slot
import Mathlib.Data.Int.Notation

/-!
# The audio commands

`SetAudioCtrl` (`chassis/drivers/soc/audio/audio_ctrl.cc`) raises a flag and then stores the
command. Under the flag `PollingAudioRutine` operates the stored command, empties it and
lowers the flag, on a thread of its own, so a run is any interleaving of their steps.

`noneLost_iff` : no command is dropped or emptied exactly when a command is stored between every
`AudioOperate` and the steps that take or empty the one before it, and the flag is lowered only
when the last command given has been stored and operated after that.
-/

namespace Mastiff.Soc

open Machine Slot

/-! ## Messages -/

structure AudioPlay where
  soundId : ℤ := 0
  pack : Option String := none
  deriving DecidableEq

structure SetAduioVolume where
  volume : ℤ := 0
  muteSw : Option Bool := none
  deriving DecidableEq

structure SetAudioPack where
  dftPack : String := ""
  deriving DecidableEq

/-- The parts that `AudioOperate` looks for. -/
structure AudioSetting where
  play : Option AudioPlay := none
  vol : Option SetAduioVolume := none
  pack : Option SetAudioPack := none
  deriving DecidableEq

/-! ## States -/

/-- The next step of `PollingAudioRutine`. -/
inductive AudioPollStep
  | testFlag
  | operate
  | clearMsg
  | clearFlag
  deriving DecidableEq

/-- The members of `AudioCtrl`, the command that `SetAudioCtrl` has still to store, and where
`PollingAudioRutine` is. The commands given, numbered from 1, the number of the one that
`ctrl_msg_` holds (0 for the empty one) and the numbers of those operated, the last one
first, are kept for the statements alone. -/
structure AudioCtrl where
  hasData : Bool := false
  ctrlMsg : AudioSetting := {}
  setting : Option AudioSetting := none
  polling : AudioPollStep := .testFlag
  given : List AudioSetting := []
  stored : ℕ := 0
  operated : List ℕ := []
  deriving DecidableEq

/-- An atomic step : `SetAudioCtrl` is called, and raises the flag, or it stores the command,
or `PollingAudioRutine` goes on. -/
inductive AudioCtrlTurn
  | call (msg : AudioSetting)
  | set
  | poll
  deriving DecidableEq

namespace AudioCtrl

/-- The first step of `SetAudioCtrl`. A call waits for the one before it. -/
def call (s : AudioCtrl) (msg : AudioSetting) : AudioCtrl :=
  if s.setting = none then
    { s with hasData := true, setting := some msg, given := s.given ++ [msg] }
  else s

/-- The second step of `SetAudioCtrl`. -/
def setAudioCtrl (s : AudioCtrl) : AudioCtrl :=
  match s.setting with
  | none => s
  | some msg => { s with ctrlMsg := msg, stored := s.given.length, setting := none }

/-- A step of `PollingAudioRutine`, and the call of `AudioOperate` in it, which can last until
the step after it. -/
def pollingAudioRutine (s : AudioCtrl) : AudioCtrl × Option (ℕ × AudioSetting) :=
  match s.polling with
  | .testFlag => (if s.hasData then { s with polling := .operate } else s, none)
  | .operate =>
    ({ s with polling := .clearMsg, operated := s.stored :: s.operated },
      some (s.stored, s.ctrlMsg))
  | .clearMsg => ({ s with ctrlMsg := {}, stored := 0, polling := .clearFlag }, none)
  | .clearFlag => ({ s with hasData := false, polling := .testFlag }, none)

/-- One step. -/
def step (s : AudioCtrl) : AudioCtrlTurn → AudioCtrl × Option (ℕ × AudioSetting)
  | .call msg => (s.call msg, none)
  | .set => (s.setAudioCtrl, none)
  | .poll => s.pollingAudioRutine

/-! ## Commands executed once -/

/-- With the flag clear and no operation in progress, the last command given has been
operated. -/
def NothingLost (s : AudioCtrl) : Prop :=
  s.hasData = false → s.polling = .testFlag → s.given ≠ [] → s.given.length ∈ s.operated

/-- What a step has to satisfy : `AudioOperate` is called with a command that was given and
not operated before, and no command is lost after the step. -/
structure NoneLost (t : Step AudioCtrl AudioCtrlTurn (Option (ℕ × AudioSetting))) : Prop where
  fresh : ∀ n msg, t.output = some (n, msg) →
    (∃ i, n = i + 1 ∧ t.before.given[i]? = some msg) ∧ n ∉ t.before.operated
  kept : t.after.NothingLost

/-- What a step does with the command that is stored. -/
def use (s : AudioCtrl) : AudioCtrlTurn → Option Use
  | .call _ => if s.setting = none then some .give else none
  | .set => if s.setting = none then none else some .store
  | .poll =>
    match s.polling with
    | .operate => some .take
    | .clearMsg => some .clear
    | _ => none

/-- What the steps of a run have done with it, the latest first. -/
def uses (past : List (Step AudioCtrl AudioCtrlTurn (Option (ℕ × AudioSetting)))) : List Use :=
  (past.filterMap fun t => t.before.use t.input).reverse

/-- A command has been stored when `AudioOperate` is called, since the step that took or emptied
the one before it, and when the flag is lowered, the last command given has been stored and
operated after that. -/
structure InTime (us : List Use) (s : AudioCtrl) (t : AudioCtrlTurn) : Prop where
  operate : t = .poll → s.polling = .operate → StoredSince us
  clear : t = .poll → s.polling = .clearFlag → LastServed us

/-! ## Where the commands are -/

/-- The commands are handed over in order, as the steps have it, the one that `SetAudioCtrl` is
about to store is the last one given, and an operation is in progress only under the flag. -/
structure Ordered (us : List Use) (s : AudioCtrl) : Prop where
  inOrder : InOrder s.given s.stored s.ctrlMsg s.operated
  recorded : Recorded us s.given s.stored s.operated
  setting : ∀ msg, s.setting = some msg → Unstored s.given s.stored s.operated msg
  flag : s.polling ≠ .testFlag → s.hasData = true

variable {s : AudioCtrl} {us : List Use}

theorem uses_snoc (past : List (Step AudioCtrl AudioCtrlTurn (Option (ℕ × AudioSetting))))
    (t : Step AudioCtrl AudioCtrlTurn (Option (ℕ × AudioSetting))) :
    uses (past ++ [t]) = (t.before.use t.input).toList ++ uses past := by
  rw [uses, uses, List.filterMap_append, List.reverse_append, List.filterMap_cons]
  cases t.before.use t.input <;> rfl

theorem Ordered.call (h : Ordered us s) (msg : AudioSetting) :
    Ordered ((s.use (.call msg)).toList ++ us) (s.call msg) := by
  rw [AudioCtrl.call, use]
  split_ifs
  · refine ⟨h.inOrder.give msg, h.recorded.give h.inOrder msg, ?_, fun _ => rfl⟩
    rintro _ ⟨⟩
    exact h.inOrder.unstored msg
  · exact h

theorem Ordered.setAudioCtrl (h : Ordered us s) :
    Ordered ((s.use .set).toList ++ us) s.setAudioCtrl := by
  rw [AudioCtrl.setAudioCtrl, use]
  cases hset : s.setting with
  | none => exact h
  | some msg =>
    have hlast := h.setting msg hset
    refine ⟨h.inOrder.store hlast.getLast?_given, h.recorded.store hlast, ?_, h.flag⟩
    intro _ hno
    cases hno

theorem step_testFlag (hpoll : s.polling = .testFlag) :
    s.step .poll = (if s.hasData then { s with polling := .operate } else s, none) := by
  rw [step, pollingAudioRutine, hpoll]

theorem step_operate (hpoll : s.polling = .operate) :
    s.step .poll = ({ s with polling := .clearMsg, operated := s.stored :: s.operated },
      some (s.stored, s.ctrlMsg)) := by
  rw [step, pollingAudioRutine, hpoll]

theorem step_clearMsg (hpoll : s.polling = .clearMsg) :
    s.step .poll = ({ s with ctrlMsg := {}, stored := 0, polling := .clearFlag }, none) := by
  rw [step, pollingAudioRutine, hpoll]

theorem step_clearFlag (hpoll : s.polling = .clearFlag) :
    s.step .poll = ({ s with hasData := false, polling := .testFlag }, none) := by
  rw [step, pollingAudioRutine, hpoll]

theorem Ordered.poll (h : Ordered us s) (htime : InTime us s .poll) :
    Ordered ((s.use .poll).toList ++ us) (s.step .poll).1 := by
  rw [use]
  cases hpoll : s.polling with
  | testFlag =>
    rw [step_testFlag hpoll]
    by_cases hflag : s.hasData = true
    · rw [if_pos hflag]
      exact ⟨h.inOrder, h.recorded, h.setting, fun _ => hflag⟩
    · rw [if_neg hflag]
      exact h
  | operate =>
    have hsince := htime.operate rfl hpoll
    rw [step_operate hpoll]
    exact ⟨h.inOrder.take (Nat.le_of_lt (h.recorded.storedSince.1 hsince)),
      h.recorded.take hsince, fun msg hmsg => (h.setting msg hmsg).take,
      fun _ => h.flag (by simp [hpoll])⟩
  | clearMsg =>
    rw [step_clearMsg hpoll]
    exact ⟨h.inOrder.clear {}, h.recorded.clear, fun msg hmsg => (h.setting msg hmsg).clear,
      fun _ => h.flag (by simp [hpoll])⟩
  | clearFlag =>
    rw [step_clearFlag hpoll]
    exact ⟨h.inOrder, h.recorded, h.setting, fun hno => absurd rfl hno⟩

theorem ordered_step (s : AudioCtrl) (t : AudioCtrlTurn) (h : Ordered us s)
    (htime : InTime us s t) : Ordered ((s.use t).toList ++ us) (s.step t).1 := by
  cases t with
  | call msg => exact h.call msg
  | set => exact h.setAudioCtrl
  | poll => exact h.poll htime

/-! ## Runs -/

theorem NothingLost.call (hl : s.NothingLost) (msg : AudioSetting) :
    (s.call msg).NothingLost := by
  rw [AudioCtrl.call]
  by_cases hidle : s.setting = none
  · rw [if_pos hidle]
    intro hflag
    cases hflag
  · rwa [if_neg hidle]

/-- Storing a command gives and operates none. -/
theorem NothingLost.setAudioCtrl (hl : s.NothingLost) : s.setAudioCtrl.NothingLost := by
  rw [AudioCtrl.setAudioCtrl]
  split <;> exact hl

/-- A test of the flag satisfies what it has to. -/
theorem noneLost_testFlag (hl : s.NothingLost) (hpoll : s.polling = .testFlag) :
    NoneLost ⟨s, .poll, (s.step .poll).1, (s.step .poll).2⟩ := by
  rw [step_testFlag hpoll]
  refine ⟨fun _ _ hout => (by cases hout), ?_⟩
  change NothingLost (if s.hasData then { s with polling := .operate } else s)
  split_ifs
  · intro _ hop
    cases hop
  · exact hl

/-- A command is operated once exactly if it has been stored since the last operation. -/
theorem Ordered.noneLost_operate_iff (h : Ordered us s) (hpoll : s.polling = .operate) :
    NoneLost ⟨s, .poll, (s.step .poll).1, (s.step .poll).2⟩ ↔ InTime us s .poll := by
  rw [step_operate hpoll]
  constructor
  · intro honce
    have hfresh := h.inOrder.fresh_iff.1 (honce.fresh _ _ rfl)
    refine ⟨fun _ _ => h.recorded.storedSince.2 hfresh, fun _ hclear => ?_⟩
    rw [hpoll] at hclear
    cases hclear
  · intro htime
    have hfresh := h.inOrder.fresh_iff.2 (h.recorded.storedSince.1 (htime.operate rfl hpoll))
    refine ⟨?_, fun _ hop => by cases hop⟩
    rintro _ _ ⟨⟩
    exact hfresh

/-- Emptying the command satisfies what it has to : what it may empty is missed later. -/
theorem noneLost_clearMsg (hpoll : s.polling = .clearMsg) :
    NoneLost ⟨s, .poll, (s.step .poll).1, (s.step .poll).2⟩ := by
  rw [step_clearMsg hpoll]
  exact ⟨fun _ _ hout => (by cases hout), fun _ hop => (by cases hop)⟩

/-- No command is lost by lowering the flag exactly if the last one given was operated last. -/
theorem Ordered.noneLost_clearFlag_iff (h : Ordered us s) (hpoll : s.polling = .clearFlag) :
    NoneLost ⟨s, .poll, (s.step .poll).1, (s.step .poll).2⟩ ↔ InTime us s .poll := by
  rw [step_clearFlag hpoll]
  constructor
  · intro honce
    refine ⟨fun _ hop => ?_, fun _ _ => h.recorded.lastServed.2 ?_⟩
    · rw [hpoll] at hop
      cases hop
    · by_cases hne : s.given = []
      · have hle := h.inOrder.lastTaken_le
        rw [hne] at hle ⊢
        exact Nat.le_zero.1 hle
      · exact (h.inOrder.length_mem_iff hne).1 (honce.kept rfl rfl hne)
  · intro htime
    refine ⟨fun _ _ hout => (by cases hout), fun _ _ hne => ?_⟩
    exact (h.inOrder.length_mem_iff hne).2 (h.recorded.lastServed.1 (htime.clear rfl hpoll))

/-- A step satisfies what it has to exactly if it is in time. -/
theorem Ordered.noneLost_step_iff (h : Ordered us s) (hl : s.NothingLost) (t : AudioCtrlTurn) :
    NoneLost ⟨s, t, (s.step t).1, (s.step t).2⟩ ↔ InTime us s t := by
  cases t with
  | call msg =>
    refine iff_of_true ⟨fun _ _ hout => ?_, hl.call msg⟩ ⟨?_, ?_⟩
    · cases hout
    all_goals intro ht; cases ht
  | set =>
    refine iff_of_true ⟨fun _ _ hout => ?_, hl.setAudioCtrl⟩ ⟨?_, ?_⟩
    · cases hout
    all_goals intro ht; cases ht
  | poll =>
    cases hpoll : s.polling with
    | testFlag =>
      refine iff_of_true (noneLost_testFlag hl hpoll) ⟨fun _ hop => ?_, fun _ hop => ?_⟩
      all_goals rw [hpoll] at hop; cases hop
    | operate => exact h.noneLost_operate_iff hpoll
    | clearMsg =>
      refine iff_of_true (noneLost_clearMsg hpoll) ⟨fun _ hop => ?_, fun _ hop => ?_⟩
      all_goals rw [hpoll] at hop; cases hop
    | clearFlag => exact h.noneLost_clearFlag_iff hpoll

/-- For every sequence of commands and every interleaving with the polling thread, every step
satisfies what it has to exactly when every step is in time. -/
theorem noneLost_iff (ts : List AudioCtrlTurn) :
    (∀ t ∈ trace step {} ts, NoneLost t) ↔
      ∀ past t rest, trace step {} ts = past ++ t :: rest →
        InTime (uses past) t.before t.input := by
  have hordered : Ordered (uses []) ({} : AudioCtrl) :=
    ⟨InOrder.nil _, Recorded.nil, by simp, by simp⟩
  refine @forall_trace_iff_forall_history _ _ _ step NoneLost
    (fun past t => InTime (uses past) t.before t.input)
    (fun past s => Ordered (uses past) s ∧ NothingLost s)
    (fun past s t h => h.1.noneLost_step_iff h.2 t) (fun past s t h htime => ⟨?_, ?_⟩) ts [] {}
    ⟨hordered, fun _ _ hne => absurd rfl hne⟩
  · rw [uses_snoc]
    exact ordered_step s t h.1 htime
  · exact ((h.1.noneLost_step_iff h.2 t).2 htime).kept

/-- A command stored while the one before it is operated is emptied with it. -/
theorem not_noneLost : ¬∀ ts : List AudioCtrlTurn, ∀ t ∈ trace step {} ts, NoneLost t := by
  intro h
  have hkept := (h [.call {}, .set, .poll, .poll, .call { vol := some { volume := 30 } }, .set,
    .poll, .poll] ⟨_, .poll, _, _⟩ (List.mem_of_getLast? rfl)).kept rfl rfl (by decide)
  exact absurd hkept (by decide)

end AudioCtrl

end Mastiff.Soc

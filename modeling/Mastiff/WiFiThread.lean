import Mastiff.Lib.Machine
import Mastiff.Lib.Slot
import Mastiff.WiFiTool

/-!
# The WiFi thread

`SetWiFiCtrl` (`chassis/drivers/soc/network/wifi_thread.cc`) raises a flag before it looks
at the setting and before it stores it ; `PollingNetworkRutine` operates the stored setting
under the flag and lowers the flag afterwards. Both run on threads of their own, so a run
is any interleaving of their steps.

`exactlyOnce_iff` : every setting is operated exactly once, in every run, exactly when a setting
is stored between every `WiFiOperate` and the one before it, and the flag is lowered only when the
last setting given has been stored and operated after that.
-/

namespace Mastiff.Soc

open Machine Slot

/-! ## States -/

/-- The next step of the call of `SetWiFiCtrl`, if there is one. -/
inductive SetStep
  | idle
  | test (ctrl : WifiSetting)
  | store (ctrl : WifiSetting)
  deriving DecidableEq

/-- The next step of `PollingNetworkRutine`. -/
inductive PollStep
  | testFlag
  | operate
  | clearFlag
  deriving DecidableEq

/-- The members of `WiFiThread`, and where its two threads are. The settings other than
`E_WIFI_CLOSE` and `E_WIFI_START` are numbered from 1 in the order given. The settings given,
the number of the one that `wifi_ctrl_` holds (0 for the empty one it starts with) and the
numbers of those operated, the last one first, are kept for the statements alone. -/
structure WiFiThread where
  setCtrlCmd : Bool := false
  wifiCtrl : WifiSetting := {}
  setting : SetStep := .idle
  polling : PollStep := .testFlag
  given : List WifiSetting := []
  stored : ℕ := 0
  operated : List ℕ := []
  deriving DecidableEq

/-- An atomic step : `SetWiFiCtrl` is called, and raises the flag, or it goes on, or
`PollingNetworkRutine` does. -/
inductive WiFiTurn
  | call (ctrl : WifiSetting)
  | set
  | poll
  deriving DecidableEq

namespace WiFiThread

/-- The settings after which `SetWiFiCtrl` returns early. -/
def IsControl (ctrl : WifiSetting) : Prop :=
  ctrl.wifiFunc = .close ∨ ctrl.wifiFunc = .start

instance (ctrl : WifiSetting) : Decidable (IsControl ctrl) :=
  inferInstanceAs (Decidable (_ ∨ _))

/-- The first step of `SetWiFiCtrl`. A call waits for the one before it. -/
def call (s : WiFiThread) (ctrl : WifiSetting) : WiFiThread :=
  if s.setting = .idle then
    { s with
      setCtrlCmd := true
      setting := .test ctrl
      given := if IsControl ctrl then s.given else s.given ++ [ctrl] }
  else s

/-- The further steps of `SetWiFiCtrl`. -/
def setWiFiCtrl (s : WiFiThread) : WiFiThread :=
  match s.setting with
  | .idle => s
  | .test ctrl => { s with setting := if IsControl ctrl then .idle else .store ctrl }
  | .store ctrl => { s with wifiCtrl := ctrl, stored := s.given.length, setting := .idle }

/-- A step of `PollingNetworkRutine`, and the call of `WiFiOperate` in it. -/
def pollingNetworkRutine (s : WiFiThread) : WiFiThread × Option (ℕ × WifiSetting) :=
  match s.polling with
  | .testFlag => (if s.setCtrlCmd then { s with polling := .operate } else s, none)
  | .operate =>
    ({ s with polling := .clearFlag, operated := s.stored :: s.operated },
      some (s.stored, s.wifiCtrl))
  | .clearFlag => ({ s with setCtrlCmd := false, polling := .testFlag }, none)

/-- One step. -/
def step (s : WiFiThread) : WiFiTurn → WiFiThread × Option (ℕ × WifiSetting)
  | .call ctrl => (s.call ctrl, none)
  | .set => (s.setWiFiCtrl, none)
  | .poll => s.pollingNetworkRutine

/-! ## Commands executed once -/

/-- With the flag clear and no operation in progress, the last setting given has been
operated. -/
def NothingLost (s : WiFiThread) : Prop :=
  s.setCtrlCmd = false → s.polling = .testFlag → s.given ≠ [] → s.given.length ∈ s.operated

/-- What a step has to satisfy : `WiFiOperate` is called with a setting that was given and
not operated before, and no setting is lost after the step. -/
structure ExactlyOnce (t : Step WiFiThread WiFiTurn (Option (ℕ × WifiSetting))) : Prop where
  fresh : ∀ n ctrl, t.output = some (n, ctrl) →
    (∃ i, n = i + 1 ∧ t.before.given[i]? = some ctrl) ∧ n ∉ t.before.operated
  kept : t.after.NothingLost

/-- What a step does with the setting that is stored. -/
def use (s : WiFiThread) : WiFiTurn → Option Use
  | .call ctrl => if s.setting = .idle ∧ ¬IsControl ctrl then some .give else none
  | .set =>
    match s.setting with
    | .store _ => some .store
    | _ => none
  | .poll => if s.polling = .operate then some .take else none

/-- What the steps of a run have done with it, the latest first. -/
def uses (past : List (Step WiFiThread WiFiTurn (Option (ℕ × WifiSetting)))) : List Use :=
  (past.filterMap fun t => t.before.use t.input).reverse

/-- A setting has been stored since the last call of `WiFiOperate` when it is called, and when the
flag is lowered, the last setting given has been stored and operated after that. -/
structure InTime (us : List Use) (s : WiFiThread) (t : WiFiTurn) : Prop where
  operate : t = .poll → s.polling = .operate → StoredSince us
  clear : t = .poll → s.polling = .clearFlag → LastServed us

/-! ## Where the settings are -/

/-- The settings are handed over in order, as the steps have it, the one that `SetWiFiCtrl` is
about to store is the last one given, and an operation is in progress only under the flag. -/
structure Ordered (us : List Use) (s : WiFiThread) : Prop where
  inOrder : InOrder s.given s.stored s.wifiCtrl s.operated
  recorded : Recorded us s.given s.stored s.operated
  test : ∀ ctrl, s.setting = .test ctrl → ¬IsControl ctrl →
    Unstored s.given s.stored s.operated ctrl
  store : ∀ ctrl, s.setting = .store ctrl → Unstored s.given s.stored s.operated ctrl
  flag : s.polling ≠ .testFlag → s.setCtrlCmd = true

variable {s : WiFiThread} {us : List Use}

theorem uses_snoc (past : List (Step WiFiThread WiFiTurn (Option (ℕ × WifiSetting))))
    (t : Step WiFiThread WiFiTurn (Option (ℕ × WifiSetting))) :
    uses (past ++ [t]) = (t.before.use t.input).toList ++ uses past := by
  rw [uses, uses, List.filterMap_append, List.reverse_append, List.filterMap_cons]
  cases t.before.use t.input <;> rfl

theorem Ordered.call (h : Ordered us s) (ctrl : WifiSetting) :
    Ordered ((s.use (.call ctrl)).toList ++ us) (s.call ctrl) := by
  rw [WiFiThread.call, use]
  by_cases hidle : s.setting = .idle
  · rw [if_pos hidle]
    by_cases hcontrol : IsControl ctrl
    · rw [if_neg fun hno => hno.2 hcontrol, if_pos hcontrol]
      refine ⟨h.inOrder, h.recorded, ?_, ?_, fun _ => rfl⟩
      · rintro _ ⟨⟩ hno
        exact absurd hcontrol hno
      · intro _ hstore
        cases hstore
    · rw [if_pos ⟨hidle, hcontrol⟩, if_neg hcontrol]
      refine ⟨h.inOrder.give ctrl, h.recorded.give h.inOrder ctrl, ?_, ?_, fun _ => rfl⟩
      · rintro _ ⟨⟩ -
        exact h.inOrder.unstored ctrl
      · intro _ hstore
        cases hstore
  · rw [if_neg hidle, if_neg fun hno => hidle hno.1]
    exact h

theorem Ordered.setWiFiCtrl (h : Ordered us s) :
    Ordered ((s.use .set).toList ++ us) s.setWiFiCtrl := by
  rw [WiFiThread.setWiFiCtrl, use]
  cases hset : s.setting with
  | idle => exact h
  | test ctrl =>
    refine ⟨h.inOrder, h.recorded, ?_, ?_, h.flag⟩
    · intro c hc
      change (if IsControl ctrl then SetStep.idle else .store ctrl) = .test c at hc
      split_ifs at hc
    · intro c hc
      change (if IsControl ctrl then SetStep.idle else .store ctrl) = .store c at hc
      split_ifs at hc with hcontrol
      cases hc
      exact h.test _ hset hcontrol
  | store ctrl =>
    have hlast := h.store ctrl hset
    refine ⟨h.inOrder.store hlast.getLast?_given, h.recorded.store hlast, ?_, ?_, h.flag⟩
    · intro _ hc
      cases hc
    · intro _ hc
      cases hc

theorem step_testFlag (hpoll : s.polling = .testFlag) :
    s.step .poll = (if s.setCtrlCmd then { s with polling := .operate } else s, none) := by
  rw [step, WiFiThread.pollingNetworkRutine, hpoll]

theorem step_operate (hpoll : s.polling = .operate) :
    s.step .poll = ({ s with polling := .clearFlag, operated := s.stored :: s.operated },
      some (s.stored, s.wifiCtrl)) := by
  rw [step, WiFiThread.pollingNetworkRutine, hpoll]

theorem step_clearFlag (hpoll : s.polling = .clearFlag) :
    s.step .poll = ({ s with setCtrlCmd := false, polling := .testFlag }, none) := by
  rw [step, WiFiThread.pollingNetworkRutine, hpoll]

theorem Ordered.poll (h : Ordered us s) (htime : InTime us s .poll) :
    Ordered ((s.use .poll).toList ++ us) (s.step .poll).1 := by
  rw [use]
  cases hpoll : s.polling with
  | testFlag =>
    rw [step_testFlag hpoll]
    by_cases hflag : s.setCtrlCmd = true
    · rw [if_pos hflag]
      exact ⟨h.inOrder, h.recorded, h.test, h.store, fun _ => hflag⟩
    · rw [if_neg hflag]
      exact h
  | operate =>
    have hsince := htime.operate rfl hpoll
    rw [step_operate hpoll]
    exact ⟨h.inOrder.take (Nat.le_of_lt (h.recorded.storedSince.1 hsince)),
      h.recorded.take hsince, fun ctrl hctrl hno => (h.test ctrl hctrl hno).take,
      fun ctrl hctrl => (h.store ctrl hctrl).take, fun _ => h.flag (by simp [hpoll])⟩
  | clearFlag =>
    rw [step_clearFlag hpoll]
    exact ⟨h.inOrder, h.recorded, h.test, h.store, fun hno => absurd rfl hno⟩

theorem ordered_step (s : WiFiThread) (t : WiFiTurn) (h : Ordered us s) (htime : InTime us s t) :
    Ordered ((s.use t).toList ++ us) (s.step t).1 := by
  cases t with
  | call ctrl => exact h.call ctrl
  | set => exact h.setWiFiCtrl
  | poll => exact h.poll htime

/-! ## Runs -/

theorem NothingLost.call (hl : s.NothingLost) (ctrl : WifiSetting) : (s.call ctrl).NothingLost := by
  rw [WiFiThread.call]
  by_cases hidle : s.setting = .idle
  · rw [if_pos hidle]
    intro hflag
    cases hflag
  · rwa [if_neg hidle]

/-- Storing a setting gives and operates none. -/
theorem NothingLost.setWiFiCtrl (hl : s.NothingLost) : s.setWiFiCtrl.NothingLost := by
  rw [WiFiThread.setWiFiCtrl]
  split <;> exact hl

/-- A test of the flag satisfies what it has to. -/
theorem exactlyOnce_testFlag (hl : s.NothingLost) (hpoll : s.polling = .testFlag) :
    ExactlyOnce ⟨s, .poll, (s.step .poll).1, (s.step .poll).2⟩ := by
  rw [step_testFlag hpoll]
  refine ⟨fun _ _ hout => (by cases hout), ?_⟩
  change NothingLost (if s.setCtrlCmd then { s with polling := .operate } else s)
  split_ifs
  · intro _ hop
    cases hop
  · exact hl

/-- A setting is operated once exactly if it has been stored since the last operation. -/
theorem Ordered.exactlyOnce_operate_iff (h : Ordered us s) (hpoll : s.polling = .operate) :
    ExactlyOnce ⟨s, .poll, (s.step .poll).1, (s.step .poll).2⟩ ↔ InTime us s .poll := by
  rw [step_operate hpoll]
  constructor
  · intro honce
    have hfresh := h.inOrder.fresh_iff.1 (honce.fresh _ _ rfl)
    refine ⟨fun _ _ => h.recorded.storedSince.2 hfresh, fun _ hclear => ?_⟩
    rw [hpoll] at hclear
    cases hclear
  · intro htime
    have hfresh := h.inOrder.fresh_iff.2 (h.recorded.storedSince.1 (htime.operate rfl hpoll))
    refine ⟨?_, fun _ hop => by cases hop⟩
    rintro _ _ ⟨⟩
    exact hfresh

/-- No setting is lost by clearing the flag exactly if the last one given was operated last. -/
theorem Ordered.exactlyOnce_clearFlag_iff (h : Ordered us s) (hpoll : s.polling = .clearFlag) :
    ExactlyOnce ⟨s, .poll, (s.step .poll).1, (s.step .poll).2⟩ ↔ InTime us s .poll := by
  rw [step_clearFlag hpoll]
  constructor
  · intro honce
    refine ⟨fun _ hop => ?_, fun _ _ => h.recorded.lastServed.2 ?_⟩
    · rw [hpoll] at hop
      cases hop
    · by_cases hne : s.given = []
      · have hle := h.inOrder.lastTaken_le
        rw [hne] at hle ⊢
        exact Nat.le_zero.1 hle
      · exact (h.inOrder.length_mem_iff hne).1 (honce.kept rfl rfl hne)
  · intro htime
    refine ⟨fun _ _ hout => (by cases hout), fun _ _ hne => ?_⟩
    exact (h.inOrder.length_mem_iff hne).2 (h.recorded.lastServed.1 (htime.clear rfl hpoll))

/-- A step satisfies what it has to exactly if it is in time. -/
theorem Ordered.exactlyOnce_step_iff (h : Ordered us s) (hl : s.NothingLost) (t : WiFiTurn) :
    ExactlyOnce ⟨s, t, (s.step t).1, (s.step t).2⟩ ↔ InTime us s t := by
  cases t with
  | call ctrl =>
    refine iff_of_true ⟨fun _ _ hout => ?_, hl.call ctrl⟩ ⟨?_, ?_⟩
    · cases hout
    all_goals intro ht; cases ht
  | set =>
    refine iff_of_true ⟨fun _ _ hout => ?_, hl.setWiFiCtrl⟩ ⟨?_, ?_⟩
    · cases hout
    all_goals intro ht; cases ht
  | poll =>
    cases hpoll : s.polling with
    | testFlag =>
      refine iff_of_true (exactlyOnce_testFlag hl hpoll) ⟨fun _ hop => ?_, fun _ hop => ?_⟩
      all_goals rw [hpoll] at hop; cases hop
    | operate => exact h.exactlyOnce_operate_iff hpoll
    | clearFlag => exact h.exactlyOnce_clearFlag_iff hpoll

/-- For every sequence of calls and every interleaving with the polling thread, every step
satisfies what it has to exactly when every step is in time. -/
theorem exactlyOnce_iff (ts : List WiFiTurn) :
    (∀ t ∈ trace step {} ts, ExactlyOnce t) ↔
      ∀ past t rest, trace step {} ts = past ++ t :: rest →
        InTime (uses past) t.before t.input := by
  have hordered : Ordered (uses []) ({} : WiFiThread) :=
    ⟨InOrder.nil _, Recorded.nil, by simp, by simp, by simp⟩
  refine @forall_trace_iff_forall_history _ _ _ step ExactlyOnce
    (fun past t => InTime (uses past) t.before t.input)
    (fun past s => Ordered (uses past) s ∧ NothingLost s)
    (fun past s t h => h.1.exactlyOnce_step_iff h.2 t) (fun past s t h htime => ⟨?_, ?_⟩) ts [] {}
    ⟨hordered, fun _ _ hne => absurd rfl hne⟩
  · rw [uses_snoc]
    exact ordered_step s t h.1 htime
  · exact ((h.1.exactlyOnce_step_iff h.2 t).2 htime).kept

/-- A first `E_WIFI_CLOSE` makes the polling thread operate the empty setting. -/
theorem not_exactlyOnce :
    ¬∀ ts : List WiFiTurn, ∀ t ∈ trace step {} ts, ExactlyOnce t := by
  intro h
  have honce := h [.call { wifiFunc := .close }, .poll, .poll] ⟨_, .poll, _, _⟩
    (List.mem_of_getLast? rfl)
  obtain ⟨⟨i, hi, -⟩, -⟩ := honce.fresh 0 {} rfl
  cases hi

end WiFiThread

end Mastiff.Soc

import Mastiff.CommandOutcome

/-!
# The published state

`ExposeStatMode` hands out the message that `UpdataInferMachine` fills in. Some operations
fill it in whatever they change (`Publishes`), the others leave it and may change what it
tells (`Keeps`). `published_iff` : over a run the message tells the machine's own fields
after every operation exactly when the first operation publishes and none after it changes
a field it does not publish.
-/

set_option linter.unusedSectionVars false

namespace Mastiff.Brain

open Machine

namespace InferMachine

/-- The message tells the machine's fields. -/
structure Published (m : InferMachine) : Prop where
  status : m.smModeStat.status = m.status
  mode : m.smModeStat.mode = m.mode
  error : m.smModeStat.error = m.error
  battery : m.smModeStat.battery = m.battery.signExtend 32
  fan : m.smModeStat.fan = m.fan.signExtend 32
  flow : m.smModeStat.flow = m.flow.signExtend 32
  boost : m.smModeStat.boost = m.boost

/-- The operation fills in the message from every settled machine that is not pending. -/
def Publishes (m : InferMachine) : Operation → Prop
  | .eventOnDock _ => True
  | .eventChargeFull _ => True
  | .start => True
  | .updataBattery _ => False
  | .updataFan _ => False
  | .updataFlow _ => False
  | .updataBoost _ => False
  | op => ∃ c, m.command op = some c ∧ c.ctrl = .start

/-- The operation leaves a message that tells the machine's fields telling them. A
telemetry update must not change its field, and a command must not repair a pending
machine into another status or mode, unless it is a START, which publishes. -/
def Keeps (m : InferMachine) : Operation → Prop
  | .updataBattery bat => bat.setWidth 16 = m.battery
  | .updataFan fan => fan.setWidth 16 = m.fan
  | .updataFlow flow => flow.setWidth 16 = m.flow
  | .updataBoost boost => decide (boost ≠ 0) = m.boost
  | op => ∀ c, m.command op = some c → m.isPending = true →
      c.ctrl = .start ∨ m.workState = ⟨.nowork, .standBy⟩

variable {m : InferMachine}

theorem published_updataInferMachine (m : InferMachine) : Published m.updataInferMachine.1 :=
  ⟨rfl, rfl, rfl, rfl, rfl, rfl, rfl⟩

/-! ## One command -/

/-- A command that is accepted publishes. -/
theorem published_of_accepted {c : Command} (h : (c.drive m).accepted = true) :
    Published (c.drive m).machine := by
  cases hr : (m.prepare c.mode).control c.ctrl (actKey c.key) c.mode with
  | ok m' =>
    rw [drive_of_ok hr]
    exact published_updataInferMachine m'
  | error m' =>
    rw [drive_of_error hr] at h
    cases h

/-- A command that is rejected leaves the message, the prepared status and mode, and the
rest. -/
theorem Settled.published_of_rejected (hs : Settled m) {c : Command}
    (h : (c.drive m).accepted = false) :
    Published (c.drive m).machine ↔ Published (m.prepare c.mode) := by
  rw [hs.drive_rejected h]
  cases c.ctrl.handled
  · exact ⟨fun hp => ⟨hp.status, hp.mode, hp.error, hp.battery, hp.fan, hp.flow, hp.boost⟩,
      fun hp => ⟨hp.status, hp.mode, hp.error, hp.battery, hp.fan, hp.flow, hp.boost⟩⟩
  · exact Iff.rfl

/-- On a machine that tells its fields, a command goes on telling them unless it repairs a
pending machine out of sight. -/
theorem Settled.published_drive_iff (hs : Settled m) (hp : Published m) (c : Command) :
    Published (c.drive m).machine ↔
      (m.isPending = true → c.ctrl = .start ∨ m.workState = ⟨.nowork, .standBy⟩) := by
  cases hpend : m.isPending with
  | false =>
    refine iff_of_true ?_ (fun h => by cases h)
    cases hacc : (c.drive m).accepted with
    | true => exact published_of_accepted hacc
    | false =>
      rw [hs.published_of_rejected hacc, prepare_of_not_pending hpend]
      exact ⟨hp.status, hp.mode, hp.error, hp.battery, hp.fan, hp.flow, hp.boost⟩
  | true =>
    have hprep := hs.prepare_of_pending hpend c.mode
    have hno : (m.prepare c.mode).status = .nowork := by rw [hprep]
    by_cases hstart : c.ctrl = .start
    · exact iff_of_true (published_of_accepted (accepted_start hstart hno))
        (fun _ => .inl hstart)
    · rw [hs.published_of_rejected (rejected_of_nowork hstart hno), hprep]
      constructor
      · intro h _
        refine .inr ?_
        rw [workState, ← hp.status, ← hp.mode, WorkState.mk.injEq]
        exact ⟨h.status, h.mode⟩
      · intro h
        rcases h rfl with h | h
        · exact absurd h hstart
        · rw [workState, WorkState.mk.injEq] at h
          exact ⟨hp.status.trans h.1, hp.mode.trans h.2, hp.error, hp.battery, hp.fan, hp.flow,
            hp.boost⟩

/-! ## One operation -/

/-- The sign extension of a member tells the member. -/
theorem signExtend_eq_iff {x y : BitVec 16} : x.signExtend 32 = y.signExtend 32 ↔ x = y := by
  constructor
  · intro h
    have hx := congrArg BitVec.toInt h
    rw [BitVec.toInt_signExtend_of_le (by omega), BitVec.toInt_signExtend_of_le (by omega)] at hx
    exact BitVec.eq_of_toInt_eq hx
  · rintro rfl
    rfl

/-- An operation goes on telling the machine's fields exactly when it `Keeps` them. -/
theorem published_step_iff (h : Quiet m ∧ Settled m) (hp : Published m) (op : Operation) :
    Published (m.step op).1 ↔ Keeps m op := by
  obtain ⟨hq, hs⟩ := h
  rcases hc : m.command op with _ | c
  · cases op with
    | missionCommand mc =>
      rw [step_missionCommand_of_none hc]
      exact iff_of_true hp (fun c hc' => by simp [hc] at hc')
    | taskShift | pushPowerKey | pushPowerKeyLong | pushHomeKey | pushHomeKeyLong => cases hc
    | eventOnDock | eventChargeFull | start =>
      exact iff_of_true (published_updataInferMachine _) (fun c hc' => by simp [hc] at hc')
    | updataBattery bat =>
      constructor
      · intro h
        exact (signExtend_eq_iff.1 (hp.battery.symm.trans h.battery)).symm
      · intro h
        exact ⟨hp.status, hp.mode, hp.error, hp.battery.trans (signExtend_eq_iff.2 h.symm), hp.fan,
          hp.flow, hp.boost⟩
    | updataFan fan =>
      constructor
      · intro h
        exact (signExtend_eq_iff.1 (hp.fan.symm.trans h.fan)).symm
      · intro h
        exact ⟨hp.status, hp.mode, hp.error, hp.battery, hp.fan.trans (signExtend_eq_iff.2 h.symm),
          hp.flow, hp.boost⟩
    | updataFlow flow =>
      constructor
      · intro h
        exact (signExtend_eq_iff.1 (hp.flow.symm.trans h.flow)).symm
      · intro h
        exact ⟨hp.status, hp.mode, hp.error, hp.battery, hp.fan,
          hp.flow.trans (signExtend_eq_iff.2 h.symm), hp.boost⟩
    | updataBoost boost =>
      constructor
      · intro h
        exact (hp.boost.symm.trans h.boost).symm
      · intro h
        exact ⟨hp.status, hp.mode, hp.error, hp.battery, hp.fan, hp.flow, hp.boost.trans h.symm⟩
  · have hkeeps : Keeps m op ↔
        (m.isPending = true → c.ctrl = .start ∨ m.workState = ⟨.nowork, .standBy⟩) := by
      cases op with
      | eventOnDock | eventChargeFull | updataBattery | updataFan | updataFlow | updataBoost
      | start => cases hc
      | missionCommand | taskShift | pushPowerKey | pushPowerKeyLong | pushHomeKey
      | pushHomeKeyLong => simp [Keeps, hc]
    rw [hkeeps, step_of_command hq hc]
    exact hs.published_drive_iff hp c

/-- A machine without a job that has published nothing tells its fields after an operation
exactly when the operation publishes. -/
theorem published_first_iff (h : Quiet m ∧ Settled m) (hstat : m.smModeStat.status = .sentinel)
    (hno : m.status = .nowork) (hpend : m.isPending = false) (op : Operation) :
    Published (m.step op).1 ↔ Publishes m op := by
  obtain ⟨hq, hs⟩ := h
  have hnot : ∀ {m' : InferMachine}, m'.smModeStat.status = .sentinel → m'.status = .nowork →
      ¬Published m' := by
    intro m' hs' hn' hp
    rw [hp.status, hn'] at hs'
    cases hs'
  rcases hc : m.command op with _ | c
  · cases op with
    | missionCommand mc =>
      rw [step_missionCommand_of_none hc]
      exact iff_of_false (hnot hstat hno) (fun ⟨c, hc', _⟩ => by simp [hc] at hc')
    | taskShift | pushPowerKey | pushPowerKeyLong | pushHomeKey | pushHomeKeyLong => cases hc
    | eventOnDock | eventChargeFull | start =>
      exact iff_of_true (published_updataInferMachine _) trivial
    | updataBattery | updataFan | updataFlow | updataBoost =>
      exact iff_of_false (hnot hstat hno) id
  · have hpub : Publishes m op ↔ c.ctrl = .start := by
      cases op with
      | eventOnDock | eventChargeFull | updataBattery | updataFan | updataFlow | updataBoost
      | start => cases hc
      | missionCommand | taskShift | pushPowerKey | pushPowerKeyLong | pushHomeKey
      | pushHomeKeyLong => simp [Publishes, hc]
    have hprep : (m.prepare c.mode).status = .nowork := by rw [prepare_of_not_pending hpend, hno]
    rw [hpub, step_of_command hq hc]
    by_cases hstart : c.ctrl = .start
    · exact iff_of_true (published_of_accepted (accepted_start hstart hprep)) hstart
    · refine iff_of_false ?_ hstart
      rw [Drive.effect, hs.published_of_rejected (rejected_of_nowork hstart hprep),
        prepare_of_not_pending hpend]
      exact hnot hstat hno

/-! ## Runs -/

/-- After every operation of a run from `Init` the message tells the machine's fields
exactly when the first operation publishes and each later one keeps them. -/
theorem published_iff (w : CleanMode) (op : Operation) (ops : List Operation) :
    (∀ t ∈ trace step (init { workMode := w }) (op :: ops), Published t.after) ↔
      Publishes (init { workMode := w }) op ∧
        ∀ t ∈ trace step (step (init { workMode := w }) op).1 ops, Keeps t.before t.input := by
  have hinit := And.intro (quiet_init w) (settled_init w)
  rw [trace, List.forall_mem_cons, ← published_first_iff hinit rfl rfl rfl]
  refine and_congr_right fun hp => ?_
  exact forall_trace_iff (fun m => Quiet m ∧ Settled m) settled_step
    (fun m op h hm => published_step_iff h hm op) ops
    (settled_step _ op hinit) hp

/-- After `Start`, a battery report is not published. -/
theorem not_published :
    ¬∀ (w : CleanMode) (ops : List Operation),
      ∀ t ∈ trace step (init { workMode := w }) (.start :: ops), Published t.after := by
  intro h
  have hp := h .cleanGlobal [.updataBattery 50] _ (List.mem_cons_of_mem _ (List.mem_cons_self ..))
  exact absurd hp.battery (by decide)

end InferMachine

end Mastiff.Brain

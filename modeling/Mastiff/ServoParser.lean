import Mathlib.Tactic.Abel
import Mastiff.Lib.Machine
import Mastiff.ServoDriver

/-!
# Odometry from wheel reports

`ServoParser::ParseCanBuffer` (`parse_libs/servo_parser.cc`) runs one CAN message through
the driver and, on a right-wheel report, through `ParseSigleFrame`, which turns the
encoder ticks since the last call into a pose step. The pose is floating point and not
modelled; an `OdomStep` keeps the integers it is computed from.

The differences telescope : after any run of reports that reach the parser, the ticks of
all calls add up to the way of the encoders since the start, modulo `2 ^ 32`
(`conservesTicks`). A report is lost when the driver takes it for an echo, and when its
speed and encoder are both `-1`, which the parser reads as no report.
-/

set_option linter.unusedSectionVars false

open Memory Machine Bytes

namespace Mastiff

/-- The integer members of `ServoParser`, with the driver's register tables. -/
structure ServoParser where
  leftRpm : CInt
  lastLeftRpm : CInt
  rightRpm : CInt
  lastRightRpm : CInt
  leftEncoder : CInt
  lastLeftEncoder : CInt
  rightEncoder : CInt
  lastRightEncoder : CInt
  leftStatus : CInt
  rightStatus : CInt
  odomSeq : CInt
  tables : ServoMotorTables
  deriving DecidableEq

/-- What `ParseSigleFrame` publishes, before it is scaled to metres and radians. -/
structure OdomStep where
  seq : CInt
  leftTicks : CInt
  rightTicks : CInt
  leftRpm : CInt
  rightRpm : CInt
  deriving DecidableEq

namespace ServoParser

/-- `ParseSigleFrame`. -/
def parseSigleFrame (p : ServoParser) : ServoParser × OdomStep :=
  ({ p with odomSeq := p.odomSeq + 1 },
    { seq := p.odomSeq
      leftTicks := p.leftEncoder - p.lastLeftEncoder
      rightTicks := p.rightEncoder - p.lastRightEncoder
      leftRpm := p.leftRpm
      rightRpm := p.rightRpm })

/-- The outputs before the driver is called. -/
def noReport : ServoMotorInfo :=
  ⟨-1, -1, -1, -1, -1, -1⟩

/-- The left-wheel branch of `ParseCanBuffer`. -/
def takeLeft (p : ServoParser) (info : ServoMotorInfo) : ServoParser :=
  if info.speedLeft ≠ -1 ∨ info.encoderLeft ≠ -1 then
    { p with leftRpm := info.speedLeft, leftEncoder := info.encoderLeft }
  else p

/-- The right-wheel branch of `ParseCanBuffer`, with the calls of `ParseSigleFrame`. -/
def takeRight (p : ServoParser) (info : ServoMotorInfo) : ServoParser × List OdomStep :=
  if info.speedRight ≠ -1 ∨ info.encoderRight ≠ -1 then
    let p := { p with rightRpm := -info.speedRight, rightEncoder := -info.encoderRight }
    let r := p.parseSigleFrame
    let p := r.1
    ({ p with
      lastLeftEncoder := p.leftEncoder
      lastRightEncoder := p.rightEncoder
      lastLeftRpm := p.leftRpm
      lastRightRpm := p.rightRpm }, [r.2])
  else (p, [])

/-- The status branches of `ParseCanBuffer`. -/
def takeStatus (p : ServoParser) (info : ServoMotorInfo) : ServoParser :=
  let p := if info.statusLeft ≠ -1 ∧ info.statusLeft ≠ 0x37 then
    { p with leftStatus := info.statusLeft } else p
  if info.statusRight ≠ -1 ∧ info.statusRight ≠ 0x37 then
    { p with rightStatus := info.statusRight } else p

/-- `ParseCanBuffer(si, buf, len)`, with the calls of `ParseSigleFrame` it makes. -/
def parseCanBuffer (p : ServoParser) (buf : List Byte) (len : ℕ) :
    Except Fault (ServoParser × List OdomStep) := do
  let (info, tables) ← parseServoMotorInfo buf len noReport p.tables
  let p := { p with tables := tables }
  let p := p.takeLeft info
  let (p, odom) := p.takeRight info
  return (p.takeStatus info, odom)

/-! ## Runs of wheel reports -/

/-- A wheel's report. -/
structure Report where
  wheel : Wheel
  speed : CInt
  encoder : CInt
  deriving DecidableEq

/-- One report through `ParseCanBuffer`. -/
def step (p : ServoParser) (r : Report) : Except Fault (ServoParser × List OdomStep) :=
  p.parseCanBuffer (wheelReport r.wheel r.speed r.encoder) 10

/-- The report is no echo to the driver and not `-1` twice to the parser. -/
def Report.Survives (r : Report) : Prop :=
  isEcho (lowByte r.speed) = false ∧ (r.speed ≠ -1 ∨ r.encoder ≠ -1)

instance (r : Report) : Decidable r.Survives :=
  inferInstanceAs (Decidable (_ ∧ _))

/-- What a surviving left report does. -/
def leftState (p : ServoParser) (r : Report) : ServoParser :=
  { p with leftRpm := r.speed, leftEncoder := r.encoder }

/-- What a surviving right report does. -/
def rightState (p : ServoParser) (r : Report) : ServoParser :=
  { p with
    rightRpm := -r.speed
    rightEncoder := -r.encoder
    odomSeq := p.odomSeq + 1
    lastLeftEncoder := p.leftEncoder
    lastRightEncoder := -r.encoder
    lastLeftRpm := p.leftRpm
    lastRightRpm := -r.speed }

/-- The call a surviving right report makes. -/
def rightOdom (p : ServoParser) (r : Report) : OdomStep where
  seq := p.odomSeq
  leftTicks := p.leftEncoder - p.lastLeftEncoder
  rightTicks := -r.encoder - p.lastRightEncoder
  leftRpm := p.leftRpm
  rightRpm := -r.speed

variable {p : ServoParser}

theorem takeLeft_left {speed encoder : CInt} (h : speed ≠ -1 ∨ encoder ≠ -1) :
    p.takeLeft (noReport.setWheel .left speed encoder) = p.leftState ⟨.left, speed, encoder⟩ :=
  if_pos h

theorem takeRight_right {speed encoder : CInt} (h : speed ≠ -1 ∨ encoder ≠ -1) :
    p.takeRight (noReport.setWheel .right speed encoder) =
      (p.rightState ⟨.right, speed, encoder⟩, [p.rightOdom ⟨.right, speed, encoder⟩]) :=
  if_pos h

theorem takeLeft_right (speed encoder : CInt) :
    p.takeLeft (noReport.setWheel .right speed encoder) = p := by
  simp [takeLeft, ServoMotorInfo.setWheel, noReport]

theorem takeRight_left (speed encoder : CInt) :
    p.takeRight (noReport.setWheel .left speed encoder) = (p, []) := by
  simp [takeRight, ServoMotorInfo.setWheel, noReport]

theorem takeStatus_setWheel (w : Wheel) (speed encoder : CInt) :
    p.takeStatus (noReport.setWheel w speed encoder) = p := by
  cases w <;> simp [takeStatus, ServoMotorInfo.setWheel, noReport]

variable (p)

theorem step_of_survives {r : Report} (h : r.Survives) :
    p.step r = .ok (match r.wheel with
      | .left => (p.leftState r, [])
      | .right => (p.rightState r, [p.rightOdom r])) := by
  obtain ⟨w, speed, encoder⟩ := r
  obtain ⟨hecho, hval⟩ := h
  rw [step, parseCanBuffer, parse_wheelReport w speed encoder _ _ hecho, ok_bind]
  cases w with
  | right => simp only [takeLeft_right, takeRight_right hval, takeStatus_setWheel, pure_eq_ok]
  | left => simp only [takeLeft_left hval, takeRight_left, takeStatus_setWheel, pure_eq_ok]

/-! ## Conservation -/

/-- The last encoder value a wheel reported, `d` before its first report. -/
def latest (w : Wheel) (d : CInt) (rs : List Report) : CInt :=
  rs.foldl (fun e r => if r.wheel = w then r.encoder else e) d

theorem latest_snoc (w : Wheel) (d : CInt) (rs : List Report) (r : Report) :
    latest w d (rs ++ [r]) = if r.wheel = w then r.encoder else latest w d rs := by
  simp [latest]

/-- The ticks of all calls so far. -/
def sumTicks (ticks : OdomStep → CInt) (calls : List (List OdomStep)) : CInt :=
  (calls.flatten.map ticks).sum

theorem sumTicks_snoc (ticks : OdomStep → CInt) (calls : List (List OdomStep))
    (c : List OdomStep) :
    sumTicks ticks (calls ++ [c]) = sumTicks ticks calls + (c.map ticks).sum := by
  simp [sumTicks]

/-- The run invariant : the parser holds the latest values and the `last_*` copies are
the start plus the ticks of all calls. -/
structure Accounts (p₀ p : ServoParser) (rs : List Report) (calls : List (List OdomStep)) :
    Prop where
  leftEncoder : p.leftEncoder = latest .left p₀.leftEncoder rs
  lastLeft : p.lastLeftEncoder = p₀.leftEncoder + sumTicks OdomStep.leftTicks calls
  lastRight : p.lastRightEncoder = p₀.rightEncoder + sumTicks OdomStep.rightTicks calls
  length_calls : calls.length = rs.length

/-- A surviving report keeps the accounts. -/
theorem Accounts.snoc {p₀ p : ServoParser} {rs : List Report} {calls : List (List OdomStep)}
    (h : Accounts p₀ p rs calls) {r : Report} (hr : r.Survives) :
    ∃ p' c, p.step r = .ok (p', c) ∧ Accounts p₀ p' (rs ++ [r]) (calls ++ [c]) ∧
      (r.wheel = .right → c.length = 1 ∧ p'.lastLeftEncoder = p'.leftEncoder ∧
        p'.lastRightEncoder = -r.encoder) := by
  have hstep := step_of_survives p hr
  cases hw : r.wheel with
  | left =>
    rw [hw] at hstep
    refine ⟨_, _, hstep, ⟨?_, ?_, ?_, by simp [h.length_calls]⟩, by simp⟩
    · simp [leftState, latest_snoc, hw]
    · simpa [leftState, sumTicks_snoc] using h.lastLeft
    · simpa [leftState, sumTicks_snoc] using h.lastRight
  | right =>
    rw [hw] at hstep
    refine ⟨_, _, hstep, ⟨?_, ?_, ?_, by simp [h.length_calls]⟩, fun _ => ⟨rfl, rfl, rfl⟩⟩
    · simpa [rightState, latest_snoc, hw] using h.leftEncoder
    · simp only [rightState, rightOdom, sumTicks_snoc, List.map_cons, List.map_nil,
        List.sum_singleton, h.lastLeft]
      abel
    · simp only [rightState, rightOdom, sumTicks_snoc, List.map_cons, List.map_nil,
        List.sum_singleton, h.lastRight]
      abel

/-- After every right report the parser has been called once for it, and the ticks of
all calls so far are the way of both encoders since the start. -/
def Conserves (p₀ : ServoParser) (rs : List Report) (calls : List (List OdomStep)) : Prop :=
  ∀ n (hn : n < rs.length), rs[n].wheel = .right →
    calls[n]?.map List.length = some 1 ∧
      sumTicks OdomStep.leftTicks (calls.take (n + 1)) =
        latest .left p₀.leftEncoder (rs.take (n + 1)) - p₀.leftEncoder ∧
      sumTicks OdomStep.rightTicks (calls.take (n + 1)) = -rs[n].encoder - p₀.rightEncoder

theorem Conserves.snoc {p₀ : ServoParser} {rs : List Report} {calls : List (List OdomStep)}
    {r : Report} {c : List OdomStep} (h : Conserves p₀ rs calls)
    (hlen : calls.length = rs.length)
    (hr : r.wheel = .right → c.length = 1 ∧
      sumTicks OdomStep.leftTicks (calls ++ [c]) =
        latest .left p₀.leftEncoder (rs ++ [r]) - p₀.leftEncoder ∧
      sumTicks OdomStep.rightTicks (calls ++ [c]) = -r.encoder - p₀.rightEncoder) :
    Conserves p₀ (rs ++ [r]) (calls ++ [c]) := by
  intro n hn hright
  rcases Nat.lt_or_ge n rs.length with hlt | hge
  · rw [List.getElem_append_left hlt] at hright ⊢
    rw [List.getElem?_append_left (by omega), List.take_append_of_le_length (by omega),
      List.take_append_of_le_length (by omega)]
    exact h n hlt hright
  · obtain rfl : n = rs.length := by simp at hn; omega
    rw [List.getElem_append_right (Nat.le_refl _)] at hright ⊢
    simp only [Nat.sub_self, List.getElem_cons_zero] at hright ⊢
    obtain ⟨hc, hleft, hrightTicks⟩ := hr hright
    rw [← hlen, List.getElem?_append_right (Nat.le_refl _), List.take_of_length_le (by simp),
      List.take_of_length_le (by simp [hlen])]
    exact ⟨by simp [hc], hleft, hrightTicks⟩

/-- A run of surviving reports neither fails nor loses a tick. -/
theorem accounts_run {p₀ : ServoParser} (hl : p₀.lastLeftEncoder = p₀.leftEncoder)
    (hr : p₀.lastRightEncoder = p₀.rightEncoder) (rs : List Report)
    (hrs : ∀ r ∈ rs, r.Survives) :
    ∃ p calls, tryRun step p₀ rs = .ok (p, calls) ∧ Accounts p₀ p rs calls ∧
      Conserves p₀ rs calls := by
  induction rs using List.reverseRecOn with
  | nil =>
    refine ⟨p₀, [], rfl, ⟨rfl, ?_, ?_, rfl⟩, fun n hn => by simp at hn⟩
    · simp [sumTicks, hl]
    · simp [sumTicks, hr]
  | append_singleton rs r ih =>
    obtain ⟨p, calls, hrun, hacc, hcons⟩ := ih fun r' hr' => hrs r' (by simp [hr'])
    obtain ⟨p', c, hstep, hacc', hright⟩ := hacc.snoc (hrs r (by simp))
    refine ⟨p', calls ++ [c], tryRun_snoc_of_ok hrun hstep, hacc', ?_⟩
    refine hcons.snoc hacc.length_calls fun hw => ?_
    obtain ⟨hc, hleft, hrightEnc⟩ := hright hw
    refine ⟨hc, ?_, ?_⟩
    · rw [← hacc'.leftEncoder, ← hleft, hacc'.lastLeft]
      abel
    · rw [← hrightEnc, hacc'.lastRight]
      abel

/-- Odometry conserves encoder ticks on every run whose reports all survive. -/
theorem conservesTicks {p₀ : ServoParser} (hl : p₀.lastLeftEncoder = p₀.leftEncoder)
    (hr : p₀.lastRightEncoder = p₀.rightEncoder) (rs : List Report)
    (hrs : ∀ r ∈ rs, r.Survives) :
    ∃ p calls, tryRun step p₀ rs = .ok (p, calls) ∧ Conserves p₀ rs calls := by
  obtain ⟨p, calls, hrun, -, hcons⟩ := accounts_run hl hr rs hrs
  exact ⟨p, calls, hrun, hcons⟩

/-- `ServoParser` as constructed. -/
def initial : ServoParser where
  leftRpm := 0
  lastLeftRpm := 0
  rightRpm := 0
  lastRightRpm := 0
  leftEncoder := 0
  lastLeftEncoder := 0
  rightEncoder := 0
  lastRightEncoder := 0
  leftStatus := 0
  rightStatus := 0
  odomSeq := 0
  tables := ⟨[], [], []⟩

/-- Both wheels forward by a few ticks, the right encoder counting down. -/
theorem conservesTicks_initial :
    ∃ p calls, tryRun step initial [⟨.left, 10, 100⟩, ⟨.right, -10, -100⟩, ⟨.right, -1, -120⟩] =
      .ok (p, calls) ∧
        Conserves initial [⟨.left, 10, 100⟩, ⟨.right, -10, -100⟩, ⟨.right, -1, -120⟩] calls :=
  conservesTicks rfl rfl _ (by decide)

/-- A right report at speed 35 is taken for an echo, and no call is made for it. -/
theorem not_conservesTicks :
    ¬∀ (p₀ : ServoParser), p₀.lastLeftEncoder = p₀.leftEncoder →
      p₀.lastRightEncoder = p₀.rightEncoder → ∀ rs : List Report,
        ∃ p calls, tryRun step p₀ rs = .ok (p, calls) ∧ Conserves p₀ rs calls := by
  intro h
  obtain ⟨p, calls, hrun, hcons⟩ := h initial rfl rfl [⟨.right, 35, 7⟩]
  have hlost : tryRun step initial [⟨.right, 35, 7⟩] = .ok (initial, [[]]) := by decide
  rw [hlost] at hrun
  obtain ⟨-, rfl⟩ := Prod.mk.inj (Except.ok.inj hrun)
  obtain ⟨hcall, -⟩ := hcons 0 (by simp) rfl
  simp at hcall

end ServoParser

end Mastiff

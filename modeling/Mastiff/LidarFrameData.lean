import Mathlib.Algebra.Order.BigOperators.Group.List
import Mastiff.LidarStartAngle
import Mastiff.LidarUart

/-!
# The points of a published scan

When `whole_data_process` reports a scan, `ParseUartBuffer` copies the points of its fans
into the array of `framedata`, which has `MAX_FRAMEPOINTS` cells. Only the spans of the
fans are added up before, and nothing compares the points with the array.

The fans held are those since the last one that ended at the start angle, so what is copied
is a stretch of the input (`held_since`). `framesFit_of_revolutionsFit` : over every
sequence of fans no copy goes past the array, and `framedata.N` is the number of points, if
no revolution among the fans after the start angle is found has more points than the array
has cells.
-/

set_option linter.unusedSectionVars false

open Memory Machine Circle Bytes

namespace Mastiff.Lidar

/-- A fan as the decoders make it : it has its `N` points, at most `MAX_POINTS`. -/
structure RawData.Within (f : RawData) : Prop where
  points : f.points.length = f.N.toNat
  le : f.N.toNat ≤ maxPoints

/-- The number of points of the fans. -/
def pointCount (fans : List RawData) : ℕ :=
  (fans.map fun f => f.N.toNat).sum

theorem length_flatten_points {fans : List RawData} (h : ∀ f ∈ fans, f.Within) :
    (fans.map RawData.points).flatten.length = pointCount fans := by
  rw [List.length_flatten, List.map_map, pointCount]
  exact congrArg List.sum (List.map_congr_left fun f hf => (h f hf).points)

theorem pointCount_append (fans fans' : List RawData) :
    pointCount (fans ++ fans') = pointCount fans + pointCount fans' := by
  rw [pointCount, List.map_append, List.sum_append]
  rfl

/-- The sums over the fans stay in the type. -/
structure SumsFit (fans : List RawData) : Prop where
  points : pointCount fans ≤ intMax
  number : fans.length ≤ intMax
  spans : totalSpan fans ≤ intMax

theorem SumsFit.sublist {fans fans' : List RawData} (h : SumsFit fans')
    (hsub : fans.Sublist fans') : SumsFit fans where
  points := ((hsub.map fun f => f.N.toNat).sum_le_sum fun _ _ => Nat.zero_le _).trans h.points
  number := hsub.length_le.trans h.number
  spans := ((hsub.map RawData.len).sum_le_sum fun _ _ => Nat.zero_le _).trans h.spans

/-- The sums of a list whose points, spans and number stay in the type. -/
theorem exists_sumLoop :
    ∀ {fans : List RawData} {count n angles : ℤ}, 0 ≤ count → 0 ≤ n → 0 ≤ angles →
      count + pointCount fans ≤ intMax → n + fans.length ≤ intMax →
      angles + totalSpan fans ≤ intMax → ∃ r, sumLoop fans count n angles = .ok r
  | [], count, n, angles, _, _, _, _, _, _ => ⟨_, rfl⟩
  | f :: fans, count, n, angles, hc, hn, ha, hcount, hnum, hang => by
    simp only [totalSpan, pointCount, List.map_cons, List.sum_cons, List.length_cons,
      Nat.cast_add, Nat.cast_one] at hcount hnum hang
    rw [sumLoop, intAdd_of_le (by omega) (by omega), ok_bind,
      intAdd_of_le (by omega) (by omega), ok_bind, intAdd_of_le (by omega) (by omega), ok_bind]
    exact exists_sumLoop (by omega) (by omega) (by omega) (by simp only [pointCount]; omega)
      (by omega) (by simp only [totalSpan]; omega)

/-! ## Reported scans -/

/-- Fans up to the first that ends at the start angle, with spans that add up to the
circle. -/
structure Revolution (start : ℤ) (fans : List RawData) : Prop where
  ends : ∃ body last, fans = body ++ [last] ∧ EndsAt start last ∧ ∀ f ∈ body, ¬EndsAt start f
  total : totalSpan fans = 3600

variable {start : ℤ} {datas : List RawData} {raw : RawData} {error error' : String}

/-- A reported scan ends at the start angle, adds up to the circle, and is all that is
held. -/
theorem wholeDataProcess_eq_one {held : List RawData}
    (h : wholeDataProcess raw start datas error = .ok (1, held, error')) :
    EndsAt start raw ∧ totalSpan (datas ++ [raw]) = 3600 ∧ held = datas ++ [raw] := by
  have hfan := takeFan_of_process h
  exact takeFan_eq_one hfan rfl

/-- Fans that end at the start angle and add up to the circle are reported, if their sums
stay in the type. -/
theorem wholeDataProcess_of_total (error : String) (hend : EndsAt start raw)
    (htotal : totalSpan (datas ++ [raw]) = 3600) (hcount : pointCount (datas ++ [raw]) ≤ intMax)
    (hlen : (datas ++ [raw]).length ≤ intMax) :
    wholeDataProcess raw start datas error = .ok (1, datas ++ [raw], error) := by
  have hmax : intMax = 2 ^ 31 - 1 := rfl
  obtain ⟨sums, hsums⟩ : ∃ r, sumLoop (datas ++ [raw]) 0 0 0 = .ok r :=
    exists_sumLoop le_rfl le_rfl le_rfl (by omega) (by omega) (by omega)
  have hang := sumLoop_angles hsums
  have hcircle : ¬sums.2.2 ≠ 3600 := by omega
  rw [wholeDataProcess, if_pos hend, hsums, ok_bind]
  exact if_neg hcircle

theorem wholeDataProcess_of_not_endsAt (hend : ¬EndsAt start raw) :
    wholeDataProcess raw start datas error = .ok (0, datas ++ [raw], error) := by
  rw [wholeDataProcess, if_neg hend]

/-! ## The fans after the start angle -/

/-- The start angle that `autoGetFirstAngle` finds among fans, the fans `raws` collected before
them, and the fans that come after. -/
def startFound : List RawData → List RawData → Option (ℤ × List RawData)
  | _, [] => none
  | raws, raw :: fans =>
    match autoGetFirstAngle raw raws "" with
    | .ok (state, raws, _) => if 0 ≤ state then some (state, fans) else startFound raws fans
    | .error _ => none

theorem startFound_append {start : ℤ} :
    ∀ {fans raws rest : List RawData}, startFound raws fans = some (start, rest) →
      ∀ more, startFound raws (fans ++ more) = some (start, rest ++ more)
  | [], _, _, h, _ => by cases h
  | raw :: fans, raws, rest, h, more => by
    rw [List.cons_append]
    rw [startFound] at h ⊢
    split at h
    · split_ifs at h ⊢ with hstate
      · obtain ⟨rfl, rfl⟩ := Prod.mk.inj (Option.some.inj h)
        rfl
      · exact startFound_append h more
    · cases h

/-- The text of the last error plays no part in the search. -/
theorem autoGetFirstAngle_text {raws : List RawData} {r : ℤ × List RawData × String}
    (h : autoGetFirstAngle raw raws error = .ok r) (text : String) :
    ∃ text', autoGetFirstAngle raw raws text = .ok (r.1, r.2.1, text') := by
  cases raws with
  | nil =>
    obtain rfl := Except.ok.inj h
    exact ⟨text, rfl⟩
  | cons first rest =>
    rw [autoGetFirstAngle] at h ⊢
    dsimp only at h ⊢
    split_ifs at h ⊢
    · obtain ⟨angles, hsum, h⟩ := bind_eq_ok.1 h
      rw [hsum, ok_bind]
      split_ifs at h ⊢ <;> obtain rfl := Except.ok.inj h <;> exact ⟨_, rfl⟩
    all_goals
      obtain rfl := Except.ok.inj h
      exact ⟨_, rfl⟩

namespace LidarParser

variable {p : LidarParser} {env : Env} {dat : RawData}

/-! ## One fan -/

/-- A decoded fan in the loop, with what the pass finds outside the parser. -/
def fanStep (p : LidarParser) (i : Env × RawData) :
    Except Fault (LidarParser × Option FrameData) :=
  p.takeFan i.1 i.2

/-- If the fan completes a scan, the points of the scan fit the array, all are copied, and
`N` counts them. -/
def FrameFits (p : LidarParser) (i : Env × RawData) : Prop :=
  p.startAngle ≠ -1 → ∀ held error,
    wholeDataProcess i.2 p.startAngle p.wholeDatas p.error = .ok (1, held, error) →
      pointCount held ≤ maxFramePoints ∧
        ∃ p' frame, p.fanStep i = .ok (p', some frame) ∧
          frame.data = (held.map RawData.points).flatten ∧
          frame.data.length = pointCount held ∧ frame.N.toNat = pointCount held

/-- The parser looks for the start angle. -/
structure Searching (p : LidarParser) : Prop where
  startAngle : p.startAngle = -1
  state : p.state < 0
  chained : Chained RawData.start RawData.len 3600 p.wholeDatas

/-- A fan while the start angle is looked for. -/
theorem Searching.fanStep_eq (h : Searching p) (i : Env × RawData) : p.fanStep i = do
    let r ← autoGetFirstAngle i.2 p.wholeDatas p.error
    let p := { p with state := r.1, wholeDatas := r.2.1, error := r.2.2 }
    return (if 0 ≤ r.1 then { p with startAngle := r.1, action := .online } else p, none) := by
  rw [LidarParser.fanStep, takeFan, if_pos h.startAngle, firstAngle, if_pos h.state]
  cases autoGetFirstAngle i.2 p.wholeDatas p.error <;> rfl

/-- A fan leaves the search going on, or the start angle found and no fan held. -/
theorem Searching.fanStep (h : Searching p) {i : Env × RawData} {p' : LidarParser}
    {frame : Option FrameData} (hr : p.fanStep i = .ok (p', frame)) :
    ∃ state error, autoGetFirstAngle i.2 p.wholeDatas p.error = .ok (state, p'.wholeDatas, error) ∧
      if 0 ≤ state then p'.startAngle = state ∧ p'.wholeDatas = [] else Searching p' := by
  rw [h.fanStep_eq] at hr
  obtain ⟨⟨state, wholeDatas, error⟩, hauto, hout⟩ := bind_eq_ok.1 hr
  obtain ⟨rfl, -⟩ := Prod.mk.inj (Except.ok.inj hout)
  have hpicks := autoGetFirstAngle_spec h.chained hauto
  dsimp only
  by_cases hstate : 0 ≤ state
  · rw [if_pos hstate]
    refine ⟨state, error, hauto, ?_⟩
    rw [if_pos hstate]
    exact ⟨rfl, hpicks.empty hstate⟩
  · rw [if_neg hstate]
    refine ⟨state, error, hauto, ?_⟩
    rw [if_neg hstate]
    exact ⟨h.startAngle, not_le.1 hstate, hpicks.after⟩

/-- A call that goes through does so with any text. -/
theorem Searching.exists_fanStep (h : Searching p) {i : Env × RawData}
    {r : ℤ × List RawData × String} {error : String}
    (hr : autoGetFirstAngle i.2 p.wholeDatas error = .ok r) :
    ∃ p', p.fanStep i = .ok (p', none) := by
  obtain ⟨error', hauto⟩ := autoGetFirstAngle_text hr p.error
  rw [h.fanStep_eq, hauto]
  exact ⟨_, rfl⟩

/-- With a start angle, a fan is held until one ends there. -/
theorem fanStep_held (hstart : p.startAngle ≠ -1) {i : Env × RawData}
    {out : LidarParser × Option FrameData} (hr : p.fanStep i = .ok out) :
    out.1.startAngle = p.startAngle ∧
      out.1.wholeDatas = if EndsAt p.startAngle i.2 then [] else p.wholeDatas ++ [i.2] := by
  obtain ⟨outcome, hfan, -⟩ := takeFan_wholeDatas hstart hr
  refine ⟨?_, takeFan_held hfan⟩
  rw [LidarParser.fanStep, takeFan, if_neg hstart] at hr
  obtain ⟨⟨ret, wholeDatas, error⟩, -, hout⟩ := bind_eq_ok.1 hr
  dsimp only at hout
  by_cases hret : ret = 1
  · rw [if_pos hret] at hout
    obtain ⟨data, -, hout⟩ := bind_eq_ok.1 hout
    rw [← Except.ok.inj hout]
    split_ifs <;> rfl
  · rw [if_neg hret] at hout
    rw [← Except.ok.inj hout]
    split_ifs <;> rfl

/-- A fan that does not end at the start angle goes through. -/
theorem fanStep_of_not_endsAt (hstart : p.startAngle ≠ -1) {i : Env × RawData}
    (hend : ¬EndsAt p.startAngle i.2) : ∃ p', p.fanStep i = .ok (p', none) := by
  refine ⟨{ p with wholeDatas := p.wholeDatas ++ [i.2] }, ?_⟩
  rw [LidarParser.fanStep, takeFan, if_neg hstart, wholeDataProcess_of_not_endsAt hend, ok_bind]
  simp

/-- A fan that completes a scan whose points fit the array goes through, with all of them. -/
theorem frameFits_of_le {i : Env × RawData} (hwithin : ∀ f ∈ p.wholeDatas ++ [i.2], f.Within)
    (hle : p.startAngle ≠ -1 → EndsAt p.startAngle i.2 →
      totalSpan (p.wholeDatas ++ [i.2]) = 3600 →
        pointCount (p.wholeDatas ++ [i.2]) ≤ maxFramePoints) : p.FrameFits i := by
  intro hstart held error hprocess
  obtain ⟨hend, htotal, rfl⟩ := wholeDataProcess_eq_one hprocess
  have hcount := hle hstart hend htotal
  have hlength := length_flatten_points hwithin
  refine ⟨hcount, ?_⟩
  have hcopy : copyPoints (p.wholeDatas ++ [i.2]) =
      .ok ((p.wholeDatas ++ [i.2]).map RawData.points).flatten := by
    rw [copyPoints, if_neg (by rw [hlength]; omega)]
  obtain ⟨frame, hframe⟩ : ∃ frame : FrameData, frame =
      { N := BitVec.ofNat 16 ((p.wholeDatas ++ [i.2]).map RawData.points).flatten.length
        ts := (BitVec.ofNat 32 i.1.sec, BitVec.ofNat 32 i.1.usec)
        data := ((p.wholeDatas ++ [i.2]).map RawData.points).flatten } := ⟨_, rfl⟩
  have hstep : ∃ p', p.fanStep i = .ok (p', some frame) := by
    rw [LidarParser.fanStep, takeFan, if_neg hstart, hprocess, ok_bind]
    have hno : ¬(Action.run.toNat ≤ p.action.toNat ∧ (1 : ℤ) = -1) := by simp
    dsimp only
    rw [if_neg hno, if_pos rfl, hcopy, hframe]
    exact ⟨_, rfl⟩
  obtain ⟨p', hp'⟩ := hstep
  have hmax : maxFramePoints = 10000 := rfl
  refine ⟨p', frame, hp', by rw [hframe], by rw [hframe, hlength], ?_⟩
  rw [hframe, BitVec.toNat_ofNat, hlength, Nat.mod_eq_of_lt (by omega)]

/-! ## The fans held -/

/-- Fans that do not end at the start angle are held. -/
theorem exists_tryRun_body :
    ∀ (body : List (Env × RawData)) {p : LidarParser}, p.startAngle ≠ -1 →
      (∀ i ∈ body, ¬EndsAt p.startAngle i.2) →
      ∃ p' frames, tryRun LidarParser.fanStep p body = .ok (p', frames) ∧
        p'.startAngle = p.startAngle ∧ p'.wholeDatas = p.wholeDatas ++ body.map Prod.snd
  | [], p, _, _ => ⟨p, [], rfl, rfl, by simp⟩
  | i :: body, p, hstart, hbody => by
    obtain ⟨hend, hbody⟩ := List.forall_mem_cons.1 hbody
    obtain ⟨p₁, hp₁⟩ := fanStep_of_not_endsAt hstart hend
    obtain ⟨hstart₁, hheld₁⟩ := fanStep_held hstart hp₁
    rw [if_neg hend] at hheld₁
    dsimp only at hstart₁ hheld₁
    obtain ⟨p', frames, hrun, hstart', hheld'⟩ :=
      exists_tryRun_body body (hstart₁ ▸ hstart) (hstart₁ ▸ hbody)
    refine ⟨p', none :: frames, ?_, hstart'.trans hstart₁, ?_⟩
    · rw [tryRun_cons_of_ok hp₁, hrun]
      rfl
    · rw [hheld', hheld₁, List.map_cons, List.append_assoc]
      rfl

/-- A run that finds no start angle goes on looking for it, and one that finds it has come to the
last fan of the search, with no fan held. -/
theorem Searching.run (h : Searching p) {fans : List (Env × RawData)} {p' : LidarParser}
    {frames : List (Option FrameData)}
    (hrun : tryRun LidarParser.fanStep p fans = .ok (p', frames)) :
    Searching p' ∨ ∃ first rest p₁ frames₁, fans = first ++ rest ∧
      startFound p.wholeDatas (fans.map Prod.snd) = some (p₁.startAngle, rest.map Prod.snd) ∧
        p₁.startAngle ≠ -1 ∧ p₁.wholeDatas = [] ∧
          tryRun LidarParser.fanStep p₁ rest = .ok (p', frames₁) := by
  induction fans generalizing p frames with
  | nil =>
    obtain ⟨rfl, -⟩ := Prod.mk.inj (Except.ok.inj hrun)
    exact .inl h
  | cons i fans ih =>
    obtain ⟨⟨p₀, frame⟩, hstep, hout⟩ := bind_eq_ok.1 hrun
    obtain ⟨⟨p₁, frames₁⟩, hafter₀, hout⟩ := bind_eq_ok.1 hout
    obtain ⟨rfl, -⟩ := Prod.mk.inj (Except.ok.inj hout)
    obtain ⟨state, error, hauto, hafter⟩ := h.fanStep hstep
    obtain ⟨text, hauto⟩ := autoGetFirstAngle_text hauto ""
    have hfound : startFound p.wholeDatas ((i :: fans).map Prod.snd) =
        if 0 ≤ state then some (state, fans.map Prod.snd)
        else startFound p₀.wholeDatas (fans.map Prod.snd) := by
      rw [List.map_cons, startFound, hauto]
    rw [hfound]
    split_ifs at hafter ⊢ with hstate
    · obtain ⟨hstart, hempty⟩ := hafter
      refine .inr ⟨[i], fans, p₀, frames₁, rfl, by rw [hstart], ?_, hempty, hafter₀⟩
      omega
    · rcases ih hafter hafter₀ with hsearch | ⟨first, rest, p₂, frames₂, rfl, hfound, hrest⟩
      · exact .inl hsearch
      · exact .inr ⟨i :: first, rest, p₂, frames₂, rfl, hfound, hrest⟩

/-- A search that finds the start angle goes through. -/
theorem Searching.exists_run (h : Searching p) {start : ℤ} {rest : List RawData} :
    ∀ {fans : List (Env × RawData)},
      startFound p.wholeDatas (fans.map Prod.snd) = some (start, rest) →
      ∃ first after p₁ frames₁, fans = first ++ after ∧ after.map Prod.snd = rest ∧
        tryRun LidarParser.fanStep p first = .ok (p₁, frames₁) ∧ p₁.startAngle = start ∧
          start ≠ -1 ∧ p₁.wholeDatas = [] := by
  intro fans
  induction fans generalizing p with
  | nil =>
    intro hfound
    cases hfound
  | cons i fans ih =>
    intro hfound
    rw [List.map_cons, startFound] at hfound
    split at hfound
    · next state raws text hauto =>
      obtain ⟨p₀, hstep⟩ := h.exists_fanStep hauto
      obtain ⟨state', error, hauto', hafter⟩ := h.fanStep hstep
      obtain ⟨text', hauto'⟩ := autoGetFirstAngle_text hauto' ""
      rw [hauto] at hauto'
      obtain ⟨rfl, hraws⟩ := Prod.mk.inj (Except.ok.inj hauto')
      obtain ⟨rfl, -⟩ := Prod.mk.inj hraws
      split_ifs at hfound hafter with hstate
      · obtain ⟨rfl, rfl⟩ := Prod.mk.inj (Option.some.inj hfound)
        refine ⟨[i], fans, p₀, [none], rfl, rfl, ?_, hafter.1, by omega, hafter.2⟩
        rw [tryRun_cons_of_ok hstep]
        rfl
      · obtain ⟨first, after, p₁, frames₁, rfl, hrest, hrun, hend⟩ := ih hafter hfound
        refine ⟨i :: first, after, p₁, none :: frames₁, rfl, hrest, ?_, hend⟩
        rw [tryRun_cons_of_ok hstep, hrun]
        rfl
    · cases hfound

/-- Once there is a start angle, the fans held are the last ones : those since the last fan that
ended there. -/
theorem held_since (hstart : p.startAngle ≠ -1) (hempty : p.wholeDatas = [])
    {fans : List (Env × RawData)} : ∀ {p' frames},
      tryRun LidarParser.fanStep p fans = .ok (p', frames) → p'.startAngle = p.startAngle ∧
        ∃ pre body, fans = pre ++ body ∧ (∀ i ∈ pre.getLast?, EndsAt p.startAngle i.2) ∧
          p'.wholeDatas = body.map Prod.snd ∧ ∀ i ∈ body, ¬EndsAt p.startAngle i.2 := by
  induction fans using List.reverseRecOn with
  | nil =>
    intro p' frames hrun
    obtain ⟨rfl, -⟩ := Prod.mk.inj (Except.ok.inj hrun)
    exact ⟨rfl, [], [], rfl, by simp, hempty, by simp⟩
  | append_singleton fans i ih =>
    intro p' frames hrun
    obtain ⟨p₁, frames₁, frames₂, hrun₁, hlast, -⟩ := tryRun_append_eq_ok.1 hrun
    obtain ⟨frame, hstep, -⟩ := tryRun_singleton_eq_ok.1 hlast
    obtain ⟨hstart₁, pre, body, rfl, hpre, hheld, hnot⟩ := ih hrun₁
    obtain ⟨hstart', hheld'⟩ := fanStep_held (hstart₁ ▸ hstart) hstep
    dsimp only at hstart' hheld'
    rw [hstart₁] at hstart' hheld'
    refine ⟨hstart', ?_⟩
    split_ifs at hheld' with hend
    · exact ⟨pre ++ body ++ [i], [], by simp, by simpa using hend, hheld', by simp⟩
    · refine ⟨pre, body ++ [i], by simp, hpre, ?_, ?_⟩
      · rw [hheld', hheld, List.map_append]
        rfl
      · intro j hj
        rcases List.mem_append.1 hj with hj | hj
        · exact hnot j hj
        · rwa [List.mem_singleton.1 hj]

/-- After a fan that ends at the start angle no fan is held. -/
theorem wholeDatas_eq_nil (hstart : p.startAngle ≠ -1) (hempty : p.wholeDatas = [])
    {fans : List (Env × RawData)} {p' : LidarParser} {frames : List (Option FrameData)}
    (hrun : tryRun LidarParser.fanStep p fans = .ok (p', frames))
    (hlast : ∀ i ∈ fans.getLast?, EndsAt p.startAngle i.2) : p'.wholeDatas = [] := by
  obtain ⟨-, pre, body, rfl, -, hheld, hnot⟩ := held_since hstart hempty hrun
  rcases List.eq_nil_or_concat body with rfl | ⟨body, i, rfl⟩
  · exact hheld
  · refine absurd (hlast i ?_) (hnot i (by simp))
    rw [List.concat_eq_append, ← List.append_assoc, List.getLast?_append]
    rfl

/-! ## Runs -/

/-- Of the fans after the start angle is found, no revolution has more points than the array has
cells : none that begins with them or after a fan that ends at the start angle. -/
def RevolutionsFit (p : LidarParser) (fans : List (Env × RawData)) : Prop :=
  ∀ start rest, startFound p.wholeDatas (fans.map Prod.snd) = some (start, rest) →
    ∀ pre mid post, rest = pre ++ (mid ++ post) → (∀ f ∈ pre.getLast?, EndsAt start f) →
      Revolution start mid → pointCount mid ≤ maxFramePoints

/-- A new parser that gets revolutions which fit publishes all their points. -/
theorem Searching.framesFit (h : Searching p) {fans : List (Env × RawData)}
    (hwithin : ∀ i ∈ fans, i.2.Within) (hfit : RevolutionsFit p fans) :
    Along LidarParser.fanStep FrameFits p fans := by
  rw [along_iff_forall_split]
  rintro before i post p' frames rfl hrun hstart
  rcases h.run hrun with hsearch | ⟨first, rest, p₁, frames₁, rfl, hfound, hstart₁, hempty, hrest⟩
  · exact absurd hsearch.startAngle hstart
  · obtain ⟨hsame, pre, body, rfl, hpre, hbody, hnot⟩ := held_since hstart₁ hempty hrest
    have hmid : p'.wholeDatas ++ [i.2] = (body ++ [i]).map Prod.snd := by
      rw [hbody, List.map_append]
      rfl
    refine frameFits_of_le ?_ ?_ hstart
    · rw [hmid]
      refine List.forall_mem_map.2 fun j hj => hwithin j ?_
      rcases List.mem_append.1 hj with hj | hj
      · simp [hj]
      · simp [List.mem_singleton.1 hj]
    · intro _ hend htotal
      rw [hmid] at htotal ⊢
      have hall := startFound_append hfound ((i :: post).map Prod.snd)
      rw [← List.map_append] at hall
      refine hfit _ _ hall (pre.map Prod.snd) _ (post.map Prod.snd) (by simp) ?_ ⟨?_, htotal⟩
      · rw [List.getLast?_map]
        intro f hf
        obtain ⟨j, hj, rfl⟩ := Option.mem_map.1 hf
        exact hpre j hj
      · refine ⟨body.map Prod.snd, i.2, by simp, hsame ▸ hend, ?_⟩
        exact List.forall_mem_map.2 hnot

/-- A fan goes through once there is a start angle, if its scan fits and the sums stay in the
type. -/
theorem exists_fanStep (hstart : p.startAngle ≠ -1) {i : Env × RawData} (hfit : p.FrameFits i)
    (hsums : SumsFit (p.wholeDatas ++ [i.2])) : ∃ p' frame, p.fanStep i = .ok (p', frame) := by
  have hmax : intMax = 2 ^ 31 - 1 := rfl
  obtain ⟨hcount, hlen, hspan⟩ := hsums
  by_cases hend : EndsAt p.startAngle i.2
  · by_cases htotal : totalSpan (p.wholeDatas ++ [i.2]) = 3600
    · obtain ⟨-, p', frame, hstep, -⟩ :=
        hfit hstart _ _ (wholeDataProcess_of_total p.error hend htotal hcount hlen)
      exact ⟨p', some frame, hstep⟩
    · obtain ⟨sums, hsums⟩ : ∃ r, sumLoop (p.wholeDatas ++ [i.2]) 0 0 0 = .ok r :=
        exists_sumLoop le_rfl le_rfl le_rfl (by omega) (by omega) (by omega)
      have hang := sumLoop_angles hsums
      have hcircle : sums.2.2 ≠ 3600 := by omega
      rw [LidarParser.fanStep, takeFan, if_neg hstart, wholeDataProcess, if_pos hend, hsums,
        ok_bind]
      simp only [if_pos hcircle]
      exact ⟨_, _, rfl⟩
  · obtain ⟨p', hstep⟩ := fanStep_of_not_endsAt hstart hend
    exact ⟨p', none, hstep⟩

/-- A run whose scans fit goes through once there is a start angle, if the sums stay in the
type. -/
theorem exists_tryRun_held : ∀ {fans : List (Env × RawData)} {p : LidarParser},
    p.startAngle ≠ -1 → Along LidarParser.fanStep FrameFits p fans →
      SumsFit (p.wholeDatas ++ fans.map Prod.snd) →
        ∃ p' frames, tryRun LidarParser.fanStep p fans = .ok (p', frames)
  | [], p, _, _, _ => ⟨p, [], rfl⟩
  | i :: fans, p, hstart, hfit, hsums => by
    rw [List.map_cons, List.append_cons] at hsums
    obtain ⟨p₁, frame, hstep⟩ :=
      exists_fanStep hstart hfit.1 (hsums.sublist (List.sublist_append_left _ _))
    obtain ⟨hstart₁, hheld₁⟩ := fanStep_held hstart hstep
    dsimp only at hstart₁ hheld₁
    have hsums₁ : SumsFit (p₁.wholeDatas ++ fans.map Prod.snd) := by
      rw [hheld₁]
      split_ifs
      · exact hsums.sublist (List.sublist_append_right _ _)
      · exact hsums
    obtain ⟨p', frames, hrun⟩ :=
      exists_tryRun_held (hstart₁ ▸ hstart) (hfit.2 p₁ frame hstep) hsums₁
    exact ⟨p', frame :: frames, by rw [tryRun_cons_of_ok hstep, hrun]; rfl⟩

/-- The revolutions of a run that publishes all points fit, if the sums stay in the type. -/
theorem Searching.revolutionsFit (h : Searching p) {fans : List (Env × RawData)}
    (hsums : SumsFit (fans.map Prod.snd)) (hfit : Along LidarParser.fanStep FrameFits p fans) :
    RevolutionsFit p fans := by
  rintro start rest hfound pre mid post rfl hpre ⟨⟨body, last, rfl, hend, hnot⟩, htotal⟩
  obtain ⟨first, after, p₁, frames₁, rfl, hafter, hrun, rfl, hstart, hempty⟩ := h.exists_run hfound
  obtain ⟨pre', more, rfl, rfl, hmore⟩ := List.map_eq_append_iff.1 hafter
  obtain ⟨mid', post', rfl, hmid, rfl⟩ := List.map_eq_append_iff.1 hmore
  obtain ⟨body', last', rfl, rfl, hlast⟩ := List.map_eq_append_iff.1 hmid
  obtain ⟨i, rfl, rfl⟩ := List.map_eq_singleton_iff.1 hlast
  -- the run comes to the beginning of the revolution, with no fan held
  have hpreFit := along_append.1 ((along_append.1 hfit).2 p₁ frames₁ hrun)
  obtain ⟨p₂, frames₂, hrun₂⟩ := exists_tryRun_held hstart hpreFit.1 (by
    rw [hempty, List.nil_append]
    exact hsums.sublist (List.Sublist.map _ (by simp)))
  obtain ⟨hstart₂, -⟩ := held_since hstart hempty hrun₂
  have hnone : p₂.wholeDatas = [] := by
    refine wholeDatas_eq_nil hstart hempty hrun₂ fun j hj => hpre j.2 ?_
    rw [List.getLast?_map]
    exact Option.mem_map_of_mem Prod.snd hj
  -- and on to its last fan, with the others held
  have hmidFit := hpreFit.2 p₂ frames₂ hrun₂
  rw [List.append_assoc] at hmidFit
  obtain ⟨p₃, frames₃, hrun₃, hstart₃, hheld⟩ := exists_tryRun_body body' (hstart₂ ▸ hstart)
    fun j hj => hstart₂ ▸ hnot j.2 (List.mem_map_of_mem hj)
  rw [hnone, List.nil_append] at hheld
  rw [hstart₂] at hstart₃
  obtain ⟨hfits, -⟩ := (along_append.1 hmidFit).2 p₃ frames₃ hrun₃
  obtain ⟨hcount, hnum, -⟩ : SumsFit (body'.map Prod.snd ++ [i.2]) :=
    hsums.sublist (by simp)
  have hprocess := wholeDataProcess_of_total p₃.error hend htotal hcount hnum
  rw [← hstart₃, ← hheld] at hprocess
  rw [← hheld]
  exact (hfits (hstart₃ ▸ hstart) _ _ hprocess).1

/-- Over every sequence of decoded fans into a new parser, every reported scan is copied
whole into the array and counted by `N` if every revolution after the start angle is found fits
the array, and only if, unless the sums of the fans do not even fit an `int`. -/
theorem framesFit_of_revolutionsFit (h : Searching p) (fans : List (Env × RawData))
    (hwithin : ∀ i ∈ fans, i.2.Within) :
    (RevolutionsFit p fans → Along LidarParser.fanStep FrameFits p fans) ∧
      (SumsFit (fans.map Prod.snd) → Along LidarParser.fanStep FrameFits p fans →
        RevolutionsFit p fans) :=
  ⟨h.framesFit hwithin, h.revolutionsFit⟩

/-- A new parser with an empty buffer. -/
def newParser : LidarParser where
  cbufRaw := CircularBuffer.new 0
  fanSegs := .c7 []
  frame := default
  idx := 0
  action := .offline
  zonemsg := []
  eepromv101 := []
  cmdheader := []
  state := -1
  startAngle := -1
  error := ""
  wholeDatas := []

theorem searching_newParser : Searching newParser :=
  ⟨rfl, by decide, List.isChain_nil⟩

/-- A pass at time 0. -/
def zeroEnv : Env where
  sec := 0
  usec := 0
  dat := default
  uartstate := default

/-- Half circles, after which scans start at 1800. -/
def halfFans : List (Env × RawData) :=
  [(zeroEnv, bareFan 0 1800), (zeroEnv, bareFan 1800 1800), (zeroEnv, bareFan 0 1800)]

theorem within_halfFans : ∀ i ∈ halfFans, i.2.Within := by
  have hbare : ∀ angle span, (bareFan angle span).Within := fun _ _ => ⟨rfl, Nat.zero_le _⟩
  simp [halfFans, hbare]

/-- The fan `k` of fifteen degrees from 1800 on, with `n` points. -/
def scanFan (n : U16) (k : ℕ) : RawData :=
  { bareFan (BitVec.ofNat 16 ((1800 + 150 * k) % 3600)) 150 with
    N := n
    points := List.replicate n.toNat ⟨0, 0, 0⟩ }

theorem within_scanFan {n : U16} (hn : n.toNat ≤ maxPoints) (k : ℕ) : (scanFan n k).Within :=
  ⟨List.length_replicate .., hn⟩

/-- The first `m` fans of a scan from 1800 on. -/
def scanFans (n : U16) (m : ℕ) : List (Env × RawData) :=
  (List.range m).map fun k => (zeroEnv, scanFan n k)

theorem map_snd_scanFans (n : U16) (m : ℕ) :
    (scanFans n m).map Prod.snd = (List.range m).map (scanFan n) :=
  List.map_map

theorem pointCount_scanFans (n : U16) (m : ℕ) :
    pointCount ((scanFans n m).map Prod.snd) = m * n.toNat := by
  rw [map_snd_scanFans, pointCount, List.map_map]
  simp [Function.comp_def, scanFan]

theorem within_scanFans {n : U16} (hn : n.toNat ≤ maxPoints) (m : ℕ) :
    ∀ i ∈ halfFans ++ scanFans n m, i.2.Within := by
  intro i hi
  rcases List.mem_append.1 hi with hi | hi
  · exact within_halfFans i hi
  · obtain ⟨k, -, rfl⟩ := List.mem_map.1 hi
    exact within_scanFan hn k

/-- The parser once it has found the start angle. -/
def foundParser : LidarParser :=
  { newParser with state := 1800, startAngle := 1800, action := .online }

theorem tryRun_halfFans :
    tryRun LidarParser.fanStep newParser halfFans = .ok (foundParser, [none, none, none]) :=
  rfl

/-- Only the last fan of a scan ends at 1800. -/
theorem not_endsAt_scanFan (n : U16) : ∀ k ∈ List.range 23, ¬EndsAt 1800 (scanFan n k) := by
  change ∀ k ∈ List.range 23,
    ¬EndsAt 1800 (bareFan (BitVec.ofNat 16 ((1800 + 150 * k) % 3600)) 150)
  decide

/-- The fans of the scan before the last are held. -/
theorem exists_tryRun_scanFans (n : U16) : ∃ p frames,
    tryRun LidarParser.fanStep newParser (halfFans ++ scanFans n 23) = .ok (p, frames) ∧
      p.startAngle = 1800 ∧ p.wholeDatas = (List.range 23).map (scanFan n) := by
  have hnot : ∀ i ∈ scanFans n 23, ¬EndsAt foundParser.startAngle i.2 := by
    intro i hi
    obtain ⟨k, hk, rfl⟩ := List.mem_map.1 hi
    exact not_endsAt_scanFan n k hk
  obtain ⟨p, frames, hrun, hstart, hheld⟩ := exists_tryRun_body (scanFans n 23) (by decide) hnot
  refine ⟨p, _, tryRun_append_eq_ok.2 ⟨foundParser, _, frames, tryRun_halfFans, hrun, rfl⟩, hstart,
    ?_⟩
  rw [hheld, map_snd_scanFans]
  rfl

/-- The twenty-four fans of a scan add up to the circle. -/
theorem totalSpan_scanFan (n : U16) : totalSpan ((List.range 24).map (scanFan n)) = 3600 := by
  have hlen : ∀ k, (scanFan n k).len = 150 := fun _ => rfl
  rw [totalSpan, List.map_map]
  simp only [Function.comp_def, hlen]
  rfl

/-- If the scan is published as it should, it fits the array and all its points are in it. -/
theorem exists_frame_of_along {n : U16}
    (h : Along LidarParser.fanStep FrameFits newParser (halfFans ++ scanFans n 24)) :
    ∃ p frames p' frame,
      tryRun LidarParser.fanStep newParser (halfFans ++ scanFans n 23) = .ok (p, frames) ∧
      p.fanStep (zeroEnv, scanFan n 23) = .ok (p', some frame) ∧ 24 * n.toNat ≤ maxFramePoints ∧
        frame.data.length = 24 * n.toNat ∧ frame.N.toNat = 24 * n.toNat := by
  obtain ⟨p, frames, hrun, hstart, hheld⟩ := exists_tryRun_scanFans n
  have hlast : halfFans ++ scanFans n 24 =
      (halfFans ++ scanFans n 23) ++ [(zeroEnv, scanFan n 23)] := by
    rw [scanFans, List.range_succ, List.map_append, ← List.append_assoc]
    rfl
  have hall : p.wholeDatas ++ [scanFan n 23] = (List.range 24).map (scanFan n) := by
    rw [hheld, List.range_succ, List.map_append]
    rfl
  have hcount : pointCount (p.wholeDatas ++ [scanFan n 23]) = 24 * n.toNat := by
    rw [hall, ← map_snd_scanFans, pointCount_scanFans]
  have hmax : intMax = 2 ^ 31 - 1 := rfl
  rw [hlast] at h
  obtain ⟨hfits, -⟩ := (along_append.1 h).2 p frames hrun
  have hends : EndsAt p.startAngle (scanFan n 23) := by
    rw [hstart]
    rfl
  have hprocess := wholeDataProcess_of_total p.error hends (by rw [hall, totalSpan_scanFan])
    (by rw [hcount]; omega) (by rw [hall, List.length_map]; decide)
  obtain ⟨hle, p', frame, hstep, -, hlength, hN⟩ := hfits (by rw [hstart]; decide) _ _ hprocess
  rw [hcount] at hle hlength hN
  exact ⟨p, frames, p', frame, hrun, hstep, hle, hlength, hN⟩

/-- The start angle is found with the half circles, and the only revolution after them is the
scan. -/
theorem revolutionsFit_scanFans {n : U16} (hn : 24 * n.toNat ≤ maxFramePoints) :
    RevolutionsFit newParser (halfFans ++ scanFans n 24) := by
  intro start rest hfound pre mid post hrest _ _
  have hhalf : startFound newParser.wholeDatas (halfFans.map Prod.snd) = some (1800, []) := rfl
  rw [List.map_append, startFound_append hhalf, List.nil_append] at hfound
  obtain ⟨-, rfl⟩ := Prod.mk.inj (Option.some.inj hfound)
  have hcount := congrArg pointCount hrest
  rw [pointCount_scanFans, pointCount_append, pointCount_append] at hcount
  omega

/-- A scan of 9600 points is published with all of them. -/
theorem framesFit_of_revolutionsFit_scan : ∃ p frames p' frame,
    tryRun LidarParser.fanStep newParser (halfFans ++ scanFans 400 23) = .ok (p, frames) ∧
      p.fanStep (zeroEnv, scanFan 400 23) = .ok (p', some frame) ∧
        frame.data.length = 9600 ∧ frame.N.toNat = 9600 := by
  have hn : (400 : U16).toNat ≤ maxPoints := by decide
  obtain ⟨p, frames, p', frame, hrun, hstep, -, hlength, hN⟩ := exists_frame_of_along
    ((framesFit_of_revolutionsFit searching_newParser _ (within_scanFans hn 24)).1
      (revolutionsFit_scanFans (by decide)))
  exact ⟨p, frames, p', frame, hrun, hstep, hlength, hN⟩

/-- Twenty-four fans with as many points as a fan may have are more than the array has cells. -/
theorem not_framesFit :
    ¬∀ (p : LidarParser) (fans : List (Env × RawData)), Searching p → (∀ i ∈ fans, i.2.Within) →
      Along LidarParser.fanStep FrameFits p fans := by
  intro h
  have hn : (500 : U16).toNat ≤ maxPoints := by decide
  obtain ⟨-, -, -, -, -, -, hle, -⟩ := exists_frame_of_along
    (h newParser (halfFans ++ scanFans 500 24) searching_newParser (within_scanFans hn 24))
  exact absurd hle (by decide)

end LidarParser

end Mastiff.Lidar

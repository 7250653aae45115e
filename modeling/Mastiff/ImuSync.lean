import Mastiff.ImuParser

/-!
# Resynchronisation of the IMU parser

A valid frame after other bytes. The loop moves by one byte where no header stands and by a
whole frame where one does, whether or not the checksum is right, and never goes back.
`delivered_iff_clear` : the scan of a stream passes the frame on from its place exactly when
no header at which it stands before has a frame that reaches past that place (`Clear`).
A header whose checksum fails takes the first bytes of the frame with it all the same
(`not_delivered_of_isolated`).
-/

set_option linter.unusedSectionVars false

open Memory Machine Bytes Framing

namespace Mastiff.Imu

open ParserBase

variable {t : ImuType} {f g later s : List Byte} {n : ℕ}

/-- A complete frame that passes the tests of the header and the checksum. -/
structure ValidFrame (t : ImuType) (f : List Byte) : Prop where
  length_eq : f.length = t.format.size
  isHead : t.format.isHead f = true
  isValid : t.format.isValid f = true

/-- Wherever the scan of `s` stands before the place `n`, no header stands whose frame
reaches past it. -/
def Clear (t : ImuType) (s : List Byte) (n : ℕ) : Prop :=
  ∀ i < n, ∀ frames, (scanner t.format).Walk s frames (s.drop i) →
    t.format.isHead ((s.drop i).take t.format.size) = true → i + t.format.size ≤ n

/-- The scan comes to the frame `f` after `g`, and passes it on there. -/
def DeliveredAfter (t : ImuType) (g f later : List Byte) (frames : List (List Byte)) : Prop :=
  ∃ before after, (scanner t.format).Walk (g ++ (f ++ later)) before (f ++ later) ∧
    frames = before ++ f :: after

/-- No valid frame that starts before the place `n` reaches past it. -/
def Isolated (t : ImuType) (s : List Byte) (n : ℕ) : Prop :=
  ∀ i < n, ValidFrame t ((s.drop i).take t.format.size) → i + t.format.size ≤ n

/-- The turn at a valid frame passes it on. -/
theorem ValidFrame.look_eq (hf : ValidFrame t f) (later : List Byte) :
    (scanner t.format).look (f ++ later) = some (t.format.size, [f]) := by
  refine (scanner t.format).append ?_ later
  rw [look_of_le hf.length_eq.ge, List.take_of_length_le hf.length_eq.le, turn, if_pos hf.isHead,
    if_pos hf.isValid]

/-- The scan comes to a place that has room for a frame after it exactly when the way there
is clear. -/
theorem exists_walk_iff_clear (hn : n + t.format.size ≤ s.length) :
    (∃ frames, (scanner t.format).Walk s frames (s.drop n)) ↔ Clear t s n := by
  rw [Scanner.exists_walk_drop_iff (by omega), Clear]
  refine forall₂_congr fun i hi => forall₂_congr fun frames hw => ?_
  rw [look_of_le (by rw [List.length_drop]; omega), turn]
  by_cases hhead : t.format.isHead ((s.drop i).take t.format.size) = true
  · rw [if_pos hhead]
    constructor
    · rintro ⟨k, os, heq, hk⟩ -
      obtain ⟨rfl, -⟩ := Prod.mk.inj (Option.some.inj heq)
      exact hk
    · exact fun h => ⟨_, _, rfl, h hhead⟩
  · rw [if_neg hhead]
    exact iff_of_true ⟨1, [], rfl, by omega⟩ fun h => absurd h hhead

/-- A scan that comes to a valid frame passes it on. -/
theorem ValidFrame.scan_fst (hf : ValidFrame t f) {before : List (List Byte)}
    (hw : (scanner t.format).Walk s before (f ++ later)) :
    ((scanner t.format).scan s).1 = before ++ f :: ((scanner t.format).scan later).1 := by
  rw [hw.scan_eq, Scanner.scan_of_some (hf.look_eq later), List.drop_left' hf.length_eq]
  rfl

/-- A walk past a valid frame has passed it on. -/
theorem ValidFrame.walk_past (hf : ValidFrame t f) {before frames : List (List Byte)}
    {rest : List Byte} (hw : (scanner t.format).Walk s before (f ++ later))
    (hpast : (scanner t.format).Walk s frames rest) (hshort : rest.length ≤ later.length) :
    ∃ after, frames = before ++ f :: after := by
  have hpos := t.format.size_pos
  have hsize := hf.length_eq
  -- the walk goes on from the frame
  have hon : ∃ os, (scanner t.format).Walk (f ++ later) os rest := by
    rcases hw.comparable hpast with h | ⟨os, h⟩
    · exact h
    · have hle := h.suffix.length_le
      rw [List.length_append] at hle
      omega
  obtain ⟨os, hos⟩ := hon
  obtain rfl := (hw.trans hos).unique hpast
  rcases hos.cases_head with ⟨-, heq⟩ | ⟨k, o, o', hlook, -, rfl⟩
  · rw [heq, List.length_append] at hshort
    omega
  · rw [hf.look_eq later] at hlook
    obtain ⟨-, rfl⟩ := Prod.mk.inj (Option.some.inj hlook)
    exact ⟨o', rfl⟩

/-- Frames that hold the valid one whenever the scan comes to it hold it from its place
exactly when the way there is clear. -/
theorem ValidFrame.deliveredAfter_iff (hf : ValidFrame t f) {frames : List (List Byte)}
    (hpast : ∀ before, (scanner t.format).Walk (g ++ (f ++ later)) before (f ++ later) →
      ∃ after, frames = before ++ f :: after) :
    DeliveredAfter t g f later frames ↔ Clear t (g ++ (f ++ later)) g.length := by
  have hn : g.length + t.format.size ≤ (g ++ (f ++ later)).length := by
    rw [List.length_append, List.length_append, hf.length_eq]
    omega
  rw [← exists_walk_iff_clear hn, List.drop_left]
  constructor
  · rintro ⟨before, after, hw, -⟩
    exact ⟨before, hw⟩
  · rintro ⟨before, hw⟩
    obtain ⟨after, hframes⟩ := hpast before hw
    exact ⟨before, after, hw, hframes⟩

/-- The scan of a stream passes a valid frame on from its place exactly when the way there is
clear. Cut into chunks in any way that fits the buffer, the parser has done so as soon as as
many bytes came after the frame as may stay unscanned. Up to `2 ^ 30` bytes every run goes
through. -/
theorem delivered_iff_clear (hf : ValidFrame t f) :
    (DeliveredAfter t g f later ((scanner t.format).scan (g ++ (f ++ later))).1 ↔
      Clear t (g ++ (f ++ later)) g.length) ∧
    ∀ cap, 0 < cap → ∀ chunks : List (List Byte), chunks.flatten = g ++ (f ++ later) →
      Along (onOriginalDataUart t.devParse) HasRoom (opened cap) chunks →
      (cap ≤ 2 ^ 30 → (∀ chunk ∈ chunks, chunk ≠ []) → ∃ p log,
        tryRun (onOriginalDataUart t.devParse) (opened cap) chunks = .ok (p, log)) ∧
      ∀ p log, tryRun (onOriginalDataUart t.devParse) (opened cap) chunks = .ok (p, log) →
        t.unscanned ≤ later.length + 1 →
        (DeliveredAfter t g f later log.flatten ↔ Clear t (g ++ (f ++ later)) g.length) := by
  refine ⟨hf.deliveredAfter_iff fun before hw => ⟨_, hf.scan_fst hw⟩, ?_⟩
  refine fun cap hpos chunks hstream hroom => ⟨fun hcap hne => ?_, fun p log hr hlater => ?_⟩
  · have hF := frames_devParse t.format
    rw [← t.devParse_eq] at hF
    exact exists_received hF hpos hcap hne hroom
  · obtain ⟨rest, hframed⟩ := exists_framed t hpos hroom hr
    have hwalk := (hframed []).walk
    rw [hstream] at hwalk
    have hshort := (hframed []).short
    exact hf.deliveredAfter_iff fun before hw => hf.walk_past hw hwalk (by omega)

/-! ## A stray byte -/

theorem validFrame_rateFrame : ValidFrame .zyf143 rateFrame :=
  ⟨rfl, by decide, by decide⟩

/-- The frame after one lost byte of another. -/
theorem delivered_iff_clear_lost :
    DeliveredAfter .zyf143 [0x00] rateFrame []
        ((scanner ImuType.zyf143.format).scan ([0x00] ++ (rateFrame ++ []))).1 ↔
      Clear .zyf143 ([0x00] ++ (rateFrame ++ [])) [(0x00 : Byte)].length :=
  (delivered_iff_clear validFrame_rateFrame).1

/-- A stray byte and the first of the frame are a header whose checksum fails, and take the
frame with them but for its last byte. -/
theorem not_delivered_of_isolated :
    ¬∀ (t : ImuType) (g f later : List Byte), ValidFrame t f →
      Isolated t (g ++ (f ++ later)) g.length →
        f ∈ ((scanner t.format).scan (g ++ (f ++ later))).1 := by
  intro h
  have hisolated : Isolated .zyf143 ([0xA5] ++ (rateFrame ++ [0, 0, 0])) 1 := by
    intro i hi hvalid
    obtain rfl : i = 0 := by omega
    exact absurd hvalid.isValid (by decide)
  have hf := h .zyf143 [0xA5] rateFrame [0, 0, 0] validFrame_rateFrame hisolated
  have hlook : (scanner zyf143).look ([0xA5] ++ (rateFrame ++ [0, 0, 0])) = some (24, []) := by
    decide
  have hrest : (scanner zyf143).look (([0xA5] ++ (rateFrame ++ [0, 0, 0])).drop 24) = none := by
    decide
  change rateFrame ∈ ((scanner zyf143).scan ([0xA5] ++ (rateFrame ++ [0, 0, 0]))).1 at hf
  rw [Scanner.scan_of_some hlook, Scanner.scan_of_none hrest] at hf
  cases hf

end Mastiff.Imu

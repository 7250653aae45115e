import Mastiff.DevTty
import Mathlib.Data.List.Induction
import Mathlib.Data.List.TakeWhile
import Mathlib.Tactic.IntervalCases

/-!
# Simulated keys

The handler that `KeySimulate::StartSimulate` (`cambrian/brain/bizlogic/key_simulate.cc`)
registers gets what `tty_filter` returns for each key, and takes a branch by its low half. What
the branches set in the messages to the chassis, and the speeds, are left out.

`typedOnly_iff` : when only digits, 'c' and Enter are typed, the handler takes no branch but the
numbered ones, with the command and the value that were typed, exactly when no command that
Enter ends is modulo 2^16 the code of a special key.
-/

set_option linter.unusedSectionVars false

namespace Mastiff.Brain

open Machine Device

/-! ## The handler -/

/-- The branches of the handler. -/
inductive KeyBranch
  | noEvent
  | audioPlay (val : BitVec 32)
  | audioCtrl (val : BitVec 32)
  | deviceManage (val : BitVec 32)
  | wirelessSetting (val : BitVec 32)
  | cameraSetting (val : BitVec 32)
  | missionSetting (val : BitVec 32)
  | arrowUp
  | forward
  | arrowLeft
  | left
  | arrowRight
  | right
  | arrowDown
  | backward
  | stop
  | stopRelease
  | release
  | faster
  | slower
  | reverseWheels
  | quit
  | nothing
  deriving DecidableEq

namespace KeySimulate

/-- The switch of the handler. -/
def switchKey (cmd : ℕ) (val : BitVec 32) : KeyBranch :=
  match cmd with
  | 0x0001 => .audioPlay val
  | 0x0002 => .audioCtrl val
  | 0x0003 => .deviceManage val
  | 0x0004 => .wirelessSetting val
  | 0x0005 => .cameraSetting val
  | 0x0006 => .missionSetting val
  | 0x5b41 => .arrowUp
  | 0x4b41 => .forward
  | 0x5b44 => .arrowLeft
  | 0x4b44 => .left
  | 0x5b43 => .arrowRight
  | 0x4b43 => .right
  | 0x5b42 => .arrowDown
  | 0x4b42 => .backward
  | 0x4b45 => .stop
  | 0x4b46 => .stopRelease
  | 0x4b60 => .release
  | 0x2b => .faster
  | 0x2d => .slower
  | 0x4b58 => .reverseWheels
  | 0x71 => .quit
  | _ => .nothing

/-- The handler of `StartSimulate`. -/
def handle (ev : BitVec 32) : KeyBranch :=
  let cmd := ev &&& 0xffff#32
  let val := (ev &&& 0xffff0000#32) >>> 16
  if ev = 0 then .noEvent else switchKey cmd.toNat val

/-- A key is read, and its result given to the handler. -/
def step (s : DevTty) (command : ℤ) : DevTty × KeyBranch :=
  ((s.ttyFilter command).1, handle (s.ttyFilter command).2)

/-! ## Numbers -/

/-- The keys of a number. -/
inductive NumKey
  | digit (d : Fin 10)
  | c
  | enter
  deriving DecidableEq

/-- The byte of the key. -/
def NumKey.byte : NumKey → ℤ
  | .digit d => '0'.toNat + d.val
  | .c => 'c'.toNat
  | .enter => 0xa

/-- The number that the digits among the keys make. -/
def number (keys : List NumKey) : ℕ :=
  keys.foldl (fun n key => match key with
    | .digit d => n * 10 + d.val
    | _ => n) 0

/-- The keys since the last Enter. -/
def sinceEnter (keys : List NumKey) : List NumKey :=
  (keys.reverse.takeWhile fun key => key ≠ .enter).reverse

/-- The command is what was typed before the first 'c' since the last Enter. -/
def typedCommand (keys : List NumKey) : ℕ :=
  number ((sinceEnter keys).takeWhile fun key => key ≠ .c)

/-- The value is what was typed after it. -/
def typedValue (keys : List NumKey) : ℕ :=
  number ((sinceEnter keys).dropWhile fun key => key ≠ .c)

/-- The numbered branches. -/
def numbered (cmd : ℕ) (val : BitVec 32) : KeyBranch :=
  match cmd with
  | 1 => .audioPlay val
  | 2 => .audioCtrl val
  | 3 => .deviceManage val
  | 4 => .wirelessSetting val
  | 5 => .cameraSetting val
  | 6 => .missionSetting val
  | _ => .nothing

/-- A branch does nothing, or is the numbered one of the command and the value. -/
def IsNumbered (branch : KeyBranch) (cmd : ℕ) (val : BitVec 32) : Prop :=
  branch = .noEvent ∨ branch = .nothing ∨ branch = numbered cmd val

/-- After the keys `past` another one makes the handler do nothing, or take the numbered branch
of the command and the value that were typed, modulo 2^16. -/
def TypedOnly (past : List NumKey) (key : NumKey) : Prop :=
  IsNumbered (step (run step {} (past.map NumKey.byte)).1 key.byte).2
    (typedCommand past % 2 ^ 16) (BitVec.ofNat 32 (typedValue past % 2 ^ 16))

/-- The codes of the branches for a movement, the speed and the end of the program. -/
def specialCodes : List ℕ :=
  [0x5b41, 0x4b41, 0x5b44, 0x4b44, 0x5b43, 0x4b43, 0x5b42, 0x4b42, 0x4b45, 0x4b46, 0x4b60, 0x2b,
    0x2d, 0x4b58, 0x71]

/-- An Enter does not end a command that is modulo 2^16 the code of a special key. -/
def NotSpecial (past : List NumKey) (key : NumKey) : Prop :=
  key = .enter → typedCommand past % 2 ^ 16 ∉ specialCodes

/-! ## Keys -/

theorem ttyFilter_digit (s : DevTty) (d : Fin 10) :
    s.ttyFilter (NumKey.digit d).byte = (s.addDigit (BitVec.ofNat 32 d.val), 0) := by
  obtain ⟨d, hd⟩ := d
  interval_cases d <;> rfl

theorem ttyFilter_c (s : DevTty) :
    s.ttyFilter NumKey.c.byte = ({ s with checkVal := true }, 0) :=
  rfl

theorem ttyFilter_enter (s : DevTty) :
    s.ttyFilter NumKey.enter.byte = (s.reset, DevTty.pack s.cmd s.val) :=
  rfl

theorem number_concat_digit (keys : List NumKey) (d : Fin 10) :
    number (keys ++ [.digit d]) = number keys * 10 + d.val := by
  simp [number]

theorem number_concat_c (keys : List NumKey) : number (keys ++ [.c]) = number keys := by
  simp [number]

theorem sinceEnter_concat_enter (keys : List NumKey) : sinceEnter (keys ++ [.enter]) = [] := by
  simp [sinceEnter]

theorem sinceEnter_concat {key : NumKey} (hkey : key ≠ .enter) (keys : List NumKey) :
    sinceEnter (keys ++ [key]) = sinceEnter keys ++ [key] := by
  simp [sinceEnter, hkey]

theorem ne_c_of_notMem {keys : List NumKey} (h : NumKey.c ∉ keys) :
    ∀ key ∈ keys, decide (key ≠ NumKey.c) = true := by
  intro key hkey
  have hne : key ≠ .c := fun heq => h (heq ▸ hkey)
  simpa using hne

variable {keys : List NumKey}

/-- A digit goes to the command as long as no 'c' was typed, and to the value then. -/
theorem typed_concat_digit (keys : List NumKey) (d : Fin 10) :
    typedCommand (keys ++ [.digit d]) =
        (if .c ∈ sinceEnter keys then typedCommand keys else typedCommand keys * 10 + d.val) ∧
      typedValue (keys ++ [.digit d]) =
        if .c ∈ sinceEnter keys then typedValue keys * 10 + d.val else typedValue keys := by
  unfold typedCommand typedValue
  rw [sinceEnter_concat (by simp)]
  split_ifs with hc
  · rw [takeWhile_concat_of_mem hc (by decide), dropWhile_concat_of_mem hc (by decide),
      number_concat_digit]
    exact ⟨rfl, rfl⟩
  · have hall := ne_c_of_notMem hc
    rw [List.takeWhile_append_of_pos hall, List.dropWhile_append_of_pos hall,
      List.takeWhile_eq_self_iff.2 hall, List.dropWhile_eq_nil_iff.2 hall]
    exact ⟨number_concat_digit _ d, rfl⟩

theorem typed_concat_c (keys : List NumKey) :
    typedCommand (keys ++ [.c]) = typedCommand keys ∧
      typedValue (keys ++ [.c]) = typedValue keys := by
  unfold typedCommand typedValue
  rw [sinceEnter_concat (by simp)]
  by_cases hc : NumKey.c ∈ sinceEnter keys
  · rw [takeWhile_concat_of_mem hc (by decide), dropWhile_concat_of_mem hc (by decide),
      number_concat_c]
    exact ⟨rfl, rfl⟩
  · have hall := ne_c_of_notMem hc
    rw [List.takeWhile_append_of_pos hall, List.dropWhile_append_of_pos hall,
      List.takeWhile_eq_self_iff.2 hall, List.dropWhile_eq_nil_iff.2 hall]
    exact ⟨by simp, rfl⟩

theorem typed_concat_enter (keys : List NumKey) :
    typedCommand (keys ++ [.enter]) = 0 ∧ typedValue (keys ++ [.enter]) = 0 := by
  unfold typedCommand typedValue
  rw [sinceEnter_concat_enter]
  exact ⟨rfl, rfl⟩

/-! ## What has been typed -/

/-- The variables hold what was typed since the last Enter. -/
structure Holds (keys : List NumKey) (s : DevTty) : Prop where
  cmd : s.cmd = BitVec.ofNat 32 (typedCommand keys)
  val : s.val = BitVec.ofNat 32 (typedValue keys)
  checkVal : s.checkVal = decide (.c ∈ sinceEnter keys)

/-- A digit is one more of the number that is typed. -/
theorem Holds.typeDigit {s : DevTty} (h : Holds keys s) (d : Fin 10) :
    Holds (keys ++ [.digit d]) (s.ttyFilter (NumKey.digit d).byte).1 := by
  obtain ⟨hcmd, hval⟩ := typed_concat_digit keys d
  rw [ttyFilter_digit, DevTty.addDigit]
  have hc : decide (NumKey.c ∈ sinceEnter (keys ++ [.digit d])) =
      decide (.c ∈ sinceEnter keys) := by
    rw [sinceEnter_concat (by simp)]
    simp
  by_cases hmem : NumKey.c ∈ sinceEnter keys
  · rw [if_pos hmem] at hcmd hval
    rw [if_pos (h.checkVal.trans (decide_eq_true hmem))]
    refine ⟨?_, ?_, h.checkVal.trans hc.symm⟩
    · rw [hcmd]
      exact h.cmd
    · rw [hval, BitVec.ofNat_add, BitVec.ofNat_mul, ← h.val]
      rfl
  · rw [if_neg hmem] at hcmd hval
    rw [if_neg (by simpa [h.checkVal] using hmem)]
    refine ⟨?_, ?_, h.checkVal.trans hc.symm⟩
    · rw [hcmd, BitVec.ofNat_add, BitVec.ofNat_mul, ← h.cmd]
      rfl
    · rw [hval]
      exact h.val

theorem Holds.ttyFilter {s : DevTty} (h : Holds keys s) (key : NumKey) :
    Holds (keys ++ [key]) (s.ttyFilter key.byte).1 := by
  cases key with
  | digit d => exact h.typeDigit d
  | c =>
    obtain ⟨hcmd, hval⟩ := typed_concat_c keys
    rw [ttyFilter_c]
    refine ⟨?_, ?_, ?_⟩
    · rw [hcmd]
      exact h.cmd
    · rw [hval]
      exact h.val
    · rw [sinceEnter_concat (by simp)]
      simp
  | enter =>
    obtain ⟨hcmd, hval⟩ := typed_concat_enter keys
    rw [ttyFilter_enter]
    refine ⟨?_, ?_, ?_⟩
    · rw [hcmd]
      rfl
    · rw [hval]
      rfl
    · rw [sinceEnter_concat_enter]
      rfl

theorem holds_run (keys : List NumKey) :
    Holds keys (run step {} (keys.map NumKey.byte)).1 := by
  induction keys using List.reverseRecOn with
  | nil => exact ⟨rfl, rfl, rfl⟩
  | append_singleton keys key ih =>
    rw [List.map_append, List.map_singleton, run_snoc]
    exact ih.ttyFilter key

/-! ## The branch of Enter -/

theorem isNumbered_switchKey_iff (cmd : ℕ) (val : BitVec 32) :
    IsNumbered (switchKey cmd val) cmd val ↔ cmd ∉ specialCodes := by
  unfold switchKey IsNumbered
  split <;> simp_all [numbered, specialCodes]

/-- The handler on what Enter returns. -/
theorem isNumbered_handle_pack_iff (cmd val : BitVec 32) :
    IsNumbered (handle (DevTty.pack cmd val)) (cmd.toNat % 2 ^ 16) (val &&& 0xffff#32) ↔
      cmd.toNat % 2 ^ 16 ∉ specialCodes := by
  by_cases hzero : DevTty.pack cmd val = 0
  · have hcmd : cmd.toNat % 2 ^ 16 = 0 := by
      have htoNat := DevTty.toNat_pack cmd val
      rw [hzero] at htoNat
      change 0 = _ at htoNat
      omega
    rw [handle, if_pos hzero, hcmd]
    exact iff_of_true (.inl rfl) (by decide)
  · rw [handle, if_neg hzero, DevTty.pack_low, DevTty.pack_high, DevTty.toNat_and_low]
    exact isNumbered_switchKey_iff _ _

theorem typedOnly_iff_notSpecial (past : List NumKey) (key : NumKey) :
    TypedOnly past key ↔ NotSpecial past key := by
  have h := holds_run past
  unfold TypedOnly NotSpecial
  generalize (run step {} (past.map NumKey.byte)).1 = s at h ⊢
  rw [step]
  cases key with
  | digit d =>
    rw [ttyFilter_digit]
    exact iff_of_true (.inl rfl) (by simp)
  | c =>
    rw [ttyFilter_c]
    exact iff_of_true (.inl rfl) (by simp)
  | enter =>
    have hcmd : s.cmd.toNat % 2 ^ 16 = typedCommand past % 2 ^ 16 := by
      rw [h.cmd, BitVec.toNat_ofNat]
      omega
    have hval : s.val &&& 0xffff#32 = BitVec.ofNat 32 (typedValue past % 2 ^ 16) := by
      apply BitVec.eq_of_toNat_eq
      rw [DevTty.toNat_and_low, h.val, BitVec.toNat_ofNat, BitVec.toNat_ofNat]
      omega
    rw [ttyFilter_enter, ← hcmd, ← hval]
    exact (isNumbered_handle_pack_iff s.cmd s.val).trans ⟨fun h _ => h, fun h => h rfl⟩

/-- For every sequence of digits, 'c' and Enter, the handler only ever takes the numbered branch
of what was typed exactly when no Enter ends a command with the code of a special key. -/
theorem typedOnly_iff (keys : List NumKey) :
    (∀ past key rest, keys = past ++ key :: rest → TypedOnly past key) ↔
      ∀ past key rest, keys = past ++ key :: rest → NotSpecial past key := by
  simp only [typedOnly_iff_notSpecial]

/-- The number 113 and Enter end the program. -/
theorem not_typedOnly : ¬∀ (past : List NumKey) (key : NumKey), TypedOnly past key := by
  intro h
  have htyped := h [.digit 1, .digit 1, .digit 3] .enter
  rw [typedOnly_iff_notSpecial] at htyped
  exact htyped rfl (by decide)

end KeySimulate

end Mastiff.Brain

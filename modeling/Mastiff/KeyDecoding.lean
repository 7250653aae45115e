import Mathlib.Data.List.DropRight
import Mathlib.Data.Nat.Digits.Defs
import Mathlib.Data.Nat.ModEq
import Mathlib.Tactic.IntervalCases
import Mastiff.DevTty
import Mastiff.Lib.Bytes

/-!
# Key sequences

What `tty_filter` (`chassis/devices/dev_libs/dev_tty.cc`) makes of a sequence of keys. The digits
of a command and the start of an escape sequence are kept in one variable, `cmd`, and another one,
`lcmd`, remembers a '[' until an escape sequence has been returned.

Sequences of keys are the last one first here, so that their digits are those of a number from
the lowest on.

`keys_decoded_iff` : over a sequence of keys, arrow codes are returned for escape sequences only,
and Enter returns the numbers typed since the last Enter, letter or escape sequence, exactly when
no key A to D meets an old '[' and a command of 27, and at every Enter what an ESC has put in the
place of digits, or a 'c' has kept from before an escape sequence, makes no difference modulo 2^16,
and the numbers are not an arrow code.
-/

set_option linter.unusedSectionVars false

namespace Mastiff.Device

open Machine Bytes

/-! ## Keys -/

/-- The keys that `tty_filter` tells apart. A letter is one that makes it start over. -/
inductive TtyKey
  | enter
  | letter
  | c
  | escape
  | bracket
  | arrow (i : Fin 4)
  | digit (d : Fin 10)
  | other
  deriving DecidableEq

namespace TtyKey

def ofCommand (command : ℤ) : TtyKey :=
  if command = 0xa then .enter
  else if command = 'c'.toNat then .c
  else if (DevTty.letterCode command).isSome ∨ command = 'r'.toNat then .letter
  else if command = 0x1b then .escape
  else if command = 0x5b then .bracket
  else if 0x41 ≤ command ∧ command ≤ 0x44 then .arrow (Fin.ofNat 4 (command - 0x41).toNat)
  else if '0'.toNat ≤ command ∧ command ≤ '9'.toNat then
    .digit (Fin.ofNat 10 (command - '0'.toNat).toNat)
  else .other

def digit? : TtyKey → Option ℕ
  | .digit d => some d
  | _ => none

end TtyKey

/-- The code of the arrow keys. -/
def arrowCode (i : Fin 4) : BitVec 32 :=
  BitVec.ofNat 32 (0x1b5b41 + i)

namespace KeyDecoding

/-- The keys since the last time that `p` held of the keys up to there. -/
def since (p : List TtyKey → Bool) : List TtyKey → List TtyKey
  | [] => []
  | k :: keys => if p (k :: keys) then [] else k :: since p keys

/-- An Enter or a letter. -/
def endsCommand : List TtyKey → Bool
  | .enter :: _ => true
  | .letter :: _ => true
  | _ => false

/-- ESC, '[' and A to D. -/
def endsSequence : List TtyKey → Bool
  | .arrow _ :: .bracket :: .escape :: _ => true
  | _ => false

/-- The keys since the last Enter, letter or escape sequence. -/
def sinceReset : List TtyKey → List TtyKey :=
  since fun keys => endsCommand keys || endsSequence keys

/-- The keys since the last Enter or letter. -/
def sinceCommand : List TtyKey → List TtyKey :=
  since endsCommand

/-- The keys since the last escape sequence. -/
def sinceSequence : List TtyKey → List TtyKey :=
  since endsSequence

def digits (keys : List TtyKey) : List ℕ :=
  keys.filterMap TtyKey.digit?

/-- The digits before the first 'c'. -/
def digitsBefore (keys : List TtyKey) : List ℕ :=
  digits (keys.rtakeWhile (· ≠ .c))

/-- The digits after it. -/
def digitsAfter (keys : List TtyKey) : List ℕ :=
  digits (keys.rdropWhile (· ≠ .c))

/-! ## Keys and digits -/

/-- `tty_filter` on the byte of a key. -/
def step (s : DevTty) (key : Byte) : DevTty × BitVec 32 :=
  s.ttyFilter key.toNat

/-- What is returned for a key after others. -/
def returned (past : List Byte) (key : Byte) : BitVec 32 :=
  (step (run step {} past).1 key).2

/-- The keys of a sequence of bytes, the last one first. -/
def keysOf (bytes : List Byte) : List TtyKey :=
  (bytes.map fun b => TtyKey.ofCommand b.toNat).reverse

/-- The number typed before 'c'. -/
def typedCommand (keys : List TtyKey) : ℕ :=
  Nat.ofDigits 10 (digitsBefore (sinceReset keys))

/-- The number typed after it. -/
def typedValue (keys : List TtyKey) : ℕ :=
  Nat.ofDigits 10 (digitsAfter (sinceReset keys))

/-- An arrow code is returned exactly for an escape sequence, and for Enter the numbers typed. -/
structure Decodes (past : List Byte) (key : Byte) : Prop where
  arrow : ∀ i, returned past key = arrowCode i ↔
    [.arrow i, .bracket, .escape] <+: keysOf (past ++ [key])
  enter : key = 0xa → returned past key = BitVec.ofNat 32
    (typedCommand (keysOf past) % 2 ^ 16 + 2 ^ 16 * (typedValue (keysOf past) % 2 ^ 16))

/-! ## The condition -/

/-- The digits for the command since the last Enter, letter, escape sequence or ESC. After a 'c'
there are none until the next Enter or letter. -/
def commandDigits : List TtyKey → List ℕ
  | [] => []
  | k :: keys =>
    if endsCommand (k :: keys) || endsSequence (k :: keys) || decide (k = .escape) then []
    else if .c ∈ sinceCommand keys then commandDigits keys
    else digits [k] ++ commandDigits keys

/-- What stands before them : an ESC is 27. -/
def lead (keys : List TtyKey) : ℕ :=
  if .escape ∈ sinceReset keys then 27 else 0

/-- A key A to D that is not part of an escape sequence meets no '[' since the last one, or a
command that is not 27. -/
def ArrowClean (keys : List TtyKey) : Prop :=
  [.bracket, .escape] <+: keys ∨ .bracket ∉ sinceSequence keys ∨
    Nat.ofDigits 10 (commandDigits keys ++ [lead keys]) % 2 ^ 32 ≠ 27

/-- The digits of the command that an ESC, or nothing, stands in the place of make no difference,
nor do the digits of the value from before the last escape sequence, and the numbers are no arrow
code. -/
structure EnterClean (keys : List TtyKey) : Prop where
  command : Nat.ofDigits 10 ((digitsBefore (sinceReset keys)).drop (commandDigits keys).length) *
      10 ^ (commandDigits keys).length ≡
    lead keys * 10 ^ (commandDigits keys).length [MOD 2 ^ 16]
  value : Nat.ofDigits 10 ((digitsAfter (sinceCommand keys)).drop
      (digitsAfter (sinceReset keys)).length) *
    10 ^ (digitsAfter (sinceReset keys)).length ≡ 0 [MOD 2 ^ 16]
  notArrow : ∀ i : Fin 4, ¬(typedCommand keys % 2 ^ 16 = 0x5b41 + i ∧
    typedValue keys % 2 ^ 16 = 0x1b)

/-- The condition on a key after others. -/
def Clean (past : List Byte) (key : Byte) : Prop :=
  match TtyKey.ofCommand key.toNat with
  | .arrow _ => ArrowClean (keysOf past)
  | .enter => EnterClean (keysOf past)
  | _ => True

/-! ## What a key does -/

/-- A key leads from `s` to `s'` and returns `ret`. -/
def Does (s s' : DevTty) (ret : BitVec 32) : TtyKey → Prop
  | .enter => s' = s.reset ∧ ret = DevTty.pack s.cmd s.val
  | .letter => (∃ n, s' = { s.reset with cursor := n }) ∧ ∀ i, ret ≠ arrowCode i
  | .c => s' = { s with checkVal := true } ∧ ret = 0
  | .escape => s' = { s with cmd := 0x1b } ∧ ret = 0
  | .bracket => s' = { s with lcmd := 0x5b } ∧ ret = 0
  | .arrow i =>
    if s.cmd = 0x1b ∧ s.lcmd = 0x5b then
      s' = { s with cmd := 0, lcmd := 0 } ∧ ret = arrowCode i
    else s' = s ∧ ret = 0
  | .digit d => s' = s.addDigit (BitVec.ofNat 32 d) ∧ ret = 0
  | .other => s' = s ∧ ∀ i, ret ≠ arrowCode i

theorem zero_ne_arrowCode (i : Fin 4) : (0 : BitVec 32) ≠ arrowCode i := by
  revert i
  decide

theorem letterCode_ne_arrowCode {command : ℤ} {code : BitVec 32}
    (h : DevTty.letterCode command = some code) (i : Fin 4) : code ≠ arrowCode i := by
  obtain ⟨e, he, rfl⟩ := Option.map_eq_some_iff.1 h
  have hall : ∀ e ∈ DevTty.letterCodes, ∀ i, e.2 ≠ arrowCode i := by decide
  exact hall e (List.mem_of_find?_eq_some he) i

theorem sign_ne_arrowCode {command : ℤ} (h : command = '+'.toNat ∨ command = '-'.toNat)
    (i : Fin 4) : BitVec.ofInt 32 command ≠ arrowCode i := by
  revert i
  rcases h with rfl | rfl
  · decide
  · decide

theorem arrowCode_eq {command : ℤ} (h : 0x41 ≤ command ∧ command ≤ 0x44) :
    (0x1b : BitVec 32) <<< 16 ||| (0x5b : BitVec 32) <<< 8 ||| BitVec.ofInt 32 command =
      arrowCode (Fin.ofNat 4 (command - 0x41).toNat) := by
  obtain ⟨hlow, hhigh⟩ := h
  interval_cases command <;> rfl

theorem digitValue_eq {command : ℤ} (h : '0'.toNat ≤ command ∧ command ≤ '9'.toNat) :
    BitVec.ofInt 32 (command - '0'.toNat) =
      BitVec.ofNat 32 (Fin.ofNat 10 (command - '0'.toNat).toNat) := by
  obtain ⟨hlow, hhigh⟩ := h
  change 48 ≤ command at hlow
  change command ≤ 57 at hhigh
  interval_cases command <;> rfl

theorem does_ttyFilter (s : DevTty) (command : ℤ) :
    Does s (s.ttyFilter command).1 (s.ttyFilter command).2 (TtyKey.ofCommand command) := by
  unfold DevTty.ttyFilter TtyKey.ofCommand
  by_cases hnone : command = -1 ∨ command = 0
  · rw [if_pos hnone]
    rcases hnone with rfl | rfl
    · exact ⟨rfl, zero_ne_arrowCode⟩
    · exact ⟨rfl, zero_ne_arrowCode⟩
  rw [if_neg hnone]
  by_cases henter : command = 0xa
  · rw [henter]
    exact ⟨rfl, rfl⟩
  by_cases hc : command = 'c'.toNat
  · rw [hc]
    exact ⟨rfl, rfl⟩
  dsimp only
  rw [if_neg hc, if_neg henter, if_neg henter, if_neg hc]
  cases hletter : DevTty.letterCode command with
  | some code => exact ⟨⟨s.cursor, rfl⟩, letterCode_ne_arrowCode hletter⟩
  | none =>
    dsimp only
    by_cases hshift : command = 'r'.toNat
    · rw [if_pos hshift, if_pos (.inr hshift)]
      exact ⟨⟨s.cursor + 1, rfl⟩, zero_ne_arrowCode⟩
    have hnot : ¬((none : Option (BitVec 32)).isSome = true ∨ command = 'r'.toNat) := by
      rw [Option.isSome_none]
      exact fun h => h.elim Bool.noConfusion hshift
    rw [if_neg hshift, if_neg hnot]
    split_ifs with hescape hbracket harrow hboth hdigit hplus hminus
    · exact ⟨rfl, rfl⟩
    · exact ⟨rfl, rfl⟩
    · rw [Does, if_pos hboth, hboth.1, hboth.2, arrowCode_eq harrow]
      exact ⟨rfl, rfl⟩
    · rw [Does, if_neg hboth]
      exact ⟨rfl, rfl⟩
    · rw [Does, digitValue_eq hdigit]
      exact ⟨rfl, rfl⟩
    · exact ⟨rfl, sign_ne_arrowCode (.inl hplus)⟩
    · exact ⟨rfl, sign_ne_arrowCode (.inr hminus)⟩
    · exact ⟨rfl, zero_ne_arrowCode⟩

/-! ## Digits and resets -/

section Lists

variable (k : TtyKey) (keys : List TtyKey)

theorem digits_cons : digits (k :: keys) = digits [k] ++ digits keys :=
  List.filterMap_append (l := [k])

/-- With no 'c' among older keys they are all before the first one. -/
theorem older_of_notMem (hc : .c ∉ keys) : ∀ x ∈ keys.reverse, decide (x ≠ TtyKey.c) = true :=
  fun _ hx => decide_eq_true fun h => hc (h ▸ List.mem_reverse.1 hx)

theorem digitsBefore_cons :
    digitsBefore (k :: keys) =
      if .c ∈ keys then digitsBefore keys else digits [k] ++ digitsBefore keys := by
  unfold digitsBefore List.rtakeWhile
  rw [List.reverse_cons]
  split_ifs with hc
  · rw [takeWhile_concat_of_mem (List.mem_reverse.2 hc) (by decide)]
  · have hall := older_of_notMem keys hc
    rw [List.takeWhile_append_of_pos hall, List.takeWhile_eq_self_iff.2 hall, List.reverse_append,
      List.reverse_reverse, digits, List.filterMap_append]
    cases k <;> rfl

theorem digitsAfter_cons :
    digitsAfter (k :: keys) = if .c ∈ keys then digits [k] ++ digitsAfter keys else [] := by
  unfold digitsAfter List.rdropWhile
  rw [List.reverse_cons]
  split_ifs with hc
  · rw [dropWhile_concat_of_mem (List.mem_reverse.2 hc) (by decide), List.reverse_append]
    exact digits_cons k _
  · rw [List.dropWhile_append_of_pos (older_of_notMem keys hc)]
    cases k <;> rfl

theorem digitsAfter_of_notMem (hc : .c ∉ keys) : digitsAfter keys = [] := by
  cases keys with
  | nil => rfl
  | cons k keys =>
    rw [digitsAfter_cons, if_neg (List.not_mem_of_not_mem_cons hc)]

/-- A key that is no digit adds none. -/
theorem digitsAfter_cons_of_digits_nil (hk : digits [k] = []) :
    digitsAfter (k :: keys) = digitsAfter keys := by
  rw [digitsAfter_cons]
  split_ifs with hc
  · rw [hk, List.nil_append]
  · exact (digitsAfter_of_notMem keys hc).symm

theorem since_cons_of_pos {p : List TtyKey → Bool} (h : p (k :: keys) = true) :
    since p (k :: keys) = [] :=
  if_pos h

theorem since_cons_of_neg {p : List TtyKey → Bool} (h : ¬p (k :: keys) = true) :
    since p (k :: keys) = k :: since p keys :=
  if_neg h

/-- What happens more often has happened more lately. -/
theorem since_prefix_since {p q : List TtyKey → Bool} (h : ∀ keys, p keys = true → q keys = true) :
    since q keys <+: since p keys := by
  induction keys with
  | nil => exact List.nil_prefix
  | cons k keys ih =>
    by_cases hq : q (k :: keys) = true
    · rw [since_cons_of_pos k keys hq]
      exact List.nil_prefix
    · rw [since_cons_of_neg k keys hq, since_cons_of_neg k keys fun hp => hq (h _ hp)]
      exact List.cons_prefix_cons.2 ⟨rfl, ih⟩

theorem sinceReset_prefix_since : sinceReset keys <+: sinceCommand keys :=
  since_prefix_since keys fun _ h => by rw [h, Bool.true_or]

theorem mem_sinceCommand (h : k ∈ sinceReset keys) : k ∈ sinceCommand keys :=
  (sinceReset_prefix_since keys).subset h

/-- A key that neither ends a command nor an escape sequence goes on with both. -/
theorem sinceReset_cons (hcommand : endsCommand (k :: keys) = false)
    (hsequence : endsSequence (k :: keys) = false) :
    sinceReset (k :: keys) = k :: sinceReset keys :=
  since_cons_of_neg k keys (by rw [hcommand, hsequence]; decide)

theorem sinceCommand_cons (hcommand : endsCommand (k :: keys) = false) :
    sinceCommand (k :: keys) = k :: sinceCommand keys :=
  since_cons_of_neg k keys (by rw [hcommand]; decide)

theorem sinceSequence_cons (hsequence : endsSequence (k :: keys) = false) :
    sinceSequence (k :: keys) = k :: sinceSequence keys :=
  since_cons_of_neg k keys (by rw [hsequence]; decide)

theorem bracket_mem_sinceSequence_cons (hsequence : endsSequence (k :: keys) = false)
    (hk : k ≠ .bracket) :
    .bracket ∈ sinceSequence (k :: keys) ↔ .bracket ∈ sinceSequence keys := by
  rw [sinceSequence_cons k keys hsequence, List.mem_cons, or_iff_right hk.symm]

theorem endsSequence_arrow_of_not (i : Fin 4) (h : ¬[.bracket, .escape] <+: keys) :
    endsSequence (.arrow i :: keys) = false := by
  rw [← Bool.not_eq_true]
  intro hend
  unfold endsSequence at hend
  split at hend
  · next hkeys =>
    obtain ⟨-, rfl⟩ := List.cons.inj hkeys
    exact h ⟨_, rfl⟩
  · cases hend

/-! ## The digits of the command -/

theorem commandDigits_cons (hcommand : endsCommand (k :: keys) = false)
    (hsequence : endsSequence (k :: keys) = false) (hescape : k ≠ .escape) :
    commandDigits (k :: keys) =
      if .c ∈ sinceCommand keys then commandDigits keys else digits [k] ++ commandDigits keys := by
  rw [commandDigits, hcommand, hsequence, decide_eq_false hescape]
  rfl

/-- A key that is no digit adds none. -/
theorem commandDigits_cons_of_digits_nil (hcommand : endsCommand (k :: keys) = false)
    (hsequence : endsSequence (k :: keys) = false) (hescape : k ≠ .escape) (hk : digits [k] = []) :
    commandDigits (k :: keys) = commandDigits keys := by
  rw [commandDigits_cons k keys hcommand hsequence hescape, hk, List.nil_append, ite_self]

theorem lead_cons (hcommand : endsCommand (k :: keys) = false)
    (hsequence : endsSequence (k :: keys) = false) (hescape : k ≠ .escape) :
    lead (k :: keys) = lead keys := by
  unfold lead
  rw [sinceReset_cons k keys hcommand hsequence]
  exact if_congr (List.mem_cons.trans (or_iff_right hescape.symm)) rfl rfl

theorem lead_escape : lead (.escape :: keys) = 27 := by
  rw [lead, sinceReset_cons _ keys rfl rfl]
  exact if_pos List.mem_cons_self

theorem not_ends_of_not (h : ¬(endsCommand (k :: keys) || endsSequence (k :: keys) ||
    decide (k = .escape)) = true) :
    endsCommand (k :: keys) = false ∧ endsSequence (k :: keys) = false ∧ k ≠ .escape := by
  rw [Bool.or_eq_true, Bool.or_eq_true, not_or, not_or, Bool.not_eq_true, Bool.not_eq_true] at h
  exact ⟨h.1.1, h.1.2, fun hk => h.2 (decide_eq_true hk)⟩

/-- After a 'c' from before the last escape sequence the command has no digits. -/
theorem commandDigits_eq_nil (hc : .c ∈ sinceCommand keys) (hreset : .c ∉ sinceReset keys) :
    commandDigits keys = [] := by
  induction keys with
  | nil => rfl
  | cons k keys ih =>
    by_cases hend : (endsCommand (k :: keys) || endsSequence (k :: keys) ||
        decide (k = .escape)) = true
    · exact if_pos hend
    · obtain ⟨hcommand, hsequence, hescape⟩ := not_ends_of_not k keys hend
      rw [sinceCommand_cons k keys hcommand] at hc
      rw [sinceReset_cons k keys hcommand hsequence, List.mem_cons, not_or] at hreset
      have hc' := (List.mem_cons.1 hc).resolve_left hreset.1
      rw [commandDigits_cons k keys hcommand hsequence hescape, if_pos hc']
      exact ih hc' hreset.2

/-- The digits of the command are the last ones that were typed for it. -/
theorem commandDigits_prefix_before : commandDigits keys <+: digitsBefore (sinceReset keys) := by
  induction keys with
  | nil => exact List.nil_prefix
  | cons k keys ih =>
    by_cases hend : (endsCommand (k :: keys) || endsSequence (k :: keys) ||
        decide (k = .escape)) = true
    · rw [commandDigits, if_pos hend]
      exact List.nil_prefix
    · obtain ⟨hcommand, hsequence, hescape⟩ := not_ends_of_not k keys hend
      rw [commandDigits_cons k keys hcommand hsequence hescape,
        sinceReset_cons k keys hcommand hsequence, digitsBefore_cons]
      by_cases hreset : .c ∈ sinceReset keys
      · rw [if_pos hreset, if_pos (mem_sinceCommand .c keys hreset)]
        exact ih
      · rw [if_neg hreset]
        split_ifs with hc
        · rw [commandDigits_eq_nil keys hc hreset]
          exact List.nil_prefix
        · exact (List.prefix_append_right_inj _).2 ih

/-- The digits of the value since the last escape sequence are the last ones typed for it. -/
theorem digitsAfter_prefix_since :
    digitsAfter (sinceReset keys) <+: digitsAfter (sinceCommand keys) := by
  induction keys with
  | nil => exact List.nil_prefix
  | cons k keys ih =>
    by_cases hend : (endsCommand (k :: keys) || endsSequence (k :: keys)) = true
    · rw [sinceReset, since_cons_of_pos k keys hend]
      exact List.nil_prefix
    · rw [Bool.or_eq_true, not_or, Bool.not_eq_true, Bool.not_eq_true] at hend
      rw [sinceReset_cons k keys hend.1 hend.2, sinceCommand_cons k keys hend.1, digitsAfter_cons,
        digitsAfter_cons]
      by_cases hreset : .c ∈ sinceReset keys
      · rw [if_pos hreset, if_pos (mem_sinceCommand .c keys hreset)]
        exact (List.prefix_append_right_inj _).2 ih
      · rw [if_neg hreset]
        exact List.nil_prefix

end Lists

/-! ## The variables -/

/-- What the variables are after keys. -/
structure Tracks (keys : List TtyKey) (s : DevTty) : Prop where
  cmd : s.cmd = BitVec.ofNat 32 (Nat.ofDigits 10 (commandDigits keys ++ [lead keys]))
  lcmd : s.lcmd = if .bracket ∈ sinceSequence keys then 0x5b else 0
  val : s.val = BitVec.ofNat 32 (Nat.ofDigits 10 (digitsAfter (sinceCommand keys)))
  checkVal : s.checkVal = decide (.c ∈ sinceCommand keys)

/-- One more digit is one at the lower end of the number. -/
theorem ofNat_ofDigits_cons (d : ℕ) (ds : List ℕ) :
    BitVec.ofNat 32 (Nat.ofDigits 10 (d :: ds)) =
      BitVec.ofNat 32 (Nat.ofDigits 10 ds) * 10 + BitVec.ofNat 32 d := by
  rw [Nat.ofDigits_cons, Nat.add_comm, Nat.mul_comm, BitVec.ofNat_add, BitVec.ofNat_mul]
  rfl

namespace Tracks

variable {keys : List TtyKey} {s : DevTty} {k : TtyKey}

theorem init : Tracks [] {} where
  cmd := rfl
  lcmd := rfl
  val := rfl
  checkVal := rfl

/-- An Enter or a letter starts over, but '[' stays. -/
theorem reset (h : Tracks keys s) (hk : k = .enter ∨ k = .letter) (n : ℕ) :
    Tracks (k :: keys) { s.reset with cursor := n } := by
  rcases hk with rfl | rfl
  · have hmem := bracket_mem_sinceSequence_cons .enter keys rfl (by decide)
    exact ⟨rfl, h.lcmd.trans (if_congr hmem.symm rfl rfl), rfl, rfl⟩
  · have hmem := bracket_mem_sinceSequence_cons .letter keys rfl (by decide)
    exact ⟨rfl, h.lcmd.trans (if_congr hmem.symm rfl rfl), rfl, rfl⟩

/-- A key that ends nothing, with what it makes of the command and the value. -/
theorem cons (h : Tracks keys s) (hcommand : endsCommand (k :: keys) = false)
    (hsequence : endsSequence (k :: keys) = false) {cmd val : BitVec 32}
    (hcmd : cmd =
      BitVec.ofNat 32 (Nat.ofDigits 10 (commandDigits (k :: keys) ++ [lead (k :: keys)])))
    (hval : val = BitVec.ofNat 32 (Nat.ofDigits 10 (digitsAfter (k :: sinceCommand keys)))) :
    Tracks (k :: keys)
      { s with
        cmd := cmd
        lcmd := if k = .bracket then 0x5b else s.lcmd
        val := val
        checkVal := decide (k = .c) || s.checkVal } where
  cmd := hcmd
  lcmd := by
    by_cases hk : k = .bracket
    · rw [sinceSequence_cons k keys hsequence, if_pos (List.mem_cons.2 (.inl hk.symm))]
      exact if_pos hk
    · rw [if_congr (bracket_mem_sinceSequence_cons k keys hsequence hk) rfl rfl, ← h.lcmd]
      exact if_neg hk
  val := by
    rw [sinceCommand_cons k keys hcommand]
    exact hval
  checkVal := by
    rw [sinceCommand_cons k keys hcommand, h.checkVal, ← Bool.decide_or]
    exact decide_eq_decide.2 (by rw [List.mem_cons, eq_comm])

/-- A key that is no digit and no ESC. -/
theorem plain (h : Tracks keys s) (hcommand : endsCommand (k :: keys) = false)
    (hsequence : endsSequence (k :: keys) = false) (hescape : k ≠ .escape)
    (hdigits : digits [k] = []) :
    Tracks (k :: keys)
      { s with
        lcmd := if k = .bracket then 0x5b else s.lcmd
        checkVal := decide (k = .c) || s.checkVal } := by
  refine h.cons hcommand hsequence ?_ ?_
  · rw [commandDigits_cons_of_digits_nil k keys hcommand hsequence hescape hdigits,
      lead_cons k keys hcommand hsequence hescape]
    exact h.cmd
  · rw [digitsAfter_cons_of_digits_nil k _ hdigits]
    exact h.val

/-- An ESC puts 27 in the place of the command. -/
theorem escape (h : Tracks keys s) : Tracks (.escape :: keys) { s with cmd := 0x1b } := by
  refine h.cons rfl rfl ?_ ?_
  · rw [lead_escape]
    rfl
  · rw [digitsAfter_cons_of_digits_nil _ _ rfl]
    exact h.val

theorem digit (h : Tracks keys s) (d : Fin 10) :
    Tracks (.digit d :: keys) (s.addDigit (BitVec.ofNat 32 d)) := by
  have hcommand := commandDigits_cons (.digit d) keys rfl rfl TtyKey.noConfusion
  have hlead := lead_cons (.digit d) keys rfl rfl TtyKey.noConfusion
  have hafter := digitsAfter_cons (.digit d) (sinceCommand keys)
  unfold DevTty.addDigit
  by_cases hc : .c ∈ sinceCommand keys
  · rw [if_pos hc] at hcommand hafter
    rw [if_pos (h.checkVal.trans (decide_eq_true hc))]
    refine h.cons rfl rfl ?_ ?_
    · rw [hcommand, hlead]
      exact h.cmd
    · rw [hafter, h.val]
      exact (ofNat_ofDigits_cons d _).symm
  · rw [if_neg hc] at hcommand hafter
    rw [if_neg (by rw [h.checkVal, decide_eq_false hc]; decide)]
    refine h.cons rfl rfl ?_ ?_
    · rw [hcommand, hlead, h.cmd]
      exact (ofNat_ofDigits_cons d _).symm
    · rw [hafter, h.val, digitsAfter_of_notMem _ hc]

/-- What a key A to D needs for its code. -/
theorem ready_iff (h : Tracks keys s) : s.cmd = 0x1b ∧ s.lcmd = 0x5b ↔
    .bracket ∈ sinceSequence keys ∧
      Nat.ofDigits 10 (commandDigits keys ++ [lead keys]) % 2 ^ 32 = 27 := by
  have hcmd : s.cmd = 0x1b ↔
      Nat.ofDigits 10 (commandDigits keys ++ [lead keys]) % 2 ^ 32 = 27 := by
    rw [h.cmd, ← BitVec.toNat_inj, BitVec.toNat_ofNat]
    rfl
  have hlcmd : s.lcmd = 0x5b ↔ .bracket ∈ sinceSequence keys := by
    rw [h.lcmd]
    split_ifs with hmem
    · exact iff_of_true rfl hmem
    · exact iff_of_false (by decide) hmem
  rw [hcmd, hlcmd, and_comm]

theorem ready_of_sequence (h : Tracks keys s) (hseq : [.bracket, .escape] <+: keys) :
    s.cmd = 0x1b ∧ s.lcmd = 0x5b := by
  obtain ⟨rest, rfl⟩ := hseq
  refine h.ready_iff.2 ⟨?_, ?_⟩
  · rw [List.cons_append, sinceSequence_cons _ _ rfl]
    exact List.mem_cons_self
  · rw [List.cons_append, lead_cons _ _ rfl rfl (by decide), List.singleton_append, lead_escape,
      commandDigits_cons_of_digits_nil _ _ rfl rfl (by decide) rfl]
    rfl

/-- An escape sequence leaves the value and a pending 'c'. -/
theorem sequence (h : Tracks keys s) (hseq : [.bracket, .escape] <+: keys) (i : Fin 4) :
    Tracks (.arrow i :: keys) { s with cmd := 0, lcmd := 0 } := by
  obtain ⟨rest, rfl⟩ := hseq
  refine ⟨rfl, rfl, ?_, ?_⟩
  · rw [sinceCommand_cons _ _ rfl, digitsAfter_cons_of_digits_nil _ _ rfl]
    exact h.val
  · have hmem : .c ∈ TtyKey.arrow i :: sinceCommand (.bracket :: .escape :: rest) ↔
        .c ∈ sinceCommand (.bracket :: .escape :: rest) :=
      List.mem_cons.trans (or_iff_right TtyKey.noConfusion)
    rw [sinceCommand_cons _ _ rfl]
    exact h.checkVal.trans (decide_eq_decide.2 hmem.symm)

/-- A key A to D that meets the condition returns its code exactly at the end of an escape
sequence. -/
theorem ready_iff_of_clean (h : Tracks keys s) (hclean : ArrowClean keys) :
    s.cmd = 0x1b ∧ s.lcmd = 0x5b ↔ [.bracket, .escape] <+: keys := by
  refine ⟨fun hready => ?_, h.ready_of_sequence⟩
  obtain ⟨hbracket, hcmd⟩ := h.ready_iff.1 hready
  rcases hclean with hseq | hnot | hne
  · exact hseq
  · exact absurd hbracket hnot
  · exact absurd hcmd hne

/-- A key that is no end of an escape sequence, or meets the condition, leaves the variables as
they are to be. -/
theorem step (h : Tracks keys s) {s' : DevTty} {ret : BitVec 32} (hdoes : Does s s' ret k)
    (hclean : ∀ i, k = .arrow i → ArrowClean keys) : Tracks (k :: keys) s' := by
  cases k with
  | enter =>
    obtain ⟨rfl, -⟩ := hdoes
    exact h.reset (.inl rfl) s.cursor
  | letter =>
    obtain ⟨⟨n, rfl⟩, -⟩ := hdoes
    exact h.reset (.inr rfl) n
  | c =>
    obtain ⟨rfl, -⟩ := hdoes
    exact h.plain rfl rfl (by decide) rfl
  | escape =>
    obtain ⟨rfl, -⟩ := hdoes
    exact h.escape
  | bracket =>
    obtain ⟨rfl, -⟩ := hdoes
    exact h.plain rfl rfl (by decide) rfl
  | arrow i =>
    have hready := h.ready_iff_of_clean (hclean i rfl)
    by_cases hseq : [.bracket, .escape] <+: keys
    · rw [Does, if_pos (hready.2 hseq)] at hdoes
      obtain ⟨rfl, -⟩ := hdoes
      exact h.sequence hseq i
    · rw [Does, if_neg fun hr => hseq (hready.1 hr)] at hdoes
      obtain ⟨rfl, -⟩ := hdoes
      exact h.plain rfl (endsSequence_arrow_of_not keys i hseq) nofun rfl
  | digit d =>
    obtain ⟨rfl, -⟩ := hdoes
    exact h.digit d
  | other =>
    obtain ⟨rfl, -⟩ := hdoes
    exact h.plain rfl rfl (by decide) rfl

end Tracks

/-! ## What a key returns -/

theorem arrowCode_injective : Function.Injective arrowCode := by
  unfold Function.Injective
  decide

theorem Does.ne_arrowCode {s s' : DevTty} {ret : BitVec 32} {k : TtyKey} (h : Does s s' ret k)
    (henter : k ≠ .enter) (harrow : ∀ i, k ≠ .arrow i) (i : Fin 4) : ret ≠ arrowCode i := by
  cases k with
  | enter => exact absurd rfl henter
  | letter => exact h.2 i
  | c => exact h.2.symm ▸ zero_ne_arrowCode i
  | escape => exact h.2.symm ▸ zero_ne_arrowCode i
  | bracket => exact h.2.symm ▸ zero_ne_arrowCode i
  | arrow j => exact absurd rfl (harrow j)
  | digit d => exact h.2.symm ▸ zero_ne_arrowCode i
  | other => exact h.2 i

/-- The digits of a number up to some place. -/
theorem ofDigits_of_prefix {ds es : List ℕ} (h : ds <+: es) :
    Nat.ofDigits 10 es =
      Nat.ofDigits 10 ds + Nat.ofDigits 10 (es.drop ds.length) * 10 ^ ds.length := by
  obtain ⟨rest, rfl⟩ := h
  rw [Nat.ofDigits_append, List.drop_left, Nat.mul_comm]

theorem pack_eq_iff {cmd val : BitVec 32} {m n : ℕ} :
    DevTty.pack cmd val = BitVec.ofNat 32 (m % 2 ^ 16 + 2 ^ 16 * (n % 2 ^ 16)) ↔
      cmd.toNat % 2 ^ 16 = m % 2 ^ 16 ∧ val.toNat % 2 ^ 16 = n % 2 ^ 16 := by
  rw [← BitVec.toNat_inj, DevTty.toNat_pack, BitVec.toNat_ofNat]
  omega

theorem pack_eq_arrowCode_iff {cmd val : BitVec 32} {i : Fin 4} :
    DevTty.pack cmd val = arrowCode i ↔
      cmd.toNat % 2 ^ 16 = 0x5b41 + i ∧ val.toNat % 2 ^ 16 = 0x1b := by
  rw [← BitVec.toNat_inj, DevTty.toNat_pack, arrowCode, BitVec.toNat_ofNat]
  omega

namespace Tracks

variable {keys : List TtyKey} {s : DevTty}

theorem command_iff (h : Tracks keys s) : s.cmd.toNat % 2 ^ 16 = typedCommand keys % 2 ^ 16 ↔
    Nat.ofDigits 10 ((digitsBefore (sinceReset keys)).drop (commandDigits keys).length) *
        10 ^ (commandDigits keys).length ≡
      lead keys * 10 ^ (commandDigits keys).length [MOD 2 ^ 16] := by
  rw [h.cmd, BitVec.toNat_ofNat, Nat.mod_mod_of_dvd _ (by decide), typedCommand,
    ofDigits_of_prefix (commandDigits_prefix_before keys), Nat.ofDigits_append,
    Nat.ofDigits_singleton, Nat.mul_comm _ (lead keys)]
  exact Nat.ModEq.rfl.add_iff_left.trans Nat.ModEq.comm

theorem value_iff (h : Tracks keys s) : s.val.toNat % 2 ^ 16 = typedValue keys % 2 ^ 16 ↔
    Nat.ofDigits 10 ((digitsAfter (sinceCommand keys)).drop
        (digitsAfter (sinceReset keys)).length) *
      10 ^ (digitsAfter (sinceReset keys)).length ≡ 0 [MOD 2 ^ 16] := by
  rw [h.val, BitVec.toNat_ofNat, Nat.mod_mod_of_dvd _ (by decide),
    ofDigits_of_prefix (digitsAfter_prefix_since keys)]
  exact Nat.ModEq.rfl.add_iff_left (d := 0)

theorem arrow_iff (h : Tracks keys s) {s' : DevTty} {ret : BitVec 32} {j : Fin 4}
    (hdoes : Does s s' ret (.arrow j)) :
    (∀ i, ret = arrowCode i ↔ [.arrow i, .bracket, .escape] <+: TtyKey.arrow j :: keys) ↔
      ArrowClean keys := by
  unfold Does at hdoes
  split_ifs at hdoes with hready
  · obtain ⟨-, rfl⟩ := hdoes
    constructor
    · intro hall
      exact .inl (List.cons_prefix_cons.1 ((hall j).1 rfl)).2
    · intro hclean i
      have hseq := (h.ready_iff_of_clean hclean).1 hready
      rw [List.cons_prefix_cons, TtyKey.arrow.injEq, arrowCode_injective.eq_iff, eq_comm]
      exact (and_iff_left hseq).symm
  · obtain ⟨-, rfl⟩ := hdoes
    refine iff_of_true (fun i => iff_of_false (zero_ne_arrowCode i) fun hseq => ?_) ?_
    · exact hready (h.ready_of_sequence (List.cons_prefix_cons.1 hseq).2)
    · rw [h.ready_iff, not_and_or] at hready
      exact .inr hready

theorem enter_iff (h : Tracks keys s) :
    ((∀ i, DevTty.pack s.cmd s.val ≠ arrowCode i) ∧ DevTty.pack s.cmd s.val = BitVec.ofNat 32
        (typedCommand keys % 2 ^ 16 + 2 ^ 16 * (typedValue keys % 2 ^ 16))) ↔
      EnterClean keys := by
  rw [pack_eq_iff]
  constructor
  · rintro ⟨harrow, hcmd, hval⟩
    refine ⟨h.command_iff.1 hcmd, h.value_iff.1 hval, fun i hi => harrow i ?_⟩
    rw [pack_eq_arrowCode_iff, hcmd, hval]
    exact hi
  · rintro ⟨hcommand, hvalue, hnot⟩
    have hcmd := h.command_iff.2 hcommand
    have hval := h.value_iff.2 hvalue
    refine ⟨fun i hi => hnot i ?_, hcmd, hval⟩
    rw [pack_eq_arrowCode_iff, hcmd, hval] at hi
    exact hi

end Tracks

/-! ## Sequences of keys -/

theorem keysOf_snoc (past : List Byte) (key : Byte) :
    keysOf (past ++ [key]) = TtyKey.ofCommand key.toNat :: keysOf past := by
  unfold keysOf
  rw [List.map_append, List.reverse_append]
  rfl

theorem ofCommand_eq_enter_iff {command : ℤ} :
    TtyKey.ofCommand command = .enter ↔ command = 0xa := by
  unfold TtyKey.ofCommand
  split_ifs with henter <;> simp [henter]

/-- A key after others is decoded exactly when it meets the condition. -/
theorem decodes_iff_clean {past : List Byte} (h : Tracks (keysOf past) (run step {} past).1)
    (key : Byte) : Decodes past key ↔ Clean past key := by
  have hdoes : Does _ _ (returned past key) _ := does_ttyFilter (run step {} past).1 key.toNat
  have hkey : key = 0xa ↔ TtyKey.ofCommand key.toNat = .enter := by
    rw [ofCommand_eq_enter_iff]
    exact ⟨fun hk => hk ▸ rfl, fun hk => BitVec.eq_of_toNat_eq (Int.ofNat_inj.1 hk)⟩
  have hdecodes : Decodes past key ↔
      (∀ i, returned past key = arrowCode i ↔
        [.arrow i, .bracket, .escape] <+: TtyKey.ofCommand key.toNat :: keysOf past) ∧
      (TtyKey.ofCommand key.toNat = .enter → returned past key = BitVec.ofNat 32
        (typedCommand (keysOf past) % 2 ^ 16 + 2 ^ 16 * (typedValue (keysOf past) % 2 ^ 16))) := by
    rw [← keysOf_snoc, ← hkey]
    exact ⟨fun hd => ⟨hd.arrow, hd.enter⟩, fun hd => ⟨hd.1, hd.2⟩⟩
  rw [hdecodes, Clean]
  generalize TtyKey.ofCommand key.toNat = k at hdoes
  by_cases harrow : ∃ j, k = .arrow j
  · obtain ⟨j, rfl⟩ := harrow
    exact (and_iff_left nofun).trans (h.arrow_iff hdoes)
  have hnot : ∀ i, ¬[.arrow i, .bracket, .escape] <+: k :: keysOf past :=
    fun i hi => harrow ⟨i, (List.cons_prefix_cons.1 hi).1.symm⟩
  by_cases henter : k = .enter
  · subst henter
    rw [← h.enter_iff, ← hdoes.2]
    exact and_congr (forall_congr' fun i => iff_false_right (hnot i)) (forall_prop_of_true rfl)
  · have hne := hdoes.ne_arrowCode henter fun i hi => harrow ⟨i, hi⟩
    cases k with
    | enter => exact absurd rfl henter
    | arrow j => exact absurd ⟨j, rfl⟩ harrow
    | _ => exact iff_of_true ⟨fun i => iff_of_false (hne i) (hnot i), nofun⟩ trivial

theorem tracks_step {past : List Byte} {s : DevTty} (h : Tracks (keysOf past) s) {key : Byte}
    (hclean : Clean past key) : Tracks (keysOf (past ++ [key])) (step s key).1 := by
  rw [keysOf_snoc]
  refine h.step (does_ttyFilter s key.toNat) fun i hi => ?_
  rw [Clean, hi] at hclean
  exact hclean

/-- A sequence of keys is decoded exactly when every key meets the condition. -/
theorem keys_decoded_iff (keys : List Byte) :
    (∀ past key rest, keys = past ++ key :: rest → Decodes past key) ↔
      ∀ past key rest, keys = past ++ key :: rest → Clean past key :=
  forall_history_iff (fun past s => Tracks (keysOf past) s) (fun _ key h => decodes_iff_clean h key)
    (fun _ _ _ h hclean => tracks_step h hclean) keys Tracks.init

/-- After ESC, 5 Enter returns 275. -/
theorem not_keys_decoded :
    ¬∀ keys past key rest, keys = past ++ key :: rest → Decodes past key := by
  intro h
  have henter := (h [0x1b, 0x35, 0xa] [0x1b, 0x35] 0xa [] rfl).enter rfl
  revert henter
  decide

end KeyDecoding

end Mastiff.Device

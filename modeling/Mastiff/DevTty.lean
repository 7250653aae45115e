import Mastiff.Lib.Machine
import Mathlib.Data.Int.Notation

/-!
# Keys of the terminal

`tty_filter` (`chassis/devices/dev_libs/dev_tty.cc`) reads one key at a time and keeps what has
been typed in four file-scope variables. A letter is a code of its own, and Enter packs the
command and the value that were typed into one `int`, 16 bits each. Arithmetic on an `int` wraps
round. What is printed is left out.

`pack_low` and `pack_high` : the halves of what Enter returns are the low halves of the command
and the value.
-/

namespace Mastiff.Device

/-! ## Lists of keys -/

section Lists

variable {α : Type} {p : α → Bool} {l : List α} {x : α}

/-- What comes after an element at which a list is cut does not count. -/
theorem takeWhile_concat_of_mem (hx : x ∈ l) (hp : ¬p x = true) (y : α) :
    (l ++ [y]).takeWhile p = l.takeWhile p := by
  induction l with
  | nil => cases hx
  | cons z l ih =>
    by_cases hz : p z = true
    · have hmem : x ∈ l := (List.mem_cons.1 hx).resolve_left fun h => hp (h ▸ hz)
      rw [List.cons_append, List.takeWhile_cons_of_pos hz, List.takeWhile_cons_of_pos hz, ih hmem]
    · rw [List.cons_append, List.takeWhile_cons_of_neg hz, List.takeWhile_cons_of_neg hz]

theorem dropWhile_concat_of_mem (hx : x ∈ l) (hp : ¬p x = true) (y : α) :
    (l ++ [y]).dropWhile p = l.dropWhile p ++ [y] := by
  induction l with
  | nil => cases hx
  | cons z l ih =>
    by_cases hz : p z = true
    · have hmem : x ∈ l := (List.mem_cons.1 hx).resolve_left fun h => hp (h ▸ hz)
      rw [List.cons_append, List.dropWhile_cons_of_pos hz, List.dropWhile_cons_of_pos hz, ih hmem]
    · rw [List.cons_append, List.dropWhile_cons_of_neg hz, List.dropWhile_cons_of_neg hz,
        List.cons_append]

end Lists

/-! ## The terminal -/

/-- The variables of `tty_filter`, and how often `tty_handle_list_cursor` has moved on. -/
structure DevTty where
  cmd : BitVec 32 := 0
  lcmd : BitVec 32 := 0
  val : BitVec 32 := 0
  checkVal : Bool := false
  cursor : ℕ := 0
  deriving DecidableEq

namespace DevTty

/-- The letters with a code, which all reset what was typed. -/
def letterCodes : List (Char × BitVec 32) :=
  [('w', 0x1b4b41), ('s', 0x1b4b42), ('d', 0x1b4b43), ('a', 0x1b4b44), ('e', 0x1b4b45),
    ('t', 0x1b4b46), ('y', 0x1b4b47), ('u', 0x1b4b48), ('i', 0x1b4b49), ('o', 0x1b4b50),
    ('p', 0x1b4b51), ('l', 0x1b4b52), ('n', 0x1b4b53), ('m', 0x1b4b54), ('v', 0x1b4b55),
    ('x', 0x1b4b56), ('z', 0x1b4b57), ('g', 0x1b4b58), ('b', 0x1b4b59), ('f', 0x1b4b60),
    ('h', 0x1b4b61), ('j', 0x1b4b62), ('k', 0x1b4b63), ('q', 0x71)]

/-- The code of a key, if it is one of the letters. -/
def letterCode (command : ℤ) : Option (BitVec 32) :=
  (letterCodes.find? fun e => command = e.1.toNat).map Prod.snd

/-- What Enter returns. -/
def pack (cmd val : BitVec 32) : BitVec 32 :=
  (cmd &&& 0xffff#32) ||| ((val &&& 0xffff#32) <<< 16)

/-- What is left of the variables after a letter, Enter or a change of the handler. -/
def reset (s : DevTty) : DevTty :=
  { s with cmd := 0, val := 0, checkVal := false }

/-- A digit goes to the command, or after a 'c' to the value. -/
def addDigit (s : DevTty) (k : BitVec 32) : DevTty :=
  if s.checkVal then { s with val := s.val * 10 + k } else { s with cmd := s.cmd * 10 + k }

/-- `tty_filter`, for what `readkey` has returned : the key, 0 for none or -1 for an error. -/
def ttyFilter (s : DevTty) (command : ℤ) : DevTty × BitVec 32 :=
  if command = -1 ∨ command = 0 then (s, 0)
  else
    let s := if command = 'c'.toNat then { s with checkVal := true } else s
    if command = 0xa then (s.reset, pack s.cmd s.val)
    else
      match letterCode command with
      | some code => (s.reset, code)
      | none =>
        if command = 'r'.toNat then ({ s.reset with cursor := s.cursor + 1 }, 0)
        else if command = 0x1b then ({ s with cmd := 0x1b }, 0)
        else if command = 0x5b then ({ s with lcmd := 0x5b }, 0)
        else if 0x41 ≤ command ∧ command ≤ 0x44 then
          if s.cmd = 0x1b ∧ s.lcmd = 0x5b then
            ({ s with cmd := 0, lcmd := 0 },
              s.cmd <<< 16 ||| s.lcmd <<< 8 ||| BitVec.ofInt 32 command)
          else (s, 0)
        else if '0'.toNat ≤ command ∧ command ≤ '9'.toNat then
          (s.addDigit (BitVec.ofInt 32 (command - '0'.toNat)), 0)
        else if command = '+'.toNat then (s, BitVec.ofInt 32 command)
        else if command = '-'.toNat then (s, BitVec.ofInt 32 command)
        else (s, 0)

/-! ## Packing -/

theorem toNat_and_low (x : BitVec 32) : (x &&& 0xffff#32).toNat = x.toNat % 2 ^ 16 := by
  rw [BitVec.toNat_and]
  exact Nat.and_two_pow_sub_one_eq_mod x.toNat 16

theorem toNat_pack (cmd val : BitVec 32) :
    (pack cmd val).toNat = cmd.toNat % 2 ^ 16 + val.toNat % 2 ^ 16 * 2 ^ 16 := by
  have hcmd : cmd.toNat % 2 ^ 16 < 2 ^ 16 := Nat.mod_lt _ (by decide)
  have hval : val.toNat % 2 ^ 16 < 2 ^ 16 := Nat.mod_lt _ (by decide)
  have hshift : (val.toNat % 2 ^ 16) <<< 16 % 2 ^ 32 = (val.toNat % 2 ^ 16) <<< 16 := by
    rw [Nat.shiftLeft_eq]
    omega
  rw [pack, BitVec.toNat_or, BitVec.toNat_shiftLeft, toNat_and_low, toNat_and_low, hshift,
    Nat.or_comm, ← Nat.shiftLeft_add_eq_or_of_lt hcmd, Nat.shiftLeft_eq, Nat.add_comm]

/-- The low half of what Enter returns. -/
theorem pack_low (cmd val : BitVec 32) : pack cmd val &&& 0xffff#32 = cmd &&& 0xffff#32 := by
  apply BitVec.eq_of_toNat_eq
  rw [toNat_and_low, toNat_pack, toNat_and_low]
  omega

theorem and_high (x : BitVec 32) : x &&& 0xffff0000#32 = (x >>> 16) <<< 16 := by
  have hmask : 0xffff0000#32 = BitVec.allOnes 32 <<< 16 := by decide
  rw [hmask]
  ext i hi
  simp only [BitVec.getElem_and, BitVec.getElem_shiftLeft, BitVec.getElem_ushiftRight,
    BitVec.getElem_allOnes]
  by_cases hlow : i < 16
  · simp [hlow]
  · have hi' : 16 + (i - 16) = i := by omega
    simp [hlow, hi', BitVec.getLsbD_eq_getElem hi]

/-- The high half of what Enter returns. -/
theorem pack_high (cmd val : BitVec 32) :
    (pack cmd val &&& 0xffff0000#32) >>> 16 = val &&& 0xffff#32 := by
  apply BitVec.eq_of_toNat_eq
  rw [and_high, BitVec.toNat_ushiftRight, BitVec.toNat_shiftLeft, BitVec.toNat_ushiftRight,
    toNat_pack, toNat_and_low]
  simp only [Nat.shiftLeft_eq, Nat.shiftRight_eq_div_pow]
  omega

end DevTty

end Mastiff.Device

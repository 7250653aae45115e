import Mathlib.Data.Int.Notation
import Mathlib.Data.List.Basic
import Mathlib.Data.List.TakeWhile

/-!
# Formatted text

C strings are lists of characters, of which each stands for a `char`, that is a byte : lengths
count bytes. `decimal` and `decimal02` print as `%d` and `%02d` do,
and `sscanf` reads by a format of literal characters, white space, `%d` and `%[^\n]`. What
was printed is read back (`sscanf_decimal`, `sscanf_decimal02`, `sscanf_line`), and what is
read of a line begins with no white space (`noSpace_of_text_mem`).
-/

namespace Scanf

/-- `isspace`. -/
def isSpace (c : Char) : Bool :=
  c = ' ' || c = '\t' || c = '\n' || c = '\x0b' || c = '\x0c' || c = '\r'

/-- A text that does not begin with white space. -/
def NoSpace (s : List Char) : Prop :=
  ∀ c ∈ s.head?, isSpace c = false

instance decidableNoSpace : (s : List Char) → Decidable (NoSpace s)
  | [] => isTrue (by rintro c ⟨⟩)
  | c :: _ => decidable_of_iff (isSpace c = false) ⟨by rintro h _ ⟨⟩; exact h, fun h => h c rfl⟩

/-! ## Printing -/

/-- `%d` of a number. -/
def decimal : ℤ → List Char
  | .ofNat n => Nat.toDigits 10 n
  | .negSucc n => '-' :: Nat.toDigits 10 (n + 1)

/-- `%02d` of a natural number. -/
def decimal02 (n : ℕ) : List Char :=
  List.replicate (2 - (Nat.toDigits 10 n).length) '0' ++ Nat.toDigits 10 n

/-! ## Reading -/

/-- A piece of a format. -/
inductive Directive
  | white
  | lit (c : Char)
  | int
  | line
  deriving DecidableEq

/-- What a conversion has read. -/
inductive Value
  | int (n : ℤ)
  | text (s : List Char)
  deriving DecidableEq

/-- The directives of a format, the conversions in it being `%d` and `%[^\n]`. -/
def directives : List Char → List Directive
  | '%' :: 'd' :: f => .int :: directives f
  | '%' :: '[' :: '^' :: '\n' :: ']' :: f => .line :: directives f
  | c :: f => (if isSpace c then .white else .lit c) :: directives f
  | [] => []

/-- The digits at the front, as a number, and what follows them. -/
def readNat (s : List Char) : Option (ℕ × List Char) :=
  match s.takeWhile Char.isDigit with
  | [] => none
  | ds => some (Nat.ofDigitChars 10 ds 0, s.dropWhile Char.isDigit)

/-- The number at the front, and what follows it. -/
def readInt : List Char → Option (ℤ × List Char)
  | '-' :: s => (readNat s).map fun r => (-r.1, r.2)
  | '+' :: s => (readNat s).map fun r => (r.1, r.2)
  | s => (readNat s).map fun r => (r.1, r.2)

/-- The values that `sscanf` converts before the format or the matching input ends, and
whether the input ended before the first conversion (`EOF`). -/
def sscanf : List Directive → List Char → List Value × Bool
  | [], _ => ([], false)
  | .white :: f, s => sscanf f (s.dropWhile isSpace)
  | .lit _ :: _, [] => ([], true)
  | .lit c :: f, b :: s => if b = c then sscanf f s else ([], false)
  | .int :: f, s =>
    match s.dropWhile isSpace with
    | [] => ([], true)
    | s =>
      match readInt s with
      | none => ([], false)
      | some (n, s) => (.int n :: (sscanf f s).1, false)
  | .line :: _, [] => ([], true)
  | .line :: f, s =>
    match s.takeWhile (· ≠ '\n') with
    | [] => ([], false)
    | t => (.text t :: (sscanf f (s.dropWhile (· ≠ '\n'))).1, false)

/-- What follows the first line break, if there is one. -/
def afterLine : List Char → Option (List Char)
  | [] => none
  | c :: s => if c = '\n' then some s else afterLine s

example : sscanf (directives "a: %d, b: %[^\n]\n".toList) "a:  -07, b: x y\nz".toList =
    ([.int (-7), .text ['x', ' ', 'y']], false) := by decide

/-! ## What is read -/

theorem mem_sscanf_line {f : List Directive} {s : List Char} {v : Value}
    (hv : v ∈ (sscanf (.line :: f) s).1) :
    v = .text (s.takeWhile (· ≠ '\n')) ∨ ∃ s', v ∈ (sscanf f s').1 := by
  cases s with
  | nil => cases hv
  | cons c s =>
    unfold sscanf at hv
    split at hv
    · cases hv
    · rcases List.mem_cons.1 hv with hv | hv
      · exact .inl hv
      · exact .inr ⟨_, hv⟩

theorem mem_sscanf_int {f : List Directive} {s : List Char} {v : Value}
    (hv : v ∈ (sscanf (.int :: f) s).1) : (∃ n, v = .int n) ∨ ∃ s', v ∈ (sscanf f s').1 := by
  unfold sscanf at hv
  split at hv
  · cases hv
  · split at hv
    · cases hv
    · rcases List.mem_cons.1 hv with hv | hv
      · exact .inl ⟨_, hv⟩
      · exact .inr ⟨_, hv⟩

theorem mem_sscanf_lit {f : List Directive} {c : Char} {s : List Char} {v : Value}
    (hv : v ∈ (sscanf (.lit c :: f) s).1) : ∃ s', v ∈ (sscanf f s').1 := by
  cases s with
  | nil => cases hv
  | cons b s =>
    rw [sscanf] at hv
    split_ifs at hv
    · exact ⟨s, hv⟩
    · cases hv

/-- Where the input ends before the first conversion, there is nothing in it but white space and
literal characters of the format. -/
theorem isSpace_or_lit_mem_of_sscanf {f : List Directive} {s : List Char}
    (hend : (sscanf f s).2 = true) {c : Char} (hc : c ∈ s) : isSpace c = true ∨ .lit c ∈ f := by
  induction f generalizing s with
  | nil => cases hend
  | cons d f ih =>
    have hrec : ∀ t, (sscanf f t).2 = true → c ∈ t → isSpace c = true ∨ .lit c ∈ d :: f :=
      fun t ht hct => (ih ht hct).imp_right (List.mem_cons_of_mem d)
    cases d with
    | white =>
      rw [sscanf] at hend
      rw [← List.takeWhile_append_dropWhile (p := isSpace) (l := s), List.mem_append] at hc
      rcases hc with hc | hc
      · exact .inl (List.mem_takeWhile_imp hc)
      · exact hrec _ hend hc
    | lit b =>
      cases s with
      | nil => cases hc
      | cons b' s =>
        rw [sscanf] at hend
        split_ifs at hend with hb
        rcases List.mem_cons.1 hc with rfl | hc
        · exact .inr (hb ▸ List.mem_cons_self)
        · exact hrec s hend hc
    | int =>
      unfold sscanf at hend
      split at hend
      · next hnil => exact .inl (List.dropWhile_eq_nil_iff.1 hnil c hc)
      · split at hend <;> cases hend
    | line =>
      cases s with
      | nil => cases hc
      | cons b s =>
        unfold sscanf at hend
        split at hend <;> cases hend

/-- A format that skips white space in front of each line it reads. -/
def skipsSpace : List Directive → Bool
  | [] => true
  | .line :: _ => false
  | .white :: .line :: f => skipsSpace f
  | _ :: f => skipsSpace f

theorem noSpace_dropWhile (s : List Char) :
    NoSpace ((s.dropWhile isSpace).takeWhile (· ≠ '\n')) := by
  intro c hc
  have hhead := List.head?_dropWhile_not isSpace s
  cases hs : s.dropWhile isSpace with
  | nil => simp [hs] at hc
  | cons b s' =>
    rw [hs] at hc hhead
    by_cases hb : b = '\n'
    · simp [hb] at hc
    · simp [hb] at hc
      simpa [hc] using hhead

/-- A line that such a format reads does not begin with white space. -/
theorem noSpace_of_text_mem {f : List Directive} (hf : skipsSpace f) {s t : List Char}
    (ht : .text t ∈ (sscanf f s).1) : NoSpace t := by
  induction f using skipsSpace.induct generalizing s with
  | case1 => cases ht
  | case2 f => cases hf
  | case3 f ih =>
    rw [sscanf] at ht
    rcases mem_sscanf_line ht with ht | ⟨s', ht⟩
    · cases ht
      exact noSpace_dropWhile s
    · exact ih hf ht
  | case4 d f hline hwhite ih =>
    rw [skipsSpace.eq_4 _ _ hline hwhite] at hf
    cases d with
    | line => exact absurd rfl hline
    | white => exact ih hf (by rwa [sscanf] at ht)
    | lit c =>
      obtain ⟨s', ht⟩ := mem_sscanf_lit ht
      exact ih hf ht
    | int =>
      obtain ⟨n, hn⟩ | ⟨s', ht⟩ := mem_sscanf_int ht
      · cases hn
      · exact ih hf ht

/-! ## What was printed is read back -/

/-- A text that does not begin with a digit. -/
def NoDigit (s : List Char) : Prop :=
  ∀ c ∈ s.head?, c.isDigit = false

theorem takeWhile_digits {ds s : List Char} (hds : ∀ c ∈ ds, c.isDigit) (hs : NoDigit s) :
    (ds ++ s).takeWhile Char.isDigit = ds := by
  rw [List.takeWhile_append_of_pos hds]
  cases s with
  | nil => simp
  | cons c s =>
    have hc := hs c rfl
    simp [hc]

theorem dropWhile_digits {ds s : List Char} (hds : ∀ c ∈ ds, c.isDigit) (hs : NoDigit s) :
    (ds ++ s).dropWhile Char.isDigit = s := by
  rw [List.dropWhile_append_of_pos hds]
  cases s with
  | nil => rfl
  | cons c s =>
    have hc := hs c rfl
    simp [hc]

theorem isDigit_of_mem_zeros {k n : ℕ} {c : Char}
    (hc : c ∈ List.replicate k '0' ++ Nat.toDigits 10 n) : c.isDigit := by
  rcases List.mem_append.1 hc with hc | hc
  · rw [(List.mem_replicate.1 hc).2]
    rfl
  · exact Nat.isDigit_of_mem_toDigits (by decide) (by decide) hc

/-- Zeros in front of the digits of a number do not change it. -/
theorem readNat_zeros (k n : ℕ) {s : List Char} (hs : NoDigit s) :
    readNat (List.replicate k '0' ++ Nat.toDigits 10 n ++ s) = some (n, s) := by
  have hds : ∀ c ∈ List.replicate k '0' ++ Nat.toDigits 10 n, c.isDigit :=
    fun _ hc => isDigit_of_mem_zeros hc
  have hne : List.replicate k '0' ++ Nat.toDigits 10 n ≠ [] := by simp [Nat.toDigits_ne_nil]
  rw [readNat, takeWhile_digits hds hs, dropWhile_digits hds hs]
  split
  · next hnil => exact absurd hnil hne
  · rw [Nat.ofDigitChars_append, Nat.ofDigitChars_replicate_zero, Nat.mul_zero,
      Nat.ofDigitChars_ten_toDigits]

theorem readInt_of_isDigit {c : Char} (hc : c.isDigit) (s : List Char) :
    readInt (c :: s) = (readNat (c :: s)).map fun r => ((r.1 : ℤ), r.2) := by
  unfold readInt
  split
  · next h =>
    cases h
    exact absurd hc (by decide)
  · next h =>
    cases h
    exact absurd hc (by decide)
  · rfl

theorem readInt_zeros (k n : ℕ) {s : List Char} (hs : NoDigit s) :
    readInt (List.replicate k '0' ++ Nat.toDigits 10 n ++ s) = some ((n : ℤ), s) := by
  have hread := readNat_zeros k n hs
  obtain ⟨c, cs, hcs⟩ := List.exists_cons_of_ne_nil
    (show List.replicate k '0' ++ Nat.toDigits 10 n ≠ [] by simp [Nat.toDigits_ne_nil])
  have hc : c.isDigit := isDigit_of_mem_zeros (k := k) (n := n) (by simp [hcs])
  rw [hcs, List.cons_append] at hread ⊢
  rw [readInt_of_isDigit hc, hread]
  rfl

theorem readInt_decimal (v : ℤ) {s : List Char} (hs : NoDigit s) :
    readInt (decimal v ++ s) = some (v, s) := by
  cases v with
  | ofNat n =>
    have hread := readInt_zeros 0 n hs
    simpa [decimal] using hread
  | negSucc n =>
    have hread := readNat_zeros 0 (n + 1) hs
    simp only [List.replicate_zero, List.nil_append] at hread
    simp [decimal, readInt, hread, Int.negSucc_eq]

theorem isSpace_of_isDigit {c : Char} (hc : c.isDigit) : isSpace c = false := by
  rw [Bool.eq_false_iff]
  intro hspace
  simp only [isSpace, Bool.or_eq_true, decide_eq_true_eq] at hspace
  obtain ((((rfl | rfl) | rfl) | rfl) | rfl) | rfl := hspace
  all_goals exact absurd hc (by decide)

/-- A conversion reads what `readInt` does of a text that begins with no space. -/
theorem sscanf_int {f : List Directive} {c : Char} {s t : List Char} {v : ℤ}
    (hc : isSpace c = false) (hread : readInt (c :: s) = some (v, t)) :
    sscanf (.int :: f) (c :: s) = (.int v :: (sscanf f t).1, false) := by
  rw [sscanf, List.dropWhile_cons_of_neg (by simp [hc])]
  simp [hread]

theorem exists_decimal_eq_cons (v : ℤ) : ∃ c cs, decimal v = c :: cs ∧ isSpace c = false := by
  cases v with
  | ofNat n =>
    obtain ⟨c, cs, hcs⟩ := List.exists_cons_of_ne_nil (Nat.toDigits_ne_nil (n := n) (b := 10))
    refine ⟨c, cs, hcs, isSpace_of_isDigit (isDigit_of_mem_zeros (k := 0) (n := n) ?_)⟩
    simp [hcs]
  | negSucc n => exact ⟨'-', _, rfl, by decide⟩

theorem exists_decimal02_eq_cons (n : ℕ) : ∃ c cs, decimal02 n = c :: cs ∧ isSpace c = false := by
  obtain ⟨c, cs, hcs⟩ := List.exists_cons_of_ne_nil
    (show decimal02 n ≠ [] by simp [decimal02, Nat.toDigits_ne_nil])
  have hmem : c ∈ decimal02 n := by simp [hcs]
  exact ⟨c, cs, hcs, isSpace_of_isDigit (isDigit_of_mem_zeros hmem)⟩

/-- `%d` reads what `%d` has printed. -/
theorem sscanf_decimal (f : List Directive) (v : ℤ) {s : List Char} (hs : NoDigit s) :
    sscanf (.int :: f) (decimal v ++ s) = (.int v :: (sscanf f s).1, false) := by
  have hread := readInt_decimal v hs
  obtain ⟨c, cs, hcs, hc⟩ := exists_decimal_eq_cons v
  rw [hcs, List.cons_append] at hread ⊢
  exact sscanf_int hc hread

/-- `%d` reads what `%02d` has printed. -/
theorem sscanf_decimal02 (f : List Directive) (n : ℕ) {s : List Char} (hs : NoDigit s) :
    sscanf (.int :: f) (decimal02 n ++ s) = (.int n :: (sscanf f s).1, false) := by
  have hread := readInt_zeros (2 - (Nat.toDigits 10 n).length) n hs
  obtain ⟨c, cs, hcs, hc⟩ := exists_decimal02_eq_cons n
  rw [← decimal02, hcs, List.cons_append] at hread
  rw [hcs, List.cons_append]
  exact sscanf_int hc hread

/-- A literal text is read back. -/
theorem sscanf_lits (f : List Directive) (w s : List Char) :
    sscanf (w.map .lit ++ f) (w ++ s) = sscanf f s := by
  induction w with
  | nil => rfl
  | cons c w ih => simpa [sscanf] using ih

/-- White space in a format skips white space in front of a text. -/
theorem sscanf_white (f : List Directive) {s : List Char} (hs : NoSpace s) :
    sscanf (.white :: f) (' ' :: s) = sscanf f s := by
  rw [sscanf, List.dropWhile_cons_of_pos (by decide)]
  cases s with
  | nil => rfl
  | cons c s => rw [List.dropWhile_cons_of_neg (by simp [hs c rfl])]

/-- `%[^\n]` reads a line. -/
theorem sscanf_line (f : List Directive) {t : List Char} (ht : t ≠ []) (hline : '\n' ∉ t)
    (s : List Char) :
    sscanf (.line :: f) (t ++ '\n' :: s) = (.text t :: (sscanf f ('\n' :: s)).1, false) := by
  have hall : ∀ c ∈ t, decide (c ≠ '\n') = true := by
    intro c hc
    simpa using ne_of_mem_of_not_mem hc hline
  have htake : (t ++ '\n' :: s).takeWhile (· ≠ '\n') = t := by
    rw [List.takeWhile_append_of_pos hall]
    simp
  have hdrop : (t ++ '\n' :: s).dropWhile (· ≠ '\n') = '\n' :: s := by
    rw [List.dropWhile_append_of_pos hall]
    simp
  obtain ⟨c, cs, rfl⟩ := List.exists_cons_of_ne_nil ht
  rw [List.cons_append] at htake hdrop ⊢
  simp only [sscanf, htake, hdrop]

theorem afterLine_append {t : List Char} (ht : '\n' ∉ t) (s : List Char) :
    afterLine (t ++ '\n' :: s) = some s := by
  induction t with
  | nil => rfl
  | cons c t ih =>
    obtain ⟨hc, ht⟩ := not_or.1 (List.mem_cons.not.1 ht)
    rw [List.cons_append, afterLine, if_neg (Ne.symm hc)]
    exact ih ht

theorem not_mem_decimal {c : Char} (hc : c.isDigit = false) (hminus : c ≠ '-') (v : ℤ) :
    c ∉ decimal v := by
  intro hmem
  have hdigits : ∀ n, c ∉ Nat.toDigits 10 n := fun n hn =>
    absurd (Nat.isDigit_of_mem_toDigits (by decide) (by decide) hn) (by simp [hc])
  cases v with
  | ofNat n => exact hdigits _ hmem
  | negSucc n =>
    rcases List.mem_cons.1 hmem with rfl | hmem
    · exact hminus rfl
    · exact hdigits _ hmem

end Scanf

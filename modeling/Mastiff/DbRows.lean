import Mastiff.DbOperation

/-!
# Columns of several rows

The loop of `DbChkItem` (`cambrian/storage/dbase_client.cc`) over the lines of a column, for
every `EE_CHK_DB_TYPE`. It tests the index after it has written and moved on, and for more than 8,
and the lines are those of the text, whatever line ends the values bring with them. What a float
is read as is a parameter.

`rows_inside_iff` : the loop keeps to its arrays and reads the first eight rows, one entry a row,
exactly when there are at most eight, no value but the last has a line end in it, and that at
most at its end, every value can be stored, and no text but the last is blank.
-/

set_option linter.unusedSectionVars false

namespace Mastiff.Storage

open Memory Scanf

/-! ## Types of columns -/

/-- `EE_CHK_DB_TYPE` -/
inductive DbType
  | sentinel
  | int
  | ulong
  | float
  | string
  deriving DecidableEq

/-- How the lines of a type are read : `sscanf` of the text from a line on, with the value that
is in place before and whether the input ended first, and what is stored, if anything is
written at all. -/
structure RowType (V : Type) where
  scan : List Char → V × Bool
  store : V → Except DbFault V
  writes : Bool

/-- What `%f` makes of the line that it begins on. A number has neither a line end nor an 'r' in
front. -/
structure FloatScan (φ : Type) where
  zero : φ
  read : List Char → Option φ
  read_nil : read [] = none
  read_r : ∀ s, read ('r' :: s) = none

variable {φ V : Type}

/-- The value of a line. -/
def FloatScan.ofLine (F : FloatScan φ) (t : List Char) : φ :=
  (F.read t).getD F.zero

/-- `%llu` matches what `%d` does, and a negative number wraps round. -/
def storeUlong (n : ℤ) : Except DbFault ℤ :=
  if -2 ^ 64 < n ∧ n < 2 ^ 64 then .ok (n % 2 ^ 64) else .error .intOverflow

/-- The entries of `ival`, `lval`, `fval` and `sval`. -/
def Entry (φ : Type) : DbType → Type
  | .sentinel => Unit
  | .int => ℤ
  | .ulong => ℤ
  | .float => φ
  | .string => List Char

/-- The cases of the switch in the loop. -/
def rowType (F : FloatScan φ) : (ty : DbType) → RowType (Entry φ ty)
  | .sentinel => ⟨fun _ => ((), false), .ok, false⟩
  | .int => ⟨scanLine E_CHK_TYPE_INT, E_CHK_TYPE_INT.store, true⟩
  | .ulong => ⟨scanLine E_CHK_TYPE_INT, storeUlong, true⟩
  | .float =>
    ⟨fun cursor =>
      (F.ofLine (scanLine E_CHK_TYPE_STRING cursor).1, (scanLine E_CHK_TYPE_STRING cursor).2),
      .ok, true⟩
  | .string => ⟨scanLine E_CHK_TYPE_STRING, E_CHK_TYPE_STRING.store, true⟩

/-- The loop, with `room` entries left. In the ninth pass the entry is written, and then the
loop left. -/
def chkRows (ty : RowType V) : (room : ℕ) → (cursor : List Char) → Except DbFault (List V)
  | 0, cursor => if ty.writes then .error .outOfArray else .ok [(ty.scan cursor).1]
  | room + 1, cursor => do
    let v ← ty.store (ty.scan cursor).1
    match afterLine cursor with
    | none => .error .nullPointer
    | some rest =>
      if (ty.scan cursor).2 = false ∧ 1 < rest.length then
        return v :: (← chkRows ty room rest)
      else return [v]

/-- `DbChkItem` of several values : the entries up to `mul_val_idx`, or `none` for the error it
returns. -/
def dbChkRows {δ : Type} (sql : Sqlite δ) (op : DbOperation δ) (tbl item : List Char)
    (ty : RowType V) (seq : ChkDbSeq) : Except DbFault (Option (List V)) := do
  let (ret, res) ← sqlCheckOut sql op tbl item seq
  if ret ≠ 0 ∨ res = [] then return none
  else
    match afterLine res with
    | none => .error .nullPointer
    | some cursor => return some (← chkRows ty 8 cursor)

/-! ## Rows inside the tables -/

/-- The table of a column with the values `texts`. One without rows has no columns. -/
def columnResult (item : List Char) (texts : List (List Char)) : ResultTable :=
  if texts = [] then ⟨0, 0, [], length_no_cells⟩
  else ⟨texts.length, 1, some item :: texts.map some, by simp⟩

/-- What is stored of a row when its line is read alone. -/
def RowType.own (ty : RowType V) (n : ℕ) (t : List Char) : Except DbFault V :=
  ty.store (ty.scan (valueLine n t)).1

/-- Nothing undefined happens, and if 0 is returned there is an entry for each of the first eight
rows, read from it. -/
def Inside (ty : RowType V) (texts : List (List Char)) (result : Except DbFault (Option (List V))) :
    Prop :=
  ∃ r, result = .ok r ∧
    ∀ vs ∈ r, List.Forall₂ (fun t v => ty.own texts.length t = .ok v) (texts.take 8) vs

/-- A blank text, whose line end is white space of the format. -/
def Blank (ty : DbType) (t : List Char) : Prop :=
  ty = .string ∧ ∀ c ∈ t, isSpace c = true

/-- The number that `%d` makes of a text, 0 if it makes none. -/
def intOf (u : List Char) : ℤ :=
  ((readInt (u.dropWhile isSpace)).map Prod.fst).getD 0

/-- What `%[^\n]` makes of a text after white space. -/
def lineOf (u : List Char) : List Char :=
  (u.dropWhile isSpace).takeWhile (· ≠ '\n')

/-- The number of a text is one of the type, or its line shorter than an entry of `sval`. -/
def Storable (ty : DbType) (t : List Char) : Prop :=
  match ty with
  | .int => -2 ^ 31 ≤ intOf (t ++ ['\n']) ∧ intOf (t ++ ['\n']) < 2 ^ 31
  | .ulong => -2 ^ 64 < intOf (t ++ ['\n']) ∧ intOf (t ++ ['\n']) < 2 ^ 64
  | .string => (cString (lineOf (t ++ ['\n']))).length < 512
  | _ => True

instance (ty : DbType) (t : List Char) : Decidable (Storable ty t) :=
  match ty with
  | .int => inferInstanceAs (Decidable (_ ∧ _))
  | .ulong => inferInstanceAs (Decidable (_ ∧ _))
  | .string => inferInstanceAs (Decidable (_ < _))
  | .sentinel => .isTrue trivial
  | .float => .isTrue trivial

/-- There are at most eight rows, no value but the last has a line end or is a blank text, the last
has a line end at most as its last character, and every value can be stored. -/
structure Fits (ty : DbType) (texts : List (List Char)) : Prop where
  rows : texts.length ≤ 8
  lines : ∀ t ∈ texts.dropLast, '\n' ∉ t ∧ ¬Blank ty t
  last : ∀ t ∈ texts.getLast?, '\n' ∉ t.dropLast
  stored : ∀ t ∈ texts, Storable ty t

/-! ## Scanning a line -/

theorem readInt_of_ne {c : Char} (hminus : c ≠ '-') (hplus : c ≠ '+') (s : List Char) :
    readInt (c :: s) = (readNat (c :: s)).map fun r => ((r.1 : ℤ), r.2) := by
  unfold readInt
  split
  · next h => exact absurd (List.cons.inj h).1 hminus
  · next h => exact absurd (List.cons.inj h).1 hplus
  · rfl

/-- What `%d` reads of a text does not depend on what follows its line. -/
theorem readInt_line (t s : List Char) :
    (readInt (t ++ '\n' :: s)).map Prod.fst = (readInt (t ++ ['\n'])).map Prod.fst := by
  have htake : ∀ u : List Char, (u ++ '\n' :: s).takeWhile Char.isDigit =
      (u ++ ['\n']).takeWhile Char.isDigit := by
    intro u
    induction u with
    | nil => rfl
    | cons c u ih => simp only [List.cons_append, List.takeWhile_cons, ih]
  have hnat : ∀ u : List Char, (readNat (u ++ '\n' :: s)).map Prod.fst =
      (readNat (u ++ ['\n'])).map Prod.fst := by
    intro u
    unfold readNat
    rw [htake]
    cases (u ++ ['\n']).takeWhile Char.isDigit <;> rfl
  have hmap : ∀ (f : ℕ → ℤ) (u : List Char),
      ((readNat (u ++ '\n' :: s)).map fun r => (f r.1, r.2)).map Prod.fst =
        ((readNat (u ++ ['\n'])).map fun r => (f r.1, r.2)).map Prod.fst := by
    intro f u
    have hcomp := congrArg (Option.map f) (hnat u)
    simpa [Option.map_map, Function.comp_def] using hcomp
  cases t with
  | nil => exact hmap (fun n => n) []
  | cons c t =>
    by_cases hminus : c = '-'
    · rw [hminus]
      exact hmap (fun n => -n) t
    by_cases hplus : c = '+'
    · rw [hplus]
      exact hmap (fun n => n) t
    rw [List.cons_append, List.cons_append, readInt_of_ne hminus hplus,
      readInt_of_ne hminus hplus]
    exact hmap (fun n => n) (c :: t)

theorem scanLine_int (n : ℕ) (u : List Char) :
    (scanLine E_CHK_TYPE_INT (SET_TABLE_FORMAT_N n 1 ++ u)).1 = intOf u := by
  have hformat : directives E_CHK_TYPE_INT.format =
      directives "row: %d, col: %d, key: ".toList ++ [.int, .white] := by
    rfl
  have hhead := List.head?_dropWhile_not isSpace u
  rw [scanLine, hformat, sscanf_after_keys, intOf]
  cases hu : u.dropWhile isSpace with
  | nil => rfl
  | cons c u' =>
    rw [hu] at hhead
    rw [sscanf, List.dropWhile_cons_of_neg (by simpa using hhead)]
    cases hread : readInt (c :: u') <;> simp only [hread] <;> rfl

theorem scanLine_string (n : ℕ) (u : List Char) :
    (scanLine E_CHK_TYPE_STRING (SET_TABLE_FORMAT_N n 1 ++ u)).1 = lineOf u := by
  have hformat : directives E_CHK_TYPE_STRING.format =
      directives "row: %d, col: %d, key: ".toList ++ [.line, .white] := by
    rfl
  rw [scanLine, hformat, sscanf_after_keys, lineOf]
  cases u.dropWhile isSpace with
  | nil => rfl
  | cons c u =>
    rw [sscanf]
    · cases htake : (c :: u).takeWhile (· ≠ '\n') <;> simp only <;> rfl
    · exact List.cons_ne_nil c u

/-- The line break ends what `%[^\n]` reads. -/
theorem takeWhile_line {t : List Char} (ht : '\n' ∉ t) (s : List Char) :
    (t ++ '\n' :: s).takeWhile (· ≠ '\n') = t := by
  have hall : ∀ c ∈ t, decide (c ≠ '\n') = true := by
    intro c hc
    simpa using ne_of_mem_of_not_mem hc ht
  rw [List.takeWhile_append_of_pos hall]
  simp

theorem intOf_line (t s : List Char) :
    intOf (t ++ '\n' :: 'r' :: s) = intOf (t ++ ['\n']) := by
  unfold intOf
  rw [List.dropWhile_append, List.dropWhile_append]
  split_ifs
  · rfl
  · rw [readInt_line]

theorem lineOf_line {t : List Char} (ht : '\n' ∉ t) (hblank : ¬∀ c ∈ t, isSpace c = true)
    (s : List Char) : lineOf (t ++ '\n' :: s) = lineOf (t ++ ['\n']) := by
  have hne : (t.dropWhile isSpace).isEmpty = false := by
    rw [Bool.eq_false_iff, Ne, List.isEmpty_iff, List.dropWhile_eq_nil_iff]
    exact hblank
  have hline : '\n' ∉ t.dropWhile isSpace := fun h => ht (List.dropWhile_subset _ h)
  unfold lineOf
  rw [List.dropWhile_append, List.dropWhile_append, hne]
  exact (takeWhile_line hline s).trans (takeWhile_line hline []).symm

theorem lineOf_blank {t : List Char} (hblank : ∀ c ∈ t, isSpace c = true) {c : Char}
    (hc : isSpace c = false) (s : List Char) :
    lineOf (t ++ '\n' :: c :: s) = c :: s.takeWhile (· ≠ '\n') ∧ lineOf (t ++ ['\n']) = [] := by
  have hnewline : c ≠ '\n' := by
    rintro rfl
    exact absurd hc (by decide)
  unfold lineOf
  rw [List.dropWhile_append_of_pos hblank, List.dropWhile_append_of_pos hblank]
  simp [hc, hnewline, show isSpace '\n' = true from rfl]

/-! ## What the types have in common -/

/-- The line of a value is read alone unless the text is blank. -/
structure RowType.Lawful (ty : RowType V) (blank : List Char → Prop) : Prop where
  going : ∀ s, ∀ c ∈ s, c.isDigit = true → (ty.scan s).2 = false
  own : ∀ n t s, '\n' ∉ t → ¬blank t →
    (ty.scan (valueLine n t ++ (SET_TABLE_FORMAT_N n 1 ++ s))).1 = (ty.scan (valueLine n t)).1
  swallow : ∀ n t s, blank t →
    ty.store (ty.scan (valueLine n t ++ (SET_TABLE_FORMAT_N n 1 ++ s))).1 ≠ ty.own n t

/-- A format with no digits among its literal characters. -/
def hasNoDigits (f : List Directive) : Bool :=
  f.all fun
    | .lit c => !c.isDigit
    | _ => true

theorem scanLine_going {ty : ChkDbType V} (hformat : hasNoDigits (directives ty.format))
    (s : List Char) (c : Char) (hc : c ∈ s) (hdigit : c.isDigit = true) :
    (scanLine ty s).2 = false := by
  have heof : (scanLine ty s).2 = (sscanf (directives ty.format) s).2 := by
    unfold scanLine
    split <;> simp_all
  rw [heof, Bool.eq_false_iff]
  intro hend
  rcases isSpace_or_lit_mem_of_sscanf hend hc with hspace | hlit
  · rw [isSpace_of_isDigit hdigit] at hspace
    cases hspace
  · have hno := List.all_eq_true.1 hformat _ hlit
    simp [hdigit] at hno

theorem scanLine_int_going (s : List Char) :
    ∀ c ∈ s, c.isDigit = true → (scanLine E_CHK_TYPE_INT s).2 = false :=
  scanLine_going (by rfl) s

theorem scanLine_string_going (s : List Char) :
    ∀ c ∈ s, c.isDigit = true → (scanLine E_CHK_TYPE_STRING s).2 = false :=
  scanLine_going (by rfl) s

/-- The line of a value and the prefix of the next one. -/
theorem valueLine_append (n : ℕ) (t s : List Char) :
    ∃ w, valueLine n t ++ (SET_TABLE_FORMAT_N n 1 ++ s) =
      SET_TABLE_FORMAT_N n 1 ++ (t ++ '\n' :: 'r' :: w) :=
  ⟨(SET_TABLE_FORMAT_N n 1).tail ++ s, by simp [valueLine]; rfl⟩

theorem valueLine_eq (n : ℕ) (t : List Char) :
    valueLine n t = SET_TABLE_FORMAT_N n 1 ++ (t ++ ['\n']) := by
  rw [valueLine, List.append_assoc]

theorem scanLine_int_own (n : ℕ) (t s : List Char) :
    (scanLine E_CHK_TYPE_INT (valueLine n t ++ (SET_TABLE_FORMAT_N n 1 ++ s))).1 =
      (scanLine E_CHK_TYPE_INT (valueLine n t)).1 := by
  obtain ⟨w, hw⟩ := valueLine_append n t s
  rw [hw, valueLine_eq, scanLine_int, scanLine_int, intOf_line]

theorem scanLine_string_own (n : ℕ) {t : List Char} (s : List Char) (ht : '\n' ∉ t)
    (hblank : ¬∀ c ∈ t, isSpace c = true) :
    (scanLine E_CHK_TYPE_STRING (valueLine n t ++ (SET_TABLE_FORMAT_N n 1 ++ s))).1 =
      (scanLine E_CHK_TYPE_STRING (valueLine n t)).1 := by
  obtain ⟨w, hw⟩ := valueLine_append n t s
  rw [hw, valueLine_eq, scanLine_string, scanLine_string, lineOf_line ht hblank]

theorem scanLine_string_blank (n : ℕ) {t : List Char} (s : List Char)
    (hblank : ∀ c ∈ t, isSpace c = true) :
    (∃ w, (scanLine E_CHK_TYPE_STRING (valueLine n t ++ (SET_TABLE_FORMAT_N n 1 ++ s))).1 =
        'r' :: w) ∧
      (scanLine E_CHK_TYPE_STRING (valueLine n t)).1 = [] := by
  obtain ⟨w, hw⟩ := valueLine_append n t s
  have hr : isSpace 'r' = false := by
    rfl
  rw [hw, valueLine_eq, scanLine_string, scanLine_string]
  exact ⟨⟨_, (lineOf_blank hblank hr w).1⟩, (lineOf_blank hblank hr w).2⟩

/-- In the place of a blank text the line of the next row is stored. -/
theorem store_string_blank (n : ℕ) {t : List Char} (s : List Char)
    (hblank : ∀ c ∈ t, isSpace c = true) :
    E_CHK_TYPE_STRING.store
        (scanLine E_CHK_TYPE_STRING (valueLine n t ++ (SET_TABLE_FORMAT_N n 1 ++ s))).1 ≠
      E_CHK_TYPE_STRING.store (scanLine E_CHK_TYPE_STRING (valueLine n t)).1 := by
  obtain ⟨⟨w, hw⟩, hnil⟩ := scanLine_string_blank n s hblank
  rw [hw, hnil]
  have hnone : E_CHK_TYPE_STRING.store [] = .ok [] := by
    rfl
  have hcString : cString ('r' :: w) = 'r' :: cString w := by
    rfl
  rw [hnone]
  simp only [E_CHK_TYPE_STRING, hcString]
  split_ifs <;> simp

theorem exists_ite_eq_ok_iff {p : Prop} [Decidable p] {v : V} {e : DbFault} :
    (∃ w, (if p then .ok v else .error e : Except DbFault V) = .ok w) ↔ p := by
  by_cases hp : p <;> simp [hp]

theorem exists_store_int_iff (n : ℕ) (t : List Char) :
    (∃ v, E_CHK_TYPE_INT.store (scanLine E_CHK_TYPE_INT (valueLine n t)).1 = .ok v) ↔
      Storable .int t := by
  rw [valueLine_eq, scanLine_int]
  exact exists_ite_eq_ok_iff

theorem exists_storeUlong_iff (n : ℕ) (t : List Char) :
    (∃ v, storeUlong (scanLine E_CHK_TYPE_INT (valueLine n t)).1 = .ok v) ↔ Storable .ulong t := by
  rw [valueLine_eq, scanLine_int]
  exact exists_ite_eq_ok_iff

theorem exists_store_string_iff (n : ℕ) (t : List Char) :
    (∃ v, E_CHK_TYPE_STRING.store (scanLine E_CHK_TYPE_STRING (valueLine n t)).1 = .ok v) ↔
      Storable .string t := by
  rw [valueLine_eq, scanLine_string]
  exact exists_ite_eq_ok_iff

/-- What the entries of the type can hold is stored. -/
theorem exists_own_iff (F : FloatScan φ) (ty : DbType) (n : ℕ) (t : List Char) :
    (∃ v, (rowType F ty).own n t = .ok v) ↔ Storable ty t := by
  cases ty with
  | sentinel => exact iff_of_true ⟨_, rfl⟩ trivial
  | int =>
    dsimp only [rowType, RowType.own]
    exact exists_store_int_iff n t
  | ulong =>
    dsimp only [rowType, RowType.own]
    exact exists_storeUlong_iff n t
  | float =>
    dsimp only [rowType, RowType.own]
    exact iff_of_true ⟨_, rfl⟩ trivial
  | string =>
    dsimp only [rowType, RowType.own]
    exact exists_store_string_iff n t

theorem rowType_lawful (F : FloatScan φ) (ty : DbType) :
    (rowType F ty).Lawful (Blank ty) := by
  cases ty with
  | sentinel => exact ⟨fun _ _ _ _ => rfl, fun _ _ _ _ _ => rfl, fun _ _ _ h => nomatch h.1⟩
  | int =>
    exact ⟨scanLine_int_going, fun n t s _ _ => scanLine_int_own n t s, fun _ _ _ h => nomatch h.1⟩
  | ulong =>
    exact ⟨scanLine_int_going, fun n t s _ _ => scanLine_int_own n t s, fun _ _ _ h => nomatch h.1⟩
  | float =>
    refine ⟨scanLine_string_going, fun n t s ht _ => ?_, fun _ _ _ h => nomatch h.1⟩
    dsimp only [rowType]
    by_cases hblank : ∀ c ∈ t, isSpace c = true
    · obtain ⟨⟨w, hw⟩, hnil⟩ := scanLine_string_blank n s hblank
      rw [hw, hnil, FloatScan.ofLine, FloatScan.ofLine, F.read_r, F.read_nil]
    · rw [scanLine_string_own n s ht hblank]
  | string =>
    refine ⟨scanLine_string_going, fun n t s ht hblank => ?_, fun n t s hblank => ?_⟩
    · dsimp only [rowType]
      exact scanLine_string_own n s ht fun h => hblank ⟨rfl, h⟩
    · dsimp only [rowType, RowType.own]
      exact store_string_blank n s hblank.2

/-! ## The loop -/

section Loop

variable {ty : RowType V} {blank : List Char → Prop}

theorem chkRows_ne_nil {room : ℕ} {cursor : List Char} {vs : List V}
    (h : chkRows ty room cursor = .ok vs) : vs ≠ [] := by
  rintro rfl
  cases room with
  | zero =>
    unfold chkRows at h
    split_ifs at h
    cases h
  | succ room =>
    rw [chkRows] at h
    obtain ⟨v, -, h⟩ := bind_eq_ok.1 h
    split at h
    · cases h
    · split_ifs at h
      · obtain ⟨ws, -, h⟩ := bind_eq_ok.1 h
        cases h
      · cases h

/-- A pass after which the loop goes on. -/
theorem chkRows_cons {room : ℕ} {cursor rest : List Char} {vs : List V}
    (hgoing : (ty.scan cursor).2 = false) (hafter : afterLine cursor = some rest)
    (hrest : 1 < rest.length) (h : chkRows ty (room + 1) cursor = .ok vs) :
    ∃ v ws, vs = v :: ws ∧ ty.store (ty.scan cursor).1 = .ok v ∧
      chkRows ty room rest = .ok ws := by
  rw [chkRows, hafter] at h
  obtain ⟨v, hv, h⟩ := bind_eq_ok.1 h
  dsimp only at h
  rw [if_pos ⟨hgoing, hrest⟩] at h
  obtain ⟨ws, hws, h⟩ := bind_eq_ok.1 h
  cases h
  exact ⟨v, ws, rfl, hv, hws⟩

/-- A pass in which the value is read alone. -/
theorem chkRows_eq_cons {room : ℕ} {cursor rest : List Char} {v : V} {ws : List V}
    (hv : ty.store (ty.scan cursor).1 = .ok v) (hgoing : (ty.scan cursor).2 = false)
    (hafter : afterLine cursor = some rest) (hrest : 1 < rest.length)
    (h : chkRows ty room rest = .ok ws) : chkRows ty (room + 1) cursor = .ok (v :: ws) := by
  rw [chkRows, hafter, hv, ok_bind]
  dsimp only
  rw [if_pos ⟨hgoing, hrest⟩, h]
  rfl

/-- The last pass. -/
theorem chkRows_eq_singleton {room : ℕ} {cursor rest : List Char} {v : V}
    (hv : ty.store (ty.scan cursor).1 = .ok v) (hafter : afterLine cursor = some rest)
    (hrest : rest.length ≤ 1) : chkRows ty (room + 1) cursor = .ok [v] := by
  rw [chkRows, hafter, hv, ok_bind]
  dsimp only
  rw [if_neg fun h => Nat.not_lt.2 hrest h.2]
  rfl

/-- There is an entry for every line break that a line follows, as far as there is room. -/
theorem le_length_chkRows (hlaw : ty.Lawful blank) {tail : List Char} {d : Char}
    (hlong : 1 < tail.length) (hd : d ∈ tail) (hdigit : d.isDigit = true) {room : ℕ}
    {s : List Char} {vs : List V} (h : chkRows ty room (s ++ tail) = .ok vs) :
    min room (s.count '\n') + 1 ≤ vs.length := by
  induction room generalizing s vs with
  | zero =>
    have hpos := List.length_pos_iff.2 (chkRows_ne_nil h)
    omega
  | succ room ih =>
    have hpos := List.length_pos_iff.2 (chkRows_ne_nil h)
    by_cases hmem : '\n' ∈ s
    · obtain ⟨a, b, rfl, ha⟩ := List.eq_append_cons_of_mem hmem
      have hcursor : a ++ '\n' :: b ++ tail = a ++ '\n' :: (b ++ tail) := by simp
      have hgoing := hlaw.going (a ++ '\n' :: b ++ tail) d (by simp [hd]) hdigit
      obtain ⟨v, ws, rfl, -, hws⟩ := chkRows_cons hgoing
        (by rw [hcursor]; exact afterLine_append ha _)
        (by rw [List.length_append]; omega) h
      have hle := ih hws
      rw [List.count_append, List.count_cons_self, List.count_eq_zero.2 ha, List.length_cons]
      omega
    · rw [List.count_eq_zero.2 hmem]
      omega

theorem length_le_count_flatMap {f : List Char → List Char} (hf : ∀ t, '\n' ∈ f t)
    (l : List (List Char)) : l.length ≤ (l.flatMap f).count '\n' := by
  induction l with
  | nil => exact Nat.zero_le _
  | cons t l ih =>
    have hpos := List.count_pos_iff.2 (hf t)
    rw [List.flatMap_cons, List.count_append, List.length_cons]
    omega

/-- There are as many entries as there are line breaks before the last of the lines. -/
theorem length_le_chkRows (hlaw : ty.Lawful blank) {f : List Char → List Char}
    (hline : ∀ t, '\n' ∈ f t ∧ 1 < (f t).length ∧ ∃ d ∈ f t, d.isDigit = true)
    {ts : List (List Char)} (hne : ts ≠ []) {room : ℕ} {s : List Char} {vs : List V}
    (h : chkRows ty room (s ++ ts.flatMap f) = .ok vs) :
    min room (s.count '\n' + (ts.length - 1)) + 1 ≤ vs.length := by
  obtain ⟨-, hlong, d, hd, hdigit⟩ := hline (ts.getLast hne)
  have hcount := length_le_count_flatMap (fun t => (hline t).1) ts.dropLast
  rw [← List.dropLast_append_getLast hne, List.flatMap_append, List.flatMap_singleton,
    ← List.append_assoc] at h
  have hle := le_length_chkRows hlaw hlong hd hdigit h
  rw [List.count_append] at hle
  rw [List.length_dropLast] at hcount
  omega

theorem newline_mem_valueLine (n : ℕ) (t : List Char) : '\n' ∈ valueLine n t := by
  simp [valueLine]

/-- A digit of the number of rows. -/
theorem exists_digit (n m : ℕ) : ∃ d w, d.isDigit = true ∧
    SET_TABLE_FORMAT_N n m = "row: ".toList ++ d :: w := by
  obtain ⟨d, ds, hds⟩ := List.exists_cons_of_ne_nil
    (show decimal02 n ≠ [] by simp [decimal02, Nat.toDigits_ne_nil])
  have hmem : d ∈ decimal02 n := by simp [hds]
  have hformat : SET_TABLE_FORMAT_N n m = "row: ".toList ++
      d :: (ds ++ (", col: ".toList ++ (decimal02 m ++ ", key: ".toList))) := by
    unfold SET_TABLE_FORMAT_N
    simp [hds]
  exact ⟨d, _, isDigit_of_mem_zeros hmem, hformat⟩

theorem digit_mem_valueLine (n : ℕ) (t : List Char) :
    ∃ d ∈ valueLine n t, d.isDigit = true := by
  obtain ⟨d, w, hd, hw⟩ := exists_digit n 1
  exact ⟨d, by simp [valueLine, hw], hd⟩

theorem going_valueLine (hlaw : ty.Lawful blank) (n : ℕ) (t s : List Char) :
    (ty.scan (valueLine n t ++ s)).2 = false := by
  obtain ⟨d, hd, hdigit⟩ := digit_mem_valueLine n t
  exact hlaw.going _ d (List.mem_append_left s hd) hdigit

/-- A line goes to its first line break. -/
theorem valueLine_eq_of_mem (n : ℕ) {t : List Char} (ht : '\n' ∈ t) :
    ∃ a b, t = a ++ '\n' :: b ∧ '\n' ∉ a ∧
      ∀ s, afterLine (valueLine n t ++ s) = some (b ++ '\n' :: s) := by
  obtain ⟨a, b, rfl, ha⟩ := List.eq_append_cons_of_mem ht
  refine ⟨a, b, rfl, ha, fun s => ?_⟩
  have hline : valueLine n (a ++ '\n' :: b) ++ s = valueLine n a ++ (b ++ '\n' :: s) := by
    simp [valueLine]
  rw [hline]
  exact afterLine_valueLine n ha _

theorem exists_valueLine_eq (n : ℕ) (t : List Char) (ts : List (List Char)) :
    ∃ s, (t :: ts).flatMap (valueLine n) = SET_TABLE_FORMAT_N n 1 ++ s :=
  ⟨t ++ '\n' :: ts.flatMap (valueLine n), by simp [valueLine]⟩

theorem one_lt_length_flatMap {n : ℕ} (hn : n < 100) (t : List Char) (ts : List (List Char)) :
    1 < ((t :: ts).flatMap (valueLine n)).length := by
  have hlong := length_valueLine hn t
  rw [List.flatMap_cons, List.length_append]
  omega

theorem exists_own_of_forall₂ {n : ℕ} {ts : List (List Char)} {vs : List V}
    (h : List.Forall₂ (fun t v => ty.own n t = .ok v) ts vs) :
    ∀ t ∈ ts, ∃ v, ty.own n t = .ok v := by
  induction h with
  | nil => exact fun _ h => absurd h List.not_mem_nil
  | cons hv _ ih => exact List.forall_mem_cons.2 ⟨⟨_, hv⟩, ih⟩

/-- A single line that is one value has a line end at its end at most. -/
theorem newline_not_mem_dropLast (hlaw : ty.Lawful blank) {n room : ℕ} (hroom : 0 < room)
    {t : List Char} {vs : List V} (h : chkRows ty room ([t].flatMap (valueLine n)) = .ok vs)
    (hlen : vs.length = 1) : '\n' ∉ t.dropLast := by
  obtain ⟨room, rfl⟩ : ∃ k, room = k + 1 := Nat.exists_eq_add_of_le' hroom
  intro hmem
  obtain ⟨a, b, hab, ha, hafter⟩ := valueLine_eq_of_mem n (List.dropLast_subset t hmem)
  have hb : b ≠ [] := by
    rintro rfl
    rw [hab, List.dropLast_concat] at hmem
    exact ha hmem
  have hpos := List.length_pos_iff.2 hb
  obtain ⟨v, ws, rfl, -, hws⟩ := chkRows_cons (going_valueLine hlaw n t []) (hafter [])
    (by rw [List.length_append, List.length_singleton]; omega) h
  have hmore := List.length_pos_iff.2 (chkRows_ne_nil hws)
  rw [List.length_cons] at hlen
  omega

/-- A line before others that has a line end in it is counted twice. -/
theorem newline_not_mem_of_chkRows (hlaw : ty.Lawful blank) {n : ℕ} (hn : n < 100)
    {t t' : List Char} {ts : List (List Char)} {room : ℕ} (hroom : (t :: t' :: ts).length ≤ room)
    {vs : List V} (h : chkRows ty room ((t :: t' :: ts).flatMap (valueLine n)) = .ok vs)
    (hlen : vs.length = (t :: t' :: ts).length) : '\n' ∉ t := by
  intro hmem
  obtain ⟨a, b, rfl, -, -⟩ := valueLine_eq_of_mem n hmem
  have htwo : 2 ≤ (valueLine n (a ++ '\n' :: b)).count '\n' := by
    simp only [valueLine, List.count_append, List.count_cons_self]
    omega
  have hle := length_le_chkRows hlaw (fun t => ⟨newline_mem_valueLine n t,
    length_valueLine hn t, digit_mem_valueLine n t⟩) (List.cons_ne_nil t' ts) h
  simp only [List.length_cons] at hle hlen hroom
  omega

/-- Values that are stored as those of their own lines have no line ends in them. -/
theorem lines_of_chkRows (hlaw : ty.Lawful blank) {n : ℕ} (hn : n < 100) {t : List Char}
    {ts : List (List Char)} {room : ℕ} (hroom : (t :: ts).length ≤ room) {vs : List V}
    (h : chkRows ty room ((t :: ts).flatMap (valueLine n)) = .ok vs)
    (hown : List.Forall₂ (fun t v => ty.own n t = .ok v) (t :: ts) vs) :
    (∀ u ∈ (t :: ts).dropLast, '\n' ∉ u ∧ ¬blank u) ∧
      ∀ u ∈ (t :: ts).getLast?, '\n' ∉ u.dropLast := by
  induction ts generalizing t room vs with
  | nil =>
    refine ⟨fun u hu => absurd hu List.not_mem_nil, ?_⟩
    rintro u ⟨⟩
    exact newline_not_mem_dropLast hlaw hroom h hown.length_eq.symm
  | cons t' ts ih =>
    have hline : '\n' ∉ t := newline_not_mem_of_chkRows hlaw hn hroom h hown.length_eq.symm
    obtain ⟨room, rfl⟩ : ∃ k, room = k + 1 :=
      Nat.exists_eq_add_of_le' (Nat.le_trans (Nat.le_add_left 1 _) hroom)
    have hcursor : (t :: t' :: ts).flatMap (valueLine n) =
        valueLine n t ++ (t' :: ts).flatMap (valueLine n) := by
      rfl
    rw [hcursor] at h
    obtain ⟨v, ws, rfl, hv, hws⟩ := chkRows_cons (going_valueLine hlaw n t _)
      (afterLine_valueLine n hline _) (one_lt_length_flatMap hn t' ts) h
    obtain ⟨howned, hrest⟩ := List.forall₂_cons.1 hown
    have hblank : ¬blank t := by
      intro hblank
      obtain ⟨s, hs⟩ := exists_valueLine_eq n t' ts
      rw [hs] at hv
      exact hlaw.swallow n t s hblank (hv.trans howned.symm)
    obtain ⟨hlines, hlast⟩ := ih (Nat.le_of_succ_le_succ hroom) hws hrest
    refine ⟨?_, fun u hu => hlast u (by simpa using hu)⟩
    rw [List.dropLast_cons_cons]
    exact List.forall_mem_cons.2 ⟨⟨hline, hblank⟩, hlines⟩

/-- Nothing is left to read of a last line with a line end at its end at most. -/
theorem exists_afterLine_last (n : ℕ) {t : List Char} (ht : '\n' ∉ t.dropLast) :
    ∃ rest, afterLine (valueLine n t) = some rest ∧ rest.length ≤ 1 := by
  rw [← List.append_nil (valueLine n t)]
  by_cases hmem : '\n' ∈ t
  · obtain ⟨a, b, hab, ha, hafter⟩ := valueLine_eq_of_mem n hmem
    refine ⟨_, hafter [], ?_⟩
    have hb : b = [] := by
      by_contra hb
      refine ht ?_
      rw [hab, List.dropLast_append_of_ne_nil (List.cons_ne_nil _ b),
        List.dropLast_cons_of_ne_nil hb]
      simp
    rw [hb]
    exact Nat.le_refl 1
  · exact ⟨[], afterLine_valueLine n hmem [], Nat.zero_le 1⟩

/-- Lines of such values are read one after the other. -/
theorem exists_chkRows (hlaw : ty.Lawful blank) {n : ℕ} (hn : n < 100) {t : List Char}
    {ts : List (List Char)} {room : ℕ} (hroom : (t :: ts).length ≤ room)
    (hlines : ∀ u ∈ (t :: ts).dropLast, '\n' ∉ u ∧ ¬blank u)
    (hlast : ∀ u ∈ (t :: ts).getLast?, '\n' ∉ u.dropLast)
    (hstored : ∀ u ∈ t :: ts, ∃ v, ty.own n u = .ok v) :
    ∃ vs, chkRows ty room ((t :: ts).flatMap (valueLine n)) = .ok vs ∧
      List.Forall₂ (fun t v => ty.own n t = .ok v) (t :: ts) vs := by
  induction ts generalizing t room with
  | nil =>
    obtain ⟨v, hv⟩ := hstored t List.mem_cons_self
    obtain ⟨room, rfl⟩ : ∃ k, room = k + 1 := Nat.exists_eq_add_of_le' hroom
    obtain ⟨rest, hrest, hlen⟩ := exists_afterLine_last n (hlast t rfl)
    refine ⟨[v], ?_, .cons hv .nil⟩
    rw [List.flatMap_singleton]
    exact chkRows_eq_singleton hv hrest hlen
  | cons t' ts ih =>
    obtain ⟨room, rfl⟩ : ∃ k, room = k + 1 :=
      Nat.exists_eq_add_of_le' (Nat.le_trans (Nat.le_add_left 1 _) hroom)
    rw [List.dropLast_cons_cons] at hlines
    obtain ⟨⟨hline, hblank⟩, hlines⟩ := List.forall_mem_cons.1 hlines
    obtain ⟨⟨v, hv⟩, hstored⟩ := List.forall_mem_cons.1 hstored
    obtain ⟨ws, hws, hown⟩ := ih (Nat.le_of_succ_le_succ hroom) hlines
      (fun u hu => hlast u (by simpa using hu)) hstored
    refine ⟨v :: ws, ?_, .cons hv hown⟩
    have hscan : ty.store (ty.scan (valueLine n t ++ (t' :: ts).flatMap (valueLine n))).1 =
        .ok v := by
      obtain ⟨s, hs⟩ := exists_valueLine_eq n t' ts
      rw [hs, hlaw.own n t s hline hblank]
      exact hv
    exact chkRows_eq_cons hscan (going_valueLine hlaw n t _) (afterLine_valueLine n hline _)
      (one_lt_length_flatMap hn t' ts) hws

end Loop

/-! ## The function -/

/-- The line of a row in a column of `n` rows. From a hundred rows on its prefix is longer than
the place for it. -/
def reportLine (n : ℕ) (t : List Char) : List Char :=
  (SET_TABLE_FORMAT_N n 1).take (t.length + 23) ++ t ++ ['\n']

theorem reportLine_eq {n : ℕ} (hn : n < 100) : reportLine n = valueLine n := by
  funext t
  have hlen := length_SET_TABLE_FORMAT_N hn (by decide : 1 < 100)
  rw [reportLine, List.take_of_length_le (by omega), valueLine]

theorem reportLine_spec (n : ℕ) (t : List Char) :
    '\n' ∈ reportLine n t ∧ 1 < (reportLine n t).length ∧
      ∃ d ∈ reportLine n t, d.isDigit = true := by
  obtain ⟨d, w, hd, hw⟩ := exists_digit n 1
  have hline : reportLine n t =
      "row: ".toList ++ d :: (w.take (t.length + 17) ++ (t ++ ['\n'])) := by
    rw [reportLine, hw]
    simp
  rw [hline]
  exact ⟨by simp, by simp, d, by simp, hd⟩

variable {δ : Type} {sql : Sqlite δ} {op : DbOperation δ} {tbl item : List Char} {seq : ChkDbSeq}
  {texts : List (List Char)}

/-- What is done with a table that has rows. -/
theorem dbChkRows_eq (ty : RowType V) (hop : op.sqlInited = true) (hitem : '\n' ∉ item)
    (hne : texts ≠ [])
    (hselect : sql.getTable op.sql3 (SQL_OPERATION_CHECKOUT item tbl (orderBy item seq)) =
      .ok (columnResult item texts)) :
    dbChkRows sql op tbl item ty seq = (do
      return some (← chkRows ty 8 (texts.flatMap (reportLine texts.length)))) := by
  have hres : sqlCheckOut sql op tbl item seq =
      .ok (0, reportLine texts.length item ++ texts.flatMap (reportLine texts.length)) := by
    have hlines : (columnResult item texts).cells.mapM (cellLine (columnResult item texts)) =
        .ok ((item :: texts).map (reportLine texts.length)) := by
      have hcells : (columnResult item texts).cells = (item :: texts).map some := by
        rw [columnResult, if_neg hne]
        rfl
      have hcell : ∀ u, cellLine (columnResult item texts) (some u) =
          .ok (reportLine texts.length u) := by
        intro u
        rw [columnResult, if_neg hne]
        rfl
      rw [mapM_eq_ok_iff, hcells, List.forall₂_map_left_iff, List.forall₂_map_right_iff,
        List.forall₂_same]
      exact fun u _ => hcell u
    rw [sqlCheckOut, if_neg (by simp [hop]), hselect]
    dsimp only
    rw [hlines]
    rfl
  have hafter : afterLine
      (reportLine texts.length item ++ texts.flatMap (reportLine texts.length)) =
        some (texts.flatMap (reportLine texts.length)) := by
    rw [reportLine, List.append_assoc, List.singleton_append]
    refine afterLine_append ?_ _
    rw [List.mem_append, not_or]
    exact ⟨fun h => newline_not_mem_SET_TABLE_FORMAT_N _ 1 (List.mem_of_mem_take h), hitem⟩
  rw [dbChkRows, hres, ok_bind]
  dsimp only
  rw [if_neg (by simp [reportLine]), hafter]

/-- What is returned without reading anything. -/
theorem dbChkRows_eq_none (ty : RowType V)
    (hselect : sql.getTable op.sql3 (SQL_OPERATION_CHECKOUT item tbl (orderBy item seq)) =
      .ok (columnResult item texts))
    (h : op.sqlInited = false ∨ texts = []) : dbChkRows sql op tbl item ty seq = .ok none := by
  have hres : ∃ ret, sqlCheckOut sql op tbl item seq = .ok (ret, []) := by
    rw [sqlCheckOut]
    by_cases hop : op.sqlInited = false
    · exact ⟨-1, if_pos hop⟩
    · rw [if_neg hop, hselect, columnResult, if_pos (h.resolve_left hop)]
      exact ⟨0, rfl⟩
  obtain ⟨ret, hret⟩ := hres
  rw [dbChkRows, hret, ok_bind]
  dsimp only
  rw [if_pos (.inr rfl)]
  rfl

variable (F : FloatScan φ) (ty : DbType)

theorem inside_iff_of_ne_nil (hop : op.sqlInited = true) (hitem : '\n' ∉ item)
    (hne : texts ≠ [])
    (hselect : sql.getTable op.sql3 (SQL_OPERATION_CHECKOUT item tbl (orderBy item seq)) =
      .ok (columnResult item texts)) :
    Inside (rowType F ty) texts (dbChkRows sql op tbl item (rowType F ty) seq) ↔
      Fits ty texts := by
  have hlaw := rowType_lawful F ty
  obtain ⟨t, ts, rfl⟩ := List.exists_cons_of_ne_nil hne
  rw [dbChkRows_eq (rowType F ty) hop hitem hne hselect]
  constructor
  · rintro ⟨r, hr, hread⟩
    obtain ⟨vs, hvs, hr⟩ := bind_eq_ok.1 hr
    cases hr
    have hown := hread vs rfl
    have hrows : (t :: ts).length ≤ 8 := by
      by_contra hrows
      have hle := length_le_chkRows hlaw (s := []) (reportLine_spec _) hne hvs
      have hlen := hown.length_eq
      rw [List.length_take] at hlen
      omega
    rw [List.take_of_length_le hrows] at hown
    rw [reportLine_eq (by omega)] at hvs
    obtain ⟨hlines, hlast⟩ := lines_of_chkRows hlaw (by omega) hrows hvs hown
    exact ⟨hrows, hlines, hlast,
      fun u hu => (exists_own_iff F ty _ u).1 (exists_own_of_forall₂ hown u hu)⟩
  · intro hfits
    have hrows := hfits.rows
    have hn : (t :: ts).length < 100 := by omega
    obtain ⟨vs, hvs, hown⟩ := exists_chkRows hlaw hn hrows hfits.lines hfits.last
      fun u hu => (exists_own_iff F ty _ u).2 (hfits.stored u hu)
    refine ⟨some vs, ?_, ?_⟩
    · rw [reportLine_eq hn, hvs]
      rfl
    · rintro _ ⟨⟩
      rw [List.take_of_length_le hrows]
      exact hown

/-- For every table, of any number of rows, and every type, `DbChkItem` keeps to its arrays and
reads the first eight rows exactly when it reads none or the values fit. -/
theorem rows_inside_iff (hitem : '\n' ∉ item)
    (hselect : sql.getTable op.sql3 (SQL_OPERATION_CHECKOUT item tbl (orderBy item seq)) =
      .ok (columnResult item texts)) :
    Inside (rowType F ty) texts (dbChkRows sql op tbl item (rowType F ty) seq) ↔
      op.sqlInited = false ∨ texts = [] ∨ Fits ty texts := by
  by_cases hnone : op.sqlInited = false ∨ texts = []
  · rw [dbChkRows_eq_none _ hselect hnone, ← or_assoc]
    exact iff_of_true ⟨none, rfl, by rintro _ ⟨⟩⟩ (.inl hnone)
  · obtain ⟨hop, hne⟩ := not_or.1 hnone
    rw [Bool.not_eq_false] at hop
    rw [inside_iff_of_ne_nil F ty hop hitem hne hselect]
    simp [hop, hne]

/-- A database of one column. -/
def columnDatabase (item : List Char) : Sqlite (List (List Char)) where
  empty := []
  exec texts _ := (texts, none)
  getTable texts _ := .ok (columnResult item texts)

/-- What is read of the numbers that `%d` reads. -/
def wholeFloats : FloatScan ℤ where
  zero := 0
  read s := (readInt s).map Prod.fst
  read_nil := rfl
  read_r _ := rfl

theorem two_rows_inside :
    Inside (rowType wholeFloats .int) [['7'], ['-', '5']]
      (dbChkRows (columnDatabase ['A']) ⟨[['7'], ['-', '5']], true⟩ ['T'] ['A']
        (rowType wholeFloats .int) .descend) := by
  refine (rows_inside_iff wholeFloats .int (by decide) rfl).2 (.inr (.inr ⟨by decide, ?_, ?_, ?_⟩))
  · exact fun t ht => ⟨by rintro hmem; simp_all, fun h => nomatch h.1⟩
  · rintro t ⟨⟩
    decide
  · simp only [List.forall_mem_cons]
    exact ⟨by decide, by decide, by simp⟩

/-- The ninth of nine numbers is written behind the last entry. -/
theorem not_rows_inside :
    ¬∀ texts : List (List Char), Inside (rowType wholeFloats .int) texts
      (dbChkRows (columnDatabase ['A']) ⟨texts, true⟩ ['T'] ['A'] (rowType wholeFloats .int)
        .descend) := by
  intro h
  have hfits := (inside_iff_of_ne_nil wholeFloats .int rfl (by decide) (by simp) rfl).1
    (h (List.replicate 9 ['7']))
  exact absurd hfits.rows (by simp)

end Mastiff.Storage

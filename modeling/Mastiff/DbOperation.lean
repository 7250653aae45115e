import Mastiff.Lib.Memory
import Mastiff.Lib.Scanf

/-!
# Database operations

`DbOperation` (`cambrian/storage/db_operation.cc`) prints SQL statements and puts the table
that SQLite returns into one text, a line a row, which `DbChkItem` and `DbUpdtItem` of
`DbaseClient` (`dbase_client.cc`) read and write by `sscanf` and `strcpy`. SQLite is a
parameter. A character stands for a `char`, so the sizes of the buffers, 512 and 1024, count
bytes.

`dbChkItem_eq` : what is read of a column is a function of its cells. `readCells_eq` : up to
eight readable values are read as they are, as far as they can be stored.
-/

namespace Mastiff.Storage

open Memory Scanf

/-! ## SQLite -/

/-- What `sqlite3_get_table` returns : the names of the columns and the rows, one string after
the other. A `NULL` is a null pointer. -/
structure ResultTable where
  nrow : ℕ
  ncol : ℕ
  cells : List (Option (List Char))
  length_cells : cells.length = (nrow + 1) * ncol

/-- A table without columns has no cells. -/
theorem length_no_cells : ([] : List (Option (List Char))).length = (0 + 1) * 0 :=
  rfl

/-- The SQLite library over what a database file contains : an empty file, `sqlite3_exec` and
`sqlite3_get_table`, with their error messages. -/
structure Sqlite (δ : Type) where
  empty : δ
  exec : δ → List Char → δ × Option (List Char)
  getTable : δ → List Char → Except (List Char) ResultTable

/-- An `EE_CHK_DB_SEQ`. -/
inductive ChkDbSeq
  | sentinel
  | descend
  | ascend
  deriving DecidableEq

/-! ## Formats -/

/-- `"row: %02d, col: %02d, key: "`. -/
def SET_TABLE_FORMAT_N (nrow ncol : ℕ) : List Char :=
  "row: ".toList ++ decimal02 nrow ++ ", col: ".toList ++ decimal02 ncol ++ ", key: ".toList

def GET_TABLE_FORMAT_INT : List Char :=
  "row: %d, col: %d, key: %d\n".toList

def GET_TABLE_FORMAT_STRING : List Char :=
  "row: %d, col: %d, key: %[^\n]\n".toList

/-- `"SELECT %s FROM %s %s;"`. -/
def SQL_OPERATION_CHECKOUT (item tbl chk : List Char) : List Char :=
  "SELECT ".toList ++ item ++ " FROM ".toList ++ tbl ++ " ".toList ++ chk ++ ";".toList

/-- `"UPDATE %s SET %s = %d;"`. -/
def SQL_OPERATION_UPDATE_INT (tbl item : List Char) (up : ℤ) : List Char :=
  "UPDATE ".toList ++ tbl ++ " SET ".toList ++ item ++ " = ".toList ++ decimal up ++ ";".toList

/-- `"UPDATE %s SET %s = '%s';"`. -/
def SQL_OPERATION_UPDATE_STRING (tbl item up : List Char) : List Char :=
  "UPDATE ".toList ++ tbl ++ " SET ".toList ++ item ++ " = \x27".toList ++ up ++ "\x27;".toList

/-- The order in which a column is checked out. -/
def orderBy (item : List Char) : ChkDbSeq → List Char
  | .sentinel => []
  | .descend => "ORDER BY ".toList ++ item ++ " DESC".toList
  | .ascend => "ORDER BY ".toList ++ item ++ " ASC".toList

/-! ## Operations -/

/-- Behaviour that the language or a library leaves undefined : a null pointer read, a place
outside an array, a number that is no `int`, an entry outside a repeated field. -/
inductive DbFault
  | nullPointer
  | outOfArray
  | intOverflow
  | outOfField
  deriving DecidableEq

/-- `sql3_`, the database it is open on, and `sql_inited_`. -/
structure DbOperation (δ : Type) where
  sql3 : δ
  sqlInited : Bool := false

/-- A line of the text that `SqlCheckOut` makes. `snprintf` is given 24 more bytes than the
value has, and one of them ends the string. -/
def cellLine (t : ResultTable) : Option (List Char) → Except DbFault (List Char)
  | none => .error .nullPointer
  | some chks =>
    .ok ((SET_TABLE_FORMAT_N t.nrow t.ncol).take (chks.length + 23) ++ chks ++ ['\n'])

/-- `SqlUpdateInt` and `SqlUpdateString` of a statement. An error is logged and returned. -/
def sqlUpdate {δ : Type} (sql : Sqlite δ) (op : DbOperation δ) (stmt : List Char) :
    DbOperation δ × ℤ :=
  let r := sql.exec op.sql3 stmt
  ({ op with sql3 := r.1 }, if r.2 = none then 0 else -1)

/-- `SqlCheckOut` : what it returns, and the text it appends to `result`. -/
def sqlCheckOut {δ : Type} (sql : Sqlite δ) (op : DbOperation δ) (tbl item : List Char)
    (seq : ChkDbSeq) : Except DbFault (ℤ × List Char) :=
  if op.sqlInited = false then .ok (-1, [])
  else
    match sql.getTable op.sql3 (SQL_OPERATION_CHECKOUT item tbl (orderBy item seq)) with
    | .error msg => .ok (if "no such table:".toList.isPrefixOf msg then -2 else -1, [])
    | .ok t => do
      let lines ← t.cells.mapM (cellLine t)
      return (0, lines.flatten)

/-! ## Items -/

/-- What is done with a value of an `EE_CHK_DB_TYPE` : the format it is read by, the value in
place before it is read and the one read, what is stored of it in `DbData`, and the statement
that updates it. -/
structure ChkDbType (V : Type) where
  format : List Char
  zero : V
  ofValue : Value → V
  store : V → Except DbFault V
  update : (tbl item : List Char) → V → List Char

/-- `ival` is an array of `int`. -/
def E_CHK_TYPE_INT : ChkDbType ℤ where
  format := GET_TABLE_FORMAT_INT
  zero := 0
  ofValue
    | .int n => n
    | .text _ => 0
  store n := if -2 ^ 31 ≤ n ∧ n < 2 ^ 31 then .ok n else .error .intOverflow
  update := SQL_OPERATION_UPDATE_INT

/-- The string a pointer denotes ends at the first null character. -/
def cString (s : List Char) : List Char :=
  s.takeWhile (· ≠ '\x00')

/-- `sval` is an array of 512 characters a value. -/
def E_CHK_TYPE_STRING : ChkDbType (List Char) where
  format := GET_TABLE_FORMAT_STRING
  zero := []
  ofValue
    | .int _ => []
    | .text s => s
  store s := if (cString s).length < 512 then .ok (cString s) else .error .outOfArray
  update := SQL_OPERATION_UPDATE_STRING

variable {V : Type}

/-- `sscanf` of a line : the value, and whether the end of the text came first. -/
def scanLine (ty : ChkDbType V) (cursor : List Char) : V × Bool :=
  match sscanf (directives ty.format) cursor with
  | ([_, _, v], eof) => (ty.ofValue v, eof)
  | (_, eof) => (ty.zero, eof)

/-- The loop of `DbChkItem` over the lines, with `room` places left in the arrays of `DbData`. A
ninth line is written outside them before the index is tested. -/
def chkLines (ty : ChkDbType V) : (room : ℕ) → (cursor : List Char) → Except DbFault (List V)
  | 0, _ => .error .outOfArray
  | room + 1, cursor => do
    let v ← ty.store (scanLine ty cursor).1
    match afterLine cursor with
    | none => .error .nullPointer
    | some rest =>
      if (scanLine ty cursor).2 = false ∧ 1 < rest.length then
        return v :: (← chkLines ty room rest)
      else return [v]

/-- `DbChkItem` of an item with several values : the values up to `mul_val_idx`, or `none` for the
error it returns. -/
def dbChkItem {δ : Type} (sql : Sqlite δ) (op : DbOperation δ) (tbl item : List Char)
    (ty : ChkDbType V) (seq : ChkDbSeq) : Except DbFault (Option (List V)) := do
  let (ret, res) ← sqlCheckOut sql op tbl item seq
  if ret ≠ 0 ∨ res = [] then return none
  else
    match afterLine res with
    | none => .error .nullPointer
    | some cursor => return some (← chkLines ty 8 cursor)

/-- A value of `DbData` to be written, and its `ignore`. -/
structure DbEntry (V : Type) where
  val : V
  ignore : Bool := false

/-- `DbUpdtItem` of the values up to `mul_val_idx`. -/
def dbUpdtItem {δ : Type} (sql : Sqlite δ) (op : DbOperation δ) (dbd : List (DbEntry V))
    (tbl item : List Char) (ty : ChkDbType V) : DbOperation δ :=
  dbd.foldl
    (fun op e => if e.ignore then op else (sqlUpdate sql op (ty.update tbl item e.val)).1) op

/-- The values to be saved of a repeated field, for those that were fetched and are compared with
them as `norm` leaves them. A value that has not changed is ignored, and the place of an ignored
one is not read. -/
def changes {ι : Type} [DecidableEq V] (ty : ChkDbType V) (norm : V → V) (get : ι → V) :
    List V → List ι → Except DbFault (List (DbEntry V))
  | [], _ => .ok []
  | _ :: _, [] => .error .outOfField
  | g :: gs, x :: xs => do
    let e ←
      if get x = norm g then pure ⟨get x, true⟩
      else do pure ⟨← ty.store (get x), false⟩
    return e :: (← changes ty norm get gs xs)

/-- The values that the table has no row for are stored as well, with `room` places left in the
arrays of `DbData`, but not counted. -/
def increase {ι : Type} (ty : ChkDbType V) (get : ι → V) : (room : ℕ) → List ι → Except DbFault Unit
  | _, [] => .ok ()
  | 0, _ :: _ => .error .outOfArray
  | room + 1, x :: xs => do
    let _ ← ty.store (get x)
    increase ty get room xs

/-! ## What is fetched -/

theorem cString_eq_self {t : List Char} (ht : '\x00' ∉ t) : cString t = t := by
  rw [cString, List.takeWhile_eq_self_iff]
  intro c hc
  simpa using ne_of_mem_of_not_mem hc ht

theorem length_decimal02 {n : ℕ} (hn : n < 100) : (decimal02 n).length = 2 := by
  have hpos := Nat.length_toDigits_pos (b := 10) (n := n)
  have hle := (Nat.length_toDigits_le_iff (b := 10) (n := n) (k := 2) (by decide) (by decide)).2 hn
  simp only [decimal02, List.length_append, List.length_replicate]
  omega

theorem length_SET_TABLE_FORMAT_N {n m : ℕ} (hn : n < 100) (hm : m < 100) :
    (SET_TABLE_FORMAT_N n m).length = 23 := by
  unfold SET_TABLE_FORMAT_N
  simp only [List.length_append, length_decimal02 hn, length_decimal02 hm]
  decide

/-- The line of a value in a column of `n` rows. -/
def valueLine (n : ℕ) (t : List Char) : List Char :=
  SET_TABLE_FORMAT_N n 1 ++ t ++ ['\n']

/-- The line of a cell. A `NULL` has none. -/
def rowLine (n : ℕ) : Option (List Char) → Except DbFault (List Char)
  | none => .error .nullPointer
  | some t => .ok (valueLine n t)

theorem cellLine_eq {t : ResultTable} (hrow : t.nrow < 100) (hcol : t.ncol = 1) :
    cellLine t = rowLine t.nrow := by
  funext cell
  cases cell with
  | none => rfl
  | some s =>
    have hlen := length_SET_TABLE_FORMAT_N hrow (by omega : t.ncol < 100)
    rw [cellLine, List.take_of_length_le (by omega), hcol]
    rfl

/-- What is read of a column with the cells `cells`. -/
def readCells (ty : ChkDbType V) (cells : List (Option (List Char))) : Except DbFault (List V) := do
  let lines ← cells.mapM (rowLine cells.length)
  chkLines ty 8 lines.flatten

theorem not_mem_decimal02 {c : Char} (hc : c.isDigit = false) (n : ℕ) : c ∉ decimal02 n := by
  intro hmem
  have hdigit := isDigit_of_mem_zeros hmem
  rw [hc] at hdigit
  cases hdigit

theorem newline_not_mem_SET_TABLE_FORMAT_N (n m : ℕ) : '\n' ∉ SET_TABLE_FORMAT_N n m := by
  unfold SET_TABLE_FORMAT_N
  simp only [List.mem_append, not_or]
  refine ⟨⟨⟨⟨by decide, not_mem_decimal02 (by decide) n⟩, by decide⟩,
    not_mem_decimal02 (by decide) m⟩, by decide⟩

/-- `sscanf` reads the numbers that are printed in front of a value, and skips white space at
the front of the value. -/
theorem sscanf_after_keys (f : List Directive) (n m : ℕ) (t : List Char) :
    sscanf (directives "row: %d, col: %d, key: ".toList ++ f) (SET_TABLE_FORMAT_N n m ++ t) =
      (.int n :: .int m :: (sscanf f (t.dropWhile isSpace)).1, false) := by
  have hformat : directives "row: %d, col: %d, key: ".toList ++ f =
      "row:".toList.map .lit ++ .white :: .int :: (",".toList.map .lit ++ .white ::
        ("col:".toList.map .lit ++ .white :: .int :: (",".toList.map .lit ++ .white ::
          ("key:".toList.map .lit ++ .white :: f)))) := by
    rfl
  have htext : SET_TABLE_FORMAT_N n m ++ t =
      "row:".toList ++ ' ' :: (decimal02 n ++ (",".toList ++ ' ' ::
        ("col:".toList ++ ' ' :: (decimal02 m ++ (",".toList ++ ' ' ::
          ("key:".toList ++ ' ' :: t)))))) := by
    unfold SET_TABLE_FORMAT_N
    simp
  rw [hformat, htext]
  have hspace : ∀ (k : ℕ) (s : List Char), NoSpace (decimal02 k ++ s) := by
    intro k s c hc
    obtain ⟨d, ds, hds, hd⟩ := exists_decimal02_eq_cons k
    rw [hds] at hc
    cases hc
    exact hd
  have hcomma : ∀ s, NoDigit (",".toList ++ s) := by
    rintro s c ⟨⟩
    decide
  have hkey : sscanf (.white :: f) (' ' :: t) = sscanf f (t.dropWhile isSpace) := by
    rw [sscanf, List.dropWhile_cons_of_pos (by decide)]
  rw [sscanf_lits, sscanf_white _ (hspace n _), sscanf_decimal02 _ n (hcomma _),
    sscanf_lits, sscanf_white _ (by rintro c ⟨⟩; decide), sscanf_lits,
    sscanf_white _ (hspace m _), sscanf_decimal02 _ m (hcomma _), sscanf_lits,
    sscanf_white _ (by rintro c ⟨⟩; decide), sscanf_lits, hkey]

theorem dropWhile_isSpace {t : List Char} (ht : NoSpace t) : t.dropWhile isSpace = t := by
  cases t with
  | nil => rfl
  | cons c t => rw [List.dropWhile_cons_of_neg (by simp [ht c rfl])]

theorem sscanf_SET_TABLE_FORMAT_N (f : List Directive) (n m : ℕ) {t : List Char}
    (ht : NoSpace t) :
    sscanf (directives "row: %d, col: %d, key: ".toList ++ f) (SET_TABLE_FORMAT_N n m ++ t) =
      (.int n :: .int m :: (sscanf f t).1, false) := by
  rw [sscanf_after_keys, dropWhile_isSpace ht]

/-- A text that a line holds and `%[^\n]` reads as it is. -/
structure IsPlain (t : List Char) : Prop where
  ne_nil : t ≠ []
  newline : '\n' ∉ t
  nul : '\x00' ∉ t
  space : NoSpace t

instance (t : List Char) : Decidable (IsPlain t) :=
  decidable_of_iff (t ≠ [] ∧ '\n' ∉ t ∧ '\x00' ∉ t ∧ NoSpace t)
    ⟨fun h => ⟨h.1, h.2.1, h.2.2.1, h.2.2.2⟩, fun h => ⟨h.ne_nil, h.newline, h.nul, h.space⟩⟩

/-- `t` is read as the value `v`. -/
def ChkDbType.Reads (ty : ChkDbType V) (t : List Char) (v : V) : Prop :=
  '\n' ∉ t ∧ ∀ n s, scanLine ty (SET_TABLE_FORMAT_N n 1 ++ (t ++ '\n' :: s)) = (v, false)

theorem reads_int (v : ℤ) : E_CHK_TYPE_INT.Reads (decimal v) v := by
  refine ⟨not_mem_decimal (by decide) (by decide) v, fun n s => ?_⟩
  have hformat : directives E_CHK_TYPE_INT.format =
      directives "row: %d, col: %d, key: ".toList ++ [.int, .white] := by
    rfl
  have hspace : NoSpace (decimal v ++ '\n' :: s) := by
    obtain ⟨d, ds, hds, hd⟩ := exists_decimal_eq_cons v
    rw [hds]
    rintro c ⟨⟩
    exact hd
  rw [scanLine, hformat, sscanf_SET_TABLE_FORMAT_N _ n 1 hspace,
    sscanf_decimal _ v (by rintro c ⟨⟩; decide)]
  rfl

theorem reads_string {t : List Char} (ht : IsPlain t) : E_CHK_TYPE_STRING.Reads t t := by
  refine ⟨ht.newline, fun n s => ?_⟩
  have hformat : directives E_CHK_TYPE_STRING.format =
      directives "row: %d, col: %d, key: ".toList ++ [.line, .white] := by
    rfl
  have hspace : NoSpace (t ++ '\n' :: s) := by
    rw [NoSpace, List.head?_append_of_ne_nil _ ht.ne_nil]
    exact ht.space
  rw [scanLine, hformat, sscanf_SET_TABLE_FORMAT_N _ n 1 hspace, sscanf_line _ ht.ne_nil ht.newline]
  rfl

theorem length_valueLine {n : ℕ} (hn : n < 100) (t : List Char) : 1 < (valueLine n t).length := by
  have hlen := length_SET_TABLE_FORMAT_N hn (by decide : 1 < 100)
  simp only [valueLine, List.length_append]
  omega

/-- The loop stores the values of as many lines as there is room for, one after the other. -/
theorem chkLines_eq {ty : ChkDbType V} {print : V → List Char} {n : ℕ} (hn : n < 100)
    {vs : List V} (hne : vs ≠ []) (hreads : ∀ v ∈ vs, ty.Reads (print v) v) {room : ℕ}
    (hroom : vs.length ≤ room) :
    chkLines ty room (vs.flatMap fun v => valueLine n (print v)) = vs.mapM ty.store := by
  induction vs generalizing room with
  | nil => exact absurd rfl hne
  | cons v vs ih =>
    obtain ⟨room, rfl⟩ := Nat.exists_eq_add_one_of_ne_zero (n := room) (by simp at hroom; omega)
    obtain ⟨⟨hnl, hscan⟩, hreads⟩ := List.forall_mem_cons.1 hreads
    have hline : (v :: vs).flatMap (fun v => valueLine n (print v)) =
        SET_TABLE_FORMAT_N n 1 ++
          (print v ++ '\n' :: vs.flatMap fun v => valueLine n (print v)) := by
      simp [valueLine]
    have hafter : afterLine ((v :: vs).flatMap fun v => valueLine n (print v)) =
        some (vs.flatMap fun v => valueLine n (print v)) := by
      rw [hline, ← List.append_assoc]
      refine afterLine_append ?_ _
      simp only [List.mem_append, not_or]
      exact ⟨newline_not_mem_SET_TABLE_FORMAT_N n 1, hnl⟩
    rw [chkLines, hafter, hline, hscan, List.mapM_cons]
    refine congrArg _ (funext fun w => ?_)
    cases vs with
    | nil => rfl
    | cons v' vs =>
      have hlong := length_valueLine hn (print v')
      dsimp only
      rw [if_pos ⟨rfl, by simp only [List.flatMap_cons, List.length_append]; omega⟩,
        ih (by simp) hreads (by simpa using hroom)]

/-- A column of readable values is read as it is, as far as the values can be stored. -/
theorem readCells_eq {ty : ChkDbType V} {print : V → List Char} {vs : List V} (hne : vs ≠ [])
    (hlen : vs.length ≤ 8) (hreads : ∀ v ∈ vs, ty.Reads (print v) v) :
    readCells ty (vs.map fun v => some (print v)) = vs.mapM ty.store := by
  have hlines : (vs.map fun v => some (print v)).mapM (rowLine vs.length) =
      .ok (vs.map fun v => valueLine vs.length (print v)) := by
    rw [mapM_eq_ok_iff, List.forall₂_map_left_iff, List.forall₂_map_right_iff,
      List.forall₂_same]
    exact fun _ _ => rfl
  rw [readCells, List.length_map, hlines, ok_bind, ← List.flatMap_def]
  exact chkLines_eq (by omega) hne hreads hlen

/-- What is read of a column has been stored from a line. -/
theorem mem_of_chkLines {ty : ChkDbType V} {room : ℕ} {cursor : List Char} {vs : List V}
    (h : chkLines ty room cursor = .ok vs) {v : V} (hv : v ∈ vs) :
    ∃ line, ty.store (scanLine ty line).1 = .ok v := by
  induction room generalizing cursor vs with
  | zero => cases h
  | succ room ih =>
    rw [chkLines] at h
    obtain ⟨w, hw, h⟩ := bind_eq_ok.1 h
    cases hafter : afterLine cursor with
    | none =>
      rw [hafter] at h
      cases h
    | some rest =>
      rw [hafter] at h
      dsimp only at h
      split_ifs at h
      · obtain ⟨ws, hws, h⟩ := bind_eq_ok.1 h
        cases h
        rcases List.mem_cons.1 hv with rfl | hv
        · exact ⟨cursor, hw⟩
        · exact ih hws hv
      · cases h
        obtain rfl := List.mem_singleton.1 hv
        exact ⟨cursor, hw⟩

theorem scanLine_cases (ty : ChkDbType V) (cursor : List Char) :
    (scanLine ty cursor).1 = ty.zero ∨
      ∃ v ∈ (sscanf (directives ty.format) cursor).1, (scanLine ty cursor).1 = ty.ofValue v := by
  unfold scanLine
  split
  · next a b v eof heq => exact .inr ⟨v, by simp [heq], rfl⟩
  · exact .inl rfl

/-- A line of text that is scanned begins with no white space. -/
theorem noSpace_scanLine (cursor : List Char) :
    NoSpace (scanLine E_CHK_TYPE_STRING cursor).1 := by
  rcases scanLine_cases E_CHK_TYPE_STRING cursor with hzero | ⟨v, hv, hvalue⟩
  · rw [hzero]
    rintro c ⟨⟩
  · rw [hvalue]
    cases v with
    | int n => rintro c ⟨⟩
    | text t => exact noSpace_of_text_mem rfl hv

theorem head?_cString (t : List Char) : ∀ c ∈ (cString t).head?, c ∈ t.head? := by
  cases t with
  | nil => exact fun c hc => hc
  | cons b t =>
    intro c hc
    by_cases hb : b = '\x00'
    · simp [cString, hb] at hc
    · simpa [cString, hb] using hc

theorem nul_not_mem_cString (t : List Char) : '\x00' ∉ cString t := by
  intro hmem
  simpa using List.all_eq_true.1 List.all_takeWhile _ hmem

theorem eq_cString_of_store {s t : List Char} (h : E_CHK_TYPE_STRING.store s = .ok t) :
    t = cString s := by
  change (if (cString s).length < 512 then Except.ok (cString s) else _) = _ at h
  split_ifs at h
  exact (Except.ok.inj h).symm

/-- A text that is read has no null character and begins with no white space. -/
theorem mem_readCells_string {cells : List (Option (List Char))} {vs : List (List Char)}
    (h : readCells E_CHK_TYPE_STRING cells = .ok vs) {t : List Char} (ht : t ∈ vs) :
    '\x00' ∉ t ∧ NoSpace t := by
  obtain ⟨lines, -, h⟩ := bind_eq_ok.1 h
  obtain ⟨line, hstore⟩ := mem_of_chkLines h ht
  rw [eq_cString_of_store hstore]
  exact ⟨nul_not_mem_cString _, fun c hc => noSpace_scanLine line c (head?_cString _ c hc)⟩

/-- A table of one column with the cells `cells`. -/
structure Holds (t : ResultTable) (item : List Char) (cells : List (Option (List Char))) :
    Prop where
  nrow : t.nrow = cells.length
  ncol : t.ncol = 1
  cells_eq : t.cells = some item :: cells

theorem afterLine_valueLine (n : ℕ) {t : List Char} (ht : '\n' ∉ t) (s : List Char) :
    afterLine (valueLine n t ++ s) = some s := by
  have hline : '\n' ∉ SET_TABLE_FORMAT_N n 1 ++ t :=
    List.mem_append.not.2 (not_or.2 ⟨newline_not_mem_SET_TABLE_FORMAT_N n 1, ht⟩)
  rw [valueLine, List.append_assoc, List.singleton_append]
  exact afterLine_append hline s

section CheckOut

variable {δ : Type} {sql : Sqlite δ} {op : DbOperation δ} {tbl item : List Char} {seq : ChkDbSeq}
  {t : ResultTable} {cells : List (Option (List Char))}

/-- A line for the name of the column, and one for each cell. -/
theorem sqlCheckOut_eq (hop : op.sqlInited = true)
    (ht : sql.getTable op.sql3 (SQL_OPERATION_CHECKOUT item tbl (orderBy item seq)) = .ok t)
    (hholds : Holds t item cells) (hlen : cells.length < 100) :
    sqlCheckOut sql op tbl item seq = (do
      let lines ← cells.mapM (rowLine cells.length)
      return (0, valueLine cells.length item ++ lines.flatten)) := by
  have hnrow := hholds.nrow
  rw [sqlCheckOut, if_neg (by simp [hop]), ht]
  dsimp only
  rw [cellLine_eq (by omega) hholds.ncol, hholds.cells_eq, hnrow, List.mapM_cons]
  cases cells.mapM (rowLine cells.length) <;> rfl

/-- `DbChkItem` reads the cells of the column. -/
theorem dbChkItem_eq (hop : op.sqlInited = true) (hitem : '\n' ∉ item) (ty : ChkDbType V)
    (ht : sql.getTable op.sql3 (SQL_OPERATION_CHECKOUT item tbl (orderBy item seq)) = .ok t)
    (hholds : Holds t item cells) (hlen : cells.length < 100) :
    dbChkItem sql op tbl item ty seq = (do return some (← readCells ty cells)) := by
  rw [dbChkItem, sqlCheckOut_eq hop ht hholds hlen, readCells]
  cases cells.mapM (rowLine cells.length) with
  | error e => rfl
  | ok lines =>
    simp only [ok_bind, pure_eq_ok, afterLine_valueLine cells.length hitem lines.flatten]
    rw [if_neg (by simp [valueLine])]

end CheckOut

end Mastiff.Storage

import Mathlib.Data.Sum.Order
import Mathlib.Logic.Function.Basic
import Mastiff.DbRows
import Mastiff.VolatileTable

/-!
# The columns of Volatile

All 33 columns of the table `Volatile`, and `DbChkItem` (`cambrian/storage/dbase_client.cc`) of a
single value, which reads the first line of a column in descending order. What a cell is, is a
parameter.

`Documented` is what SQLite documents of the statements on these columns, as far as their values
are numbers, or texts whose quotes come in pairs. `itemDatabase` is a database that does so.

`readItem_int` : a column with the same number in every row is read as that number.
`readItem_text` : of a text in one row, the first line after white space is read.
-/

set_option linter.unusedSectionVars false

namespace Mastiff.Storage

open Memory Scanf SortedColumns

/-! ## Columns -/

inductive SqlType
  | integer
  | real
  | text
  deriving DecidableEq

/-- The items `ITEM_VOLATILE_NDSTMD` to `ITEM_VOLATILE_WTRTTL`. -/
inductive VolatileItem
  | ndstmd | ndssta | ndsend
  | batlvl | fansuc | wtfspd | boostm | breakp | wtrlvl | mopset
  | pwrupt | pwrsec | pwrttl | msscnt | mlgttl | tctime | tcarea
  | langug | audvol
  | ifconf | wfssid | passwd | ipaddr
  | stnuse | stnttl | mbsuse | mbsttl | sdbuse | sdbttl | snsuse | snsttl | wtruse | wtrttl
  deriving DecidableEq

namespace VolatileItem

/-- The columns, in the order of the table. -/
def all : List VolatileItem :=
  [ndstmd, ndssta, ndsend, batlvl, fansuc, wtfspd, boostm, breakp, wtrlvl, mopset, pwrupt, pwrsec,
    pwrttl, msscnt, mlgttl, tctime, tcarea, langug, audvol, ifconf, wfssid, passwd, ipaddr, stnuse,
    stnttl, mbsuse, mbsttl, sdbuse, sdbttl, snsuse, snsttl, wtruse, wtrttl]

def name : VolatileItem → List Char
  | ndstmd => ITEM_VOLATILE_NDSTMD
  | ndssta => ITEM_VOLATILE_NDSSTA
  | ndsend => ITEM_VOLATILE_NDSEND
  | batlvl => "BatteryLevel".toList
  | fansuc => "FanSuction".toList
  | wtfspd => "FlowSpeed".toList
  | boostm => "BoostSw".toList
  | breakp => "BreakSw".toList
  | wtrlvl => "WaterLevel".toList
  | mopset => "IsMopSet".toList
  | pwrupt => "PowerupTime".toList
  | pwrsec => "PoweronTimeSec".toList
  | pwrttl => "PoweronTimeTotal".toList
  | msscnt => "MissionCount".toList
  | mlgttl => "MileageTotal".toList
  | tctime => "CleanTimeTotal".toList
  | tcarea => "CleanAreaTotal".toList
  | langug => "Language".toList
  | audvol => "Volume".toList
  | ifconf => "IfConfed".toList
  | wfssid => "WifiSsid".toList
  | passwd => "WifiPswd".toList
  | ipaddr => "IpAddr".toList
  | stnuse => "StrainerCur".toList
  | stnttl => "StrainerTotal".toList
  | mbsuse => "MainBrushCur".toList
  | mbsttl => "MainBrushTotal".toList
  | sdbuse => "SideBrushCur".toList
  | sdbttl => "SideBrushTotal".toList
  | snsuse => "SensorCur".toList
  | snsttl => "SensorTotal".toList
  | wtruse => "WaterFilterCur".toList
  | wtrttl => "WaterFilterTotal".toList

def sqlType : VolatileItem → SqlType
  | ndssta | ndsend | pwrupt | langug | ifconf | wfssid | passwd | ipaddr => .text
  | pwrsec | pwrttl | tcarea => .real
  | _ => .integer

theorem isAlpha_name (item : VolatileItem) : item.name.all Char.isAlpha = true := by
  cases item <;> decide

theorem not_mem_name {c : Char} (hc : c.isAlpha = false) (item : VolatileItem) : c ∉ item.name := by
  intro hmem
  have halpha := List.all_eq_true.1 item.isAlpha_name c hmem
  rw [hc] at halpha
  cases halpha

theorem newline_not_mem_name (item : VolatileItem) : '\n' ∉ item.name :=
  not_mem_name (by decide) item

theorem space_not_mem_name (item : VolatileItem) : ' ' ∉ item.name :=
  not_mem_name (by decide) item

theorem find?_name (item : VolatileItem) :
    all.find? (fun i => decide (i.name = item.name)) = some item := by
  cases item <;> decide

end VolatileItem

/-! ## What SQLite documents -/

/-- What a text pasted between quotes is as a literal, in which a quote is doubled, or `none` where
the literal ends before it. -/
def unquote : List Char → Option (List Char)
  | [] => some []
  | '\x27' :: '\x27' :: t => (unquote t).map ('\x27' :: ·)
  | '\x27' :: _ => none
  | c :: t => (unquote t).map (c :: ·)

/-- Cells, with what SQLite prints of them in a column, and those that an `int` or a text is stored
as in the columns of its type. -/
structure Cells (κ : Type) where
  print : VolatileItem → κ → Option (List Char)
  ofInt : ℤ → κ
  ofText : List Char → κ
  print_ofInt : ∀ item, item.sqlType = .integer → ∀ n, -2 ^ 31 ≤ n → n < 2 ^ 31 →
    print item (ofInt n) = some (decimal n)
  print_ofText : ∀ item, item.sqlType = .text → ∀ t, '\x00' ∉ t → print item (ofText t) = some t

/-- A row of the table. -/
abbrev ItemRow (κ : Type) :=
  VolatileItem → κ

variable {δ κ V : Type}

/-- A column is selected in descending order, row by row, and updated in every row. `rows` are the
rows of the table in a database. -/
structure ItemsDocumented [LinearOrder κ] (C : Cells κ) (sql : Sqlite δ)
    (rows : δ → List (ItemRow κ)) : Prop where
  select : ∀ d item, rows d ≠ [] → ∃ (t : ResultTable) (cells : List κ),
    sql.getTable d (SQL_OPERATION_CHECKOUT item.name TBL_VOLATILE_INFO
      (orderBy item.name .descend)) = .ok t ∧
    Holds t item.name (cells.map (C.print item)) ∧
    cells.Perm ((rows d).map (· item)) ∧ cells.Pairwise fun a b => b ≤ a
  updateInt : ∀ d item, item.sqlType = .integer → ∀ n, -2 ^ 31 ≤ n → n < 2 ^ 31 →
    rows (sql.exec d (SQL_OPERATION_UPDATE_INT TBL_VOLATILE_INFO item.name n)).1 =
      (rows d).map (Function.update · item (C.ofInt n))
  updateText : ∀ d item, item.sqlType = .text → ∀ t s, '\x00' ∉ t → unquote t = some s →
    (sql.exec d (SQL_OPERATION_UPDATE_STRING TBL_VOLATILE_INFO item.name t)).2 = none ∧
      rows (sql.exec d (SQL_OPERATION_UPDATE_STRING TBL_VOLATILE_INFO item.name t)).1 =
        (rows d).map (Function.update · item (C.ofText s))

/-- A quote of each pair is left out. -/
theorem unquote_eq_some {t s : List Char} (h : unquote t = some s) :
    s.Sublist t ∧ (s.length = t.length → '\x27' ∉ t) := by
  induction t using unquote.induct generalizing s with
  | case1 =>
    cases h
    exact ⟨.refl [], fun _ => List.not_mem_nil⟩
  | case2 t ih =>
    rw [unquote] at h
    obtain ⟨u, hu, rfl⟩ := Option.map_eq_some_iff.1 h
    have hsub := (ih hu).1
    have hlen := hsub.length_le
    refine ⟨(hsub.cons_cons _).cons _, fun heq => ?_⟩
    simp only [List.length_cons] at heq
    omega
  | case3 t ht =>
    rw [unquote] at h
    · cases h
    · exact ht
  | case4 c t hpair hquote ih =>
    rw [unquote] at h
    · obtain ⟨u, hu, rfl⟩ := Option.map_eq_some_iff.1 h
      obtain ⟨hsub, heq⟩ := ih hu
      refine ⟨hsub.cons_cons c, fun hlen => List.mem_cons.not.2 (not_or.2 ⟨?_, ?_⟩)⟩
      · rintro rfl
        exact hquote rfl
      · exact heq (by simpa using hlen)
    · exact hpair
    · exact hquote

theorem unquote_of_not_mem {t : List Char} (ht : '\x27' ∉ t) : unquote t = some t := by
  induction t with
  | nil => rfl
  | cons c t ih =>
    obtain ⟨hc, ht⟩ := not_or.1 (List.mem_cons.not.1 ht)
    rw [unquote, ih ht]
    · rfl
    · rintro _ rfl
      exact absurd rfl hc
    · rintro rfl
      exact absurd rfl hc

/-- A literal is the text between its quotes exactly if there is no quote in it. -/
theorem unquote_eq_self_iff (t : List Char) : unquote t = some t ↔ '\x27' ∉ t :=
  ⟨fun h => (unquote_eq_some h).2 rfl, unquote_of_not_mem⟩

/-! ## A single value -/

/-- A type of `DbOperation` as that of a row. -/
def ChkDbType.row (ty : ChkDbType V) : RowType V :=
  ⟨scanLine ty, ty.store, true⟩

/-- `DbChkItem` of a single value. -/
def dbChkSingle (sql : Sqlite δ) (op : DbOperation δ) (tbl item : List Char) (ty : RowType V)
    (seq : ChkDbSeq) : Except DbFault (Option V) := do
  let (ret, res) ← sqlCheckOut sql op tbl item seq
  if ret ≠ 0 ∨ res = [] then return none
  else
    match afterLine res with
    | none => .error .nullPointer
    | some cursor => return some (← ty.store (ty.scan cursor).1)

/-- What is read of a column with the cells `cells`. -/
def readFirst (ty : RowType V) (cells : List (Option (List Char))) : Except DbFault V := do
  let lines ← cells.mapM (rowLine cells.length)
  ty.store (ty.scan lines.flatten).1

theorem dbChkSingle_eq {sql : Sqlite δ} {op : DbOperation δ} (hop : op.sqlInited = true)
    {tbl item : List Char} (hitem : '\n' ∉ item) (ty : RowType V) {seq : ChkDbSeq}
    {t : ResultTable}
    (ht : sql.getTable op.sql3 (SQL_OPERATION_CHECKOUT item tbl (orderBy item seq)) = .ok t)
    {cells : List (Option (List Char))} (hholds : Holds t item cells) (hlen : cells.length < 100) :
    dbChkSingle sql op tbl item ty seq = (do return some (← readFirst ty cells)) := by
  rw [dbChkSingle, sqlCheckOut_eq hop ht hholds hlen, readFirst]
  cases cells.mapM (rowLine cells.length) with
  | error e => rfl
  | ok lines =>
    simp only [ok_bind, pure_eq_ok, afterLine_valueLine cells.length hitem lines.flatten]
    rw [if_neg (by simp [valueLine])]

variable [LinearOrder κ] {C : Cells κ}

/-- What is read of an item, whose cells are fetched in descending order. -/
def readItem (C : Cells κ) (ty : RowType V) (item : VolatileItem) (rs : List (ItemRow κ)) :
    Except DbFault V :=
  readFirst ty ((descending (rs.map (· item))).map (C.print item))

theorem readItem_congr (ty : RowType V) {item : VolatileItem} {rs rs' : List (ItemRow κ)}
    (h : rs'.map (· item) = rs.map (· item)) : readItem C ty item rs' = readItem C ty item rs := by
  rw [readItem, h, readItem]

theorem cells_of_documented {sql : Sqlite δ} {rows : δ → List (ItemRow κ)}
    (hdoc : ItemsDocumented C sql rows) {d : δ} (hne : rows d ≠ []) (item : VolatileItem) :
    ∃ t, sql.getTable d (SQL_OPERATION_CHECKOUT item.name TBL_VOLATILE_INFO
        (orderBy item.name .descend)) = .ok t ∧
      Holds t item.name ((descending ((rows d).map (· item))).map (C.print item)) := by
  obtain ⟨t, cells, ht, hholds, hperm, hsorted⟩ := hdoc.select d item hne
  rw [eq_descending hperm hsorted] at hholds
  exact ⟨t, ht, hholds⟩

/-- An item is fetched as it is read. -/
theorem dbChkSingle_item {sql : Sqlite δ} {rows : δ → List (ItemRow κ)}
    (hdoc : ItemsDocumented C sql rows) {op : DbOperation δ} (hop : op.sqlInited = true)
    (hne : rows op.sql3 ≠ []) (hlen : (rows op.sql3).length < 100) (ty : RowType V)
    (item : VolatileItem) :
    dbChkSingle sql op TBL_VOLATILE_INFO item.name ty .descend =
      (do return some (← readItem C ty item (rows op.sql3))) := by
  obtain ⟨t, ht, hholds⟩ := cells_of_documented hdoc hne item
  exact dbChkSingle_eq hop item.newline_not_mem_name ty ht hholds (by simpa using hlen)

/-- A column with one text in all its rows. -/
theorem readItem_replicate (ty : RowType V) {item : VolatileItem} {rs : List (ItemRow κ)} {k : κ}
    (hrs : ∀ r ∈ rs, r item = k) {t : List Char} (hprint : C.print item k = some t) :
    readItem C ty item rs =
      ty.store (ty.scan (List.replicate rs.length (valueLine rs.length t)).flatten).1 := by
  have hcolumn : rs.map (· item) = List.replicate rs.length k := by
    rw [List.eq_replicate_iff, List.length_map]
    exact ⟨rfl, List.forall_mem_map.2 hrs⟩
  have hlines : (List.replicate rs.length (some t)).mapM (rowLine rs.length) =
      .ok (List.replicate rs.length (valueLine rs.length t)) := by
    rw [mapM_eq_ok_iff, List.forall₂_iff_get]
    simp [rowLine]
  rw [readItem, hcolumn, descending_replicate, List.map_replicate, hprint, readFirst,
    List.length_replicate, hlines, ok_bind]

/-- A column with one number in all its rows is read as that number. -/
theorem readItem_int {item : VolatileItem} (hitem : item.sqlType = .integer) {n : ℤ}
    (hn : -2 ^ 31 ≤ n ∧ n < 2 ^ 31) {rs : List (ItemRow κ)} (hne : rs ≠ [])
    (hrs : ∀ r ∈ rs, r item = C.ofInt n) :
    readItem C E_CHK_TYPE_INT.row item rs = .ok n := by
  obtain ⟨k, hk⟩ := Nat.exists_eq_add_one_of_ne_zero (List.length_eq_zero_iff.not.2 hne)
  have hfirst : (List.replicate (k + 1) (valueLine (k + 1) (decimal n))).flatten =
      SET_TABLE_FORMAT_N (k + 1) 1 ++ (decimal n ++ '\n' ::
        (List.replicate k (valueLine (k + 1) (decimal n))).flatten) := by
    rw [List.replicate_succ, List.flatten_cons, valueLine_eq]
    simp
  rw [readItem_replicate _ hrs (C.print_ofInt item hitem n hn.1 hn.2), hk, hfirst]
  dsimp only [ChkDbType.row]
  rw [(reads_int n).2]
  exact if_pos hn

theorem length_lineOf_le (t : List Char) : (lineOf t).length ≤ t.length :=
  (List.takeWhile_prefix _).length_le.trans (List.dropWhile_suffix _).length_le

theorem length_cString_le (t : List Char) : (cString t).length ≤ t.length :=
  (List.takeWhile_prefix _).length_le

/-- Whatever is read of a column with one short text in all its rows can be stored. -/
theorem exists_readItem_text {item : VolatileItem} {k : κ} {t : List Char}
    (hprint : C.print item k = some t) (ht : t.length ≤ 19) {rs : List (ItemRow κ)} (hne : rs ≠ [])
    (hlen : rs.length ≤ 8) (hrs : ∀ r ∈ rs, r item = k) :
    ∃ g, readItem C E_CHK_TYPE_STRING.row item rs = .ok g := by
  obtain ⟨m, hm⟩ := Nat.exists_eq_add_one_of_ne_zero (List.length_eq_zero_iff.not.2 hne)
  have hfirst : (List.replicate (m + 1) (valueLine (m + 1) t)).flatten =
      SET_TABLE_FORMAT_N (m + 1) 1 ++ (t ++ ['\n'] ++
        (List.replicate m (valueLine (m + 1) t)).flatten) := by
    rw [List.replicate_succ, List.flatten_cons, valueLine_eq, List.append_assoc]
  have hline : (valueLine (m + 1) t).length = t.length + 24 := by
    have hprefix := length_SET_TABLE_FORMAT_N (by omega : m + 1 < 100) (by decide : 1 < 100)
    simp only [valueLine, List.length_append, List.length_singleton]
    omega
  have hshort : (cString (lineOf (t ++ ['\n'] ++
      (List.replicate m (valueLine (m + 1) t)).flatten))).length < 512 := by
    refine (length_cString_le _).trans_lt ((length_lineOf_le _).trans_lt ?_)
    have hrest : (List.replicate m (valueLine (m + 1) t)).flatten.length = m * (t.length + 24) := by
      simp [hline]
    rw [List.length_append, List.length_append, hrest, List.length_singleton]
    have hm' : m * (t.length + 24) ≤ 7 * 43 := Nat.mul_le_mul (by omega) (by omega)
    omega
  rw [readItem_replicate _ hrs hprint, hm, hfirst]
  dsimp only [ChkDbType.row]
  rw [scanLine_string]
  exact ⟨_, if_pos hshort⟩

theorem lineOf_append (t : List Char) : lineOf (t ++ ['\n']) = lineOf t := by
  unfold lineOf
  rw [List.dropWhile_append]
  split_ifs with hnil
  · rw [List.isEmpty_iff] at hnil
    rw [hnil]
    rfl
  · rw [List.takeWhile_append]
    split_ifs with hlen
    · rw [(List.takeWhile_prefix _).eq_of_length hlen]
      simp
    · rfl

/-- Of the text of a single row the first line is read. -/
theorem readItem_text {item : VolatileItem} {r : ItemRow κ} {t : List Char}
    (hr : C.print item (r item) = some t) :
    readItem C E_CHK_TYPE_STRING.row item [r] = E_CHK_TYPE_STRING.store (lineOf t) := by
  rw [readItem_replicate _ (by simp) hr, List.length_singleton, List.replicate_one,
    List.flatten_singleton, valueLine_eq]
  dsimp only [ChkDbType.row]
  rw [scanLine_string, lineOf_append]

/-- A `NULL` is not read. -/
theorem readItem_none {item : VolatileItem} {r : ItemRow κ} (ty : RowType V)
    (hr : C.print item (r item) = none) : readItem C ty item [r] = .error .nullPointer := by
  have hcells : (descending ([r].map (· item))).map (C.print item) = [none] := by
    rw [List.map_singleton, descending_singleton, List.map_singleton, hr]
  rw [readItem, hcells]
  rfl

/-! ## A database of items -/

/-- A `NULL`, a number or a text. SQLite puts them in this order. -/
abbrev ItemCell :=
  WithBot (Lex (ℤ ⊕ List Char))

/-- The numbers of the database are whole. -/
def itemCells : Cells ItemCell where
  print item
    | none => none
    | some v =>
      match ofLex v with
      | .inl n => some (if item.sqlType = .real then decimal n ++ ".0".toList else decimal n)
      | .inr t => some (cString t)
  ofInt n := some (toLex (.inl n))
  ofText t := some (toLex (.inr t))
  print_ofInt item hitem n _ _ := by simp [hitem]
  print_ofText item _ t ht := by simp [cString_eq_self ht]

def itemNamed (w : List Char) : Option VolatileItem :=
  VolatileItem.all.find? fun i => decide (i.name = w)

/-- The item that a statement names after `p`, and what follows its name. -/
def itemAfter (p stmt : List Char) : Option (VolatileItem × List Char) :=
  (after p stmt).bind fun s =>
    (itemNamed (s.takeWhile (· ≠ ' '))).map fun item => (item, s.dropWhile (· ≠ ' '))

/-- The value that a column is set to. -/
def cellOf (item : VolatileItem) (s : List Char) : Option ItemCell :=
  match item.sqlType with
  | .integer =>
    match (after " = ".toList s).bind readInt with
    | some (n, [';']) => some (itemCells.ofInt n)
    | _ => none
  | .real =>
    match (after " = ".toList s).bind readInt with
    | some (n, digits) => if digits = ".000000;".toList then some (itemCells.ofInt n) else none
    | none => none
  | .text =>
    match after " = \x27".toList s with
    | some t =>
      if t.drop (t.length - 2) = "\x27;".toList then
        (unquote (t.take (t.length - 2))).map itemCells.ofText
      else none
    | none => none

/-- The table of an item. A table without rows has no columns either. -/
def itemTable (item : VolatileItem) (rows : List (ItemRow ItemCell)) : ResultTable :=
  if rows = [] then ⟨0, 0, [], length_no_cells⟩
  else
    ⟨rows.length, 1,
      some item.name :: (descending (rows.map (· item))).map (itemCells.print item), by simp⟩

/-- The item that a statement updates and its value. -/
def itemUpdate (stmt : List Char) : Option (VolatileItem × ItemCell) :=
  (itemAfter "UPDATE Volatile SET ".toList stmt).bind fun p => (cellOf p.1 p.2).map (p.1, ·)

/-- A database with the rows of the table `Volatile`, which knows the statements on its items. -/
def itemDatabase : Sqlite (List (ItemRow ItemCell)) where
  empty := []
  exec rows stmt :=
    match itemUpdate stmt with
    | some (item, k) => (rows.map (Function.update · item k), none)
    | none => (rows, some "syntax error".toList)
  getTable rows stmt :=
    match itemAfter "SELECT ".toList stmt with
    | some (item, _) =>
      if stmt = SQL_OPERATION_CHECKOUT item.name TBL_VOLATILE_INFO (orderBy item.name .descend) then
        .ok (itemTable item rows)
      else .error "syntax error".toList
    | none => .error "syntax error".toList

theorem itemAfter_append (p : List Char) (item : VolatileItem) (s : List Char) :
    itemAfter p (p ++ (item.name ++ ' ' :: s)) = some (item, ' ' :: s) := by
  have hall : ∀ c ∈ item.name, decide (c ≠ ' ') = true := by
    intro c hc
    simpa using ne_of_mem_of_not_mem hc item.space_not_mem_name
  have htake : (item.name ++ ' ' :: s).takeWhile (· ≠ ' ') = item.name := by
    rw [List.takeWhile_append_of_pos hall]
    simp
  have hdrop : (item.name ++ ' ' :: s).dropWhile (· ≠ ' ') = ' ' :: s := by
    rw [List.dropWhile_append_of_pos hall]
    simp
  rw [itemAfter, after_append, Option.bind_some, htake, hdrop, itemNamed, item.find?_name]
  rfl

theorem itemUpdate_eq {item : VolatileItem} {s : List Char} {k : ItemCell}
    (hcell : cellOf item (' ' :: s) = some k) :
    itemUpdate ("UPDATE Volatile SET ".toList ++ (item.name ++ ' ' :: s)) = some (item, k) := by
  rw [itemUpdate, itemAfter_append, Option.bind_some, hcell]
  rfl

/-- A number that a column is set to. -/
theorem readInt_value (n : ℤ) {s : List Char} (hs : NoDigit s) :
    (after " = ".toList (' ' :: ("= ".toList ++ (decimal n ++ s)))).bind readInt = some (n, s) := by
  have hafter : after " = ".toList (' ' :: ("= ".toList ++ (decimal n ++ s))) =
      some (decimal n ++ s) :=
    after_append " = ".toList _
  rw [hafter, Option.bind_some, readInt_decimal n hs]

theorem itemUpdate_int {item : VolatileItem} (hitem : item.sqlType = .integer) (n : ℤ) :
    itemUpdate (SQL_OPERATION_UPDATE_INT TBL_VOLATILE_INFO item.name n) =
      some (item, itemCells.ofInt n) := by
  have hstmt : SQL_OPERATION_UPDATE_INT TBL_VOLATILE_INFO item.name n =
      "UPDATE Volatile SET ".toList ++
        (item.name ++ ' ' :: ("= ".toList ++ (decimal n ++ [';']))) := by
    unfold SQL_OPERATION_UPDATE_INT TBL_VOLATILE_INFO
    simp
  have hdigit : NoDigit [';'] := by
    rintro c ⟨⟩
    decide
  rw [hstmt]
  refine itemUpdate_eq ?_
  unfold cellOf
  rw [hitem]
  dsimp only
  rw [readInt_value n hdigit]
  rfl

theorem itemUpdate_text {item : VolatileItem} (hitem : item.sqlType = .text) {t s : List Char}
    (ht : unquote t = some s) :
    itemUpdate (SQL_OPERATION_UPDATE_STRING TBL_VOLATILE_INFO item.name t) =
      some (item, itemCells.ofText s) := by
  have hstmt : SQL_OPERATION_UPDATE_STRING TBL_VOLATILE_INFO item.name t =
      "UPDATE Volatile SET ".toList ++
        (item.name ++ ' ' :: ("= \x27".toList ++ (t ++ "\x27;".toList))) := by
    unfold SQL_OPERATION_UPDATE_STRING TBL_VOLATILE_INFO
    simp
  rw [hstmt]
  refine itemUpdate_eq ?_
  have hafter : after " = \x27".toList (' ' :: ("= \x27".toList ++ (t ++ "\x27;".toList))) =
      some (t ++ "\x27;".toList) :=
    after_append " = \x27".toList _
  have hlen : (t ++ "\x27;".toList).length - 2 = t.length := by simp
  unfold cellOf
  rw [hitem]
  dsimp only
  rw [hafter]
  dsimp only
  rw [hlen, List.drop_left, if_pos rfl, List.take_left, ht]
  rfl

theorem itemTable_spec (item : VolatileItem) {rows : List (ItemRow ItemCell)} (hne : rows ≠ []) :
    Holds (itemTable item rows) item.name
      ((descending (rows.map (· item))).map (itemCells.print item)) := by
  rw [itemTable, if_neg hne]
  exact ⟨by simp, rfl, rfl⟩

theorem getTable_item (rows : List (ItemRow ItemCell)) (item : VolatileItem) :
    itemDatabase.getTable rows (SQL_OPERATION_CHECKOUT item.name TBL_VOLATILE_INFO
      (orderBy item.name .descend)) = .ok (itemTable item rows) := by
  have hafter : ∃ s, itemAfter "SELECT ".toList (SQL_OPERATION_CHECKOUT item.name
      TBL_VOLATILE_INFO (orderBy item.name .descend)) = some (item, s) := by
    refine ⟨_, Eq.trans (congrArg _ ?_) (itemAfter_append "SELECT ".toList item ("FROM ".toList ++
      (TBL_VOLATILE_INFO ++ (" ".toList ++ (orderBy item.name .descend ++ ";".toList)))))⟩
    unfold SQL_OPERATION_CHECKOUT
    simp
  obtain ⟨s, hs⟩ := hafter
  unfold itemDatabase
  dsimp only
  rw [hs]
  exact if_pos rfl

/-- The database of items does what SQLite documents. -/
theorem documented_itemDatabase : ItemsDocumented itemCells itemDatabase fun rows => rows where
  select rows item hne :=
    ⟨_, _, getTable_item rows item, itemTable_spec item hne, descending_perm _,
      pairwise_descending _⟩
  updateInt rows item hitem n _ _ := by
    unfold itemDatabase
    dsimp only
    rw [itemUpdate_int hitem]
  updateText rows item hitem t s _ ht := by
    unfold itemDatabase
    dsimp only
    rw [itemUpdate_text hitem ht]
    exact ⟨rfl, rfl⟩

/-- A row with the number 1 and the text "no" in its columns. -/
def sampleRow : ItemRow ItemCell := fun item =>
  if item.sqlType = .text then itemCells.ofText "no".toList else itemCells.ofInt 1

end Mastiff.Storage

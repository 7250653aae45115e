import Mathlib.Data.Char
import Mathlib.Data.List.Lex
import Mathlib.Order.WithBot
import Mastiff.DbOperation
import Mastiff.Lib.SortedColumns

/-!
# The table Volatile

`SqlInit` creates the table `Volatile` with one row. Of its columns, the three of the periods
without disturbance are kept here, each with the field of `NoDisturb` it is loaded into.

`Documented` is what SQLite documents of the statements on these columns : a `SELECT` returns
the cells of a column in descending order, an `UPDATE` without a `WHERE` sets the column in
every row. `rowDatabase` is a database that does so.
-/

namespace Mastiff.Storage

open Scanf SortedColumns

/-! ## Rows -/

/-- A row of the table `Volatile`. A `NULL` is `⊥`, SQLite puts it before all values. -/
structure VolatileRow where
  noDisturbMode : WithBot ℤ
  noDisturbStart : WithBot (List Char)
  noDisturbEnd : WithBot (List Char)
  deriving DecidableEq

/-- A `VolatileInformation::NoDisturb`. -/
structure NoDisturb where
  noDisturbSw : Bool := false
  noDisturbFrom : List Char := []
  noDisturbTo : List Char := []
  deriving DecidableEq

def TBL_VOLATILE_INFO : List Char :=
  "Volatile".toList

def ITEM_VOLATILE_NDSTMD : List Char :=
  "NoDisturbMode".toList

def ITEM_VOLATILE_NDSSTA : List Char :=
  "NoDisturbStart".toList

def ITEM_VOLATILE_NDSEND : List Char :=
  "NoDisturbEnd".toList

def SQL_CREATE_TBL_VOLATILE : List Char :=
  "CREATE TABLE Volatile(NoDisturbMode INTEGER,NoDisturbStart TEXT,NoDisturbEnd TEXT,".toList ++
    "BatteryLevel INTEGER,FanSuction INTEGER,FlowSpeed INTEGER,BoostSw INTEGER,".toList ++
    "BreakSw INTEGER,WaterLevel INTEGER,IsMopSet INTEGER,PowerupTime TEXT,".toList ++
    "PoweronTimeSec REAL,PoweronTimeTotal REAL,MissionCount INTEGER,".toList ++
    "MileageTotal INTEGER,CleanTimeTotal INTEGER,CleanAreaTotal REAL,Language TEXT,".toList ++
    "Volume INTEGER,IfConfed TEXT,WifiSsid TEXT,WifiPswd TEXT,IpAddr TEXT,".toList ++
    "StrainerCur INTEGER,StrainerTotal INTEGER,MainBrushCur INTEGER,".toList ++
    "MainBrushTotal INTEGER,SideBrushCur INTEGER,SideBrushTotal INTEGER,".toList ++
    "SensorCur INTEGER,SensorTotal INTEGER,WaterFilterCur INTEGER,".toList ++
    "WaterFilterTotal INTEGER);".toList

/-- `SQL_INSERT_TBL_VOLATILE` with the values that `SqlInit` prints into it. -/
def SQL_INSERT_TBL_VOLATILE : List Char :=
  "INSERT INTO \"Volatile\" VALUES(-1, \x27nul-start\x27, \x27nul-end\x27, ".toList ++
    "100, 1, 1, 3, 3, 2, 3, \x27unknown\x27, 7.770000, 77.769997, 3, 3, 3, 0.300000, ".toList ++
    "\x27Chinese\x27, 51, \x27no\x27, \x27ssid-null\x27, \x27pswd-null\x27, ".toList ++
    "\x27ip-null\x27, 1, 720000, 1, 720000, 1, 720000, 1, 720000, 1, 720000);".toList

/-- The columns of the row that `SqlInit` inserts. -/
def initialRow : VolatileRow :=
  ⟨((-1 : ℤ) : WithBot ℤ), ("nul-start".toList : List Char), ("nul-end".toList : List Char)⟩

/-- `SqlInit` : a database file that does not exist is created with the table and its row. Opening
the file succeeds. -/
def sqlInit {δ : Type} (sql : Sqlite δ) (file : Option δ) : DbOperation δ :=
  match file with
  | none =>
    let d := (sql.exec sql.empty SQL_CREATE_TBL_VOLATILE).1
    ⟨(sql.exec d SQL_INSERT_TBL_VOLATILE).1, true⟩
  | some d => ⟨d, true⟩

theorem sqlInit_none {δ : Type} (sql : Sqlite δ) :
    (sqlInit sql none).sql3 =
      (sql.exec (sql.exec sql.empty SQL_CREATE_TBL_VOLATILE).1 SQL_INSERT_TBL_VOLATILE).1 :=
  rfl

/-! ## Columns -/

/-- A column of the periods without disturbance : its item and type, how SQLite prints a value
and which values it reads from a statement as they are, the cell of a row, what
`DbLoadSaveVolatile` makes of a value it has fetched, and the field that holds it. -/
structure VolatileColumn (V : Type) where
  item : List Char
  type : ChkDbType V
  print : V → List Char
  Literal : V → Prop
  cell : VolatileRow → WithBot V
  setCell : VolatileRow → V → VolatileRow
  norm : V → V
  get : NoDisturb → V
  set : NoDisturb → V → NoDisturb

/-- The switch is 1 in the database for a positive number. -/
def modeColumn : VolatileColumn ℤ where
  item := ITEM_VOLATILE_NDSTMD
  type := E_CHK_TYPE_INT
  print := decimal
  Literal v := -2 ^ 31 ≤ v ∧ v < 2 ^ 31
  cell r := r.noDisturbMode
  setCell r v := { r with noDisturbMode := v }
  norm v := if v ≤ 0 then 0 else 1
  get x := if x.noDisturbSw then 1 else 0
  set x v := { x with noDisturbSw := v ≠ 0 }

/-- A string literal ends at the next quote. -/
def IsLiteral (t : List Char) : Prop :=
  '\x27' ∉ t ∧ '\x00' ∉ t

def startColumn : VolatileColumn (List Char) where
  item := ITEM_VOLATILE_NDSSTA
  type := E_CHK_TYPE_STRING
  print := cString
  Literal := IsLiteral
  cell r := r.noDisturbStart
  setCell r v := { r with noDisturbStart := v }
  norm := id
  get x := x.noDisturbFrom
  set x v := { x with noDisturbFrom := v }

def endColumn : VolatileColumn (List Char) where
  item := ITEM_VOLATILE_NDSEND
  type := E_CHK_TYPE_STRING
  print := cString
  Literal := IsLiteral
  cell r := r.noDisturbEnd
  setCell r v := { r with noDisturbEnd := v }
  norm := id
  get x := x.noDisturbTo
  set x v := { x with noDisturbTo := v }

/-- How SQLite prints a cell. -/
def VolatileColumn.printCell {V : Type} (c : VolatileColumn V) : WithBot V → Option (List Char)
  | none => none
  | some v => some (c.print v)

/-! ## What SQLite documents -/

variable {δ V : Type}

/-- A column is selected in descending order, row by row, and updated in every row. -/
structure VolatileColumn.Documented [LinearOrder V] (c : VolatileColumn V) (sql : Sqlite δ)
    (rows : δ → List VolatileRow) : Prop where
  select : ∀ d, rows d ≠ [] → ∃ (t : ResultTable) (cells : List (WithBot V)),
    sql.getTable d (SQL_OPERATION_CHECKOUT c.item TBL_VOLATILE_INFO (orderBy c.item .descend)) =
      .ok t ∧ Holds t c.item (cells.map c.printCell) ∧
    cells.Perm ((rows d).map c.cell) ∧ cells.Pairwise fun a b => b ≤ a
  update : ∀ d v, c.Literal v →
    rows (sql.exec d (c.type.update TBL_VOLATILE_INFO c.item v)).1 = (rows d).map (c.setCell · v)

/-- `rows` are the rows of the table in a database. -/
structure Documented (sql : Sqlite δ) (rows : δ → List VolatileRow) : Prop where
  mode : modeColumn.Documented sql rows
  start : startColumn.Documented sql rows
  fin : endColumn.Documented sql rows
  init : rows (sqlInit sql none).sql3 = [initialRow]

/-! ## A database of rows -/

/-- What follows `p` in `s`. -/
def after (p s : List Char) : Option (List Char) :=
  if p.isPrefixOf s then some (s.drop p.length) else none

/-- The start of the statement that updates an item. -/
def updateOf (item : List Char) : List Char :=
  "UPDATE ".toList ++ TBL_VOLATILE_INFO ++ " SET ".toList ++ item ++ " = ".toList

/-- The number of a statement that sets an item to one. -/
def updatedInt (item stmt : List Char) : Option ℤ :=
  match (after (updateOf item) stmt).bind readInt with
  | some (v, [';']) => some v
  | _ => none

/-- The text of a statement that sets an item to one. -/
def updatedText (item stmt : List Char) : Option (List Char) :=
  match after (updateOf item ++ ['\x27']) stmt with
  | some s =>
    if s.dropWhile (· ≠ '\x27') = "\x27;".toList then some (s.takeWhile (· ≠ '\x27')) else none
  | none => none

/-- What a statement does to a row. -/
def rowUpdate (stmt : List Char) : Option (VolatileRow → VolatileRow) :=
  match updatedInt ITEM_VOLATILE_NDSTMD stmt with
  | some v => some (modeColumn.setCell · v)
  | none =>
    match updatedText ITEM_VOLATILE_NDSSTA stmt with
    | some v => some (startColumn.setCell · v)
    | none =>
      match updatedText ITEM_VOLATILE_NDSEND stmt with
      | some v => some (endColumn.setCell · v)
      | none => none

/-- The table of a column. A table without rows has no columns either. -/
def columnTable [LinearOrder V] (c : VolatileColumn V) (rows : List VolatileRow) : ResultTable :=
  if rows = [] then ⟨0, 0, [], rfl⟩
  else
    ⟨rows.length, 1, some c.item :: (descending (rows.map c.cell)).map c.printCell, by simp⟩

/-- A database with the rows of the table `Volatile`, if it has that table. It knows the statements
on the columns above and those of `SqlInit`. -/
def rowDatabase : Sqlite (Option (List VolatileRow)) where
  empty := none
  exec d stmt :=
    match d with
    | none =>
      if stmt = SQL_CREATE_TBL_VOLATILE then (some [], none)
      else (none, some "no such table: Volatile".toList)
    | some rows =>
      if stmt = SQL_INSERT_TBL_VOLATILE then (some (rows ++ [initialRow]), none)
      else
        match rowUpdate stmt with
        | some f => (some (rows.map f), none)
        | none => (some rows, some "syntax error".toList)
  getTable d stmt :=
    match d with
    | none => .error "no such table: ".toList
    | some rows =>
      if stmt = SQL_OPERATION_CHECKOUT ITEM_VOLATILE_NDSTMD TBL_VOLATILE_INFO
          (orderBy ITEM_VOLATILE_NDSTMD .descend) then .ok (columnTable modeColumn rows)
      else if stmt = SQL_OPERATION_CHECKOUT ITEM_VOLATILE_NDSSTA TBL_VOLATILE_INFO
          (orderBy ITEM_VOLATILE_NDSSTA .descend) then .ok (columnTable startColumn rows)
      else if stmt = SQL_OPERATION_CHECKOUT ITEM_VOLATILE_NDSEND TBL_VOLATILE_INFO
          (orderBy ITEM_VOLATILE_NDSEND .descend) then .ok (columnTable endColumn rows)
      else .error "no such table: MultiZones".toList

theorem columnTable_spec [LinearOrder V] (c : VolatileColumn V) {rows : List VolatileRow}
    (hne : rows ≠ []) :
    Holds (columnTable c rows) c.item ((descending (rows.map c.cell)).map c.printCell) := by
  rw [columnTable, if_neg hne]
  exact ⟨by simp, rfl, rfl⟩

theorem after_append (p s : List Char) : after p (p ++ s) = some s := by
  rw [after, if_pos (List.isPrefixOf_iff_prefix.2 (List.prefix_append p s)), List.drop_left]

theorem updatedInt_eq (item : List Char) (v : ℤ) :
    updatedInt item (SQL_OPERATION_UPDATE_INT TBL_VOLATILE_INFO item v) = some v := by
  have hstmt : SQL_OPERATION_UPDATE_INT TBL_VOLATILE_INFO item v =
      updateOf item ++ (decimal v ++ [';']) := by
    unfold SQL_OPERATION_UPDATE_INT updateOf
    simp
  have hread : readInt (decimal v ++ [';']) = some (v, [';']) :=
    readInt_decimal v (by rintro c ⟨⟩; decide)
  unfold updatedInt
  rw [hstmt, after_append]
  simp [hread]

theorem updatedText_eq (item : List Char) {v : List Char} (hv : IsLiteral v) :
    updatedText item (SQL_OPERATION_UPDATE_STRING TBL_VOLATILE_INFO item v) = some v := by
  have hstmt : SQL_OPERATION_UPDATE_STRING TBL_VOLATILE_INFO item v =
      (updateOf item ++ ['\x27']) ++ (v ++ "\x27;".toList) := by
    unfold SQL_OPERATION_UPDATE_STRING updateOf
    simp
  have hall : ∀ c ∈ v, decide (c ≠ '\x27') = true := by
    intro c hc
    simpa using ne_of_mem_of_not_mem hc hv.1
  have htake : (v ++ "\x27;".toList).takeWhile (· ≠ '\x27') = v := by
    rw [List.takeWhile_append_of_pos hall]
    simp
  have hdrop : (v ++ "\x27;".toList).dropWhile (· ≠ '\x27') = "\x27;".toList := by
    rw [List.dropWhile_append_of_pos hall]
    rfl
  unfold updatedText
  rw [hstmt, after_append]
  simp only [htake, hdrop, if_true]

theorem rowUpdate_mode (v : ℤ) :
    rowUpdate (SQL_OPERATION_UPDATE_INT TBL_VOLATILE_INFO ITEM_VOLATILE_NDSTMD v) =
      some (modeColumn.setCell · v) := by
  rw [rowUpdate, updatedInt_eq]

theorem rowUpdate_start {v : List Char} (hv : IsLiteral v) :
    rowUpdate (SQL_OPERATION_UPDATE_STRING TBL_VOLATILE_INFO ITEM_VOLATILE_NDSSTA v) =
      some (startColumn.setCell · v) := by
  have hmode : updatedInt ITEM_VOLATILE_NDSTMD
      (SQL_OPERATION_UPDATE_STRING TBL_VOLATILE_INFO ITEM_VOLATILE_NDSSTA v) = none := by
    rfl
  rw [rowUpdate, hmode, updatedText_eq _ hv]

theorem rowUpdate_end {v : List Char} (hv : IsLiteral v) :
    rowUpdate (SQL_OPERATION_UPDATE_STRING TBL_VOLATILE_INFO ITEM_VOLATILE_NDSEND v) =
      some (endColumn.setCell · v) := by
  have hmode : updatedInt ITEM_VOLATILE_NDSTMD
      (SQL_OPERATION_UPDATE_STRING TBL_VOLATILE_INFO ITEM_VOLATILE_NDSEND v) = none := by
    rfl
  have hstart : updatedText ITEM_VOLATILE_NDSSTA
      (SQL_OPERATION_UPDATE_STRING TBL_VOLATILE_INFO ITEM_VOLATILE_NDSEND v) = none := by
    rfl
  rw [rowUpdate, hmode, hstart, updatedText_eq _ hv]

/-- The rows of a database. -/
def rowsOf (d : Option (List VolatileRow)) : List VolatileRow :=
  d.getD []

theorem ne_of_head {s t : List Char} {a b : Char} (hs : s.head? = some a) (ht : t.head? = some b)
    (hab : a ≠ b) : s ≠ t := by
  rintro rfl
  exact hab (Option.some.inj (hs.symm.trans ht))

/-- A statement that begins like an update is none of `SqlInit`. -/
theorem rowsOf_exec_update {stmt : List Char} (hfirst : stmt.head? = some 'U')
    {f : VolatileRow → VolatileRow} (hf : rowUpdate stmt = some f)
    (d : Option (List VolatileRow)) :
    rowsOf (rowDatabase.exec d stmt).1 = (rowsOf d).map f := by
  have hcreate : stmt ≠ SQL_CREATE_TBL_VOLATILE := ne_of_head hfirst rfl (by decide)
  have hinsert : stmt ≠ SQL_INSERT_TBL_VOLATILE := ne_of_head hfirst rfl (by decide)
  unfold rowDatabase
  cases d with
  | none =>
    dsimp only
    rw [if_neg hcreate]
    rfl
  | some rows =>
    dsimp only
    rw [if_neg hinsert, hf]
    rfl

theorem select_spec [LinearOrder V] {c : VolatileColumn V} {stmt : List Char}
    (hget : ∀ rows, rowDatabase.getTable (some rows) stmt = .ok (columnTable c rows))
    {d : Option (List VolatileRow)} (hne : rowsOf d ≠ []) :
    ∃ (t : ResultTable) (cells : List (WithBot V)), rowDatabase.getTable d stmt = .ok t ∧
      Holds t c.item (cells.map c.printCell) ∧
      cells.Perm ((rowsOf d).map c.cell) ∧ cells.Pairwise fun a b => b ≤ a := by
  cases d with
  | none => exact absurd rfl hne
  | some rows =>
    exact ⟨_, _, hget rows, columnTable_spec c hne, descending_perm _, pairwise_descending _⟩

theorem exec_create :
    rowDatabase.exec none SQL_CREATE_TBL_VOLATILE = (some [], none) := by
  unfold rowDatabase
  dsimp only
  rw [if_pos rfl]

theorem exec_insert :
    rowDatabase.exec (some []) SQL_INSERT_TBL_VOLATILE = (some [initialRow], none) := by
  unfold rowDatabase
  dsimp only
  rw [if_pos rfl]
  rfl

/-- The database of rows does what SQLite documents. -/
theorem documented_rowDatabase : Documented rowDatabase rowsOf where
  mode := {
    select := fun _ hne => select_spec (fun _ => if_pos rfl) hne
    update := fun d v _ => rowsOf_exec_update rfl (rowUpdate_mode v) d }
  start := {
    select := fun _ hne =>
      select_spec (fun _ => (if_neg (by decide)).trans (if_pos rfl)) hne
    update := fun d _ hv => rowsOf_exec_update rfl (rowUpdate_start hv) d }
  fin := {
    select := fun _ hne =>
      select_spec
        (fun _ => (if_neg (by decide)).trans ((if_neg (by decide)).trans (if_pos rfl))) hne
    update := fun d _ hv => rowsOf_exec_update rfl (rowUpdate_end hv) d }
  init := by
    have hempty : rowDatabase.empty = none := rfl
    rw [sqlInit_none, hempty, exec_create, exec_insert]
    rfl

end Mastiff.Storage

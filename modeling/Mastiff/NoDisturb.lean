import Mathlib.Data.List.Induction
import Mathlib.Data.List.TakeWhile
import Mathlib.Data.Set.List
import Mastiff.VolatileTable

/-!
# The periods without disturbance

`DbLoadSaveVolatile` (`cambrian/storage/dbase_client.cc`) loads the periods without
disturbance when `vola_info_` is null and saves them otherwise, a column after the other.
Each column is fetched by a query of its own, sorted by that column, and what has changed is
written by statements that name no row. The texts are lists of `char`s, each a byte, so the 512
and 1024 of the buffers they go through count bytes.

`loadsRows_iff` : the rows of a table without `NULL` are loaded as they are exactly when their
values can be stored and any two rows are ordered the same way in every column.
`survives_restart_iff` : a list is loaded as it was saved exactly when it has as many periods as
the table has rows, none of its texts begins with white space, and in each column the values
read of the table are its own, or all its periods are equal and one of the values is not.
-/

namespace Mastiff.Storage

open Memory Scanf SortedColumns

variable {δ V : Type}

/-! ## Load and save -/

/-- `DbChkVolatile` of a column. -/
def dbChkVolatile (sql : Sqlite δ) (op : DbOperation δ) (c : VolatileColumn V) :
    Except DbFault (Option (List V)) :=
  dbChkItem sql op TBL_VOLATILE_INFO c.item c.type .descend

/-- `DbUpdtVolatile` of a column. -/
def dbUpdtVolatile (sql : Sqlite δ) (op : DbOperation δ) (c : VolatileColumn V)
    (dbd : List (DbEntry V)) : DbOperation δ :=
  dbUpdtItem sql op dbd TBL_VOLATILE_INFO c.item c.type

/-- The periods that are added for the switches that were fetched. -/
def loadSwitches (sql : Sqlite δ) (op : DbOperation δ) : Except DbFault (List NoDisturb) := do
  match ← dbChkVolatile sql op modeColumn with
  | none => return []
  | some gs => return gs.map fun g => modeColumn.set {} (modeColumn.norm g)

/-- A value is set in each period that there is one for. -/
def setFields (c : VolatileColumn V) : List NoDisturb → List V → Except DbFault (List NoDisturb)
  | xs, [] => .ok xs
  | [], _ :: _ => .error .outOfField
  | x :: xs, g :: gs => do return c.set x (c.norm g) :: (← setFields c xs gs)

/-- A text column that is loaded. -/
def loadColumn (sql : Sqlite δ) (op : DbOperation δ) (c : VolatileColumn V)
    (xs : List NoDisturb) : Except DbFault (List NoDisturb) := do
  match ← dbChkVolatile sql op c with
  | none => return xs
  | some gs => setFields c xs gs

/-- A column that is saved. -/
def saveColumn [DecidableEq V] (sql : Sqlite δ) (op : DbOperation δ) (c : VolatileColumn V)
    (xs : List NoDisturb) : Except DbFault (DbOperation δ) := do
  match ← dbChkVolatile sql op c with
  | none => return op
  | some gs =>
    let dbd ← changes c.type c.norm c.get gs xs
    increase c.type c.get (8 - gs.length) (xs.drop gs.length)
    return dbUpdtVolatile sql op c dbd

/-- `DbLoadSaveVolatile` of the periods in `vola_info_`, if it is not null. -/
def dbLoadSaveVolatile (sql : Sqlite δ) (op : DbOperation δ) (volaInfo : Option (List NoDisturb)) :
    Except DbFault (DbOperation δ × Option (List NoDisturb)) :=
  if op.sqlInited = false then .ok (op, volaInfo)
  else
    match volaInfo with
    | none => do
      let xs ← loadSwitches sql op
      let xs ← loadColumn sql op startColumn xs
      let xs ← loadColumn sql op endColumn xs
      return (op, some xs)
    | some xs => do
      let op ← saveColumn sql op modeColumn xs
      let op ← saveColumn sql op startColumn xs
      let op ← saveColumn sql op endColumn xs
      return (op, some xs)

/-! ## What is read -/

/-- What `DbChkItem` reads of a column, whose cells are fetched in descending order. -/
def readColumn [LinearOrder V] (c : VolatileColumn V) (rs : List VolatileRow) :
    Except DbFault (List V) :=
  readCells c.type ((descending (rs.map c.cell)).map c.printCell)

/-- A table that has rows, but not more than `DbData` has places. -/
structure IsTable (rs : List VolatileRow) : Prop where
  ne_nil : rs ≠ []
  length_le : rs.length ≤ 8

/-- What the three columns have in common. -/
structure VolatileColumn.Lawful (c : VolatileColumn V) : Prop where
  item : '\n' ∉ c.item
  cell_setCell : ∀ r v, c.cell (c.setCell r v) = v
  setCell_setCell : ∀ r v w, c.setCell (c.setCell r v) w = c.setCell r w
  norm_get : ∀ x, c.norm (c.get x) = c.get x
  get_set : ∀ x g, c.get (c.set x (c.norm g)) = c.norm g

theorem lawful_mode : modeColumn.Lawful where
  item := by decide
  cell_setCell _ _ := rfl
  setCell_setCell _ _ _ := rfl
  norm_get x := by cases h : x.noDisturbSw <;> simp [modeColumn, h]
  get_set x g := by by_cases hg : g ≤ 0 <;> simp [modeColumn, hg]

theorem lawful_start : startColumn.Lawful where
  item := by decide
  cell_setCell _ _ := rfl
  setCell_setCell _ _ _ := rfl
  norm_get _ := rfl
  get_set _ _ := rfl

theorem lawful_end : endColumn.Lawful where
  item := by decide
  cell_setCell _ _ := rfl
  setCell_setCell _ _ _ := rfl
  norm_get _ := rfl
  get_set _ _ := rfl

theorem readColumn_congr [LinearOrder V] {c : VolatileColumn V} {rs rs' : List VolatileRow}
    (h : rs'.map c.cell = rs.map c.cell) : readColumn c rs' = readColumn c rs := by
  rw [readColumn, h, readColumn]

/-- The column is fetched as it is read. -/
theorem dbChkVolatile_eq [LinearOrder V] {c : VolatileColumn V} {sql : Sqlite δ}
    {rows : δ → List VolatileRow} {op : DbOperation δ} (hc : c.Lawful)
    (hdoc : c.Documented sql rows) (hop : op.sqlInited = true) (htable : IsTable (rows op.sql3)) :
    dbChkVolatile sql op c = (do return some (← readColumn c (rows op.sql3))) := by
  obtain ⟨t, cells, ht, hholds, hperm, hsorted⟩ := hdoc.select op.sql3 htable.ne_nil
  have hcells : cells = descending ((rows op.sql3).map c.cell) := eq_descending hperm hsorted
  have hlen : (cells.map c.printCell).length < 100 := by
    rw [List.length_map, hperm.length_eq, List.length_map]
    exact htable.length_le.trans_lt (by decide)
  rw [dbChkVolatile, dbChkItem_eq hop hc.item c.type ht hholds hlen, hcells]
  rfl

/-- A column of readable values is read in descending order, as far as they can be stored. -/
theorem readColumn_eq [LinearOrder V] {c : VolatileColumn V} {rs : List VolatileRow} {vs : List V}
    (hcells : rs.map c.cell = vs.map (↑)) (htable : IsTable rs)
    (hreads : ∀ v ∈ vs, c.type.Reads (c.print v) v) :
    readColumn c rs = (descending vs).mapM c.type.store := by
  have hlen : vs.length = rs.length := by
    simpa using (congrArg List.length hcells).symm
  have hprint : (descending (rs.map c.cell)).map c.printCell =
      (descending vs).map fun v => some (c.print v) := by
    rw [hcells, ← map_descending WithBot.coe_mono, List.map_map]
    rfl
  rw [readColumn, hprint]
  refine readCells_eq ?_ (by rw [length_descending, hlen]; exact htable.length_le) ?_
  · intro hnil
    have hzero : rs.length = 0 := by rw [← hlen, ← length_descending, hnil, List.length_nil]
    exact htable.ne_nil (List.length_eq_zero_iff.1 hzero)
  · exact fun v hv => hreads v ((descending_perm vs).mem_iff.1 hv)

/-- A column that is read has no `NULL`. -/
theorem exists_values_of_readColumn [LinearOrder V] {c : VolatileColumn V} {rs : List VolatileRow}
    {gs : List V} (h : readColumn c rs = .ok gs) : ∃ vs : List V, rs.map c.cell = vs.map (↑) := by
  obtain ⟨lines, hlines, -⟩ := bind_eq_ok.1 h
  have hline : ∀ cell ∈ (descending (rs.map c.cell)).map c.printCell, cell ≠ none := by
    refine ((List.forall₂_and_left (R := fun _ _ => True) _ lines).1 ?_).1
    refine (mapM_eq_ok_iff.1 hlines).imp fun cell line hcell => ⟨?_, trivial⟩
    rintro rfl
    cases hcell
  have hsome : ∀ cell ∈ rs.map c.cell, cell ≠ ⊥ := by
    rintro cell hcell rfl
    exact hline none (List.mem_map.2 ⟨⊥, (descending_perm _).mem_iff.2 hcell, rfl⟩) rfl
  generalize rs.map c.cell = cells at hsome
  lift cells to List V using hsome
  exact ⟨cells, rfl⟩

theorem store_int (n : ℤ) :
    E_CHK_TYPE_INT.store n =
      if -2 ^ 31 ≤ n ∧ n < 2 ^ 31 then .ok n else .error .intOverflow :=
  rfl

theorem store_int_eq_ok_iff {n : ℤ} :
    E_CHK_TYPE_INT.store n = .ok n ↔ -2 ^ 31 ≤ n ∧ n < 2 ^ 31 := by
  rw [store_int]
  split_ifs with hlt
  · exact iff_of_true rfl hlt
  · exact iff_of_false (fun h => by cases h) hlt

theorem eq_of_store_int {n m : ℤ} (h : E_CHK_TYPE_INT.store n = .ok m) : m = n := by
  rw [store_int] at h
  split_ifs at h
  exact (Except.ok.inj h).symm

theorem store_text_eq_ok_iff {t : List Char} (ht : '\x00' ∉ t) :
    E_CHK_TYPE_STRING.store t = .ok t ↔ t.length < 512 := by
  change (if (cString t).length < 512 then Except.ok (cString t) else _) = _ ↔ _
  rw [cString_eq_self ht]
  split_ifs with hlt <;> simp [hlt]

/-- Values that are stored as they are. -/
theorem mapM_store_eq_ok_iff {store : V → Except DbFault V} {vs gs : List V}
    (hstore : ∀ v ∈ vs, ∀ w, store v = .ok w → w = v) :
    vs.mapM store = .ok gs ↔ gs = vs ∧ ∀ v ∈ vs, store v = .ok v := by
  rw [mapM_eq_ok_iff]
  constructor
  · intro h
    have heq : List.Forall₂ (fun v w => (store v = .ok v) ∧ v = w) vs gs := by
      refine ((List.forall₂_and_left vs gs).2 ⟨hstore, h⟩).imp fun v w hvw => ?_
      obtain rfl := hvw.1 w hvw.2
      exact ⟨hvw.2, rfl⟩
    obtain ⟨hall, heq⟩ := (List.forall₂_and_left vs gs).1 heq
    rw [List.forall₂_eq_eq_eq] at heq
    exact ⟨heq.symm, hall⟩
  · rintro ⟨rfl, hall⟩
    exact List.forall₂_same.2 hall

/-- A number is read of each row. -/
theorem length_of_readColumn_mode {rs : List VolatileRow} {gs : List ℤ} (htable : IsTable rs)
    (h : readColumn modeColumn rs = .ok gs) : gs.length = rs.length := by
  obtain ⟨vs, hvs⟩ := exists_values_of_readColumn h
  rw [readColumn_eq hvs htable fun v _ => reads_int v] at h
  rw [← (mapM_eq_ok_iff.1 h).length_eq, length_descending]
  simpa using (congrArg List.length hvs).symm

/-! ## Loading -/

/-- The column is read as the field of the periods. -/
def ReadAs [LinearOrder V] (c : VolatileColumn V) (rs : List VolatileRow) (xs : List NoDisturb) :
    Prop :=
  ∃ gs, readColumn c rs = .ok gs ∧ gs.map c.norm = xs.map c.get

theorem readAs_congr [LinearOrder V] {c : VolatileColumn V} {rs rs' : List VolatileRow}
    {xs : List NoDisturb} (h : rs'.map c.cell = rs.map c.cell) :
    ReadAs c rs' xs ↔ ReadAs c rs xs := by
  rw [ReadAs, readColumn_congr h, ReadAs]

/-- There is a period for each value. -/
theorem exists_setFields (c : VolatileColumn V) {xs : List NoDisturb} {gs : List V}
    (hlen : gs.length ≤ xs.length) : ∃ ys, setFields c xs gs = .ok ys := by
  induction gs generalizing xs with
  | nil => exact ⟨xs, by cases xs <;> rfl⟩
  | cons g gs ih =>
    cases xs with
    | nil => simp at hlen
    | cons x xs =>
      obtain ⟨ys, hys⟩ := ih (show gs.length ≤ xs.length by simpa using hlen)
      exact ⟨_, by rw [setFields, hys]; rfl⟩

/-- The field of the column is set in the first periods. -/
theorem map_get_of_setFields {c : VolatileColumn V} (hc : c.Lawful) {xs ys : List NoDisturb}
    {gs : List V} (h : setFields c xs gs = .ok ys) :
    ys.map c.get = gs.map c.norm ++ (xs.drop gs.length).map c.get := by
  induction gs generalizing xs ys with
  | nil =>
    cases xs <;> cases h <;> rfl
  | cons g gs ih =>
    cases xs with
    | nil => cases h
    | cons x xs =>
      obtain ⟨zs, hzs, h⟩ := bind_eq_ok.1 h
      cases h
      rw [List.map_cons, ih hzs, hc.get_set]
      rfl

/-- The fields of other columns are left. -/
theorem map_get_of_setFields_other {W : Type} {c : VolatileColumn V} {c' : VolatileColumn W}
    (hother : ∀ x v, c'.get (c.set x v) = c'.get x) {xs ys : List NoDisturb} {gs : List V}
    (h : setFields c xs gs = .ok ys) : ys.map c'.get = xs.map c'.get := by
  induction gs generalizing xs ys with
  | nil =>
    cases xs <;> cases h <;> rfl
  | cons g gs ih =>
    cases xs with
    | nil => cases h
    | cons x xs =>
      obtain ⟨zs, hzs, h⟩ := bind_eq_ok.1 h
      cases h
      rw [List.map_cons, ih hzs, hother, List.map_cons]

/-- Periods with the same fields are equal. -/
theorem eq_of_map_get {xs ys : List NoDisturb}
    (hmode : xs.map modeColumn.get = ys.map modeColumn.get)
    (hstart : xs.map startColumn.get = ys.map startColumn.get)
    (hend : xs.map endColumn.get = ys.map endColumn.get) : xs = ys := by
  induction xs generalizing ys with
  | nil => exact (List.map_eq_nil_iff.1 hmode.symm).symm
  | cons x xs ih =>
    cases ys with
    | nil => cases hmode
    | cons y ys =>
      obtain ⟨hm, hms⟩ := List.cons.inj hmode
      obtain ⟨hs, hss⟩ := List.cons.inj hstart
      obtain ⟨he, hes⟩ := List.cons.inj hend
      have hsw : x.noDisturbSw = y.noDisturbSw := by
        cases hx : x.noDisturbSw <;> cases hy : y.noDisturbSw <;> simp [modeColumn, hx, hy] at hm ⊢
      rw [ih hms hss hes, show x = y from by cases x; cases y; cases hsw; cases hs; cases he; rfl]

/-- The texts of a period are not empty. -/
structure NoDisturb.Named (x : NoDisturb) : Prop where
  start : x.noDisturbFrom ≠ []
  fin : x.noDisturbTo ≠ []

/-- If the texts are empty at first and not in the end, a value has been set in each period. -/
theorem map_norm_of_setFields {c : VolatileColumn (List Char)} (hc : c.Lawful)
    {xs ys : List NoDisturb} {gs : List (List Char)} (h : setFields c xs gs = .ok ys)
    (hxs : ∀ t ∈ xs.map c.get, t = []) (hys : [] ∉ ys.map c.get) :
    gs.map c.norm = ys.map c.get := by
  have hmap := map_get_of_setFields hc h
  cases hdrop : xs.drop gs.length with
  | nil => rw [hmap, hdrop, List.map_nil, List.append_nil]
  | cons x l =>
    have hx : x ∈ xs := List.mem_of_mem_drop (by rw [hdrop]; exact List.mem_cons_self)
    have hempty : c.get x = [] := hxs _ (List.mem_map_of_mem hx)
    refine absurd ?_ hys
    simp [hmap, hdrop, hempty]

/-- The periods that are added for the switches. -/
def added (gs : List ℤ) : List NoDisturb :=
  gs.map fun g => modeColumn.set {} (modeColumn.norm g)

theorem map_get_added (gs : List ℤ) : (added gs).map modeColumn.get = gs.map modeColumn.norm := by
  rw [added, List.map_map]
  exact List.map_congr_left fun g _ => lawful_mode.get_set {} g

theorem text_added {c : VolatileColumn (List Char)} (hset : ∀ v, c.get (modeColumn.set {} v) = [])
    (gs : List ℤ) : ∀ t ∈ (added gs).map c.get, t = [] := by
  intro t ht
  rw [added, List.map_map] at ht
  obtain ⟨g, -, rfl⟩ := List.mem_map.1 ht
  exact hset _

section Load

variable {sql : Sqlite δ} {rows : δ → List VolatileRow} {op : DbOperation δ}

theorem loadSwitches_eq (hdoc : Documented sql rows) (hop : op.sqlInited = true)
    (htable : IsTable (rows op.sql3)) :
    loadSwitches sql op = (do return added (← readColumn modeColumn (rows op.sql3))) := by
  rw [loadSwitches, dbChkVolatile_eq lawful_mode hdoc.mode hop htable]
  cases readColumn modeColumn (rows op.sql3) <;> rfl

theorem loadColumn_eq [LinearOrder V] {c : VolatileColumn V} (hc : c.Lawful)
    (hdoc : c.Documented sql rows) (hop : op.sqlInited = true) (htable : IsTable (rows op.sql3))
    (xs : List NoDisturb) :
    loadColumn sql op c xs = (do setFields c xs (← readColumn c (rows op.sql3))) := by
  rw [loadColumn, dbChkVolatile_eq hc hdoc hop htable]
  cases readColumn c (rows op.sql3) <;> rfl

theorem load_eq (hdoc : Documented sql rows) (hop : op.sqlInited = true)
    (htable : IsTable (rows op.sql3)) :
    dbLoadSaveVolatile sql op none = (do
      let ms ← readColumn modeColumn (rows op.sql3)
      let ss ← readColumn startColumn (rows op.sql3)
      let ys ← setFields startColumn (added ms) ss
      let es ← readColumn endColumn (rows op.sql3)
      let zs ← setFields endColumn ys es
      return (op, some zs)) := by
  rw [dbLoadSaveVolatile, if_neg (by simp [hop])]
  simp only [loadSwitches_eq hdoc hop htable, loadColumn_eq lawful_start hdoc.start hop htable,
    loadColumn_eq lawful_end hdoc.fin hop htable, bind_assoc, pure_bind]

/-- Periods without an empty text have been read, column by column. -/
theorem readAs_of_load (hdoc : Documented sql rows) (hop : op.sqlInited = true)
    (htable : IsTable (rows op.sql3)) {xs : List NoDisturb} (hxs : ∀ x ∈ xs, x.Named)
    (h : dbLoadSaveVolatile sql op none = .ok (op, some xs)) :
    ReadAs modeColumn (rows op.sql3) xs ∧ ReadAs startColumn (rows op.sql3) xs ∧
      ReadAs endColumn (rows op.sql3) xs := by
  rw [load_eq hdoc hop htable] at h
  obtain ⟨ms, hms, h⟩ := bind_eq_ok.1 h
  obtain ⟨ss, hss, h⟩ := bind_eq_ok.1 h
  obtain ⟨ys, hys, h⟩ := bind_eq_ok.1 h
  obtain ⟨es, hes, h⟩ := bind_eq_ok.1 h
  obtain ⟨zs, hzs, h⟩ := bind_eq_ok.1 h
  cases h
  -- a field is left by the columns that are set after it
  have hmode : xs.map modeColumn.get = (added ms).map modeColumn.get :=
    (map_get_of_setFields_other (fun _ _ => rfl) hzs).trans
      (map_get_of_setFields_other (fun _ _ => rfl) hys)
  have hstart : xs.map startColumn.get = ys.map startColumn.get :=
    map_get_of_setFields_other (fun _ _ => rfl) hzs
  have hend : ys.map endColumn.get = (added ms).map endColumn.get :=
    map_get_of_setFields_other (fun _ _ => rfl) hys
  have hfrom : [] ∉ xs.map startColumn.get := by
    intro hmem
    obtain ⟨x, hx, heq⟩ := List.mem_map.1 hmem
    exact (hxs x hx).start heq
  have hto : [] ∉ xs.map endColumn.get := by
    intro hmem
    obtain ⟨x, hx, heq⟩ := List.mem_map.1 hmem
    exact (hxs x hx).fin heq
  refine ⟨⟨ms, hms, (hmode.trans (map_get_added ms)).symm⟩, ⟨ss, hss, ?_⟩, ⟨es, hes, ?_⟩⟩
  · rw [hstart] at hfrom ⊢
    exact map_norm_of_setFields lawful_start hys (text_added (fun _ => rfl) ms) hfrom
  · refine map_norm_of_setFields lawful_end hzs ?_ hto
    rw [hend]
    exact text_added (fun _ => rfl) ms

/-- A field is set in all periods if there are as many values. -/
theorem exists_setFields_eq {c : VolatileColumn V} (hc : c.Lawful) {ys xs : List NoDisturb}
    {gs : List V} (hmap : gs.map c.norm = xs.map c.get) (hlen : ys.length = xs.length) :
    ∃ zs, setFields c ys gs = .ok zs ∧ zs.length = xs.length ∧ zs.map c.get = xs.map c.get := by
  have hgs : gs.length = xs.length := by simpa using congrArg List.length hmap
  obtain ⟨zs, hzs⟩ := exists_setFields c (show gs.length ≤ ys.length by omega)
  have hget : zs.map c.get = xs.map c.get := by
    rw [map_get_of_setFields hc hzs, hmap, List.drop_eq_nil_of_le (by omega)]
    simp
  exact ⟨zs, hzs, by simpa using congrArg List.length hget, hget⟩

/-- Periods without an empty text are loaded exactly if the columns are read as their fields. -/
theorem load_iff (hdoc : Documented sql rows) (hop : op.sqlInited = true)
    (htable : IsTable (rows op.sql3)) {xs : List NoDisturb} (hxs : ∀ x ∈ xs, x.Named) :
    dbLoadSaveVolatile sql op none = .ok (op, some xs) ↔
      ReadAs modeColumn (rows op.sql3) xs ∧ ReadAs startColumn (rows op.sql3) xs ∧
        ReadAs endColumn (rows op.sql3) xs := by
  constructor
  · exact readAs_of_load hdoc hop htable hxs
  · rintro ⟨⟨ms, hms, hmode⟩, ⟨ss, hss, hstart⟩, ⟨es, hes, hend⟩⟩
    have hlen : (added ms).length = xs.length := by
      simpa [added] using congrArg List.length hmode
    obtain ⟨ys, hys, hyslen, hfrom⟩ := exists_setFields_eq lawful_start hstart hlen
    obtain ⟨zs, hzs, -, hto⟩ := exists_setFields_eq lawful_end hend hyslen
    have heq : zs = xs := by
      refine eq_of_map_get ?_ ?_ hto
      · rw [← hmode, ← map_get_added ms]
        exact (map_get_of_setFields_other (fun _ _ => rfl) hzs).trans
          (map_get_of_setFields_other (fun _ _ => rfl) hys)
      · rw [← hfrom]
        exact map_get_of_setFields_other (fun _ _ => rfl) hzs
    rw [load_eq hdoc hop htable, hms, ok_bind, hss, ok_bind, hys, ok_bind, hes, ok_bind, hzs,
      ok_bind, heq]
    rfl

end Load

/-! ## Rows loaded whole -/

/-- The values of a row that has no `NULL`. -/
structure VolatileValues where
  noDisturbMode : ℤ
  noDisturbStart : List Char
  noDisturbEnd : List Char
  deriving DecidableEq

def VolatileValues.row (v : VolatileValues) : VolatileRow :=
  ⟨v.noDisturbMode, v.noDisturbStart, v.noDisturbEnd⟩

/-- A text without line break that does not begin with white space. -/
structure IsLine (t : List Char) : Prop where
  ne_nil : t ≠ []
  newline : '\n' ∉ t
  space : NoSpace t

instance (t : List Char) : Decidable (IsLine t) :=
  decidable_of_iff (t ≠ [] ∧ '\n' ∉ t ∧ NoSpace t)
    ⟨fun h => ⟨h.1, h.2.1, h.2.2⟩, fun h => ⟨h.ne_nil, h.newline, h.space⟩⟩

/-- The table has the rows `vs`, one to eight of them. -/
structure HoldsValues (rs : List VolatileRow) (vs : List VolatileValues) : Prop where
  rows_eq : rs = vs.map VolatileValues.row
  ne_nil : vs ≠ []
  length_le : vs.length ≤ 8
  start : ∀ v ∈ vs, IsLine v.noDisturbStart
  fin : ∀ v ∈ vs, IsLine v.noDisturbEnd

theorem HoldsValues.isTable {rs : List VolatileRow} {vs : List VolatileValues}
    (h : HoldsValues rs vs) : IsTable rs := by
  rw [h.rows_eq]
  exact ⟨List.map_eq_nil_iff.not.2 h.ne_nil, (List.length_map _).trans_le h.length_le⟩

/-- A text that `DbData` has room for. -/
def TextFits (t : List Char) : Prop :=
  '\x00' ∉ t ∧ t.length < 512

instance (t : List Char) : Decidable (TextFits t) :=
  inferInstanceAs (Decidable (_ ∧ _))

/-- A row with values that `DbData` has room for. -/
structure VolatileValues.Fits (v : VolatileValues) : Prop where
  mode : -2 ^ 31 ≤ v.noDisturbMode ∧ v.noDisturbMode < 2 ^ 31
  start : TextFits v.noDisturbStart
  fin : TextFits v.noDisturbEnd

instance (v : VolatileValues) : Decidable v.Fits :=
  decidable_of_iff ((-2 ^ 31 ≤ v.noDisturbMode ∧ v.noDisturbMode < 2 ^ 31) ∧
      TextFits v.noDisturbStart ∧ TextFits v.noDisturbEnd)
    ⟨fun h => ⟨h.1, h.2.1, h.2.2⟩, fun h => ⟨h.mode, h.start, h.fin⟩⟩

/-- A row, with its switch. -/
def VolatileValues.triple (v : VolatileValues) : Bool × List Char × List Char :=
  (decide (0 < v.noDisturbMode), v.noDisturbStart, v.noDisturbEnd)

def NoDisturb.triple (x : NoDisturb) : Bool × List Char × List Char :=
  (x.noDisturbSw, x.noDisturbFrom, x.noDisturbTo)

/-- A load leaves the rows of the table as periods, in some order. -/
def LoadsRows (sql : Sqlite δ) (d : δ) (vs : List VolatileValues) : Prop :=
  ∃ op xs, dbLoadSaveVolatile sql ⟨d, true⟩ none = .ok (op, some xs) ∧
    (xs.map NoDisturb.triple).Perm (vs.map VolatileValues.triple)

/-- Two rows are ordered the same way in every column, the switches being compared. -/
def VolatileValues.Comparable (v v' : VolatileValues) : Prop :=
  v.triple ≤ v'.triple ∨ v'.triple ≤ v.triple

instance (v v' : VolatileValues) : Decidable (v.Comparable v') :=
  inferInstanceAs (Decidable (_ ∨ _))

theorem reads_text {t : List Char} (ht : IsPlain t) : E_CHK_TYPE_STRING.Reads (cString t) t := by
  rw [cString_eq_self ht.nul]
  exact reads_string ht

theorem eq_of_store_text {t s : List Char} (ht : '\x00' ∉ t)
    (h : E_CHK_TYPE_STRING.store t = .ok s) : s = t := by
  rw [eq_cString_of_store h, cString_eq_self ht]

section Values

variable {rs : List VolatileRow} {vs : List VolatileValues}

/-- A column of values is read exactly if they can be stored. -/
theorem HoldsValues.readColumn_eq_ok_iff [LinearOrder V] {c : VolatileColumn V}
    (h : HoldsValues rs vs) {value : VolatileValues → V} (hvalue : ∀ v, c.cell v.row = value v)
    (hreads : ∀ v ∈ vs, c.type.Reads (c.print (value v)) (value v))
    (hstore : ∀ v ∈ vs, ∀ w, c.type.store (value v) = .ok w → w = value v) {gs : List V} :
    readColumn c rs = .ok gs ↔
      gs = descending (vs.map value) ∧ ∀ v ∈ vs, c.type.store (value v) = .ok (value v) := by
  have hcells : rs.map c.cell = (vs.map value).map (↑) := by
    rw [h.rows_eq, List.map_map, List.map_map]
    exact List.map_congr_left fun v _ => hvalue v
  have hmem : ∀ {P : V → Prop}, (∀ w ∈ descending (vs.map value), P w) ↔ ∀ v ∈ vs, P (value v) := by
    intro P
    simp only [(descending_perm _).mem_iff, List.forall_mem_map]
  rw [readColumn_eq hcells h.isTable (by simpa using hreads),
    mapM_store_eq_ok_iff (hmem.2 hstore), hmem]

theorem HoldsValues.readColumn_mode_iff (h : HoldsValues rs vs) {gs : List ℤ} :
    readColumn modeColumn rs = .ok gs ↔ gs = descending (vs.map (·.noDisturbMode)) ∧
      ∀ v ∈ vs, -2 ^ 31 ≤ v.noDisturbMode ∧ v.noDisturbMode < 2 ^ 31 := by
  rw [h.readColumn_eq_ok_iff (fun _ => rfl) (fun v _ => reads_int v.noDisturbMode)
    (fun _ _ _ hw => eq_of_store_int hw)]
  exact and_congr_right fun _ => forall₂_congr fun v _ => store_int_eq_ok_iff

/-- A text column without null characters. -/
theorem HoldsValues.readColumn_text_iff {c : VolatileColumn (List Char)} (h : HoldsValues rs vs)
    (hprint : c.print = cString) (htype : c.type = E_CHK_TYPE_STRING)
    {value : VolatileValues → List Char} (hvalue : ∀ v, c.cell v.row = value v)
    (hline : ∀ v ∈ vs, IsLine (value v)) (hnul : ∀ v ∈ vs, '\x00' ∉ value v)
    {gs : List (List Char)} :
    readColumn c rs = .ok gs ↔
      gs = descending (vs.map value) ∧ ∀ v ∈ vs, (value v).length < 512 := by
  have hplain : ∀ v ∈ vs, IsPlain (value v) := fun v hv =>
    ⟨(hline v hv).ne_nil, (hline v hv).newline, hnul v hv, (hline v hv).space⟩
  rw [h.readColumn_eq_ok_iff hvalue]
  · rw [htype]
    exact and_congr_right fun _ => forall₂_congr fun v hv => store_text_eq_ok_iff (hnul v hv)
  · rw [hprint, htype]
    exact fun v hv => reads_text (hplain v hv)
  · rw [htype]
    exact fun v hv _ hw => eq_of_store_text (hnul v hv) hw

end Values

/-- The periods whose fields are sorted columns are those that the sorted columns make. -/
theorem map_triple_eq_iff {xs : List NoDisturb} {vs : List VolatileValues} :
    xs.map NoDisturb.triple = sortColumns (vs.map VolatileValues.triple) ↔
      (descending (vs.map (·.noDisturbMode))).map modeColumn.norm = xs.map modeColumn.get ∧
        descending (vs.map (·.noDisturbStart)) = xs.map startColumn.get ∧
          descending (vs.map (·.noDisturbEnd)) = xs.map endColumn.get := by
  have hmono : Monotone fun m : ℤ => decide (0 < m) := by
    intro m n hmn
    rw [Bool.le_iff_imp]
    intro hm
    exact decide_eq_true ((of_decide_eq_true hm).trans_le hmn)
  -- the number of a switch
  let number : Bool → ℤ := fun b => if b then 1 else 0
  have hinj : Function.Injective number := by
    intro a b hab
    cases a <;> cases b <;> simp [number] at hab ⊢
  have hnorm : modeColumn.norm = number ∘ fun m => decide (0 < m) := by
    funext m
    by_cases hm : m ≤ 0
    · simp [modeColumn, number, hm]
    · simp [modeColumn, number, hm, not_le.1 hm]
  have hmode : (descending (vs.map (·.noDisturbMode))).map modeColumn.norm =
      xs.map modeColumn.get ↔
        xs.map (·.noDisturbSw) = descending (vs.map fun v => decide (0 < v.noDisturbMode)) := by
    have hget : xs.map modeColumn.get = (xs.map (·.noDisturbSw)).map number := by
      rw [List.map_map]
      rfl
    rw [hnorm, ← List.map_map, map_descending hmono, List.map_map, hget,
      (List.map_injective_iff.2 hinj).eq_iff]
    exact eq_comm
  rw [eq_sortColumns_iff, hmode, eq_comm (b := xs.map startColumn.get),
    eq_comm (b := xs.map endColumn.get)]
  simp only [List.map_map]
  rfl

section LoadsRows

variable {sql : Sqlite δ} {rows : δ → List VolatileRow} {d : δ} {vs : List VolatileValues}

/-- Without null characters, the columns are read as the fields of periods exactly if the values
fit and the periods are those that the sorted columns make. -/
theorem HoldsValues.readAs_iff {rs : List VolatileRow} (h : HoldsValues rs vs)
    (hstart : ∀ v ∈ vs, '\x00' ∉ v.noDisturbStart) (hend : ∀ v ∈ vs, '\x00' ∉ v.noDisturbEnd)
    (xs : List NoDisturb) :
    ReadAs modeColumn rs xs ∧ ReadAs startColumn rs xs ∧ ReadAs endColumn rs xs ↔
      (∀ v ∈ vs, v.Fits) ∧
        xs.map NoDisturb.triple = sortColumns (vs.map VolatileValues.triple) := by
  have hstarts := @HoldsValues.readColumn_text_iff _ _ startColumn h rfl rfl (·.noDisturbStart)
    (fun _ => rfl) h.start hstart
  have hends := @HoldsValues.readColumn_text_iff _ _ endColumn h rfl rfl (·.noDisturbEnd)
    (fun _ => rfl) h.fin hend
  have hid : ∀ gs : List (List Char), gs.map startColumn.norm = gs := List.map_id
  have hid' : ∀ gs : List (List Char), gs.map endColumn.norm = gs := List.map_id
  rw [map_triple_eq_iff]
  constructor
  · rintro ⟨⟨ms, hms, hmode⟩, ⟨ss, hss, hfrom⟩, ⟨es, hes, hto⟩⟩
    obtain ⟨rfl, hm⟩ := h.readColumn_mode_iff.1 hms
    obtain ⟨rfl, hs⟩ := hstarts.1 hss
    obtain ⟨rfl, he⟩ := hends.1 hes
    rw [hid] at hfrom
    rw [hid'] at hto
    exact ⟨fun v hv => ⟨hm v hv, ⟨hstart v hv, hs v hv⟩, ⟨hend v hv, he v hv⟩⟩, hmode, hfrom, hto⟩
  · rintro ⟨hfits, hmode, hfrom, hto⟩
    refine ⟨⟨_, h.readColumn_mode_iff.2 ⟨rfl, fun v hv => (hfits v hv).mode⟩, hmode⟩,
      ⟨_, hstarts.2 ⟨rfl, fun v hv => (hfits v hv).start.2⟩, ?_⟩,
      ⟨_, hends.2 ⟨rfl, fun v hv => (hfits v hv).fin.2⟩, ?_⟩⟩
    · rw [hid]
      exact hfrom
    · rw [hid']
      exact hto

/-- The texts of periods that are the rows of a table are not empty. -/
theorem HoldsValues.named {rs : List VolatileRow} (h : HoldsValues rs vs) {xs : List NoDisturb}
    (hperm : (xs.map NoDisturb.triple).Perm (vs.map VolatileValues.triple)) :
    ∀ x ∈ xs, x.Named := by
  intro x hx
  obtain ⟨v, hv, heq⟩ := List.mem_map.1 (hperm.mem_iff.1 (List.mem_map_of_mem hx))
  have hfrom : v.noDisturbStart = x.noDisturbFrom := congrArg (·.2.1) heq
  have hto : v.noDisturbEnd = x.noDisturbTo := congrArg (·.2.2) heq
  exact ⟨hfrom ▸ (h.start v hv).ne_nil, hto ▸ (h.fin v hv).ne_nil⟩

/-- What is read of a text column has no null character and begins with no white space. -/
theorem get_of_readAs {rs : List VolatileRow} {c : VolatileColumn (List Char)}
    (htype : c.type = E_CHK_TYPE_STRING) (hnorm : c.norm = id) {xs : List NoDisturb}
    (h : ReadAs c rs xs) :
    ∀ x ∈ xs, '\x00' ∉ c.get x ∧ NoSpace (c.get x) := by
  obtain ⟨gs, hgs, hmap⟩ := h
  rw [hnorm, List.map_id] at hmap
  rw [readColumn, htype] at hgs
  intro x hx
  refine mem_readCells_string hgs ?_
  rw [hmap]
  exact List.mem_map_of_mem hx

/-- Rows that are loaded have no null character in a text. -/
theorem nul_not_mem_of_perm {rs : List VolatileRow} {c : VolatileColumn (List Char)}
    (htype : c.type = E_CHK_TYPE_STRING) (hnorm : c.norm = id) {xs : List NoDisturb}
    (hread : ReadAs c rs xs)
    (hperm : (xs.map NoDisturb.triple).Perm (vs.map VolatileValues.triple))
    (p : Bool × List Char × List Char → List Char) (hget : ∀ x, p x.triple = c.get x) :
    ∀ v ∈ vs, '\x00' ∉ p v.triple := by
  intro v hv
  obtain ⟨x, hx, heq⟩ := List.mem_map.1 (hperm.mem_iff.2 (List.mem_map_of_mem hv))
  rw [← heq, hget]
  exact (get_of_readAs htype hnorm hread x hx).1

theorem sortColumns_triple_perm_iff (vs : List VolatileValues) :
    (sortColumns (vs.map VolatileValues.triple)).Perm (vs.map VolatileValues.triple) ↔
      ∀ v ∈ vs, ∀ v' ∈ vs, v.Comparable v' := by
  have hperm := sortColumns_perm_iff (l := vs.map VolatileValues.triple)
  simp only [List.forall_mem_map] at hperm
  exact hperm

/-- A period with the fields of a row. -/
def ofTriple (t : Bool × List Char × List Char) : NoDisturb :=
  ⟨t.1, t.2.1, t.2.2⟩

/-- A load leaves the database. -/
theorem fst_of_load {op op' : DbOperation δ} {xs : Option (List NoDisturb)}
    (h : dbLoadSaveVolatile sql op none = .ok (op', xs)) : op' = op := by
  rw [dbLoadSaveVolatile] at h
  split_ifs at h
  · cases h
    rfl
  · obtain ⟨_, -, h⟩ := bind_eq_ok.1 h
    obtain ⟨_, -, h⟩ := bind_eq_ok.1 h
    obtain ⟨_, -, h⟩ := bind_eq_ok.1 h
    cases h
    rfl

/-- Rows that are loaded whole fit and are ordered. -/
theorem LoadsRows.ordered (hdoc : Documented sql rows) (hvs : HoldsValues (rows d) vs)
    (h : LoadsRows sql d vs) :
    (∀ v ∈ vs, v.Fits) ∧ ∀ v ∈ vs, ∀ v' ∈ vs, v.Comparable v' := by
  obtain ⟨op, xs, hload, hperm⟩ := h
  obtain rfl := fst_of_load hload
  have hread := (load_iff hdoc rfl hvs.isTable (hvs.named hperm)).1 hload
  have hstart : ∀ v ∈ vs, '\x00' ∉ v.noDisturbStart :=
    nul_not_mem_of_perm rfl rfl hread.2.1 hperm (·.2.1) fun _ => rfl
  have hend : ∀ v ∈ vs, '\x00' ∉ v.noDisturbEnd :=
    nul_not_mem_of_perm rfl rfl hread.2.2 hperm (·.2.2) fun _ => rfl
  obtain ⟨hfits, hsorted⟩ := (hvs.readAs_iff hstart hend xs).1 hread
  rw [hsorted] at hperm
  exact ⟨hfits, (sortColumns_triple_perm_iff vs).1 hperm⟩

/-- For every table of one to eight rows without `NULL`, the rows are loaded whole exactly when
their values can be stored and any two are ordered the same way in every column. -/
theorem loadsRows_iff (hdoc : Documented sql rows) (hvs : HoldsValues (rows d) vs) :
    LoadsRows sql d vs ↔
      (∀ v ∈ vs, v.Fits) ∧ ∀ v ∈ vs, ∀ v' ∈ vs, v.Comparable v' := by
  constructor
  · exact fun h => h.ordered hdoc hvs
  · rintro ⟨hfits, hcomp⟩
    have hsorted : ((sortColumns (vs.map VolatileValues.triple)).map ofTriple).map
        NoDisturb.triple = sortColumns (vs.map VolatileValues.triple) := by
      rw [List.map_map]
      exact List.map_id _
    have hperm := (sortColumns_triple_perm_iff vs).2 hcomp
    rw [← hsorted] at hperm
    refine ⟨⟨d, true⟩, _, (load_iff hdoc rfl hvs.isTable (hvs.named hperm)).2 ?_, hperm⟩
    exact (hvs.readAs_iff (fun v hv => (hfits v hv).start.1) (fun v hv => (hfits v hv).fin.1) _).2
      ⟨hfits, hsorted⟩

end LoadsRows

/-- Two rows that are ordered in every column. -/
def orderedRows : List VolatileValues :=
  [⟨1, "09".toList, "10".toList⟩, ⟨0, "07".toList, "08".toList⟩]

/-- Two rows of which the second begins later. -/
def crossedRows : List VolatileValues :=
  [⟨1, "07".toList, "08".toList⟩, ⟨0, "09".toList, "10".toList⟩]

theorem holdsValues_orderedRows :
    HoldsValues (rowsOf (some (orderedRows.map VolatileValues.row))) orderedRows :=
  ⟨rfl, by decide, by decide, by decide, by decide⟩

theorem holdsValues_crossedRows :
    HoldsValues (rowsOf (some (crossedRows.map VolatileValues.row))) crossedRows :=
  ⟨rfl, by decide, by decide, by decide, by decide⟩

theorem loadsRows_iff_orderedRows :
    LoadsRows rowDatabase (some (orderedRows.map VolatileValues.row)) orderedRows :=
  (loadsRows_iff documented_rowDatabase holdsValues_orderedRows).2 ⟨by decide, by decide⟩

/-- The later period is loaded with the switch of the earlier one. -/
theorem not_loadsRows :
    ¬∀ (δ : Type) (sql : Sqlite δ) (rows : δ → List VolatileRow), Documented sql rows →
      ∀ d vs, HoldsValues (rows d) vs → LoadsRows sql d vs := by
  intro h
  have hwhole := h _ _ _ documented_rowDatabase _ _ holdsValues_crossedRows
  exact absurd (hwhole.ordered documented_rowDatabase holdsValues_crossedRows).2 (by decide)

/-! ## Saving -/

/-- A text of ordinary characters that `DbData` has room for. -/
structure IsOrdinary (t : List Char) : Prop where
  ne_nil : t ≠ []
  newline : '\n' ∉ t
  nul : '\x00' ∉ t
  quote : '\x27' ∉ t
  length_lt : t.length < 512

/-- A period with ordinary texts. -/
structure NoDisturb.Ordinary (x : NoDisturb) : Prop where
  start : IsOrdinary x.noDisturbFrom
  fin : IsOrdinary x.noDisturbTo

instance (t : List Char) : Decidable (IsOrdinary t) :=
  decidable_of_iff (t ≠ [] ∧ '\n' ∉ t ∧ '\x00' ∉ t ∧ '\x27' ∉ t ∧ t.length < 512)
    ⟨fun h => ⟨h.1, h.2.1, h.2.2.1, h.2.2.2.1, h.2.2.2.2⟩,
      fun h => ⟨h.ne_nil, h.newline, h.nul, h.quote, h.length_lt⟩⟩

instance (x : NoDisturb) : Decidable x.Ordinary :=
  decidable_of_iff (IsOrdinary x.noDisturbFrom ∧ IsOrdinary x.noDisturbTo)
    ⟨fun h => ⟨h.1, h.2⟩, fun h => ⟨h.start, h.fin⟩⟩

theorem NoDisturb.Ordinary.named {x : NoDisturb} (hx : x.Ordinary) : x.Named :=
  ⟨hx.start.ne_nil, hx.fin.ne_nil⟩

/-- The field of a period can be stored and written into the column. -/
structure VolatileColumn.Accepts (c : VolatileColumn V) (x : NoDisturb) : Prop where
  literal : c.Literal (c.get x)
  store : c.type.store (c.get x) = .ok (c.get x)

theorem accepts_mode (x : NoDisturb) : modeColumn.Accepts x := by
  have hrange : -2 ^ 31 ≤ modeColumn.get x ∧ modeColumn.get x < 2 ^ 31 := by
    cases hx : x.noDisturbSw <;> simp [modeColumn, hx]
  exact ⟨hrange, store_int_eq_ok_iff.2 hrange⟩

theorem NoDisturb.Ordinary.accepts_start {x : NoDisturb} (hx : x.Ordinary) :
    startColumn.Accepts x :=
  ⟨⟨hx.start.quote, hx.start.nul⟩, (store_text_eq_ok_iff hx.start.nul).2 hx.start.length_lt⟩

theorem NoDisturb.Ordinary.accepts_end {x : NoDisturb} (hx : x.Ordinary) : endColumn.Accepts x :=
  ⟨⟨hx.fin.quote, hx.fin.nul⟩, (store_text_eq_ok_iff hx.fin.nul).2 hx.fin.length_lt⟩

/-- What is to be written for a value that was fetched. -/
def entry [DecidableEq V] (c : VolatileColumn V) (g : V) (x : NoDisturb) : DbEntry V :=
  ⟨c.get x, decide (c.get x = c.norm g)⟩

theorem changes_eq [DecidableEq V] {c : VolatileColumn V} {gs : List V} {xs : List NoDisturb}
    (hlen : gs.length ≤ xs.length) (hxs : ∀ x ∈ xs, c.Accepts x) :
    changes c.type c.norm c.get gs xs = .ok (List.zipWith (entry c) gs xs) := by
  induction gs generalizing xs with
  | nil => rfl
  | cons g gs ih =>
    cases xs with
    | nil => simp at hlen
    | cons x xs =>
      obtain ⟨hx, hxs⟩ := List.forall_mem_cons.1 hxs
      rw [changes, ih (by simpa using hlen) hxs, List.zipWith_cons_cons, entry]
      by_cases heq : c.get x = c.norm g
      · rw [if_pos heq, decide_eq_true heq]
        rfl
      · rw [if_neg heq, hx.store, decide_eq_false heq]
        rfl

/-- The list is shorter than the table. -/
theorem changes_of_lt [DecidableEq V] {c : VolatileColumn V} {gs : List V} {xs : List NoDisturb}
    (hlen : xs.length < gs.length) (hxs : ∀ x ∈ xs, c.Accepts x) :
    changes c.type c.norm c.get gs xs = .error .outOfField := by
  induction gs generalizing xs with
  | nil => cases hlen
  | cons g gs ih =>
    cases xs with
    | nil => rfl
    | cons x xs =>
      obtain ⟨hx, hxs⟩ := List.forall_mem_cons.1 hxs
      rw [changes, ih (by simpa using hlen) hxs]
      by_cases heq : c.get x = c.norm g
      · rw [if_pos heq]
        rfl
      · rw [if_neg heq, hx.store]
        rfl

theorem increase_eq {c : VolatileColumn V} {room : ℕ} {xs : List NoDisturb}
    (hlen : xs.length ≤ room) (hxs : ∀ x ∈ xs, c.Accepts x) :
    increase c.type c.get room xs = .ok () := by
  induction xs generalizing room with
  | nil => cases room <;> rfl
  | cons x xs ih =>
    obtain ⟨room, rfl⟩ := Nat.exists_eq_add_one_of_ne_zero (n := room) (by simp at hlen; omega)
    obtain ⟨hx, hxs⟩ := List.forall_mem_cons.1 hxs
    rw [increase, hx.store]
    exact ih (by simpa using hlen) hxs

/-- The rows are left as they are, or have the last value that is not ignored. -/
theorem dbUpdtVolatile_cases [LinearOrder V] {c : VolatileColumn V} {sql : Sqlite δ}
    {rows : δ → List VolatileRow} (hc : c.Lawful) (hdoc : c.Documented sql rows)
    (op : DbOperation δ) {es : List (DbEntry V)} (hes : ∀ e ∈ es, c.Literal e.val) :
    (dbUpdtVolatile sql op c es).sqlInited = op.sqlInited ∧
      ((∀ e ∈ es, e.ignore = true) ∧
          rows (dbUpdtVolatile sql op c es).sql3 = rows op.sql3 ∨
        ∃ e ∈ es, e.ignore = false ∧
          rows (dbUpdtVolatile sql op c es).sql3 = (rows op.sql3).map (c.setCell · e.val)) := by
  induction es using List.reverseRecOn with
  | nil => exact ⟨rfl, .inl ⟨by simp, rfl⟩⟩
  | append_singleton es e ih =>
    obtain ⟨hinit, hrows⟩ := ih fun e he => hes e (by simp [he])
    have hstep : dbUpdtVolatile sql op c (es ++ [e]) =
        if e.ignore then dbUpdtVolatile sql op c es
        else (sqlUpdate sql (dbUpdtVolatile sql op c es)
          (c.type.update TBL_VOLATILE_INFO c.item e.val)).1 := by
      rw [dbUpdtVolatile, dbUpdtItem, List.foldl_append]
      rfl
    rw [hstep]
    cases hignore : e.ignore with
    | true =>
      refine ⟨hinit, hrows.imp (fun h => ⟨?_, h.2⟩) ?_⟩
      · exact List.forall_mem_append.2 ⟨h.1, by simpa using hignore⟩
      · rintro ⟨e', he', h⟩
        exact ⟨e', by simp [he'], h⟩
    | false =>
      refine ⟨hinit, .inr ⟨e, by simp, hignore, ?_⟩⟩
      have hupdate := hdoc.update (dbUpdtVolatile sql op c es).sql3 e.val (hes e (by simp))
      refine hupdate.trans ?_
      rcases hrows with ⟨-, hrows⟩ | ⟨e', -, -, hrows⟩
      · rw [hrows]
      · rw [hrows, List.map_map]
        exact List.map_congr_left fun r _ => hc.setCell_setCell r e'.val e.val

/-- The entries are all ignored exactly if no value has changed. -/
theorem forall_ignore_iff [DecidableEq V] {c : VolatileColumn V} {gs : List V}
    {xs : List NoDisturb} (hlen : gs.length ≤ xs.length) :
    (∀ e ∈ List.zipWith (entry c) gs xs, e.ignore = true) ↔
      (xs.take gs.length).map c.get = gs.map c.norm := by
  induction gs generalizing xs with
  | nil => simp
  | cons g gs ih =>
    cases xs with
    | nil => simp at hlen
    | cons x xs =>
      have hcons : gs.length ≤ xs.length := by simpa using hlen
      rw [List.zipWith_cons_cons, List.forall_mem_cons, ih hcons]
      simp [entry]

/-- A save of a column leaves the rows if no value that is read has changed, and sets one of the
values of the list in every row otherwise. -/
def Saved [LinearOrder V] (c : VolatileColumn V) (xs : List NoDisturb)
    (rs rs' : List VolatileRow) : Prop :=
  ∃ gs, readColumn c rs = .ok gs ∧ gs.length ≤ xs.length ∧
    ((xs.take gs.length).map c.get = gs.map c.norm ∧ rs' = rs ∨
      (xs.take gs.length).map c.get ≠ gs.map c.norm ∧
        ∃ x ∈ xs, rs' = rs.map (c.setCell · (c.get x)))

section Save

variable [LinearOrder V] [DecidableEq V] {c : VolatileColumn V} {sql : Sqlite δ}
  {rows : δ → List VolatileRow} {op : DbOperation δ} {xs : List NoDisturb} {gs : List V}

theorem saveColumn_eq (hc : c.Lawful) (hdoc : c.Documented sql rows) (hop : op.sqlInited = true)
    (htable : IsTable (rows op.sql3)) (hread : readColumn c (rows op.sql3) = .ok gs)
    (hxs : ∀ x ∈ xs, c.Accepts x) (h8 : xs.length ≤ 8) (hlen : gs.length ≤ xs.length) :
    saveColumn sql op c xs =
      .ok (dbUpdtVolatile sql op c (List.zipWith (entry c) gs xs)) := by
  rw [saveColumn, dbChkVolatile_eq hc hdoc hop htable, hread]
  simp only [ok_bind, pure_eq_ok]
  rw [changes_eq hlen hxs, ok_bind, increase_eq (by rw [List.length_drop]; omega)
    fun x hx => hxs x (List.mem_of_mem_drop hx)]
  rfl

/-- A save of a column that goes through. -/
theorem saved_of_saveColumn (hc : c.Lawful) (hdoc : c.Documented sql rows)
    (hop : op.sqlInited = true) (htable : IsTable (rows op.sql3)) (hxs : ∀ x ∈ xs, c.Accepts x)
    (h8 : xs.length ≤ 8) {op' : DbOperation δ} (hsave : saveColumn sql op c xs = .ok op') :
    op'.sqlInited = true ∧ Saved c xs (rows op.sql3) (rows op'.sql3) := by
  obtain ⟨gs, hread⟩ : ∃ gs, readColumn c (rows op.sql3) = .ok gs := by
    rw [saveColumn, dbChkVolatile_eq hc hdoc hop htable] at hsave
    obtain ⟨_, hfetch, -⟩ := bind_eq_ok.1 hsave
    obtain ⟨gs, hread, -⟩ := bind_eq_ok.1 hfetch
    exact ⟨gs, hread⟩
  have hlen : gs.length ≤ xs.length := by
    by_contra hlt
    rw [saveColumn, dbChkVolatile_eq hc hdoc hop htable, hread] at hsave
    simp only [ok_bind, pure_eq_ok] at hsave
    rw [changes_of_lt (not_le.1 hlt) hxs] at hsave
    cases hsave
  rw [saveColumn_eq hc hdoc hop htable hread hxs h8 hlen] at hsave
  obtain rfl := Except.ok.inj hsave
  have hliteral : ∀ e ∈ List.zipWith (entry c) gs xs, ∃ x ∈ xs, e.val = c.get x := by
    intro e he
    rw [← List.map_uncurry_zip_eq_zipWith] at he
    obtain ⟨⟨g, x⟩, hgx, rfl⟩ := List.mem_map.1 he
    exact ⟨x, (List.of_mem_zip hgx).2, rfl⟩
  obtain ⟨hinit, hrows⟩ := dbUpdtVolatile_cases hc hdoc op (fun e he => by
    obtain ⟨x, hx, hval⟩ := hliteral e he
    rw [hval]
    exact (hxs x hx).literal)
  have hiff := forall_ignore_iff (c := c) hlen
  refine ⟨hinit.trans hop, gs, hread, hlen, hrows.imp (fun h => ⟨hiff.1 h.1, h.2⟩) ?_⟩
  rintro ⟨e, he, hignore, hrows⟩
  obtain ⟨x, hx, hval⟩ := hliteral e he
  refine ⟨fun heq => ?_, x, hx, by rw [hrows, hval]⟩
  have hall := hiff.2 heq e he
  rw [hignore] at hall
  cases hall

end Save

/-! ## Periods that survive -/

/-- In the column, the values that are read of the table are those of a list, or all periods of
the list are equal, and one of the values, which are no more than they, is not. -/
def Kept [LinearOrder V] (c : VolatileColumn V) (xs : List NoDisturb) (rs : List VolatileRow) :
    Prop :=
  ∃ gs, readColumn c rs = .ok gs ∧ (gs.map c.norm = xs.map c.get ∨
    gs.length ≤ xs.length ∧ ∃ v, (∀ x ∈ xs, c.get x = v) ∧ ∃ g ∈ gs, c.norm g ≠ v)

section Column

variable [LinearOrder V] {c : VolatileColumn V} {xs : List NoDisturb} {rs rs' : List VolatileRow}

theorem kept_congr (h : rs'.map c.cell = rs.map c.cell) : Kept c xs rs' ↔ Kept c xs rs := by
  rw [Kept, readColumn_congr h, Kept]

theorem Kept.exists_read (h : Kept c xs rs) :
    ∃ gs, readColumn c rs = .ok gs ∧ gs.length ≤ xs.length := by
  obtain ⟨gs, hgs, heq | hlen⟩ := h
  · exact ⟨gs, hgs, by simpa using (congrArg List.length heq).le⟩
  · exact ⟨gs, hgs, hlen.1⟩

/-- If as many values are read as there are periods, the column is kept exactly if the values are
those of the list or all periods are equal. -/
theorem kept_iff_of_read {gs : List V} (hread : readColumn c rs = .ok gs)
    (hlen : gs.length = xs.length) :
    Kept c xs rs ↔ gs.map c.norm = xs.map c.get ∨ ∃ v, ∀ x ∈ xs, c.get x = v := by
  constructor
  · rintro ⟨gs', hgs', hmap⟩
    obtain rfl : gs = gs' := Except.ok.inj (hread.symm.trans hgs')
    exact hmap.imp_right fun ⟨_, v, hv, _⟩ => ⟨v, hv⟩
  · rintro (hmap | ⟨v, hv⟩)
    · exact ⟨gs, hread, .inl hmap⟩
    · refine ⟨gs, hread, ?_⟩
      by_cases hg : ∃ g ∈ gs, c.norm g ≠ v
      · exact .inr ⟨hlen.le, v, hv, hg⟩
      · push Not at hg
        have hgs : gs.map c.norm = List.replicate gs.length v :=
          List.eq_replicate_iff.2 ⟨List.length_map _, List.forall_mem_map.2 hg⟩
        have hxs : xs.map c.get = List.replicate xs.length v :=
          List.eq_replicate_iff.2 ⟨List.length_map _, List.forall_mem_map.2 hv⟩
        exact .inl (by rw [hgs, hxs, hlen])

theorem Saved.length_eq (h : Saved c xs rs rs') : rs'.length = rs.length := by
  obtain ⟨gs, -, -, ⟨-, rfl⟩ | ⟨-, x, -, rfl⟩⟩ := h
  · rfl
  · exact List.length_map _

theorem Saved.isTable (h : Saved c xs rs rs') (htable : IsTable rs) : IsTable rs' := by
  have hlen := h.length_eq
  refine ⟨?_, hlen.trans_le htable.length_le⟩
  rintro rfl
  exact htable.ne_nil (List.length_eq_zero_iff.1 hlen.symm)

/-- A save of a column leaves the other columns. -/
theorem Saved.map_cell {W : Type} {e : VolatileColumn W}
    (hother : ∀ r v, e.cell (c.setCell r v) = e.cell r) (h : Saved c xs rs rs') :
    rs'.map e.cell = rs.map e.cell := by
  obtain ⟨gs, -, -, ⟨-, rfl⟩ | ⟨-, x, -, rfl⟩⟩ := h
  · rfl
  · rw [List.map_map]
    exact List.map_congr_left fun r _ => hother r _

/-- A column in which a value is set in every row is read so. -/
theorem readColumn_set (hc : c.Lawful) (htable : IsTable rs) {v : V}
    (hreads : c.type.Reads (c.print v) v) (hstore : c.type.store v = .ok v) :
    readColumn c (rs.map (c.setCell · v)) = .ok (List.replicate rs.length v) := by
  have hcells : (rs.map (c.setCell · v)).map c.cell = (List.replicate rs.length v).map (↑) := by
    rw [List.map_map, List.map_replicate, List.eq_replicate_iff]
    simp [hc.cell_setCell]
  have htable' : IsTable (rs.map (c.setCell · v)) :=
    ⟨List.map_eq_nil_iff.not.2 htable.ne_nil, (List.length_map _).trans_le htable.length_le⟩
  have hmem : ∀ w ∈ List.replicate rs.length v, w = v := fun w hw => List.eq_of_mem_replicate hw
  rw [readColumn_eq hcells htable' fun w hw => hmem w hw ▸ hreads, descending_replicate,
    mapM_eq_ok_iff, List.forall₂_same]
  exact fun w hw => hmem w hw ▸ hstore

/-- A column that is saved is read as the list exactly if it is kept. -/
theorem Saved.readAs_iff (hc : c.Lawful) (h : Saved c xs rs rs') (htable : IsTable rs)
    (hxs : ∀ x ∈ xs, c.Accepts x) (hreads : ∀ x ∈ xs, c.type.Reads (c.print (c.get x)) (c.get x))
    (hlen : xs.length = rs.length) : ReadAs c rs' xs ↔ Kept c xs rs := by
  obtain ⟨gs, hread, hle, h⟩ := h
  have htake : ∀ v, (∀ x ∈ xs, c.get x = v) →
      (xs.take gs.length).map c.get = List.replicate gs.length v := by
    intro v hv
    rw [List.eq_replicate_iff, List.length_map, List.length_take, min_eq_left hle,
      List.forall_mem_map]
    exact ⟨rfl, fun x hx => hv x (List.mem_of_mem_take hx)⟩
  rcases h with ⟨heq, rfl⟩ | ⟨hne, x, hx, rfl⟩
  · constructor
    · rintro ⟨gs', hgs', hmap⟩
      exact ⟨gs', hgs', .inl hmap⟩
    · rintro ⟨gs', hgs', hmap | ⟨-, v, hv, g, hg, hgv⟩⟩
      · exact ⟨gs', hgs', hmap⟩
      · obtain rfl : gs = gs' := Except.ok.inj (hread.symm.trans hgs')
        have hmem : c.norm g ∈ (xs.take gs.length).map c.get := by
          rw [heq]
          exact List.mem_map_of_mem hg
        rw [htake v hv] at hmem
        exact absurd (List.eq_of_mem_replicate hmem) hgv
  · have hset := readColumn_set hc htable (hreads x hx) (hxs x hx).store
    have hall : ReadAs c (rs.map (c.setCell · (c.get x))) xs ↔ ∀ y ∈ xs, c.get y = c.get x := by
      rw [ReadAs, hset]
      simp only [Except.ok.injEq, exists_eq_left', List.map_replicate, hc.norm_get]
      rw [eq_comm, List.eq_replicate_iff, List.length_map, List.forall_mem_map]
      exact and_iff_right hlen
    rw [hall]
    constructor
    · intro hv
      refine ⟨gs, hread, .inr ⟨hle, c.get x, hv, ?_⟩⟩
      by_contra hno
      push Not at hno
      refine hne ((htake _ hv).trans ?_)
      symm
      rw [List.eq_replicate_iff, List.length_map, List.forall_mem_map]
      exact ⟨rfl, hno⟩
    · rintro ⟨gs', hgs', hmap | ⟨-, v, hv, -⟩⟩
      · obtain rfl : gs = gs' := Except.ok.inj (hread.symm.trans hgs')
        have hlen' : gs.length = xs.length := by simpa using congrArg List.length hmap
        rw [hlen', List.take_length] at hne
        exact absurd hmap.symm hne
      · exact fun y hy => (hv y hy).trans (hv x hx).symm

end Column

/-- The rows before and after the three columns are saved. -/
def SavedAll (xs : List NoDisturb) (rs rs' : List VolatileRow) : Prop :=
  ∃ rs₁ rs₂, Saved modeColumn xs rs rs₁ ∧ Saved startColumn xs rs₁ rs₂ ∧ Saved endColumn xs rs₂ rs'

/-- The texts of a period do not begin with white space. -/
structure NoDisturb.Unspaced (x : NoDisturb) : Prop where
  start : NoSpace x.noDisturbFrom
  fin : NoSpace x.noDisturbTo

instance (x : NoDisturb) : Decidable x.Unspaced :=
  decidable_of_iff (NoSpace x.noDisturbFrom ∧ NoSpace x.noDisturbTo)
    ⟨fun h => ⟨h.1, h.2⟩, fun h => ⟨h.start, h.fin⟩⟩

theorem IsOrdinary.isPlain {t : List Char} (ht : IsOrdinary t) (hspace : NoSpace t) : IsPlain t :=
  ⟨ht.ne_nil, ht.newline, ht.nul, hspace⟩

section All

variable {xs : List NoDisturb} {rs rs' : List VolatileRow}

theorem SavedAll.length_eq (h : SavedAll xs rs rs') : rs'.length = rs.length := by
  obtain ⟨rs₁, rs₂, hmode, hstart, hend⟩ := h
  rw [hend.length_eq, hstart.length_eq, hmode.length_eq]

theorem SavedAll.isTable (h : SavedAll xs rs rs') (htable : IsTable rs) : IsTable rs' := by
  obtain ⟨rs₁, rs₂, hmode, hstart, hend⟩ := h
  exact hend.isTable (hstart.isTable (hmode.isTable htable))

/-- After a save the columns are read as the list exactly if they are kept. -/
theorem SavedAll.readAs_iff (h : SavedAll xs rs rs') (htable : IsTable rs)
    (hxs : ∀ x ∈ xs, x.Ordinary) (hspace : ∀ x ∈ xs, x.Unspaced) (hlen : xs.length = rs.length) :
    ReadAs modeColumn rs' xs ∧ ReadAs startColumn rs' xs ∧ ReadAs endColumn rs' xs ↔
      Kept modeColumn xs rs ∧ Kept startColumn xs rs ∧ Kept endColumn xs rs := by
  obtain ⟨rs₁, rs₂, hmode, hstart, hend⟩ := h
  have hlen₁ := hlen.trans hmode.length_eq.symm
  have hlen₂ := hlen₁.trans hstart.length_eq.symm
  have htable₁ := hmode.isTable htable
  have htable₂ := hstart.isTable htable₁
  -- a column is changed by its own save alone
  have hmode' : ReadAs modeColumn rs' xs ↔ Kept modeColumn xs rs := by
    rw [readAs_congr ((hend.map_cell fun _ _ => rfl).trans (hstart.map_cell fun _ _ => rfl))]
    exact hmode.readAs_iff lawful_mode htable (fun x _ => accepts_mode x)
      (fun x _ => reads_int _) hlen
  have hstart' : ReadAs startColumn rs' xs ↔ Kept startColumn xs rs := by
    rw [readAs_congr (hend.map_cell fun _ _ => rfl),
      ← kept_congr (hmode.map_cell (e := startColumn) fun _ _ => rfl)]
    exact hstart.readAs_iff lawful_start htable₁ (fun x hx => (hxs x hx).accepts_start)
      (fun x hx => reads_text ((hxs x hx).start.isPlain (hspace x hx).start)) hlen₁
  have hend' : ReadAs endColumn rs' xs ↔ Kept endColumn xs rs := by
    rw [← kept_congr ((hstart.map_cell (e := endColumn) fun _ _ => rfl).trans
      (hmode.map_cell fun _ _ => rfl))]
    exact hend.readAs_iff lawful_end htable₂ (fun x hx => (hxs x hx).accepts_end)
      (fun x hx => reads_text ((hxs x hx).fin.isPlain (hspace x hx).fin)) hlen₂
  rw [hmode', hstart', hend']

end All

section Restart

variable {sql : Sqlite δ} {rows : δ → List VolatileRow} {op : DbOperation δ}
  {xs : List NoDisturb}

theorem sqlInited_open (d : δ) : (⟨d, true⟩ : DbOperation δ).sqlInited = true :=
  rfl

/-- A save that goes through. -/
theorem savedAll_of_save (hdoc : Documented sql rows) (hop : op.sqlInited = true)
    (htable : IsTable (rows op.sql3)) (h8 : xs.length ≤ 8) (hxs : ∀ x ∈ xs, x.Ordinary)
    {r : DbOperation δ × Option (List NoDisturb)}
    (hsave : dbLoadSaveVolatile sql op (some xs) = .ok r) :
    r.2 = some xs ∧ SavedAll xs (rows op.sql3) (rows r.1.sql3) := by
  rw [dbLoadSaveVolatile, if_neg (by simp [hop])] at hsave
  obtain ⟨op₁, hsave₁, hsave⟩ := bind_eq_ok.1 hsave
  obtain ⟨op₂, hsave₂, hsave⟩ := bind_eq_ok.1 hsave
  obtain ⟨op₃, hsave₃, hsave⟩ := bind_eq_ok.1 hsave
  cases hsave
  obtain ⟨hop₁, hs₁⟩ := saved_of_saveColumn lawful_mode hdoc.mode hop htable
    (fun x _ => accepts_mode x) h8 hsave₁
  obtain ⟨hop₂, hs₂⟩ := saved_of_saveColumn lawful_start hdoc.start hop₁ (hs₁.isTable htable)
    (fun x hx => (hxs x hx).accepts_start) h8 hsave₂
  obtain ⟨-, hs₃⟩ := saved_of_saveColumn lawful_end hdoc.fin hop₂
    (hs₂.isTable (hs₁.isTable htable)) (fun x hx => (hxs x hx).accepts_end) h8 hsave₃
  exact ⟨rfl, _, _, hs₁, hs₂, hs₃⟩

/-- A column that is kept is saved. -/
theorem exists_saveColumn [LinearOrder V] [DecidableEq V] {c : VolatileColumn V} (hc : c.Lawful)
    (hdoc : c.Documented sql rows) (hop : op.sqlInited = true) (htable : IsTable (rows op.sql3))
    (hxs : ∀ x ∈ xs, c.Accepts x) (h8 : xs.length ≤ 8) (hkept : Kept c xs (rows op.sql3)) :
    ∃ op', saveColumn sql op c xs = .ok op' ∧ op'.sqlInited = true ∧
      Saved c xs (rows op.sql3) (rows op'.sql3) := by
  obtain ⟨gs, hread, hlen⟩ := hkept.exists_read
  have hsave := saveColumn_eq hc hdoc hop htable hread hxs h8 hlen
  exact ⟨_, hsave, saved_of_saveColumn hc hdoc hop htable hxs h8 hsave⟩

/-- A table whose columns are kept is saved over. -/
theorem exists_save (hdoc : Documented sql rows) (hop : op.sqlInited = true)
    (htable : IsTable (rows op.sql3)) (h8 : xs.length ≤ 8) (hxs : ∀ x ∈ xs, x.Ordinary)
    (hmode : Kept modeColumn xs (rows op.sql3)) (hstart : Kept startColumn xs (rows op.sql3))
    (hend : Kept endColumn xs (rows op.sql3)) :
    ∃ r, dbLoadSaveVolatile sql op (some xs) = .ok r := by
  obtain ⟨op₁, hsave₁, hop₁, hs₁⟩ := exists_saveColumn lawful_mode hdoc.mode hop htable
    (fun x _ => accepts_mode x) h8 hmode
  have hstart₁ := (kept_congr (hs₁.map_cell fun _ _ => rfl)).2 hstart
  obtain ⟨op₂, hsave₂, hop₂, hs₂⟩ := exists_saveColumn lawful_start hdoc.start hop₁
    (hs₁.isTable htable) (fun x hx => (hxs x hx).accepts_start) h8 hstart₁
  have hend₂ := (kept_congr ((hs₂.map_cell fun _ _ => rfl).trans
    (hs₁.map_cell fun _ _ => rfl))).2 hend
  obtain ⟨op₃, hsave₃, -, -⟩ := exists_saveColumn lawful_end hdoc.fin hop₂
    (hs₂.isTable (hs₁.isTable htable)) (fun x hx => (hxs x hx).accepts_end) h8 hend₂
  refine ⟨(op₃, some xs), ?_⟩
  rw [dbLoadSaveVolatile, if_neg (by simp [hop])]
  simp only [hsave₁, hsave₂, hsave₃, ok_bind, pure_eq_ok]

/-- A list is saved without an entry accessed beyond it, and loaded as it was by a client that
starts afterwards. -/
def Survives (sql : Sqlite δ) (d : δ) (xs : List NoDisturb) : Prop :=
  ∃ op op', dbLoadSaveVolatile sql ⟨d, true⟩ (some xs) = .ok (op, some xs) ∧
    dbLoadSaveVolatile sql ⟨op.sql3, true⟩ none = .ok (op', some xs)

/-- What has to hold for a list to survive : it has as many periods as the table has rows, no
text of it begins with white space, and each column is kept. -/
structure Survivable (xs : List NoDisturb) (rs : List VolatileRow) : Prop where
  length_eq : xs.length = rs.length
  unspaced : ∀ x ∈ xs, x.Unspaced
  mode : Kept modeColumn xs rs
  start : Kept startColumn xs rs
  fin : Kept endColumn xs rs

theorem Survives.survivable {d : δ} (hdoc : Documented sql rows) (htable : IsTable (rows d))
    (h8 : xs.length ≤ 8) (hxs : ∀ x ∈ xs, x.Ordinary) (h : Survives sql d xs) :
    Survivable xs (rows d) := by
  obtain ⟨op, op', hsave, hload⟩ := h
  have hall : SavedAll xs (rows d) (rows op.sql3) :=
    (savedAll_of_save hdoc rfl htable h8 hxs hsave).2
  have htable' := hall.isTable htable
  obtain rfl := fst_of_load hload
  have hread := (load_iff hdoc (sqlInited_open op.sql3) htable'
    fun x hx => (hxs x hx).named).1 hload
  have hlen : xs.length = (rows d).length := by
    obtain ⟨gs, hgs, hmap⟩ := hread.1
    have hmaplen : gs.length = xs.length := by simpa using congrArg List.length hmap
    rw [← hmaplen, length_of_readColumn_mode htable' hgs]
    exact hall.length_eq
  have hspace : ∀ x ∈ xs, x.Unspaced := fun x hx =>
    ⟨(get_of_readAs rfl rfl hread.2.1 x hx).2, (get_of_readAs rfl rfl hread.2.2 x hx).2⟩
  obtain ⟨hmode, hstart, hend⟩ := (hall.readAs_iff htable hxs hspace hlen).1 hread
  exact ⟨hlen, hspace, hmode, hstart, hend⟩

/-- For every list of up to eight ordinary periods and every table of one to eight rows, whatever
they hold, the list survives a restart exactly when it has as many periods as the table has
rows, no text of it begins with white space, and in each column the values read of the table are
those of the list, or all periods are equal and one of the values is not. -/
theorem survives_restart_iff {d : δ} (hdoc : Documented sql rows) (htable : IsTable (rows d))
    (h8 : xs.length ≤ 8) (hxs : ∀ x ∈ xs, x.Ordinary) :
    Survives sql d xs ↔ Survivable xs (rows d) := by
  constructor
  · exact fun h => h.survivable hdoc htable h8 hxs
  · rintro ⟨hlen, hspace, hmode, hstart, hend⟩
    obtain ⟨⟨op, volaInfo⟩, hsave⟩ :=
      exists_save hdoc (sqlInited_open d) htable h8 hxs hmode hstart hend
    obtain ⟨rfl, hall⟩ := savedAll_of_save hdoc rfl htable h8 hxs hsave
    have hread := (hall.readAs_iff htable hxs hspace hlen).2 ⟨hmode, hstart, hend⟩
    have hload := (load_iff hdoc (sqlInited_open op.sql3) (hall.isTable htable)
      fun x hx => (hxs x hx).named).2 hread
    exact ⟨op, _, hsave, hload⟩

end Restart

/-- The values of the row that `SqlInit` inserts. -/
def initialValues : VolatileValues :=
  ⟨-1, "nul-start".toList, "nul-end".toList⟩

theorem holdsValues_initialRow : HoldsValues [initialRow] [initialValues] :=
  ⟨rfl, by decide, by decide, by decide, by decide⟩

theorem readColumn_initialRow :
    readColumn modeColumn [initialRow] = .ok [-1] ∧
      readColumn startColumn [initialRow] = .ok ["nul-start".toList] ∧
        readColumn endColumn [initialRow] = .ok ["nul-end".toList] := by
  refine ⟨holdsValues_initialRow.readColumn_mode_iff.2 ⟨(descending_singleton _).symm, by decide⟩,
    ?_, ?_⟩
  · refine (@HoldsValues.readColumn_text_iff _ _ startColumn holdsValues_initialRow rfl rfl
      (·.noDisturbStart) (fun _ => rfl) ?_ ?_ _).2 ⟨(descending_singleton _).symm, ?_⟩
    all_goals decide
  · refine (@HoldsValues.readColumn_text_iff _ _ endColumn holdsValues_initialRow rfl rfl
      (·.noDisturbEnd) (fun _ => rfl) ?_ ?_ _).2 ⟨(descending_singleton _).symm, ?_⟩
    all_goals decide

/-- The period that a new table is loaded as. -/
def initialPeriod : NoDisturb :=
  ⟨false, "nul-start".toList, "nul-end".toList⟩

theorem readAs_initialRow :
    ReadAs modeColumn [initialRow] [initialPeriod] ∧
      ReadAs startColumn [initialRow] [initialPeriod] ∧
        ReadAs endColumn [initialRow] [initialPeriod] :=
  ⟨⟨_, readColumn_initialRow.1, rfl⟩, ⟨_, readColumn_initialRow.2.1, rfl⟩,
    ⟨_, readColumn_initialRow.2.2, rfl⟩⟩

/-- The period that is set in the one row of a new table survives. -/
theorem survives_restart_iff_initialRow :
    Survives rowDatabase (some [initialRow]) [⟨true, "22:00".toList, "07:00".toList⟩] := by
  obtain ⟨hmode, hstart, hend⟩ := readColumn_initialRow
  exact (survives_restart_iff (d := some [initialRow]) documented_rowDatabase
    holdsValues_initialRow.isTable (by decide) (by decide)).2
    ⟨rfl, by decide, (kept_iff_of_read hmode rfl).2 (.inr ⟨1, by decide⟩),
      (kept_iff_of_read hstart rfl).2 (.inr ⟨"22:00".toList, by decide⟩),
      (kept_iff_of_read hend rfl).2 (.inr ⟨"07:00".toList, by decide⟩)⟩

/-- A second period is not in the one row of a new table. -/
theorem not_survives_restart :
    ¬∀ (δ : Type) (sql : Sqlite δ) (rows : δ → List VolatileRow), Documented sql rows →
      ∀ d, IsTable (rows d) → ∀ xs : List NoDisturb, xs.length ≤ 8 → (∀ x ∈ xs, x.Ordinary) →
        Survives sql d xs := by
  intro h
  have hxs : ∀ x ∈ [(⟨true, "22:00".toList, "07:00".toList⟩ : NoDisturb),
      ⟨true, "12:00".toList, "14:00".toList⟩], x.Ordinary := by decide
  have hsurvives := h _ _ _ documented_rowDatabase (some [initialRow])
    holdsValues_initialRow.isTable _ (by decide) hxs
  have hlen := (hsurvives.survivable (d := some [initialRow]) documented_rowDatabase
    holdsValues_initialRow.isTable (by decide) hxs).length_eq
  exact absurd hlen (by decide)

end Mastiff.Storage

import Mastiff.NoDisturb

/-!
# The zones

`DbLoadSaveMultiZones` (`cambrian/storage/dbase_client.cc`) keeps the zones of the user in a
table `MultiZones`, which no statement of `SqlInit` creates. What a zone is, and how it is
serialized and parsed, are parameters.

`zonesSurvive_iff` : the zones that are stored are exposed after a restart exactly when there
are none.
-/

namespace Mastiff.Storage

open Memory

variable {δ ζ : Type}

def TBL_MULTI_ZONES : List Char :=
  "MultiZones".toList

def ITEM_MULTI_ZONES : List Char :=
  "MultiZones".toList

/-- `SerializeAsString` and `ParseFromString` of a `SingleZoneParam`. A parse gives a zone even if
it fails. -/
structure ZoneCodec (ζ : Type) where
  serialize : ζ → List Char
  parse : List Char → ζ × Bool

/-- What is read from a serialized zone is the zone. -/
def ZoneCodec.Inverse (codec : ZoneCodec ζ) : Prop :=
  ∀ z, codec.parse (codec.serialize z) = (z, true)

/-- The members of `DbaseClient` that `DatabaseInit` loads : `sql_`, the periods in `vola_info_`
and the zones in `mzp_info_`, null until they are loaded. -/
structure ZonesClient (δ ζ : Type) where
  sql : DbOperation δ
  volaInfo : Option (List NoDisturb) := none
  mzpInfo : Option (List ζ) := none

namespace ZonesClient

/-- `DbLoadSaveMultiZones`. A zone that is not parsed stays added. -/
def dbLoadSaveMultiZones (codec : ZoneCodec ζ) (sql : Sqlite δ) (c : ZonesClient δ ζ) :
    Except DbFault (ZonesClient δ ζ) := do
  let zones := c.mzpInfo.getD []
  match ← dbChkItem sql c.sql TBL_MULTI_ZONES ITEM_MULTI_ZONES E_CHK_TYPE_STRING .descend with
  | none => return { c with mzpInfo := some zones }
  | some gs =>
    if c.mzpInfo.isNone then
      return { c with mzpInfo := some (gs.map fun g => (codec.parse g).1) }
    else do
      let dbd ← changes E_CHK_TYPE_STRING id codec.serialize gs zones
      increase E_CHK_TYPE_STRING codec.serialize (8 - gs.length) (zones.drop gs.length)
      return { c with
        sql := dbUpdtItem sql c.sql dbd TBL_MULTI_ZONES ITEM_MULTI_ZONES E_CHK_TYPE_STRING }

/-- `DatabaseInit` of a new client on a database file, if there is one. -/
def databaseInit (codec : ZoneCodec ζ) (sql : Sqlite δ) (file : Option δ) :
    Except DbFault (ZonesClient δ ζ) := do
  let (op, volaInfo) ← dbLoadSaveVolatile sql (sqlInit sql file) none
  dbLoadSaveMultiZones codec sql { sql := op, volaInfo := volaInfo }

/-- `DbStoreMltimZones`. -/
def dbStoreMltimZones (codec : ZoneCodec ζ) (sql : Sqlite δ) (c : ZonesClient δ ζ)
    (mzp : List ζ) : Except DbFault (ZonesClient δ ζ) :=
  dbLoadSaveMultiZones codec sql { c with mzpInfo := c.mzpInfo.map fun _ => mzp }

/-- `DbExposeMltimZones`, a null pointer if nothing is loaded. -/
def dbExposeMltimZones (c : ZonesClient δ ζ) : Option (List ζ) :=
  c.mzpInfo

/-- What is exposed after a restart : the zones are stored by a client that has created the
database file, and exposed by a new one. -/
def afterRestart (codec : ZoneCodec ζ) (sql : Sqlite δ) (mzp : List ζ) :
    Except DbFault (Option (List ζ)) := do
  let c ← databaseInit codec sql none
  let c ← c.dbStoreMltimZones codec sql mzp
  let c ← databaseInit codec sql (some c.sql.sql3)
  return c.dbExposeMltimZones

end ZonesClient

/-! ## No table -/

/-- What SQLite documents of the tables in a database : only `CREATE TABLE` adds one, the one it
names, and a `SELECT` from a table that is not there is an error. -/
structure TablesDocumented (sql : Sqlite δ) (tables : δ → List (List Char)) : Prop where
  empty : tables sql.empty = []
  create : ∀ d, ∀ t ∈ tables (sql.exec d SQL_CREATE_TBL_VOLATILE).1,
    t = TBL_VOLATILE_INFO ∨ t ∈ tables d
  insert : ∀ d, tables (sql.exec d SQL_INSERT_TBL_VOLATILE).1 = tables d
  select : ∀ d, TBL_MULTI_ZONES ∉ tables d → ∃ msg,
    sql.getTable d (SQL_OPERATION_CHECKOUT ITEM_MULTI_ZONES TBL_MULTI_ZONES
      (orderBy ITEM_MULTI_ZONES .descend)) = .error msg ∧ "no such table:".toList <+: msg

section NoTable

variable {sql : Sqlite δ} {tables : δ → List (List Char)} {rows : δ → List VolatileRow}
  {codec : ZoneCodec ζ}

/-- `SqlInit` creates no table of zones. -/
theorem notMem_sqlInit (htables : TablesDocumented sql tables) :
    TBL_MULTI_ZONES ∉ tables (sqlInit sql none).sql3 := by
  rw [sqlInit_none, htables.insert]
  intro hmem
  rcases htables.create _ _ hmem with heq | hmem
  · exact absurd heq (by decide)
  · rw [htables.empty] at hmem
    cases hmem

/-- Without the table nothing is fetched. -/
theorem dbChkItem_of_notMem (htables : TablesDocumented sql tables) {op : DbOperation δ}
    (hop : op.sqlInited = true) (hno : TBL_MULTI_ZONES ∉ tables op.sql3) :
    dbChkItem sql op TBL_MULTI_ZONES ITEM_MULTI_ZONES E_CHK_TYPE_STRING .descend = .ok none := by
  obtain ⟨msg, hget, hmsg⟩ := htables.select op.sql3 hno
  have hchk : sqlCheckOut sql op TBL_MULTI_ZONES ITEM_MULTI_ZONES .descend = .ok (-2, []) := by
    rw [sqlCheckOut, if_neg (by simp [hop]), hget]
    simp only [List.isPrefixOf_iff_prefix.2 hmsg, if_true]
  rw [dbChkItem, hchk, ok_bind]
  rfl

/-- Without the table nothing is stored, and no zones are loaded. -/
theorem dbLoadSaveMultiZones_of_notMem (htables : TablesDocumented sql tables)
    {c : ZonesClient δ ζ} (hop : c.sql.sqlInited = true)
    (hno : TBL_MULTI_ZONES ∉ tables c.sql.sql3) :
    c.dbLoadSaveMultiZones codec sql = .ok { c with mzpInfo := some (c.mzpInfo.getD []) } := by
  rw [ZonesClient.dbLoadSaveMultiZones, dbChkItem_of_notMem htables hop hno]
  rfl

/-- On a new database file, or on one that a client has left so, `DatabaseInit` loads no zones. -/
theorem databaseInit_eq (hdoc : Documented sql rows) (htables : TablesDocumented sql tables)
    {file : Option δ} (hfile : (sqlInit sql file).sql3 = (sqlInit sql none).sql3) :
    ∃ volaInfo, ZonesClient.databaseInit codec sql file =
      .ok ⟨⟨(sqlInit sql none).sql3, true⟩, volaInfo, some []⟩ := by
  have hop : sqlInit sql file = ⟨(sqlInit sql none).sql3, true⟩ := by
    rw [← hfile]
    cases file <;> rfl
  have hrows := hdoc.init
  have htable : IsTable (rows (sqlInit sql none).sql3) := by
    rw [hrows]
    exact holdsValues_initialRow.isTable
  have hread := readAs_initialRow
  rw [← hrows] at hread
  have hnamed : ∀ x ∈ [initialPeriod], x.Named :=
    List.forall_mem_singleton.2 ⟨by decide, by decide⟩
  have hload := (load_iff hdoc (sqlInited_open (sqlInit sql none).sql3) htable hnamed).2 hread
  rw [ZonesClient.databaseInit, hop, hload, ok_bind]
  exact ⟨_, dbLoadSaveMultiZones_of_notMem htables rfl (notMem_sqlInit htables)⟩

/-- After a restart no zones are exposed. -/
theorem afterRestart_eq (hdoc : Documented sql rows) (htables : TablesDocumented sql tables)
    (mzp : List ζ) : ZonesClient.afterRestart codec sql mzp = .ok (some []) := by
  have hinit : ∀ file, (sqlInit sql file).sql3 = (sqlInit sql none).sql3 → ∃ volaInfo,
      ZonesClient.databaseInit codec sql file =
        .ok ⟨⟨(sqlInit sql none).sql3, true⟩, volaInfo, some []⟩ :=
    fun _ hfile => databaseInit_eq hdoc htables hfile
  obtain ⟨volaInfo, hcreated⟩ := hinit none rfl
  obtain ⟨volaInfo', hopened⟩ := hinit (some (sqlInit sql none).sql3) rfl
  have hno := notMem_sqlInit htables
  rw [ZonesClient.afterRestart, hcreated, ok_bind, ZonesClient.dbStoreMltimZones,
    dbLoadSaveMultiZones_of_notMem htables rfl hno, ok_bind, hopened, ok_bind]
  rfl

/-- For every list of zones, those exposed after a restart are those stored exactly when there
are none. -/
theorem zonesSurvive_iff (hdoc : Documented sql rows) (htables : TablesDocumented sql tables)
    (mzp : List ζ) : ZonesClient.afterRestart codec sql mzp = .ok (some mzp) ↔ mzp = [] := by
  rw [afterRestart_eq hdoc htables, Except.ok.injEq, Option.some.injEq]
  exact eq_comm

end NoTable

/-- The tables of a database of rows. -/
def tablesOf : Option (List VolatileRow) → List (List Char)
  | none => []
  | some _ => [TBL_VOLATILE_INFO]

theorem tablesDocumented_rowDatabase : TablesDocumented rowDatabase tablesOf where
  empty := rfl
  create d t ht := by
    have honly : ∀ d', ∀ t ∈ tablesOf d', t = TBL_VOLATILE_INFO := by
      rintro (_ | rows) t ht
      · cases ht
      · exact List.mem_singleton.1 ht
    exact .inl (honly _ t ht)
  insert d := by
    have hcreate : SQL_INSERT_TBL_VOLATILE ≠ SQL_CREATE_TBL_VOLATILE :=
      ne_of_head rfl rfl (by decide : 'I' ≠ 'C')
    unfold rowDatabase
    cases d with
    | none =>
      dsimp only
      rw [if_neg hcreate]
    | some rows =>
      dsimp only
      rw [if_pos rfl]
      rfl
  select d _ := by
    cases d with
    | none => exact ⟨_, rfl, List.prefix_append _ " ".toList⟩
    | some rows =>
      refine ⟨"no such table: MultiZones".toList, ?_, List.prefix_append _ " MultiZones".toList⟩
      unfold rowDatabase
      dsimp only
      rw [if_neg (by decide), if_neg (by decide), if_neg (by decide)]

/-- Zones that are texts. -/
def textCodec : ZoneCodec (List Char) :=
  ⟨id, fun s => (s, true)⟩

theorem zonesSurvive_iff_nil :
    ZonesClient.afterRestart textCodec rowDatabase [] = .ok (some []) :=
  (zonesSurvive_iff documented_rowDatabase tablesDocumented_rowDatabase []).2 rfl

/-- A zone is lost. -/
theorem not_zonesSurvive :
    ¬∀ (δ ζ : Type) (sql : Sqlite δ) (rows : δ → List VolatileRow) (tables : δ → List (List Char)),
      Documented sql rows → TablesDocumented sql tables → ∀ codec : ZoneCodec ζ, codec.Inverse →
      ∀ mzp : List ζ, mzp.length ≤ 8 → (∀ z ∈ mzp, (codec.serialize z).length < 512) →
        ZonesClient.afterRestart codec sql mzp = .ok (some mzp) := by
  intro h
  have hzone := h _ _ _ _ _ documented_rowDatabase tablesDocumented_rowDatabase textCodec
    (fun _ => rfl) ["zone".toList] (by decide) (by decide)
  rw [afterRestart_eq documented_rowDatabase tablesDocumented_rowDatabase] at hzone
  cases hzone

end Mastiff.Storage

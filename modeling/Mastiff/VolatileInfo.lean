import Mastiff.NoDisturb
import Mastiff.VolatileItems

/-!
# Loading and saving the settings

`DbLoadSaveVolatile` (`cambrian/storage/dbase_client.cc`) loads the message `VolatileInformation`
when there is none and saves it otherwise. After the periods without disturbance there is a block
for every other column, which checks out the first value of the column, and either sets a field to
it or, if the field differs, updates the column in all rows. Three blocks keep the times that the
system has been up.

The blocks are those of `blocks`. `blocks_straight` : each compares and saves the field that it
loads, and its column has the type of the field.
-/

set_option linter.unusedSectionVars false

namespace Mastiff.Storage

open Memory Scanf

variable {δ κ φ V : Type}

/-! ## The message -/

/-- `VolatileInformation::BriefStat`, but for the system load, which is not saved. -/
structure BriefStat where
  battery : ℤ := 0
  suction : ℤ := 0
  flowSpeed : ℤ := 0
  boostSw : ℤ := 0
  breakSw : ℤ := 0
  waterLevel : ℤ := 0
  isMopSet : ℤ := 0

/-- `VolatileInformation::JobStatistic`. -/
structure JobStatistic (φ : Type) where
  powerupTime : List Char := []
  poweronTimeSec : φ
  poweronTimeTotalSec : φ
  missionCount : ℤ := 0
  mileageStatistic : ℤ := 0
  cleanTimeTotal : ℤ := 0
  cleanAreaTotal : φ

structure AudioInfo where
  language : List Char := []
  volume : ℤ := 0

structure WirelessInfo where
  configured : List Char := []
  conSsid : List Char := []
  wifiPswd : List Char := []
  ipAddr : List Char := []

structure Comsumble where
  strainerUsedTime : ℤ := 0
  strainerTotalTime : ℤ := 0
  mbrushUsedTime : ℤ := 0
  mbrushTotalTime : ℤ := 0
  sbrushUsedTime : ℤ := 0
  sbrushTotalTime : ℤ := 0
  sensorUsedTime : ℤ := 0
  sensorTotalTime : ℤ := 0
  filterUsedTime : ℤ := 0
  filterTotalTime : ℤ := 0

structure VolatileInformation (φ : Type) where
  noDisturb : List NoDisturb := []
  briefStat : BriefStat := {}
  jobStatistics : JobStatistic φ
  audioInfo : AudioInfo := {}
  wireless : WirelessInfo := {}
  comsumble : Comsumble := {}

/-- The integer fields. -/
inductive IntField
  | battery | suction | flowSpeed | boostSw | breakSw | waterLevel | isMopSet
  | missionCount | mileageStatistic | cleanTimeTotal
  | volume
  | strainerUsedTime | strainerTotalTime | mbrushUsedTime | mbrushTotalTime | sbrushUsedTime
  | sbrushTotalTime | sensorUsedTime | sensorTotalTime | filterUsedTime | filterTotalTime
  deriving DecidableEq

def IntField.get : IntField → VolatileInformation φ → ℤ
  | battery, x => x.briefStat.battery
  | suction, x => x.briefStat.suction
  | flowSpeed, x => x.briefStat.flowSpeed
  | boostSw, x => x.briefStat.boostSw
  | breakSw, x => x.briefStat.breakSw
  | waterLevel, x => x.briefStat.waterLevel
  | isMopSet, x => x.briefStat.isMopSet
  | missionCount, x => x.jobStatistics.missionCount
  | mileageStatistic, x => x.jobStatistics.mileageStatistic
  | cleanTimeTotal, x => x.jobStatistics.cleanTimeTotal
  | volume, x => x.audioInfo.volume
  | strainerUsedTime, x => x.comsumble.strainerUsedTime
  | strainerTotalTime, x => x.comsumble.strainerTotalTime
  | mbrushUsedTime, x => x.comsumble.mbrushUsedTime
  | mbrushTotalTime, x => x.comsumble.mbrushTotalTime
  | sbrushUsedTime, x => x.comsumble.sbrushUsedTime
  | sbrushTotalTime, x => x.comsumble.sbrushTotalTime
  | sensorUsedTime, x => x.comsumble.sensorUsedTime
  | sensorTotalTime, x => x.comsumble.sensorTotalTime
  | filterUsedTime, x => x.comsumble.filterUsedTime
  | filterTotalTime, x => x.comsumble.filterTotalTime

def IntField.set : IntField → VolatileInformation φ → ℤ → VolatileInformation φ
  | battery, x, v => { x with briefStat.battery := v }
  | suction, x, v => { x with briefStat.suction := v }
  | flowSpeed, x, v => { x with briefStat.flowSpeed := v }
  | boostSw, x, v => { x with briefStat.boostSw := v }
  | breakSw, x, v => { x with briefStat.breakSw := v }
  | waterLevel, x, v => { x with briefStat.waterLevel := v }
  | isMopSet, x, v => { x with briefStat.isMopSet := v }
  | missionCount, x, v => { x with jobStatistics.missionCount := v }
  | mileageStatistic, x, v => { x with jobStatistics.mileageStatistic := v }
  | cleanTimeTotal, x, v => { x with jobStatistics.cleanTimeTotal := v }
  | volume, x, v => { x with audioInfo.volume := v }
  | strainerUsedTime, x, v => { x with comsumble.strainerUsedTime := v }
  | strainerTotalTime, x, v => { x with comsumble.strainerTotalTime := v }
  | mbrushUsedTime, x, v => { x with comsumble.mbrushUsedTime := v }
  | mbrushTotalTime, x, v => { x with comsumble.mbrushTotalTime := v }
  | sbrushUsedTime, x, v => { x with comsumble.sbrushUsedTime := v }
  | sbrushTotalTime, x, v => { x with comsumble.sbrushTotalTime := v }
  | sensorUsedTime, x, v => { x with comsumble.sensorUsedTime := v }
  | sensorTotalTime, x, v => { x with comsumble.sensorTotalTime := v }
  | filterUsedTime, x, v => { x with comsumble.filterUsedTime := v }
  | filterTotalTime, x, v => { x with comsumble.filterTotalTime := v }

/-- The text fields. -/
inductive TextField
  | powerupTime | language | configured | conSsid | wifiPswd | ipAddr
  deriving DecidableEq

def TextField.get : TextField → VolatileInformation φ → List Char
  | powerupTime, x => x.jobStatistics.powerupTime
  | language, x => x.audioInfo.language
  | configured, x => x.wireless.configured
  | conSsid, x => x.wireless.conSsid
  | wifiPswd, x => x.wireless.wifiPswd
  | ipAddr, x => x.wireless.ipAddr

def TextField.set : TextField → VolatileInformation φ → List Char → VolatileInformation φ
  | powerupTime, x, v => { x with jobStatistics.powerupTime := v }
  | language, x, v => { x with audioInfo.language := v }
  | configured, x, v => { x with wireless.configured := v }
  | conSsid, x, v => { x with wireless.conSsid := v }
  | wifiPswd, x, v => { x with wireless.wifiPswd := v }
  | ipAddr, x, v => { x with wireless.ipAddr := v }

/-- A field that a block loads. -/
inductive Field
  | int (f : IntField)
  | text (t : TextField)
  | poweronTimeSec
  | poweronTimeTotalSec
  | cleanAreaTotal
  deriving DecidableEq

/-! ## Floats and the time up -/

/-- What floats are read from and printed as, their sum and `!=`. -/
structure Floats (φ : Type) extends FloatScan φ where
  print : φ → List Char
  add : φ → φ → φ
  ne : φ → φ → Bool

/-- `GetSysUpTime`, of whose output 19 characters are kept, and `GetSysUpSecs`. -/
structure SysUp (φ : Type) where
  time : List Char
  secs : φ
  length_time : time.length ≤ 19
  literal_time : IsLiteral time

/-- `"UPDATE %s SET %s = %f;"`, with the float printed. -/
def SQL_OPERATION_UPDATE_FLOAT (tbl item up : List Char) : List Char :=
  "UPDATE ".toList ++ tbl ++ " SET ".toList ++ item ++ " = ".toList ++ up ++ ";".toList

/-! ## Blocks -/

/-- `vola_info_`, when it is not null, and `last_note_history_time_`. -/
structure Loaded (φ : Type) where
  info : VolatileInformation φ
  lastNoteHistoryTime : φ

/-- A block of `DbLoadSaveVolatile` : the column, the field that is set, the one that is compared
and the one that is saved, or one of the blocks of floats and times. -/
inductive Block
  | int (item : VolatileItem) (loaded compared saved : IntField)
  | text (item : VolatileItem) (loaded compared saved : TextField)
  | powerupTime
  | poweronTimeSec
  | poweronTimeTotalSec
  | cleanAreaTotal

/-- The blocks, one after the other. -/
def blocks : List Block :=
  [.int .batlvl .battery .battery .battery,
    .int .fansuc .suction .suction .suction,
    .int .wtfspd .flowSpeed .flowSpeed .flowSpeed,
    .int .boostm .boostSw .boostSw .boostSw,
    .int .breakp .breakSw .breakSw .breakSw,
    .int .wtrlvl .waterLevel .waterLevel .waterLevel,
    .int .mopset .isMopSet .isMopSet .isMopSet,
    .powerupTime,
    .poweronTimeSec,
    .poweronTimeTotalSec,
    .int .msscnt .missionCount .missionCount .missionCount,
    .int .mlgttl .mileageStatistic .mileageStatistic .mileageStatistic,
    .int .tctime .cleanTimeTotal .cleanTimeTotal .cleanTimeTotal,
    .cleanAreaTotal,
    .text .langug .language .language .language,
    .int .audvol .volume .volume .volume,
    .text .ifconf .configured .configured .configured,
    .text .wfssid .conSsid .conSsid .conSsid,
    .text .passwd .wifiPswd .wifiPswd .wifiPswd,
    .text .ipaddr .ipAddr .ipAddr .ipAddr,
    .int .stnuse .strainerUsedTime .strainerUsedTime .strainerUsedTime,
    .int .stnttl .strainerTotalTime .strainerTotalTime .strainerTotalTime,
    .int .mbsuse .mbrushUsedTime .mbrushUsedTime .mbrushUsedTime,
    .int .mbsttl .mbrushTotalTime .mbrushTotalTime .mbrushTotalTime,
    .int .sdbuse .sbrushUsedTime .sbrushUsedTime .sbrushUsedTime,
    .int .sdbttl .sbrushTotalTime .sbrushTotalTime .sbrushTotalTime,
    .int .snsuse .sensorUsedTime .sensorUsedTime .sensorUsedTime,
    .int .snsttl .sensorTotalTime .sensorTotalTime .sensorTotalTime,
    .int .wtruse .filterUsedTime .filterUsedTime .filterUsedTime,
    .int .wtrttl .filterTotalTime .filterTotalTime .filterTotalTime]

def Block.item : Block → VolatileItem
  | int item _ _ _ => item
  | text item _ _ _ => item
  | powerupTime => .pwrupt
  | poweronTimeSec => .pwrsec
  | poweronTimeTotalSec => .pwrttl
  | cleanAreaTotal => .tcarea

def Block.field : Block → Field
  | int _ loaded _ _ => .int loaded
  | text _ loaded _ _ => .text loaded
  | powerupTime => .text .powerupTime
  | poweronTimeSec => .poweronTimeSec
  | poweronTimeTotalSec => .poweronTimeTotalSec
  | cleanAreaTotal => .cleanAreaTotal

/-- `E_CHK_TYPE_FLOAT`. -/
def Floats.row (F : Floats φ) : RowType φ :=
  rowType F.toFloatScan .float

/-- `DbChkVolatile` of a single value. -/
def dbChkVolatileItem (sql : Sqlite δ) (op : DbOperation δ) (item : VolatileItem)
    (ty : RowType V) : Except DbFault (Option V) :=
  dbChkSingle sql op TBL_VOLATILE_INFO item.name ty .descend

/-- What is fetched is put into the message, if something is. -/
def Loaded.put (l : Loaded φ) (set : VolatileInformation φ → V → VolatileInformation φ) :
    Option V → Loaded φ
  | none => l
  | some g => { l with info := set l.info g }

/-- A block when it loads. -/
def loadBlock (F : Floats φ) (sql : Sqlite δ) (op : DbOperation δ) (l : Loaded φ) :
    Block → Except DbFault (Loaded φ)
  | .int item loaded _ _ => do
    return l.put loaded.set (← dbChkVolatileItem sql op item E_CHK_TYPE_INT.row)
  | .text item loaded _ _ => do
    return l.put loaded.set (← dbChkVolatileItem sql op item E_CHK_TYPE_STRING.row)
  | .powerupTime => do
    return l.put TextField.powerupTime.set
      (← dbChkVolatileItem sql op .pwrupt E_CHK_TYPE_STRING.row)
  | .poweronTimeSec => do
    return l.put (fun x g => { x with jobStatistics.poweronTimeSec := g })
      (← dbChkVolatileItem sql op .pwrsec F.row)
  | .poweronTimeTotalSec => do
    match ← dbChkVolatileItem sql op .pwrttl F.row with
    | none => return l
    | some g => return ⟨{ l.info with jobStatistics.poweronTimeTotalSec := g }, g⟩
  | .cleanAreaTotal => do
    return l.put (fun x g => { x with jobStatistics.cleanAreaTotal := g })
      (← dbChkVolatileItem sql op .tcarea F.row)

/-- `DbUpdtVolatile` of an int. -/
def dbUpdtInt (sql : Sqlite δ) (op : DbOperation δ) (item : VolatileItem) (v : ℤ) : DbOperation δ :=
  (sqlUpdate sql op (SQL_OPERATION_UPDATE_INT TBL_VOLATILE_INFO item.name v)).1

/-- `DbUpdtVolatile` of a string, which is copied into `DbData`. -/
def dbUpdtString (sql : Sqlite δ) (op : DbOperation δ) (item : VolatileItem) (v : List Char) :
    Except DbFault (DbOperation δ) := do
  let v ← E_CHK_TYPE_STRING.store v
  return (sqlUpdate sql op (SQL_OPERATION_UPDATE_STRING TBL_VOLATILE_INFO item.name v)).1

/-- `DbUpdtVolatile` of a float. -/
def dbUpdtFloat (F : Floats φ) (sql : Sqlite δ) (op : DbOperation δ) (item : VolatileItem) (v : φ) :
    DbOperation δ :=
  (sqlUpdate sql op (SQL_OPERATION_UPDATE_FLOAT TBL_VOLATILE_INFO item.name (F.print v))).1

/-- A block when it saves. -/
def saveBlock (F : Floats φ) (up : SysUp φ) (sql : Sqlite δ) (s : DbOperation δ × Loaded φ) :
    Block → Except DbFault (DbOperation δ × Loaded φ)
  | .int item _ compared saved => do
    match ← dbChkVolatileItem sql s.1 item E_CHK_TYPE_INT.row with
    | none => return s
    | some g =>
      if compared.get s.2.info ≠ g then
        return (dbUpdtInt sql s.1 item (saved.get s.2.info), s.2)
      else return s
  | .text item _ compared saved => do
    match ← dbChkVolatileItem sql s.1 item E_CHK_TYPE_STRING.row with
    | none => return s
    | some g =>
      if compared.get s.2.info ≠ g then
        return (← dbUpdtString sql s.1 item (saved.get s.2.info), s.2)
      else return s
  | .powerupTime => do
    match ← dbChkVolatileItem sql s.1 .pwrupt E_CHK_TYPE_STRING.row with
    | none => return s
    | some g =>
      if s.2.info.jobStatistics.powerupTime ≠ g ∨
          s.2.info.jobStatistics.powerupTime = "unknown".toList then
        let x := { s.2.info with jobStatistics.powerupTime := up.time }
        return (← dbUpdtString sql s.1 .pwrupt x.jobStatistics.powerupTime, { s.2 with info := x })
      else return s
  | .poweronTimeSec => do
    match ← dbChkVolatileItem sql s.1 .pwrsec F.row with
    | none => return s
    | some _ =>
      let x := { s.2.info with jobStatistics.poweronTimeSec := up.secs }
      return (dbUpdtFloat F sql s.1 .pwrsec x.jobStatistics.poweronTimeSec, { s.2 with info := x })
  | .poweronTimeTotalSec => do
    match ← dbChkVolatileItem sql s.1 .pwrttl F.row with
    | none => return s
    | some _ =>
      let total := F.add s.2.info.jobStatistics.poweronTimeSec s.2.lastNoteHistoryTime
      let x := { s.2.info with jobStatistics.poweronTimeTotalSec := total }
      return (dbUpdtFloat F sql s.1 .pwrttl x.jobStatistics.poweronTimeTotalSec,
        { s.2 with info := x })
  | .cleanAreaTotal => do
    match ← dbChkVolatileItem sql s.1 .tcarea F.row with
    | none => return s
    | some g =>
      if F.ne s.2.info.jobStatistics.cleanAreaTotal g then
        return (dbUpdtFloat F sql s.1 .tcarea s.2.info.jobStatistics.cleanAreaTotal, s.2)
      else return s

/-- A message of which nothing is set. -/
def VolatileInformation.empty (F : Floats φ) (xs : List NoDisturb) : VolatileInformation φ where
  noDisturb := xs
  jobStatistics := { poweronTimeSec := F.zero, poweronTimeTotalSec := F.zero,
                     cleanAreaTotal := F.zero }

/-- `DbLoadSaveVolatile` of a `vola_info_` that may be null. -/
def dbLoadSaveInfo (F : Floats φ) (up : SysUp φ) (sql : Sqlite δ) (op : DbOperation δ)
    (volaInfo : Option (VolatileInformation φ)) (lastNoteHistoryTime : φ) :
    Except DbFault (DbOperation δ × Option (VolatileInformation φ) × φ) :=
  if op.sqlInited = false then .ok (op, volaInfo, lastNoteHistoryTime)
  else
    match volaInfo with
    | none => do
      let (op, xs) ← dbLoadSaveVolatile sql op none
      let l ← blocks.foldlM (loadBlock F sql op)
        ⟨VolatileInformation.empty F (xs.getD []), lastNoteHistoryTime⟩
      return (op, some l.info, l.lastNoteHistoryTime)
    | some x => do
      let (op, _) ← dbLoadSaveVolatile sql op (some x.noDisturb)
      let (op, l) ← blocks.foldlM (saveBlock F up sql) (op, ⟨x, lastNoteHistoryTime⟩)
      return (op, some l.info, l.lastNoteHistoryTime)

/-! ## The table of blocks -/

/-- A block compares and saves the field that it loads, and its column has the field's type. The
time of the start has a block of its own. -/
def Block.Straight : Block → Prop
  | int item loaded compared saved =>
    item.sqlType = .integer ∧ compared = loaded ∧ saved = loaded
  | text item loaded compared saved =>
    item.sqlType = .text ∧ loaded ≠ .powerupTime ∧ compared = loaded ∧ saved = loaded
  | _ => True

instance : DecidablePred Block.Straight
  | .int _ _ _ _ => inferInstanceAs (Decidable (_ ∧ _))
  | .text _ _ _ _ => inferInstanceAs (Decidable (_ ∧ _))
  | .powerupTime | .poweronTimeSec | .poweronTimeTotalSec | .cleanAreaTotal => .isTrue trivial

theorem blocks_straight : ∀ b ∈ blocks, b.Straight := by
  decide

theorem nodup_items : (blocks.map Block.item).Nodup := by
  decide

theorem nodup_fields : (blocks.map Block.field).Nodup := by
  decide

/-- Every integer field has a block. -/
theorem exists_int_block (f : IntField) : ∃ b ∈ blocks, b.field = .int f := by
  cases f <;> decide

/-- Every text field has a block. -/
theorem exists_text_block (t : TextField) : ∃ b ∈ blocks, b.field = .text t := by
  cases t <;> decide

/-! ## Fields -/

@[simp] theorem IntField.get_set (f g : IntField) (x : VolatileInformation φ) (v : ℤ) :
    f.get (g.set x v) = if f = g then v else f.get x := by
  cases f <;> cases g <;> rfl

@[simp] theorem TextField.get_set (t u : TextField) (x : VolatileInformation φ) (v : List Char) :
    t.get (u.set x v) = if t = u then v else t.get x := by
  cases t <;> cases u <;> rfl

@[simp] theorem TextField.get_set_int (t : TextField) (f : IntField) (x : VolatileInformation φ)
    (v : ℤ) : t.get (f.set x v) = t.get x := by
  cases t <;> cases f <;> rfl

@[simp] theorem IntField.get_set_text (f : IntField) (t : TextField) (x : VolatileInformation φ)
    (v : List Char) : f.get (t.set x v) = f.get x := by
  cases f <;> cases t <;> rfl

@[simp] theorem IntField.noDisturb_set (f : IntField) (x : VolatileInformation φ) (v : ℤ) :
    (f.set x v).noDisturb = x.noDisturb := by
  cases f <;> rfl

@[simp] theorem TextField.noDisturb_set (t : TextField) (x : VolatileInformation φ)
    (v : List Char) : (t.set x v).noDisturb = x.noDisturb := by
  cases t <;> rfl

end Mastiff.Storage

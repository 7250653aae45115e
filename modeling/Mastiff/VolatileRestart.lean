import Mastiff.VolatileInfo

/-!
# Settings after a restart

What `DbLoadSaveVolatile` (`cambrian/storage/dbase_client.cc`) saves, a fresh client loads.

`settings_survive` : for every table of one to eight rows that a client has loaded, and every
assignment to its integer fields, a save goes through, and a fresh load gives exactly the assigned
values. The periods without disturbance and the texts but for the time of the start load as before.
-/

set_option linter.unusedSectionVars false

namespace Mastiff.Storage

open Memory Scanf SortedColumns

variable {δ κ φ V : Type} [LinearOrder κ]

/-! ## What SQLite documents of floats -/

/-- A column of floats is set to a number in every row, or the statement fails : a float may be
printed as no number. -/
def FloatsDocumented (C : Cells κ) (F : Floats φ) (sql : Sqlite δ) (rows : δ → List (ItemRow κ)) :
    Prop :=
  ∀ d item, item.sqlType = .real → ∀ v,
    rows (sql.exec d (SQL_OPERATION_UPDATE_FLOAT TBL_VOLATILE_INFO item.name (F.print v))).1 =
        rows d ∨
      ∃ k t, C.print item k = some t ∧
        rows (sql.exec d (SQL_OPERATION_UPDATE_FLOAT TBL_VOLATILE_INFO item.name (F.print v))).1 =
          (rows d).map (Function.update · item k)

/-! ## A block -/

/-- What a load leaves : the field is read of its column, or the column can be read. -/
def Block.Kept (C : Cells κ) (F : Floats φ) (rs : List (ItemRow κ)) (x : VolatileInformation φ) :
    Block → Prop
  | int item loaded _ _ => readItem C E_CHK_TYPE_INT.row item rs = .ok (loaded.get x)
  | text item loaded _ _ => readItem C E_CHK_TYPE_STRING.row item rs = .ok (loaded.get x)
  | powerupTime => ∃ g, readItem C E_CHK_TYPE_STRING.row .pwrupt rs = .ok g
  | poweronTimeSec => ∃ g, readItem C F.row .pwrsec rs = .ok g
  | poweronTimeTotalSec => ∃ g, readItem C F.row .pwrttl rs = .ok g
  | cleanAreaTotal => ∃ g, readItem C F.row .tcarea rs = .ok g

/-- The column of the block can be read. -/
def Block.Readable (C : Cells κ) (F : Floats φ) (rs : List (ItemRow κ)) : Block → Prop
  | int item _ _ _ => ∃ g, readItem C E_CHK_TYPE_INT.row item rs = .ok g
  | text item _ _ _ => ∃ g, readItem C E_CHK_TYPE_STRING.row item rs = .ok g
  | powerupTime => ∃ g, readItem C E_CHK_TYPE_STRING.row .pwrupt rs = .ok g
  | poweronTimeSec => ∃ g, readItem C F.row .pwrsec rs = .ok g
  | poweronTimeTotalSec => ∃ g, readItem C F.row .pwrttl rs = .ok g
  | cleanAreaTotal => ∃ g, readItem C F.row .tcarea rs = .ok g

/-- Two messages with the same value in a field of the blocks. -/
def SameField (x y : VolatileInformation φ) : Field → Prop
  | .int f => f.get x = f.get y
  | .text t => t.get x = t.get y
  | _ => True

variable {C : Cells κ} {F : Floats φ} {rs rs' : List (ItemRow κ)} {x y z : VolatileInformation φ}
  {b : Block}

theorem SameField.refl (x : VolatileInformation φ) (s : Field) : SameField x x s := by
  rcases s with f | t | _ | _ | _
  exacts [rfl, rfl, trivial, trivial, trivial]

theorem SameField.trans {s : Field} (hxy : SameField x y s) (hyz : SameField y z s) :
    SameField x z s := by
  rcases s with f | t | _ | _ | _
  exacts [Eq.trans hxy hyz, Eq.trans hxy hyz, trivial, trivial, trivial]

theorem Block.Kept.readable (h : b.Kept C F rs x) : b.Readable C F rs := by
  cases b with
  | int item loaded compared saved => exact ⟨_, h⟩
  | text item loaded compared saved => exact ⟨_, h⟩
  | powerupTime | poweronTimeSec | poweronTimeTotalSec | cleanAreaTotal => exact h

theorem Block.Readable.congr (hcolumn : rs'.map (· b.item) = rs.map (· b.item))
    (h : b.Readable C F rs) : b.Readable C F rs' := by
  cases b with
  | int | text | powerupTime | poweronTimeSec | poweronTimeTotalSec | cleanAreaTotal =>
    exact h.imp fun _ hg => (readItem_congr _ hcolumn).trans hg

/-- It depends on the column and the field of the block. -/
theorem Block.Kept.congr (hcolumn : rs'.map (· b.item) = rs.map (· b.item))
    (hfield : SameField y x b.field) (h : b.Kept C F rs x) : b.Kept C F rs' y := by
  cases b with
  | int item loaded compared saved =>
    exact (readItem_congr _ hcolumn).trans (h.trans (congrArg _ hfield.symm))
  | text item loaded compared saved =>
    exact (readItem_congr _ hcolumn).trans (h.trans (congrArg _ hfield.symm))
  | powerupTime | poweronTimeSec | poweronTimeTotalSec | cleanAreaTotal =>
    exact h.imp fun _ hg => (readItem_congr _ hcolumn).trans hg

theorem sameField_set_int {f : IntField} {s : Field} (hs : s ≠ .int f) (v : ℤ) :
    SameField (f.set x v) x s := by
  rcases s with g | t | _ | _ | _
  · have hg : g ≠ f := fun heq => hs (congrArg Field.int heq)
    simp [SameField, hg]
  · simp [SameField]
  all_goals trivial

theorem sameField_set_text {t : TextField} {s : Field} (hs : s ≠ .text t) (v : List Char) :
    SameField (t.set x v) x s := by
  rcases s with f | u | _ | _ | _
  · simp [SameField]
  · have hu : u ≠ t := fun heq => hs (congrArg Field.text heq)
    simp [SameField, hu]
  all_goals trivial

/-- The floats are none of the fields that are compared here. -/
theorem sameField_floats (x : VolatileInformation φ) (sec total area : φ) (s : Field) :
    SameField { x with jobStatistics := { x.jobStatistics with
      poweronTimeSec := sec, poweronTimeTotalSec := total, cleanAreaTotal := area } } x s := by
  rcases s with f | t | _ | _ | _
  · cases f <;> rfl
  · cases t <;> rfl
  all_goals trivial

/-! ## Loading -/

/-- A table that a client can read. -/
structure IsItemTable (rs : List (ItemRow κ)) : Prop where
  ne_nil : rs ≠ []
  length_le : rs.length ≤ 8

section Load

variable {sql : Sqlite δ} {rows : δ → List (ItemRow κ)} {op : DbOperation δ}

theorem dbChkVolatileItem_eq (hdoc : ItemsDocumented C sql rows) (hop : op.sqlInited = true)
    (htable : IsItemTable (rows op.sql3)) (item : VolatileItem) (ty : RowType V) :
    dbChkVolatileItem sql op item ty =
      (do return some (← readItem C ty item (rows op.sql3))) :=
  dbChkSingle_item hdoc hop htable.ne_nil (htable.length_le.trans_lt (by decide)) ty item

/-- A block loads if its column can be read. -/
theorem exists_loadBlock (hdoc : ItemsDocumented C sql rows) (hop : op.sqlInited = true)
    (htable : IsItemTable (rows op.sql3)) (l : Loaded φ) (h : b.Readable C F (rows op.sql3)) :
    ∃ l', loadBlock F sql op l b = .ok l' := by
  cases b with
  | int | text | powerupTime | poweronTimeSec | poweronTimeTotalSec | cleanAreaTotal =>
    obtain ⟨g, hg⟩ := h
    exact ⟨_, by rw [loadBlock, dbChkVolatileItem_eq hdoc hop htable, hg]; rfl⟩

theorem eq_of_put (hdoc : ItemsDocumented C sql rows) (hop : op.sqlInited = true)
    (htable : IsItemTable (rows op.sql3)) {item : VolatileItem} {ty : RowType V}
    {set : VolatileInformation φ → V → VolatileInformation φ} {l l' : Loaded φ}
    (h : (do return l.put set (← dbChkVolatileItem sql op item ty)) = Except.ok l') :
    ∃ g, readItem C ty item (rows op.sql3) = .ok g ∧
      l' = ⟨set l.info g, l.lastNoteHistoryTime⟩ := by
  rw [dbChkVolatileItem_eq hdoc hop htable] at h
  obtain ⟨_, hread, h⟩ := bind_eq_ok.1 h
  obtain ⟨g, hg, hread⟩ := bind_eq_ok.1 hread
  cases hread
  cases h
  exact ⟨g, hg, rfl⟩

/-- A block leaves the periods and the fields of other blocks. -/
theorem loadBlock_spec (hdoc : ItemsDocumented C sql rows) (hop : op.sqlInited = true)
    (htable : IsItemTable (rows op.sql3)) {l l' : Loaded φ} (h : loadBlock F sql op l b = .ok l') :
    b.Kept C F (rows op.sql3) l'.info ∧ l'.info.noDisturb = l.info.noDisturb ∧
      ∀ s ≠ b.field, SameField l'.info l.info s := by
  cases b with
  | int item loaded compared saved =>
    obtain ⟨g, hg, rfl⟩ := eq_of_put hdoc hop htable h
    exact ⟨by simpa [Block.Kept] using hg, by simp, fun s hs => sameField_set_int hs g⟩
  | text item loaded compared saved =>
    obtain ⟨g, hg, rfl⟩ := eq_of_put hdoc hop htable h
    exact ⟨by simpa [Block.Kept] using hg, by simp, fun s hs => sameField_set_text hs g⟩
  | powerupTime =>
    obtain ⟨g, hg, rfl⟩ := eq_of_put hdoc hop htable h
    exact ⟨⟨g, hg⟩, by simp, fun s hs => sameField_set_text hs g⟩
  | poweronTimeSec | cleanAreaTotal =>
    obtain ⟨g, hg, rfl⟩ := eq_of_put hdoc hop htable h
    exact ⟨⟨g, hg⟩, rfl, fun s _ => sameField_floats l.info _ _ _ s⟩
  | poweronTimeTotalSec =>
    rw [loadBlock, dbChkVolatileItem_eq hdoc hop htable] at h
    obtain ⟨_, hread, h⟩ := bind_eq_ok.1 h
    obtain ⟨g, hg, hread⟩ := bind_eq_ok.1 hread
    cases hread
    cases h
    exact ⟨⟨g, hg⟩, rfl, fun s _ => sameField_floats l.info _ _ _ s⟩

/-- Blocks load if their columns can be read. -/
theorem exists_loadBlocks (hdoc : ItemsDocumented C sql rows) (hop : op.sqlInited = true)
    (htable : IsItemTable (rows op.sql3)) {bs : List Block}
    (h : ∀ b ∈ bs, b.Readable C F (rows op.sql3)) (l : Loaded φ) :
    ∃ l', bs.foldlM (loadBlock F sql op) l = .ok l' := by
  induction bs generalizing l with
  | nil => exact ⟨l, rfl⟩
  | cons b bs ih =>
    obtain ⟨hb, hbs⟩ := List.forall_mem_cons.1 h
    obtain ⟨l₁, hl₁⟩ := exists_loadBlock hdoc hop htable l hb
    obtain ⟨l₂, hl₂⟩ := ih hbs l₁
    exact ⟨l₂, by rw [List.foldlM_cons, hl₁, ok_bind, hl₂]⟩

/-- Every field is read of its column, none being set by two blocks. -/
theorem loadBlocks_spec (hdoc : ItemsDocumented C sql rows) (hop : op.sqlInited = true)
    (htable : IsItemTable (rows op.sql3)) {bs : List Block} (hnodup : (bs.map Block.field).Nodup)
    {l l' : Loaded φ} (h : bs.foldlM (loadBlock F sql op) l = .ok l') :
    (∀ b ∈ bs, b.Kept C F (rows op.sql3) l'.info) ∧ l'.info.noDisturb = l.info.noDisturb ∧
      ∀ s, s ∉ bs.map Block.field → SameField l'.info l.info s := by
  induction bs generalizing l with
  | nil =>
    cases h
    exact ⟨fun b hb => absurd hb List.not_mem_nil, rfl, fun s _ => .refl _ s⟩
  | cons b bs ih =>
    rw [List.foldlM_cons] at h
    obtain ⟨l₁, hl₁, h⟩ := bind_eq_ok.1 h
    rw [List.map_cons, List.nodup_cons] at hnodup
    obtain ⟨hkept, hperiods, hsame⟩ := loadBlock_spec hdoc hop htable hl₁
    obtain ⟨hrest, hperiods', hsame'⟩ := ih hnodup.2 h
    refine ⟨List.forall_mem_cons.2 ⟨?_, hrest⟩, hperiods'.trans hperiods, fun s hs => ?_⟩
    · exact hkept.congr rfl (hsame' b.field hnodup.1)
    · obtain ⟨hb, hbs⟩ := not_or.1 (List.mem_cons.not.1 hs)
      exact (hsame' s hbs).trans (hsame s hb)

end Load

/-! ## Saving -/

/-- The column of a block can be read, a number is one of 32 bits, and a text is the one read. -/
def Block.Ready (C : Cells κ) (F : Floats φ) (rs : List (ItemRow κ)) (x : VolatileInformation φ)
    (b : Block) : Prop :=
  b.Readable C F rs ∧
    match b with
    | int _ loaded _ _ => -2 ^ 31 ≤ loaded.get x ∧ loaded.get x < 2 ^ 31
    | text item loaded _ _ => readItem C E_CHK_TYPE_STRING.row item rs = .ok (loaded.get x)
    | _ => True

/-- What a block leaves when it saves : the rows but for its column, the periods, the fields but for
the time of the start, and a column of which the field is read. -/
structure BlockSaved (C : Cells κ) (F : Floats φ) (rows : δ → List (ItemRow κ)) (b : Block)
    (s s' : DbOperation δ × Loaded φ) : Prop where
  inited : s'.1.sqlInited = s.1.sqlInited
  length : (rows s'.1.sql3).length = (rows s.1.sql3).length
  others : ∀ item ≠ b.item, (rows s'.1.sql3).map (· item) = (rows s.1.sql3).map (· item)
  periods : s'.2.info.noDisturb = s.2.info.noDisturb
  fields : ∀ f ≠ .text .powerupTime, SameField s'.2.info s.2.info f
  kept : b.Kept C F (rows s'.1.sql3) s'.2.info

theorem map_update_of_ne {item other : VolatileItem} (hother : other ≠ item) (k : κ)
    (rs : List (ItemRow κ)) :
    (rs.map (Function.update · item k)).map (· other) = rs.map (· other) := by
  rw [List.map_map]
  refine List.map_congr_left fun r _ => ?_
  rw [Function.comp_apply, Function.update_of_ne hother]

theorem forall_mem_map_update (item : VolatileItem) (k : κ) (rs : List (ItemRow κ)) :
    ∀ r ∈ rs.map (Function.update · item k), r item = k := by
  rw [List.forall_mem_map]
  intro r _
  rw [Function.update_self]

/-- A column of floats that is set can be read. -/
theorem exists_readItem_float {item : VolatileItem} {k : κ} {t : List Char}
    (hprint : C.print item k = some t) (hrs : ∀ r ∈ rs, r item = k) :
    ∃ g, readItem C F.row item rs = .ok g :=
  ⟨_, by rw [readItem_replicate _ hrs hprint]; rfl⟩

section Save

variable {sql : Sqlite δ} {rows : δ → List (ItemRow κ)} {up : SysUp φ}
  {s : DbOperation δ × Loaded φ}

theorem Block.Kept.blockSaved (h : b.Kept C F (rows s.1.sql3) s.2.info) :
    BlockSaved C F rows b s s :=
  ⟨rfl, rfl, fun _ _ => rfl, rfl, fun f _ => .refl _ f, h⟩

theorem saveBlock_int (hdoc : ItemsDocumented C sql rows) (hop : s.1.sqlInited = true)
    (htable : IsItemTable (rows s.1.sql3)) {item : VolatileItem} {f : IntField}
    (hitem : item.sqlType = .integer)
    (hready : (Block.int item f f f).Ready C F (rows s.1.sql3) s.2.info) :
    ∃ s', saveBlock F up sql s (.int item f f f) = .ok s' ∧
      BlockSaved C F rows (.int item f f f) s s' := by
  obtain ⟨⟨g, hg⟩, hrange⟩ := hready
  rw [saveBlock, dbChkVolatileItem_eq hdoc hop htable, hg]
  simp only [ok_bind, pure_eq_ok]
  split_ifs with heq
  · have hrows : rows (dbUpdtInt sql s.1 item (f.get s.2.info)).sql3 =
        (rows s.1.sql3).map (Function.update · item (C.ofInt (f.get s.2.info))) :=
      hdoc.updateInt s.1.sql3 item hitem (f.get s.2.info) hrange.1 hrange.2
    refine ⟨_, rfl, rfl, by simp [hrows], fun other hother => ?_, rfl, fun h _ => .refl _ h, ?_⟩
    · rw [hrows]
      exact map_update_of_ne hother _ _
    · dsimp only [Block.Kept]
      rw [hrows]
      exact readItem_int hitem hrange (by simpa using htable.ne_nil) (forall_mem_map_update _ _ _)
  · rw [not_not] at heq
    exact ⟨s, rfl, Block.Kept.blockSaved (by rw [Block.Kept, heq]; exact hg)⟩

theorem saveBlock_text (hdoc : ItemsDocumented C sql rows) (hop : s.1.sqlInited = true)
    (htable : IsItemTable (rows s.1.sql3)) {item : VolatileItem} {t : TextField}
    (hread : readItem C E_CHK_TYPE_STRING.row item (rows s.1.sql3) = .ok (t.get s.2.info)) :
    ∃ s', saveBlock F up sql s (.text item t t t) = .ok s' ∧
      BlockSaved C F rows (.text item t t t) s s' := by
  rw [saveBlock, dbChkVolatileItem_eq hdoc hop htable, hread]
  simp only [ok_bind, pure_eq_ok]
  rw [if_neg (by simp)]
  exact ⟨s, rfl, Block.Kept.blockSaved hread⟩

/-- The time of the start is updated. -/
theorem timeSaved (hdoc : ItemsDocumented C sql rows) {op op' : DbOperation δ}
    (htable : IsItemTable (rows op.sql3))
    (h : dbUpdtString sql op .pwrupt up.time = .ok op') :
    op'.sqlInited = op.sqlInited ∧ (rows op'.sql3).length = (rows op.sql3).length ∧
      (∀ other ≠ .pwrupt, (rows op'.sql3).map (· other) = (rows op.sql3).map (· other)) ∧
      ∃ g, readItem C E_CHK_TYPE_STRING.row .pwrupt (rows op'.sql3) = .ok g := by
  obtain ⟨hquote, hnul⟩ := up.literal_time
  obtain ⟨v, hv, h⟩ := bind_eq_ok.1 h
  obtain rfl := eq_of_store_text hnul hv
  cases h
  have hrows : rows (sqlUpdate sql op (SQL_OPERATION_UPDATE_STRING TBL_VOLATILE_INFO
      VolatileItem.pwrupt.name up.time)).1.sql3 =
        (rows op.sql3).map (Function.update · .pwrupt (C.ofText up.time)) :=
    (hdoc.updateText op.sql3 .pwrupt rfl up.time up.time hnul (unquote_of_not_mem hquote)).2
  rw [hrows]
  refine ⟨rfl, List.length_map _, fun other hother => map_update_of_ne hother _ _, ?_⟩
  exact exists_readItem_text (C.print_ofText .pwrupt rfl up.time hnul) up.length_time
    (by simpa using htable.ne_nil) (by simpa using htable.length_le) (forall_mem_map_update _ _ _)

theorem saveBlock_powerupTime (hdoc : ItemsDocumented C sql rows) (hop : s.1.sqlInited = true)
    (htable : IsItemTable (rows s.1.sql3))
    (hread : Block.powerupTime.Readable C F (rows s.1.sql3)) :
    ∃ s', saveBlock F up sql s .powerupTime = .ok s' ∧
      BlockSaved C F rows .powerupTime s s' := by
  obtain ⟨g, hg⟩ := hread
  have hstore : E_CHK_TYPE_STRING.store up.time = .ok up.time :=
    (store_text_eq_ok_iff up.literal_time.2).2 (up.length_time.trans_lt (by decide))
  obtain ⟨op', hop'⟩ : ∃ op', dbUpdtString sql s.1 .pwrupt up.time = .ok op' :=
    ⟨_, by rw [dbUpdtString, hstore]; rfl⟩
  obtain ⟨hinited, hlen, hothers, hread⟩ := timeSaved hdoc htable hop'
  rw [saveBlock, dbChkVolatileItem_eq hdoc hop htable, hg]
  simp only [ok_bind, pure_eq_ok, hop']
  split_ifs
  · exact ⟨_, rfl, hinited, hlen, hothers, rfl, fun f hf => sameField_set_text hf up.time, hread⟩
  · exact ⟨s, rfl, Block.Kept.blockSaved ⟨g, hg⟩⟩

/-- A block of floats that updates its column. -/
theorem floatSaved (hfloats : FloatsDocumented C F sql rows) (op : DbOperation δ)
    {item : VolatileItem} (hitem : item.sqlType = .real)
    (hread : ∃ g, readItem C F.row item (rows op.sql3) = .ok g) (v : φ) :
    (rows (dbUpdtFloat F sql op item v).sql3).length = (rows op.sql3).length ∧
      (∀ other ≠ item, (rows (dbUpdtFloat F sql op item v).sql3).map (· other) =
        (rows op.sql3).map (· other)) ∧
      ∃ g, readItem C F.row item (rows (dbUpdtFloat F sql op item v).sql3) = .ok g := by
  rcases hfloats op.sql3 item hitem v with hrows | ⟨k, t, hprint, hrows⟩
  · have hsame : rows (dbUpdtFloat F sql op item v).sql3 = rows op.sql3 := hrows
    rw [hsame]
    exact ⟨rfl, fun _ _ => rfl, hread⟩
  · have hset : rows (dbUpdtFloat F sql op item v).sql3 =
        (rows op.sql3).map (Function.update · item k) := hrows
    rw [hset]
    exact ⟨List.length_map _, fun other hother => map_update_of_ne hother k _,
      exists_readItem_float hprint (forall_mem_map_update item k _)⟩

/-- Every block saves. -/
theorem exists_saveBlock (hdoc : ItemsDocumented C sql rows)
    (hfloats : FloatsDocumented C F sql rows) (hop : s.1.sqlInited = true)
    (htable : IsItemTable (rows s.1.sql3)) (hstraight : b.Straight)
    (hready : b.Ready C F (rows s.1.sql3) s.2.info) :
    ∃ s', saveBlock F up sql s b = .ok s' ∧ BlockSaved C F rows b s s' := by
  cases b with
  | int item loaded compared saved =>
    obtain ⟨hitem, rfl, rfl⟩ := hstraight
    exact saveBlock_int hdoc hop htable hitem hready
  | text item loaded compared saved =>
    obtain ⟨-, -, rfl, rfl⟩ := hstraight
    exact saveBlock_text hdoc hop htable hready.2
  | powerupTime => exact saveBlock_powerupTime hdoc hop htable hready.1
  | poweronTimeSec =>
    obtain ⟨⟨g, hg⟩, -⟩ := hready
    rw [saveBlock, dbChkVolatileItem_eq hdoc hop htable, hg]
    obtain ⟨hlen, hothers, hread⟩ := floatSaved hfloats s.1 rfl ⟨g, hg⟩ up.secs
    exact ⟨_, rfl, rfl, hlen, hothers, rfl, fun f _ => sameField_floats s.2.info _ _ _ f, hread⟩
  | poweronTimeTotalSec =>
    obtain ⟨⟨g, hg⟩, -⟩ := hready
    rw [saveBlock, dbChkVolatileItem_eq hdoc hop htable, hg]
    obtain ⟨hlen, hothers, hread⟩ := floatSaved hfloats s.1 rfl ⟨g, hg⟩
      (F.add s.2.info.jobStatistics.poweronTimeSec s.2.lastNoteHistoryTime)
    exact ⟨_, rfl, rfl, hlen, hothers, rfl, fun f _ => sameField_floats s.2.info _ _ _ f, hread⟩
  | cleanAreaTotal =>
    obtain ⟨⟨g, hg⟩, -⟩ := hready
    rw [saveBlock, dbChkVolatileItem_eq hdoc hop htable, hg]
    simp only [ok_bind, pure_eq_ok]
    split_ifs
    · obtain ⟨hlen, hothers, hread⟩ := floatSaved hfloats s.1 rfl ⟨g, hg⟩
        s.2.info.jobStatistics.cleanAreaTotal
      exact ⟨_, rfl, rfl, hlen, hothers, rfl, fun f _ => .refl _ f, hread⟩
    · exact ⟨s, rfl, Block.Kept.blockSaved ⟨g, hg⟩⟩

/-- The fields but for the time of the start are enough. -/
theorem Block.Kept.congr_of_straight (hstraight : b.Straight)
    (hcolumn : rs'.map (· b.item) = rs.map (· b.item))
    (hfields : ∀ f ≠ .text .powerupTime, SameField y x f) (h : b.Kept C F rs x) :
    b.Kept C F rs' y := by
  cases b with
  | int item loaded compared saved => exact h.congr hcolumn (hfields (.int loaded) (by simp))
  | text item loaded compared saved =>
    exact h.congr hcolumn (hfields (.text loaded) (by simpa using hstraight.2.1))
  | powerupTime => exact h.imp fun _ hg => (readItem_congr _ hcolumn).trans hg
  | poweronTimeSec | poweronTimeTotalSec | cleanAreaTotal => exact h.congr hcolumn trivial

theorem Block.Ready.congr_of_straight (hstraight : b.Straight)
    (hcolumn : rs'.map (· b.item) = rs.map (· b.item))
    (hfields : ∀ f ≠ .text .powerupTime, SameField y x f) (h : b.Ready C F rs x) :
    b.Ready C F rs' y := by
  refine ⟨h.1.congr hcolumn, ?_⟩
  cases b with
  | int item loaded compared saved =>
    have hsame : loaded.get y = loaded.get x := hfields (.int loaded) (by simp)
    dsimp only
    rw [hsame]
    exact h.2
  | text item loaded compared saved =>
    have hsame : loaded.get y = loaded.get x :=
      hfields (.text loaded) (by simpa using hstraight.2.1)
    dsimp only
    rw [hsame]
    exact (readItem_congr _ hcolumn).trans h.2
  | powerupTime | poweronTimeSec | poweronTimeTotalSec | cleanAreaTotal => trivial

/-- Blocks of different columns save. -/
theorem exists_saveBlocks (up : SysUp φ) (hdoc : ItemsDocumented C sql rows)
    (hfloats : FloatsDocumented C F sql rows) (hop : s.1.sqlInited = true)
    (htable : IsItemTable (rows s.1.sql3)) {bs : List Block}
    (hnodup : (bs.map Block.item).Nodup)
    (hready : ∀ b ∈ bs, b.Straight ∧ b.Ready C F (rows s.1.sql3) s.2.info) :
    ∃ s', bs.foldlM (saveBlock F up sql) s = .ok s' ∧ IsItemTable (rows s'.1.sql3) ∧
      (∀ item ∉ bs.map Block.item, (rows s'.1.sql3).map (· item) = (rows s.1.sql3).map (· item)) ∧
      s'.2.info.noDisturb = s.2.info.noDisturb ∧
      (∀ f ≠ .text .powerupTime, SameField s'.2.info s.2.info f) ∧
      ∀ b ∈ bs, b.Kept C F (rows s'.1.sql3) s'.2.info := by
  induction bs generalizing s with
  | nil =>
    exact ⟨s, rfl, htable, fun _ _ => rfl, rfl, fun f _ => .refl _ f,
      fun b hb => absurd hb List.not_mem_nil⟩
  | cons b bs ih =>
    rw [List.map_cons, List.nodup_cons] at hnodup
    obtain ⟨⟨hstraight, hb⟩, hbs⟩ := List.forall_mem_cons.1 hready
    obtain ⟨s₁, hs₁, hsaved⟩ := exists_saveBlock hdoc hfloats hop htable hstraight hb
    have htable₁ : IsItemTable (rows s₁.1.sql3) := by
      refine ⟨fun hnil => htable.ne_nil ?_, hsaved.length.trans_le htable.length_le⟩
      rw [← List.length_eq_zero_iff, ← hsaved.length, hnil, List.length_nil]
    have hready₁ : ∀ b' ∈ bs, b'.Straight ∧ b'.Ready C F (rows s₁.1.sql3) s₁.2.info := by
      intro b' hb'
      obtain ⟨hstraight', hready'⟩ := hbs b' hb'
      have hne : b'.item ≠ b.item := by
        intro heq
        exact hnodup.1 (heq ▸ List.mem_map_of_mem hb')
      exact ⟨hstraight',
        hready'.congr_of_straight hstraight' (hsaved.others _ hne) hsaved.fields⟩
    obtain ⟨s', hs', htable', hothers, hperiods, hfields, hkept⟩ :=
      ih (hsaved.inited.trans hop) htable₁ hnodup.2 hready₁
    refine ⟨s', by rw [List.foldlM_cons, hs₁, ok_bind, hs'], htable', fun item hitem => ?_,
      hperiods.trans hsaved.periods, fun f hf => (hfields f hf).trans (hsaved.fields f hf),
      List.forall_mem_cons.2 ⟨?_, hkept⟩⟩
    · obtain ⟨hne, hmem⟩ := not_or.1 (List.mem_cons.not.1 hitem)
      exact (hothers item hmem).trans (hsaved.others item hne)
    · exact hsaved.kept.congr_of_straight hstraight (hothers b.item hnodup.1) hfields

end Save

/-! ## The periods without disturbance -/

section Periods

variable {sql : Sqlite δ} {rows : δ → List (ItemRow κ)} {op : DbOperation δ}
  {xs : List NoDisturb}

/-- What is read of a column of the periods. -/
def readPeriods (C : Cells κ) (ty : ChkDbType V) (item : VolatileItem) (rs : List (ItemRow κ)) :
    Except DbFault (List V) :=
  readCells ty ((descending (rs.map (· item))).map (C.print item))

/-- The columns of the periods are read as a list. -/
def PeriodsRead (C : Cells κ) (rs : List (ItemRow κ)) (xs : List NoDisturb) : Prop :=
  ∃ ms ss es ys, readPeriods C E_CHK_TYPE_INT .ndstmd rs = .ok ms ∧
    readPeriods C E_CHK_TYPE_STRING .ndssta rs = .ok ss ∧
    setFields startColumn (added ms) ss = .ok ys ∧
    readPeriods C E_CHK_TYPE_STRING .ndsend rs = .ok es ∧ setFields endColumn ys es = .ok xs

theorem dbChkVolatile_periods (hdoc : ItemsDocumented C sql rows) (hop : op.sqlInited = true)
    (htable : IsItemTable (rows op.sql3)) (item : VolatileItem) {c : VolatileColumn V}
    (hc : c.item = item.name) :
    dbChkVolatile sql op c = (do return some (← readPeriods C c.type item (rows op.sql3))) := by
  obtain ⟨t, ht, hholds⟩ := cells_of_documented hdoc htable.ne_nil item
  have hlen := htable.length_le
  rw [dbChkVolatile, hc]
  exact dbChkItem_eq hop item.newline_not_mem_name c.type ht hholds (by simp; omega)

theorem dbChkVolatile_of_read (hdoc : ItemsDocumented C sql rows) (hop : op.sqlInited = true)
    (htable : IsItemTable (rows op.sql3)) {item : VolatileItem} {c : VolatileColumn V}
    (hc : c.item = item.name) {gs : List V}
    (h : readPeriods C c.type item (rows op.sql3) = .ok gs) :
    dbChkVolatile sql op c = .ok (some gs) := by
  rw [dbChkVolatile_periods hdoc hop htable item hc, h]
  rfl

/-- A load of the periods reads their columns. -/
theorem load_periods_eq (hdoc : ItemsDocumented C sql rows) (hop : op.sqlInited = true)
    (htable : IsItemTable (rows op.sql3)) :
    dbLoadSaveVolatile sql op none = (do
      let ms ← readPeriods C E_CHK_TYPE_INT .ndstmd (rows op.sql3)
      let ss ← readPeriods C E_CHK_TYPE_STRING .ndssta (rows op.sql3)
      let ys ← setFields startColumn (added ms) ss
      let es ← readPeriods C E_CHK_TYPE_STRING .ndsend (rows op.sql3)
      let zs ← setFields endColumn ys es
      return (op, some zs)) := by
  have hmode : dbChkVolatile sql op modeColumn =
      (do return some (← readPeriods C E_CHK_TYPE_INT .ndstmd (rows op.sql3))) :=
    dbChkVolatile_periods hdoc hop htable .ndstmd rfl
  have hstart : dbChkVolatile sql op startColumn =
      (do return some (← readPeriods C E_CHK_TYPE_STRING .ndssta (rows op.sql3))) :=
    dbChkVolatile_periods hdoc hop htable .ndssta rfl
  have hend : dbChkVolatile sql op endColumn =
      (do return some (← readPeriods C E_CHK_TYPE_STRING .ndsend (rows op.sql3))) :=
    dbChkVolatile_periods hdoc hop htable .ndsend rfl
  rw [dbLoadSaveVolatile, if_neg (by simp [hop])]
  simp only [loadSwitches, loadColumn, hmode, hstart, hend, bind_assoc, pure_bind]
  rfl

theorem load_periods_iff (hdoc : ItemsDocumented C sql rows) (hop : op.sqlInited = true)
    (htable : IsItemTable (rows op.sql3)) {r : DbOperation δ × Option (List NoDisturb)} :
    dbLoadSaveVolatile sql op none = .ok r ↔
      ∃ xs, r = (op, some xs) ∧ PeriodsRead C (rows op.sql3) xs := by
  rw [load_periods_eq hdoc hop htable]
  constructor
  · intro h
    obtain ⟨ms, hms, h⟩ := bind_eq_ok.1 h
    obtain ⟨ss, hss, h⟩ := bind_eq_ok.1 h
    obtain ⟨ys, hys, h⟩ := bind_eq_ok.1 h
    obtain ⟨es, hes, h⟩ := bind_eq_ok.1 h
    obtain ⟨zs, hzs, h⟩ := bind_eq_ok.1 h
    cases h
    exact ⟨zs, rfl, ms, ss, es, ys, hms, hss, hys, hes, hzs⟩
  · rintro ⟨xs, rfl, ms, ss, es, ys, hms, hss, hys, hes, hxs⟩
    rw [hms, ok_bind, hss, ok_bind, hys, ok_bind, hes, ok_bind, hxs]
    rfl

theorem PeriodsRead.congr (h : PeriodsRead C rs xs)
    (hcolumns : ∀ item, item = .ndstmd ∨ item = .ndssta ∨ item = .ndsend →
      rs'.map (· item) = rs.map (· item)) : PeriodsRead C rs' xs := by
  obtain ⟨ms, ss, es, ys, hms, hss, hys, hes, hxs⟩ := h
  refine ⟨ms, ss, es, ys, ?_, ?_, hys, ?_, hxs⟩
  · rw [readPeriods, hcolumns .ndstmd (.inl rfl)]
    exact hms
  · rw [readPeriods, hcolumns .ndssta (.inr (.inl rfl))]
    exact hss
  · rw [readPeriods, hcolumns .ndsend (.inr (.inr rfl))]
    exact hes

theorem length_le_of_chkLines {ty : ChkDbType V} {room : ℕ} {cursor : List Char} {vs : List V}
    (h : chkLines ty room cursor = .ok vs) : vs.length ≤ room := by
  induction room generalizing cursor vs with
  | zero => cases h
  | succ room ih =>
    rw [chkLines] at h
    obtain ⟨v, -, h⟩ := bind_eq_ok.1 h
    split at h
    · cases h
    · split_ifs at h
      · obtain ⟨ws, hws, h⟩ := bind_eq_ok.1 h
        cases h
        exact Nat.succ_le_succ (ih hws)
      · cases h
        exact Nat.succ_le_succ (Nat.zero_le room)

theorem length_le_of_readPeriods {ty : ChkDbType V} {item : VolatileItem} {vs : List V}
    (h : readPeriods C ty item rs = .ok vs) : vs.length ≤ 8 := by
  obtain ⟨lines, -, h⟩ := bind_eq_ok.1 h
  exact length_le_of_chkLines h

theorem dbUpdtVolatile_of_ignore {c : VolatileColumn V} {dbd : List (DbEntry V)}
    (h : ∀ e ∈ dbd, e.ignore = true) : dbUpdtVolatile sql op c dbd = op := by
  induction dbd with
  | nil => rfl
  | cons e dbd ih =>
    obtain ⟨he, hdbd⟩ := List.forall_mem_cons.1 h
    rw [dbUpdtVolatile, dbUpdtItem, List.foldl_cons, if_pos he]
    exact ih hdbd

theorem changes_of_eq [DecidableEq V] {c : VolatileColumn V} {gs : List V} {xs : List NoDisturb}
    (hlen : gs.length ≤ xs.length) (hget : (xs.take gs.length).map c.get = gs.map c.norm) :
    changes c.type c.norm c.get gs xs = .ok (List.zipWith (entry c) gs xs) := by
  induction gs generalizing xs with
  | nil => rfl
  | cons g gs ih =>
    cases xs with
    | nil => simp at hlen
    | cons x xs =>
      obtain ⟨hx, hxs⟩ := List.cons.inj hget
      rw [changes, ih (by simpa using hlen) hxs, if_pos hx, List.zipWith_cons_cons, entry,
        decide_eq_true hx]
      rfl

/-- A column of the periods is not updated if no value has changed. -/
theorem saveColumn_of_eq [DecidableEq V] {c : VolatileColumn V} {gs : List V}
    (hchk : dbChkVolatile sql op c = .ok (some gs)) (hlen : gs.length ≤ xs.length)
    (hget : (xs.take gs.length).map c.get = gs.map c.norm) (h8 : xs.length ≤ 8)
    (hrest : ∀ x ∈ xs.drop gs.length, c.Accepts x) : saveColumn sql op c xs = .ok op := by
  have hignore := (forall_ignore_iff hlen).2 hget
  rw [saveColumn, hchk, ok_bind]
  dsimp only
  rw [changes_of_eq hlen hget, ok_bind, increase_eq (by rw [List.length_drop]; omega) hrest,
    dbUpdtVolatile_of_ignore hignore]
  rfl

/-- The texts that have been loaded are those read, and empty from there on. -/
theorem saveColumn_text {c : VolatileColumn (List Char)} {gs ts : List (List Char)}
    (hchk : dbChkVolatile sql op c = .ok (some gs)) (htype : c.type = E_CHK_TYPE_STRING)
    (hliteral : c.Literal []) (hget : xs.map c.get = gs.map c.norm ++ ts) (hts : ∀ t ∈ ts, t = [])
    (h8 : xs.length ≤ 8) : saveColumn sql op c xs = .ok op := by
  have hlen : gs.length ≤ xs.length := by
    have hlength := congrArg List.length hget
    simp only [List.length_map, List.length_append] at hlength
    omega
  refine saveColumn_of_eq hchk hlen ?_ h8 fun x hx => ?_
  · rw [List.map_take, hget, ← List.length_map (f := c.norm), List.take_left]
  · have hempty : c.get x = [] := by
      refine hts _ ?_
      have hmem := List.mem_map_of_mem (f := c.get) hx
      rwa [List.map_drop, hget, ← List.length_map (f := c.norm), List.drop_left] at hmem
    refine ⟨by rwa [hempty], ?_⟩
    rw [hempty, htype]
    rfl

/-- Periods that have been loaded are saved without a statement. -/
theorem save_periods (hdoc : ItemsDocumented C sql rows) (hop : op.sqlInited = true)
    (htable : IsItemTable (rows op.sql3)) (h : PeriodsRead C (rows op.sql3) xs) :
    dbLoadSaveVolatile sql op (some xs) = .ok (op, some xs) := by
  obtain ⟨ms, ss, es, ys, hms, hss, hys, hes, hxs⟩ := h
  have hmode : xs.map modeColumn.get = ms.map modeColumn.norm :=
    (map_get_of_setFields_other (fun _ _ => rfl) hxs).trans
      ((map_get_of_setFields_other (fun _ _ => rfl) hys).trans (map_get_added ms))
  have hstart : xs.map startColumn.get = ys.map startColumn.get :=
    map_get_of_setFields_other (fun _ _ => rfl) hxs
  have hend : ys.map endColumn.get = (added ms).map endColumn.get :=
    map_get_of_setFields_other (fun _ _ => rfl) hys
  have hlen : xs.length = ms.length := by simpa using congrArg List.length hmode
  have h8 : xs.length ≤ 8 := hlen.trans_le (length_le_of_readPeriods hms)
  have hsaveMode : saveColumn sql op modeColumn xs = .ok op := by
    refine saveColumn_of_eq (dbChkVolatile_of_read hdoc hop htable rfl hms) hlen.ge ?_ h8
      fun x _ => accepts_mode x
    rw [← hlen, List.take_length, hmode]
  have hsaveStart : saveColumn sql op startColumn xs = .ok op := by
    refine saveColumn_text (dbChkVolatile_of_read hdoc hop htable rfl hss) rfl ⟨by simp, by simp⟩
      (hstart.trans (map_get_of_setFields lawful_start hys)) (fun t ht => ?_) h8
    exact text_added (fun _ => rfl) ms t (List.map_subset _ (List.drop_subset _ _) ht)
  have hsaveEnd : saveColumn sql op endColumn xs = .ok op := by
    refine saveColumn_text (dbChkVolatile_of_read hdoc hop htable rfl hes) rfl ⟨by simp, by simp⟩
      (map_get_of_setFields lawful_end hxs) (fun t ht => ?_) h8
    refine text_added (c := endColumn) (fun _ => rfl) ms t ?_
    rw [← hend]
    exact List.map_subset _ (List.drop_subset _ _) ht
  rw [dbLoadSaveVolatile, if_neg (by simp [hop])]
  simp only [hsaveMode, hsaveStart, hsaveEnd, ok_bind, pure_eq_ok]

end Periods

/-! ## The restart -/

/-- A message of which only integers and floats have changed, with numbers of 32 bits. -/
structure Reassigned (x y : VolatileInformation φ) : Prop where
  periods : y.noDisturb = x.noDisturb
  texts : ∀ t : TextField, t.get y = t.get x
  range : ∀ f : IntField, -2 ^ 31 ≤ f.get y ∧ f.get y < 2 ^ 31

theorem Block.Kept.ready (hxy : Reassigned x y) (h : b.Kept C F rs x) : b.Ready C F rs y := by
  refine ⟨h.readable, ?_⟩
  cases b with
  | int item loaded compared saved => exact hxy.range loaded
  | text item loaded compared saved =>
    dsimp only
    rw [hxy.texts loaded]
    exact h
  | powerupTime | poweronTimeSec | poweronTimeTotalSec | cleanAreaTotal => trivial

/-- Two messages that are read of the same column. -/
theorem Block.Kept.sameField (hx : b.Kept C F rs x) (hy : b.Kept C F rs y)
    (hfield : b.field ≠ .text .powerupTime) : SameField x y b.field := by
  cases b with
  | int item loaded compared saved => exact Except.ok.inj (hx.symm.trans hy)
  | text item loaded compared saved => exact Except.ok.inj (hx.symm.trans hy)
  | powerupTime => exact absurd rfl hfield
  | poweronTimeSec | poweronTimeTotalSec | cleanAreaTotal => trivial

section Restart

variable {sql : Sqlite δ} {rows : δ → List (ItemRow κ)} {op op₁ : DbOperation δ}

/-- A load goes through exactly if the columns can be read, and gives what is read. -/
theorem load_spec (hdoc : ItemsDocumented C sql rows) (htable : IsItemTable (rows op.sql3))
    {up : SysUp φ} {last last' : φ}
    (h : dbLoadSaveInfo F up sql op none last = .ok (op₁, some x, last')) :
    op.sqlInited = true ∧ op₁ = op ∧ PeriodsRead C (rows op.sql3) x.noDisturb ∧
      ∀ b ∈ blocks, b.Kept C F (rows op.sql3) x := by
  rw [dbLoadSaveInfo] at h
  split_ifs at h with hinited
  · cases h
  rw [Bool.not_eq_false] at hinited
  obtain ⟨r, hr, h⟩ := bind_eq_ok.1 h
  obtain ⟨xs, rfl, hperiods⟩ := (load_periods_iff hdoc hinited htable).1 hr
  obtain ⟨l, hl, h⟩ := bind_eq_ok.1 h
  cases h
  obtain ⟨hkept, hxs, -⟩ := loadBlocks_spec hdoc hinited htable nodup_fields hl
  refine ⟨hinited, rfl, ?_, hkept⟩
  rw [hxs]
  exact hperiods

theorem exists_load (hdoc : ItemsDocumented C sql rows) (hop : op.sqlInited = true)
    (htable : IsItemTable (rows op.sql3)) {xs : List NoDisturb}
    (hperiods : PeriodsRead C (rows op.sql3) xs)
    (hread : ∀ b ∈ blocks, b.Readable C F (rows op.sql3)) (up : SysUp φ) (last : φ) :
    ∃ z last', dbLoadSaveInfo F up sql op none last = .ok (op, some z, last') ∧
      z.noDisturb = xs ∧ ∀ b ∈ blocks, b.Kept C F (rows op.sql3) z := by
  obtain ⟨l, hl⟩ := exists_loadBlocks hdoc hop htable hread ⟨VolatileInformation.empty F xs, last⟩
  obtain ⟨hkept, hxs, -⟩ := loadBlocks_spec hdoc hop htable nodup_fields hl
  refine ⟨l.info, l.lastNoteHistoryTime, ?_, hxs, hkept⟩
  rw [dbLoadSaveInfo, if_neg (by simp [hop])]
  dsimp only
  rw [(load_periods_iff hdoc hop htable).2 ⟨xs, rfl, hperiods⟩, ok_bind]
  dsimp only
  rw [Option.getD_some, hl]
  rfl

/-- For every table of one to eight rows that a client has loaded, and every assignment of numbers
of 32 bits to the integer fields, a save goes through, and a client that opens the file afterwards
loads exactly these numbers, and the periods and all texts but the time of the start as before. -/
theorem settings_survive (hdoc : ItemsDocumented C sql rows)
    (hfloats : FloatsDocumented C F sql rows) (htable : IsItemTable (rows op.sql3))
    {up : SysUp φ} {last last' : φ}
    (hload : dbLoadSaveInfo F up sql op none last = .ok (op₁, some x, last'))
    (hxy : Reassigned x y) (up₁ : SysUp φ) :
    ∃ op' y' last₁, dbLoadSaveInfo F up₁ sql op₁ (some y) last' = .ok (op', some y', last₁) ∧
      ∀ (up₂ : SysUp φ) (last₂ : φ), ∃ op'' z last₃,
        dbLoadSaveInfo F up₂ sql (sqlInit sql (some op'.sql3)) none last₂ =
            .ok (op'', some z, last₃) ∧
          (∀ f : IntField, f.get z = f.get y) ∧ z.noDisturb = x.noDisturb ∧
            ∀ t : TextField, t ≠ .powerupTime → t.get z = t.get x := by
  obtain ⟨hop, rfl, hperiods, hkept⟩ := load_spec hdoc htable hload
  have hready : ∀ b ∈ blocks, b.Straight ∧ b.Ready C F (rows op₁.sql3) y :=
    fun b hb => ⟨blocks_straight b hb, (hkept b hb).ready hxy⟩
  obtain ⟨s, hs, htable', hothers, -, hfields, hkept'⟩ :=
    exists_saveBlocks (s := (op₁, ⟨y, last'⟩)) up₁ hdoc hfloats hop htable nodup_items hready
  have hsave : dbLoadSaveInfo F up₁ sql op₁ (some y) last' =
      .ok (s.1, some s.2.info, s.2.lastNoteHistoryTime) := by
    rw [dbLoadSaveInfo, if_neg (by simp [hop])]
    dsimp only
    rw [hxy.periods, save_periods hdoc hop htable hperiods, ok_bind, hs]
    rfl
  refine ⟨s.1, s.2.info, _, hsave, fun up₂ last₂ => ?_⟩
  have hperiods' : PeriodsRead C (rows s.1.sql3) x.noDisturb := by
    refine hperiods.congr fun item hitem => hothers item ?_
    rcases hitem with rfl | rfl | rfl
    all_goals decide
  have hopened : (sqlInit sql (some s.1.sql3)).sqlInited = true := rfl
  obtain ⟨z, last₃, hz, hxs, hkeptz⟩ := exists_load hdoc hopened htable' hperiods'
    (fun b hb => (hkept' b hb).readable) up₂ last₂
  refine ⟨_, z, last₃, hz, fun f => ?_, hxs, fun t ht => ?_⟩
  · obtain ⟨b, hb, hfield⟩ := exists_int_block f
    have hzs := (hkeptz b hb).sameField (hkept' b hb) (by simp [hfield])
    rw [hfield] at hzs
    exact hzs.trans (hfields (.int f) (by simp))
  · obtain ⟨b, hb, hfield⟩ := exists_text_block t
    have hzs := (hkeptz b hb).sameField (hkept' b hb) (by simpa [hfield] using ht)
    rw [hfield] at hzs
    exact (hzs.trans (hfields (.text t) (by simpa using ht))).trans (hxy.texts t)

end Restart

/-! ## A restart of the database of items -/

/-- `%f` of the whole numbers. -/
def itemFloats : Floats ℤ where
  toFloatScan := wholeFloats
  print n := decimal n ++ ".000000".toList
  add := (· + ·)
  ne m n := decide (m ≠ n)

theorem itemUpdate_float {item : VolatileItem} (hitem : item.sqlType = .real) (n : ℤ) :
    itemUpdate (SQL_OPERATION_UPDATE_FLOAT TBL_VOLATILE_INFO item.name (itemFloats.print n)) =
      some (item, itemCells.ofInt n) := by
  have hstmt : SQL_OPERATION_UPDATE_FLOAT TBL_VOLATILE_INFO item.name (itemFloats.print n) =
      "UPDATE Volatile SET ".toList ++
        (item.name ++ ' ' :: ("= ".toList ++ (decimal n ++ ".000000;".toList))) := by
    unfold SQL_OPERATION_UPDATE_FLOAT TBL_VOLATILE_INFO itemFloats
    simp
  have hdigit : NoDigit ".000000;".toList := by
    rintro c ⟨⟩
    decide
  rw [hstmt]
  refine itemUpdate_eq ?_
  unfold cellOf
  rw [hitem]
  dsimp only
  rw [readInt_value n hdigit]
  exact if_pos rfl

theorem floatsDocumented_itemDatabase :
    FloatsDocumented itemCells itemFloats itemDatabase fun rows => rows := by
  intro rows item hitem n
  refine .inr ⟨itemCells.ofInt n, decimal n ++ ".0".toList, by simp [itemCells, hitem], ?_⟩
  unfold itemDatabase
  dsimp only
  rw [itemUpdate_float hitem]

def sampleUp : SysUp ℤ :=
  ⟨"2024-01-01 08:00:00".toList, 60, by decide, by decide, by decide⟩

/-- A column of a single row. -/
theorem readPeriods_singleton {ty : ChkDbType V} {item : VolatileItem} {r : ItemRow κ}
    {t : List Char} {v : V} (hr : C.print item (r item) = some t) (hreads : ty.Reads t v) :
    readPeriods C ty item [r] = [v].mapM ty.store := by
  have hcells : (descending ([r].map (· item))).map (C.print item) = [v].map fun _ => some t := by
    rw [List.map_singleton, descending_singleton, List.map_singleton, hr, List.map_singleton]
  rw [readPeriods, hcells]
  exact readCells_eq (by simp) (by simp) (by simpa using hreads)

theorem print_sampleRow {item : VolatileItem} (hitem : item.sqlType = .text) :
    itemCells.print item (sampleRow item) = some "no".toList := by
  rw [sampleRow, if_pos hitem]
  exact itemCells.print_ofText item hitem _ (by decide)

theorem readItem_sampleRow {item : VolatileItem} (hitem : item.sqlType = .text) :
    ∃ g, readItem itemCells E_CHK_TYPE_STRING.row item [sampleRow] = .ok g :=
  ⟨"no".toList, by rw [readItem_text (print_sampleRow hitem)]; rfl⟩

theorem readable_sampleRow (hstraight : b.Straight) :
    b.Readable itemCells itemFloats [sampleRow] := by
  cases b with
  | int item loaded compared saved =>
    have hcell : sampleRow item = itemCells.ofInt 1 := if_neg (by simp [hstraight.1])
    exact ⟨1, readItem_int hstraight.1 (by decide) (by simp) (by simpa using hcell)⟩
  | text item loaded compared saved => exact readItem_sampleRow hstraight.1
  | powerupTime => exact readItem_sampleRow rfl
  | poweronTimeSec | poweronTimeTotalSec | cleanAreaTotal =>
    exact exists_readItem_float (k := itemCells.ofInt 1) (t := "1.0".toList) rfl
      (List.forall_mem_singleton.2 rfl)

theorem periodsRead_sampleRow : ∃ xs, PeriodsRead itemCells [sampleRow] xs := by
  have hmode : readPeriods itemCells E_CHK_TYPE_INT .ndstmd [sampleRow] = .ok [1] := by
    rw [readPeriods_singleton
      (itemCells.print_ofInt .ndstmd rfl 1 (by decide) (by decide)) (reads_int 1)]
    rfl
  have htext : ∀ item : VolatileItem, item.sqlType = .text →
      readPeriods itemCells E_CHK_TYPE_STRING item [sampleRow] = .ok ["no".toList] := by
    intro item hitem
    rw [readPeriods_singleton (print_sampleRow hitem) (reads_string (by decide))]
    rfl
  exact ⟨_, [1], ["no".toList], ["no".toList], _, hmode, htext .ndssta rfl, rfl,
    htext .ndsend rfl, rfl⟩

/-- The sample row is loaded. -/
theorem exists_load_sampleRow :
    ∃ x last', dbLoadSaveInfo itemFloats sampleUp itemDatabase ⟨[sampleRow], true⟩ none 0 =
      .ok (⟨[sampleRow], true⟩, some x, last') := by
  obtain ⟨xs, hperiods⟩ := periodsRead_sampleRow
  have hop : (⟨[sampleRow], true⟩ : DbOperation _).sqlInited = true := rfl
  obtain ⟨x, last', hload, -⟩ := exists_load documented_itemDatabase hop ⟨by simp, by simp⟩
    hperiods (fun b hb => readable_sampleRow (blocks_straight b hb)) sampleUp 0
  exact ⟨x, last', hload⟩

/-- Other numbers for some of the fields. -/
def sampleAssigned (x : VolatileInformation ℤ) : VolatileInformation ℤ :=
  { x with
    briefStat := { battery := 80, suction := 2 }
    jobStatistics.missionCount := 12
    jobStatistics.mileageStatistic := 2 ^ 31 - 1
    jobStatistics.cleanTimeTotal := -1
    audioInfo.volume := 70
    comsumble := {} }

theorem reassigned_sampleAssigned (x : VolatileInformation ℤ) :
    Reassigned x (sampleAssigned x) where
  periods := rfl
  texts t := by cases t <;> rfl
  range f := by cases f <;> simp [sampleAssigned, IntField.get]

theorem settings_survive_sampleRow :
    ∃ x last', dbLoadSaveInfo itemFloats sampleUp itemDatabase ⟨[sampleRow], true⟩ none 0 =
        .ok (⟨[sampleRow], true⟩, some x, last') ∧
      ∃ op' y' last₁, dbLoadSaveInfo itemFloats sampleUp itemDatabase ⟨[sampleRow], true⟩
          (some (sampleAssigned x)) last' = .ok (op', some y', last₁) ∧
        ∃ op'' z last₃, dbLoadSaveInfo itemFloats sampleUp itemDatabase
            (sqlInit itemDatabase (some op'.sql3)) none 0 = .ok (op'', some z, last₃) ∧
          z.audioInfo.volume = 70 := by
  obtain ⟨x, last', hload⟩ := exists_load_sampleRow
  obtain ⟨op', y', last₁, hsave, hfresh⟩ := settings_survive documented_itemDatabase
    floatsDocumented_itemDatabase ⟨by simp, by simp⟩ hload (reassigned_sampleAssigned x) sampleUp
  obtain ⟨op'', z, last₃, hz, hints, -⟩ := hfresh sampleUp 0
  exact ⟨x, last', hload, op', y', last₁, hsave, op'', z, last₃, hz, hints .volume⟩

end Mastiff.Storage

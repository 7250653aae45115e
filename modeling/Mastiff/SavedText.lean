import Mastiff.VolatileItems

/-!
# Texts in the database

`SqlUpdateString` (`cambrian/storage/db_operation.cc`) pastes a text between the quotes of a
statement, and `DbChkItem` (`dbase_client.cc`) reads a single value back from a line.

`text_survives_iff` : of a table of one row, a text column is read as the text it has been updated
to exactly when the text has no quote and no line end and does not begin with white space. A text
with an unpaired quote makes SQL of its own, and is read back if that happens to restore it.
-/

set_option linter.unusedSectionVars false

namespace Mastiff.Storage

open Memory Scanf

variable {δ κ : Type}

/-- `SqlUpdateString`. -/
def sqlUpdateString (sql : Sqlite δ) (op : DbOperation δ) (tbl item up : List Char) :
    DbOperation δ × ℤ :=
  sqlUpdate sql op (SQL_OPERATION_UPDATE_STRING tbl item up)

/-! ## Texts that survive -/

/-- The update keeps to its buffer, succeeds, changes only the column, and the text is read back. -/
structure TextSurvives (sql : Sqlite δ) (rows : δ → List (ItemRow κ)) (op : DbOperation δ)
    (item : VolatileItem) (t : List Char) : Prop where
  buffer : (SQL_OPERATION_UPDATE_STRING TBL_VOLATILE_INFO item.name t).length < 1024
  succeeds : (sqlUpdateString sql op TBL_VOLATILE_INFO item.name t).2 = 0
  others : ∀ other ≠ item,
    (rows (sqlUpdateString sql op TBL_VOLATILE_INFO item.name t).1.sql3).map (· other) =
      (rows op.sql3).map (· other)
  read : dbChkSingle sql (sqlUpdateString sql op TBL_VOLATILE_INFO item.name t).1 TBL_VOLATILE_INFO
    item.name E_CHK_TYPE_STRING.row .descend = .ok (some t)

/-- A text that both grammars take for itself. -/
structure IsVerbatim (t : List Char) : Prop where
  quote : '\x27' ∉ t
  newline : '\n' ∉ t
  space : NoSpace t

/-- An unpaired quote ends the literal, and SQLite happens to execute what follows without an error
and without a change of another column, and to leave a text that is read as `t`. -/
structure Restored (C : Cells κ) (sql : Sqlite δ) (rows : δ → List (ItemRow κ)) (d : δ)
    (item : VolatileItem) (t : List Char) : Prop where
  unpaired : unquote t = none
  executed : (sql.exec d (SQL_OPERATION_UPDATE_STRING TBL_VOLATILE_INFO item.name t)).2 = none
  others : ∀ other ≠ item,
    (rows (sql.exec d (SQL_OPERATION_UPDATE_STRING TBL_VOLATILE_INFO item.name t)).1).map
      (· other) = (rows d).map (· other)
  left : ∃ r p, rows (sql.exec d (SQL_OPERATION_UPDATE_STRING TBL_VOLATILE_INFO item.name t)).1 =
    [r] ∧ C.print item (r item) = some p ∧ cString (lineOf p) = t

/-! ## The two grammars -/

theorem length_update_lt (item : VolatileItem) {t : List Char} (ht : t.length < 512) :
    (SQL_OPERATION_UPDATE_STRING TBL_VOLATILE_INFO item.name t).length < 1024 := by
  have hname : item.name.length ≤ 16 := by cases item <;> decide
  have htbl : TBL_VOLATILE_INFO.length = 8 := by decide
  unfold SQL_OPERATION_UPDATE_STRING
  simp only [List.length_append, htbl]
  have hconst : "UPDATE ".toList.length + 8 + " SET ".toList.length + " = \x27".toList.length +
      "\x27;".toList.length < 100 := by decide
  omega

theorem newline_not_mem_lineOf (t : List Char) : '\n' ∉ lineOf t := by
  intro hmem
  simpa using List.mem_takeWhile_imp hmem

theorem nul_not_mem_lineOf {t : List Char} (ht : '\x00' ∉ t) : '\x00' ∉ lineOf t :=
  fun h => ht (List.dropWhile_subset _ (List.takeWhile_subset _ h))

/-- The line that is read of a text is the text. -/
theorem lineOf_eq_self_iff (t : List Char) : lineOf t = t ↔ '\n' ∉ t ∧ NoSpace t := by
  constructor
  · intro h
    have hspace := noSpace_dropWhile t
    have hline := newline_not_mem_lineOf t
    rw [lineOf] at h
    rw [lineOf, h] at hline
    rw [h] at hspace
    exact ⟨hline, hspace⟩
  · rintro ⟨hline, hspace⟩
    rw [lineOf, dropWhile_isSpace hspace, List.takeWhile_eq_self_iff]
    intro c hc
    simpa using ne_of_mem_of_not_mem hc hline

/-- The value of a literal is read as its text exactly if both grammars take the text for itself. -/
theorem lineOf_unquote_iff {t s : List Char} (hs : unquote t = some s) :
    lineOf s = t ↔ IsVerbatim t := by
  constructor
  · intro h
    have hsub := (unquote_eq_some hs).1
    have hle := length_lineOf_le s
    rw [h] at hle
    obtain rfl := hsub.eq_of_length (Nat.le_antisymm hsub.length_le hle)
    obtain ⟨hline, hspace⟩ := (lineOf_eq_self_iff s).1 h
    exact ⟨(unquote_eq_self_iff s).1 hs, hline, hspace⟩
  · intro h
    rw [unquote_of_not_mem h.quote] at hs
    obtain rfl := Option.some.inj hs
    exact (lineOf_eq_self_iff t).2 ⟨h.newline, h.space⟩

/-! ## The round trip -/

section RoundTrip

variable [LinearOrder κ] {C : Cells κ} {sql : Sqlite δ} {rows : δ → List (ItemRow κ)}
  {op : DbOperation δ} {item : VolatileItem} {t : List Char}

theorem sqlUpdateString_succeeds_iff (tbl item up : List Char) :
    (sqlUpdateString sql op tbl item up).2 = 0 ↔
      (sql.exec op.sql3 (SQL_OPERATION_UPDATE_STRING tbl item up)).2 = none := by
  rw [sqlUpdateString, sqlUpdate]
  dsimp only
  split_ifs with hnone <;> simp [hnone]

/-- What is read of a cell. -/
theorem read_text_iff (hdoc : ItemsDocumented C sql rows) (op : DbOperation δ)
    (hop : op.sqlInited = true) (item : VolatileItem) {r : ItemRow κ} (hrow : rows op.sql3 = [r])
    (hlen : t.length < 512) :
    dbChkSingle sql op TBL_VOLATILE_INFO item.name E_CHK_TYPE_STRING.row .descend = .ok (some t) ↔
      ∃ p, C.print item (r item) = some p ∧ cString (lineOf p) = t := by
  rw [dbChkSingle_item hdoc hop (by simp [hrow]) (by simp [hrow]), hrow]
  cases hprint : C.print item (r item) with
  | none =>
    rw [readItem_none _ hprint]
    simp
  | some p =>
    rw [readItem_text hprint]
    change (if (cString (lineOf p)).length < 512 then Except.ok (cString (lineOf p))
      else .error .outOfArray : Except DbFault _) >>= (fun v => pure (some v)) = _ ↔ _
    constructor
    · intro h
      split_ifs at h
      · exact ⟨p, rfl, Option.some.inj (Except.ok.inj h)⟩
      · cases h
    · rintro ⟨_, ⟨⟩, rfl⟩
      rw [if_pos hlen]
      rfl

/-- A text with its quotes in pairs. -/
theorem survives_iff_of_unquote (hdoc : ItemsDocumented C sql rows) (hop : op.sqlInited = true)
    {r : ItemRow κ} (hrow : rows op.sql3 = [r]) (hitem : item.sqlType = .text)
    (hnul : '\x00' ∉ t) (hlen : t.length < 512) {s : List Char} (hs : unquote t = some s) :
    TextSurvives sql rows op item t ↔ IsVerbatim t := by
  obtain ⟨hexec, hrows⟩ := hdoc.updateText op.sql3 item hitem t s hnul hs
  have hnuls : '\x00' ∉ s := fun h => hnul ((unquote_eq_some hs).1.subset h)
  have hrow' : rows (sqlUpdateString sql op TBL_VOLATILE_INFO item.name t).1.sql3 =
      [Function.update r item (C.ofText s)] := by
    rw [hrow] at hrows
    exact hrows
  have hprint : C.print item (Function.update r item (C.ofText s) item) = some s := by
    rw [Function.update_self, C.print_ofText item hitem s hnuls]
  have hread := read_text_iff hdoc (sqlUpdateString sql op TBL_VOLATILE_INFO item.name t).1 hop item
    hrow' hlen
  have hline : (∃ p, C.print item (Function.update r item (C.ofText s) item) = some p ∧
      cString (lineOf p) = t) ↔ IsVerbatim t := by
    rw [hprint, ← lineOf_unquote_iff hs]
    simp [cString_eq_self (nul_not_mem_lineOf hnuls)]
  rw [hline] at hread
  refine ⟨fun h => hread.1 h.read, fun h => ⟨length_update_lt item hlen, ?_, ?_, hread.2 h⟩⟩
  · exact (sqlUpdateString_succeeds_iff _ _ t).2 hexec
  · intro other hother
    rw [hrow', hrow, List.map_singleton, List.map_singleton, Function.update_of_ne hother]

/-- Any other text. -/
theorem survives_iff_of_unpaired (hdoc : ItemsDocumented C sql rows) (hop : op.sqlInited = true)
    {r : ItemRow κ} (hrow : rows op.sql3 = [r]) (hitem : item.sqlType = .text)
    (hlen : t.length < 512) (hs : unquote t = none) :
    TextSurvives sql rows op item t ↔ Restored C sql rows op.sql3 item t := by
  have hone : (∀ other ≠ item,
      (rows (sqlUpdateString sql op TBL_VOLATILE_INFO item.name t).1.sql3).map (· other) =
        (rows op.sql3).map (· other)) →
      ∃ r', rows (sqlUpdateString sql op TBL_VOLATILE_INFO item.name t).1.sql3 = [r'] := by
    intro hothers
    have hmode : VolatileItem.ndstmd ≠ item := by
      rintro rfl
      cases hitem
    have hlength := congrArg List.length (hothers .ndstmd hmode)
    rw [List.length_map, List.length_map, hrow] at hlength
    exact List.length_eq_one_iff.1 hlength
  let after := (sqlUpdateString sql op TBL_VOLATILE_INFO item.name t).1
  constructor
  · rintro ⟨-, hsucceeds, hothers, hread⟩
    obtain ⟨r', hr'⟩ := hone hothers
    obtain ⟨p, hp, hline⟩ := (read_text_iff hdoc after hop item hr' hlen).1 hread
    exact ⟨hs, (sqlUpdateString_succeeds_iff _ _ t).1 hsucceeds, hothers, r', p, hr', hp, hline⟩
  · rintro ⟨-, hexec, hothers, r', p, hr', hp, hline⟩
    exact ⟨length_update_lt item hlen, (sqlUpdateString_succeeds_iff _ _ t).2 hexec, hothers,
      (read_text_iff hdoc after hop item hr' hlen).2 ⟨p, hp, hline⟩⟩

/-- For every text of fewer than 512 characters without a null character, and every text column of
a table of one row, the text is read back exactly when both grammars take it for itself, or an
unpaired quote makes SQL that happens to restore it. -/
theorem text_survives_iff (hdoc : ItemsDocumented C sql rows) (hop : op.sqlInited = true)
    {r : ItemRow κ} (hrow : rows op.sql3 = [r]) (hitem : item.sqlType = .text)
    (hnul : '\x00' ∉ t) (hlen : t.length < 512) :
    TextSurvives sql rows op item t ↔ IsVerbatim t ∨ Restored C sql rows op.sql3 item t := by
  cases hs : unquote t with
  | none =>
    rw [survives_iff_of_unpaired hdoc hop hrow hitem hlen hs]
    refine (or_iff_right fun h => ?_).symm
    rw [unquote_of_not_mem h.quote] at hs
    cases hs
  | some s =>
    rw [survives_iff_of_unquote hdoc hop hrow hitem hnul hlen hs]
    refine (or_iff_left fun h => ?_).symm
    rw [h.unpaired] at hs
    cases hs

end RoundTrip

/-- Blanks in the middle and at the end are kept. -/
theorem text_survives_blanks :
    TextSurvives itemDatabase (fun rows => rows) ⟨[sampleRow], true⟩ .wfssid "my net; ".toList :=
  (text_survives_iff documented_itemDatabase rfl rfl rfl (by decide) (by decide)).2
    (.inl ⟨by decide, by decide, by decide⟩)

/-- A blank at the beginning is lost. -/
theorem not_text_survives :
    ¬∀ t : List Char, '\x00' ∉ t → t.length < 512 →
      TextSurvives itemDatabase (fun rows => rows) ⟨[sampleRow], true⟩ .wfssid t := by
  intro h
  have hsurvives := h " net".toList (by decide) (by decide)
  have hverbatim := (survives_iff_of_unquote documented_itemDatabase rfl rfl rfl (by decide)
    (by decide) (unquote_of_not_mem (by decide))).1 hsurvives
  exact absurd hverbatim.space (by decide)

end Mastiff.Storage

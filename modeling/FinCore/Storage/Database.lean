/-
  FinCore.Storage.Database
  ────────────────────────
  `PostgresMarketDataRepository` over the database of `migration/schema.sql`.

  The server casts the parameters of a prepared statement, stores the row under
  the types and the constraints of its table, and looks at its keys.  The texts
  of its refusals are a parameter.  The batch methods are written over any
  server; `insertBatch` is the case of the server that knows the casts and the
  conflict keys only.
-/
import FinCore.Sql.Batch
import FinCore.Sql.Catalog
import FinCore.Storage.SentRows

namespace FinCore.Storage

open FinCore.Cxx FinCore.Sql FinCore.Domain

/-! ## §1. The schema. -/

/-- The tables of the schema `fincore`. -/
inductive Relation where
  | instruments
  | dataSources
  | quotes
  | ticks
  | orderBookSnapshots
  | technicalIndicators
  deriving DecidableEq

def Relation.Column : Relation → Type
  | .instruments => InstrumentColumn
  | .dataSources => DataSourceColumn
  | .quotes => QuoteColumn
  | .ticks => TickColumn
  | .orderBookSnapshots => SnapshotColumn
  | .technicalIndicators => IndicatorColumn

instance : ∀ t : Relation, DecidableEq t.Column
  | .instruments => inferInstanceAs (DecidableEq InstrumentColumn)
  | .dataSources => inferInstanceAs (DecidableEq DataSourceColumn)
  | .quotes => inferInstanceAs (DecidableEq QuoteColumn)
  | .ticks => inferInstanceAs (DecidableEq TickColumn)
  | .orderBookSnapshots => inferInstanceAs (DecidableEq SnapshotColumn)
  | .technicalIndicators => inferInstanceAs (DecidableEq IndicatorColumn)

def TableName.relation : TableName → Relation
  | .quotes => .quotes
  | .ticks => .ticks
  | .orderBookSnapshots => .orderBookSnapshots
  | .technicalIndicators => .technicalIndicators

/-- `FOREIGN KEY (symbol) REFERENCES fincore.instruments(symbol)` and
`FOREIGN KEY (source) REFERENCES fincore.data_sources(code)`. -/
def factReferences (t : Relation) (table : String) (symbol source : t.Column) :
    List (ForeignKey Relation.Column t) :=
  [⟨(table ++ "_symbol_fk").toList, [symbol], .instruments⟩,
    ⟨(table ++ "_source_fk").toList, [source], .dataSources⟩]

theorem factReferences_columns {t : Relation} {table : String} {symbol source : t.Column}
    {fk : ForeignKey Relation.Column t} (h : fk ∈ factReferences t table symbol source) :
    fk.columns = [symbol] ∨ fk.columns = [source] := by
  rcases List.mem_cons.mp h with rfl | h
  · exact Or.inl rfl
  · rw [List.mem_singleton.mp h]
    exact Or.inr rfl

/-- The key of a snapshot is given, unlike its mid price and its spread. -/
theorem snapshot_key_given :
    ∀ c ∈ [SnapshotColumn.symbol, .source, .snapshotTime],
      Storage.orderBookSnapshots.generated c = none := by
  simp only [List.forall_mem_cons, List.not_mem_nil, false_implies, implies_true, and_true]
  exact ⟨rfl, rfl, rfl⟩

/-- `migration/schema.sql`. -/
def fincoreSchema : Catalog Relation.Column where
  table
    | .instruments => Storage.instruments
    | .dataSources => Storage.dataSources
    | .quotes => Storage.quotes
    | .ticks => Storage.ticks
    | .orderBookSnapshots => Storage.orderBookSnapshots
    | .technicalIndicators => Storage.technicalIndicators
  index
    | .instruments => ⟨[InstrumentColumn.symbol], none⟩
    | .dataSources => ⟨[DataSourceColumn.code], none⟩
    | .quotes => ⟨[QuoteColumn.symbol, .source, .timestamp], none⟩
    -- `ticks_trade_id_uq`; the table has no primary key
    | .ticks => ⟨[TickColumn.source, .symbol, .tradeId], some TickColumn.tradeId⟩
    | .orderBookSnapshots => ⟨[SnapshotColumn.symbol, .source, .snapshotTime], none⟩
    | .technicalIndicators =>
        ⟨[IndicatorColumn.symbol, .source, .indicatorName, .timestamp, .parameters], none⟩
  foreignKeys
    | .instruments => []
    | .dataSources => []
    | .quotes => factReferences .quotes "quotes" QuoteColumn.symbol QuoteColumn.source
    | .ticks => factReferences .ticks "ticks" TickColumn.symbol TickColumn.source
    | .orderBookSnapshots =>
        factReferences .orderBookSnapshots "order_book_snapshots" SnapshotColumn.symbol
          SnapshotColumn.source
    | .technicalIndicators =>
        factReferences .technicalIndicators "technical_indicators" IndicatorColumn.symbol
          IndicatorColumn.source
  index_given t := by
    cases t with
    | orderBookSnapshots =>
        intro c hc
        exact snapshot_key_given c hc
    | _ => exact fun _ _ => rfl
  foreignKeys_given t := by
    cases t with
    | orderBookSnapshots =>
        intro fk hfk c hc
        refine snapshot_key_given c ?_
        rcases factReferences_columns hfk with h | h
        · rw [h] at hc
          rw [List.mem_singleton.mp hc]
          exact List.mem_cons_self
        · rw [h] at hc
          rw [List.mem_singleton.mp hc]
          exact List.mem_cons_of_mem _ List.mem_cons_self
    | _ => exact fun _ _ _ _ => rfl

abbrev Database := Content Relation.Column

/-- The column lists of the prepared inserts. -/
def insertColumns : (name : TableName) → List name.relation.Column
  | .quotes => quoteColumns
  | .ticks => tickColumns
  | .orderBookSnapshots => snapshotColumns
  | .technicalIndicators => indicatorColumns

/-- `SET name = EXCLUDED.name, …` of `fincore_upsert_instrument`. -/
def setInstrument : fincoreSchema.Assignment .instruments where
  columns := [InstrumentColumn.name, .assetClass, .exchange, .tickSizeDecimals, .isActive]
  not_index := by decide
  not_foreignKey := nofun

/-- `SET display_name = EXCLUDED.display_name, …` of
`fincore_upsert_data_source`. -/
def setDataSource : fincoreSchema.Assignment .dataSources where
  columns := [DataSourceColumn.displayName, .baseUrl, .isActive]
  not_index := by decide
  not_foreignKey := nofun

/-! ## §2. The server. -/

/-- A call of one of the prepared statements that write. -/
inductive WriteStatement where
  | upsertInstrument (parameters : List (Option Str))
  | upsertDataSource (parameters : List (Option Str))
  | insert (q : Prepared)
  deriving DecidableEq

/-- How the server words the refusal of a row: a message and its SQLSTATE. -/
abbrev RefusalText := WriteStatement → Catalog.Refusal → Str × Str

/-- Insert a row, if the parameters make one. -/
def insertSent {t : Relation} (onConflict : fincoreSchema.OnConflict t)
    (text : Catalog.Refusal → Str × Str) (sent : Option (Record t.Column)) (database : Database) :
    Except (Str × Str) (Database × ℕ) :=
  match sent with
  -- a cast that fails refuses the statement before the insert
  | none => .error invalidInputError
  | some record =>
      match Catalog.insert onConflict record database with
      | .ok result => .ok result
      | .error refusal => .error (text refusal)

/-- The row that a prepared insert sends. -/
def Prepared.record (platform : Platform) (q : Prepared) :
    Option (Record q.statement.table.relation.Column) :=
  (q.row platform).map (sentRecord (insertColumns q.statement.table))

def WriteStatement.exec (platform : Platform) (refusalText : RefusalText)
    (statement : WriteStatement) : Database → Except (Str × Str) (Database × ℕ) :=
  match statement with
  | upsertInstrument parameters =>
      insertSent (.doUpdate setInstrument) (refusalText statement)
        (fincoreUpsertInstrument.record parameters)
  | upsertDataSource parameters =>
      insertSent (.doUpdate setDataSource) (refusalText statement)
        (fincoreUpsertDataSource.record parameters)
  | insert q => insertSent .doNothing (refusalText statement) (q.record platform)

/-- The server with the whole schema. -/
def schemaServer (platform : Platform) (refusalText : RefusalText) :
    Server Database WriteStatement Exn where
  exec statement := statement.exec platform refusalText
  error message sqlState := .databaseError message sqlState
  closed
    | .query _ => closedPrepared
    | _ => .databaseError "cannot execute SQL on a closed PostgreSQL connection".toList []
where
  closedPrepared : Exn := .databaseError
    "cannot execute prepared SQL on a closed PostgreSQL connection".toList []

abbrev DbSession := Session Database WriteStatement

/-- A connection to the database as `PQconnectdb` hands it over. -/
def connectTo (database : Database) (fate : ℕ → Fate) : DbSession where
  committed := database
  status := .idle
  connected := true
  log := []
  fate := fate

/-! ## §3. The repository. -/

section Batch

variable {D S R : Type} (server : Server D S Exn) (query : Prepared → S) (platform : Platform)
  (kind : BatchKind R)

/-- The loop over the records inside the transaction. -/
def insertRecordsInto : List R → ℕ → Action (Session D S) Exn ℕ
  | [], inserted => pure inserted
  | record :: rest, inserted => do
      let parameters ← Action.ofExcept (kind.parameters platform record)
      let affected ← Session.issue server
        (.query (query ⟨kind.statement, parameters.map (Option.map cStr)⟩))
      insertRecordsInto rest (inserted + affected)

/-- The body of the four batch methods, on any server. -/
def insertBatchInto (records : List R) : Action (Session D S) Exn InsertSummary := do
  Action.ofExcept (validateAll kind records)
  if records = [] then return { attempted := records.length, inserted := 0 }
  else do
    let inserted ← Session.transaction server
      (insertRecordsInto server query platform kind records 0)
    return { attempted := records.length, inserted := inserted }

end Batch

/-- On the server of the casts and conflict keys it is `insertBatch`. -/
theorem insertBatchInto_pgServer {R : Type} (platform : Platform) (kind : BatchKind R)
    (records : List R) :
    insertBatchInto (pgServer platform) id platform kind records
      = insertBatch platform kind records := by
  have hrecords : ∀ (records : List R) (inserted : ℕ),
      insertRecordsInto (pgServer platform) id platform kind records inserted
        = insertRecords platform kind records inserted := by
    intro records
    induction records with
    | nil => exact fun _ => rfl
    | cons record rest ih =>
        intro inserted
        unfold insertRecordsInto insertRecords executePrepared
        simp only [ih, id]
  unfold insertBatchInto insertBatch
  rw [hrecords]

/-! ## §4. One batch, on any server. -/

section Rules

open Action Session

variable {D S R : Type} {server : Server D S Exn} {query : Prepared → S} {platform : Platform}
  {kind : BatchKind R}

theorem insertRecordsInto_within {Rel : Session D S → Session D S → Prop}
    [IsPreorder (Session D S) Rel]
    (h : ∀ q, Within Rel (issue server (.query (query q)))) (records : List R) :
    ∀ inserted, Within Rel (insertRecordsInto server query platform kind records inserted) := by
  induction records with
  | nil => exact fun inserted => Within.pure inserted
  | cons record rest ih =>
      intro inserted
      refine Within.bind (Within.ofExcept _) (fun parameters => ?_)
      exact Within.bind (h _) (fun affected => ih _)

theorem insertBatchInto_within {Rel : Session D S → Session D S → Prop}
    [IsPreorder (Session D S) Rel]
    (h : ∀ statement, Within Rel (issue server statement)) (records : List R) :
    Within Rel (insertBatchInto server query platform kind records) := by
  refine Within.bind (Within.ofExcept _) (fun _ => ?_)
  by_cases hnil : records = []
  · rw [if_pos hnil]
    exact Within.pure _
  · rw [if_neg hnil]
    refine Within.bind (transaction_within h ?_) (fun _ => Within.pure _)
    exact insertRecordsInto_within (fun q => h (.query (query q))) records 0

theorem preparedOf_eq_ok_iff {record : R} {q : Prepared} :
    preparedOf platform kind record = .ok q ↔
      ∃ parameters, kind.parameters platform record = .ok parameters
        ∧ q = ⟨kind.statement, parameters.map (Option.map cStr)⟩ := by
  unfold preparedOf
  cases kind.parameters platform record with
  | error e =>
      constructor
      · nofun
      · rintro ⟨_, h, _⟩
        cases h
  | ok parameters =>
      constructor
      · intro h
        exact ⟨parameters, rfl, (Except.ok.inj h).symm⟩
      · rintro ⟨_, h, rfl⟩
        rw [← Except.ok.inj h]
        rfl

/-- Records that convert are a sequence of queries. -/
theorem insertRecordsInto_prepared {records : List R} {queries : List Prepared}
    (h : Prepares platform kind records queries) :
    ∀ inserted, insertRecordsInto server query platform kind records inserted
      = issueAll server (queries.map query) inserted := by
  induction h with
  | nil => exact fun _ => rfl
  | @cons record q rest queries hq _ ih =>
      intro inserted
      obtain ⟨parameters, hparameters, rfl⟩ := preparedOf_eq_ok_iff.mp hq
      funext s
      rw [insertRecordsInto, List.map_cons, issueAll, bind_ok (by rw [hparameters]; rfl)]
      simp only [ih]

/-- A loop that returns has converted every record. -/
theorem insertRecordsInto_prepares {records : List R} :
    ∀ {inserted m : ℕ} {s t : Session D S},
      insertRecordsInto server query platform kind records inserted s = (.ok m, t) →
      ∃ queries, Prepares platform kind records queries := by
  induction records with
  | nil => exact fun _ => ⟨[], .nil⟩
  | cons record rest ih =>
      intro inserted m s t h
      rw [insertRecordsInto] at h
      obtain ⟨parameters, s₀, hparameters, h⟩ := bind_eq_ok h
      obtain ⟨affected, s₁, _, h⟩ := bind_eq_ok h
      obtain ⟨queries, hqueries⟩ := ih h
      rw [ofExcept_run, Prod.mk.injEq] at hparameters
      exact ⟨_ :: queries, .cons (preparedOf_eq_ok_iff.mpr ⟨_, hparameters.1, rfl⟩) hqueries⟩

/-- A loop that returns in a block has had the server take every row. -/
theorem insertRecordsInto_exec {records : List R} {m : ℕ} {s t : Session D S} {working : D}
    (h : insertRecordsInto server query platform kind records 0 s = (.ok m, t))
    (hs : s.status = .inProgress working) :
    ∃ queries data, Prepares platform kind records queries
      ∧ execAll server (queries.map query) working = .ok (data, m)
      ∧ t.status = .inProgress data := by
  obtain ⟨queries, hqueries⟩ := insertRecordsInto_prepares h
  rw [insertRecordsInto_prepared hqueries] at h
  obtain ⟨data, n, hexec, hm, ht⟩ := issueAll_ok _ h hs
  rw [Nat.zero_add] at hm
  exact ⟨queries, data, hqueries, hm ▸ hexec, ht⟩

/-- Valid records go straight to the transaction, if there are any. -/
theorem insertBatchInto_valid {records : List R} (h : ∀ r ∈ records, kind.validate r = .ok ())
    (s : Session D S) :
    insertBatchInto server query platform kind records s
      = (if records = [] then pure { attempted := records.length, inserted := 0 }
        else do
          let inserted ← transaction server
            (insertRecordsInto server query platform kind records 0)
          return { attempted := records.length, inserted := inserted } :
        Action (Session D S) Exn InsertSummary) s := by
  unfold insertBatchInto
  exact bind_ok (by rw [(validateAll_ok_iff kind records).mpr h]; rfl)

variable (server query platform kind) in
/-- **A batch on an idle session that returns has had the server take every
row**; one that throws has changed nothing, or the same and the answer was
lost. -/
theorem insertBatchInto_returned (records : List R) {s : Session D S} (hs : s.status = .idle) :
    (∃ e t, insertBatchInto server query platform kind records s = (.error e, t) ∧ Unwound s t)
    ∨ (∃ queries data n t, (∀ r ∈ records, kind.validate r = .ok ())
        ∧ Prepares platform kind records queries
        ∧ execAll server (queries.map query) s.committed = .ok (data, n)
        ∧ insertBatchInto server query platform kind records s
          = (.ok { attempted := records.length, inserted := n }, t)
        ∧ t.committed = data ∧ t.status = .idle)
    ∨ ∃ e queries data n t, (∀ r ∈ records, kind.validate r = .ok ())
        ∧ Prepares platform kind records queries
        ∧ execAll server (queries.map query) s.committed = .ok (data, n)
        ∧ insertBatchInto server query platform kind records s = (.error e, t)
        ∧ t.committed = data ∧ t.status = .idle ∧ ¬ CommitsAnswered t := by
  cases hvalid : validateAll kind records with
  | error e =>
      left
      refine ⟨e, s, ?_, rfl, Or.inl⟩
      unfold insertBatchInto
      exact bind_error (by rw [hvalid]; rfl)
  | ok u =>
      have hall := (validateAll_ok_iff kind records).mp hvalid
      rw [insertBatchInto_valid hall]
      by_cases hnil : records = []
      · subst hnil
        exact Or.inr (Or.inl ⟨[], s.committed, 0, s, hall, .nil, rfl, rfl, rfl, hs⟩)
      · rw [if_neg hnil]
        rcases transaction_returned server
            (insertRecordsInto server query platform kind records 0) hs
            (insertRecordsInto_within (fun q => Blocked.query server _ _) records 0)
            (insertRecordsInto_within (fun q => Grows.issue server _) records 0) with
          ⟨e, t, ht, hunwound⟩ | ⟨n, s₁, s₂, t, hs₁, hbody, ht, hcommitted⟩
          | ⟨e, n, s₁, s₂, t, hs₁, hbody, ht, hunanswered⟩
        · exact Or.inl ⟨e, t, bind_error ht, hunwound⟩
        · obtain ⟨queries, data, hqueries, hexec, hs₂⟩ := insertRecordsInto_exec hbody hs₁
          obtain ⟨hdata, hidle⟩ := hcommitted data hs₂
          exact Or.inr (Or.inl
            ⟨queries, data, n, t, hall, hqueries, hexec, bind_ok ht, hdata, hidle⟩)
        · obtain ⟨queries, data, hqueries, hexec, hs₂⟩ := insertRecordsInto_exec hbody hs₁
          exact Or.inr (Or.inr ⟨e, queries, data, n, t, hall, hqueries, hexec, bind_error ht,
            hunanswered.committed data hs₂, hunanswered.status, hunanswered.not_commitsAnswered⟩)

variable (server query) in
/-- **A batch of valid records that convert, without faults**, returns exactly
if the server takes every row; otherwise it throws the server's error and has
changed nothing. -/
theorem insertBatchInto_sent {records : List R} {queries : List Prepared} {s : Session D S}
    (hfaultless : Faultless s) (hs : s.status = .idle)
    (hvalid : ∀ r ∈ records, kind.validate r = .ok ())
    (hqueries : Prepares platform kind records queries) :
    match execAll server (queries.map query) s.committed with
    | .ok (data, n) => ∃ t, insertBatchInto server query platform kind records s
          = (.ok { attempted := records.length, inserted := n }, t) ∧ Steady t data .idle
    | .error e => ∃ t, insertBatchInto server query platform kind records s
          = (.error (server.error e.1 e.2), t) ∧ Steady t s.committed .idle := by
  rw [insertBatchInto_valid hvalid]
  by_cases hnil : records = []
  · subst hnil
    cases hqueries
    exact ⟨s, rfl, hfaultless, rfl, hs⟩
  · rw [if_neg hnil, insertRecordsInto_prepared hqueries]
    have htransaction := transaction_sent server (queries.map query) hfaultless hs
    rcases hexec : execAll server (queries.map query) s.committed with e | ⟨data, n⟩
    · simp only [hexec] at htransaction ⊢
      obtain ⟨t, ht, hsteady⟩ := htransaction
      exact ⟨t, bind_error ht, hsteady⟩
    · simp only [hexec] at htransaction ⊢
      obtain ⟨t, ht, hsteady⟩ := htransaction
      exact ⟨t, bind_ok ht, hsteady⟩

end Rules

/-! ## §5. The methods. -/

section Repository

variable (platform : Platform) (refusalText : RefusalText)

/-- `upsert_instrument`. -/
def upsertInstrument (instrument : Instrument) : Action DbSession Exn Unit := do
  Action.ofExcept instrument.validate
  let _ ← Session.issue (schemaServer platform refusalText)
    (.query (.upsertInstrument (instrumentParameters instrument)))
  return ()

/-- `upsert_data_source`. -/
def upsertDataSource (source : DataSource) : Action DbSession Exn Unit := do
  Action.ofExcept source.validate
  let _ ← Session.issue (schemaServer platform refusalText)
    (.query (.upsertDataSource (dataSourceParameters source)))
  return ()

/-- One of the four batch methods. -/
def insertFacts {R : Type} (kind : BatchKind R) (records : List R) :
    Action DbSession Exn InsertSummary :=
  insertBatchInto (schemaServer platform refusalText) .insert platform kind records

/-- A batch call. -/
def BatchCall.performOn : BatchCall → Action DbSession Exn InsertSummary
  | insertQuotes quotes => insertFacts platform refusalText quoteBatch quotes
  | insertTicks ticks => insertFacts platform refusalText tickBatch ticks
  | insertOrderBookSnapshots snapshots => insertFacts platform refusalText snapshotBatch snapshots
  | insertTechnicalIndicators indicators =>
      insertFacts platform refusalText indicatorBatch indicators

/-- A call of one of the methods that write. -/
inductive WriteCall where
  | upsertInstrument (instrument : Instrument)
  | upsertDataSource (source : DataSource)
  | batch (call : BatchCall)

/-- The summary is that of a batch; an upsert returns none. -/
def WriteCall.perform : WriteCall → Action DbSession Exn (Option InsertSummary)
  | upsertInstrument instrument => do
      Storage.upsertInstrument platform refusalText instrument
      return none
  | upsertDataSource source => do
      Storage.upsertDataSource platform refusalText source
      return none
  | batch call => do
      let summary ← call.performOn platform refusalText
      return some summary

end Repository

end FinCore.Storage

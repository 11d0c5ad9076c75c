/-
  FinCore.Storage.DatabaseIntegrity
  ─────────────────────────────────
  What every run of the repository leaves of its database.

  Whatever the calls and whatever becomes of their statements, the rows satisfy
  the schema, keys are unique and references resolve; facts are only added, and
  what is registered stays registered (`writes_keep_integrity`).  The two
  registries hold the last record of each key that an upsert returned with
  (`registries_last_write`).
-/
import FinCore.Storage.StoredRows

namespace FinCore.Storage

open FinCore.Cxx FinCore.Sql FinCore.Domain
open Session Action

/-! ## §1. One write. -/

/-- An insert that is accepted had a row to insert. -/
theorem insertSent_ok {t : Relation} {onConflict : fincoreSchema.OnConflict t}
    {text : Catalog.Refusal → Str × Str} {sent : Option (Record t.Column)}
    {database database' : Database} {n : ℕ}
    (h : insertSent onConflict text sent database = .ok (database', n)) :
    ∃ record, sent = some record
      ∧ Catalog.insert onConflict record database = .ok (database', n) := by
  unfold insertSent at h
  cases sent with
  | none => cases h
  | some record =>
      refine ⟨record, rfl, ?_⟩
      dsimp only at h
      split at h
      next result hinsert => rw [hinsert, Except.ok.inj h]
      next => cases h

/-- A database beside the one that a run started from. -/
structure Grown (start database : Database) : Prop where
  integrity : Catalog.Integrity fincoreSchema database
  facts : ∀ name : TableName, start name.relation <+: database name.relation
  keys : ∀ t, fincoreSchema.keys t start <+: fincoreSchema.keys t database

theorem Grown.refl {database : Database} (h : Catalog.Integrity fincoreSchema database) :
    Grown database database :=
  ⟨h, fun _ => List.prefix_rfl, fun _ => List.prefix_rfl⟩

theorem Grown.trans {a b c : Database} (hab : Grown a b) (hbc : Grown b c) : Grown a c where
  integrity := hbc.integrity
  facts name := (hab.facts name).trans (hbc.facts name)
  keys t := (hab.keys t).trans (hbc.keys t)

/-- An accepted upsert leaves the facts alone. -/
theorem Grown.upsert {t : Relation} {set : fincoreSchema.Assignment t} {record : Record t.Column}
    {start database database' : Database} {n : ℕ} (hgrown : Grown start database)
    (ht : ∀ name : TableName, name.relation ≠ t)
    (h : Catalog.insert (.doUpdate set) record database = .ok (database', n)) :
    Grown start database' where
  integrity := hgrown.integrity.insert h
  facts name := by
    rw [Catalog.insert_other h (ht name)]
    exact hgrown.facts name
  keys t' := (hgrown.keys t').trans (Catalog.insert_keys_prefix h t')

theorem exec_grown {platform : Platform} {refusalText : RefusalText} {statement : WriteStatement}
    {start database database' : Database} {n : ℕ}
    (h : statement.exec platform refusalText database = .ok (database', n))
    (hgrown : Grown start database) : Grown start database' := by
  cases statement with
  | upsertInstrument parameters =>
      obtain ⟨record, _, hinsert⟩ := insertSent_ok h
      exact hgrown.upsert (fun name => by cases name <;> nofun) hinsert
  | upsertDataSource parameters =>
      obtain ⟨record, _, hinsert⟩ := insertSent_ok h
      exact hgrown.upsert (fun name => by cases name <;> nofun) hinsert
  | insert q =>
      obtain ⟨record, _, hinsert⟩ := insertSent_ok h
      exact ⟨hgrown.integrity.insert hinsert,
        fun name => (hgrown.facts name).trans (Catalog.insert_doNothing_append hinsert _),
        fun t => (hgrown.keys t).trans (Catalog.insert_keys_prefix hinsert t)⟩

/-! ## §2. Runs. -/

section Runs

variable (platform : Platform) (refusalText : RefusalText)

/-- A call stays within what every statement stays within. -/
theorem WriteCall.perform_within {Rel : DbSession → DbSession → Prop} [IsPreorder DbSession Rel]
    (h : ∀ statement, Within Rel (issue (schemaServer platform refusalText) statement))
    (call : WriteCall) : Within Rel (call.perform platform refusalText) := by
  cases call with
  | upsertInstrument instrument =>
      refine Within.bind (Within.bind (Within.ofExcept _) (fun _ => ?_)) (fun _ => Within.pure _)
      exact Within.bind (h _) (fun _ => Within.pure _)
  | upsertDataSource source =>
      refine Within.bind (Within.bind (Within.ofExcept _) (fun _ => ?_)) (fun _ => Within.pure _)
      exact Within.bind (h _) (fun _ => Within.pure _)
  | batch call =>
      refine Within.bind ?_ (fun _ => Within.pure _)
      cases call with
      | insertQuotes quotes => exact insertBatchInto_within h quotes
      | insertTicks ticks => exact insertBatchInto_within h ticks
      | insertOrderBookSnapshots snapshots => exact insertBatchInto_within h snapshots
      | insertTechnicalIndicators indicators => exact insertBatchInto_within h indicators

/-- The session after a run of calls; the caller may catch what they throw. -/
def runWrites (calls : List WriteCall) (s : DbSession) : DbSession :=
  (attemptAll (calls.map (·.perform platform refusalText)) s).2

theorem runWrites_grown (calls : List WriteCall) {database : Database} {s : DbSession}
    (hs : Everywhere (Grown database) s) :
    Everywhere (Grown database) (runWrites platform refusalText calls s) := by
  have hissue : ∀ statement, Within (Preserves (Everywhere (Grown database)))
      (Session.issue (schemaServer platform refusalText) statement) :=
    Everywhere.issue (fun q data data' n hexec => exec_grown hexec)
  have hrun : Within (Preserves (Everywhere (Grown database)))
      (attemptAll (calls.map (·.perform platform refusalText))) := by
    refine Within.attemptAll (fun x hx => ?_)
    obtain ⟨call, _, rfl⟩ := List.mem_map.mp hx
    exact call.perform_within platform refusalText hissue
  exact hrun s hs

/-- **Every run of the repository keeps the integrity of its database**, for
every fate of every statement: in the committed data and in an open block every
row satisfies its table, no key occurs twice and every reference resolves; the
facts that were there are still there, and so is every key. -/
theorem writes_keep_integrity (database : Database) (fate : ℕ → Fate) (calls : List WriteCall)
    (h : Catalog.Integrity fincoreSchema database) :
    Everywhere (Grown database)
      (runWrites platform refusalText calls (connectTo database fate)) :=
  runWrites_grown platform refusalText calls ⟨Grown.refl h, nofun⟩

end Runs

/-- An instrument, a source and a quote of them, and an instrument renamed. -/
def sampleWrites : List WriteCall :=
  [.upsertInstrument (named "IBM Corp".toList),
    .upsertDataSource ⟨"FEED".toList, "Feed".toList, none, true⟩,
    .batch (.insertQuotes [quoteAt (-1) 2]), .upsertInstrument (named "IBM".toList),
    .upsertInstrument (named "I.B.M.".toList)]

/-- A server whose refusals say nothing. -/
def silentText : RefusalText := fun _ _ => ([], [])

/-- The server refuses the last statement of the run. -/
def lastRefused : ℕ → Fate := fun n => if n = 6 then .refused [] [] else .sent

theorem writes_keep_integrity_sampleWrites :
    Everywhere (Grown (fun _ => [])) (runWrites gregorianPlatform silentText sampleWrites
      (connectTo (fun _ => []) lastRefused))
    ∧ ((runWrites gregorianPlatform silentText sampleWrites
      (connectTo (fun _ => []) lastRefused)).committed .quotes).length = 1 :=
  ⟨writes_keep_integrity gregorianPlatform silentText (fun _ => []) lastRefused sampleWrites
    (Catalog.Integrity.empty _), by decide +kernel⟩

/-! ## §3. The rows of the registries. -/

theorem cStr_no_nul (s : Str) : Char.ofNat 0 ∉ cStr s := by
  intro hmem
  have h := List.mem_takeWhile_imp hmem
  exact of_decide_eq_true h rfl

theorem cStr_cStr (s : Str) : cStr (cStr s) = cStr s := cStr_eq_self (cStr_no_nul s)

/-- The instrument as libpq sends it: each text up to its first NUL. -/
def sentInstrument (instrument : Instrument) : Instrument :=
  { instrument with name := cStr instrument.name, exchange := cStr instrument.exchange }

/-- The data source as libpq sends it. -/
def sentDataSource (source : DataSource) : DataSource :=
  { source with displayName := cStr source.displayName, baseUrl := source.baseUrl.map cStr }

theorem instrument_sent {instrument : Instrument} (h : instrument.Accepted) :
    fincoreUpsertInstrument.record (instrumentParameters instrument)
      = some (instrumentRecord (sentInstrument instrument)) := by
  have hparameters : (instrumentParameters instrument).map (Option.map cStr)
      = (instrumentParameters (sentInstrument instrument)).map (Option.map cStr) := by
    simp [instrumentParameters, sentInstrument, cStr_cStr]
  have hsymbol : Char.ofNat 0 ∉ (sentInstrument instrument).symbol :=
    identifier_no_nul (by decide) h.symbol_upper
  rw [← instrument_record hsymbol (cStr_no_nul _) (cStr_no_nul _)]
  unfold UpsertStatement.record
  rw [hparameters]

theorem dataSource_sent {source : DataSource} (h : source.Accepted) :
    fincoreUpsertDataSource.record (dataSourceParameters source)
      = some (dataSourceRecord (sentDataSource source)) := by
  have hparameters : (dataSourceParameters source).map (Option.map cStr)
      = (dataSourceParameters (sentDataSource source)).map (Option.map cStr) := by
    simp [dataSourceParameters, sentDataSource, Function.comp_def, cStr_cStr]
  have hurl : ∀ url, (sentDataSource source).baseUrl = some url → Char.ofNat 0 ∉ url := by
    intro url hsome
    obtain ⟨url', _, rfl⟩ := Option.map_eq_some_iff.mp hsome
    exact cStr_no_nul url'
  have hcode : Char.ofNat 0 ∉ (sentDataSource source).code :=
    identifier_no_nul (by decide) h.code_upper
  rw [← dataSource_record hcode (cStr_no_nul _) hurl]
  unfold UpsertStatement.record
  rw [hparameters]

/-- **An instrument that is taken is stored as it is sent.** -/
theorem instrument_stored {instrument : Instrument} (h : instrument.Accepted)
    {row : Record InstrumentColumn}
    (hstores : instruments.Stores (instrumentRecord (sentInstrument instrument)) row) :
    row = instrumentRecord (sentInstrument instrument) := by
  have hcut : ∀ {s : Str} {n : ℕ}, s.length ≤ n → (cStr s).length ≤ n :=
    fun hlength => (List.takeWhile_sublist _).length_le.trans hlength
  funext c
  refine (?_ : (instruments.type c).Whole _) _ (hstores.given c rfl)
  cases c with
  | symbol => exact ColumnType.whole_varchar h.symbol_length
  | name => exact ColumnType.whole_varchar (hcut h.name_length)
  | assetClass => exact ColumnType.Whole.of_assign (assetClass_fits instrument.assetClass)
  | exchange => exact ColumnType.whole_varchar (hcut h.exchange_length)
  | tickSizeDecimals => exact ColumnType.whole_smallint _
  | isActive => exact ColumnType.whole_boolean _

/-- **A data source that is taken is stored as it is sent.** -/
theorem dataSource_stored {source : DataSource} (h : source.Accepted)
    {row : Record DataSourceColumn}
    (hstores : dataSources.Stores (dataSourceRecord (sentDataSource source)) row) :
    row = dataSourceRecord (sentDataSource source) := by
  have hcut : ∀ {s : Str} {n : ℕ}, s.length ≤ n → (cStr s).length ≤ n :=
    fun hlength => (List.takeWhile_sublist _).length_le.trans hlength
  funext c
  refine (?_ : (dataSources.type c).Whole _) _ (hstores.given c rfl)
  cases c with
  | code => exact ColumnType.whole_varchar h.code_length
  | displayName => exact ColumnType.whole_varchar (hcut h.displayName_length)
  | baseUrl => exact ColumnType.whole_text _
  | isActive => exact ColumnType.whole_boolean _

theorem instrument_key (instrument : Instrument) :
    (fincoreSchema.index .instruments).key (instrumentRecord instrument)
      = some [.text instrument.symbol] := by
  refine if_neg ?_
  rintro (⟨c, hc, _⟩ | hnull)
  · cases hc
  · cases List.mem_singleton.mp hnull

theorem dataSource_key (source : DataSource) :
    (fincoreSchema.index .dataSources).key (dataSourceRecord source)
      = some [.text source.code] := by
  refine if_neg ?_
  rintro (⟨c, hc, _⟩ | hnull)
  · cases hc
  · cases List.mem_singleton.mp hnull

theorem setInstrument_complete : setInstrument.Complete := by
  intro c
  cases c with
  | symbol => exact Or.inr List.mem_cons_self
  | _ => exact Or.inl (by decide : _ ∈ [InstrumentColumn.name, .assetClass, .exchange,
      .tickSizeDecimals, .isActive])

theorem setDataSource_complete : setDataSource.Complete := by
  intro c
  cases c with
  | code => exact Or.inr List.mem_cons_self
  | _ => exact Or.inl (by decide : _ ∈ [DataSourceColumn.displayName, .baseUrl, .isActive])

/-! ## §4. The registries. -/

/-- The two registries as maps from their keys. -/
structure Registries where
  instruments : Str → Option (Record InstrumentColumn)
  dataSources : Str → Option (Record DataSourceColumn)

def registriesOf (database : Database) : Registries where
  instruments symbol := fincoreSchema.find .instruments [.text symbol] database
  dataSources code := fincoreSchema.find .dataSources [.text code] database

/-- A call that returned has written its record at its key; one that threw has
written nothing. -/
def Registries.apply (registries : Registries) :
    WriteCall × Except Exn (Option InsertSummary) → Registries
  | (.upsertInstrument instrument, .ok _) =>
      let row := instrumentRecord (sentInstrument instrument)
      { registries with
        instruments := Function.update registries.instruments instrument.symbol (some row) }
  | (.upsertDataSource source, .ok _) =>
      let row := dataSourceRecord (sentDataSource source)
      { registries with
        dataSources := Function.update registries.dataSources source.code (some row) }
  | _ => registries

theorem registriesOf_congr {database database' : Database}
    (hinstruments : database' .instruments = database .instruments)
    (hsources : database' .dataSources = database .dataSources) :
    registriesOf database' = registriesOf database := by
  unfold registriesOf Catalog.find
  rw [hinstruments, hsources]

section Upserts

variable (platform : Platform) {refusalText : RefusalText} {database database' : Database} {n : ℕ}

theorem upsertInstrument_exec {instrument : Instrument} (h : instrument.Accepted)
    (hexec : (WriteStatement.upsertInstrument (instrumentParameters instrument)).exec platform
      refusalText database = .ok (database', n)) :
    registriesOf database'
      = (registriesOf database).apply (.upsertInstrument instrument, .ok none) := by
  obtain ⟨record, hrecord, hinsert⟩ := insertSent_ok hexec
  rw [instrument_sent h] at hrecord
  rw [← Option.some.inj hrecord] at hinsert
  obtain ⟨row, hstores, hfind⟩ := Catalog.insert_find setInstrument_complete hinsert
  rw [instrument_stored h hstores, instrument_key] at hfind
  have hother : database' .dataSources = database .dataSources :=
    Catalog.insert_other hinsert nofun
  unfold registriesOf Registries.apply
  congr 1
  · funext symbol
    rw [Function.update_apply]
    refine (hfind [.text symbol]).trans ?_
    by_cases hsymbol : symbol = instrument.symbol
    · exact (if_pos (by rw [hsymbol]; rfl)).trans (if_pos hsymbol).symm
    · refine (if_neg (fun heq => hsymbol ?_)).trans (if_neg hsymbol).symm
      exact (Value.text.inj (List.cons.inj (Option.some.inj heq)).1).symm
  · unfold Catalog.find
    rw [hother]

theorem upsertDataSource_exec {source : DataSource} (h : source.Accepted)
    (hexec : (WriteStatement.upsertDataSource (dataSourceParameters source)).exec platform
      refusalText database = .ok (database', n)) :
    registriesOf database'
      = (registriesOf database).apply (.upsertDataSource source, .ok none) := by
  obtain ⟨record, hrecord, hinsert⟩ := insertSent_ok hexec
  rw [dataSource_sent h] at hrecord
  rw [← Option.some.inj hrecord] at hinsert
  obtain ⟨row, hstores, hfind⟩ := Catalog.insert_find setDataSource_complete hinsert
  rw [dataSource_stored h hstores, dataSource_key] at hfind
  have hother : database' .instruments = database .instruments :=
    Catalog.insert_other hinsert nofun
  unfold registriesOf Registries.apply
  congr 1
  · unfold Catalog.find
    rw [hother]
  · funext code
    rw [Function.update_apply]
    refine (hfind [.text code]).trans ?_
    by_cases hcode : code = source.code
    · exact (if_pos (by rw [hcode]; rfl)).trans (if_pos hcode).symm
    · refine (if_neg (fun heq => hcode ?_)).trans (if_neg hcode).symm
      exact (Value.text.inj (List.cons.inj (Option.some.inj heq)).1).symm

/-- The inserts of a batch leave the registries alone. -/
theorem execAll_registries {queries : List Prepared}
    (h : execAll (schemaServer platform refusalText) (queries.map .insert) database
      = .ok (database', n)) : registriesOf database' = registriesOf database := by
  refine execAll_within (R := Same registriesOf) ?_ h
  intro q hq data data' m hexec
  obtain ⟨prepared, _, rfl⟩ := List.mem_map.mp hq
  obtain ⟨record, _, hinsert⟩ := insertSent_ok hexec
  refine registriesOf_congr (Catalog.insert_other hinsert ?_) (Catalog.insert_other hinsert ?_)
  · cases prepared.statement.table <;> nofun
  · cases prepared.statement.table <;> nofun

end Upserts

section Runs

variable (platform : Platform) (refusalText : RefusalText)

/-- What some calls leave of the registries: what those that returned have made of
them, in order; and behind that an upsert that threw because its answer was
lost, with the connection. -/
inductive LastWrites (start : Registries)
    (calls : List (WriteCall × Except Exn (Option InsertSummary))) (t : DbSession) : Prop where
  | answered (same : registriesOf t.committed = calls.foldl Registries.apply start) :
      LastWrites start calls t
  | unanswered (call : WriteCall) (e : Exn) (thrown : (call, .error e) ∈ calls)
      (closed : t.connected = false) (lost : ¬ Answered t)
      (same : registriesOf t.committed
        = (calls.foldl Registries.apply start).apply (call, .ok none)) :
      LastWrites start calls t

/-- An upsert is one statement behind a check. -/
theorem upsert_lastWrites (call : WriteCall) (valid : Except Exn Unit) (statement : WriteStatement)
    (hexec : valid = .ok () → ∀ database database' n,
      statement.exec platform refusalText database = .ok (database', n) →
      registriesOf database' = (registriesOf database).apply (call, .ok none))
    (herror : ∀ (registries : Registries) e, registries.apply (call, .error e) = registries)
    (hcall : call.perform platform refusalText = (do
      (do
        Action.ofExcept valid
        let _ ← Session.issue (schemaServer platform refusalText) (.query statement)
        return ())
      return none)) {s : DbSession} (hs : s.status = .idle) :
    LastWrites (registriesOf s.committed) [(call, (call.perform platform refusalText s).1)]
        (call.perform platform refusalText s).2
      ∧ (call.perform platform refusalText s).2.status = .idle := by
  rw [hcall]
  cases hvalid : valid with
  | error e => exact ⟨.answered (herror _ e).symm, hs⟩
  | ok u =>
      rcases query_autocommit (schemaServer platform refusalText) statement hs with
        ⟨n, t, hrun, hquery, hidle⟩ | ⟨e, t, hrun, hsame, hidle⟩
        | ⟨e, n, t, hrun, hquery, hidle, hclosed, hlost⟩
      · simp only [Action.bind_run, Action.ofExcept_run, hrun, Action.pure_run]
        exact ⟨.answered (hexec hvalid _ _ n hquery), hidle⟩
      · simp only [Action.bind_run, Action.ofExcept_run, hrun]
        exact ⟨.answered ((congrArg registriesOf hsame).trans (herror _ e).symm), hidle⟩
      · simp only [Action.bind_run, Action.ofExcept_run, hrun]
        refine ⟨.unanswered call e List.mem_cons_self hclosed hlost ?_, hidle⟩
        show _ = ((registriesOf s.committed).apply (call, .error e)).apply (call, .ok none)
        rw [herror]
        exact hexec hvalid _ _ n hquery

theorem upsertInstrument_lastWrites (instrument : Instrument) {s : DbSession}
    (hs : s.status = .idle) :
    LastWrites (registriesOf s.committed) [(.upsertInstrument instrument,
        ((WriteCall.upsertInstrument instrument).perform platform refusalText s).1)]
        ((WriteCall.upsertInstrument instrument).perform platform refusalText s).2
      ∧ ((WriteCall.upsertInstrument instrument).perform platform refusalText s).2.status = .idle :=
  upsert_lastWrites platform refusalText (.upsertInstrument instrument) instrument.validate
    (.upsertInstrument (instrumentParameters instrument))
    (fun hvalid _ _ _ => upsertInstrument_exec platform (Instrument.validate_iff.mp hvalid))
    (fun _ _ => rfl) rfl hs

theorem upsertDataSource_lastWrites (source : DataSource) {s : DbSession} (hs : s.status = .idle) :
    LastWrites (registriesOf s.committed) [(.upsertDataSource source,
        ((WriteCall.upsertDataSource source).perform platform refusalText s).1)]
        ((WriteCall.upsertDataSource source).perform platform refusalText s).2
      ∧ ((WriteCall.upsertDataSource source).perform platform refusalText s).2.status = .idle :=
  upsert_lastWrites platform refusalText (.upsertDataSource source) source.validate
    (.upsertDataSource (dataSourceParameters source))
    (fun hvalid _ _ _ => upsertDataSource_exec platform (DataSource.validate_iff.mp hvalid))
    (fun _ _ => rfl) rfl hs

/-- Where the call has returned, the registries are as it has made them. -/
theorem LastWrites.returned {start : Registries} {call : WriteCall} {r : Option InsertSummary}
    {t : DbSession} (h : LastWrites start [(call, .ok r)] t) :
    registriesOf t.committed = start.apply (call, .ok r) := by
  cases h with
  | answered hsame => exact hsame
  | unanswered lost e hmem => cases Prod.mk.inj (List.mem_singleton.mp hmem) |>.2

/-- A batch writes no registry. -/
theorem insertFacts_registries {R : Type} (kind : BatchKind R) (records : List R) {s : DbSession}
    (hs : s.status = .idle) :
    ∃ r t, insertFacts platform refusalText kind records s = (r, t)
      ∧ registriesOf t.committed = registriesOf s.committed
      ∧ (NoFailedRollback t → t.status = .idle) := by
  rcases insertBatchInto_returned (schemaServer platform refusalText) .insert platform kind
    records hs with
    ⟨e, t, hrun, hunwound⟩ | ⟨queries, data, n, t, _, _, hexec, hrun, rfl, hidle⟩
    | ⟨e, queries, data, n, t, _, _, hexec, hrun, rfl, hidle, _⟩
  · exact ⟨_, t, hrun, congrArg registriesOf hunwound.committed, hunwound.idle hs⟩
  · exact ⟨_, t, hrun, execAll_registries platform hexec, fun _ => hidle⟩
  · exact ⟨_, t, hrun, execAll_registries platform hexec, fun _ => hidle⟩

/-- **What one call does to the registries**, from an idle session. -/
theorem WriteCall.perform_registries (call : WriteCall) {s : DbSession} (hs : s.status = .idle) :
    LastWrites (registriesOf s.committed) [(call, (call.perform platform refusalText s).1)]
        (call.perform platform refusalText s).2
      ∧ (NoFailedRollback (call.perform platform refusalText s).2 →
        (call.perform platform refusalText s).2.status = .idle) := by
  cases call with
  | upsertInstrument instrument =>
      obtain ⟨hwrites, hidle⟩ := upsertInstrument_lastWrites platform refusalText instrument hs
      exact ⟨hwrites, fun _ => hidle⟩
  | upsertDataSource source =>
      obtain ⟨hwrites, hidle⟩ := upsertDataSource_lastWrites platform refusalText source hs
      exact ⟨hwrites, fun _ => hidle⟩
  | batch call =>
      obtain ⟨r, t, hrun, hregistries, hidle⟩ : ∃ r t,
          call.performOn platform refusalText s = (r, t)
          ∧ registriesOf t.committed = registriesOf s.committed
          ∧ (NoFailedRollback t → t.status = .idle) := by
        cases call with
        | insertQuotes quotes => exact insertFacts_registries platform refusalText _ quotes hs
        | insertTicks ticks => exact insertFacts_registries platform refusalText _ ticks hs
        | insertOrderBookSnapshots snapshots =>
            exact insertFacts_registries platform refusalText _ snapshots hs
        | insertTechnicalIndicators indicators =>
            exact insertFacts_registries platform refusalText _ indicators hs
      unfold WriteCall.perform
      cases r with
      | ok summary =>
          simp only [bind_ok hrun]
          exact ⟨.answered hregistries, hidle⟩
      | error e =>
          simp only [bind_error hrun]
          exact ⟨.answered hregistries, hidle⟩

/-- On a closed connection no call does anything to the session. -/
theorem WriteCall.perform_closed (call : WriteCall) {s : DbSession} (h : s.connected = false) :
    (call.perform platform refusalText s).2 = s :=
  call.perform_within platform refusalText
    (issue_staysClosed (schemaServer platform refusalText)) s h

/-- Nor does an upsert return. -/
theorem WriteCall.perform_closed_apply (call : WriteCall) {s : DbSession}
    (h : s.connected = false) (registries : Registries) :
    registries.apply (call, (call.perform platform refusalText s).1) = registries := by
  have hissue : ∀ statement, Session.issue (schemaServer platform refusalText) statement s
      = (.error ((schemaServer platform refusalText).closed statement), s) :=
    fun _ => if_pos h
  -- the check or the statement behind it throws
  have hthrows : ∀ (valid : Except Exn Unit) (statement : WriteStatement), ∃ e,
      ((do
        (do
          Action.ofExcept valid
          let _ ← Session.issue (schemaServer platform refusalText) (.query statement)
          return ())
        return none : Action DbSession Exn (Option InsertSummary)) s).1 = .error e := by
    intro valid statement
    cases valid with
    | error e => exact ⟨e, rfl⟩
    | ok u =>
        simp only [Action.bind_run, Action.ofExcept_run, hissue]
        exact ⟨_, rfl⟩
  cases call with
  | upsertInstrument instrument =>
      obtain ⟨e, he⟩ := hthrows instrument.validate
        (.upsertInstrument (instrumentParameters instrument))
      exact congrArg (fun r => registries.apply (.upsertInstrument instrument, r)) he
  | upsertDataSource source =>
      obtain ⟨e, he⟩ := hthrows source.validate (.upsertDataSource (dataSourceParameters source))
      exact congrArg (fun r => registries.apply (.upsertDataSource source, r)) he
  | batch call => rfl

/-- The calls of a run with their results. -/
def results : List WriteCall → DbSession → List (WriteCall × Except Exn (Option InsertSummary))
  | [], _ => []
  | call :: rest, s =>
      (call, (call.perform platform refusalText s).1)
        :: results rest (call.perform platform refusalText s).2

theorem runWrites_cons (call : WriteCall) (rest : List WriteCall) (s : DbSession) :
    runWrites platform refusalText (call :: rest) s
      = runWrites platform refusalText rest (call.perform platform refusalText s).2 :=
  attemptAll_cons _ _ _

theorem runWrites_grows (calls : List WriteCall) (s : DbSession) :
    LogGrows s (runWrites platform refusalText calls s) := by
  refine Within.attemptAll (R := LogGrows) (fun x hx => ?_) s
  obtain ⟨call, _, rfl⟩ := List.mem_map.mp hx
  exact call.perform_within platform refusalText (Grows.issue (schemaServer platform refusalText))

/-- While no ROLLBACK fails, every call finds the session idle. -/
theorem runWrites_idle (calls : List WriteCall) :
    ∀ s : DbSession, s.status = .idle →
      NoFailedRollback (runWrites platform refusalText calls s) →
      (runWrites platform refusalText calls s).status = .idle := by
  induction calls with
  | nil => exact fun _ hs _ => hs
  | cons call rest ih =>
      intro s hs hrollbacks
      rw [runWrites_cons] at hrollbacks ⊢
      have hmid := hrollbacks.of_grows (runWrites_grows platform refusalText rest _)
      exact ih _ ((call.perform_registries platform refusalText hs).2 hmid) hrollbacks

/-- On a closed connection a run does nothing. -/
theorem runWrites_closed (calls : List WriteCall) {s : DbSession} (h : s.connected = false)
    (registries : Registries) :
    runWrites platform refusalText calls s = s
      ∧ (results platform refusalText calls s).foldl Registries.apply registries = registries := by
  induction calls with
  | nil => exact ⟨rfl, rfl⟩
  | cons call rest ih =>
      rw [runWrites_cons, call.perform_closed platform refusalText h]
      refine ⟨ih.1, ?_⟩
      rw [results, List.foldl_cons, call.perform_closed_apply platform refusalText h,
        call.perform_closed platform refusalText h]
      exact ih.2

theorem runWrites_registries (calls : List WriteCall) :
    ∀ s : DbSession, s.status = .idle →
      NoFailedRollback (runWrites platform refusalText calls s) →
      LastWrites (registriesOf s.committed) (results platform refusalText calls s)
        (runWrites platform refusalText calls s) := by
  induction calls with
  | nil => exact fun _ _ _ => .answered rfl
  | cons call rest ih =>
      intro s hs hrollbacks
      rw [runWrites_cons] at hrollbacks ⊢
      obtain ⟨hwrites, hidle⟩ := call.perform_registries platform refusalText hs
      have hmid := hrollbacks.of_grows (runWrites_grows platform refusalText rest _)
      cases hwrites with
      | answered hsame =>
          have hrest := ih _ (hidle hmid) hrollbacks
          rw [hsame] at hrest
          cases hrest with
          | answered hsame' => exact .answered hsame'
          | unanswered lost e hmem hclosed hlost hsame' =>
              exact .unanswered lost e (List.mem_cons_of_mem _ hmem) hclosed hlost hsame'
      | unanswered lost e hmem hclosed hlost hsame =>
          -- the connection is gone, and nothing happens any more
          obtain ⟨hrun, hfold⟩ := runWrites_closed platform refusalText rest hclosed
            ((registriesOf s.committed).apply (call, (call.perform platform refusalText s).1))
          rw [hrun]
          refine .unanswered lost e ?_ hclosed hlost ?_
          · rw [List.mem_singleton.mp hmem]
            exact List.mem_cons_self
          · exact hsame.trans
              (congrArg (fun registries => registries.apply (lost, .ok none)) hfold.symm)

/-- **The registries hold the last write of each key.**  After any run in which
no ROLLBACK failed, whatever becomes of the other statements, they are what the
calls that returned have made of them, in order, and the upsert, if any, at
which the connection broke before its answer. -/
theorem registries_last_write (database : Database) (fate : ℕ → Fate) (calls : List WriteCall)
    (h : NoFailedRollback (runWrites platform refusalText calls (connectTo database fate))) :
    LastWrites (registriesOf database)
      (results platform refusalText calls (connectTo database fate))
      (runWrites platform refusalText calls (connectTo database fate)) :=
  runWrites_registries platform refusalText calls _ rfl h

end Runs

/-- The second upsert of the instrument has returned and the third has not. -/
theorem registries_last_write_sampleWrites :
    LastWrites (registriesOf (fun _ => []))
        (results gregorianPlatform silentText sampleWrites (connectTo (fun _ => []) lastRefused))
        (runWrites gregorianPlatform silentText sampleWrites (connectTo (fun _ => []) lastRefused))
    ∧ ((registriesOf (runWrites gregorianPlatform silentText sampleWrites
        (connectTo (fun _ => []) lastRefused)).committed).instruments "IBM".toList).map (· .name)
      = some (.text "IBM".toList) :=
  ⟨registries_last_write gregorianPlatform silentText (fun _ => []) lastRefused sampleWrites
    (by decide +kernel), by decide +kernel⟩

end FinCore.Storage

/-
  FinCore.Storage.SentRows
  ────────────────────────
  The rows that ticks, snapshots, indicators, instruments and data sources are
  sent as.
-/
import FinCore.Cxx.ReadBack
import FinCore.Domain.Validation
import FinCore.Storage.QuoteRow
import FinCore.Storage.Schema

namespace FinCore.Storage

open FinCore.Cxx FinCore.Sql FinCore.Domain

/-! ## §1. Batches. -/

/-- A column of a text that may be absent. -/
def optionalText : Option Str → Datum
  | none => .null
  | some s => .text s

theorem optionalText_becomes (platform : Platform) {s : Option Str}
    (h : ∀ t, s = some t → Char.ofNat 0 ∉ t) :
    Becomes platform (.text, s.map cStr) (optionalText s) := by
  cases s with
  | none => rfl
  | some t => exact text_becomes platform (h t rfl)

def snapshotRow (us : ℤ) (snapshot : Domain.OrderBookSnapshot) : Row :=
  [.text snapshot.symbol, .text snapshot.source, .instant us, .number snapshot.bestBid.toRat,
    .number snapshot.bestAsk.toRat, .number snapshot.imbalance.toRat,
    .number snapshot.totalBidVolume.toRat, .number snapshot.totalAskVolume.toRat]

theorem snapshot_sends {platform : Platform} {snapshot : Domain.OrderBookSnapshot} {us : ℤ}
    (hidentified : Identified snapshot.symbol snapshot.source)
    (hus : sentInstant platform snapshot.snapshotTime = some us) :
    Sends platform snapshotBatch snapshot (snapshotRow us snapshot) := by
  obtain ⟨hsymbol, hsource⟩ := identified_no_nul hidentified
  obtain ⟨text, htime, hinstant⟩ := sentInstant_eq_some_iff.mp hus
  have hparameters : snapshotBatch.parameters platform snapshot = .ok [some snapshot.symbol,
      some snapshot.source, some text, some snapshot.bestBid.toString,
      some snapshot.bestAsk.toString, some snapshot.imbalance.toString,
      some snapshot.totalBidVolume.toString, some snapshot.totalAskVolume.toString] := by
    show timestampToUtcText platform snapshot.snapshotTime >>= _ = _
    rw [htime]
    rfl
  exact Sends.of_columns hparameters
    (.cons (text_becomes platform hsymbol) (.cons (text_becomes platform hsource)
      (.cons (timestamptz_becomes hinstant) (.cons (numeric_becomes platform _)
      (.cons (numeric_becomes platform _) (.cons (numeric_becomes platform _)
      (.cons (numeric_becomes platform _) (.cons (numeric_becomes platform _) .nil))))))))

def tickRow (us : ℤ) (tick : Tick) : Row :=
  [.text tick.symbol, .text tick.source, .instant us, optionalText tick.tradeId,
    .number tick.price.toRat, .number tick.size.toRat, .text [tick.side.toChar]]

theorem side_becomes (platform : Platform) (side : TradeSide) :
    Becomes platform (.char1, some (cStr [side.toChar])) (.text [side.toChar]) := by
  cases side <;> rfl

theorem tick_sends {platform : Platform} {tick : Tick} {us : ℤ}
    (hidentified : Identified tick.symbol tick.source)
    (htradeId : ∀ tradeId, tick.tradeId = some tradeId → Char.ofNat 0 ∉ tradeId)
    (hus : sentInstant platform tick.timestamp = some us) :
    Sends platform tickBatch tick (tickRow us tick) := by
  obtain ⟨hsymbol, hsource⟩ := identified_no_nul hidentified
  obtain ⟨text, htime, hinstant⟩ := sentInstant_eq_some_iff.mp hus
  have hparameters : tickBatch.parameters platform tick = .ok [some tick.symbol,
      some tick.source, some text, tick.tradeId, some tick.price.toString,
      some tick.size.toString, some [tick.side.toChar]] := by
    show timestampToUtcText platform tick.timestamp >>= _ = _
    rw [htime]
    rfl
  exact Sends.of_columns hparameters
    (.cons (text_becomes platform hsymbol) (.cons (text_becomes platform hsource)
      (.cons (timestamptz_becomes hinstant) (.cons (optionalText_becomes platform htradeId)
      (.cons (numeric_becomes platform _) (.cons (numeric_becomes platform _)
      (.cons (side_becomes platform _) .nil)))))))

def indicatorRow (us : ℤ) (json : Str) (indicator : TechnicalIndicator) : Row :=
  [.text indicator.symbol, .text indicator.source, .text indicator.indicatorName, .instant us,
    .number indicator.value.toRat, .json json]

section Indicator

variable {platform : Platform} {indicator : TechnicalIndicator}

theorem indicator_parameters {text : Str}
    (htime : timestampToUtcText platform indicator.timestamp = .ok text) :
    indicatorBatch.parameters platform indicator = .ok [some indicator.symbol,
      some indicator.source, some indicator.indicatorName, some text,
      some indicator.value.toString, some indicator.parametersJson] := by
  show timestampToUtcText platform indicator.timestamp >>= _ = _
  rw [htime]
  rfl

theorem indicator_sends {us : ℤ} {json : Str}
    (hidentified : Identified indicator.symbol indicator.source)
    (hname : isUpperIdentifier indicator.indicatorName "_".toList = true)
    (hus : sentInstant platform indicator.timestamp = some us)
    (hjson : platform.jsonb (cStr indicator.parametersJson) = some json) :
    Sends platform indicatorBatch indicator (indicatorRow us json indicator) := by
  obtain ⟨hsymbol, hsource⟩ := identified_no_nul hidentified
  have hname := identifier_no_nul (by decide) hname
  obtain ⟨text, htime, hinstant⟩ := sentInstant_eq_some_iff.mp hus
  have hparameters : Becomes platform (.jsonb, some (cStr indicator.parametersJson))
      (.json json) := by
    show (platform.jsonb (cStr indicator.parametersJson)).map _ = _
    rw [hjson]
    rfl
  exact Sends.of_columns (indicator_parameters htime)
    (.cons (text_becomes platform hsymbol) (.cons (text_becomes platform hsource)
      (.cons (text_becomes platform hname) (.cons (timestamptz_becomes hinstant)
      (.cons (numeric_becomes platform _) (.cons hparameters .nil))))))

/-- Parameters that the server reads as no `jsonb` send no row. -/
theorem indicator_sends_json {row : Row} (h : Sends platform indicatorBatch indicator row) :
    ∃ json, platform.jsonb (cStr indicator.parametersJson) = some json := by
  obtain ⟨q, hq, hrow⟩ := h
  unfold preparedOf at hq
  cases htime : timestampToUtcText platform indicator.timestamp with
  | error e =>
      have hthrow : indicatorBatch.parameters platform indicator = .error e := by
        show timestampToUtcText platform indicator.timestamp >>= _ = _
        rw [htime]
        rfl
      rw [hthrow] at hq
      cases hq
  | ok text =>
      rw [indicator_parameters htime] at hq
      rw [← Except.ok.inj hq] at hrow
      have hcolumn := Prepared.row_column hrow (i := 5) rfl rfl
      obtain ⟨json, hjson, _⟩ := Option.map_eq_some_iff.mp hcolumn
      exact ⟨json, hjson⟩

end Indicator

/-! ## §2. Upserts. -/

/-- How a parameter of an upsert becomes a column. -/
inductive UpsertCast where
  | text
  | smallint
  | boolean
  deriving DecidableEq

def UpsertCast.apply : UpsertCast → Option Str → Option Value
  | _, none => some .null
  | text, some s => some (.text s)
  | smallint, some s => (readSmallint s).map .integer
  | boolean, some s => (readBoolean s).map .boolean

/-- A prepared `INSERT … ON CONFLICT (…) DO UPDATE`. -/
structure UpsertStatement (C : Type) where
  columns : List C
  casts : List UpsertCast

/-- The record that the parameters of an upsert make. -/
def UpsertStatement.record {C : Type} [DecidableEq C] (statement : UpsertStatement C)
    (parameters : List (Option Str)) : Option (Record C) :=
  ((statement.casts.zip (parameters.map (Option.map cStr))).mapM
    (fun (column : UpsertCast × Option Str) => column.1.apply column.2)).map
    (recordOf statement.columns)

/-- `bool_text`. -/
def boolText (value : Bool) : Str := if value then "true".toList else "false".toList

/-- `int_text`. -/
def intText (value : Int16) : Str :=
  if value.toInt < 0 then '-' :: toStringNat value.toInt.natAbs
  else toStringNat value.toInt.natAbs

def fincoreUpsertInstrument : UpsertStatement InstrumentColumn where
  columns := [.symbol, .name, .assetClass, .exchange, .tickSizeDecimals, .isActive]
  casts := [.text, .text, .text, .text, .smallint, .boolean]

def instrumentParameters (instrument : Instrument) : List (Option Str) :=
  [some instrument.symbol, some instrument.name, some instrument.assetClass.toString,
    some instrument.exchange, some (intText instrument.tickSizeDecimals),
    some (boolText instrument.isActive)]

def fincoreUpsertDataSource : UpsertStatement DataSourceColumn where
  columns := [.code, .displayName, .baseUrl, .isActive]
  casts := [.text, .text, .text, .boolean]

def dataSourceParameters (source : DataSource) : List (Option Str) :=
  [some source.code, some source.displayName, source.baseUrl, some (boolText source.isActive)]

theorem readBoolean_boolText (value : Bool) :
    readBoolean (cStr (boolText value)) = some value := by
  cases value <;> decide

/-- **A `smallint` is read as it was printed.** -/
theorem readSmallint_intText (value : Int16) :
    readSmallint (cStr (intText value)) = some value.toInt := by
  obtain ⟨σ, htext, hvalue⟩ : ∃ σ : Sign, intText value = σ.text ++ toStringNat value.toInt.natAbs
      ∧ σ.apply (value.toInt.natAbs : ℤ) = value.toInt := by
    unfold intText
    split
    · refine ⟨.minus, rfl, ?_⟩
      show -(value.toInt.natAbs : ℤ) = _
      omega
    · refine ⟨.none, rfl, ?_⟩
      show (value.toInt.natAbs : ℤ) = _
      omega
  have hdigits := toStringNat_isDigits value.toInt.natAbs
  -- no NUL cuts the text short on its way
  have hnul : Char.ofNat 0 ∉ intText value := by
    rw [htext, List.mem_append]
    rintro (hmem | hmem)
    · cases σ <;> exact absurd hmem (by decide)
    · exact digits_no_nul hdigits hmem
  have hscan := scanInteger_text σ hdigits (toStringNat_ne_nil _)
  have hlow := value.le_toInt
  have hhigh := value.toInt_lt
  rw [cStr_eq_self hnul, htext]
  unfold readSmallint
  simp only [hscan, IntegerScan.value, digitsValue_toStringNat, hvalue]
  rw [if_pos]
  refine ⟨toStringNat_ne_nil _, ?_, hlow, hhigh⟩
  rw [← List.length_append, List.drop_length]
  rfl

def instrumentRecord (instrument : Instrument) : Record InstrumentColumn
  | .symbol => .text instrument.symbol
  | .name => .text instrument.name
  | .assetClass => .text instrument.assetClass.toString
  | .exchange => .text instrument.exchange
  | .tickSizeDecimals => .integer instrument.tickSizeDecimals.toInt
  | .isActive => .boolean instrument.isActive

/-- **An instrument is sent as the record that holds it.** -/
theorem instrument_record {instrument : Instrument} (hsymbol : Char.ofNat 0 ∉ instrument.symbol)
    (hname : Char.ofNat 0 ∉ instrument.name) (hexchange : Char.ofNat 0 ∉ instrument.exchange) :
    fincoreUpsertInstrument.record (instrumentParameters instrument)
      = some (instrumentRecord instrument) := by
  have hasset : cStr instrument.assetClass.toString = instrument.assetClass.toString := by
    cases instrument.assetClass <;> decide
  unfold UpsertStatement.record instrumentParameters fincoreUpsertInstrument
  simp only [List.map_cons, List.map_nil, Option.map_some, List.zip_cons_cons, List.zip_nil_right,
    List.mapM_cons, List.mapM_nil, UpsertCast.apply, readSmallint_intText, readBoolean_boolText,
    cStr_eq_self hsymbol, cStr_eq_self hname, cStr_eq_self hexchange, hasset]
  refine congrArg some (funext ?_)
  intro column
  cases column <;> rfl

def dataSourceRecord (source : DataSource) : Record DataSourceColumn
  | .code => .text source.code
  | .displayName => .text source.displayName
  | .baseUrl => (optionalText source.baseUrl).toValue
  | .isActive => .boolean source.isActive

/-- **A data source is sent as the record that holds it.** -/
theorem dataSource_record {source : DataSource} (hcode : Char.ofNat 0 ∉ source.code)
    (hname : Char.ofNat 0 ∉ source.displayName)
    (hurl : ∀ url, source.baseUrl = some url → Char.ofNat 0 ∉ url) :
    fincoreUpsertDataSource.record (dataSourceParameters source)
      = some (dataSourceRecord source) := by
  have hbaseUrl : UpsertCast.text.apply (source.baseUrl.map cStr)
      = some (optionalText source.baseUrl).toValue := by
    cases hsource : source.baseUrl with
    | none => rfl
    | some url =>
        rw [Option.map_some, cStr_eq_self (hurl url hsource)]
        rfl
  unfold UpsertStatement.record dataSourceParameters fincoreUpsertDataSource
  simp only [List.map_cons, List.map_nil, Option.map_some, List.zip_cons_cons, List.zip_nil_right,
    List.mapM_cons, List.mapM_nil, hbaseUrl]
  simp only [UpsertCast.apply, readBoolean_boolText, cStr_eq_self hcode, cStr_eq_self hname]
  refine congrArg some (funext ?_)
  intro column
  cases column <;> rfl

end FinCore.Storage

/-
  FinCore.Storage.Schema
  ──────────────────────
  The tables of `migration/schema.sql`: types, generated columns and CHECK
  constraints.  The columns `created_at` and `updated_at`, which only their
  defaults and a trigger write, are left out.
-/
import FinCore.Sql.Schema
import FinCore.Storage.PostgresRepository

namespace FinCore.Storage

open FinCore.Cxx FinCore.Sql

/-! ## §1. Columns. -/

inductive InstrumentColumn where
  | symbol
  | name
  | assetClass
  | exchange
  | tickSizeDecimals
  | isActive
  deriving DecidableEq

inductive DataSourceColumn where
  | code
  | displayName
  | baseUrl
  | isActive
  deriving DecidableEq

inductive QuoteColumn where
  | symbol
  | source
  | timestamp
  | price
  | openPrice
  | high
  | low
  | volume
  | changePct
  deriving DecidableEq

inductive TickColumn where
  | symbol
  | source
  | timestamp
  | tradeId
  | price
  | size
  | side
  deriving DecidableEq

inductive SnapshotColumn where
  | symbol
  | source
  | snapshotTime
  | bestBid
  | bestAsk
  | midPrice
  | spread
  | imbalance
  | totalBidVol
  | totalAskVol
  deriving DecidableEq

inductive IndicatorColumn where
  | symbol
  | source
  | indicatorName
  | timestamp
  | value
  | parameters
  deriving DecidableEq

/-! ## §2. Tables. -/

def zero : Value := .number 0

/-- `[A-Z0-9…]`. -/
def upperClass (extraCharacters : Str) (c : Char) : Bool :=
  c.isUpper || c.isDigit || extraCharacters.contains c

/-- `fincore.instruments`. -/
def instruments : Table InstrumentColumn where
  columns := [.symbol, .name, .assetClass, .exchange, .tickSizeDecimals, .isActive]
  all_columns c := by cases c <;> decide
  type
    | .symbol => .varchar 16
    | .name => .varchar 100
    | .assetClass => .varchar 20
    | .exchange => .varchar 32
    | .tickSizeDecimals => .smallint
    | .isActive => .boolean
  nullable _ := false
  generated _ := none
  checks :=
    [("instruments_symbol_format_ck".toList, fun r =>
        (r .symbol).isUpperMatch (upperClass "._:/-".toList)),
      ("instruments_name_nonempty_ck".toList, fun r => (r .name).isNotBlank),
      ("instruments_asset_class_ck".toList, fun r =>
        (r .assetClass).onText (fun s => ["EQUITY".toList, "FOREX".toList, "CRYPTO".toList,
          "FUTURES".toList, "ETF".toList].contains s)),
      ("instruments_tick_decimals_ck".toList, fun r =>
        (r .tickSizeDecimals).between (.integer 0) (.integer 8))]

/-- `fincore.data_sources`. -/
def dataSources : Table DataSourceColumn where
  columns := [.code, .displayName, .baseUrl, .isActive]
  all_columns c := by cases c <;> decide
  type
    | .code => .varchar 20
    | .displayName => .varchar 60
    | .baseUrl => .text
    | .isActive => .boolean
  nullable
    | .baseUrl => true
    | _ => false
  generated _ := none
  checks :=
    [("data_sources_code_format_ck".toList, fun r =>
        (r .code).isUpperMatch (upperClass "_-".toList)),
      ("data_sources_name_nonempty_ck".toList, fun r => (r .displayName).isNotBlank)]

/-- `fincore.quotes`. -/
def quotes : Table QuoteColumn where
  columns := [.symbol, .source, .timestamp, .price, .openPrice, .high, .low, .volume, .changePct]
  all_columns c := by cases c <;> decide
  type
    | .symbol => .varchar 16
    | .source => .varchar 20
    | .timestamp => .timestamptz
    | .price | .openPrice | .high | .low => .numeric 20 8
    | .volume => .numeric 24 8
    | .changePct => .numeric 20 8
  nullable
    | .changePct => true
    | _ => false
  generated _ := none
  checks :=
    [("quotes_prices_nonnegative_ck".toList, fun r =>
        Truth.and (zero.le (r .price)) (Truth.and (zero.le (r .openPrice))
          (Truth.and (zero.le (r .high)) (zero.le (r .low))))),
      ("quotes_high_low_ck".toList, fun r => (r .low).le (r .high)),
      ("quotes_volume_nonnegative_ck".toList, fun r => zero.le (r .volume))]

/-- `fincore.ticks`. -/
def ticks : Table TickColumn where
  columns := [.symbol, .source, .timestamp, .tradeId, .price, .size, .side]
  all_columns c := by cases c <;> decide
  type
    | .symbol => .varchar 16
    | .source => .varchar 20
    | .timestamp => .timestamptz
    | .tradeId => .varchar 64
    | .price => .numeric 20 8
    | .size => .numeric 24 8
    | .side => .character 1
  nullable
    | .tradeId => true
    | _ => false
  generated _ := none
  checks :=
    [("ticks_price_positive_ck".toList, fun r => zero.lt (r .price)),
      ("ticks_size_positive_ck".toList, fun r => zero.lt (r .size)),
      ("ticks_side_ck".toList, fun r =>
        (r .side).onText (fun s => ["B".toList, "A".toList, "U".toList].contains s)),
      ("ticks_trade_id_nonempty_ck".toList, fun r =>
        Truth.or (r .tradeId).isNull (r .tradeId).isNotBlank)]

/-- `fincore.order_book_snapshots`. -/
def orderBookSnapshots : Table SnapshotColumn where
  columns := [.symbol, .source, .snapshotTime, .bestBid, .bestAsk, .midPrice, .spread,
    .imbalance, .totalBidVol, .totalAskVol]
  all_columns c := by cases c <;> decide
  type
    | .symbol => .varchar 16
    | .source => .varchar 20
    | .snapshotTime => .timestamptz
    | .bestBid | .bestAsk | .midPrice | .spread | .imbalance => .numeric 20 8
    | .totalBidVol | .totalAskVol => .numeric 24 8
  nullable
    | .midPrice | .spread => true
    | _ => false
  generated
    | .midPrice => some (fun r => ((r .bestBid).add (r .bestAsk)).half)
    | .spread => some (fun r => (r .bestAsk).sub (r .bestBid))
    | _ => none
  checks :=
    [("order_book_prices_positive_ck".toList, fun r =>
        Truth.and (zero.lt (r .bestBid)) (zero.lt (r .bestAsk))),
      ("order_book_not_crossed_ck".toList, fun r => (r .bestBid).le (r .bestAsk)),
      ("order_book_imbalance_ck".toList, fun r =>
        (r .imbalance).between (.number (-1)) (.number 1)),
      ("order_book_volumes_nonnegative_ck".toList, fun r =>
        Truth.and (zero.le (r .totalBidVol)) (zero.le (r .totalAskVol)))]

/-- `fincore.technical_indicators`. -/
def technicalIndicators : Table IndicatorColumn where
  columns := [.symbol, .source, .indicatorName, .timestamp, .value, .parameters]
  all_columns c := by cases c <;> decide
  type
    | .symbol => .varchar 16
    | .source => .varchar 20
    | .indicatorName => .varchar 32
    | .timestamp => .timestamptz
    | .value => .numeric 20 8
    | .parameters => .jsonb
  nullable _ := false
  generated _ := none
  checks :=
    [("technical_indicators_name_ck".toList, fun r =>
        (r .indicatorName).isUpperMatch (upperClass "_".toList)),
      ("technical_indicators_parameters_object_ck".toList, fun r => (r .parameters).isJsonObject)]

/-! ## §3. Inserted rows. -/

/-- What the parameters of an insert become as values. -/
def Datum.toValue : Datum → Value
  | .null => .null
  | .text s => .text s
  | .instant us => .instant us
  | .number q => .number q
  | .json s => .json s

/-- The column list of `fincore_insert_quote`. -/
def quoteColumns : List QuoteColumn :=
  [.symbol, .source, .timestamp, .price, .openPrice, .high, .low, .volume, .changePct]

/-- The column list of `fincore_insert_tick`. -/
def tickColumns : List TickColumn := [.symbol, .source, .timestamp, .tradeId, .price, .size, .side]

/-- The column list of `fincore_insert_snapshot`. -/
def snapshotColumns : List SnapshotColumn :=
  [.symbol, .source, .snapshotTime, .bestBid, .bestAsk, .imbalance, .totalBidVol, .totalAskVol]

/-- The column list of `fincore_insert_indicator`. -/
def indicatorColumns : List IndicatorColumn :=
  [.symbol, .source, .indicatorName, .timestamp, .value, .parameters]

/-- The record that a row of the columns is inserted as. -/
def sentRecord {C : Type} [DecidableEq C] (columns : List C) (row : Row) : Record C :=
  recordOf columns (row.map Datum.toValue)

end FinCore.Storage

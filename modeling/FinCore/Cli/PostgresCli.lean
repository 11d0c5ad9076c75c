/-
  FinCore.Cli.PostgresCli
  ───────────────────────
  `cli/postgres_cli.cpp`: one command of the PostgreSQL command line, over any
  market-data repository.

  `run` reads the arguments of the command, invokes the repository and prints;
  its two `catch` clauses turn a parsing error into the exit status 2.
-/
import FinCore.Cli.Timestamps
import FinCore.Cxx.Action
import FinCore.Storage.PostgresRepository

namespace FinCore.Cli

open FinCore.Cxx FinCore.Domain FinCore.Storage

/-! ## §1. The repository. -/

/-- `persistence::MarketDataRepository`, whatever implements it. -/
structure MarketDataRepository (σ : Type) where
  upsertInstrument : Instrument → Action σ Exn Unit
  upsertDataSource : DataSource → Action σ Exn Unit
  insertQuotes : List Domain.Quote → Action σ Exn InsertSummary
  insertTicks : List Tick → Action σ Exn InsertSummary
  insertOrderBookSnapshots : List Domain.OrderBookSnapshot → Action σ Exn InsertSummary
  insertTechnicalIndicators : List TechnicalIndicator → Action σ Exn InsertSummary
  latestQuote : Str → Str → Action σ Exn (Option Domain.Quote)

/-- What a command changes: what is outside, and the two streams. -/
structure PostgresIo (σ : Type) where
  outside : σ
  out : Str := []
  err : Str := []

/-! ## §2. The parsers of the arguments. -/

/-- `parse_bool`. -/
def parseBool (value : Str) : Except Exn Bool :=
  let value := toUpper value
  if value = "TRUE".toList ∨ value = "1".toList ∨ value = "YES".toList then .ok true
  else if value = "FALSE".toList ∨ value = "0".toList ∨ value = "NO".toList then .ok false
  else .error (.invalidArgument "boolean must be true or false".toList)

/-- `std::stol(value, &consumed)`, with a `long` of 64 bits. -/
def stol (value : Str) : Except ConvertError (Int64 × ℕ) :=
  match stoll value with
  | .ok parsed => .ok (parsed, (scanInteger value).consumed)
  | .error e => .error e

/-- `parse_tick_decimals`. -/
def parseTickDecimals (value : Str) : Except Exn Int16 :=
  match stol value with
  | .error e => .error (conversionExn "stol".toList e)
  | .ok (parsed, consumed) =>
      if consumed ≠ value.length ∨ parsed < 0 ∨ 8 < parsed then
        .error (.invalidArgument "TICK_DECIMALS must be an integer from 0 to 8".toList)
      else .ok parsed.toInt16

/-- `parse_asset_class`. -/
def parseAssetClass (value : Str) : Except Exn AssetClass :=
  let value := toUpper value
  if value = "EQUITY".toList then .ok .equity
  else if value = "FOREX".toList then .ok .forex
  else if value = "CRYPTO".toList then .ok .crypto
  else if value = "FUTURES".toList then .ok .futures
  else if value = "ETF".toList then .ok .etf
  else .error (.invalidArgument
    "asset class must be EQUITY, FOREX, CRYPTO, FUTURES, or ETF".toList)

/-- `parse_side`. -/
def parseSide (value : Str) : Except Exn TradeSide :=
  let value := toUpper value
  if value = "B".toList then .ok .bid
  else if value = "A".toList then .ok .ask
  else if value = "U".toList then .ok .unknown
  else .error (.invalidArgument "side must be B, A, or U".toList)

/-- The text of an argument that `-` leaves out. -/
def nullable (value : Str) : Option Str := if value = "-".toList then none else some value

/-- A decimal argument that `-` leaves out. -/
def parseNullableDecimal (value : Str) : Except Exn (Option Decimal) :=
  if value = "-".toList then .ok none
  else
    match Decimal.fromString value with
    | .ok d => .ok (some d)
    | .error e => .error e

/-- What `require_count` throws. -/
def usageError (usage : String) : Exn := .invalidArgument ("usage: ".toList ++ usage.toList)

/-! ## §3. The commands. -/

section Commands

variable {σ : Type}

/-- Write to the output stream. -/
def putOut (text : Str) : Action (PostgresIo σ) Exn Unit :=
  Action.modify fun io => { io with out := io.out ++ text }

/-- Write to the error stream. -/
def putErr (text : Str) : Action (PostgresIo σ) Exn Unit :=
  Action.modify fun io => { io with err := io.err ++ text }

def onOutside {α : Type} (x : Action σ Exn α) : Action (PostgresIo σ) Exn α :=
  Action.zoom PostgresIo.outside (fun outside io => { io with outside := outside }) x

/-- `print_summary`. -/
def printInsertSummary (summary : InsertSummary) : Action (PostgresIo σ) Exn Unit :=
  putOut ("attempted=".toList ++ toStringNat summary.attempted
    ++ " inserted=".toList ++ toStringNat summary.inserted
    ++ " duplicates=".toList ++ toStringNat summary.duplicates ++ "\n".toList)

/-- `PostgresCli::print_help`. -/
def helpText : Str :=
  ("FinCore PostgreSQL CLI\n\n"
    ++ "Usage: fincore_app postgres COMMAND [ARGUMENTS]\n\n"
    ++ "Commands:\n"
    ++ "  instrument SYMBOL NAME ASSET_CLASS EXCHANGE TICK_DECIMALS ACTIVE\n"
    ++ "  source CODE DISPLAY_NAME BASE_URL|- ACTIVE\n"
    ++ "  quote SYMBOL SOURCE TIMESTAMP PRICE OPEN HIGH LOW VOLUME CHANGE_PCT|-\n"
    ++ "  tick SYMBOL SOURCE TIMESTAMP TRADE_ID|- PRICE SIZE SIDE\n"
    ++ "  snapshot SYMBOL SOURCE TIMESTAMP BEST_BID BEST_ASK IMBALANCE BID_VOLUME ASK_VOLUME\n"
    ++ "  indicator SYMBOL SOURCE NAME TIMESTAMP VALUE PARAMETERS_JSON\n"
    ++ "  latest-quote SYMBOL SOURCE\n\n"
    ++ "TIMESTAMP is 'now' or UTC RFC3339; quote dependencies must be upserted first.\n").toList

variable (repository : MarketDataRepository σ) (systemNow : σ → Timestamp × σ)

/-- `parse_timestamp` with the clock, which is read for `now` only. -/
def readTimestamp (value : Str) : Action (PostgresIo σ) Exn Timestamp :=
  if toUpper value = "NOW".toList then onOutside (Action.ofState systemNow)
  else Action.ofExcept (parseTimestamp 0 value)

/-- `instrument`. -/
def runInstrument : List Str → Action (PostgresIo σ) Exn ℤ
  | [symbol, name, assetClass, exchange, tickDecimals, active] => do
      let assetClass ← Action.ofExcept (parseAssetClass assetClass)
      let tickDecimals ← Action.ofExcept (parseTickDecimals tickDecimals)
      let active ← Action.ofExcept (parseBool active)
      onOutside (repository.upsertInstrument
        { symbol := toUpper symbol, name := name, assetClass := assetClass, exchange := exchange
          tickSizeDecimals := tickDecimals, isActive := active })
      putOut ("instrument upserted: ".toList ++ toUpper symbol ++ "\n".toList)
      return 0
  | _ => throw (usageError "instrument SYMBOL NAME ASSET_CLASS EXCHANGE TICK_DECIMALS ACTIVE")

/-- `source`. -/
def runSource : List Str → Action (PostgresIo σ) Exn ℤ
  | [code, displayName, baseUrl, active] => do
      let active ← Action.ofExcept (parseBool active)
      onOutside (repository.upsertDataSource
        { code := toUpper code, displayName := displayName, baseUrl := nullable baseUrl
          isActive := active })
      putOut ("data source upserted: ".toList ++ toUpper code ++ "\n".toList)
      return 0
  | _ => throw (usageError "source CODE DISPLAY_NAME BASE_URL|- ACTIVE")

/-- `quote`. -/
def runQuote : List Str → Action (PostgresIo σ) Exn ℤ
  | [symbol, source, timestamp, price, openPrice, high, low, volume, changePct] => do
      -- the arguments are read from left to right, and the first bad one throws
      let timestamp ← readTimestamp systemNow timestamp
      let price ← Action.ofExcept (Decimal.fromString price)
      let openPrice ← Action.ofExcept (Decimal.fromString openPrice)
      let high ← Action.ofExcept (Decimal.fromString high)
      let low ← Action.ofExcept (Decimal.fromString low)
      let volume ← Action.ofExcept (Decimal.fromString volume)
      let changePct ← Action.ofExcept (parseNullableDecimal changePct)
      let summary ← onOutside (repository.insertQuotes
        [{ symbol := toUpper symbol, source := toUpper source, timestamp := timestamp
           price := price, openPrice := openPrice, high := high, low := low, volume := volume
           changePct := changePct }])
      printInsertSummary summary
      return 0
  | _ =>
      throw (usageError "quote SYMBOL SOURCE TIMESTAMP PRICE OPEN HIGH LOW VOLUME CHANGE_PCT|-")

/-- `tick`. -/
def runTick : List Str → Action (PostgresIo σ) Exn ℤ
  | [symbol, source, timestamp, tradeId, price, size, side] => do
      let timestamp ← readTimestamp systemNow timestamp
      let price ← Action.ofExcept (Decimal.fromString price)
      let size ← Action.ofExcept (Decimal.fromString size)
      let side ← Action.ofExcept (parseSide side)
      let summary ← onOutside (repository.insertTicks
        [{ symbol := toUpper symbol, source := toUpper source, timestamp := timestamp
           tradeId := nullable tradeId, price := price, size := size, side := side }])
      printInsertSummary summary
      return 0
  | _ => throw (usageError "tick SYMBOL SOURCE TIMESTAMP TRADE_ID|- PRICE SIZE SIDE")

/-- `snapshot`. -/
def runSnapshot : List Str → Action (PostgresIo σ) Exn ℤ
  | [symbol, source, timestamp, bestBid, bestAsk, imbalance, bidVolume, askVolume] => do
      let timestamp ← readTimestamp systemNow timestamp
      let bestBid ← Action.ofExcept (Decimal.fromString bestBid)
      let bestAsk ← Action.ofExcept (Decimal.fromString bestAsk)
      let imbalance ← Action.ofExcept (Decimal.fromString imbalance)
      let bidVolume ← Action.ofExcept (Decimal.fromString bidVolume)
      let askVolume ← Action.ofExcept (Decimal.fromString askVolume)
      let summary ← onOutside (repository.insertOrderBookSnapshots
        [{ symbol := toUpper symbol, source := toUpper source, snapshotTime := timestamp
           bestBid := bestBid, bestAsk := bestAsk, imbalance := imbalance
           totalBidVolume := bidVolume, totalAskVolume := askVolume }])
      printInsertSummary summary
      return 0
  | _ =>
      throw (usageError
        "snapshot SYMBOL SOURCE TIMESTAMP BEST_BID BEST_ASK IMBALANCE BID_VOLUME ASK_VOLUME")

/-- `indicator`. -/
def runIndicator : List Str → Action (PostgresIo σ) Exn ℤ
  | [symbol, source, name, timestamp, value, parametersJson] => do
      let timestamp ← readTimestamp systemNow timestamp
      let value ← Action.ofExcept (Decimal.fromString value)
      let summary ← onOutside (repository.insertTechnicalIndicators
        [{ symbol := toUpper symbol, source := toUpper source, indicatorName := toUpper name
           timestamp := timestamp, value := value, parametersJson := parametersJson }])
      printInsertSummary summary
      return 0
  | _ => throw (usageError "indicator SYMBOL SOURCE NAME TIMESTAMP VALUE PARAMETERS_JSON")

/-- What `latest-quote` prints of a quote. -/
def latestQuoteText (value : Domain.Quote) : Str :=
  "symbol=".toList ++ value.symbol ++ " source=".toList ++ value.source
    ++ " timestamp=".toList ++ formatTimestamp value.timestamp
    ++ " price=".toList ++ value.price.toString ++ " open=".toList ++ value.openPrice.toString
    ++ " high=".toList ++ value.high.toString ++ " low=".toList ++ value.low.toString
    ++ " volume=".toList ++ value.volume.toString ++ " change_pct=".toList
    ++ (match value.changePct with
      | some changePct => changePct.toString
      | none => "null".toList)
    ++ "\n".toList

/-- `latest-quote`. -/
def runLatestQuote : List Str → Action (PostgresIo σ) Exn ℤ
  | [symbol, source] => do
      let value ← onOutside (repository.latestQuote (toUpper symbol) (toUpper source))
      match value with
      | none => do
          putOut "not found\n".toList
          return 3
      | some value => do
          putOut (latestQuoteText value)
          return 0
  | _ => throw (usageError "latest-quote SYMBOL SOURCE")

/-- The words that ask for help. -/
def isHelpWord (word : Str) : Bool :=
  word = "help".toList || word = "--help".toList || word = "-h".toList

/-- The body of the `try` block of `run`. -/
def runArguments : List Str → Action (PostgresIo σ) Exn ℤ
  | [] => do
      putOut helpText
      return 0
  | command :: rest =>
      if isHelpWord command then do
        putOut helpText
        return 0
      else if command = "instrument".toList then runInstrument repository rest
      else if command = "source".toList then runSource repository rest
      else if command = "quote".toList then runQuote repository systemNow rest
      else if command = "tick".toList then runTick repository systemNow rest
      else if command = "snapshot".toList then runSnapshot repository systemNow rest
      else if command = "indicator".toList then runIndicator repository systemNow rest
      else if command = "latest-quote".toList then runLatestQuote repository rest
      else
        throw (.invalidArgument
          ("unknown command: ".toList ++ command ++ " (run with --help)".toList))

/-- `PostgresCli::run`. -/
def runPostgres (args : List Str) : Action (PostgresIo σ) Exn ℤ :=
  tryCatch (runArguments repository systemNow args) fun e =>
    match e with
    | .invalidArgument what => do
        putErr ("error: ".toList ++ what ++ "\n".toList)
        return 2
    | .outOfRange what => do
        putErr ("error: ".toList ++ what ++ "\n".toList)
        return 2
    -- no other exception is caught
    | e => throw e

end Commands

end FinCore.Cli

/-
  FinCore.Domain.MarketData
  ─────────────────────────
  The records of `domain/market_data.hpp` and their validation.
-/
import FinCore.Domain.Decimal

namespace FinCore.Domain

open FinCore.Cxx

/-! ## §1. Records. -/

/-- `std::chrono::system_clock::time_point`: nanoseconds since the epoch. -/
abbrev Timestamp := Int64

inductive AssetClass where
  | equity
  | forex
  | crypto
  | futures
  | etf
  deriving DecidableEq

/-- `to_string`. -/
def AssetClass.toString : AssetClass → Str
  | equity => "EQUITY".toList
  | forex => "FOREX".toList
  | crypto => "CRYPTO".toList
  | futures => "FUTURES".toList
  | etf => "ETF".toList

inductive TradeSide where
  | bid
  | ask
  | unknown
  deriving DecidableEq

/-- `to_char`. -/
def TradeSide.toChar : TradeSide → Char
  | bid => 'B'
  | ask => 'A'
  | unknown => 'U'

structure Instrument where
  symbol : Str
  name : Str
  assetClass : AssetClass := .equity
  exchange : Str
  tickSizeDecimals : Int16 := 0
  isActive : Bool := true
  deriving DecidableEq

structure DataSource where
  code : Str
  displayName : Str
  baseUrl : Option Str
  isActive : Bool := true
  deriving DecidableEq

structure Quote where
  symbol : Str
  source : Str
  timestamp : Timestamp
  price : Decimal
  openPrice : Decimal
  high : Decimal
  low : Decimal
  volume : Decimal
  changePct : Option Decimal
  deriving DecidableEq

structure Tick where
  symbol : Str
  source : Str
  timestamp : Timestamp
  tradeId : Option Str
  price : Decimal
  size : Decimal
  side : TradeSide := .unknown
  deriving DecidableEq

structure OrderBookSnapshot where
  symbol : Str
  source : Str
  snapshotTime : Timestamp
  bestBid : Decimal
  bestAsk : Decimal
  imbalance : Decimal
  totalBidVolume : Decimal
  totalAskVolume : Decimal
  deriving DecidableEq

structure TechnicalIndicator where
  symbol : Str
  source : Str
  indicatorName : Str
  timestamp : Timestamp
  value : Decimal
  parametersJson : Str := "{}".toList
  deriving DecidableEq

/-! ## §2. Validation. -/

/-- Upper-case letters, digits and the given characters, at least one. -/
def isUpperIdentifier (value extraCharacters : Str) : Bool :=
  !value.isEmpty && value.all (fun ch => ch.isUpper || ch.isDigit || extraCharacters.contains ch)

/-- `require`. -/
def require (condition : Bool) (message : Str) : Except Exn Unit :=
  if condition then .ok () else .error (.invalidArgument message)

def validateSymbolAndSource (symbol source : Str) : Except Exn Unit := do
  require (symbol.length ≤ 16 && isUpperIdentifier symbol "._:/-".toList)
    "symbol must be an uppercase identifier of at most 16 characters".toList
  require (source.length ≤ 20 && isUpperIdentifier source "_-".toList)
    "source must be an uppercase identifier of at most 20 characters".toList

def Instrument.validate (value : Instrument) : Except Exn Unit := do
  require (value.symbol.length ≤ 16 && isUpperIdentifier value.symbol "._:/-".toList)
    "instrument symbol must be an uppercase identifier of at most 16 characters".toList
  require (!value.name.isEmpty && value.name.length ≤ 100)
    "instrument name must contain 1-100 characters".toList
  require (!value.exchange.isEmpty && value.exchange.length ≤ 32)
    "exchange must contain 1-32 characters".toList
  require (0 ≤ value.tickSizeDecimals && value.tickSizeDecimals ≤ 8)
    "tick_size_decimals must be between 0 and 8".toList

def DataSource.validate (value : DataSource) : Except Exn Unit := do
  require (value.code.length ≤ 20 && isUpperIdentifier value.code "_-".toList)
    "source code must be an uppercase identifier of at most 20 characters".toList
  require (!value.displayName.isEmpty && value.displayName.length ≤ 60)
    "source display name must contain 1-60 characters".toList

def Quote.validate (value : Quote) : Except Exn Unit := do
  validateSymbolAndSource value.symbol value.source
  require (0 ≤ value.price.raw && 0 ≤ value.openPrice.raw && 0 ≤ value.high.raw
      && 0 ≤ value.low.raw)
    "quote prices cannot be negative".toList
  require (value.low.raw ≤ value.high.raw) "quote high cannot be below quote low".toList
  require (0 ≤ value.volume.raw) "quote volume cannot be negative".toList

def Tick.validate (value : Tick) : Except Exn Unit := do
  validateSymbolAndSource value.symbol value.source
  require (0 < value.price.raw) "tick price must be positive".toList
  require (0 < value.size.raw) "tick size must be positive".toList
  require
    (match value.tradeId with
      | none => true
      | some tradeId => !tradeId.isEmpty && tradeId.length ≤ 64)
    "trade_id must contain 1-64 characters when present".toList

def OrderBookSnapshot.validate (value : OrderBookSnapshot) : Except Exn Unit := do
  validateSymbolAndSource value.symbol value.source
  require (0 < value.bestBid.raw && 0 < value.bestAsk.raw)
    "best bid and ask must be positive".toList
  require (value.bestBid.raw ≤ value.bestAsk.raw) "best ask cannot be below best bid".toList
  require (-Decimal.scale ≤ value.imbalance.raw && value.imbalance.raw ≤ Decimal.scale)
    "imbalance must be between -1 and 1".toList
  require (0 ≤ value.totalBidVolume.raw && 0 ≤ value.totalAskVolume.raw)
    "order-book volumes cannot be negative".toList

def TechnicalIndicator.validate (value : TechnicalIndicator) : Except Exn Unit := do
  validateSymbolAndSource value.symbol value.source
  require (value.indicatorName.length ≤ 32 && isUpperIdentifier value.indicatorName "_".toList)
    "indicator name must be an uppercase identifier of at most 32 characters".toList
  require (!value.parametersJson.isEmpty) "indicator parameters JSON cannot be empty".toList

end FinCore.Domain

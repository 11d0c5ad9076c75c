/-
  FinCore.Cli.CliServices
  ───────────────────────
  The callbacks the interactive workflow is built over, and
  `make_cli_services`, which makes them from the two clients and an optional
  repository.

  A callback is an action on whatever is outside the CLI; it may return any
  value or throw.
-/
import FinCore.Api.AlphaVantageClient
import FinCore.Storage.PostgresRepository
import FinCore.Storage.RedisClient

namespace FinCore.Cli

open FinCore.Cxx FinCore.Api FinCore.Domain FinCore.Storage

/-! ## §1. Callbacks. -/

structure CliServices (σ : Type) where
  getQuote : Symbol → Action σ Exn (Option FinCore.Quote)
  lastWasCached : Action σ Exn Bool
  redisIsConnected : Action σ Exn Bool
  getCachedQuote : Symbol → Action σ Exn (Option FinCore.Quote)
  storeQuote : Symbol → FinCore.Quote → Action σ Exn Bool
  updateOrderBook : Symbol → Levels Double.lt → Levels Double.lt → Action σ Exn Bool
  /-- Tests and Redis-only deployments leave the two durable callbacks empty. -/
  persistQuote : Option (FinCore.Quote → Action σ Exn Bool) := none
  persistSnapshot : Option (FinCore.OrderBookSnapshot → Str → Action σ Exn Bool) := none

/-! ## §2. Conversion to domain records. -/

/-- `decimal_from(double)`. -/
def decimalFrom (value : Double) : Except Exn Decimal :=
  if value.isFinite then Decimal.fromString (value.formatFixed 8)
  else .error (.invalidArgument "market value must be finite before PostgreSQL persistence".toList)

/-- `decimal_from(Volume)`. -/
def decimalFromVolume (value : Volume) : Except Exn Decimal :=
  Decimal.fromString (toStringNat value.toNat)

/-- `domain_timestamp`: microseconds become nanoseconds; the epoch stands for
the present. -/
def domainTimestamp {σ : Type} (systemNow : σ → Timestamp × σ) (value : TimePoint) :
    Action σ Exn Timestamp :=
  if value = 0 then Action.ofState systemNow else pure (value * 1000)

/-- The domain quote of a core quote, its fields converted in order. -/
def domainQuote (quote : FinCore.Quote) (timestamp : Timestamp) : Except Exn Domain.Quote := do
  let price ← decimalFrom quote.price
  let openPrice ← decimalFrom quote.openPrice
  let high ← decimalFrom quote.high
  let low ← decimalFrom quote.low
  let volume ← decimalFromVolume quote.volume
  let changePct ← decimalFrom quote.changePct
  return { symbol := quote.symbol, source := quote.source, timestamp := timestamp
           price := price, openPrice := openPrice, high := high, low := low
           volume := volume, changePct := some changePct }

/-- The domain snapshot of a core snapshot. -/
def domainSnapshot (snapshot : FinCore.OrderBookSnapshot) (source : Str) (timestamp : Timestamp) :
    Except Exn Domain.OrderBookSnapshot := do
  let bestBid ← decimalFrom snapshot.bestBid
  let bestAsk ← decimalFrom snapshot.bestAsk
  let imbalance ← decimalFrom snapshot.imbalance
  let totalBidVolume ← decimalFromVolume snapshot.totalBidVol
  let totalAskVolume ← decimalFromVolume snapshot.totalAskVol
  return { symbol := snapshot.symbol, source := source, snapshotTime := timestamp
           bestBid := bestBid, bestAsk := bestAsk, imbalance := imbalance
           totalBidVolume := totalBidVolume, totalAskVolume := totalAskVolume }

/-! ## §3. The durable callbacks. -/

section Durable

variable {σ : Type} (platform : Platform) (systemNow : σ → Timestamp × σ)

def onClock {α : Type} (x : Action σ Exn α) : Action (σ × PgSession) Exn α :=
  Action.zoom Prod.fst (fun clock s => (clock, s.2)) x

def onPostgres {α : Type} (x : Action PgSession Exn α) : Action (σ × PgSession) Exn α :=
  Action.zoom Prod.snd (fun session s => (s.1, session)) x

/-- `result.inserted == 1 || result.duplicates() == 1`. -/
def stored (result : InsertSummary) : Bool := result.inserted = 1 || result.duplicates = 1

/-- `persist_quote`. -/
def persistQuote (quote : FinCore.Quote) : Action (σ × PgSession) Exn Bool := do
  let timestamp ← onClock (domainTimestamp systemNow quote.timestamp)
  let record ← Action.ofExcept (domainQuote quote timestamp)
  let result ← onPostgres (insertQuotes platform [record])
  return stored result

/-- `persist_snapshot`. -/
def persistSnapshot (snapshot : FinCore.OrderBookSnapshot) (source : Str) :
    Action (σ × PgSession) Exn Bool := do
  let timestamp ← onClock (domainTimestamp systemNow snapshot.snapshotTime)
  let record ← Action.ofExcept (domainSnapshot snapshot source timestamp)
  let result ← onPostgres (insertOrderBookSnapshots platform [record])
  return stored result

end Durable

/-! ## §4. `make_cli_services`. -/

/-- What the callbacks act on. -/
structure World (σ : Type) where
  outside : σ
  client : ClientState := {}
  redis : RedisWorld
  postgres : PgSession

/-- What the callbacks are made from. -/
structure Backends (σ : Type) where
  avClient : AlphaVantageClient σ
  redis : RedisClient
  /-- Whether there is a repository. -/
  postgres : Bool
  platform : Platform
  systemNow : σ → Timestamp × σ
  /-- The clock `update_order_book` stamps a book with. -/
  bookClock : RedisWorld → TimePoint

namespace Backends

variable {σ α : Type}

def onAvClient (x : Action (σ × ClientState) Exn α) : Action (World σ) Exn α :=
  Action.zoom (fun w => (w.outside, w.client))
    (fun s w => { w with outside := s.1, client := s.2 }) x

def onRedis (x : Action RedisWorld Exn α) : Action (World σ) Exn α :=
  Action.zoom World.redis (fun redis w => { w with redis := redis }) x

def onDurable (x : Action (σ × PgSession) Exn α) : Action (World σ) Exn α :=
  Action.zoom (fun w => (w.outside, w.postgres))
    (fun s w => { w with outside := s.1, postgres := s.2 }) x

/-- `make_cli_services(av_client, redis, postgres)`. -/
def makeCliServices (backends : Backends σ) : CliServices (World σ) where
  getQuote symbol := onAvClient (backends.avClient.getQuote symbol)
  lastWasCached := onAvClient (do
    let s ← Action.get
    return s.2.lastWasCached)
  redisIsConnected := onRedis RedisClient.isConnected
  getCachedQuote symbol := onRedis (RedisClient.getQuote symbol)
  storeQuote symbol quote := onRedis (backends.redis.storeQuote symbol quote)
  updateOrderBook symbol bids asks :=
    onRedis (RedisClient.updateOrderBook backends.bookClock symbol bids asks)
  persistQuote :=
    if backends.postgres then
      some fun quote => onDurable (persistQuote backends.platform backends.systemNow quote)
    else none
  persistSnapshot :=
    if backends.postgres then
      some fun snapshot source =>
        onDurable (persistSnapshot backends.platform backends.systemNow snapshot source)
    else none

end Backends

end FinCore.Cli

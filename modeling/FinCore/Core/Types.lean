/-
  FinCore.Core.Types
  ──────────────────
  The scalar aliases, the exceptions and the core market-data records of
  `core/types.hpp`.

  Of that header the quote and the order-book snapshot are modelled, the two
  records the interactive workflow passes around.
-/
import FinCore.Cxx.Double

namespace FinCore

open FinCore.Cxx

/-! ## §1. Exceptions and scalars. -/

/-- What the program throws or lets escape from a library call. -/
inductive Exn where
  /-- `std::invalid_argument`. -/
  | invalidArgument (what : Str)
  /-- `std::out_of_range`. -/
  | outOfRange (what : Str)
  /-- `std::logic_error`. -/
  | logicError (what : Str)
  /-- `std::runtime_error`. -/
  | runtimeError (what : Str)
  /-- `persistence::postgres::DatabaseError`. -/
  | databaseError (what sqlState : Str)
  /-- `sw::redis::Error`. -/
  | redisError (what : Str)
  /-- Any other class derived from `std::exception`. -/
  | other (what : Str)
  deriving DecidableEq

/-- `std::invalid_argument` or `std::out_of_range`. -/
def Exn.IsParseError : Exn → Prop
  | .invalidArgument _ => True
  | .outOfRange _ => True
  | _ => False

abbrev Symbol := Str

abbrev Price := Double

abbrev Volume := UInt64

/-- A wall-clock instant: microseconds since the epoch. -/
abbrev TimePoint := Int64

/-! ## §2. Core records. -/

structure Quote where
  symbol : Symbol
  price : Price := .finite 0
  openPrice : Price := .finite 0
  high : Price := .finite 0
  low : Price := .finite 0
  volume : Volume := 0
  changePct : Double := .finite 0
  source : Str := "ALPHA_VANTAGE".toList
  timestamp : TimePoint := 0
  deriving DecidableEq

/-- "Validation - call before persisting." -/
def Quote.isValid (q : Quote) : Bool :=
  !q.symbol.isEmpty
    && Double.gt q.price (.finite 0)
    && (Double.eq q.high (.finite 0) || Double.ge q.high q.low)
    && (Double.eq q.openPrice (.finite 0) || Double.gt q.openPrice (.finite 0))

structure OrderBookSnapshot where
  symbol : Symbol
  bestBid : Price
  bestAsk : Price
  midPrice : Price
  spread : Price
  imbalance : Double
  totalBidVol : Volume
  totalAskVol : Volume
  snapshotTime : TimePoint
  deriving DecidableEq

namespace OrderBookSnapshot

def isValid (s : OrderBookSnapshot) : Bool :=
  !s.symbol.isEmpty
    && Double.gt s.bestBid (.finite 0)
    && Double.gt s.bestAsk (.finite 0)
    && Double.ge s.bestAsk s.bestBid
    && Double.ge s.imbalance (.finite (-1)) && Double.le s.imbalance (.finite 1)

def computedMid (s : OrderBookSnapshot) : Double :=
  (s.bestBid.add s.bestAsk).mul (.finite (1 / 2))

def computedSpread (s : OrderBookSnapshot) : Double := s.bestAsk.sub s.bestBid

/-- The two volumes are added as integers, modulo `2 ^ 64`. -/
def computedImbalance (s : OrderBookSnapshot) : Double :=
  let total := Double.ofNat (s.totalBidVol + s.totalAskVol).toNat
  if Double.eq total (.finite 0) then .finite 0
  else ((Double.ofNat s.totalBidVol.toNat).sub (Double.ofNat s.totalAskVol.toNat)).div total

end OrderBookSnapshot

/-- Microseconds since the Unix epoch. -/
def toUnixUs (tp : TimePoint) : Int64 := tp

end FinCore

/-
  FinCore.Core.OrderBook
  ──────────────────────
  `OrderBook`: price levels on two sides, bids with the highest price first and
  asks with the lowest.

  The two sides are the same code over opposite comparators, so each mutation
  is one action on a map of levels, applied to either side.
-/
import FinCore.Core.Types
import FinCore.Cxx.Action
import FinCore.Cxx.OrderedMap

namespace FinCore

open FinCore.Cxx

instance : Comparator Double.lt := ⟨Double.lt_irrefl, Double.lt_trans⟩

instance : Comparator Double.gt := ⟨Double.gt_irrefl, Double.gt_trans⟩

/-- `std::map<Price, Volume, lt>`. -/
abbrev Levels (lt : Price → Price → Bool) := OrderedMap Price Volume lt

/-! ## §1. Mutations of one side. -/

section Levels

variable {lt : Price → Price → Bool} [Comparator lt]

/-- The body of `set_bid` and `set_ask`. -/
def setLevel (what : Str) (price : Price) (volume : Volume) : Action (Levels lt) Exn Unit :=
  if Double.le price (.finite 0) then throw (.invalidArgument what)
  else if volume = 0 then Action.modify (OrderedMap.erase price)
  else Action.modify (OrderedMap.assign price volume)

/-- Set every given level in order. -/
def setLevels (what : Str) : List (Price × Volume) → Action (Levels lt) Exn Unit
  | [] => pure ()
  | (price, vol) :: rest => do
      setLevel what price vol
      setLevels what rest

/-- The body of `replace_bids` and `replace_asks`. -/
def replaceLevels (what : Str) (levels : Levels Double.lt) : Action (Levels lt) Exn Unit := do
  Action.modify (fun _ => OrderedMap.empty)
  setLevels what levels.entries

end Levels

/-! ## §2. The book. -/

/-- An order book; its constructor refuses the empty symbol. -/
structure OrderBook where
  symbol : Symbol
  bids : Levels Double.gt := OrderedMap.empty
  asks : Levels Double.lt := OrderedMap.empty
  symbol_ne : symbol ≠ []

namespace OrderBook

/-- The constructor. -/
def create (symbol : Symbol) : Except Exn OrderBook :=
  if h : symbol = [] then
    .error (.invalidArgument "OrderBook: symbol must not be empty!!".toList)
  else .ok { symbol := symbol, symbol_ne := h }

def onBids {α : Type} (x : Action (Levels Double.gt) Exn α) : Action OrderBook Exn α :=
  Action.zoom OrderBook.bids (fun bids book => { book with bids := bids }) x

def onAsks {α : Type} (x : Action (Levels Double.lt) Exn α) : Action OrderBook Exn α :=
  Action.zoom OrderBook.asks (fun asks book => { book with asks := asks }) x

def setBidWhat : Str := "OrderBook::set_bid: price must be > 0".toList

def setAskWhat : Str := "OrderBook::set_ask: price must be > 0".toList

def setBid (price : Price) (volume : Volume) : Action OrderBook Exn Unit :=
  onBids (setLevel setBidWhat price volume)

def setAsk (price : Price) (volume : Volume) : Action OrderBook Exn Unit :=
  onAsks (setLevel setAskWhat price volume)

def replaceBids (levels : Levels Double.lt) : Action OrderBook Exn Unit :=
  onBids (replaceLevels setBidWhat levels)

def replaceAsks (levels : Levels Double.lt) : Action OrderBook Exn Unit :=
  onAsks (replaceLevels setAskWhat levels)

def clear : Action OrderBook Exn Unit :=
  Action.modify (fun book => { book with bids := OrderedMap.empty, asks := OrderedMap.empty })

/-! ## §3. Observers. -/

def bidDepth (book : OrderBook) : ℕ := book.bids.size

def askDepth (book : OrderBook) : ℕ := book.asks.size

/-- `bids_.begin()->first`: the highest price. -/
def bestBid (book : OrderBook) : Option Price := book.bids.entries.head?.map Prod.fst

/-- `asks_.begin()->first`: the lowest price. -/
def bestAsk (book : OrderBook) : Option Price := book.asks.entries.head?.map Prod.fst

def midPrice (book : OrderBook) : Option Double := do
  let bid ← book.bestBid
  let ask ← book.bestAsk
  return ((bid.add ask).mul (.finite (1 / 2)))

def spread (book : OrderBook) : Option Double := do
  let bid ← book.bestBid
  let ask ← book.bestAsk
  return (ask.sub bid)

/-- The sum of the volumes, modulo `2 ^ 64` as in the source. -/
def totalVolume {lt : Price → Price → Bool} (levels : Levels lt) : Volume :=
  levels.entries.foldl (fun total e => total + e.2) 0

def totalBidVolume (book : OrderBook) : Volume := totalVolume book.bids

def totalAskVolume (book : OrderBook) : Volume := totalVolume book.asks

/-- `(bid_vol - ask_vol) / (bid_vol + ask_vol)`, zero when both sides are
empty. -/
def imbalance (book : OrderBook) : Double :=
  let bidV := Double.ofNat book.totalBidVolume.toNat
  let askV := Double.ofNat book.totalAskVolume.toNat
  let total := bidV.add askV
  if Double.eq total (.finite 0) then .finite 0 else (bidV.sub askV).div total

/-- `snapshot(at)`; `now` is read when `at` is the epoch. -/
def snapshot (book : OrderBook) (now : TimePoint) (at_ : TimePoint) : OrderBookSnapshot where
  symbol := book.symbol
  bestBid := book.bestBid.getD (.finite 0)
  bestAsk := book.bestAsk.getD (.finite 0)
  midPrice := book.midPrice.getD (.finite 0)
  spread := book.spread.getD (.finite 0)
  imbalance := book.imbalance
  totalBidVol := book.totalBidVolume
  totalAskVol := book.totalAskVolume
  snapshotTime := if at_ = 0 then now else at_

end OrderBook

end FinCore

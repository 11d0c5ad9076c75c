/-
  FinCore.Cli.FinCoreCli
  ──────────────────────
  The interactive workflow: fetching a symbol through the caches, and the
  commands that fetch again and again.

  The state is what the callbacks act on beside the CLI's own members.  The
  n-th reading of a clock or of the process's usage is a function of n: nothing
  the CLI does depends on it but the numbers it records and prints.
-/
import FinCore.Cli.CliServices
import FinCore.Cli.ProcessMetrics

namespace FinCore.Cli

open FinCore.Cxx

/-! ## §1. The CLI and its state. -/

/-- The clocks, and `getrusage(RUSAGE_SELF)`, which cannot fail. -/
structure Host where
  /-- In nanoseconds. -/
  steadyNow : ℕ → ℤ
  systemNow : ℕ → TimePoint
  processSnapshot : ℕ → ProcessSnapshot

/-- What a session prints, with the values in it, and the pauses it makes. -/
inductive Event where
  | quote (quote : Quote)
  | snapshot (snapshot : OrderBookSnapshot)
  /-- `[MISS] Alpha Vantage returned no quote for …`. -/
  | miss (symbol : Symbol)
  /-- `[OK] …`; the two PostgreSQL results are absent when it is disabled. -/
  | fetched (metrics : OperationMetrics) (postgres : Option (Bool × Bool))
  | operationMetrics (metrics : OperationMetrics)
  /-- `[WARN] Redis is disconnected; writes may fail.` -/
  | redisDisconnected
  /-- `[batch] successful=… failed=… total=…`. -/
  | batch (successful failed total : ℕ)
  | watching (target : Symbol) (count intervalMs : ℕ)
  | watch (index count : ℕ)
  | cycle (index count : ℕ)
  | sleeping (seconds : ℕ)
  | slept (ms : ℕ)
  | summary (stats : SessionStats)
  | help
  | symbols (symbols : List Symbol)
  /-- `[MISS] no in-memory order book data for …`. -/
  | bookMiss (symbol : Symbol)
  /-- `[lookup] unordered_map + snapshot time: …`. -/
  | snapshotTime (us : Int64)
  | lookupBenchmark (symbol : Symbol) (iterations vectorHits mapHits : ℕ) (vectorNs mapNs : ℤ)
      (wallUs : Int64) (usage : ProcessDelta)
  /-- `[OK] Redis is connected`, or `[ERROR] Redis is disconnected`. -/
  | redisStatus (connected : Bool)
  /-- The report of `stats last`. -/
  | lastOperation (metrics : Option OperationMetrics)
  | statsReset
  | unknownCommand (command : Str)
  | bye
  /-- `[ERROR] …`, for an exception that reaches `run`. -/
  | error (exception : Exn)

/-- The members that change. -/
structure CliState where
  books : Symbol → Option OrderBook
  booksWithData : Finset Symbol := ∅
  stats : SessionStats := {}
  /-- How often the host has been read. -/
  readings : ℕ := 0
  events : List Event := []

/-- The members that do not. -/
structure FinCoreCli (σ : Type) where
  services : CliServices σ
  symbols : List Symbol
  defaultPollSeconds : ℤ
  host : Host

/-- `normalize_symbol`. -/
def normalizeSymbol (symbol : Str) : Symbol := toUpper symbol

/-- `books_.try_emplace(symbol, symbol)` for every symbol in order; the empty
symbol makes `OrderBook` throw. -/
def emplaceBooks : List Symbol → (Symbol → Option OrderBook) →
    Except Exn (Symbol → Option OrderBook)
  | [], books => .ok books
  | symbol :: rest, books =>
      match books symbol with
      | some _ => emplaceBooks rest books
      | none => do
          let book ← OrderBook.create symbol
          emplaceBooks rest (Function.update books symbol (some book))

namespace FinCoreCli

variable {σ α : Type}

/-- The constructor. -/
def create (services : CliServices σ) (symbols : List Str) (defaultPollSeconds : ℤ) (host : Host) :
    Except Exn (FinCoreCli σ × CliState) := do
  let symbols := symbols.map normalizeSymbol
  let books ← emplaceBooks symbols (fun _ => none)
  return ({ services := services, symbols := symbols
            defaultPollSeconds := defaultPollSeconds, host := host }, { books := books })

/-! ## §2. A book from a quote. -/

/-- `static_cast<double>(level) * tick`. -/
def levelOffset (level : ℕ) : Double := (Double.ofNat level).mul (.finite (1 / 100))

/-- `quote.volume / 10 / level`. -/
def levelVolume (quote : Quote) (level : ℕ) : Volume := quote.volume / 10 / UInt64.ofNat level

/-- Set a level of one side, unless its price or its volume is not positive. -/
def populateLevel (set : Price → Volume → Action OrderBook Exn Unit) (price : Price)
    (volume : Volume) : Action OrderBook Exn Unit :=
  if price.gt (.finite 0) ∧ 0 < volume then set price volume else pure ()

def populateBids (quote : Quote) : List ℕ → Action OrderBook Exn Unit
  | [] => pure ()
  | level :: rest => do
      populateLevel OrderBook.setBid (quote.price.sub (levelOffset level)) (levelVolume quote level)
      populateBids quote rest

def populateAsks (quote : Quote) : List ℕ → Action OrderBook Exn Unit
  | [] => pure ()
  | level :: rest => do
      populateLevel OrderBook.setAsk (quote.price.add (levelOffset level)) (levelVolume quote level)
      populateAsks quote rest

/-- `populate_book_from_quote`. -/
def populateBookFromQuote (quote : Quote) : Action OrderBook Exn Unit := do
  OrderBook.clear
  populateBids quote [1, 2, 3, 4, 5]
  populateAsks quote [1, 2, 3, 4, 5]

/-- `std::map<Price, Volume>(levels.begin(), levels.end())`. -/
def toAscending {lt : Price → Price → Bool} (levels : Levels lt) : Levels Double.lt :=
  OrderedMap.ofEntries levels.entries

/-! ## §3. The state of a fetch. -/

/-- The world, the CLI and the metrics under way. -/
abbrev FetchState (σ : Type) := (σ × CliState) × OperationMetrics

/-- Run `x` with a local variable. -/
def withLocal {τ : Type} (start : τ) (x : Action ((σ × CliState) × τ) Exn α) :
    Action (σ × CliState) Exn α := fun s =>
  ((x (s, start)).1, (x (s, start)).2.1)

/-- Call a service. -/
def call (x : Action σ Exn α) : Action (FetchState σ) Exn α :=
  Action.zoom (fun s => s.1.1) (fun w s => ((w, s.1.2), s.2)) x

def setMetrics (f : OperationMetrics → OperationMetrics) : Action (FetchState σ) Exn Unit :=
  Action.modify (fun s => (s.1, f s.2))

def modifyCli (f : CliState → CliState) : Action (FetchState σ) Exn Unit :=
  Action.modify (fun s => ((s.1.1, f s.1.2), s.2))

/-- Read the host: the `n`-th reading is `read n`. -/
def readHost (read : ℕ → α) : Action (σ × CliState) Exn α :=
  Action.ofState (fun s => (read s.2.readings, (s.1, { s.2 with readings := s.2.readings + 1 })))

def emit (event : Event) : Action (σ × CliState) Exn Unit :=
  Action.modify (fun s => (s.1, { s.2 with events := s.2.events ++ [event] }))

def emitIf (condition : Bool) (event : Event) : Action (σ × CliState) Exn Unit :=
  if condition then emit event else pure ()

/-- Act outside the metrics. -/
def onCli (x : Action (σ × CliState) Exn α) : Action (FetchState σ) Exn α :=
  Action.zoom Prod.fst (fun cli s => (cli, s.2)) x

variable (cli : FinCoreCli σ)

/-- `elapsed_us`. -/
def elapsedUs (started : ℤ) : Action (FetchState σ) Exn Int64 := do
  let now ← onCli (readHost cli.host.steadyNow)
  return Int64.ofInt ((now - started).tdiv 1000)

def startClock : Action (FetchState σ) Exn ℤ := onCli (readHost cli.host.steadyNow)

/-! ## §4. Fetching a symbol. -/

/-- The quote from Redis, or else from the API client. -/
def readQuote (symbol : Symbol) : Action (FetchState σ) Exn (Option Quote) := do
  let redisReadStarted ← cli.startClock
  let cached ← call (cli.services.getCachedQuote symbol)
  let redisReadUs ← cli.elapsedUs redisReadStarted
  setMetrics (fun m => { m with redisReadUs := some redisReadUs, redisCacheHit := cached.isSome })
  match cached with
  | some quote => return some quote
  -- not in Redis: the client answers from its own cache or from the service
  | none => do
      let apiStarted ← cli.startClock
      let fetched ← call (cli.services.getQuote symbol)
      let apiUs ← cli.elapsedUs apiStarted
      setMetrics (fun m => { m with apiUs := some apiUs })
      let apiCached ← call cli.services.lastWasCached
      setMetrics (fun m => { m with apiCached := apiCached })
      return fetched

/-- Complete the metrics and record them. -/
def recordMetrics (processBefore : ProcessSnapshot) (totalStarted : ℤ) :
    Action (FetchState σ) Exn Unit := do
  let totalUs ← cli.elapsedUs totalStarted
  let processAfter ← onCli (readHost cli.host.processSnapshot)
  setMetrics (fun m =>
    { m with totalUs := totalUs, process := processDelta processBefore processAfter })
  let s ← Action.get
  modifyCli (fun st => { st with stats := st.stats.record s.2 })

/-- Store a quote that did not come from Redis.  A cache read neither refreshes
the TTL nor duplicates history. -/
def storeQuote (symbol : Symbol) (quote : Quote) : Action (FetchState σ) Exn Unit := do
  let s ← Action.get
  if s.2.redisCacheHit then
    -- a hit counts as stored
    setMetrics (fun m => { m with redisQuoteStored := true })
  else do
    let redisQuoteStarted ← cli.startClock
    let stored ← call (cli.services.storeQuote symbol quote)
    setMetrics (fun m => { m with redisQuoteStored := stored })
    let redisQuoteUs ← cli.elapsedUs redisQuoteStarted
    setMetrics (fun m => { m with redisQuoteUs := some redisQuoteUs })

def outOfRangeAt : Exn := .outOfRange "_Map_base::at".toList

/-- Rebuild the symbol's book in place and return it. -/
def rebuildBook (symbol : Symbol) (quote : Quote) : Action (FetchState σ) Exn OrderBook := do
  let s ← Action.get
  match s.1.2.books symbol with
  | none => throw outOfRangeAt
  | some before => do
      let bookStarted ← cli.startClock
      let (result, book) := populateBookFromQuote quote before
      -- the book is changed in place, so what was done before a throw stays done
      modifyCli (fun st => { st with books := Function.update st.books symbol (some book) })
      Action.ofExcept result
      let bookBuildUs ← cli.elapsedUs bookStarted
      setMetrics (fun m => { m with bookBuildUs := some bookBuildUs })
      -- reached only when nothing was thrown
      modifyCli (fun st => { st with booksWithData := insert symbol st.booksWithData })
      return book

/-- Send the book's levels to Redis. -/
def publishBook (symbol : Symbol) (book : OrderBook) : Action (FetchState σ) Exn Unit := do
  let bids := toAscending book.bids
  let asks := toAscending book.asks
  let redisBookStarted ← cli.startClock
  let stored ← call (cli.services.updateOrderBook symbol bids asks)
  setMetrics (fun m => { m with redisBookStored := stored })
  let redisBookUs ← cli.elapsedUs redisBookStarted
  setMetrics (fun m => { m with redisBookUs := some redisBookUs })

/-- The two PostgreSQL writes, when both callbacks are set. -/
def persist (quote : Quote) (snapshot : OrderBookSnapshot) :
    Action (FetchState σ) Exn (Option (Bool × Bool)) :=
  match cli.services.persistQuote, cli.services.persistSnapshot with
  | some persistQuote, some persistSnapshot => do
      let quoteStored ← call (persistQuote quote)
      -- the snapshot is written whatever became of the quote
      let snapshotStored ← call (persistSnapshot snapshot quote.source)
      return some (quoteStored, snapshotStored)
  | _, _ => return none

/-- Judge, record and report a fetch that has done all its writes. -/
def finishFetch (printData printMetrics : Bool) (processBefore : ProcessSnapshot) (totalStarted : ℤ)
    (quote : Quote) (snapshot : OrderBookSnapshot) (postgres : Option (Bool × Bool)) :
    Action (FetchState σ) Exn Bool := do
  -- without PostgreSQL both writes count as done
  let (postgresQuoteStored, postgresSnapshotStored) := postgres.getD (true, true)
  setMetrics (fun m => { m with
    success := m.redisQuoteStored && m.redisBookStored && postgresQuoteStored
      && postgresSnapshotStored })
  cli.recordMetrics processBefore totalStarted
  let s ← Action.get
  onCli (emit (.fetched s.2 postgres))
  onCli (emitIf printData (.quote quote))
  onCli (emitIf printData (.snapshot snapshot))
  onCli (emitIf printMetrics (.operationMetrics s.2))
  return s.2.success

/-- What a fetch does with a quote. -/
def useQuote (symbol : Symbol) (printData printMetrics : Bool) (processBefore : ProcessSnapshot)
    (totalStarted : ℤ) (quote : Quote) : Action (FetchState σ) Exn Bool := do
  cli.storeQuote symbol quote
  let book ← cli.rebuildBook symbol quote
  cli.publishBook symbol book
  let now ← onCli (readHost cli.host.systemNow)
  let snapshot := book.snapshot now 0
  let postgres ← cli.persist quote snapshot
  cli.finishFetch printData printMetrics processBefore totalStarted quote snapshot postgres

/-- The body of the `try` block. -/
def fetchBody (symbol : Symbol) (printData printMetrics : Bool) (processBefore : ProcessSnapshot)
    (totalStarted : ℤ) : Action (FetchState σ) Exn Bool := do
  let found ← cli.readQuote symbol
  match found with
  | none => do
      cli.recordMetrics processBefore totalStarted
      let s ← Action.get
      onCli (emit (.miss symbol))
      onCli (emitIf printMetrics (.operationMetrics s.2))
      return false
  | some quote => cli.useQuote symbol printData printMetrics processBefore totalStarted quote

/-- `is_configured`. -/
def isConfigured (st : CliState) (symbol : Symbol) : Bool := (st.books symbol).isSome

def notConfigured (symbol : Symbol) : Exn :=
  .invalidArgument ("symbol is not configured: ".toList ++ symbol)

/-- `fetch_symbol`; whatever is thrown is recorded as a failure and thrown
again. -/
def fetchSymbol (rawSymbol : Str) (printData printMetrics : Bool) :
    Action (σ × CliState) Exn Bool := do
  let symbol := normalizeSymbol rawSymbol
  let s ← Action.get
  -- refused outside the `try`: not recorded
  if isConfigured s.2 symbol = false then throw (notConfigured symbol)
  else do
    let processBefore ← readHost cli.host.processSnapshot
    let totalStarted ← readHost cli.host.steadyNow
    withLocal { symbol := symbol }
      (tryCatch (cli.fetchBody symbol printData printMetrics processBefore totalStarted)
        -- `catch (...)`
        (fun e => do
          cli.recordMetrics processBefore totalStarted
          throw e))

/-! ## §5. Fetching all symbols, and again. -/

/-- The loop of `fetch_all`: the number of symbols fetched successfully. -/
def fetchEach (printData printMetrics : Bool) : List Symbol → ℕ → Action (σ × CliState) Exn ℕ
  | [], successes => pure successes
  | symbol :: rest, successes => do
      let success ← cli.fetchSymbol symbol printData printMetrics
      fetchEach printData printMetrics rest (if success then successes + 1 else successes)

/-- Call a service outside a fetch. -/
def callOutside (x : Action σ Exn α) : Action (σ × CliState) Exn α :=
  Action.zoom Prod.fst (fun w s => (w, s.2)) x

/-- `fetch_all`. -/
def fetchAll (printData printMetrics : Bool) : Action (σ × CliState) Exn Unit := do
  let connected ← callOutside cli.services.redisIsConnected
  emitIf (!connected) .redisDisconnected
  let successes ← cli.fetchEach printData printMetrics cli.symbols 0
  emit (.batch successes (cli.symbols.length - successes) cli.symbols.length)

/-- `parse_number`. -/
def parseNumber (text name : Str) (minimum maximum : ℕ) : Except Exn ℕ :=
  match stoull text with
  | .error _ => .error (.invalidArgument (name ++ " must be a number".toList))
  | .ok (value, consumed) =>
      -- text behind the number is refused with the range's own message
      if consumed ≠ text.length ∨ value.toNat < minimum ∨ maximum < value.toNat then
        .error (.invalidArgument (name ++ " must be between ".toList ++ toStringNat minimum
          ++ " and ".toList ++ toStringNat maximum))
      else .ok value.toNat

abbrev Args := List Str

/-- One iteration of `watch`. -/
def watchOnce (target : Symbol) : Action (σ × CliState) Exn Unit :=
  if target = "ALL".toList then cli.fetchAll false false
  else do
    let _ ← cli.fetchSymbol target false true

/-- The loop of `watch`; `remaining` iterations are left of `count`. -/
def watchLoop (target : Symbol) (count intervalMs : ℕ) : ℕ → Action (σ × CliState) Exn Unit
  | 0 => pure ()
  | remaining + 1 => do
      let index := count - (remaining + 1)
      emit (.watch (index + 1) count)
      cli.watchOnce target
      emitIf (index + 1 < count && 0 < intervalMs) (.slept intervalMs)
      watchLoop target count intervalMs remaining

/-- The loop of `poll`. -/
def pollLoop (count seconds : ℕ) : ℕ → Action (σ × CliState) Exn Unit
  | 0 => pure ()
  | remaining + 1 => do
      let cycle := count - (remaining + 1)
      emit (.cycle (cycle + 1) count)
      cli.fetchAll true false
      emitIf (cycle + 1 < count && 0 < seconds) (.sleeping seconds)
      emitIf (cycle + 1 < count && 0 < seconds) (.slept (seconds * 1000))
      pollLoop count seconds remaining

def printSummary : Action (σ × CliState) Exn Unit := do
  let s ← Action.get
  emit (.summary s.2.stats)

def usage (text : String) : Exn := .invalidArgument text.toList

/-- `handle_fetch`. -/
def handleFetch : Args → Action (σ × CliState) Exn Unit
  | [arg] =>
      let target := normalizeSymbol arg
      if target = "ALL".toList then cli.fetchAll true true
      else do
        let _ ← cli.fetchSymbol target true true
  | _ => throw (usage "usage: fetch <SYMBOL|all>")

/-- `handle_watch`. -/
def handleWatch (args : Args) : Action (σ × CliState) Exn Unit :=
  match args with
  | [] => throw (usage "usage: watch <SYMBOL|all> [COUNT] [INTERVAL_MS]")
  | _ :: _ :: _ :: _ :: _ => throw (usage "usage: watch <SYMBOL|all> [COUNT] [INTERVAL_MS]")
  | first :: rest => do
      let target := normalizeSymbol first
      -- both numbers are read before the symbol is looked for
      let count ←
        match rest with
        | text :: _ => Action.ofExcept (parseNumber text "COUNT".toList 1 100000)
        | [] => pure 10
      let intervalMs ←
        match rest with
        | [_, text] => Action.ofExcept (parseNumber text "INTERVAL_MS".toList 0 3600000)
        | _ => pure 1000
      let s ← Action.get
      if target ≠ "ALL".toList ∧ isConfigured s.2 target = false then
        throw (notConfigured target)
      else do
        emit (.watching target count intervalMs)
        cli.watchLoop target count intervalMs count
        printSummary

/-- `handle_poll`. -/
def handlePoll (args : Args) : Action (σ × CliState) Exn Unit :=
  match args with
  | _ :: _ :: _ :: _ => throw (usage "usage: poll [COUNT] [SECONDS]")
  | _ => do
      let count ←
        match args with
        | text :: _ => Action.ofExcept (parseNumber text "COUNT".toList 1 100000)
        | [] => pure 1
      let seconds ←
        match args with
        | [_, text] => Action.ofExcept (parseNumber text "SECONDS".toList 0 86400)
        -- a negative default means no pause
        | _ => pure (max cli.defaultPollSeconds 0).toNat
      cli.pollLoop count seconds count
      printSummary

end FinCoreCli

end FinCore.Cli

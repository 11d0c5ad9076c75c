/-
  FinCore.Cli.CommandLoop
  ───────────────────────
  The command line of the CLI: splitting a line into words, the commands that
  fetch nothing, and the loop over the lines of the input.

  `running_` is kept beside the other members.  The prompt and the banner are
  not modelled.
-/
import FinCore.Cli.FinCoreCli

namespace FinCore.Cli

open FinCore.Cxx

namespace FinCoreCli

variable {σ α : Type} (cli : FinCoreCli σ)

/-- `tokenize`: the words between white space. -/
def tokenize (line : Str) : Args := (line.splitOnP isSpace).filter (· ≠ [])

/-! ## §1. Commands that show something. -/

/-- `handle_symbols`. -/
def handleSymbols (args : Args) : Action (σ × CliState) Exn Unit :=
  if args ≠ [] then throw (usage "usage: symbols") else emit (.symbols cli.symbols)

/-- `handle_book`. -/
def handleBook : Args → Action (σ × CliState) Exn Unit
  | [arg] => do
      let symbol := normalizeSymbol arg
      let s ← Action.get
      -- the configuration is asked before the data
      if isConfigured s.2 symbol = false then throw (notConfigured symbol)
      else if symbol ∉ s.2.booksWithData then emit (.bookMiss symbol)
      else do
        let started ← readHost cli.host.steadyNow
        match s.2.books symbol with
        | none => throw outOfRangeAt
        | some book => do
            let now ← readHost cli.host.systemNow
            let finished ← readHost cli.host.steadyNow
            emit (.snapshot (book.snapshot now 0))
            emit (.snapshotTime (Int64.ofInt ((finished - started).tdiv 1000)))
  | _ => throw (usage "usage: book <SYMBOL>")

/-- The hits of a loop that looks the same thing up again and again. -/
def countHits (found : Bool) : ℕ → ℕ
  | 0 => 0
  | iterations + 1 => if found then countHits found iterations + 1 else countHits found iterations

/-- `std::find(symbols_.begin(), symbols_.end(), symbol) != symbols_.end()`. -/
def vectorFinds (symbol : Symbol) : Bool := decide (symbol ∈ cli.symbols)

/-- `handle_lookup`. -/
def handleLookup (args : Args) : Action (σ × CliState) Exn Unit :=
  match args with
  | [] => throw (usage "usage: lookup <SYMBOL> [COUNT]")
  | _ :: _ :: _ :: _ => throw (usage "usage: lookup <SYMBOL> [COUNT]")
  | first :: rest => do
      let symbol := normalizeSymbol first
      -- the count is read before the symbol is looked for
      let count ←
        match rest with
        | text :: _ => Action.ofExcept (parseNumber text "COUNT".toList 1 100000000)
        | [] => pure 1000000
      let s ← Action.get
      if isConfigured s.2 symbol = false then throw (notConfigured symbol)
      else do
        let processBefore ← readHost cli.host.processSnapshot
        let benchmarkStarted ← readHost cli.host.steadyNow
        -- the same symbol is looked for `count` times, first in the vector, then in the map
        let vectorStarted ← readHost cli.host.steadyNow
        let vectorHits := countHits (cli.vectorFinds symbol) count
        let vectorFinished ← readHost cli.host.steadyNow
        let mapStarted ← readHost cli.host.steadyNow
        let mapHits := countHits (isConfigured s.2 symbol) count
        let mapFinished ← readHost cli.host.steadyNow
        let benchmarkFinished ← readHost cli.host.steadyNow
        let processAfter ← readHost cli.host.processSnapshot
        emit (.lookupBenchmark symbol count vectorHits mapHits (vectorFinished - vectorStarted)
          (mapFinished - mapStarted)
          (Int64.ofInt ((benchmarkFinished - benchmarkStarted).tdiv 1000))
          (processDelta processBefore processAfter))

/-- `handle_redis`. -/
def handleRedis (args : Args) : Action (σ × CliState) Exn Unit :=
  match args with
  | [arg] =>
      if normalizeSymbol arg ≠ "STATUS".toList then throw (usage "usage: redis status")
      else do
        let connected ← callOutside cli.services.redisIsConnected
        emit (.redisStatus connected)
  | _ => throw (usage "usage: redis status")

def printLast : Action (σ × CliState) Exn Unit := do
  let s ← Action.get
  emit (.lastOperation s.2.stats.last)

def resetStats : Action (σ × CliState) Exn Unit :=
  Action.modify (fun s => (s.1, { s.2 with stats := s.2.stats.reset }))

/-- `handle_stats`. -/
def handleStats : Args → Action (σ × CliState) Exn Unit
  | [] => printSummary
  | [arg] =>
      let action := normalizeSymbol arg
      if action = "LAST".toList then printLast
      else if action = "RESET".toList then do
        resetStats
        emit .statsReset
      else throw (usage "usage: stats [last|reset]")
  | _ => throw (usage "usage: stats [last|reset]")

/-! ## §2. A line. -/

/-- The first word of a line is folded to upper and then to lower case. -/
def commandName (word : Str) : Str := toLower (normalizeSymbol word)

/-- What a command does; `exit` and `quit` apart, the loop goes on. -/
def runCommand (command : Str) (args : Args) : Action (σ × CliState) Exn Unit :=
  if command = "help".toList then emit .help
  else if command = "symbols".toList then cli.handleSymbols args
  else if command = "fetch".toList then cli.handleFetch args
  else if command = "book".toList then cli.handleBook args
  else if command = "lookup".toList then cli.handleLookup args
  else if command = "watch".toList then cli.handleWatch args
  else if command = "poll".toList then cli.handlePoll args
  else if command = "redis".toList then cli.handleRedis args
  else if command = "stats".toList then handleStats args
  else if command = "exit".toList ∨ command = "quit".toList then emit .bye
  -- an unknown command is printed, not thrown
  else emit (.unknownCommand command)

/-- A word that ends the loop. -/
def isExit (command : Str) : Bool := command = "exit".toList ∨ command = "quit".toList

/-- `handle_line`: whether the loop goes on. -/
def handleLine (line : Str) : Action (σ × CliState) Exn Bool :=
  match tokenize line with
  | [] => pure true
  | first :: args => do
      cli.runCommand (commandName first) args
      return !isExit (commandName first)

/-- An iteration of `run`: an exception is reported, and the loop goes on. -/
def runLine (line : Str) : Action (σ × CliState) Exn Bool :=
  tryCatch (cli.handleLine line) fun e => do
    emit (.error e)
    return true

/-- `run`, over the lines of the input. -/
def run : List Str → Action (σ × CliState) Exn Unit
  | [] => pure ()
  | line :: rest => do
      let running ← cli.runLine line
      if running then run rest else pure ()

end FinCoreCli

end FinCore.Cli

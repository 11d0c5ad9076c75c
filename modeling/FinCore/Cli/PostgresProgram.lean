/-
  FinCore.Cli.PostgresProgram
  ───────────────────────────
  `fincore_app postgres …`: one command as a process of its own.

  `run_postgres_cli` connects, runs the command and turns what is thrown into an
  exit status.  Each invocation has a connection of its own, and all of them one
  database.  The status tells what became of the database
  (`exit_status_tells`); whatever failed before, `latest-quote` prints the
  newest quote of the invocations that exited with 0
  (`latestQuote_prints_newest`).
-/
import FinCore.Cli.PostgresCli
import FinCore.Storage.Connection
import FinCore.Storage.DatabaseIntegrity

namespace FinCore.Cli

open FinCore.Cxx FinCore.Domain FinCore.Sql FinCore.Storage

/-! ## §1. Requests. -/

/-- What a command line asks for. -/
inductive Request where
  | help
  | write (call : WriteCall)
  | latestQuote (symbol source : Str)

/-- `instrument`. -/
def instrumentRequest : List Str → Except Exn Request
  | [symbol, name, assetClass, exchange, tickDecimals, active] => do
      let assetClass ← parseAssetClass assetClass
      let tickDecimals ← parseTickDecimals tickDecimals
      let active ← parseBool active
      return .write (.upsertInstrument
        { symbol := toUpper symbol, name := name, assetClass := assetClass, exchange := exchange
          tickSizeDecimals := tickDecimals, isActive := active })
  | _ => throw (usageError "instrument SYMBOL NAME ASSET_CLASS EXCHANGE TICK_DECIMALS ACTIVE")

/-- `source`. -/
def sourceRequest : List Str → Except Exn Request
  | [code, displayName, baseUrl, active] => do
      let active ← parseBool active
      return .write (.upsertDataSource
        { code := toUpper code, displayName := displayName, baseUrl := nullable baseUrl
          isActive := active })
  | _ => throw (usageError "source CODE DISPLAY_NAME BASE_URL|- ACTIVE")

/-- `quote`. -/
def quoteRequest (now : Timestamp) : List Str → Except Exn Request
  | [symbol, source, timestamp, price, openPrice, high, low, volume, changePct] => do
      let timestamp ← parseTimestamp now timestamp
      let price ← Decimal.fromString price
      let openPrice ← Decimal.fromString openPrice
      let high ← Decimal.fromString high
      let low ← Decimal.fromString low
      let volume ← Decimal.fromString volume
      let changePct ← parseNullableDecimal changePct
      return .write (.batch (.insertQuotes
        [{ symbol := toUpper symbol, source := toUpper source, timestamp := timestamp
           price := price, openPrice := openPrice, high := high, low := low, volume := volume
           changePct := changePct }]))
  | _ =>
      throw (usageError "quote SYMBOL SOURCE TIMESTAMP PRICE OPEN HIGH LOW VOLUME CHANGE_PCT|-")

/-- `tick`. -/
def tickRequest (now : Timestamp) : List Str → Except Exn Request
  | [symbol, source, timestamp, tradeId, price, size, side] => do
      let timestamp ← parseTimestamp now timestamp
      let price ← Decimal.fromString price
      let size ← Decimal.fromString size
      let side ← parseSide side
      return .write (.batch (.insertTicks
        [{ symbol := toUpper symbol, source := toUpper source, timestamp := timestamp
           tradeId := nullable tradeId, price := price, size := size, side := side }]))
  | _ => throw (usageError "tick SYMBOL SOURCE TIMESTAMP TRADE_ID|- PRICE SIZE SIDE")

/-- `snapshot`. -/
def snapshotRequest (now : Timestamp) : List Str → Except Exn Request
  | [symbol, source, timestamp, bestBid, bestAsk, imbalance, bidVolume, askVolume] => do
      let timestamp ← parseTimestamp now timestamp
      let bestBid ← Decimal.fromString bestBid
      let bestAsk ← Decimal.fromString bestAsk
      let imbalance ← Decimal.fromString imbalance
      let bidVolume ← Decimal.fromString bidVolume
      let askVolume ← Decimal.fromString askVolume
      return .write (.batch (.insertOrderBookSnapshots
        [{ symbol := toUpper symbol, source := toUpper source, snapshotTime := timestamp
           bestBid := bestBid, bestAsk := bestAsk, imbalance := imbalance
           totalBidVolume := bidVolume, totalAskVolume := askVolume }]))
  | _ =>
      throw (usageError
        "snapshot SYMBOL SOURCE TIMESTAMP BEST_BID BEST_ASK IMBALANCE BID_VOLUME ASK_VOLUME")

/-- `indicator`. -/
def indicatorRequest (now : Timestamp) : List Str → Except Exn Request
  | [symbol, source, name, timestamp, value, parametersJson] => do
      let timestamp ← parseTimestamp now timestamp
      let value ← Decimal.fromString value
      return .write (.batch (.insertTechnicalIndicators
        [{ symbol := toUpper symbol, source := toUpper source, indicatorName := toUpper name
           timestamp := timestamp, value := value, parametersJson := parametersJson }]))
  | _ => throw (usageError "indicator SYMBOL SOURCE NAME TIMESTAMP VALUE PARAMETERS_JSON")

/-- `latest-quote`. -/
def latestQuoteRequest : List Str → Except Exn Request
  | [symbol, source] => return .latestQuote (toUpper symbol) (toUpper source)
  | _ => throw (usageError "latest-quote SYMBOL SOURCE")

/-- What the arguments ask for at `now`. -/
def requestOf (now : Timestamp) : List Str → Except Exn Request
  | [] => return .help
  | command :: rest =>
      if isHelpWord command then return .help
      else if command = "instrument".toList then instrumentRequest rest
      else if command = "source".toList then sourceRequest rest
      else if command = "quote".toList then quoteRequest now rest
      else if command = "tick".toList then tickRequest now rest
      else if command = "snapshot".toList then snapshotRequest now rest
      else if command = "indicator".toList then indicatorRequest now rest
      else if command = "latest-quote".toList then latestQuoteRequest rest
      else
        throw (.invalidArgument
          ("unknown command: ".toList ++ command ++ " (run with --help)".toList))

/-- What a command that writes prints. -/
def reportText : WriteCall → Option InsertSummary → Str
  | .upsertInstrument instrument, _ =>
      "instrument upserted: ".toList ++ instrument.symbol ++ "\n".toList
  | .upsertDataSource source, _ =>
      "data source upserted: ".toList ++ source.code ++ "\n".toList
  | .batch _, none => []
  | .batch _, some summary =>
      "attempted=".toList ++ toStringNat summary.attempted
        ++ " inserted=".toList ++ toStringNat summary.inserted
        ++ " duplicates=".toList ++ toStringNat summary.duplicates ++ "\n".toList

section Perform

variable {σ : Type} (repository : MarketDataRepository σ)

/-- The method that a call names. -/
def performBatch : BatchCall → Action σ Exn InsertSummary
  | .insertQuotes quotes => repository.insertQuotes quotes
  | .insertTicks ticks => repository.insertTicks ticks
  | .insertOrderBookSnapshots snapshots => repository.insertOrderBookSnapshots snapshots
  | .insertTechnicalIndicators indicators => repository.insertTechnicalIndicators indicators

def performWrite : WriteCall → Action σ Exn (Option InsertSummary)
  | .upsertInstrument instrument => do
      repository.upsertInstrument instrument
      return none
  | .upsertDataSource source => do
      repository.upsertDataSource source
      return none
  | .batch call => do
      let summary ← performBatch repository call
      return some summary

/-- What `latest-quote` prints, and its status. -/
def printLatest : Option Domain.Quote → Action (PostgresIo σ) Exn ℤ
  | none => do
      putOut "not found\n".toList
      return 3
  | some value => do
      putOut (latestQuoteText value)
      return 0

/-- Ask the repository, and print what it answers. -/
def Request.perform : Request → Action (PostgresIo σ) Exn ℤ
  | help => do
      putOut helpText
      return 0
  | write call => do
      let summary ← onOutside (performWrite repository call)
      putOut (reportText call summary)
      return 0
  | latestQuote symbol source => do
      let value ← onOutside (repository.latestQuote symbol source)
      printLatest value

theorem ofExcept_bind {α β : Type} (r : Except Exn α) (f : α → Except Exn β)
    (g : β → Action σ Exn ℤ) :
    (Action.ofExcept (r >>= f) >>= g)
      = (Action.ofExcept r >>= fun a => Action.ofExcept (f a) >>= g) := by
  cases r <;> rfl

theorem readTimestamp_fixed (now : Timestamp) (value : Str) :
    readTimestamp (fun s : σ => (now, s)) value = Action.ofExcept (parseTimestamp now value) := by
  unfold readTimestamp parseTimestamp
  by_cases hnow : toUpper value = "NOW".toList
  · rw [if_pos hnow, if_pos hnow]
    rfl
  · rw [if_neg hnow, if_neg hnow, if_neg hnow]

theorem ofExcept_pure {α : Type} (a : α) (g : α → Action σ Exn ℤ) :
    (Action.ofExcept (pure a) >>= g) = g a := rfl

/-- A call whose answer is only wrapped. -/
theorem onOutside_wrapped {α β : Type} (x : Action σ Exn α) (f : α → β)
    (g : β → Action (PostgresIo σ) Exn ℤ) :
    (onOutside (x >>= fun a => pure (f a)) >>= g) = (onOutside x >>= fun a => g (f a)) := by
  funext io
  simp only [Action.bind_run, onOutside, Action.zoom]
  rcases x io.outside with ⟨_ | _, _⟩ <;> rfl

theorem runInstrument_request (rest : List Str) :
    runInstrument repository rest
      = (Action.ofExcept (instrumentRequest rest) >>= Request.perform repository) := by
  unfold runInstrument
  split
  · simp only [instrumentRequest, ofExcept_bind, ofExcept_pure, Request.perform, performWrite,
      onOutside_wrapped]
    rfl
  next hcount =>
    have husage : instrumentRequest rest = throw (usageError
        "instrument SYMBOL NAME ASSET_CLASS EXCHANGE TICK_DECIMALS ACTIVE") := by
      unfold instrumentRequest
      split
      · exact (hcount _ _ _ _ _ _ rfl).elim
      · rfl
    rw [husage]
    rfl

theorem runSource_request (rest : List Str) :
    runSource repository rest
      = (Action.ofExcept (sourceRequest rest) >>= Request.perform repository) := by
  unfold runSource
  split
  · simp only [sourceRequest, ofExcept_bind, ofExcept_pure, Request.perform, performWrite,
      onOutside_wrapped]
    rfl
  next hcount =>
    have husage : sourceRequest rest = throw (usageError
        "source CODE DISPLAY_NAME BASE_URL|- ACTIVE") := by
      unfold sourceRequest
      split
      · exact (hcount _ _ _ _ rfl).elim
      · rfl
    rw [husage]
    rfl

theorem runQuote_request (now : Timestamp) (rest : List Str) :
    runQuote repository (fun s => (now, s)) rest
      = (Action.ofExcept (quoteRequest now rest) >>= Request.perform repository) := by
  unfold runQuote
  split
  · simp only [quoteRequest, readTimestamp_fixed, ofExcept_bind, ofExcept_pure, Request.perform,
      performWrite, onOutside_wrapped]
    rfl
  next hcount =>
    have husage : quoteRequest now rest = throw (usageError
        "quote SYMBOL SOURCE TIMESTAMP PRICE OPEN HIGH LOW VOLUME CHANGE_PCT|-") := by
      unfold quoteRequest
      split
      · exact (hcount _ _ _ _ _ _ _ _ _ rfl).elim
      · rfl
    rw [husage]
    rfl

theorem runTick_request (now : Timestamp) (rest : List Str) :
    runTick repository (fun s => (now, s)) rest
      = (Action.ofExcept (tickRequest now rest) >>= Request.perform repository) := by
  unfold runTick
  split
  · simp only [tickRequest, readTimestamp_fixed, ofExcept_bind, ofExcept_pure, Request.perform,
      performWrite, onOutside_wrapped]
    rfl
  next hcount =>
    have husage : tickRequest now rest = throw (usageError
        "tick SYMBOL SOURCE TIMESTAMP TRADE_ID|- PRICE SIZE SIDE") := by
      unfold tickRequest
      split
      · exact (hcount _ _ _ _ _ _ _ rfl).elim
      · rfl
    rw [husage]
    rfl

theorem runSnapshot_request (now : Timestamp) (rest : List Str) :
    runSnapshot repository (fun s => (now, s)) rest
      = (Action.ofExcept (snapshotRequest now rest) >>= Request.perform repository) := by
  unfold runSnapshot
  split
  · simp only [snapshotRequest, readTimestamp_fixed, ofExcept_bind, ofExcept_pure, Request.perform,
      performWrite, onOutside_wrapped]
    rfl
  next hcount =>
    have husage : snapshotRequest now rest = throw (usageError
        "snapshot SYMBOL SOURCE TIMESTAMP BEST_BID BEST_ASK IMBALANCE BID_VOLUME ASK_VOLUME") := by
      unfold snapshotRequest
      split
      · exact (hcount _ _ _ _ _ _ _ _ rfl).elim
      · rfl
    rw [husage]
    rfl

theorem runIndicator_request (now : Timestamp) (rest : List Str) :
    runIndicator repository (fun s => (now, s)) rest
      = (Action.ofExcept (indicatorRequest now rest) >>= Request.perform repository) := by
  unfold runIndicator
  split
  · simp only [indicatorRequest, readTimestamp_fixed, ofExcept_bind, ofExcept_pure, Request.perform,
      performWrite, onOutside_wrapped]
    rfl
  next hcount =>
    have husage : indicatorRequest now rest = throw (usageError
        "indicator SYMBOL SOURCE NAME TIMESTAMP VALUE PARAMETERS_JSON") := by
      unfold indicatorRequest
      split
      · exact (hcount _ _ _ _ _ _ rfl).elim
      · rfl
    rw [husage]
    rfl

theorem runLatestQuote_request (rest : List Str) :
    runLatestQuote repository rest
      = (Action.ofExcept (latestQuoteRequest rest) >>= Request.perform repository) := by
  unfold runLatestQuote
  split
  · rfl
  next hcount =>
    have husage : latestQuoteRequest rest = throw (usageError
        "latest-quote SYMBOL SOURCE") := by
      unfold latestQuoteRequest
      split
      · exact (hcount _ _ rfl).elim
      · rfl
    rw [husage]
    rfl

/-- **A command is its request, performed.** -/
theorem runArguments_request (now : Timestamp) (args : List Str) :
    runArguments repository (fun s => (now, s)) args
      = (Action.ofExcept (requestOf now args) >>= Request.perform repository) := by
  cases args with
  | nil => rfl
  | cons command rest =>
      unfold runArguments requestOf
      dsimp only
      -- the same tests on both sides
      split_ifs
      · rfl
      · exact runInstrument_request repository rest
      · exact runSource_request repository rest
      · exact runQuote_request repository now rest
      · exact runTick_request repository now rest
      · exact runSnapshot_request repository now rest
      · exact runIndicator_request repository now rest
      · exact runLatestQuote_request repository rest
      · rfl

end Perform

/-! ## §2. The process. -/

/-- `std::exception::what`. -/
def whatOf : Exn → Str
  | .invalidArgument what | .outOfRange what | .logicError what | .runtimeError what
  | .databaseError what _ | .redisError what | .other what => what

/-- The two `catch` clauses of `run_postgres_cli`: the status and what is
written to the error stream. -/
def reportFailure : Exn → ℤ × Str
  | .databaseError what sqlState =>
      (1, "database error".toList
        ++ (if sqlState = [] then [] else " [SQLSTATE ".toList ++ sqlState ++ "]".toList)
        ++ ": ".toList ++ what ++ "\n".toList)
  | e => (2, "error: ".toList ++ whatOf e ++ "\n".toList)

/-- `PostgresMarketDataRepository`. -/
def postgresRepository (platform : Platform) (refusalText : RefusalText) (queryFate : Fate) :
    MarketDataRepository DbSession where
  upsertInstrument := Storage.upsertInstrument platform refusalText
  upsertDataSource := Storage.upsertDataSource platform refusalText
  insertQuotes := insertFacts platform refusalText quoteBatch
  insertTicks := insertFacts platform refusalText tickBatch
  insertOrderBookSnapshots := insertFacts platform refusalText snapshotBatch
  insertTechnicalIndicators := insertFacts platform refusalText indicatorBatch
  latestQuote := latestQuoteOn platform refusalText queryFate

/-- `fincore_app postgres ARGUMENTS` at `now`. -/
structure Invocation where
  args : List Str
  environment : Environment
  now : Timestamp
  link : Link

/-- What a process leaves. -/
structure ProcessResult where
  status : ℤ
  out : Str
  err : Str
  database : Database

/-- No command, or a word that asks for help. -/
def asksHelp : List Str → Bool
  | [] => true
  | command :: _ => isHelpWord command

/-- What is left when `main` has the status, or has caught the exception.  The
server drops the session and keeps what is committed. -/
def processResult : Except Exn ℤ × PostgresIo DbSession → ProcessResult
  | (.ok status, io) => ⟨status, io.out, io.err, io.outside.committed⟩
  | (.error e, io) =>
      ⟨(reportFailure e).1, io.out, io.err ++ (reportFailure e).2, io.outside.committed⟩

/-- `run_postgres_cli`. -/
def runPostgresCli (platform : Platform) (refusalText : RefusalText) (invocation : Invocation)
    (database : Database) : ProcessResult :=
  -- help must remain available even when PostgreSQL is not running
  if asksHelp invocation.args then ⟨0, helpText, [], database⟩
  else
    let opened : Except Exn DbSession := do
      let config ← ConnectionConfig.fromEnvironment invocation.environment
      invocation.link.openRepository config database
    match opened with
    | .error e => ⟨(reportFailure e).1, [], (reportFailure e).2, database⟩
    | .ok session =>
        processResult (runPostgres
          (postgresRepository platform refusalText invocation.link.queryFate)
          (fun s => (invocation.now, s)) invocation.args { outside := session })

/-! ## §3. What the status tells. -/

/-- What an exit status tells about the database, whatever the fates of the
statements. -/
structure StatusTells (platform : Platform) (refusalText : RefusalText) (fate : ℕ → Fate)
    (request : Except Exn Request) (database : Database) (result : ProcessResult) : Prop where
  status : result.status = 0 ∨ result.status = 1 ∨ result.status = 2 ∨ result.status = 3
  /-- One stream is written, and the status tells which. -/
  streams : if result.status = 0 ∨ result.status = 3 then result.err = [] ∧ result.out ≠ []
    else result.out = [] ∧ result.err ≠ []
  untouched : result.status ≠ 0 → AllAnswered fate → result.database = database
  /-- The answer to the last statement of the record was lost. -/
  unanswered : result.status ≠ 0 → result.database = database
    ∨ ∃ call statements n, request = .ok (.write call) ∧ call.Sends platform statements
      ∧ execAll (schemaServer platform refusalText) statements database = .ok (result.database, n)
  unwritten : (∀ call, request ≠ .ok (.write call)) → result.database = database
  written : ∀ call, request = .ok (.write call) → result.status = 0 →
    ∃ statements n, call.Sends platform statements
      ∧ execAll (schemaServer platform refusalText) statements database = .ok (result.database, n)
      ∧ result.out = reportText call (call.summary n)
  found : ∀ symbol source, request = .ok (.latestQuote symbol source) → result.status = 0 →
    ∃ row quote, selected symbol source database = some row
      ∧ quoteOfResult row = .ok quote ∧ result.out = latestQuoteText quote
  notFound : result.status = 3 → ∃ symbol source, request = .ok (.latestQuote symbol source)
    ∧ selected symbol source database = none
    ∧ result.out = "not found\n".toList

section Tells

variable {platform : Platform} {refusalText : RefusalText}

theorem reportFailure_cases (e : Exn) :
    ((reportFailure e).1 = 1 ∨ (reportFailure e).1 = 2) ∧ (reportFailure e).2 ≠ [] := by
  have hline : ∀ text : Str, text ++ "\n".toList ≠ [] :=
    fun text => List.append_ne_nil_of_right_ne_nil _ (by decide)
  cases e with
  | databaseError what sqlState => exact ⟨Or.inl rfl, hline _⟩
  | invalidArgument _ | outOfRange _ | logicError _ | runtimeError _ | redisError _ | other _ =>
      exact ⟨Or.inr rfl, hline _⟩

/-- An exception tells that nothing has happened. -/
theorem StatusTells.failure (fate : ℕ → Fate) (request : Except Exn Request) (database : Database)
    (e : Exn) :
    StatusTells platform refusalText fate request database
      ⟨(reportFailure e).1, [], (reportFailure e).2, database⟩ := by
  obtain ⟨hstatus, htext⟩ := reportFailure_cases e
  exact
    { status := by dsimp only; omega
      streams := by
        rw [if_neg (by dsimp only; omega)]
        exact ⟨rfl, htext⟩
      untouched := fun _ _ => rfl
      unanswered := fun _ => Or.inl rfl
      unwritten := fun _ => rfl
      written := fun _ _ hzero => by dsimp only at hzero; omega
      found := fun _ _ _ hzero => by dsimp only at hzero; omega
      notFound := fun hthree => by dsimp only at hthree; omega }

/-- The two `catch` clauses of `run` do what those of `main` would. -/
theorem processResult_run (repository : MarketDataRepository DbSession)
    (systemNow : DbSession → Timestamp × DbSession) (args : List Str) (io : PostgresIo DbSession) :
    processResult (runPostgres repository systemNow args io)
      = processResult (runArguments repository systemNow args io) := by
  unfold runPostgres
  rw [Action.tryCatch_run]
  rcases runArguments repository systemNow args io with ⟨e | status, io'⟩
  · cases e <;> rfl
  · rfl

theorem performWrite_postgres (queryFate : Fate) (call : WriteCall) :
    performWrite (postgresRepository platform refusalText queryFate) call
      = call.perform platform refusalText := by
  cases call with
  | upsertInstrument _ | upsertDataSource _ => rfl
  | batch call => cases call <;> rfl

theorem reportText_ne_nil (call : WriteCall) (n : ℕ) : reportText call (call.summary n) ≠ [] := by
  have hline : ∀ text : Str, text ++ "\n".toList ≠ [] :=
    fun text => List.append_ne_nil_of_right_ne_nil _ (by decide)
  cases call with
  | upsertInstrument _ | upsertDataSource _ => exact hline _
  | batch call => cases call <;> exact hline _

/-- A request to write. -/
theorem StatusTells.write (queryFate : Fate) (call : WriteCall) {session : DbSession}
    (hs : session.status = .idle) :
    StatusTells platform refusalText session.fate (.ok (.write call)) session.committed
      (processResult ((Request.write call).perform
        (postgresRepository platform refusalText queryFate) { outside := session })) := by
  have hperform : (Request.write call).perform (postgresRepository platform refusalText queryFate)
      { outside := session } = match call.perform platform refusalText session with
        | (.ok summary, t) => (.ok 0, { outside := t, out := reportText call summary })
        | (.error e, t) => (.error e, { outside := t }) := by
    show (onOutside (performWrite _ call) >>= fun summary =>
      (putOut (reportText call summary) >>= fun _ => pure 0)) _ = _
    rw [performWrite_postgres, Action.bind_run]
    unfold onOutside Action.zoom
    dsimp only
    rcases call.perform platform refusalText session with ⟨_ | _, _⟩ <;> rfl
  rw [hperform]
  rcases hreturned : call.perform platform refusalText session with ⟨result, t⟩
  have hcall := call.perform_returned platform refusalText hs
  rw [hreturned] at hcall
  cases hcall with
  | thrown e t hsame =>
      dsimp only [processResult, List.nil_append]
      rw [hsame]
      exact StatusTells.failure _ _ _ e
  | unanswered e statements n t hsent hexecuted hlost =>
      obtain ⟨hstatus, htext⟩ := reportFailure_cases e
      have hfate : t.fate = session.fate := by
        have hsame := call.perform_within platform refusalText
          (Session.issue_fate (schemaServer platform refusalText)) session
        rw [hreturned] at hsame
        exact hsame
      dsimp only [processResult, List.nil_append]
      exact
        { status := by dsimp only; omega
          streams := by
            rw [if_neg (by dsimp only; omega)]
            exact ⟨rfl, htext⟩
          untouched := fun _ hanswers =>
            absurd (Session.AllAnswered.answered hanswers hfate) hlost
          unanswered := fun _ => Or.inr ⟨call, statements, n, rfl, hsent, hexecuted⟩
          unwritten := fun hno => absurd rfl (hno call)
          written := fun _ _ hzero => by dsimp only at hzero; omega
          found := nofun
          notFound := fun hthree => by dsimp only at hthree; omega }
  | done statements n t hsent hexecuted =>
      dsimp only [processResult, List.nil_append]
      exact
        { status := Or.inl rfl
          streams := by
            dsimp only
            rw [if_pos (Or.inl rfl)]
            exact ⟨rfl, reportText_ne_nil call n⟩
          untouched := fun hzero => absurd rfl hzero
          unanswered := fun hzero => absurd rfl hzero
          unwritten := fun hno => absurd rfl (hno call)
          written := by
            rintro _ ⟨⟩ _
            exact ⟨statements, n, hsent, hexecuted, rfl⟩
          found := nofun
          notFound := fun hthree => by cases hthree }

theorem latestQuote_perform (queryFate : Fate) (symbol source : Str) (session : DbSession) :
    (Request.latestQuote symbol source).perform (postgresRepository platform refusalText queryFate)
        { outside := session }
      = match latestQuoteOn platform refusalText queryFate symbol source session with
        | (.ok none, t) => (.ok 3, { outside := t, out := "not found\n".toList })
        | (.ok (some value), t) => (.ok 0, { outside := t, out := latestQuoteText value })
        | (.error e, t) => (.error e, { outside := t }) := by
  show (onOutside (latestQuoteOn platform refusalText queryFate symbol source)
    >>= printLatest) _ = _
  rw [Action.bind_run]
  unfold onOutside Action.zoom
  dsimp only
  rcases latestQuoteOn platform refusalText queryFate symbol source session with
    ⟨e | _ | value, t⟩
  · rfl
  · show (Except.ok 3, PostgresIo.mk t ([] ++ "not found\n".toList) []) = _
    rw [List.nil_append]
  · show (Except.ok 0, PostgresIo.mk t ([] ++ latestQuoteText value) []) = _
    rw [List.nil_append]

/-- A request for the latest quote. -/
theorem StatusTells.latestQuote (queryFate : Fate) (symbol source : Str) {session : DbSession}
    (hconnected : session.connected = true) (hs : session.status = .idle) :
    StatusTells platform refusalText session.fate (.ok (.latestQuote symbol source))
      session.committed
      (processResult ((Request.latestQuote symbol source).perform
        (postgresRepository platform refusalText queryFate) { outside := session })) := by
  rw [latestQuote_perform]
  rcases hqueried : latestQuoteOn platform refusalText queryFate symbol source session with
    ⟨result, t⟩
  have hquery := latestQuoteOn_queried platform refusalText queryFate symbol source hconnected hs
  rw [hqueried] at hquery
  cases hquery with
  | thrown e t hsame =>
      dsimp only [processResult, List.nil_append]
      rw [hsame]
      exact StatusTells.failure _ _ _ e
  | nothing habsent =>
      dsimp only [processResult]
      exact
        { status := Or.inr (Or.inr (Or.inr rfl))
          streams := by
            dsimp only
            rw [if_pos (Or.inr rfl)]
            exact ⟨rfl, by decide⟩
          untouched := fun _ _ => rfl
          unanswered := fun _ => Or.inl rfl
          unwritten := fun _ => rfl
          written := nofun
          found := fun _ _ _ hzero => by cases hzero
          notFound := fun _ => ⟨symbol, source, rfl, habsent, rfl⟩ }
  | found row quote hpresent hread =>
      dsimp only [processResult]
      exact
        { status := Or.inl rfl
          streams := by
            dsimp only
            rw [if_pos (Or.inl rfl)]
            exact ⟨rfl, List.append_ne_nil_of_right_ne_nil _ (by decide)⟩
          untouched := fun _ _ => rfl
          unanswered := fun _ => Or.inl rfl
          unwritten := fun _ => rfl
          written := nofun
          found := by
            rintro _ _ ⟨⟩ _
            exact ⟨row, quote, hpresent, hread, rfl⟩
          notFound := fun hthree => by cases hthree }

theorem helpText_ne_nil : helpText ≠ [] := by
  unfold helpText
  rw [String.toList_append]
  -- its last line is enough
  exact List.append_ne_nil_of_right_ne_nil _ (by decide)

theorem StatusTells.help (fate : ℕ → Fate) (database : Database) :
    StatusTells platform refusalText fate (.ok .help) database ⟨0, helpText, [], database⟩ where
  status := Or.inl rfl
  streams := by
    dsimp only
    rw [if_pos (Or.inl rfl)]
    exact ⟨rfl, helpText_ne_nil⟩
  untouched := fun _ _ => rfl
  unanswered := fun _ => Or.inl rfl
  unwritten := fun _ => rfl
  written := nofun
  found := nofun
  notFound := fun hthree => by cases hthree

theorem requestOf_help {args : List Str} (h : asksHelp args = true) (now : Timestamp) :
    requestOf now args = .ok .help := by
  cases args with
  | nil => rfl
  | cons command rest =>
      unfold requestOf
      exact if_pos h

/-- The `try` block after the connection is there. -/
theorem processResult_request (queryFate : Fate) (now : Timestamp) (args : List Str)
    (session : DbSession) (hconnected : session.connected = true) (hs : session.status = .idle) :
    StatusTells platform refusalText session.fate (requestOf now args) session.committed
      (processResult (runPostgres (postgresRepository platform refusalText queryFate)
        (fun s => (now, s)) args { outside := session })) := by
  rw [processResult_run, runArguments_request]
  cases hrequest : requestOf now args with
  | error e => exact StatusTells.failure _ _ _ e
  | ok request =>
      cases request with
      | help =>
          show StatusTells _ _ _ _ _ ⟨0, [] ++ helpText, [], session.committed⟩
          rw [List.nil_append]
          exact StatusTells.help session.fate session.committed
      | write call => exact StatusTells.write queryFate call hs
      | latestQuote symbol source =>
          exact StatusTells.latestQuote queryFate symbol source hconnected hs

end Tells

/-- **The exit status tells what became of the database**, for every command
line, environment, connection and fate of every statement. -/
theorem runPostgresCli_tells (platform : Platform) (refusalText : RefusalText)
    (invocation : Invocation) (database : Database) :
    StatusTells platform refusalText invocation.link.fate
      (requestOf invocation.now invocation.args) database
      (runPostgresCli platform refusalText invocation database) := by
  unfold runPostgresCli
  by_cases hhelp : asksHelp invocation.args = true
  · rw [if_pos hhelp, requestOf_help hhelp]
    exact StatusTells.help _ database
  · rw [if_neg hhelp]
    dsimp only
    cases hconfig : ConnectionConfig.fromEnvironment invocation.environment with
    | error e => exact StatusTells.failure _ _ _ e
    | ok config =>
        rcases invocation.link.openRepository_cases config database with
          hopened | ⟨message, sqlState, hfailed⟩
        · show StatusTells _ _ _ _ _ (match invocation.link.openRepository config database with
            | .error e => _
            | .ok session => _)
          rw [hopened]
          exact processResult_request _ _ _ (connectTo database invocation.link.fate) rfl rfl
        · show StatusTells _ _ _ _ _ (match invocation.link.openRepository config database with
            | .error e => _
            | .ok session => _)
          rw [hfailed]
          exact StatusTells.failure _ _ _ _

/-! ## §4. One invocation after the other. -/

section Invocations

variable (platform : Platform) (refusalText : RefusalText)

/-- The database after some invocations, each with a connection of its own. -/
def runInvocations : List Invocation → Database → Database
  | [], database => database
  | invocation :: rest, database =>
      runInvocations rest (runPostgresCli platform refusalText invocation database).database

/-- The invocations that exit with 0, each on the database that it meets. -/
def succeeded : List Invocation → Database → List Invocation
  | [], _ => []
  | invocation :: rest, database =>
      (if (runPostgresCli platform refusalText invocation database).status = 0 then [invocation]
        else [])
        ++ succeeded rest (runPostgresCli platform refusalText invocation database).database

/-- The quotes of the invocations that exit with 0. -/
def storedQuotes : List Invocation → Database → List Domain.Quote
  | [], _ => []
  | invocation :: rest, database =>
      (match requestOf invocation.now invocation.args,
          (runPostgresCli platform refusalText invocation database).status with
        | .ok (.write (.batch (.insertQuotes quotes))), 0 => quotes
        | _, _ => [])
        ++ storedQuotes rest (runPostgresCli platform refusalText invocation database).database

theorem storedQuotes_cons (invocation : Invocation) (rest : List Invocation)
    (database : Database) :
    storedQuotes platform refusalText (invocation :: rest) database
      = storedQuotes platform refusalText [invocation] database
        ++ storedQuotes platform refusalText rest
          (runPostgresCli platform refusalText invocation database).database := by
  simp only [storedQuotes, List.append_nil]

theorem runInvocations_concat (invocations : List Invocation) (invocation : Invocation) :
    ∀ database, runInvocations platform refusalText (invocations ++ [invocation]) database
      = (runPostgresCli platform refusalText invocation
          (runInvocations platform refusalText invocations database)).database := by
  induction invocations with
  | nil => exact fun database => rfl
  | cons first rest ih => exact fun database => ih _

/-- **An invocation that fails might as well not have been made**, if no executed
statement has remained without an answer. -/
theorem runInvocations_succeeded (invocations : List Invocation)
    (hanswers : ∀ invocation ∈ invocations, AllAnswered invocation.link.fate) :
    ∀ database, runInvocations platform refusalText
        (succeeded platform refusalText invocations database) database
      = runInvocations platform refusalText invocations database := by
  induction invocations with
  | nil => exact fun database => rfl
  | cons invocation rest ih =>
      intro database
      obtain ⟨hfirst, hrest⟩ := List.forall_mem_cons.mp hanswers
      have htells := runPostgresCli_tells platform refusalText invocation database
      unfold succeeded
      by_cases hzero : (runPostgresCli platform refusalText invocation database).status = 0
      · rw [if_pos hzero]
        exact ih hrest _
      · rw [if_neg hzero, List.nil_append]
        show _ = runInvocations platform refusalText rest _
        rw [htells.untouched hzero hfirst]
        exact ih hrest database

/-- **Every invocation keeps the integrity of the database**, its facts and its
keys. -/
theorem runInvocations_grown {start : Database} (invocations : List Invocation) :
    ∀ {database : Database}, Grown start database →
      Grown start (runInvocations platform refusalText invocations database) := by
  induction invocations with
  | nil => exact fun h => h
  | cons invocation rest ih =>
      intro database hgrown
      refine ih ?_
      have htells := runPostgresCli_tells platform refusalText invocation database
      have hexecute : ∀ {statements n},
          execAll (schemaServer platform refusalText) statements database
          = .ok ((runPostgresCli platform refusalText invocation database).database, n) →
          Grown start (runPostgresCli platform refusalText invocation database).database := by
        intro statements n hexecuted
        have hpreserves : Action.Preserves (Grown start) database
            (runPostgresCli platform refusalText invocation database).database :=
          execAll_within (R := Action.Preserves (Grown start))
            (fun q _ data data' n hexec => exec_grown hexec) hexecuted
        exact hpreserves hgrown
      by_cases hzero : (runPostgresCli platform refusalText invocation database).status = 0
      · by_cases hwrite : ∃ call, requestOf invocation.now invocation.args = .ok (.write call)
        · obtain ⟨call, hcall⟩ := hwrite
          obtain ⟨statements, n, _, hexecuted, _⟩ := htells.written call hcall hzero
          exact hexecute hexecuted
        · rw [htells.unwritten (fun call hcall => hwrite ⟨call, hcall⟩)]
          exact hgrown
      · rcases htells.unanswered hzero with hsame | ⟨_, statements, n, _, _, hexecuted⟩
        · rw [hsame]
          exact hgrown
        · exact hexecute hexecuted

end Invocations

/-! ## §5. The newest quote. -/

section Newest

variable {platform : Platform} {refusalText : RefusalText}

/-- What the schema makes of a batch that it takes, the plain server makes of
its rows. -/
theorem plain_batch {R : Type} {kind : BatchKind R} (hkind : SendsPlain platform kind)
    {records : List R} {statements : List WriteStatement}
    (hsends : SendsBatch platform kind records statements) {database database' : Database} {n : ℕ}
    (hexecuted : execAll (schemaServer platform refusalText) statements database
      = .ok (database', n)) :
    ∃ t, insertBatch platform kind records (openSession (facts database) (fun _ => .sent))
        = (.ok { attempted := records.length, inserted := n }, t)
      ∧ t.committed = facts database' := by
  obtain ⟨hvalid, queries, hqueries, rfl⟩ := hsends
  have hsame : List.Forall₂ (SameInsert platform) (queries.map .insert) queries := by
    rw [List.forall₂_map_left_iff, List.forall₂_same]
    intro q hq
    obtain ⟨record, hrecord, hprepared⟩ := forall₂_mem_right hqueries hq
    exact ⟨rfl, hkind record q (hvalid record hrecord) hprepared⟩
  have hplain := (schema_relaxes platform refusalText).execAll hsame hexecuted
  have hfaultless : Session.Faultless (openSession (facts database) (fun _ => .sent)) :=
    ⟨rfl, fun _ _ => rfl⟩
  have hbatch := insertBatchInto_sent (pgServer platform) id hfaultless rfl hvalid hqueries
  rw [List.map_id, show (openSession (facts database) (fun _ => .sent)).committed
    = facts database from rfl, hplain] at hbatch
  obtain ⟨t, hrun, hsteady⟩ := hbatch
  rw [insertBatchInto_pgServer] at hrun
  exact ⟨t, hrun, hsteady.committed⟩

/-- A batch call, on the plain server. -/
theorem plain_call {call : BatchCall} {statements : List WriteStatement}
    (hsends : (WriteCall.batch call).Sends platform statements) {database database' : Database}
    {n : ℕ} (hexecuted : execAll (schemaServer platform refusalText) statements database
      = .ok (database', n)) :
    ∃ summary t, call.perform platform (openSession (facts database) (fun _ => .sent))
        = (.ok summary, t)
      ∧ t.committed = facts database' := by
  cases call with
  | insertQuotes quotes => exact ⟨_, plain_batch (quotes_plain platform) hsends hexecuted⟩
  | insertTicks ticks => exact ⟨_, plain_batch (ticks_plain platform) hsends hexecuted⟩
  | insertOrderBookSnapshots snapshots =>
      exact ⟨_, plain_batch (snapshots_plain platform) hsends hexecuted⟩
  | insertTechnicalIndicators indicators =>
      exact ⟨_, plain_batch (indicators_plain platform) hsends hexecuted⟩

/-- An upsert leaves the quotes alone. -/
theorem upsert_quotes {t : Relation} {set : fincoreSchema.Assignment t}
    {text : Catalog.Refusal → Str × Str} {sent : Option (Record t.Column)}
    {database database' : Database} {n : ℕ} (ht : TableName.quotes.relation ≠ t)
    (h : insertSent (.doUpdate set) text sent database = .ok (database', n)) :
    facts database' .quotes = facts database .quotes := by
  obtain ⟨record, _, hinsert⟩ := insertSent_ok h
  unfold facts
  rw [Catalog.insert_other hinsert ht]

/-- An invocation leaves the quotes table with the quotes it stores on top. -/
theorem runPostgresCli_table (h : Gregorian platform) (invocation : Invocation)
    (hanswers : AllAnswered invocation.link.fate) (database : Database)
    (hfits : ∀ quote ∈ storedQuotes platform refusalText [invocation] database,
      SecondFits quote.timestamp) :
    facts (runPostgresCli platform refusalText invocation database).database .quotes
      = facts database .quotes ++ gained (rowKey quoteBatch) (facts database .quotes)
        ((storedQuotes platform refusalText [invocation] database).map storedRow) := by
  have htells := runPostgresCli_tells platform refusalText invocation database
  have hnothing : facts (runPostgresCli platform refusalText invocation database).database .quotes
        = facts database .quotes →
      storedQuotes platform refusalText [invocation] database = [] →
      facts (runPostgresCli platform refusalText invocation database).database .quotes
        = facts database .quotes ++ gained (rowKey quoteBatch) (facts database .quotes)
          ((storedQuotes platform refusalText [invocation] database).map storedRow) := by
    intro hsame hnone
    rw [hsame, hnone]
    exact (List.append_nil _).symm
  by_cases hzero : (runPostgresCli platform refusalText invocation database).status = 0
  · rcases hrequest : requestOf invocation.now invocation.args with e | request
    · refine hnothing ?_ (by simp only [storedQuotes, hrequest, List.append_nil])
      rw [htells.unwritten (fun call hcall => by rw [hrequest] at hcall; cases hcall)]
    · cases request with
      | help | latestQuote _ _ =>
          refine hnothing ?_ (by simp only [storedQuotes, hrequest, List.append_nil])
          rw [htells.unwritten (fun call hcall => by rw [hrequest] at hcall; cases hcall)]
      | write call =>
          obtain ⟨statements, n, hsends, hexecuted, _⟩ := htells.written call hrequest hzero
          cases call with
          | upsertInstrument instrument =>
              refine hnothing ?_ (by simp only [storedQuotes, hrequest, List.append_nil])
              obtain ⟨_, rfl⟩ := hsends
              obtain ⟨d, m, k, hexec, hrest, _⟩ := execAll_cons_ok hexecuted
              cases hrest
              exact upsert_quotes (by decide) hexec
          | upsertDataSource source =>
              refine hnothing ?_ (by simp only [storedQuotes, hrequest, List.append_nil])
              obtain ⟨_, rfl⟩ := hsends
              obtain ⟨d, m, k, hexec, hrest, _⟩ := execAll_cons_ok hexecuted
              cases hrest
              exact upsert_quotes (by decide) hexec
          | batch call =>
              obtain ⟨summary, t, hrun, hcommitted⟩ := plain_call hsends hexecuted
              have hstored : storedQuotes platform refusalText [invocation] database
                  = committedQuotes platform [call]
                    (openSession (facts database) (fun _ => .sent)) := by
                simp only [storedQuotes, hrequest, hzero, committedQuotes, hrun, List.append_nil]
                cases call <;> rfl
              rw [hstored] at hfits ⊢
              have hanswered : Session.Answered
                  (call.perform platform (openSession (facts database) (fun _ => .sent))).2 :=
                Session.AllAnswered.answered (s := openSession (facts database) (fun _ => .sent))
                  allAnswered_sent (call.perform_fate platform _)
              have htable := perform_table h call
                (s := openSession (facts database) (fun _ => .sent)) rfl hanswered hfits
              rw [hrun, hcommitted] at htable
              exact htable
  · refine hnothing ?_ ?_
    · rw [htells.untouched hzero hanswers]
    · simp only [storedQuotes, List.append_nil]
      split
      next hstatus => exact absurd hstatus hzero
      next => rfl

/-- **After any run the quotes table holds the first stored quote of every
key.** -/
theorem runInvocations_table (h : Gregorian platform) (invocations : List Invocation)
    (hanswers : ∀ invocation ∈ invocations, AllAnswered invocation.link.fate) :
    ∀ (database : Database) (earlier : List Domain.Quote),
      (∀ quote ∈ storedQuotes platform refusalText invocations database,
        SecondFits quote.timestamp) →
      facts database .quotes = gained (rowKey quoteBatch) [] (earlier.map storedRow) →
      facts (runInvocations platform refusalText invocations database) .quotes
        = gained (rowKey quoteBatch) []
          ((earlier ++ storedQuotes platform refusalText invocations database).map storedRow) := by
  induction invocations with
  | nil =>
      intro database earlier _ htable
      show facts database .quotes = gained _ [] ((earlier ++ []).map storedRow)
      rw [List.append_nil]
      exact htable
  | cons invocation rest ih =>
      intro database earlier hfits htable
      obtain ⟨hfirst, hrest⟩ := List.forall_mem_cons.mp hanswers
      rw [storedQuotes_cons] at hfits ⊢
      have hstep := runPostgresCli_table h invocation hfirst database
        (fun quote hmem => hfits quote (List.mem_append_left _ hmem))
      rw [htable, gained_gained, ← List.map_append] at hstep
      rw [← List.append_assoc]
      exact ih hrest _ _ (fun quote hmem => hfits quote (List.mem_append_right _ hmem)) hstep

/-- The row of a quote whose second fits reads back as the quote. -/
theorem quoteOfResult_stored {quote : Domain.Quote} (h : SecondFits quote.timestamp) :
    quoteOfResult ((storedRow quote).map Datum.resultText)
      = .ok { quote with timestamp := ofMicros (floorMicros quote.timestamp) } := by
  obtain ⟨hinstant, hback⟩ := ofMicros_floor h
  unfold storedRow
  rw [← hinstant, quoteOfResult_row, hback, hinstant]

/-- What the query selects is the newest quote, and reads back. -/
theorem selected_newest {stored : List Domain.Quote} {database : Database}
    (hfits : ∀ quote ∈ stored, SecondFits quote.timestamp)
    (htable : facts database .quotes = gained (rowKey quoteBatch) [] (stored.map storedRow))
    {symbol source : Str} (hsymbol : Char.ofNat 0 ∉ symbol) (hsource : Char.ofNat 0 ∉ source) :
    (selected symbol source database = none ∧ quotesOf symbol source stored = [])
    ∨ ∃ row quote, selected symbol source database = some row ∧ quoteOfResult row = .ok quote
      ∧ IsLatest symbol source stored (some quote) := by
  unfold selected
  rw [cStr_eq_self hsymbol, cStr_eq_self hsource, selectLatest_stored symbol source htable]
  rcases newest_spec (fun quote : Domain.Quote => floorMicros quote.timestamp)
    (quotesOf symbol source stored) with ⟨hnone, hnil⟩ | ⟨quote, hfound, hnewest⟩
  · rw [hnone]
    exact Or.inl ⟨rfl, hnil⟩
  · have hmem : quote ∈ quotesOf symbol source stored := by
      obtain ⟨before, after, hsplit, _⟩ := hnewest
      rw [hsplit]
      exact List.mem_append_right _ List.mem_cons_self
    rw [hfound]
    exact Or.inr ⟨_, _, rfl, quoteOfResult_stored (hfits quote (List.mem_filter.mp hmem).1),
      .found quote hnewest⟩

theorem reads_back {stored : List Domain.Quote} {database : Database} {symbol source : Str}
    (h : (selected symbol source database = none ∧ quotesOf symbol source stored = [])
      ∨ ∃ row quote, selected symbol source database = some row ∧ quoteOfResult row = .ok quote
        ∧ IsLatest symbol source stored (some quote)) :
    ∀ row, selected symbol source database = some row → ∃ quote, quoteOfResult row = .ok quote := by
  intro row hrow
  rcases h with ⟨hnone, _⟩ | ⟨row', quote, hrow', hquote, _⟩
  · rw [hnone] at hrow
    cases hrow
  · rw [hrow'] at hrow
    cases hrow
    exact ⟨quote, hquote⟩

/-- The process gets a connection, and its query through. -/
def Invocation.Reaches (invocation : Invocation) : Prop :=
  (∃ config, ConnectionConfig.fromEnvironment invocation.environment = .ok config
    ∧ ∀ database, invocation.link.openRepository config database
      = .ok (connectTo database invocation.link.fate))
  ∧ invocation.link.queryFate = .sent

/-- A query that gets through exits with 0 or 3. -/
theorem latestQuote_reaches {invocation : Invocation} (hreaches : invocation.Reaches)
    {symbol source : Str}
    (hrequest : requestOf invocation.now invocation.args = .ok (.latestQuote symbol source))
    {database : Database} (hread : ∀ row, selected symbol source database = some row →
      ∃ quote, quoteOfResult row = .ok quote) :
    (runPostgresCli platform refusalText invocation database).status = 0
      ∨ (runPostgresCli platform refusalText invocation database).status = 3 := by
  obtain ⟨⟨config, hconfig, hopened⟩, hsent⟩ := hreaches
  have hhelp : ¬ asksHelp invocation.args = true := by
    intro hhelp
    rw [requestOf_help hhelp] at hrequest
    cases hrequest
  have hresult : runPostgresCli platform refusalText invocation database
      = processResult ((Request.latestQuote symbol source).perform
        (postgresRepository platform refusalText .sent)
        { outside := connectTo database invocation.link.fate }) := by
    unfold runPostgresCli
    rw [if_neg hhelp, hconfig]
    show (match invocation.link.openRepository config database with
      | .error e => _
      | .ok session => _) = _
    rw [hopened, hsent]
    dsimp only
    rw [processResult_run, runArguments_request, hrequest]
    rfl
  rw [hresult, latestQuote_perform, latestQuoteOn_sent platform refusalText symbol source rfl rfl]
  cases hselected : selected symbol source (connectTo database invocation.link.fate).committed with
  | none => exact Or.inr rfl
  | some row =>
      obtain ⟨quote, hquote⟩ := hread row hselected
      dsimp only
      rw [hquote]
      exact Or.inl rfl

/-- **`latest-quote` prints the newest quote that was stored.**  After any
invocations on a database without quotes, whatever became of them, except that
no executed statement has remained without an answer, the process
exits with 0 and prints the first stored quote of the newest microsecond of its
symbol and source, or exits with 3 if none was stored; and it does neither only
if its query does not get through. -/
theorem latestQuote_prints_newest (h : Gregorian platform) (refusalText : RefusalText)
    (database : Database) (hempty : facts database .quotes = []) (invocations : List Invocation)
    (hanswers : ∀ invocation ∈ invocations, AllAnswered invocation.link.fate)
    (hfits : ∀ quote ∈ storedQuotes platform refusalText invocations database,
      SecondFits quote.timestamp)
    (asking : Invocation) {symbol source : Str}
    (hargs : asking.args = ["latest-quote".toList, symbol, source])
    (hsymbol : Char.ofNat 0 ∉ toUpper symbol) (hsource : Char.ofNat 0 ∉ toUpper source) :
    let stored := storedQuotes platform refusalText invocations database
    let result := runPostgresCli platform refusalText asking
      (runInvocations platform refusalText invocations database)
    (result.status = 0 ∧ ∃ quote,
        IsLatest (toUpper symbol) (toUpper source) stored (some quote)
        ∧ result.out = latestQuoteText quote)
    ∨ (result.status = 3 ∧ quotesOf (toUpper symbol) (toUpper source) stored = []
        ∧ result.out = "not found\n".toList)
    ∨ ((result.status = 1 ∨ result.status = 2) ∧ ¬ asking.Reaches) := by
  intro stored result
  have hrequest : requestOf asking.now asking.args
      = .ok (.latestQuote (toUpper symbol) (toUpper source)) := by
    rw [hargs]
    rfl
  have htells : StatusTells platform refusalText asking.link.fate
      (requestOf asking.now asking.args)
      (runInvocations platform refusalText invocations database) result :=
    runPostgresCli_tells platform refusalText asking _
  have htable := runInvocations_table h invocations hanswers database [] hfits hempty
  rw [List.nil_append] at htable
  have hselected := selected_newest hfits htable hsymbol hsource
  have hreached : asking.Reaches → result.status = 0 ∨ result.status = 3 :=
    fun hreaches => latestQuote_reaches hreaches hrequest (reads_back hselected)
  rcases htells.status with hzero | hone | htwo | hthree
  · left
    obtain ⟨row, quote, hrow, hquote, hout⟩ := htells.found _ _ hrequest hzero
    rcases hselected with ⟨hnone, _⟩ | ⟨row', quote', hrow', hquote', hlatest⟩
    · rw [hnone] at hrow
      cases hrow
    · have hsame : row' = row := Option.some.inj (hrow'.symm.trans hrow)
      rw [hsame] at hquote'
      have hsame : quote' = quote := Except.ok.inj (hquote'.symm.trans hquote)
      rw [hsame] at hlatest
      exact ⟨hzero, quote, hlatest, hout⟩
  · exact Or.inr (Or.inr ⟨Or.inl hone, fun hreaches => by have := hreached hreaches; omega⟩)
  · exact Or.inr (Or.inr ⟨Or.inr htwo, fun hreaches => by have := hreached hreaches; omega⟩)
  · right; left
    obtain ⟨symbol', source', hsame, hnone, hout⟩ := htells.notFound hthree
    obtain ⟨rfl, rfl⟩ := Request.latestQuote.inj (Except.ok.inj (hrequest.symm.trans hsame))
    rcases hselected with ⟨_, hnil⟩ | ⟨row', _, hrow', _⟩
    · exact ⟨hthree, hnil, hout⟩
    · rw [hnone] at hrow'
      cases hrow'

end Newest

/-- **The exit status tells what became of the database**, wherever in a run of
invocations and whatever fails.  Unless it is 0 the database is as it was, or
holds the record whose answer was lost; if it is 0 and the command writes, the
server has executed exactly the statements of its record, and the line that is
printed counts the rows they affected.  Where every executed statement is
answered, the invocations that failed might as well not have been made; and none
of them breaks the integrity of the database. -/
theorem exit_status_tells (platform : Platform) (refusalText : RefusalText) {database : Database}
    (hintegrity : Catalog.Integrity fincoreSchema database) (before : List Invocation)
    (invocation : Invocation) :
    let reached := runInvocations platform refusalText before database
    let result := runPostgresCli platform refusalText invocation reached
    StatusTells platform refusalText invocation.link.fate
        (requestOf invocation.now invocation.args) reached result
    ∧ ((∀ earlier ∈ before, AllAnswered earlier.link.fate) →
      runInvocations platform refusalText (succeeded platform refusalText before database) database
        = reached)
    ∧ Grown database result.database := by
  intro reached result
  refine ⟨runPostgresCli_tells platform refusalText invocation reached,
    fun hanswers => runInvocations_succeeded platform refusalText before hanswers database, ?_⟩
  have hgrown := runInvocations_grown platform refusalText (before ++ [invocation])
    (Grown.refl hintegrity)
  rwa [runInvocations_concat] at hgrown

/-! ## §6. Sample invocations. -/

/-- A server that is there, and takes everything. -/
def openLink : Link where
  opening _ := .opened
  setup _ := none
  fate _ := .sent
  queryFate := .sent

/-- The words of a command line at noon, on the open link. -/
def invoked (link : Link) (args : List String) : Invocation where
  args := args.map String.toList
  environment _ := none
  now := 1700000000000000000
  link := link

/-- A quote is refused until its source and its instrument are there. -/
def sampleInvocations : List Invocation :=
  [invoked openLink ["quote", "ibm", "feed", "2024-01-02T03:04:05Z", "1", "1", "2", "1", "10", "-"],
    invoked openLink ["source", "feed", "Feed", "-", "true"],
    invoked openLink ["instrument", "ibm", "IBM", "equity", "NYSE", "2", "yes"],
    invoked openLink
      ["quote", "ibm", "feed", "2024-01-02T03:04:05Z", "1.5", "1", "2", "1", "10", "-"],
    invoked { openLink with opening := fun _ => .failed "refused".toList }
      ["quote", "ibm", "feed", "now", "3", "1", "2", "1", "10", "-"]]

theorem sampleInvocations_answers :
    ∀ invocation ∈ sampleInvocations, AllAnswered invocation.link.fate := by
  simp [sampleInvocations, invoked, openLink, AllAnswered]

/-- Of five invocations three exit with 0. -/
theorem exit_status_tells_sampleInvocations :
    Grown (fun _ => [])
        (runInvocations gregorianPlatform silentText sampleInvocations (fun _ => []))
      ∧ (succeeded gregorianPlatform silentText sampleInvocations (fun _ => [])).length = 3 :=
  ⟨(exit_status_tells gregorianPlatform silentText (Catalog.Integrity.empty _)
    (sampleInvocations.take 4)
    (invoked { openLink with opening := fun _ => .failed "refused".toList }
      ["quote", "ibm", "feed", "now", "3", "1", "2", "1", "10", "-"])).2.2, by decide +kernel⟩

theorem latestQuote_prints_newest_sampleInvocations :
    ∃ quote, IsLatest "IBM".toList "FEED".toList
        (storedQuotes gregorianPlatform silentText sampleInvocations (fun _ => [])) (some quote)
      ∧ (runPostgresCli gregorianPlatform silentText
          (invoked openLink ["latest-quote", "Ibm", "feed"])
          (runInvocations gregorianPlatform silentText sampleInvocations (fun _ => []))).out
        = latestQuoteText quote := by
  have hfits : ∀ quote ∈ storedQuotes gregorianPlatform silentText sampleInvocations (fun _ => []),
      SecondFits quote.timestamp := by
    unfold SecondFits
    decide +kernel
  have hasks := latestQuote_prints_newest gregorianPlatform_gregorian silentText (fun _ => []) rfl
    sampleInvocations sampleInvocations_answers hfits
    (invoked openLink ["latest-quote", "Ibm", "feed"]) rfl (by decide) (by decide)
  rcases hasks with ⟨_, quote, hlatest, hout⟩ | ⟨_, hnone, _⟩ | ⟨_, hno⟩
  · exact ⟨quote, hlatest, hout⟩
  · exact absurd hnone (by decide +kernel)
  · exact absurd ⟨⟨_, rfl, fun _ => rfl⟩, rfl⟩ hno

end FinCore.Cli

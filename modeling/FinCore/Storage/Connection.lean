/-
  FinCore.Storage.Connection
  ──────────────────────────
  How the repository gets its connection: the configuration from the
  environment, the constructor of `PgConnection` and the statements that the
  repository prepares.

  An environment that does not parse is an `std::invalid_argument`; everything
  behind it fails with a `DatabaseError`, and nothing of it reaches the tables.
-/
import FinCore.Storage.PlainDatabase

namespace FinCore.Storage

open FinCore.Cxx FinCore.Sql

/-! ## §1. The configuration. -/

/-- `std::getenv`. -/
abbrev Environment := Str → Option Str

/-- `environment_or`. -/
def environmentOr (environment : Environment) (name fallback : Str) : Str :=
  (environment name).getD fallback

/-- `std::from_chars(first, last, value)` for an `int`, with what is left. -/
def fromCharsInt (s : Str) : Option (ℤ × Str) :=
  match fromCharsInt64 s with
  | none => none
  | some (value, rest) =>
      if -2 ^ 31 ≤ value.toInt ∧ value.toInt < 2 ^ 31 then some (value.toInt, rest) else none

/-- `environment_int_or`. -/
def environmentIntOr (environment : Environment) (name : Str) (fallback : ℤ) : Except Exn ℤ :=
  let text := environmentOr environment name []
  if text = [] then .ok fallback
  else
    match fromCharsInt text with
    | some (value, []) => if value ≤ 0 then invalid else .ok value
    | _ => invalid
where
  invalid : Except Exn ℤ :=
    .error (.invalidArgument
      ("invalid positive integer in environment variable ".toList ++ name))

structure ConnectionConfig where
  host : Str := "127.0.0.1".toList
  port : Str := "6379".toList
  database : Str := "mydb".toList
  user : Str := "StaticGhost".toList
  password : Str := "myStrongPasswd123".toList
  applicationName : Str := "fincore-cpp".toList
  connectTimeoutSeconds : ℤ := 5

/-- `ConnectionConfig::from_environment`. -/
def ConnectionConfig.fromEnvironment (environment : Environment) : Except Exn ConnectionConfig := do
  let config : ConnectionConfig := {}
  let timeout ← environmentIntOr environment "FINCORE_DB_CONNECT_TIMEOUT".toList
    config.connectTimeoutSeconds
  return { host := environmentOr environment "FINCORE_DB_HOST".toList config.host
           port := environmentOr environment "FINCORE_DB_PORT".toList config.port
           database := environmentOr environment "FINCORE_DB_NAME".toList config.database
           user := environmentOr environment "FINCORE_DB_USER".toList config.user
           password := environmentOr environment "FINCORE_DB_PASSWORD".toList config.password
           applicationName :=
             environmentOr environment "FINCORE_DB_APPLICATION_NAME".toList config.applicationName
           connectTimeoutSeconds := timeout }

/-! ## §2. The connection. -/

/-- What `PQconnectdbParams` returns. -/
inductive Opening where
  /-- No memory for a connection. -/
  | null
  /-- A connection that is not `CONNECTION_OK`, and its message. -/
  | failed (message : Str)
  | opened

/-- What a process meets on its way to the server. -/
structure Link where
  opening : ConnectionConfig → Opening
  /-- The message and the SQLSTATE of a statement of the setup that fails. -/
  setup : Str → Option (Str × Str)
  /-- What becomes of the statements that write. -/
  fate : ℕ → Fate
  /-- What becomes of a query. -/
  queryFate : Fate

namespace Link

variable (link : Link)

/-- Execute or prepare a statement of the setup. -/
def prepare (statement : Str) : Except Exn Unit :=
  match link.setup statement with
  | some (message, sqlState) => .error (.databaseError message sqlState)
  | none => .ok ()

/-- The constructor of `PgConnection`. -/
def connect (config : ConnectionConfig) : Except Exn Unit :=
  match link.opening config with
  | .null => .error (.databaseError "libpq could not allocate a PostgreSQL connection".toList [])
  | .failed message => .error (.databaseError message [])
  | .opened => link.prepare "SET TIME ZONE 'UTC'".toList

/-- The names that `prepare_statements` prepares, in order. -/
def preparedNames : List Str :=
  ["fincore_upsert_instrument".toList, "fincore_upsert_data_source".toList,
    fincoreInsertQuote.name, fincoreInsertTick.name, fincoreInsertSnapshot.name,
    fincoreInsertIndicator.name, "fincore_latest_quote".toList]

/-- `prepare_statements`. -/
def prepareStatements : List Str → Except Exn Unit
  | [] => .ok ()
  | name :: rest => do
      link.prepare name
      prepareStatements rest

/-- The constructor of `PostgresMarketDataRepository`. -/
def openRepository (config : ConnectionConfig) (database : Database) : Except Exn DbSession := do
  link.connect config
  link.prepareStatements preparedNames
  return connectTo database link.fate

theorem prepareStatements_error {names : List Str} {e : Exn}
    (h : link.prepareStatements names = .error e) :
    ∃ message sqlState, e = .databaseError message sqlState := by
  induction names with
  | nil => cases h
  | cons name rest ih =>
      unfold prepareStatements at h
      unfold prepare at h
      split at h
      · cases h
        exact ⟨_, _, rfl⟩
      · exact ih h

/-- The constructor hands over a fresh session or throws a `DatabaseError`. -/
theorem openRepository_cases (config : ConnectionConfig) (database : Database) :
    link.openRepository config database = .ok (connectTo database link.fate)
    ∨ ∃ message sqlState,
      link.openRepository config database = .error (.databaseError message sqlState) := by
  unfold openRepository
  cases hconnect : link.connect config with
  | error e =>
      right
      unfold connect at hconnect
      split at hconnect
      · cases hconnect
        exact ⟨_, _, rfl⟩
      · cases hconnect
        exact ⟨_, _, rfl⟩
      · unfold prepare at hconnect
        split at hconnect
        · cases hconnect
          exact ⟨_, _, rfl⟩
        · cases hconnect
  | ok u =>
      cases hprepare : link.prepareStatements preparedNames with
      | ok u => exact Or.inl rfl
      | error e =>
          obtain ⟨message, sqlState, rfl⟩ := link.prepareStatements_error hprepare
          exact Or.inr ⟨message, sqlState, rfl⟩

end Link

/-! ## §3. One call on an idle connection. -/

/-- The statements by which a batch of one kind is written. -/
def SendsBatch {R : Type} (platform : Platform) (kind : BatchKind R) (records : List R)
    (statements : List WriteStatement) : Prop :=
  (∀ r ∈ records, kind.validate r = .ok ())
    ∧ ∃ queries, Prepares platform kind records queries ∧ statements = queries.map .insert

namespace WriteCall

/-- The statements by which a call writes. -/
def Sends (platform : Platform) : WriteCall → List WriteStatement → Prop
  | upsertInstrument instrument, statements =>
      instrument.validate = .ok ()
        ∧ statements = [.upsertInstrument (instrumentParameters instrument)]
  | upsertDataSource source, statements =>
      source.validate = .ok () ∧ statements = [.upsertDataSource (dataSourceParameters source)]
  | batch (.insertQuotes quotes), statements => SendsBatch platform quoteBatch quotes statements
  | batch (.insertTicks ticks), statements => SendsBatch platform tickBatch ticks statements
  | batch (.insertOrderBookSnapshots snapshots), statements =>
      SendsBatch platform snapshotBatch snapshots statements
  | batch (.insertTechnicalIndicators indicators), statements =>
      SendsBatch platform indicatorBatch indicators statements

/-- What a call returns when its statements have affected `n` rows. -/
def summary : WriteCall → ℕ → Option InsertSummary
  | upsertInstrument _, _ => none
  | upsertDataSource _, _ => none
  | batch (.insertQuotes quotes), n => some ⟨quotes.length, n⟩
  | batch (.insertTicks ticks), n => some ⟨ticks.length, n⟩
  | batch (.insertOrderBookSnapshots snapshots), n => some ⟨snapshots.length, n⟩
  | batch (.insertTechnicalIndicators indicators), n => some ⟨indicators.length, n⟩

variable (platform : Platform) (refusalText : RefusalText)

/-- What a call on an idle session does: it throws and leaves the data alone, or
the server has taken all its statements, and it throws only if the answer was
lost. -/
inductive Returned (call : WriteCall) (s : DbSession) :
    Except Exn (Option InsertSummary) × DbSession → Prop where
  | thrown (e : Exn) (t : DbSession) (same : t.committed = s.committed) :
      Returned call s (.error e, t)
  | unanswered (e : Exn) (statements : List WriteStatement) (n : ℕ) (t : DbSession)
      (sent : call.Sends platform statements)
      (executed : execAll (schemaServer platform refusalText) statements s.committed
        = .ok (t.committed, n)) (lost : ¬ Session.Answered t) : Returned call s (.error e, t)
  | done (statements : List WriteStatement) (n : ℕ) (t : DbSession)
      (sent : call.Sends platform statements)
      (executed : execAll (schemaServer platform refusalText) statements s.committed
        = .ok (t.committed, n)) : Returned call s (.ok (call.summary n), t)

/-- An upsert is one statement behind a check. -/
theorem upsert_returned (call : WriteCall) (valid : Except Exn Unit) (statement : WriteStatement)
    (hsends : valid = .ok () → call.Sends platform [statement])
    (hsummary : ∀ n, call.summary n = none)
    (hcall : call.perform platform refusalText = (do
      (do
        Action.ofExcept valid
        let _ ← Session.issue (schemaServer platform refusalText) (.query statement)
        return ())
      return none)) {s : DbSession} (hs : s.status = .idle) :
    Returned platform refusalText call s (call.perform platform refusalText s) := by
  have hall : ∀ {database : Database} {n : ℕ},
      (schemaServer platform refusalText).exec statement s.committed = .ok (database, n) →
      execAll (schemaServer platform refusalText) [statement] s.committed = .ok (database, n) := by
    intro database n hexec
    rw [execAll, hexec]
    rfl
  rw [hcall]
  cases hvalid : valid with
  | error e => exact .thrown e s rfl
  | ok u =>
      rcases Session.query_autocommit (schemaServer platform refusalText) statement hs with
        ⟨n, t, hrun, hexec, _⟩ | ⟨e, t, hrun, hsame, _⟩ | ⟨e, n, t, hrun, hexec, _, _, hlost⟩
      · simp only [Action.bind_run, Action.ofExcept_run, hrun, Action.pure_run]
        rw [← hsummary n]
        exact .done [statement] n t (hsends hvalid) (hall hexec)
      · simp only [Action.bind_run, Action.ofExcept_run, hrun]
        exact .thrown e t hsame
      · simp only [Action.bind_run, Action.ofExcept_run, hrun]
        exact .unanswered e [statement] n t (hsends hvalid) (hall hexec) hlost

/-- A batch, on the statements of its kind. -/
theorem batch_returned {R : Type} (kind : BatchKind R) (records : List R) (call : BatchCall)
    (hsends : ∀ statements, SendsBatch platform kind records statements →
      (batch call).Sends platform statements)
    (hsummary : ∀ n, (batch call).summary n = some ⟨records.length, n⟩)
    (hcall : (batch call).perform platform refusalText = (do
      let summary ← insertFacts platform refusalText kind records
      return some summary))
    {s : DbSession} (hs : s.status = .idle) :
    Returned platform refusalText (batch call) s ((batch call).perform platform refusalText s) := by
  rw [hcall]
  unfold insertFacts
  rcases insertBatchInto_returned (schemaServer platform refusalText) .insert platform kind
    records hs with
    ⟨e, t, hrun, hunwound⟩ | ⟨queries, data, n, t, hvalid, hqueries, hexec, hrun, rfl, _⟩
    | ⟨e, queries, data, n, t, hvalid, hqueries, hexec, hrun, rfl, _, hlost⟩
  · rw [Action.bind_error hrun]
    exact .thrown e t hunwound.committed
  · rw [Action.bind_ok hrun, Action.pure_run, ← hsummary n]
    exact .done _ n t (hsends _ ⟨hvalid, queries, hqueries, rfl⟩) hexec
  · rw [Action.bind_error hrun]
    exact .unanswered e _ n t (hsends _ ⟨hvalid, queries, hqueries, rfl⟩) hexec
      (fun hanswered => hlost hanswered.commits)

/-- **A call on an idle session throws and changes nothing, or the server has
executed its statements**, and answered them or not. -/
theorem perform_returned (call : WriteCall) {s : DbSession} (hs : s.status = .idle) :
    Returned platform refusalText call s (call.perform platform refusalText s) := by
  cases call with
  | upsertInstrument instrument =>
      exact upsert_returned platform refusalText (.upsertInstrument instrument) instrument.validate
        (.upsertInstrument (instrumentParameters instrument)) (fun hvalid => ⟨hvalid, rfl⟩)
        (fun _ => rfl) rfl hs
  | upsertDataSource source =>
      exact upsert_returned platform refusalText (.upsertDataSource source) source.validate
        (.upsertDataSource (dataSourceParameters source)) (fun hvalid => ⟨hvalid, rfl⟩)
        (fun _ => rfl) rfl hs
  | batch call =>
      cases call with
      | insertQuotes quotes =>
          exact batch_returned platform refusalText quoteBatch quotes (.insertQuotes quotes)
            (fun _ h => h) (fun _ => rfl) rfl hs
      | insertTicks ticks =>
          exact batch_returned platform refusalText tickBatch ticks (.insertTicks ticks)
            (fun _ h => h) (fun _ => rfl) rfl hs
      | insertOrderBookSnapshots snapshots =>
          exact batch_returned platform refusalText snapshotBatch snapshots
            (.insertOrderBookSnapshots snapshots) (fun _ h => h) (fun _ => rfl) rfl hs
      | insertTechnicalIndicators indicators =>
          exact batch_returned platform refusalText indicatorBatch indicators
            (.insertTechnicalIndicators indicators) (fun _ h => h) (fun _ => rfl) rfl hs

end WriteCall

/-! ## §4. A query on an idle connection. -/

section Query

variable (platform : Platform) (refusalText : RefusalText)

/-- What the query selects in a database. -/
def selected (symbol source : Str) (database : Database) : Option (List (Option Str)) :=
  selectLatest (cStr symbol) (cStr source) (facts database)

/-- What a query on an idle session does; it never changes the data. -/
inductive Queried (symbol source : Str) (s : DbSession) :
    Except Exn (Option Domain.Quote) × DbSession → Prop where
  | thrown (e : Exn) (t : DbSession) (same : t.committed = s.committed) :
      Queried symbol source s (.error e, t)
  | nothing (absent : selected symbol source s.committed = none) :
      Queried symbol source s (.ok none, s)
  | found (row : List (Option Str)) (quote : Domain.Quote)
      (present : selected symbol source s.committed = some row)
      (read : quoteOfResult row = .ok quote) : Queried symbol source s (.ok (some quote), s)

/-- A query that is sent reads the row that it selects. -/
theorem latestQuoteOn_sent (symbol source : Str) {s : DbSession} (hconnected : s.connected = true)
    (hs : s.status = .idle) :
    latestQuoteOn platform refusalText .sent symbol source s
      = match selected symbol source s.committed with
        | none => (.ok none, s)
        | some row => ((quoteOfResult row).map some, s) := by
  have hread : Session.read (schemaServer platform refusalText) closedError .sent
      (selected symbol source) s = (.ok (selected symbol source s.committed), s) := by
    unfold Session.read
    rw [if_neg (by rw [hconnected]; decide), hs]
  refine (Action.bind_ok hread).trans ?_
  cases selected symbol source s.committed with
  | none => rfl
  | some row =>
      simp only
      rw [Action.bind_run, Action.ofExcept_run]
      cases quoteOfResult row <;> rfl

/-- One that is not sent throws. -/
theorem latestQuoteOn_unsent {fate : Fate} (hfate : fate ≠ .sent) (symbol source : Str)
    (s : DbSession) :
    ∃ e t, latestQuoteOn platform refusalText fate symbol source s = (.error e, t)
      ∧ t.committed = s.committed := by
  have hread : ∃ e t, Session.read (schemaServer platform refusalText) closedError fate
      (selected symbol source) s = (.error e, t) ∧ t.committed = s.committed := by
    unfold Session.read
    split
    · exact ⟨_, _, rfl, rfl⟩
    · cases fate with
      | sent => exact absurd rfl hfate
      | unsent _ | refused _ _ | lost _ | unanswered _ => exact ⟨_, _, rfl, rfl⟩
  obtain ⟨e, t, hrun, hsame⟩ := hread
  exact ⟨e, t, Action.bind_error hrun, hsame⟩

theorem latestQuoteOn_queried (fate : Fate) (symbol source : Str) {s : DbSession}
    (hconnected : s.connected = true) (hs : s.status = .idle) :
    Queried symbol source s (latestQuoteOn platform refusalText fate symbol source s) := by
  by_cases hfate : fate = .sent
  · rw [hfate, latestQuoteOn_sent platform refusalText symbol source hconnected hs]
    cases hselected : selected symbol source s.committed with
    | none => exact .nothing hselected
    | some row =>
        dsimp only
        cases hread : quoteOfResult row with
        | error e => exact .thrown e s rfl
        | ok quote => exact .found row quote hselected hread
  · obtain ⟨e, t, hrun, hsame⟩ := latestQuoteOn_unsent platform refusalText hfate symbol source s
    rw [hrun]
    exact .thrown e t hsame

end Query

end FinCore.Storage

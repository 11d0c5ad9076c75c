/-
  FinCore.Storage.PostgresRepository
  ──────────────────────────────────
  `PostgresMarketDataRepository`: batch inserts over a PostgreSQL session.

  The four batch methods are one body over different records, prepared
  statements and parameter lists.  A prepared `INSERT` is given by the casts of
  its parameters, in the order of its columns, and by its conflict target.
-/
import FinCore.Domain.MarketData
import FinCore.Sql.Session
import FinCore.Sql.Table

namespace FinCore.Storage

open FinCore.Cxx FinCore.Sql FinCore.Domain

/-! ## §1. Rows and prepared inserts. -/

/-- A value in a column. -/
inductive Datum where
  | null
  | text (s : Str)
  /-- `timestamptz`, in microseconds since the epoch. -/
  | instant (us : ℤ)
  | number (q : ℚ)
  /-- `jsonb`, in its canonical text. -/
  | json (s : Str)
  deriving DecidableEq

abbrev Row := List Datum

inductive TableName where
  | quotes
  | ticks
  | orderBookSnapshots
  | technicalIndicators
  deriving DecidableEq

abbrev Db := TableName → List Row

/-- The input functions of the server and the calendar of the C library. -/
structure Platform where
  /-- `timestamptz` input, in microseconds. -/
  timestamptz : Str → Option ℤ
  /-- `jsonb` input, as the canonical text of the value. -/
  jsonb : Str → Option Str
  /-- `put_time("%Y-%m-%dT%H:%M:%S")` of what `gmtime_r` returns, if it does. -/
  utcText : Int64 → Option Str

/-- How a parameter becomes a column. -/
inductive Cast where
  | text
  | timestamptz
  | numeric
  | char1
  | jsonb
  deriving DecidableEq

def Cast.apply (platform : Platform) : Cast → Option Str → Option Datum
  | _, none => some .null
  | text, some s => some (.text s)
  | timestamptz, some s => (platform.timestamptz s).map .instant
  | numeric, some s => (DecimalLiteral.parse? s).map (fun l => .number l.value)
  | char1, some s => some (.text (s.take 1))
  | jsonb, some s => (platform.jsonb s).map .json

/-- A prepared `INSERT … ON CONFLICT (…) [WHERE … IS NOT NULL] DO NOTHING`. -/
structure InsertStatement where
  name : Str
  table : TableName
  casts : List Cast
  /-- The positions of the conflict target. -/
  conflict : List ℕ
  /-- The column that the predicate of the conflict target wants not null. -/
  whereNotNull : Option ℕ
  deriving DecidableEq

namespace InsertStatement

/-- The conflict key of a row, if the unique index covers it. -/
def key (statement : InsertStatement) (row : Row) : Option (List Datum) :=
  let column := fun i => row.getD i .null
  match statement.whereNotNull with
  | some i => if column i = .null then none else some (statement.conflict.map column)
  | none => some (statement.conflict.map column)

end InsertStatement

/-- A call of a prepared statement. -/
structure Prepared where
  statement : InsertStatement
  parameters : List (Option Str)
  deriving DecidableEq

/-- The row that the parameters make. -/
def Prepared.row (platform : Platform) (q : Prepared) : Option Row :=
  (q.statement.casts.zip q.parameters).mapM (fun (cast, value) => cast.apply platform value)

/-- A column of the row is the cast of its parameter. -/
theorem Prepared.row_column {platform : Platform} {q : Prepared} {row : Row}
    (h : q.row platform = some row) {i : ℕ} {cast : Cast} {value : Option Str}
    (hcast : q.statement.casts[i]? = some cast) (hvalue : q.parameters[i]? = some value) :
    cast.apply platform value = some (row.getD i .null) := by
  have hcolumns := mapM_eq_some_iff.mp h
  have hpair : (q.statement.casts.zip q.parameters)[i]? = some (cast, value) :=
    List.getElem?_zip_eq_some.mpr ⟨hcast, hvalue⟩
  clear h hcast hvalue
  generalize q.statement.casts.zip q.parameters = columns at hcolumns hpair
  induction hcolumns generalizing i with
  | nil => cases hpair
  | cons hhead _ ih =>
      cases i with
      | zero =>
          injection hpair with hpair
          subst hpair
          exact hhead
      | succ i => exact ih hpair

def invalidInputError : Str × Str := ("invalid input syntax".toList, "22P02".toList)

/-- The server: casts, then the insert. -/
def pgServer (platform : Platform) : Server Db Prepared Exn where
  exec q db :=
    match q.row platform with
    -- a cast that fails refuses the statement before the insert
    | none => .error invalidInputError
    | some row =>
        let (rows, n) := insertDoNothing q.statement.key row (db q.statement.table)
        .ok (Function.update db q.statement.table rows, n)
  error message sqlState := .databaseError message sqlState
  closed
    | .query _ => .databaseError
        "cannot execute prepared SQL on a closed PostgreSQL connection".toList []
    | _ => .databaseError "cannot execute SQL on a closed PostgreSQL connection".toList []

abbrev PgSession := Session Db Prepared

/-- `execute_prepared` and `affected_rows`: libpq reads each parameter up to its
first NUL. -/
def executePrepared (platform : Platform) (statement : InsertStatement)
    (parameters : List (Option Str)) : Action PgSession Exn ℕ :=
  Session.issue (pgServer platform) (.query ⟨statement, parameters.map (Option.map cStr)⟩)

/-! ## §2. Parameters. -/

/-- `system_clock::to_time_t` of a whole number of seconds: the argument becomes
nanoseconds in an `int64` first. -/
def toTimeT (seconds : ℤ) : Int64 :=
  Int64.ofInt ((Int64.ofInt (seconds * 10 ^ 9)).toInt.tdiv (10 ^ 9))

/-- `timestamp_to_utc_text`. -/
def timestampToUtcText (platform : Platform) (timestamp : Timestamp) : Except Exn Str :=
  let micros := timestamp.toInt / 10 ^ 3
  let secondsPart := micros / 10 ^ 6
  let fractional := micros - secondsPart * 10 ^ 6
  match platform.utcText (toTimeT secondsPart) with
  | none => .error (.runtimeError "failed to convert timestamp to UTC".toList)
  | some utc => .ok (utc ++ '.' :: padZero 6 (toStringNat fractional.toNat) ++ ['Z'])

/-- A kind of batch: its validation, its prepared statement and the parameters
of a record. -/
structure BatchKind (R : Type) where
  validate : R → Except Exn Unit
  statement : InsertStatement
  parameters : Platform → R → Except Exn (List (Option Str))

def fincoreInsertQuote : InsertStatement where
  name := "fincore_insert_quote".toList
  table := .quotes
  casts := [.text, .text, .timestamptz, .numeric, .numeric, .numeric, .numeric, .numeric, .numeric]
  conflict := [0, 1, 2]
  whereNotNull := none

def quoteBatch : BatchKind Domain.Quote where
  validate := Domain.Quote.validate
  statement := fincoreInsertQuote
  parameters platform quote := do
    let timestamp ← timestampToUtcText platform quote.timestamp
    return [some quote.symbol, some quote.source, some timestamp, some quote.price.toString,
      some quote.openPrice.toString, some quote.high.toString, some quote.low.toString,
      some quote.volume.toString, quote.changePct.map Decimal.toString]

def fincoreInsertTick : InsertStatement where
  name := "fincore_insert_tick".toList
  table := .ticks
  casts := [.text, .text, .timestamptz, .text, .numeric, .numeric, .char1]
  conflict := [1, 0, 3]
  whereNotNull := some 3

def tickBatch : BatchKind Tick where
  validate := Tick.validate
  statement := fincoreInsertTick
  parameters platform tick := do
    let timestamp ← timestampToUtcText platform tick.timestamp
    return [some tick.symbol, some tick.source, some timestamp, tick.tradeId,
      some tick.price.toString, some tick.size.toString, some [tick.side.toChar]]

def fincoreInsertSnapshot : InsertStatement where
  name := "fincore_insert_snapshot".toList
  table := .orderBookSnapshots
  casts := [.text, .text, .timestamptz, .numeric, .numeric, .numeric, .numeric, .numeric]
  conflict := [0, 1, 2]
  whereNotNull := none

def snapshotBatch : BatchKind Domain.OrderBookSnapshot where
  validate := Domain.OrderBookSnapshot.validate
  statement := fincoreInsertSnapshot
  parameters platform snapshot := do
    let snapshotTime ← timestampToUtcText platform snapshot.snapshotTime
    return [some snapshot.symbol, some snapshot.source, some snapshotTime,
      some snapshot.bestBid.toString, some snapshot.bestAsk.toString,
      some snapshot.imbalance.toString, some snapshot.totalBidVolume.toString,
      some snapshot.totalAskVolume.toString]

def fincoreInsertIndicator : InsertStatement where
  name := "fincore_insert_indicator".toList
  table := .technicalIndicators
  casts := [.text, .text, .text, .timestamptz, .numeric, .jsonb]
  conflict := [0, 1, 2, 3, 5]
  whereNotNull := none

def indicatorBatch : BatchKind TechnicalIndicator where
  validate := TechnicalIndicator.validate
  statement := fincoreInsertIndicator
  parameters platform indicator := do
    let timestamp ← timestampToUtcText platform indicator.timestamp
    return [some indicator.symbol, some indicator.source, some indicator.indicatorName,
      some timestamp, some indicator.value.toString, some indicator.parametersJson]

/-! ## §3. Batch inserts. -/

structure InsertSummary where
  attempted : ℕ
  inserted : ℕ

/-- `attempted - inserted` in `std::size_t`. -/
def InsertSummary.duplicates (summary : InsertSummary) : ℕ :=
  if summary.inserted ≤ summary.attempted then summary.attempted - summary.inserted
  else summary.attempted + 2 ^ 64 - summary.inserted

section Batch

variable {R : Type} (platform : Platform) (kind : BatchKind R)

/-- Every record is validated before the first statement. -/
def validateAll : List R → Except Exn Unit
  | [] => .ok ()
  | record :: rest => do
      kind.validate record
      validateAll rest

/-- The loop over the records inside the transaction. -/
def insertRecords : List R → ℕ → Action PgSession Exn ℕ
  | [], inserted => pure inserted
  | record :: rest, inserted => do
      let parameters ← Action.ofExcept (kind.parameters platform record)
      let affected ← executePrepared platform kind.statement parameters
      insertRecords rest (inserted + affected)

/-- The body of the four batch methods. -/
def insertBatch (records : List R) : Action PgSession Exn InsertSummary := do
  Action.ofExcept (validateAll kind records)
  if records = [] then return { attempted := records.length, inserted := 0 }
  else do
    let inserted ← Session.transaction (pgServer platform) (insertRecords platform kind records 0)
    return { attempted := records.length, inserted := inserted }

end Batch

def insertQuotes (platform : Platform) (quotes : List Domain.Quote) :
    Action PgSession Exn InsertSummary :=
  insertBatch platform quoteBatch quotes

def insertTicks (platform : Platform) (ticks : List Tick) :
    Action PgSession Exn InsertSummary :=
  insertBatch platform tickBatch ticks

def insertOrderBookSnapshots (platform : Platform) (snapshots : List Domain.OrderBookSnapshot) :
    Action PgSession Exn InsertSummary :=
  insertBatch platform snapshotBatch snapshots

def insertTechnicalIndicators (platform : Platform) (indicators : List TechnicalIndicator) :
    Action PgSession Exn InsertSummary :=
  insertBatch platform indicatorBatch indicators

end FinCore.Storage

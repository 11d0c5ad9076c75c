/-
  FinCore.Storage.LatestQuote
  ───────────────────────────
  `latest_quote`: the newest quote of a symbol and a source.

  A quote goes through two text codecs on its way into the table and back: its
  time stamp is sent as UTC text and comes back as microseconds, its numbers are
  sent and come back as decimal texts.  The table ignores conflicting rows, so
  the query finds the first quote inserted for the newest instant
  (`latestQuote_newest`).
-/
import FinCore.Cxx.Calendar
import FinCore.Cxx.ReadBack
import FinCore.Sql.Newest
import FinCore.Storage.QuoteRow

namespace FinCore.Storage

open FinCore.Cxx FinCore.Sql FinCore.Domain
open Action Session

/-! ## §1. The query. -/

/-- The text of a `bigint`. -/
def bigintText (n : ℤ) : Str :=
  if n < 0 then '-' :: toStringNat n.natAbs else toStringNat n.natAbs

/-- The text of a `NUMERIC` with eight fractional digits. -/
def numericText (q : ℚ) : Str := (Double.fixedLiteral 8 q).text

/-- A column of the query's result: `NULL`, or its text. -/
def Datum.resultText : Datum → Option Str
  | .null => none
  | .text s => some s
  | .instant us => some (bigintText us)
  | .number q => some (numericText q)
  | .json s => some s

/-- The instant of a row of the quotes table. -/
def rowInstant (row : Row) : ℤ :=
  match row.getD 2 .null with
  | .instant us => us
  | _ => 0

def ofSymbolAndSource (symbol source : Str) (row : Row) : Bool :=
  row.getD 0 .null = .text symbol && row.getD 1 .null = .text source

/-- `SELECT … WHERE symbol = $1 AND source = $2 ORDER BY timestamp DESC
LIMIT 1`. -/
def selectLatest (symbol source : Str) (db : Db) : Option (List (Option Str)) :=
  (newest rowInstant ((db .quotes).filter (ofSymbolAndSource symbol source))).map
    (fun row => row.map Datum.resultText)

/-- `PgResult::value` of a column of the one row. -/
def PgResult.value (row : List (Option Str)) (column : ℕ) : Except Exn Str :=
  match row[column]? with
  | none => .error (.outOfRange "PostgreSQL result coordinate is out of range".toList)
  | some none => .error (.logicError "attempted to read a SQL NULL as text".toList)
  | some (some text) => .ok text

/-- `PgResult::is_null`. -/
def PgResult.isNull (row : List (Option Str)) (column : ℕ) : Except Exn Bool :=
  match row[column]? with
  | none => .error (.outOfRange "PostgreSQL result coordinate is out of range".toList)
  | some cell => .ok cell.isNone

/-- `timestamp_from_epoch_microseconds`. -/
def timestampFromEpochMicroseconds (value : Str) : Except Exn Timestamp :=
  match fromCharsInt64 value with
  | some (microseconds, []) => .ok (microseconds * 1000)
  | _ => .error (.databaseError "database returned an invalid timestamp epoch".toList [])

/-- The quote in a row of the result, its columns read in order. -/
def quoteOfResult (row : List (Option Str)) : Except Exn Domain.Quote := do
  let symbol ← PgResult.value row 0
  let source ← PgResult.value row 1
  let timestamp ← timestampFromEpochMicroseconds (← PgResult.value row 2)
  let price ← Decimal.fromString (← PgResult.value row 3)
  let openPrice ← Decimal.fromString (← PgResult.value row 4)
  let high ← Decimal.fromString (← PgResult.value row 5)
  let low ← Decimal.fromString (← PgResult.value row 6)
  let volume ← Decimal.fromString (← PgResult.value row 7)
  let noChange ← PgResult.isNull row 8
  let changePct ←
    if noChange then pure none
    else do
      let changePct ← Decimal.fromString (← PgResult.value row 8)
      pure (some changePct)
  return { symbol := symbol, source := source, timestamp := timestamp, price := price
           openPrice := openPrice, high := high, low := low, volume := volume
           changePct := changePct }

def closedError : Exn :=
  .databaseError "cannot execute prepared SQL on a closed PostgreSQL connection".toList []

/-- `latest_quote`; what becomes of its one statement is given. -/
def latestQuote (platform : Platform) (fate : Fate) (symbol source : Str) :
    Action PgSession Exn (Option Domain.Quote) := do
  let result ← Session.read (pgServer platform) closedError fate
    (selectLatest (cStr symbol) (cStr source))
  match result with
  | none => return none
  | some row => do
      let quote ← Action.ofExcept (quoteOfResult row)
      return some quote

/-! ## §2. The codecs. -/

theorem timestamp_bigintText (us : Int64) :
    timestampFromEpochMicroseconds (bigintText us.toInt) = .ok (us * 1000) := by
  have hread : fromCharsInt64 (bigintText us.toInt) = some (us, []) := by
    unfold bigintText
    split
    next h =>
      refine fromCharsInt64_text (σ := .minus) (by decide) ?_
      show -(us.toInt.natAbs : ℤ) = us.toInt
      omega
    next h =>
      refine fromCharsInt64_text (σ := .none) (by decide) ?_
      show (us.toInt.natAbs : ℤ) = us.toInt
      omega
  unfold timestampFromEpochMicroseconds
  rw [hread]

/-- **A decimal comes back from its column as it was.** -/
theorem fromString_numericText (d : Decimal) :
    Decimal.fromString (numericText d.toRat) = .ok d := by
  have hlength : (Double.fixedLiteral 8 d.toRat).fraction.length ≤ 8 :=
    (Double.fixedLiteral_fraction_length (by decide) _).le
  have hvalue : (Double.fixedLiteral 8 d.toRat).value * 10 ^ 8 = Double.scaledRound 8 d.toRat :=
    Double.fixedLiteral_value (by decide) _
  have hround : Double.scaledRound 8 d.toRat = d.raw.toInt := by
    unfold Double.scaledRound Decimal.toRat
    rw [div_mul_cancel₀ _ (by norm_num)]
    exact Double.roundHalfEven_intCast _
  rw [hround] at hvalue
  exact (Decimal.fromString_text_iff hlength).mpr hvalue.symm

/-- **A row is read as the quote it was made from**, at the row's instant. -/
theorem quoteOfResult_row (us : Int64) (quote : Domain.Quote) :
    quoteOfResult ((quoteRow us.toInt quote).map Datum.resultText)
      = .ok { quote with timestamp := us * 1000 } := by
  obtain ⟨symbol, source, timestamp, price, openPrice, high, low, volume, changePct⟩ := quote
  unfold quoteOfResult
  cases changePct with
  | none =>
      simp only [quoteRow, List.map_cons, List.map_nil, Datum.resultText, PgResult.value,
        PgResult.isNull, List.getElem?_cons_zero, List.getElem?_cons_succ]
      simp only [bind, Except.bind, timestamp_bigintText, fromString_numericText]
      rfl
  | some changePct =>
      simp only [quoteRow, List.map_cons, List.map_nil, Datum.resultText, PgResult.value,
        PgResult.isNull, List.getElem?_cons_zero, List.getElem?_cons_succ]
      simp only [bind, Except.bind, timestamp_bigintText, fromString_numericText]
      rfl

/-! ## §3. Time stamps. -/

/-- The calendar of the C library and the time-stamp input of the server are
those of the proleptic Gregorian calendar, for every time within reach of a
64-bit count of nanoseconds. -/
structure Gregorian (platform : Platform) : Prop where
  gmtime : ∀ time : Int64, |time.toInt| ≤ 9223372036 →
    ∃ t : CivilTime, t.toSeconds = time.toInt ∧ platform.utcText time = some t.text
  timestamptz : ∀ (t : CivilTime) (us : ℕ), us < 10 ^ 6 →
    platform.timestamptz (t.instantText us) = some (t.toSeconds * 10 ^ 6 + us)

/-- `floor<microseconds>` of a time stamp. -/
def floorMicros (timestamp : Timestamp) : ℤ := timestamp.toInt / 10 ^ 3

/-- The second of a time stamp, in nanoseconds, is within `int64`. -/
def SecondFits (timestamp : Timestamp) : Prop := -9223372036 * 10 ^ 9 ≤ timestamp.toInt

instance (timestamp : Timestamp) : Decidable (SecondFits timestamp) :=
  inferInstanceAs (Decidable (_ ≤ _))

theorem toTimeT_bound (seconds : ℤ) : |(toTimeT seconds).toInt| ≤ 9223372036 := by
  have hlow := (Int64.ofInt (seconds * 10 ^ 9)).le_toInt
  have hhigh := (Int64.ofInt (seconds * 10 ^ 9)).toInt_lt
  unfold toTimeT
  generalize (Int64.ofInt (seconds * 10 ^ 9)).toInt = ns at hlow hhigh
  have habs : (ns.tdiv (10 ^ 9)).natAbs = ns.natAbs / 10 ^ 9 := Int.natAbs_tdiv ns (10 ^ 9)
  rw [Int64.toInt_ofInt_of_le (by omega) (by omega), abs_le]
  constructor
  · omega
  · omega

/-- **What instant a time stamp is stored as**: its microseconds within the
second that `to_time_t` returns. -/
theorem sentInstant_eq {platform : Platform} (h : Gregorian platform) (timestamp : Timestamp) :
    sentInstant platform timestamp
      = some ((toTimeT (floorMicros timestamp / 10 ^ 6)).toInt * 10 ^ 6
          + floorMicros timestamp % 10 ^ 6) := by
  obtain ⟨t, hseconds, htext⟩ := h.gmtime _ (toTimeT_bound (floorMicros timestamp / 10 ^ 6))
  have hfraction : floorMicros timestamp - floorMicros timestamp / 10 ^ 6 * 10 ^ 6
      = floorMicros timestamp % 10 ^ 6 := by omega
  have hus : (floorMicros timestamp % 10 ^ 6).toNat < 10 ^ 6 := by omega
  -- the text names the second and its microseconds
  have hsent : timestampToUtcText platform timestamp
      = .ok (t.instantText (floorMicros timestamp % 10 ^ 6).toNat) := by
    unfold timestampToUtcText
    change platform.utcText (toTimeT (timestamp.toInt / 10 ^ 3 / 10 ^ 6)) = _ at htext
    rw [← hfraction]
    dsimp only
    rw [htext]
    rfl
  unfold sentInstant
  rw [hsent]
  show platform.timestamptz (cStr _) = _
  rw [cStr_eq_self (t.text_no_nul _), h.timestamptz t _ hus, hseconds]
  congr 2
  omega

/-- **A time stamp is stored as its floor exactly if its second fits.** -/
theorem sentInstant_floor_iff {platform : Platform} (h : Gregorian platform)
    (timestamp : Timestamp) :
    sentInstant platform timestamp = some (floorMicros timestamp) ↔ SecondFits timestamp := by
  have hlow := timestamp.le_toInt
  have hhigh := timestamp.toInt_lt
  rw [sentInstant_eq h, Option.some.injEq]
  unfold SecondFits
  constructor
  · intro heq
    by_contra hfits
    -- the only second that does not fit wraps to the other end
    have hsecond : floorMicros timestamp / 10 ^ 6 = -9223372037 := by
      unfold floorMicros
      omega
    have hwrapped : (toTimeT (-9223372037)).toInt = 9223372036 := by decide
    rw [hsecond, hwrapped] at heq
    omega
  · intro hfits
    have hnanos : (Int64.ofInt (floorMicros timestamp / 10 ^ 6 * 10 ^ 9)).toInt
        = floorMicros timestamp / 10 ^ 6 * 10 ^ 9 := by
      unfold floorMicros
      exact Int64.toInt_ofInt_of_le (by omega) (by omega)
    have hseconds : (toTimeT (floorMicros timestamp / 10 ^ 6)).toInt
        = floorMicros timestamp / 10 ^ 6 := by
      unfold toTimeT
      rw [hnanos, Int.mul_tdiv_cancel _ (by decide)]
      unfold floorMicros
      exact Int64.toInt_ofInt_of_le (by omega) (by omega)
    rw [hseconds]
    omega

/-- The time stamp `latest_quote` returns for an instant in microseconds. -/
def ofMicros (us : ℤ) : Timestamp := Int64.ofInt (us * 10 ^ 3)

theorem ofMicros_floor {timestamp : Timestamp} (h : SecondFits timestamp) :
    (Int64.ofInt (floorMicros timestamp)).toInt = floorMicros timestamp
      ∧ Int64.ofInt (floorMicros timestamp) * 1000 = ofMicros (floorMicros timestamp) := by
  have hlow := timestamp.le_toInt
  have hhigh := timestamp.toInt_lt
  unfold SecondFits at h
  constructor
  · unfold floorMicros
    exact Int64.toInt_ofInt_of_le (by omega) (by omega)
  · unfold ofMicros
    rw [Int64.ofInt_mul]
    rfl

/-! ## §4. The table. -/

/-- The row of a quote whose second fits. -/
def storedRow (quote : Domain.Quote) : Row := quoteRow (floorMicros quote.timestamp) quote

theorem storedRow_key (quote : Domain.Quote) :
    rowKey quoteBatch (storedRow quote)
      = some [.text quote.symbol, .text quote.source, .instant (floorMicros quote.timestamp)] :=
  rfl

section Table

variable {platform : Platform} (h : Gregorian platform)

include h

/-- The rows of a batch that has been sent. -/
theorem rows_stored {quotes : List Domain.Quote} {queries : List Prepared} {rows : List Row}
    (hvalid : ∀ quote ∈ quotes, quote.validate = .ok ())
    (hfits : ∀ quote ∈ quotes, SecondFits quote.timestamp)
    (hqueries : Prepares platform quoteBatch quotes queries) (hrows : Casts platform queries rows) :
    rows = quotes.map storedRow := by
  induction hqueries generalizing rows with
  | nil =>
      cases hrows
      rfl
  | @cons quote q quotes queries hq _ ih =>
      cases hrows with
      | cons hrow hrest =>
          obtain ⟨us, hus, rfl⟩ := quote_row (hvalid quote List.mem_cons_self) hq hrow
          -- its second fits, so the instant that was sent is its floor
          have hfloor := (sentInstant_floor_iff h quote.timestamp).mpr
            (hfits quote List.mem_cons_self)
          rw [hus] at hfloor
          rw [Option.some.inj hfloor,
            ih (fun quote' hmem => hvalid quote' (List.mem_cons_of_mem _ hmem))
            (fun quote' hmem => hfits quote' (List.mem_cons_of_mem _ hmem)) hrest]
          rfl

end Table

/-- The quotes of the batches that returned, in order. -/
def committedQuotes (platform : Platform) : List BatchCall → PgSession → List Domain.Quote
  | [], _ => []
  | call :: rest, s =>
      (match call, (call.perform platform s).1 with
        | .insertQuotes quotes, .ok _ => quotes
        | _, _ => []) ++ committedQuotes platform rest (call.perform platform s).2

/-- The quotes one call commits. -/
theorem committedQuotes_cons (platform : Platform) (call : BatchCall) (rest : List BatchCall)
    (s : PgSession) :
    committedQuotes platform (call :: rest) s
      = committedQuotes platform [call] s
        ++ committedQuotes platform rest (call.perform platform s).2 := by
  simp only [committedQuotes, List.append_nil]

section Run

variable {platform : Platform}

/-- A call leaves the quotes table with the quotes it commits on top. -/
theorem perform_table (h : Gregorian platform) (call : BatchCall) {s : PgSession}
    (hs : s.status = .idle) (hanswered : Answered (call.perform platform s).2)
    (hfits : ∀ quote ∈ committedQuotes platform [call] s, SecondFits quote.timestamp) :
    (call.perform platform s).2.committed .quotes
      = s.committed .quotes ++ gained (rowKey quoteBatch) (s.committed .quotes)
        ((committedQuotes platform [call] s).map storedRow) := by
  have hunchanged : (call.perform platform s).2.committed .quotes = s.committed .quotes →
      committedQuotes platform [call] s = [] →
      (call.perform platform s).2.committed .quotes
        = s.committed .quotes ++ gained (rowKey quoteBatch) (s.committed .quotes)
          ((committedQuotes platform [call] s).map storedRow) := by
    intro hsame hnone
    rw [hsame, hnone]
    exact (List.append_nil _).symm
  have houtcome := call.perform_outcome platform s
  -- the other three tables are not the quotes table
  have hother : ∀ {R : Type} {kind : BatchKind R} {records : List R}
      {result : Except Exn InsertSummary}
      {t : PgSession}, BatchOutcome platform kind records s result t → Answered t →
      kind.statement.table ≠ .quotes → t.committed .quotes = s.committed .quotes := by
    intro R kind records result t hbatch hanswered htable
    cases result with
    | error e => rw [hbatch.failed e rfl hanswered.commits]
    | ok summary =>
        obtain ⟨_, _, _, _, _, hcommitted⟩ := hbatch.gains platform kind hs rfl
        rw [hcommitted, Function.update_of_ne htable.symm]
  cases call with
  | insertTicks ticks =>
      refine hunchanged (hother houtcome.1 hanswered (by decide)) ?_
      simp only [committedQuotes, List.append_nil]
  | insertOrderBookSnapshots snapshots =>
      refine hunchanged (hother houtcome hanswered (by decide)) ?_
      simp only [committedQuotes, List.append_nil]
  | insertTechnicalIndicators indicators =>
      refine hunchanged (hother houtcome hanswered (by decide)) ?_
      simp only [committedQuotes, List.append_nil]
  | insertQuotes quotes =>
      cases hresult : ((BatchCall.insertQuotes quotes).perform platform s).1 with
      | error e =>
          refine hunchanged ?_ ?_
          · rw [houtcome.failed e hresult hanswered.commits]
          · simp only [committedQuotes, hresult, List.append_nil]
      | ok summary =>
          have hquotes : committedQuotes platform [.insertQuotes quotes] s = quotes := by
            simp only [committedQuotes, hresult, List.append_nil]
          rw [hquotes] at hfits ⊢
          obtain ⟨queries, rows, hvalid, hqueries, hrows, hcommitted⟩ :=
            BatchOutcome.gains platform quoteBatch houtcome hs hresult
          rw [← rows_stored h hvalid hfits hqueries hrows]
          exact (congrFun hcommitted .quotes).trans (Function.update_self _ _ _)

/-- **After any run, the table holds the first committed quote of every key.** -/
theorem runBatches_table (h : Gregorian platform) (calls : List BatchCall) :
    ∀ (s : PgSession) (earlier : List Domain.Quote), s.status = .idle →
      RollbacksAccepted (runBatches platform calls s) → Answered (runBatches platform calls s) →
      (∀ quote ∈ committedQuotes platform calls s, SecondFits quote.timestamp) →
      s.committed .quotes = gained (rowKey quoteBatch) [] (earlier.map storedRow) →
      (runBatches platform calls s).committed .quotes = gained (rowKey quoteBatch) []
        ((earlier ++ committedQuotes platform calls s).map storedRow) := by
  induction calls with
  | nil =>
      intro s earlier _ _ _ _ htable
      show s.committed .quotes = gained _ [] ((earlier ++ []).map storedRow)
      rw [List.append_nil]
      exact htable
  | cons call rest ih =>
      intro s earlier hs hrollbacks hanswered hfits htable
      have hgrows := runBatches_grows platform rest (call.perform platform s).2
      -- no ROLLBACK fails, so the next batch finds the connection idle
      have hidle := (call.perform_outcome platform s).idle platform hs (hrollbacks.of_prefix hgrows)
      rw [committedQuotes_cons] at hfits ⊢
      have hstep := perform_table h call hs
        (hanswered.of_grows hgrows (runBatches_fate platform rest _))
        (fun quote hmem => hfits quote (List.mem_append_left _ hmem))
      rw [htable, gained_gained, ← List.map_append] at hstep
      rw [← List.append_assoc]
      exact ih _ _ hidle hrollbacks hanswered
        (fun quote hmem => hfits quote (List.mem_append_right _ hmem)) hstep

end Run

/-! ## §5. The newest quote. -/

/-- The quotes of a symbol and a source. -/
def quotesOf (symbol source : Str) (quotes : List Domain.Quote) : List Domain.Quote :=
  quotes.filter (fun quote => quote.symbol = symbol && quote.source = source)

/-- What `latest_quote` has to return: nothing if there is no quote, and
otherwise the first quote of the newest microsecond, at that microsecond. -/
inductive IsLatest (symbol source : Str) (committed : List Domain.Quote) :
    Option Domain.Quote → Prop where
  | none : quotesOf symbol source committed = [] → IsLatest symbol source committed none
  | found (quote : Domain.Quote) :
      IsNewest (fun quote => floorMicros quote.timestamp) (quotesOf symbol source committed) quote →
      IsLatest symbol source committed
        (some { quote with timestamp := ofMicros (floorMicros quote.timestamp) })

/-- The query on a table that has been filled. -/
theorem selectLatest_stored (symbol source : Str) {db : Db} {quotes : List Domain.Quote}
    (htable : db .quotes = gained (rowKey quoteBatch) [] (quotes.map storedRow)) :
    selectLatest symbol source db
      = (newest (fun quote => floorMicros quote.timestamp) (quotesOf symbol source quotes)).map
        (fun quote => (storedRow quote).map Datum.resultText) := by
  have hkeyed : ∀ row ∈ quotes.map storedRow, (rowKey quoteBatch row).isSome = true := by
    intro row hmem
    obtain ⟨quote, _, rfl⟩ := List.mem_map.mp hmem
    rfl
  -- symbol, source and instant are the key
  have hkey : ∀ row ∈ quotes.map storedRow, ∀ row' ∈ quotes.map storedRow,
      rowKey quoteBatch row = rowKey quoteBatch row' → rowInstant row = rowInstant row'
        ∧ ofSymbolAndSource symbol source row = ofSymbolAndSource symbol source row' := by
    intro row hmem row' hmem' heq
    obtain ⟨quote, _, rfl⟩ := List.mem_map.mp hmem
    obtain ⟨quote', _, rfl⟩ := List.mem_map.mp hmem'
    rw [storedRow_key, storedRow_key] at heq
    simp only [Option.some.injEq, List.cons.injEq, Datum.text.injEq, Datum.instant.injEq,
      and_true] at heq
    obtain ⟨hsymbol, hsource, hinstant⟩ := heq
    refine ⟨hinstant, ?_⟩
    show (decide (Datum.text quote.symbol = _) && decide (Datum.text quote.source = _))
      = (decide (Datum.text quote'.symbol = _) && decide (Datum.text quote'.source = _))
    rw [hsymbol, hsource]
  have hfilter : (quotes.map storedRow).filter (ofSymbolAndSource symbol source)
      = (quotesOf symbol source quotes).map storedRow := by
    rw [List.filter_map]
    congr 1
    refine List.filter_congr (fun quote _ => ?_)
    show (decide (Datum.text quote.symbol = .text symbol)
        && decide (Datum.text quote.source = .text source))
      = (decide (quote.symbol = symbol) && decide (quote.source = source))
    simp only [Datum.text.injEq]
  unfold selectLatest
  rw [htable, newest_filter_gained rowInstant (rowKey quoteBatch) _ _ hkeyed hkey, hfilter,
    newest_map, Option.map_map]
  rfl

/-- A query that is sent from outside a transaction returns what it selects. -/
theorem latestQuote_sent (platform : Platform) {symbol source : Str} {s : PgSession}
    (hconnected : s.connected = true) (hs : s.status = .idle) :
    (latestQuote platform .sent symbol source s).1
      = match selectLatest (cStr symbol) (cStr source) s.committed with
        | none => .ok none
        | some row => (quoteOfResult row).map some := by
  have hread : Session.read (pgServer platform) closedError .sent
      (selectLatest (cStr symbol) (cStr source)) s
      = (.ok (selectLatest (cStr symbol) (cStr source) s.committed), s) := by
    unfold Session.read
    rw [if_neg (by rw [hconnected]; decide), hs]
  unfold latestQuote
  rw [Action.bind_ok hread]
  cases selectLatest (cStr symbol) (cStr source) s.committed with
  | none => rfl
  | some row =>
      simp only
      rw [Action.bind_run, Action.ofExcept_run]
      cases quoteOfResult row with
      | error e => rfl
      | ok quote => rfl

/-- A query that returns has been sent. -/
theorem latestQuote_ok {platform : Platform} {fate : Fate} {symbol source : Str} {s : PgSession}
    {result : Option Domain.Quote}
    (h : (latestQuote platform fate symbol source s).1 = .ok result) :
    s.connected = true ∧ fate = .sent := by
  have hbind := Action.bind_eq_ok (Prod.ext h rfl :
    latestQuote platform fate symbol source s
      = (.ok result, (latestQuote platform fate symbol source s).2))
  obtain ⟨row, t, hread, _⟩ := hbind
  unfold Session.read at hread
  cases hconnected : s.connected with
  | false =>
      rw [if_pos hconnected] at hread
      cases hread
  | true =>
      rw [if_neg (by rw [hconnected]; decide)] at hread
      refine ⟨rfl, ?_⟩
      cases fate with
      | sent => rfl
      | unsent message => cases hread
      | refused message sqlState => cases hread
      | lost message => cases hread
      | unanswered message => cases hread

/-- **`latest_quote` returns the first-committed quote of the newest instant.**
After any run of batches into an empty table in which no ROLLBACK failed and
the second of every committed quote fits, for every symbol and source without a
NUL: a query that is sent returns, and whatever is returned is the quote asked
for. -/
theorem latestQuote_newest {platform : Platform} (h : Gregorian platform) (db : Db)
    (hempty : db .quotes = []) (fate : ℕ → Fate) (calls : List BatchCall) {s : PgSession}
    (hs : s = runBatches platform calls (openSession db fate)) (hrollbacks : RollbacksAccepted s)
    (hfits : ∀ quote ∈ committedQuotes platform calls (openSession db fate),
      SecondFits quote.timestamp)
    (symbol source : Str) (hsymbol : Char.ofNat 0 ∉ symbol) (hsource : Char.ofNat 0 ∉ source) :
    (s.connected = true →
      ∃ result, (latestQuote platform .sent symbol source s).1 = .ok result)
    ∧ ∀ queryFate result, (latestQuote platform queryFate symbol source s).1 = .ok result →
        IsLatest symbol source (committedQuotes platform calls (openSession db fate)) result := by
  set committed := committedQuotes platform calls (openSession db fate) with hcommitted
  have hidle : s.status = .idle := by
    rw [hs] at hrollbacks ⊢
    exact runBatches_idle platform calls (openSession db fate) rfl hrollbacks
  -- a connection that is still open has had every statement answered
  have htable : s.connected = true →
      s.committed .quotes = gained (rowKey quoteBatch) [] (committed.map storedRow) := by
    intro hconnected
    rw [hs] at hconnected hrollbacks ⊢
    exact runBatches_table h calls (openSession db fate) [] rfl hrollbacks
      (runBatches_answered platform calls db fate hconnected) hfits hempty
  -- a query that is sent selects the newest of the stored quotes
  have hresult : s.connected = true → ∃ result,
      (latestQuote platform .sent symbol source s).1 = .ok result
      ∧ IsLatest symbol source committed result := by
    intro hconnected
    rw [latestQuote_sent platform hconnected hidle, cStr_eq_self hsymbol, cStr_eq_self hsource,
      selectLatest_stored symbol source (htable hconnected)]
    rcases newest_spec (fun quote : Domain.Quote => floorMicros quote.timestamp)
      (quotesOf symbol source committed) with ⟨hnone, hnil⟩ | ⟨quote, hfound, hnewest⟩
    · rw [hnone]
      exact ⟨none, rfl, .none hnil⟩
    · have hmem : quote ∈ committed := by
        obtain ⟨before, after, hsplit, _⟩ := hnewest
        have hin : quote ∈ quotesOf symbol source committed := by
          rw [hsplit]
          exact List.mem_append_right _ List.mem_cons_self
        exact (List.mem_filter.mp hin).1
      -- its second fits, so the row reads back as the quote
      obtain ⟨hinstant, hback⟩ := ofMicros_floor (hfits quote hmem)
      have hrow : quoteOfResult ((storedRow quote).map Datum.resultText)
          = .ok { quote with timestamp := ofMicros (floorMicros quote.timestamp) } := by
        unfold storedRow
        rw [← hinstant, quoteOfResult_row, hback, hinstant]
      rw [hfound]
      refine ⟨_, ?_, .found quote hnewest⟩
      show (quoteOfResult _).map some = _
      rw [hrow]
      rfl
  refine ⟨fun hconnected => ?_, fun queryFate result hok => ?_⟩
  · obtain ⟨result, hok, _⟩ := hresult hconnected
    exact ⟨result, hok⟩
  · obtain ⟨hconnected, rfl⟩ := latestQuote_ok hok
    obtain ⟨result', hok', hlatest⟩ := hresult hconnected
    rw [hok] at hok'
    rw [Except.ok.inj hok']
    exact hlatest

/-! ## §6. Quotes before 1970. -/

/-- The calendar and the time-stamp input, as functions. -/
def gregorianPlatform : Platform where
  timestamptz := fun s => some (CivilTime.readInstant s)
  jsonb := some
  utcText := fun time => (CivilTime.ofSeconds? time.toInt).map CivilTime.text

theorem gregorianPlatform_gregorian : Gregorian gregorianPlatform where
  gmtime := by
    intro time htime
    obtain ⟨t, ht, hseconds⟩ := CivilTime.toSeconds_ofSeconds htime
    refine ⟨t, hseconds, ?_⟩
    show (CivilTime.ofSeconds? time.toInt).map CivilTime.text = some t.text
    rw [ht]
    rfl
  timestamptz := by
    intro t us hus
    exact congrArg some (t.readInstant_text hus)

def quoteAt (timestamp : Timestamp) (price : Int64) : Domain.Quote where
  symbol := "IBM".toList
  source := "FEED".toList
  timestamp := timestamp
  price := ⟨price⟩
  openPrice := ⟨1⟩
  high := ⟨2⟩
  low := ⟨0⟩
  volume := ⟨100000000⟩
  changePct := some ⟨-5⟩

/-- Two batches; the second quote of the first microsecond before 1970 is
ignored. -/
theorem latestQuote_newest_beforeEpoch :
    ∃ s, s = runBatches gregorianPlatform
        [.insertQuotes [quoteAt (-1500) 1, quoteAt (-1) 2], .insertQuotes [quoteAt (-999) 3]]
        (openSession (fun _ => []) (fun _ => .sent))
      ∧ ∃ result, (latestQuote gregorianPlatform .sent "IBM".toList "FEED".toList s).1 = .ok result
        ∧ IsLatest "IBM".toList "FEED".toList [quoteAt (-1500) 1, quoteAt (-1) 2, quoteAt (-999) 3]
          result := by
  refine ⟨_, rfl, ?_⟩
  have hcommitted : committedQuotes gregorianPlatform
      [.insertQuotes [quoteAt (-1500) 1, quoteAt (-1) 2], .insertQuotes [quoteAt (-999) 3]]
      (openSession (fun _ => []) (fun _ => .sent))
      = [quoteAt (-1500) 1, quoteAt (-1) 2, quoteAt (-999) 3] := by
    decide +kernel
  obtain ⟨hreturns, hlatest⟩ := latestQuote_newest gregorianPlatform_gregorian
    (fun _ => []) rfl (fun _ => .sent)
    [.insertQuotes [quoteAt (-1500) 1, quoteAt (-1) 2], .insertQuotes [quoteAt (-999) 3]] rfl
    (by decide +kernel) (by rw [hcommitted]; decide) "IBM".toList "FEED".toList (by decide)
    (by decide)
  obtain ⟨result, hresult⟩ := hreturns (by decide +kernel)
  refine ⟨result, hresult, ?_⟩
  rw [← hcommitted]
  exact hlatest .sent result hresult

/-- The first microsecond a time stamp can be. -/
def firstQuote : Domain.Quote := quoteAt (-9223372036854775000) 1

/-- It comes back as an instant of 2262. -/
theorem latestQuote_wraps :
    ofMicros (floorMicros firstQuote.timestamp) = firstQuote.timestamp
    ∧ committedQuotes gregorianPlatform [.insertQuotes [firstQuote]]
        (openSession (fun _ => []) (fun _ => .sent)) = [firstQuote]
    ∧ (latestQuote gregorianPlatform .sent "IBM".toList "FEED".toList
        (runBatches gregorianPlatform [.insertQuotes [firstQuote]]
          (openSession (fun _ => []) (fun _ => .sent)))).1
      = .ok (some (quoteAt 9223372036145225000 1))
    ∧ ¬ IsLatest "IBM".toList "FEED".toList [firstQuote]
        (some (quoteAt 9223372036145225000 1)) := by
  refine ⟨by decide, by decide +kernel, by decide +kernel, ?_⟩
  intro hlatest
  -- what was returned is not the one quote that was stored
  generalize hresult : some (quoteAt 9223372036145225000 1) = result at hlatest
  cases hlatest with
  | none _ => cases hresult
  | found quote hnewest =>
      obtain ⟨before, after, hsplit, _⟩ := hnewest
      have hmem : quote ∈ quotesOf "IBM".toList "FEED".toList [firstQuote] := by
        rw [hsplit]
        exact List.mem_append_right _ List.mem_cons_self
      have hquote : quote = firstQuote := List.mem_singleton.mp (List.mem_filter.mp hmem).1
      have htimestamp := congrArg Domain.Quote.timestamp (Option.some.inj hresult)
      rw [hquote] at htimestamp
      exact absurd htimestamp (by decide)

end FinCore.Storage

/-
  FinCore.Cli.DurableWrites
  ─────────────────────────
  What an acknowledged `persist_quote` leaves in the quotes table.

  The row of a valid quote holds its converted values (`quote_row`).  A call
  that returns has its row in the table unless a row with the same symbol,
  source and instant was there already, which then stays; and no later call
  takes a row away.
-/
import FinCore.Cli.CliServices
import FinCore.Storage.QuoteRow

namespace FinCore.Cli

open FinCore.Cxx FinCore.Sql FinCore.Domain FinCore.Storage
open Action Session

/-! ## §1. One call. -/

section Calls

variable {σ : Type} (platform : Platform) (systemNow : σ → Timestamp × σ)

/-- The conflict key of `symbol`, `source` and an instant. -/
def quoteKey (symbol source : Str) (us : ℤ) : List Datum :=
  [.text symbol, .text source, .instant us]

/-- The call has been acknowledged: `quote` was converted and sent for the
instant `us`, and the table has the row if no row had its key. -/
structure Acknowledged (quote : FinCore.Quote) (w t : σ × PgSession) (record : Domain.Quote)
    (us : ℤ) : Prop where
  converted : ∃ timestamp, (domainTimestamp systemNow quote.timestamp w.1).1 = .ok timestamp
    ∧ domainQuote quote timestamp = .ok record ∧ sentInstant platform timestamp = some us
  /-- A row with the quote's key is there. -/
  present : ∃ row ∈ t.2.committed .quotes,
    rowKey quoteBatch row = some (quoteKey quote.symbol quote.source us)
  /-- It holds the quote's values, unless the key was taken … -/
  first : (∀ row ∈ w.2.visible .quotes,
      rowKey quoteBatch row ≠ some (quoteKey quote.symbol quote.source us)) →
    t.2.committed .quotes = w.2.visible .quotes ++ [quoteRow us record]
  /-- … and then the row that was there is kept. -/
  repeated : (∃ row ∈ w.2.visible .quotes,
      rowKey quoteBatch row = some (quoteKey quote.symbol quote.source us)) →
    t.2.committed .quotes = w.2.visible .quotes

theorem domainQuote_fields {quote : FinCore.Quote} {timestamp : Timestamp} {record : Domain.Quote}
    (h : domainQuote quote timestamp = .ok record) :
    record.symbol = quote.symbol ∧ record.source = quote.source ∧ record.timestamp = timestamp
    ∧ decimalFrom quote.price = .ok record.price ∧ decimalFrom quote.openPrice = .ok record.openPrice
    ∧ decimalFrom quote.high = .ok record.high ∧ decimalFrom quote.low = .ok record.low
    ∧ decimalFromVolume quote.volume = .ok record.volume
    ∧ (decimalFrom quote.changePct).map some = .ok record.changePct := by
  unfold domainQuote at h
  obtain ⟨price, hprice, h⟩ := Action.except_bind_eq_ok.mp h
  obtain ⟨openPrice, hopen, h⟩ := Action.except_bind_eq_ok.mp h
  obtain ⟨high, hhigh, h⟩ := Action.except_bind_eq_ok.mp h
  obtain ⟨low, hlow, h⟩ := Action.except_bind_eq_ok.mp h
  obtain ⟨volume, hvolume, h⟩ := Action.except_bind_eq_ok.mp h
  obtain ⟨changePct, hchange, h⟩ := Action.except_bind_eq_ok.mp h
  obtain rfl := Except.ok.inj h
  exact ⟨rfl, rfl, rfl, hprice, hopen, hhigh, hlow, hvolume, by rw [hchange]; rfl⟩

theorem rowKey_quoteRow (us : ℤ) (record : Domain.Quote) :
    rowKey quoteBatch (quoteRow us record) = some (quoteKey record.symbol record.source us) := rfl

/-- The parts of a call that returns: the instant, the record and the insert. -/
theorem persistQuote_parts {quote : FinCore.Quote} {w t : σ × PgSession} {b : Bool}
    (h : persistQuote platform systemNow quote w = (.ok b, t)) :
    ∃ timestamp record result,
      (domainTimestamp systemNow quote.timestamp w.1).1 = .ok timestamp
      ∧ domainQuote quote timestamp = .ok record
      ∧ (insertQuotes platform [record] w.2) = (.ok result, t.2) := by
  unfold persistQuote at h
  obtain ⟨timestamp, w₁, hclock, hconvert⟩ := Action.bind_eq_ok h
  obtain ⟨record, w₂, hrecord, hstore⟩ := Action.bind_eq_ok hconvert
  obtain ⟨result, w₃, hinsert, hreturn⟩ := Action.bind_eq_ok hstore
  rw [Action.ofExcept_run, Prod.mk.injEq] at hrecord
  obtain ⟨hrecord, rfl⟩ := hrecord
  rw [Action.pure_run, Prod.mk.injEq] at hreturn
  obtain ⟨_, rfl⟩ := hreturn
  unfold onClock Action.zoom at hclock
  rw [Prod.mk.injEq] at hclock
  obtain ⟨htimestamp, rfl⟩ := hclock
  unfold onPostgres Action.zoom at hinsert
  rw [Prod.mk.injEq] at hinsert
  obtain ⟨hresult, rfl⟩ := hinsert
  exact ⟨timestamp, record, result, htimestamp, hrecord, Prod.ext hresult rfl⟩

/-- One record, one statement, one row. -/
theorem insertOne_ok {record : Domain.Quote} {session session' : PgSession}
    {result : InsertSummary}
    (h : insertQuotes platform [record] session = (.ok result, session')) :
    session'.status = .idle ∧ ∃ us, sentInstant platform record.timestamp = some us
      ∧ session'.committed .quotes = session.visible .quotes
        ++ gained (rowKey quoteBatch) (session.visible .quotes) [quoteRow us record] := by
  obtain ⟨hvalid, queries, rows, hqueries, hrows, hcommitted, hidle⟩ :=
    insertBatch_ok platform quoteBatch (List.cons_ne_nil record []) h
  refine ⟨hidle, ?_⟩
  -- one record gives one query, and that one row
  cases hqueries with
  | cons hq hqueries =>
      cases hqueries with
      | nil =>
          cases hrows with
          | cons hrow hrows =>
              cases hrows with
              | nil =>
                  obtain ⟨us, hus, rfl⟩ :=
                    quote_row (hvalid record (List.mem_singleton_self _)) hq hrow
                  refine ⟨us, hus, ?_⟩
                  rw [hcommitted]
                  exact Function.update_self _ _ _

/-- **What a call of `persist_quote` that returns has done.** -/
theorem persistQuote_ok {quote : FinCore.Quote} {w t : σ × PgSession} {b : Bool}
    (h : persistQuote platform systemNow quote w = (.ok b, t)) :
    t.2.status = .idle ∧ ∃ record us, Acknowledged platform systemNow quote w t record us := by
  obtain ⟨timestamp, record, result, htimestamp, hrecord, hinsert⟩ :=
    persistQuote_parts platform systemNow h
  obtain ⟨hidle, us, hus, htable⟩ := insertOne_ok platform hinsert
  obtain ⟨hsymbol, hsource, hstamp, _⟩ := domainQuote_fields hrecord
  have hkey : rowKey quoteBatch (quoteRow us record)
      = some (quoteKey quote.symbol quote.source us) := by
    rw [rowKey_quoteRow, hsymbol, hsource]
  rw [hstamp] at hus
  have hfirst : (∀ row ∈ w.2.visible .quotes,
        rowKey quoteBatch row ≠ some (quoteKey quote.symbol quote.source us)) →
      t.2.committed .quotes = w.2.visible .quotes ++ [quoteRow us record] := by
    intro hnone
    rw [htable, gained_singleton, if_pos ((fresh_iff _ hkey).mpr hnone)]
  have hrepeated : (∃ row ∈ w.2.visible .quotes,
        rowKey quoteBatch row = some (quoteKey quote.symbol quote.source us)) →
      t.2.committed .quotes = w.2.visible .quotes := by
    intro ⟨row, hmem, hrow⟩
    rw [htable, gained_singleton, if_neg, List.append_nil]
    exact fun hfresh => (fresh_iff _ hkey).mp hfresh row hmem hrow
  refine ⟨hidle, record, us, ⟨timestamp, htimestamp, hrecord, hus⟩, ?_, hfirst, hrepeated⟩
  -- the row that has the key is the old one or the new one
  by_cases htaken : ∃ row ∈ w.2.visible .quotes,
      rowKey quoteBatch row = some (quoteKey quote.symbol quote.source us)
  · obtain ⟨row, hmem, hrow⟩ := htaken
    refine ⟨row, ?_, hrow⟩
    rw [hrepeated ⟨row, hmem, hrow⟩]
    exact hmem
  · refine ⟨quoteRow us record, ?_, hkey⟩
    rw [hfirst (fun row hmem hrow => htaken ⟨row, hmem, hrow⟩)]
    exact List.mem_append_right _ (List.mem_singleton_self _)

/-! ## §2. Later calls. -/

/-- Executing an insert only adds rows. -/
theorem pgServer_keeps {table : TableName} {rows : List Row} (q : Prepared) (data data' : Db)
    (n : ℕ) (h : (pgServer platform).exec q data = .ok (data', n)) (hrows : rows <+: data table) :
    rows <+: data' table := by
  unfold pgServer at h
  dsimp only at h
  cases hr : q.row platform with
  | none =>
      rw [hr] at h
      cases h
  | some row =>
      rw [hr] at h
      injection h with h
      rw [Prod.mk.injEq] at h
      rw [← h.1]
      by_cases htable : table = q.statement.table
      · subst htable
        rw [Function.update_self]
        unfold insertDoNothing
        split
        · exact hrows.trans (List.prefix_append _ _)
        · exact hrows
      · rw [Function.update_of_ne htable]
        exact hrows

/-- Rows that are everywhere stay everywhere. -/
theorem persistQuote_keepsRows (rows : List Row) (quote : FinCore.Quote) :
    Within (Preserves (fun w : σ × PgSession => Everywhere (fun db => rows <+: db .quotes) w.2))
      (persistQuote platform systemNow quote) := by
  have hissue := Everywhere.issue (P := fun db : Db => rows <+: db .quotes)
    (pgServer_keeps platform)
  refine Within.bind (fun _ h => h) (fun timestamp => ?_)
  refine Within.bind (Within.ofExcept _) (fun record => ?_)
  refine Within.bind (fun w h => ?_) (fun result => Within.pure _)
  exact insertBatch_within platform quoteBatch hissue [record] w.2 h

/-- A sequence of calls; the caller may catch what they throw. -/
def runPersists : List FinCore.Quote → σ × PgSession → σ × PgSession
  | [], w => w
  | quote :: rest, w => runPersists rest (persistQuote platform systemNow quote w).2

theorem runPersists_keepsRows (rows : List Row) (quotes : List FinCore.Quote) :
    ∀ w : σ × PgSession, Everywhere (fun db => rows <+: db .quotes) w.2 →
      Everywhere (fun db => rows <+: db .quotes) (runPersists platform systemNow quotes w).2 := by
  induction quotes with
  | nil => exact fun w h => h
  | cons quote rest ih =>
      exact fun w h => ih _ (persistQuote_keepsRows platform systemNow rows quote w h)

/-- **An acknowledged quote is durable.**  After any sequence of calls on any
session, a `persist_quote` that returns true has left a row with the quote's
symbol, source and instant; it holds the quote's converted values unless such a
row was there before, and no later call changes or removes it. -/
theorem persistQuote_durable (w₀ : σ × PgSession) (earlier later : List FinCore.Quote)
    (quote : FinCore.Quote) {t : σ × PgSession}
    (h : persistQuote platform systemNow quote (runPersists platform systemNow earlier w₀)
      = (.ok true, t)) :
    (∃ record us, Acknowledged platform systemNow quote
      (runPersists platform systemNow earlier w₀) t record us)
    ∧ t.2.committed .quotes <+: (runPersists platform systemNow later t).2.committed .quotes := by
  obtain ⟨hidle, hacknowledged⟩ := persistQuote_ok platform systemNow h
  refine ⟨hacknowledged, ?_⟩
  have heverywhere : Everywhere (fun db => t.2.committed .quotes <+: db .quotes) t.2 := by
    refine ⟨List.prefix_rfl, fun working hworking => ?_⟩
    rw [hidle] at hworking
    cases hworking
  exact (runPersists_keepsRows platform systemNow _ later t heverywhere).committed

end Calls

/-! ## §3. Two quotes of one instant. -/

/-- A calendar and a server for the first microsecond after the epoch. -/
def firstMicrosecond : Platform where
  timestamptz := fun _ => some 1
  jsonb := some
  utcText := fun _ => some "1970-01-01T00:00:00".toList

/-- A fresh connection over an empty database, all of whose statements arrive;
the wall clock is not read. -/
def freshConnection : Unit × PgSession := ((), openSession (fun _ => []) (fun _ => .sent))

def noClock : Unit → Timestamp × Unit := fun _ => (0, ())

def ibmAt (price : ℚ) : FinCore.Quote :=
  { symbol := "IBM".toList, price := .finite price, timestamp := 1 }

theorem persistQuote_durable_ibm :
    (∃ record us, Acknowledged firstMicrosecond noClock (ibmAt 100) freshConnection
      (persistQuote firstMicrosecond noClock (ibmAt 100) freshConnection).2 record us)
    ∧ (persistQuote firstMicrosecond noClock (ibmAt 100) freshConnection).2.2.committed .quotes
      <+: (runPersists firstMicrosecond noClock [ibmAt 101]
        (persistQuote firstMicrosecond noClock (ibmAt 100) freshConnection).2).2.committed .quotes := by
  have hreturns : (persistQuote firstMicrosecond noClock (ibmAt 100) freshConnection).1
      = .ok true := by
    decide +kernel
  exact persistQuote_durable firstMicrosecond noClock freshConnection [] [ibmAt 101] (ibmAt 100)
    (Prod.ext hreturns rfl)

/-- The second quote of an instant is acknowledged and its values are nowhere:
no row of its symbol and source has its price. -/
theorem persistQuote_ignores_second :
    ¬ (∀ (earlier : List FinCore.Quote) (quote : FinCore.Quote) (t : Unit × PgSession),
        persistQuote firstMicrosecond noClock quote
            (runPersists firstMicrosecond noClock earlier freshConnection) = (.ok true, t) →
          ∃ us timestamp record, domainQuote quote timestamp = .ok record
            ∧ quoteRow us record ∈ t.2.committed .quotes) := by
  intro hall
  have hreturns : (persistQuote firstMicrosecond noClock (ibmAt 101)
      (runPersists firstMicrosecond noClock [ibmAt 100] freshConnection)).1 = .ok true := by
    decide +kernel
  obtain ⟨us, timestamp, record, hrecord, hmem⟩ := hall [ibmAt 100] (ibmAt 101) _
    (Prod.ext hreturns rfl)
  -- the table still holds the first quote only
  have hprices : ((persistQuote firstMicrosecond noClock (ibmAt 101)
      (runPersists firstMicrosecond noClock [ibmAt 100] freshConnection)).2.2.committed
        .quotes).map (fun row => row.getD 3 .null) = [.number 100] := by
    decide +kernel
  have hprice := List.mem_map_of_mem (f := fun row : Row => row.getD 3 .null) hmem
  rw [hprices, List.mem_singleton] at hprice
  have hconverted := (domainQuote_fields hrecord).2.2.2.1
  have hexpected : decimalFrom (ibmAt 101).price = .ok ⟨10100000000⟩ := by
    decide +kernel
  rw [hexpected] at hconverted
  have hrat : record.price.toRat = 101 := by
    rw [← Except.ok.inj hconverted]
    decide +kernel
  have hnumber : Datum.number record.price.toRat = .number 100 := hprice
  rw [hrat] at hnumber
  exact absurd hnumber (by decide +kernel)

end FinCore.Cli

/-
  FinCore.Storage.QuoteRow
  ────────────────────────
  The row that an inserted quote becomes.

  Decimals reach their columns exactly, validated identifiers pass libpq whole,
  and the time stamp becomes the instant the server reads it as; so the row of
  a valid quote holds the quote (`quote_row`).
-/
import FinCore.Domain.DecimalCodec
import FinCore.Domain.Validation
import FinCore.Storage.BatchInsert

namespace FinCore.Storage

open FinCore.Cxx FinCore.Sql FinCore.Domain
open Action Session

/-- A text without NUL passes libpq whole. -/
theorem cStr_eq_self {s : Str} (h : Char.ofNat 0 ∉ s) : cStr s = s := by
  unfold cStr
  rw [List.takeWhile_eq_self_iff]
  intro c hc
  refine decide_eq_true ?_
  intro hzero
  exact h (hzero ▸ hc)

theorem digits_no_nul {s : Str} (h : IsDigits s) : Char.ofNat 0 ∉ s := by
  intro hmem
  exact absurd (h _ hmem) (by decide)

theorem literal_no_nul (l : DecimalLiteral) : Char.ofNat 0 ∉ l.text := by
  have hsign : Char.ofNat 0 ∉ l.sign.text := by
    cases l.sign <;> decide
  have hfraction : Char.ofNat 0 ∉ DecimalLiteral.fractionText l.fraction := by
    have h := digits_no_nul l.fraction_digits
    cases hf : l.fraction with
    | nil => exact List.not_mem_nil
    | cons c f =>
        rw [hf] at h
        exact List.not_mem_cons_of_ne_of_not_mem (by decide) h
  unfold DecimalLiteral.text
  rw [List.mem_append, List.mem_append]
  intro hmem
  rcases hmem with hmem | hmem | hmem
  · exact hsign hmem
  · exact digits_no_nul l.whole_digits hmem
  · exact hfraction hmem

/-- What passes the identifier rules has no NUL. -/
theorem identifier_no_nul {value extra : Str} (hextra : Char.ofNat 0 ∉ extra)
    (h : isUpperIdentifier value extra = true) : Char.ofNat 0 ∉ value := by
  unfold isUpperIdentifier at h
  rw [Bool.and_eq_true, List.all_eq_true] at h
  intro hmem
  have hchar := h.2 _ hmem
  have hupper : (Char.ofNat 0).isUpper = false := by decide
  have hdigit : (Char.ofNat 0).isDigit = false := by decide
  rw [hupper, hdigit, Bool.false_or, Bool.false_or, List.contains_iff_mem] at hchar
  exact hextra hchar

theorem identified_no_nul {symbol source : Str} (h : Identified symbol source) :
    Char.ofNat 0 ∉ symbol ∧ Char.ofNat 0 ∉ source :=
  ⟨identifier_no_nul (by decide) h.symbol_upper, identifier_no_nul (by decide) h.source_upper⟩

/-- The row that holds a domain quote at the instant `us`. -/
def quoteRow (us : ℤ) (quote : Domain.Quote) : Row :=
  [.text quote.symbol, .text quote.source, .instant us, .number quote.price.toRat,
    .number quote.openPrice.toRat, .number quote.high.toRat, .number quote.low.toRat,
    .number quote.volume.toRat,
    match quote.changePct with
    | none => .null
    | some changePct => .number changePct.toRat]

/-- The instant, in microseconds, that the server reads a time stamp as. -/
def sentInstant (platform : Platform) (timestamp : Timestamp) : Option ℤ :=
  match timestampToUtcText platform timestamp with
  | .ok text => platform.timestamptz (cStr text)
  | .error _ => none

theorem sentInstant_eq_some_iff {platform : Platform} {timestamp : Timestamp} {us : ℤ} :
    sentInstant platform timestamp = some us ↔
      ∃ text, timestampToUtcText platform timestamp = .ok text
        ∧ platform.timestamptz (cStr text) = some us := by
  unfold sentInstant
  cases timestampToUtcText platform timestamp with
  | error e => simp
  | ok text => simp

/-- The record is sent as the row. -/
def Sends {R : Type} (platform : Platform) (kind : BatchKind R) (record : R) (row : Row) : Prop :=
  ∃ q, preparedOf platform kind record = .ok q ∧ q.row platform = some row

theorem Sends.unique {R : Type} {platform : Platform} {kind : BatchKind R} {record : R}
    {row row' : Row} (h : Sends platform kind record row) (h' : Sends platform kind record row') :
    row = row' := by
  obtain ⟨q, hq, hrow⟩ := h
  obtain ⟨q', hq', hrow'⟩ := h'
  rw [hq] at hq'
  rw [← Except.ok.inj hq', hrow] at hrow'
  exact Option.some.inj hrow'

/-- A parameter becomes a column. -/
abbrev Becomes (platform : Platform) (column : Cast × Option Str) (datum : Datum) : Prop :=
  column.1.apply platform column.2 = some datum

theorem Sends.of_columns {R : Type} {platform : Platform} {kind : BatchKind R} {record : R}
    {parameters : List (Option Str)} {row : Row}
    (hparameters : kind.parameters platform record = .ok parameters)
    (hrow : List.Forall₂ (Becomes platform)
      (kind.statement.casts.zip (parameters.map (Option.map cStr))) row) :
    Sends platform kind record row := by
  refine ⟨⟨kind.statement, parameters.map (Option.map cStr)⟩, ?_, mapM_eq_some_iff.mpr hrow⟩
  unfold preparedOf
  rw [hparameters]
  rfl

theorem text_becomes (platform : Platform) {s : Str} (h : Char.ofNat 0 ∉ s) :
    Becomes platform (.text, some (cStr s)) (.text s) := by
  rw [cStr_eq_self h]
  rfl

theorem timestamptz_becomes {platform : Platform} {text : Str} {us : ℤ}
    (h : platform.timestamptz (cStr text) = some us) :
    Becomes platform (.timestamptz, some (cStr text)) (.instant us) := by
  show (platform.timestamptz (cStr text)).map _ = _
  rw [h]
  rfl

/-- A decimal reaches its column exactly. -/
theorem numeric_becomes (platform : Platform) (d : Decimal) :
    Becomes platform (.numeric, some (cStr d.toString)) (.number d.toRat) := by
  rw [Decimal.toString_eq_text, cStr_eq_self (literal_no_nul _)]
  show (DecimalLiteral.parse? _).map _ = _
  rw [DecimalLiteral.parse?_text, Option.map_some, Decimal.value_of_printed]

/-- A column of a number that may be absent. -/
def optionalNumber : Option Decimal → Datum
  | none => .null
  | some d => .number d.toRat

theorem optionalNumber_becomes (platform : Platform) (d : Option Decimal) :
    Becomes platform (.numeric, (d.map Decimal.toString).map cStr) (optionalNumber d) := by
  cases d with
  | none => rfl
  | some d => exact numeric_becomes platform d

/-- **A valid quote is sent as the row that holds it.** -/
theorem quote_sends {platform : Platform} {quote : Domain.Quote} {us : ℤ}
    (hvalid : quote.validate = .ok ()) (hus : sentInstant platform quote.timestamp = some us) :
    Sends platform quoteBatch quote (quoteRow us quote) := by
  obtain ⟨hsymbol, hsource⟩ := identified_no_nul (Quote.validate_iff.mp hvalid).identified
  obtain ⟨text, htime, hinstant⟩ := sentInstant_eq_some_iff.mp hus
  have hparameters : quoteBatch.parameters platform quote = .ok [some quote.symbol,
      some quote.source, some text, some quote.price.toString, some quote.openPrice.toString,
      some quote.high.toString, some quote.low.toString, some quote.volume.toString,
      quote.changePct.map Decimal.toString] := by
    show timestampToUtcText platform quote.timestamp >>= _ = _
    rw [htime]
    rfl
  exact Sends.of_columns hparameters
    (.cons (text_becomes platform hsymbol) (.cons (text_becomes platform hsource)
      (.cons (timestamptz_becomes hinstant) (.cons (numeric_becomes platform _)
      (.cons (numeric_becomes platform _) (.cons (numeric_becomes platform _)
      (.cons (numeric_becomes platform _) (.cons (numeric_becomes platform _)
      (.cons (optionalNumber_becomes platform _) .nil)))))))))

/-- **The row of a valid quote holds the quote.** -/
theorem quote_row {platform : Platform} {quote : Domain.Quote} {q : Prepared} {row : Row}
    (hvalid : quote.validate = .ok ()) (hq : preparedOf platform quoteBatch quote = .ok q)
    (hrow : q.row platform = some row) :
    ∃ us, sentInstant platform quote.timestamp = some us ∧ row = quoteRow us quote := by
  cases htime : timestampToUtcText platform quote.timestamp with
  | error e =>
      have hthrow : preparedOf platform quoteBatch quote = .error e := by
        show (timestampToUtcText platform quote.timestamp >>= _).map _ = _
        rw [htime]
        rfl
      rw [hthrow] at hq
      cases hq
  | ok text =>
      -- the cast of the third column is what gives the row its instant
      have hcolumn : Cast.timestamptz.apply platform (some (cStr text))
          = some (row.getD 2 .null) := by
        have hprepared := hq
        change (timestampToUtcText platform quote.timestamp >>= _).map _ = _ at hprepared
        rw [htime] at hprepared
        rw [← Except.ok.inj hprepared] at hrow
        exact Prepared.row_column hrow (i := 2) rfl rfl
      cases hinstant : platform.timestamptz (cStr text) with
      | none =>
          simp only [Cast.apply, hinstant] at hcolumn
          cases hcolumn
      | some us =>
          have hus := sentInstant_eq_some_iff.mpr ⟨text, htime, hinstant⟩
          exact ⟨us, hus, Sends.unique ⟨q, hq, hrow⟩ (quote_sends hvalid hus)⟩

end FinCore.Storage

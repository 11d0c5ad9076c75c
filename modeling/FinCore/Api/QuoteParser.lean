/-
  FinCore.Api.QuoteParser
  ───────────────────────
  `AlphaVantageClient::parse_quote` and its JSON field helpers.

  A field is found by searching the text for its name together with the quotes
  and the space around it; the value ends at the next double quote.  The four
  prices are required, the rest falls back to a default.
-/
import FinCore.Core.Types
import FinCore.Cxx.Convert

namespace FinCore.Api

open FinCore.Cxx

/-- What follows the first occurrence of `key`. -/
def afterFirst (key : Str) : Str → Option Str
  | [] => if key = [] then some [] else none
  | c :: s => if key <+: c :: s then some ((c :: s).drop key.length) else afterFirst key s

/-- `extract_string`: the text between `key` and the next double quote. -/
def extractString (json key : Str) : Option Str := do
  let rest ← afterFirst key json
  if '"' ∈ rest then some (rest.takeWhile (· ≠ '"')) else none

/-- `extract_double`. -/
def extractDouble (json key : Str) : Option Double := do
  let raw ← extractString json key
  (stod raw).toOption

/-- `system_clock::from_time_t`, in microseconds: the seconds become
nanoseconds in an `int64` first. -/
def fromTimeT (t : Int64) : TimePoint :=
  Int64.ofInt ((Int64.ofInt (t.toInt * 10 ^ 9)).toInt.tdiv (10 ^ 3))

/-- The `"07. latest trading day"` field.  Only a number for `tm_year` is read
from the date; `mktime` is the C library's, on a `tm` that is zero but for that
field, in the process's time zone. -/
def parseTradingDay (mktime : ℤ → Int64) (date : Str) : Option TimePoint :=
  (extractInt date).map (fun tmYear => fromTimeT (mktime tmYear))

/-- `static_cast<Volume>(std::stoll(text))`, zero if that throws. -/
def parseVolume (text : Str) : Volume :=
  match stoll text with
  | .ok v => v.toUInt64
  | .error _ => 0

/-- `std::stod` without a final percent sign, zero if that throws. -/
def parsePercent (text : Str) : Double :=
  -- `pop_back` of one percent sign
  let number := if text.getLast? = some '%' then text.dropLast else text
  match stod number with
  | .ok x => x
  | .error _ => .finite 0

/-- `parse_quote`. -/
def parseQuote (mktime : ℤ → Int64) (json : Str) (symbol : Symbol) : Option Quote := do
  let price ← extractDouble json "\"05. price\": \"".toList
  let openPrice ← extractDouble json "\"02. open\": \"".toList
  let high ← extractDouble json "\"03. high\": \"".toList
  let low ← extractDouble json "\"04. low\": \"".toList
  -- the fields up to here are required, the others have defaults
  let volume := (extractString json "\"06. volume\": \"".toList).map parseVolume
  let changePct := (extractString json "\"10. change percent\": \"".toList).map parsePercent
  let timestamp := (extractString json "\"07. latest trading day\": \"".toList).bind
    (parseTradingDay mktime)
  return { symbol := symbol, price := price, openPrice := openPrice, high := high, low := low
           volume := volume.getD 0, changePct := changePct.getD (.finite 0)
           timestamp := timestamp.getD 0 }

/-! What a parsed quote is made of. -/

section Fields

variable {mktime : ℤ → Int64} {json : Str} {symbol : Symbol}

/-- Every field of a parsed quote, by the text it comes from. -/
theorem parseQuote_fields {q : Quote} (h : parseQuote mktime json symbol = some q) :
    extractDouble json "\"05. price\": \"".toList = some q.price
    ∧ extractDouble json "\"02. open\": \"".toList = some q.openPrice
    ∧ extractDouble json "\"03. high\": \"".toList = some q.high
    ∧ extractDouble json "\"04. low\": \"".toList = some q.low
    ∧ q.symbol = symbol
    ∧ q.volume = ((extractString json "\"06. volume\": \"".toList).map parseVolume).getD 0
    ∧ q.changePct = ((extractString json "\"10. change percent\": \"".toList).map
        parsePercent).getD (.finite 0)
    ∧ q.timestamp = ((extractString json "\"07. latest trading day\": \"".toList).bind
        (parseTradingDay mktime)).getD 0 := by
  simp only [parseQuote, Option.bind_eq_bind, Option.bind_eq_some_iff, Option.pure_def,
    Option.some.injEq] at h
  obtain ⟨price, hprice, openPrice, hopen, high, hhigh, low, hlow, rfl⟩ := h
  exact ⟨hprice, hopen, hhigh, hlow, rfl, rfl, rfl, rfl⟩

/-- The searches of the four prices. -/
def priceKeys : List Str :=
  ["\"05. price\": \"".toList, "\"02. open\": \"".toList, "\"03. high\": \"".toList,
    "\"04. low\": \"".toList]

/-- The four prices alone decide whether there is a quote. -/
theorem parseQuote_eq_none_iff :
    parseQuote mktime json symbol = none ↔ ∃ key ∈ priceKeys, extractDouble json key = none := by
  unfold parseQuote priceKeys
  simp only [List.exists_mem_cons_iff, List.not_mem_nil, false_and, exists_false, or_false]
  generalize extractDouble json "\"05. price\": \"".toList = price
  generalize extractDouble json "\"02. open\": \"".toList = openPrice
  generalize extractDouble json "\"03. high\": \"".toList = high
  generalize extractDouble json "\"04. low\": \"".toList = low
  -- read one after the other, the first that fails ends it
  cases price with
  | none => exact iff_of_true rfl (Or.inl rfl)
  | some _ =>
      cases openPrice with
      | none => exact iff_of_true rfl (Or.inr (Or.inl rfl))
      | some _ =>
          cases high with
          | none => exact iff_of_true rfl (Or.inr (Or.inr (Or.inl rfl)))
          | some _ =>
              cases low with
              | none => exact iff_of_true rfl (Or.inr (Or.inr (Or.inr rfl)))
              | some _ =>
                  refine iff_of_false (Option.some_ne_none _) ?_
                  rintro (h | h | h | h) <;> cases h

theorem parseQuote_exists (h : ∀ key ∈ priceKeys, extractDouble json key ≠ none) :
    ∃ q, parseQuote mktime json symbol = some q := by
  refine Option.ne_none_iff_exists'.mp ?_
  intro hnone
  obtain ⟨key, hkey, hmissing⟩ := parseQuote_eq_none_iff.mp hnone
  exact h key hkey hmissing

end Fields

end FinCore.Api

/-
  FinCore.Api.TradingDay
  ──────────────────────
  The timestamp `parse_quote` makes of a trading day.

  Of `YYYY-MM-DD` only the leading number reaches the `tm`, and it is stored as
  it stands, where `tm_year` counts from 1900; month and day stay zero, so
  `mktime` answers with the last day of the year before, nineteen centuries
  late.  In nanoseconds that is more than 64 bits hold, three or four times
  over, and what is left is not the midnight of any day.
-/
import FinCore.Api.QuoteParser
import FinCore.Cxx.Calendar
import FinCore.Cxx.ReadBack

namespace FinCore.Api

open FinCore.Cxx

/-! ## §1. `mktime` in UTC. -/

/-- The days from 1 January of the year 1 to 1 January of `year`. -/
def daysBeforeJanuary (year : ℤ) : ℤ :=
  365 * (year - 1) + (year - 1) / 4 - (year - 1) / 100 + (year - 1) / 400

/-- `mktime` with `TZ=UTC` on a `tm` that is zero but for its year: the day zero
of January is the day before the first. -/
def utcMktime (tmYear : ℤ) : Int64 :=
  Int64.ofInt ((daysBeforeJanuary (1900 + tmYear) - 719162 - 1) * 86400)

/-- The calendar's own count. -/
theorem daysBeforeJanuary_eq {year : ℕ} (h : 1 ≤ year) :
    daysBeforeJanuary year - 719162 = (dayNumber year 1 1 : ℤ) - epochDay := by
  have hmonth : daysBeforeMonth (1 + 9) = 306 := by decide
  unfold daysBeforeJanuary dayNumber daysBeforeYear epochDay
  rw [if_pos (by decide), hmonth]
  omega

/-- A date `YYYY-MM-DD` whose midnight has a place in 64 bits of nanoseconds. -/
structure TradingDay where
  year : ℕ
  month : ℕ
  day : ℕ
  year_range : 1970 ≤ year ∧ year ≤ 2261
  month_range : 1 ≤ month ∧ month ≤ 12
  day_range : 1 ≤ day ∧ day ≤ daysInMonth year month

namespace TradingDay

def text (d : TradingDay) : Str :=
  toStringNat d.year ++ '-' :: padZero 2 (toStringNat d.month)
    ++ '-' :: padZero 2 (toStringNat d.day)

/-- Midnight UTC of the date, in microseconds since the epoch. -/
def midnight (d : TradingDay) : ℤ := secondsSinceEpoch d.year d.month d.day 0 0 0 * 10 ^ 6

/-- The stream reads the year and stops at the dash. -/
theorem extractInt_text (d : TradingDay) : extractInt d.text = some (d.year : ℤ) := by
  have hyear := toStringNat_isDigits d.year
  have hne := toStringNat_ne_nil d.year
  have htext : ∃ rest, d.text = toStringNat d.year ++ '-' :: rest := by
    refine ⟨padZero 2 (toStringNat d.month) ++ '-' :: padZero 2 (toStringNat d.day), ?_⟩
    rw [text, List.append_assoc]
    rfl
  obtain ⟨rest, htext⟩ := htext
  -- the digits of the year end at the hyphen
  have hspan := (DecimalLiteral.span_digits (r := '-' :: rest) hyear rfl).1
  obtain ⟨c, s, hcons⟩ := List.exists_cons_of_ne_nil hne
  have hc : c.isDigit = true := hyear c (by simp [hcons])
  have hspace : (toStringNat d.year ++ '-' :: rest).dropWhile isSpace
      = toStringNat d.year ++ '-' :: rest := by
    rw [hcons]
    exact (span_isSpace .none (s ++ '-' :: rest) hc).1
  have hsplit : Sign.split (toStringNat d.year ++ '-' :: rest)
      = (.none, toStringNat d.year ++ '-' :: rest) := by
    rw [hcons]
    exact Sign.split_text_digit .none hc
  have hscan : (scanInteger d.text).digits = toStringNat d.year
      ∧ (scanInteger d.text).value = d.year := by
    unfold scanInteger IntegerScan.value
    rw [htext, hspace, hsplit]
    simp only [hspan, digitsValue_toStringNat]
    exact ⟨trivial, rfl⟩
  have hrange := d.year_range
  unfold extractInt
  simp only [hscan.1, hscan.2]
  rw [if_pos ⟨hne, by omega, by omega⟩]

end TradingDay

/-! ## §2. Through 64 bits. -/

/-- The seconds of the date `mktime` sees. -/
theorem utcMktime_toInt {year : ℕ} (h : 1970 ≤ year ∧ year ≤ 2261) :
    (utcMktime year).toInt = ((dayNumber (1900 + year) 1 1 : ℤ) - epochDay - 1) * 86400 := by
  have hdays := daysBeforeJanuary_eq (show 1 ≤ 1900 + year by omega)
  push_cast at hdays
  unfold utcMktime
  rw [hdays, Int64.toInt_ofInt_of_le]
  · unfold dayNumber daysBeforeYear epochDay
    rw [if_pos (by decide)]
    omega
  · unfold dayNumber daysBeforeYear daysBeforeMonth epochDay
    rw [if_pos (by decide)]
    omega

/-- What a 64-bit word keeps of a number. -/
theorem bmod_spec (x : ℤ) : ∃ k, x = Int.bmod x (2 ^ 64) + k * 2 ^ 64
    ∧ -2 ^ 63 ≤ Int.bmod x (2 ^ 64) ∧ Int.bmod x (2 ^ 64) < 2 ^ 63 := by
  have hwrap := Int.bmod_add_bdiv x (2 ^ 64)
  have hmin := Int.le_bmod (x := x) (m := 2 ^ 64) (by norm_num)
  have hmax := Int.bmod_lt (x := x) (m := 2 ^ 64) (by norm_num)
  exact ⟨Int.bdiv x (2 ^ 64), by omega, by omega, by omega⟩

/-- From nanoseconds to microseconds less than one is cut off. -/
theorem tdiv_spec (w : ℤ) : ∃ r, w = w.tdiv (10 ^ 3) * 10 ^ 3 + r ∧ -10 ^ 3 < r ∧ r < 10 ^ 3 := by
  have hrem := Int.tmod_add_tdiv_mul w (10 ^ 3)
  have hlow := Int.lt_tmod_of_pos w (by norm_num : (0 : ℤ) < 10 ^ 3)
  have hhigh := Int.tmod_lt_of_pos w (by norm_num : (0 : ℤ) < 10 ^ 3)
  exact ⟨w.tmod (10 ^ 3), by omega, hlow, hhigh⟩

/-- `from_time_t` without the words in between. -/
theorem fromTimeT_toInt (t : Int64) :
    (fromTimeT t).toInt = (Int.bmod (t.toInt * 10 ^ 9) (2 ^ 64)).tdiv (10 ^ 3) := by
  have hwrap : (Int64.ofInt (t.toInt * 10 ^ 9)).toInt = Int.bmod (t.toInt * 10 ^ 9) (2 ^ 64) :=
    Int64.toInt_ofInt
  obtain ⟨_, _, hmin, hmax⟩ := bmod_spec (t.toInt * 10 ^ 9)
  obtain ⟨r, hr, hlow, hhigh⟩ := tdiv_spec (Int.bmod (t.toInt * 10 ^ 9) (2 ^ 64))
  unfold fromTimeT
  rw [hwrap]
  exact Int64.toInt_ofInt_of_le (by omega) (by omega)

/-- Three or four times `2 ^ 64` nanoseconds are not within a microsecond of a
whole number of days. -/
theorem wrap_ne_days {x k r : ℤ} (h : 86400 * 10 ^ 9 * x = k * 2 ^ 64 + r) (hk : k = 3 ∨ k = 4)
    (hlow : -10 ^ 3 < r) (hhigh : r < 10 ^ 3) : False := by
  rcases hk with hk | hk
  · rw [hk] at h
    omega
  · rw [hk] at h
    omega

/-- So no midnight is left of a date in the years 3870 to 4161. -/
theorem wrapped_ne_midnight {days d : ℤ} (hlow : 693595 ≤ days) (hhigh : days ≤ 800612) :
    (Int.bmod (days * 86400 * 10 ^ 9) (2 ^ 64)).tdiv (10 ^ 3) ≠ d * 86400 * 10 ^ 6 := by
  intro h
  obtain ⟨k, hk, hmin, hmax⟩ := bmod_spec (days * 86400 * 10 ^ 9)
  obtain ⟨r, hr, hrlow, hrhigh⟩ := tdiv_spec (Int.bmod (days * 86400 * 10 ^ 9) (2 ^ 64))
  rw [h] at hr
  generalize Int.bmod (days * 86400 * 10 ^ 9) (2 ^ 64) = w at hk hmin hmax hr
  have hthree : 2 < k := by
    by_contra hle
    rw [not_lt] at hle
    linarith
  have hfour : k < 5 := by
    by_contra hle
    rw [not_lt] at hle
    linarith
  have hcount : k = 3 ∨ k = 4 := by
    clear * - hthree hfour
    omega
  have hdays : 86400 * 10 ^ 9 * (days - d) = k * 2 ^ 64 + r := by linarith
  exact wrap_ne_days hdays hcount hrlow hrhigh

/-! ## §3. Every date is missed. -/

def dateKey : Str := "\"07. latest trading day\": \"".toList

/-- The year alone decides the timestamp. -/
theorem parseQuote_timestamp {json : Str} {symbol : Symbol} {q : Quote} {d : TradingDay}
    (hq : parseQuote utcMktime json symbol = some q)
    (hdate : extractString json dateKey = some d.text) :
    q.timestamp = fromTimeT (utcMktime d.year) := by
  obtain ⟨_, _, _, _, _, _, _, hstamp⟩ := parseQuote_fields hq
  have hkey : extractString json "\"07. latest trading day\": \"".toList = some d.text := hdate
  rw [hstamp, hkey, Option.bind_some, parseTradingDay, d.extractInt_text]
  rfl

theorem fromTimeT_ne_midnight (d : TradingDay) :
    (fromTimeT (utcMktime d.year)).toInt ≠ d.midnight := by
  have hseconds := utcMktime_toInt d.year_range
  have hrange := d.year_range
  have hdays : 693595 ≤ (dayNumber (1900 + d.year) 1 1 : ℤ) - epochDay - 1
      ∧ (dayNumber (1900 + d.year) 1 1 : ℤ) - epochDay - 1 ≤ 800612 := by
    unfold dayNumber daysBeforeYear daysBeforeMonth epochDay
    rw [if_pos (by decide)]
    omega
  have hmissed := wrapped_ne_midnight (d := (dayNumber d.year d.month d.day : ℤ) - epochDay)
    hdays.1 hdays.2
  rw [fromTimeT_toInt, hseconds]
  intro h
  refine hmissed (h.trans ?_)
  unfold TradingDay.midnight secondsSinceEpoch
  ring

/-- **No trading day gets its midnight**, and the days of one year share a
timestamp. -/
theorem parseQuote_never_midnight {json : Str} {symbol : Symbol} {q : Quote} {d : TradingDay}
    (hq : parseQuote utcMktime json symbol = some q)
    (hdate : extractString json dateKey = some d.text) :
    q.timestamp.toInt ≠ d.midnight
    ∧ ∀ (json' : Str) (symbol' : Symbol) (q' : Quote) (d' : TradingDay),
        parseQuote utcMktime json' symbol' = some q' →
        extractString json' dateKey = some d'.text → d'.year = d.year →
        q'.timestamp = q.timestamp := by
  have hstamp := parseQuote_timestamp hq hdate
  constructor
  · rw [hstamp]
    exact fromTimeT_ne_midnight d
  · intro json' symbol' q' d' hq' hdate' hyear
    rw [parseQuote_timestamp hq' hdate', hstamp, hyear]

/-- A response for IBM with the given trading day. -/
def responseOn (d : TradingDay) : Str :=
  "\x7b \"Global Quote\": \x7b \"02. open\": \"100.25\", \"03. high\": \"105.75\", ".toList
    ++ "\"04. low\": \"99.50\", \"05. price\": \"104.50\", ".toList
    ++ dateKey ++ d.text ++ "\" \x7d \x7d".toList

def tuesday : TradingDay := ⟨2026, 7, 14, by decide, by decide, by decide⟩

def wednesday : TradingDay := ⟨2026, 7, 15, by decide, by decide, by decide⟩

theorem tuesday_not_midnight :
    ∃ q, parseQuote utcMktime (responseOn tuesday) "IBM".toList = some q
      ∧ q.timestamp.toInt ≠ tuesday.midnight := by
  obtain ⟨q, hq⟩ : ∃ q, parseQuote utcMktime (responseOn tuesday) "IBM".toList = some q :=
    Option.isSome_iff_exists.mp (by decide +kernel)
  exact ⟨q, hq, (parseQuote_never_midnight hq (d := tuesday) (by decide +kernel)).1⟩

/-- Tuesday and Wednesday get one timestamp, and it is not Tuesday's midnight. -/
theorem tuesday_wednesday_collide :
    (parseQuote utcMktime (responseOn tuesday) "IBM".toList).map Quote.timestamp
      = some 6385050978871345
    ∧ (parseQuote utcMktime (responseOn wednesday) "IBM".toList).map Quote.timestamp
      = some 6385050978871345
    ∧ tuesday.midnight = 1783987200000000
    ∧ wednesday.midnight = 1784073600000000 := by
  refine ⟨by decide +kernel, by decide +kernel, by decide +kernel, by decide +kernel⟩

end FinCore.Api

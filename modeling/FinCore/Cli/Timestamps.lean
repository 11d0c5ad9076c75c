/-
  FinCore.Cli.Timestamps
  ──────────────────────
  `parse_timestamp` and `format_timestamp` of the PostgreSQL command line.

  A timestamp is an `int64` of nanoseconds; `from_time_t` and the addition of
  the fraction are taken modulo `2 ^ 64`, and `to_time_t` cuts towards zero.
  The parser compares the fields of the second its result is converted to with
  those that `timegm` has left, which are normalised already: a date that does
  not exist passes as the one it is carried to (`parseTimestamp_stamp_ok_iff`).
-/
import FinCore.Cxx.TimeFields
import FinCore.Cxx.IntegerText
import FinCore.Domain.MarketData

namespace FinCore.Cli

open FinCore.Cxx FinCore.Domain

/-- The exception of a numeric conversion, which carries its name. -/
def conversionExn (name : Str) : ConvertError → Exn
  | .noConversion => .invalidArgument name
  | .range => .outOfRange name

/-! ## §1. The clock's conversions. -/

namespace SystemClock

/-- `system_clock::from_time_t`. -/
def fromTimeT (seconds : ℤ) : Timestamp := Int64.ofInt (seconds * 10 ^ 9)

/-- `system_clock::to_time_t`. -/
def toTimeT (t : Timestamp) : ℤ := t.toInt.tdiv (10 ^ 9)

/-- `std::chrono::microseconds` as a duration of the clock. -/
def ofMicroseconds (micros : ℤ) : Timestamp := Int64.ofInt (micros * 10 ^ 3)

end SystemClock

/-! ## §2. Reading and printing. -/

/-- The separators at their places, behind them a `Z`. -/
def hasTimestampForm (value : Str) : Bool :=
  20 ≤ value.length && value[4]? = some '-' && value[7]? = some '-' && value[10]? = some 'T'
    && value[13]? = some ':' && value[16]? = some ':' && value.getLast? = some 'Z'

/-- The microseconds behind the 19 characters of the date and the time. -/
def parseFraction (value : Str) : Except Exn ℤ :=
  if value.length ≤ 20 then .ok 0
  else if value[19]? ≠ some '.' then
    .error (.invalidArgument "invalid timestamp fractional seconds".toList)
  else
    -- between the point and the final `Z`
    let fraction := (value.drop 20).take (value.length - 21)
    if fraction = [] ∨ 6 < fraction.length ∨ ¬ IsDigits fraction then
      .error (.invalidArgument "timestamp supports one to six fractional digits".toList)
    else
      match stoll fraction with
      | .ok micros => .ok (micros.toInt * 10 ^ (6 - fraction.length))
      | .error e => .error (conversionExn "stoll".toList e)

/-- The instant of fields that were read, if converting it back gives the fields
that `timegm` has left of them. -/
def checkedTimestamp (utc : Tm) (micros : ℤ) : Except Exn Timestamp :=
  -- the second `utc` is the normalised one
  let (seconds, utc) := timegm utc
  -- the in-band error value of `timegm`
  if seconds = -1 then
    .error (.invalidArgument "timestamp is outside the supported range".toList)
  else
    let timestamp := SystemClock.fromTimeT seconds + SystemClock.ofMicroseconds micros
    if gmtime (SystemClock.toTimeT timestamp) = utc then .ok timestamp
    else .error (.invalidArgument "timestamp contains an invalid calendar date".toList)

/-- `parse_timestamp`; `now` is what `system_clock::now` would return. -/
def parseTimestamp (now : Timestamp) (value : Str) : Except Exn Timestamp :=
  if toUpper value = "NOW".toList then .ok now
  else if hasTimestampForm value = false then
    .error (.invalidArgument
      "timestamp must be UTC RFC3339 (YYYY-MM-DDTHH:MM:SS[.ffffff]Z) or 'now'".toList)
  else
    match getTime (value.take 19) with
    | none => .error (.invalidArgument "timestamp contains an invalid date or time".toList)
    | some utc => do
        let micros ← parseFraction value
        checkedTimestamp utc micros

/-- `format_timestamp`. -/
def formatTimestamp (timestamp : Timestamp) : Str :=
  let micros := timestamp.toInt / 10 ^ 3
  -- `floor`, so the fraction is never negative
  let seconds := micros / 10 ^ 6
  let fraction := micros - seconds * 10 ^ 6
  let raw := SystemClock.toTimeT (SystemClock.fromTimeT seconds)
  putTime (gmtime raw) ++ '.' :: padZero 6 (toStringNat fraction.toNat) ++ ['Z']

example : parseTimestamp 7 "now".toList = .ok 7 := by decide +kernel

example : parseTimestamp 0 "2026-07-21T10:20:30.5Z".toList = .ok 1784629230500000000 := by
  decide +kernel

/-! ## §3. The documented form. -/

namespace Timestamps

/-- A date and a time with the digits of a fraction, if there are any. -/
def stampText (dateTime fraction : Str) : Str :=
  dateTime ++ (if fraction = [] then ['Z'] else '.' :: (fraction ++ ['Z']))

/-- The microseconds of a fraction of at most six digits. -/
def microsOf (fraction : Str) : ℕ := digitsValue fraction * 10 ^ (6 - fraction.length)

/-- A fraction filled up to six digits. -/
def padFraction (fraction : Str) : Str := fraction ++ List.replicate (6 - fraction.length) '0'

theorem microsOf_eq (fraction : Str) : microsOf fraction = digitsValue (padFraction fraction) := by
  rw [padFraction, digitsValue_append, List.length_replicate, digitsValue_replicate_zero,
    Nat.add_zero]
  rfl

theorem isDigits_padFraction {fraction : Str} (h : IsDigits fraction) :
    IsDigits (padFraction fraction) :=
  isDigits_append.mpr ⟨h, isDigits_replicate_zero _⟩

theorem length_padFraction {fraction : Str} (h : fraction.length ≤ 6) :
    (padFraction fraction).length = 6 := by
  rw [padFraction, List.length_append, List.length_replicate]
  omega

theorem microsOf_lt {fraction : Str} (hdigits : IsDigits fraction) (hlength : fraction.length ≤ 6) :
    microsOf fraction < 10 ^ 6 := by
  have hlt := digitsValue_lt (isDigits_padFraction hdigits)
  rw [length_padFraction hlength] at hlt
  rw [microsOf_eq]
  exact hlt

/-- Six digits are what is printed of their number. -/
theorem padZero_microsOf {fraction : Str} (hdigits : IsDigits fraction)
    (hlength : fraction.length ≤ 6) :
    padZero 6 (toStringNat (microsOf fraction)) = padFraction fraction := by
  refine digits_eq_of_value (isDigits_padZero (toStringNat_isDigits _))
    (isDigits_padFraction hdigits) ?_ ?_
  · rw [CivilTime.field_length (by decide) (microsOf_lt hdigits hlength),
      length_padFraction hlength]
  · rw [digitsValue_padZero, digitsValue_toStringNat, microsOf_eq]

/-- `std::stoll` of the digits of a fraction. -/
theorem stoll_digits {fraction : Str} (hdigits : IsDigits fraction) (hne : fraction ≠ [])
    (hlength : fraction.length ≤ 6) :
    ∃ n : Int64, stoll fraction = .ok n ∧ n.toInt = digitsValue fraction := by
  have hlt : digitsValue fraction < 10 ^ 6 :=
    lt_of_lt_of_le (digitsValue_lt hdigits) (Nat.pow_le_pow_right (by decide) hlength)
  have hlead : IntegerNumeral.Leads ⟨.none, fraction, hdigits, hne⟩ fraction :=
    IntegerNumeral.leads_text ⟨.none, fraction, hdigits, hne⟩
  have hvalue : IntegerNumeral.value ⟨.none, fraction, hdigits, hne⟩ = digitsValue fraction := rfl
  have hrange : -2 ^ 63 ≤ (digitsValue fraction : ℤ) ∧ (digitsValue fraction : ℤ) < 2 ^ 63 := by
    omega
  refine ⟨Int64.ofInt (digitsValue fraction), ?_, Int64.toInt_ofInt_of_le hrange.1 hrange.2⟩
  rw [hlead.stoll, hvalue, if_pos hrange]

/-- The fraction of a text in the documented form. -/
theorem parseFraction_stamp {dateTime fraction : Str} (hdateTime : dateTime.length = 19)
    (hdigits : IsDigits fraction) (hlength : fraction.length ≤ 6) :
    parseFraction (stampText dateTime fraction) = .ok (microsOf fraction) := by
  unfold parseFraction stampText
  by_cases hnil : fraction = []
  · subst hnil
    rw [if_pos rfl, if_pos (by rw [List.length_append, hdateTime]; rfl)]
    rfl
  · rw [if_neg hnil]
    have htotal : (dateTime ++ '.' :: (fraction ++ ['Z'])).length = fraction.length + 21 := by
      simp only [List.length_append, List.length_cons, List.length_nil, hdateTime]
      omega
    -- the point is the twentieth character, and the fraction ends before the last
    have hdot : (dateTime ++ '.' :: (fraction ++ ['Z']))[19]? = some '.' := by
      rw [List.getElem?_append_right hdateTime.le, hdateTime]
      rfl
    have hfraction : ((dateTime ++ '.' :: (fraction ++ ['Z'])).drop 20).take fraction.length
        = fraction := by
      rw [List.append_cons, List.drop_left' (by rw [List.length_append, hdateTime]; rfl),
        List.take_left' rfl]
    obtain ⟨n, hstoll, hn⟩ := stoll_digits hdigits hnil hlength
    rw [htotal, if_neg (by omega), if_neg (not_not_intro hdot), Nat.add_sub_cancel]
    dsimp only
    rw [hfraction, if_neg (by
      rintro (h | h | h)
      · exact hnil h
      · omega
      · exact h hdigits), hstoll]
    show Except.ok (n.toInt * 10 ^ (6 - fraction.length)) = _
    rw [hn, microsOf]
    push_cast
    rfl

/-- A fraction that is read stands in the documented form. -/
theorem parseFraction_ok {value : Str} {micros : ℤ} (hlong : 20 ≤ value.length)
    (hlast : value.getLast? = some 'Z') (h : parseFraction value = .ok micros) :
    ∃ fraction : Str, IsDigits fraction ∧ fraction.length ≤ 6
      ∧ value = stampText (value.take 19) fraction := by
  obtain ⟨body, rfl⟩ : ∃ body, value = body ++ ['Z'] := by
    obtain ⟨body, hbody⟩ := List.getLast?_eq_some_iff.mp hlast
    exact ⟨body, hbody⟩
  rw [List.length_append, List.length_singleton] at hlong
  unfold parseFraction at h
  rw [List.length_append, List.length_singleton] at h
  split at h
  next hshort =>
    -- twenty characters: the `Z` follows the seconds
    refine ⟨[], isDigits_nil, by decide, ?_⟩
    have h19 : body.length = 19 := by omega
    rw [stampText, if_pos rfl, List.take_left' h19]
  next hlonger =>
    split at h
    · cases h
    next hdot =>
      dsimp only at h
      split at h
      · cases h
      next hfraction =>
        have hdot' : (body ++ ['Z'])[19]? = some '.' := not_not.mp hdot
        rw [List.getElem?_append_left (by omega)] at hdot'
        have htake : (body ++ ['Z']).take 19 = body.take 19 :=
          List.take_append_of_le_length (by omega)
        -- the fraction is what stands between the point and the `Z`
        have hdrop : ((body ++ ['Z']).drop 20).take (body.length + 1 - 21) = body.drop 20 := by
          rw [List.drop_append_of_le_length (by omega)]
          exact List.take_left' (by rw [List.length_drop]; omega)
        rw [hdrop] at hfraction
        have hne : body.drop 20 ≠ [] := fun hnil => hfraction (Or.inl hnil)
        refine ⟨body.drop 20, ?_, ?_, ?_⟩
        · by_contra hno
          exact hfraction (Or.inr (Or.inr hno))
        · by_contra hno
          exact hfraction (Or.inr (Or.inl (by omega)))
        · have hsplit : body = body.take 19 ++ '.' :: body.drop 20 := by
            obtain ⟨hlt, hget⟩ := List.getElem?_eq_some_iff.mp hdot'
            conv_lhs => rw [← List.take_append_drop 19 body]
            rw [List.drop_eq_getElem_cons hlt, hget]
          rw [stampText, if_neg hne, htake]
          conv_lhs => rw [hsplit]
          rw [List.append_assoc, List.cons_append]

/-! ## §4. What is accepted. -/

theorem getElem?_at {w rest : Str} {c : Char} {k : ℕ} (h : w.length = k) :
    (w ++ c :: rest)[k]? = some c := by
  rw [List.getElem?_append_right h.le, h, Nat.sub_self]
  rfl

theorem getElem?_behind {w rest : Str} {c : Char} {k : ℕ} (h : w.length = k) (j : ℕ) :
    (w ++ c :: rest)[k + 1 + j]? = rest[j]? := by
  rw [List.getElem?_append_right (by omega), h, show k + 1 + j - k = j + 1 by omega]
  rfl

/-- The separators of the text of fields. -/
theorem separators (f : TimeFields) :
    f.text[4]? = some '-' ∧ f.text[7]? = some '-' ∧ f.text[10]? = some 'T'
      ∧ f.text[13]? = some ':' ∧ f.text[16]? = some ':' := by
  have hyear : (padZero 4 (toStringNat f.year)).length = 4 :=
    CivilTime.field_length (by decide) f.year_lt
  have hfield : ∀ n, n < 10 ^ 2 → (padZero 2 (toStringNat n)).length = 2 :=
    fun n h => CivilTime.field_length (by decide) h
  have hmonth := hfield f.month (by have h := f.month_range.2; omega)
  have hday := hfield f.day (by have h := f.day_range.2; omega)
  have hhour := hfield f.hour (by have h := f.hour_lt; omega)
  have hminute := hfield f.minute (by have h := f.minute_lt; omega)
  unfold TimeFields.text
  refine ⟨getElem?_at hyear, ?_, ?_, ?_, ?_⟩
  · rw [getElem?_behind hyear 2]
    exact getElem?_at hmonth
  · rw [getElem?_behind hyear 5, getElem?_behind hmonth 2]
    exact getElem?_at hday
  · rw [getElem?_behind hyear 8, getElem?_behind hmonth 5, getElem?_behind hday 2]
    exact getElem?_at hhour
  · rw [getElem?_behind hyear 11, getElem?_behind hmonth 8, getElem?_behind hday 5,
      getElem?_behind hhour 2]
    exact getElem?_at hminute

theorem stampText_getLast (dateTime fraction : Str) :
    (stampText dateTime fraction).getLast? = some 'Z' := by
  unfold stampText
  split
  · exact List.getLast?_concat
  · rw [← List.cons_append, ← List.append_assoc]
    exact List.getLast?_concat

theorem length_stampText (dateTime fraction : Str) :
    dateTime.length + 1 ≤ (stampText dateTime fraction).length := by
  unfold stampText
  rw [List.length_append]
  split
  · rfl
  · rw [List.length_cons]
    omega

/-- Every text in the documented form passes the first check. -/
theorem hasTimestampForm_stamp (f : TimeFields) (fraction : Str) :
    hasTimestampForm (stampText f.text fraction) = true := by
  obtain ⟨h4, h7, h10, h13, h16⟩ := separators f
  have hlength := length_stampText f.text fraction
  have hindex : ∀ {i : ℕ} {c : Char}, f.text[i]? = some c →
      (stampText f.text fraction)[i]? = some c := by
    intro i c h
    have hlt : i < f.text.length := (List.getElem?_eq_some_iff.mp h).1
    rw [stampText, List.getElem?_append_left hlt]
    exact h
  unfold hasTimestampForm
  rw [hindex h4, hindex h7, hindex h10, hindex h13, hindex h16, stampText_getLast]
  rw [f.length_text] at hlength
  simpa using hlength

theorem hasTimestampForm_spec {value : Str} (h : hasTimestampForm value = true) :
    20 ≤ value.length ∧ value.getLast? = some 'Z' := by
  unfold hasTimestampForm at h
  simp only [Bool.and_eq_true, decide_eq_true_eq] at h
  exact ⟨h.1.1.1.1.1.1, h.2⟩

theorem take_stampText {dateTime : Str} (h : dateTime.length = 19) (fraction : Str) :
    (stampText dateTime fraction).take 19 = dateTime := by
  rw [stampText, List.take_left' h]

/-- The instant the parser computes from the fields it has read. -/
def stamped (f : TimeFields) (fraction : Str) : Timestamp :=
  SystemClock.fromTimeT (secondsOf f.tm) + SystemClock.ofMicroseconds (microsOf fraction)

/-- The comparison of the fields compares the seconds. -/
theorem checkedTimestamp_ok_iff {utc : Tm} {micros : ℤ} {t : Timestamp} :
    checkedTimestamp utc micros = .ok t ↔ secondsOf utc ≠ -1
      ∧ t = SystemClock.fromTimeT (secondsOf utc) + SystemClock.ofMicroseconds micros
      ∧ SystemClock.toTimeT t = secondsOf utc := by
  unfold checkedTimestamp
  dsimp only [timegm]
  constructor
  · intro h
    split at h
    · cases h
    next hseconds =>
      split at h
      next hback =>
        cases h
        exact ⟨hseconds, rfl, gmtime_injective hback⟩
      next => cases h
  · rintro ⟨hseconds, rfl, hback⟩
    rw [if_neg hseconds, hback, if_pos rfl]

theorem stampText_ne_now (f : TimeFields) (fraction : Str) :
    toUpper (stampText f.text fraction) ≠ "NOW".toList := by
  intro h
  have hlength := congrArg List.length h
  have hlong := length_stampText f.text fraction
  rw [toUpper, List.length_map] at hlength
  rw [f.length_text, hlength] at hlong
  exact absurd hlong (by decide)

/-- A text in the documented form gets as far as the check of its instant. -/
theorem parseTimestamp_stamp (now : Timestamp) (f : TimeFields) {fraction : Str}
    (hdigits : IsDigits fraction) (hlength : fraction.length ≤ 6) :
    parseTimestamp now (stampText f.text fraction)
      = checkedTimestamp f.tm (microsOf fraction) := by
  have htake : getTime ((stampText f.text fraction).take 19) = some f.tm := by
    rw [take_stampText f.length_text]
    exact List.append_nil f.text ▸ getTime_text f []
  unfold parseTimestamp
  rw [if_neg (stampText_ne_now f fraction), hasTimestampForm_stamp, if_neg (by decide), htake,
    parseFraction_stamp f.length_text hdigits hlength]
  rfl

/-- Where `get_time` succeeds on the text, it has read digit fields: it has not
made use of a missing digit or of white space. -/
def ReadsDigitFields (value : Str) : Prop :=
  ∀ utc, getTime (value.take 19) = some utc → ∃ f : TimeFields, value.take 19 = f.text

/-- Everything else but `now` is refused. -/
theorem stamp_of_parseTimestamp {now t : Timestamp} {value : Str} (hread : ReadsDigitFields value)
    (hnow : toUpper value ≠ "NOW".toList) (h : parseTimestamp now value = .ok t) :
    ∃ (f : TimeFields) (fraction : Str), IsDigits fraction ∧ fraction.length ≤ 6
      ∧ value = stampText f.text fraction := by
  unfold parseTimestamp at h
  rw [if_neg hnow] at h
  split at h
  · cases h
  next hform =>
    obtain ⟨hlong, hlast⟩ := hasTimestampForm_spec (Bool.eq_true_of_not_eq_false hform)
    split at h
    · cases h
    next utc hutc =>
      obtain ⟨f, htake⟩ := hread utc hutc
      cases hfraction : parseFraction value with
      | error e =>
          rw [hfraction] at h
          cases h
      | ok micros =>
          obtain ⟨fraction, hdigits, hlength, hvalue⟩ := parseFraction_ok hlong hlast hfraction
          rw [htake] at hvalue
          exact ⟨f, fraction, hdigits, hlength, hvalue⟩

/-! ## §5. Instants. -/

theorem bmod_shift (x : ℤ) : ∃ k, Int.bmod x (2 ^ 64) = x + k * 2 ^ 64 := by
  have hwrap := Int.bmod_add_bdiv x (2 ^ 64)
  exact ⟨-Int.bdiv x (2 ^ 64), by omega⟩

/-- The clock's arithmetic is exact up to a multiple of `2 ^ 64`. -/
theorem stamped_toInt (f : TimeFields) (fraction : Str) :
    ∃ k, (stamped f fraction).toInt
      = secondsOf f.tm * 10 ^ 9 + microsOf fraction * 10 ^ 3 + k * 2 ^ 64 := by
  obtain ⟨i, hi⟩ := bmod_shift (secondsOf f.tm * 10 ^ 9)
  obtain ⟨j, hj⟩ := bmod_shift (microsOf fraction * 10 ^ 3)
  have hseconds : (SystemClock.fromTimeT (secondsOf f.tm)).toInt
      = Int.bmod (secondsOf f.tm * 10 ^ 9) (2 ^ 64) := Int64.toInt_ofInt
  have hmicros : (SystemClock.ofMicroseconds (microsOf fraction)).toInt
      = Int.bmod (microsOf fraction * 10 ^ 3) (2 ^ 64) := Int64.toInt_ofInt
  obtain ⟨l, hl⟩ := bmod_shift ((SystemClock.fromTimeT (secondsOf f.tm)).toInt
    + (SystemClock.ofMicroseconds (microsOf fraction)).toInt)
  refine ⟨i + j + l, ?_⟩
  rw [stamped, Int64.toInt_add, hl, hseconds, hmicros, hi, hj]
  ring

/-- `to_time_t` cuts off less than a second, towards zero. -/
theorem toTimeT_spec (t : Timestamp) :
    ∃ r, t.toInt = SystemClock.toTimeT t * 10 ^ 9 + r ∧ -10 ^ 9 < r ∧ r < 10 ^ 9
      ∧ (0 ≤ t.toInt → 0 ≤ r) ∧ (t.toInt ≤ 0 → r ≤ 0) := by
  have hsplit := Int.tmod_add_tdiv_mul t.toInt (10 ^ 9)
  have hlow := Int.lt_tmod_of_pos t.toInt (by norm_num : (0 : ℤ) < 10 ^ 9)
  have hhigh := Int.tmod_lt_of_pos t.toInt (by norm_num : (0 : ℤ) < 10 ^ 9)
  refine ⟨t.toInt.tmod (10 ^ 9), ?_, hlow, hhigh, ?_, ?_⟩
  · unfold SystemClock.toTimeT
    omega
  · exact fun h => Int.tmod_nonneg _ h
  · intro h
    have hneg := Int.tmod_nonneg (10 ^ 9) (show 0 ≤ -t.toInt by omega)
    rw [Int.neg_tmod] at hneg
    omega

theorem abs_toTimeT_le (t : Timestamp) : |SystemClock.toTimeT t| ≤ 9223372036 := by
  obtain ⟨r, hr, hlow, hhigh, hpos, hneg⟩ := toTimeT_spec t
  have hmin : -2 ^ 63 ≤ t.toInt := t.le_toInt
  have hmax : t.toInt < 2 ^ 63 := t.toInt_lt
  rw [abs_le]
  omega

/-- The second of every instant is one of a time. -/
theorem exists_time (t : Timestamp) :
    ∃ c : CivilTime, c.toSeconds = SystemClock.toTimeT t
      ∧ gmtime (SystemClock.toTimeT t) = c.tm :=
  CivilTime.exists_time (abs_toTimeT_le t)

/-- A second of the clock's range survives the two conversions. -/
theorem toTimeT_fromTimeT {s : ℤ} (h : |s| ≤ 9223372036) :
    SystemClock.toTimeT (SystemClock.fromTimeT s) = s := by
  rw [abs_le] at h
  have hexact : (SystemClock.fromTimeT s).toInt = s * 10 ^ 9 :=
    Int64.toInt_ofInt_of_le (by omega) (by omega)
  rw [SystemClock.toTimeT, hexact]
  exact Int.mul_tdiv_cancel s (by norm_num)

/-- **What is printed of an instant** within the second of a time. -/
theorem formatTimestamp_eq (t : Timestamp) (c : CivilTime) {micros : ℕ}
    (hc : |c.toSeconds| ≤ 9223372036) (hmicros : micros < 10 ^ 6)
    (hlow : c.toSeconds * 10 ^ 9 + micros * 10 ^ 3 ≤ t.toInt)
    (hhigh : t.toInt < c.toSeconds * 10 ^ 9 + micros * 10 ^ 3 + 10 ^ 3) :
    formatTimestamp t = c.instantText micros := by
  have htotal : t.toInt / 10 ^ 3 = c.toSeconds * 10 ^ 6 + micros := by omega
  have hseconds : t.toInt / 10 ^ 3 / 10 ^ 6 = c.toSeconds := by omega
  have hfraction : (t.toInt / 10 ^ 3 - c.toSeconds * 10 ^ 6).toNat = micros := by omega
  unfold formatTimestamp
  dsimp only
  rw [hseconds, hfraction, toTimeT_fromTimeT hc, c.gmtime_toSeconds, c.putTime_tm]
  rfl

/-- A text with its fraction filled up is the text of an instant. -/
theorem instantText_microsOf (c : CivilTime) {fraction : Str} (hdigits : IsDigits fraction)
    (hlength : fraction.length ≤ 6) :
    c.instantText (microsOf fraction) = stampText c.text (padFraction fraction) := by
  have hne : padFraction fraction ≠ [] := by
    intro hnil
    have hsix := length_padFraction hlength
    rw [hnil] at hsix
    cases hsix
  rw [CivilTime.instantText, padZero_microsOf hdigits hlength, stampText, if_neg hne,
    List.append_assoc]
  rfl

/-! ## §6. Soundness. -/

/-- The instant of fields and a fraction, in nanoseconds. -/
def fieldsInstant (f : TimeFields) (fraction : Str) : ℤ :=
  secondsOf f.tm * 10 ^ 9 + microsOf fraction * 10 ^ 3

/-- The fields name a date and a time. -/
def NamesTime (f : TimeFields) : Prop := f.day ≤ daysInMonth f.year f.month ∧ f.second ≤ 59

end Timestamps

/-- After 1970, or a whole second; and not the second before 1970, which is the
number by which `timegm` reports a failure. -/
def Readable (instant : ℤ) : Prop :=
  (0 ≤ instant ∨ instant % 10 ^ 9 = 0) ∧ instant ≠ -10 ^ 9

/-- The clock holds the instant, and the parser can read it. -/
def Convertible (instant : ℤ) : Prop := -2 ^ 63 ≤ instant ∧ instant < 2 ^ 63 ∧ Readable instant

/-- The parser is sound on a text: what it accepts names an existing date and
time, and it returns that instant. -/
def SoundAt (now : Timestamp) (value : Str) : Prop :=
  ∀ t : Timestamp, toUpper value ≠ "NOW".toList → parseTimestamp now value = .ok t →
    ∃ (c : CivilTime) (fraction : Str), IsDigits fraction ∧ fraction.length ≤ 6
      ∧ value = Timestamps.stampText c.text fraction
      ∧ t.toInt = c.toSeconds * 10 ^ 9 + Timestamps.microsOf fraction * 10 ^ 3
      ∧ formatTimestamp t = Timestamps.stampText c.text (Timestamps.padFraction fraction)

/-- The text is in the documented form and names no date or no time, and what its
fields are carried to is an instant the clock can convert. -/
def Carried (value : Str) : Prop :=
  ∃ (f : TimeFields) (fraction : Str), IsDigits fraction ∧ fraction.length ≤ 6
    ∧ value = Timestamps.stampText f.text fraction ∧ ¬ Timestamps.NamesTime f
    ∧ Convertible (Timestamps.fieldsInstant f fraction)

namespace Timestamps

/-- **Which texts of the documented form are accepted**: those whose instant the
clock can convert, whether or not the date exists. -/
theorem parseTimestamp_stamp_ok_iff (now : Timestamp) (f : TimeFields) {fraction : Str}
    (hdigits : IsDigits fraction) (hlength : fraction.length ≤ 6) (t : Timestamp) :
    parseTimestamp now (stampText f.text fraction) = .ok t
      ↔ t.toInt = fieldsInstant f fraction ∧ Convertible (fieldsInstant f fraction) := by
  have hmicros := microsOf_lt hdigits hlength
  obtain ⟨k, hk⟩ := stamped_toInt f fraction
  obtain ⟨r, hr, hlow, hhigh, hpos, hneg⟩ := toTimeT_spec (stamped f fraction)
  have hmin : -2 ^ 63 ≤ (stamped f fraction).toInt := Int64.le_toInt _
  have hmax : (stamped f fraction).toInt < 2 ^ 63 := Int64.toInt_lt _
  rw [parseTimestamp_stamp now f hdigits hlength, checkedTimestamp_ok_iff]
  unfold Convertible Readable fieldsInstant
  constructor
  · rintro ⟨hseconds, ht, hback⟩
    have hstamped : t = stamped f fraction := ht
    rw [hstamped] at hback ⊢
    rw [hback] at hr
    -- both are within two seconds, far less than `2 ^ 64` nanoseconds
    obtain rfl : k = 0 := by omega
    omega
  · rintro ⟨ht, hlowest, hhighest, hreadable⟩
    have hexact : (stamped f fraction).toInt = t.toInt := by omega
    have hstamped : t = stamped f fraction := (Int64.toInt_inj.mp hexact).symm
    refine ⟨by omega, hstamped, ?_⟩
    rw [hstamped]
    omega

/-- The clock reaches back to the year 1677. -/
theorem year_of_convertible {f : TimeFields} {fraction : Str} (hdigits : IsDigits fraction)
    (hlength : fraction.length ≤ 6) (h : Convertible (fieldsInstant f fraction)) :
    1000 ≤ f.year := by
  by_contra hyear
  have hmicros := microsOf_lt hdigits hlength
  have hmonth := f.month_range
  have hday := f.day_range.2
  have hhour := f.hour_lt
  have hminute := f.minute_lt
  have hsecond := f.second_le
  have hera := firstOfMonth_add_eras f.year 1 f.month
  have hfirst := firstOfMonth_natCast (show 1 ≤ f.year + 400 by omega) f.month
  have hnumber : dayNumber (f.year + 400) f.month 1 ≤ 511344 := by
    have h1399 : daysBeforeYear 1399 = 510974 := by decide
    have hprevious := CivilTime.daysBeforeYear_mono (show f.year + 400 - 1 ≤ 1399 by omega)
    have hsame := CivilTime.daysBeforeYear_mono (show f.year + 400 ≤ 1399 by omega)
    unfold dayNumber daysBeforeMonth
    split
    · omega
    · omega
  have hseconds : secondsOf f.tm = (firstOfMonth f.year f.month + (f.day - 1) - epochDay) * 86400
      + f.hour * 3600 + f.minute * 60 + f.second := by
    unfold secondsOf TimeFields.tm
    dsimp only
    rw [show (f.year : ℤ) - 1900 + 1900 + ((f.month : ℤ) - 1) / 12 = f.year by omega,
      show (((f.month : ℤ) - 1) % 12).toNat + 1 = f.month by omega]
  have hlow := h.1
  unfold fieldsInstant at hlow
  unfold epochDay at hseconds
  push_cast at hera hfirst
  omega

/-- Fields that name a time are those of a time of the calendar. -/
theorem exists_civilTime {f : TimeFields} (hyear : 1000 ≤ f.year) (h : NamesTime f) :
    ∃ c : CivilTime, c.toFields = f :=
  ⟨{ year := f.year, month := f.month, day := f.day, hour := f.hour, minute := f.minute
     second := f.second, year_range := ⟨hyear, f.year_lt⟩, month_range := f.month_range
     day_range := ⟨f.day_range.1, h.1⟩, hour_lt := f.hour_lt, minute_lt := f.minute_lt
     second_lt := Nat.lt_succ_of_le h.2 }, rfl⟩

theorem namesTime_toFields (c : CivilTime) : NamesTime c.toFields :=
  ⟨c.day_range.2, Nat.le_of_lt_succ c.second_lt⟩

/-- A text that names no time and is accepted all the same. -/
theorem not_soundAt_of_carried (now : Timestamp) {value : Str} (h : Carried value) :
    ¬ SoundAt now value := by
  obtain ⟨f, fraction, hdigits, hlength, rfl, hnames, hconvertible⟩ := h
  intro hsound
  have haccepted : parseTimestamp now (stampText f.text fraction)
      = .ok (Int64.ofInt (fieldsInstant f fraction)) := by
    refine (parseTimestamp_stamp_ok_iff now f hdigits hlength _).mpr ⟨?_, hconvertible⟩
    exact Int64.toInt_ofInt_of_le hconvertible.1 hconvertible.2.1
  obtain ⟨c, fraction', -, -, hvalue, -⟩ := hsound _ (stampText_ne_now f fraction) haccepted
  -- the same nineteen characters, and so the same fields
  have htext := congrArg (List.take 19) hvalue
  rw [take_stampText f.length_text, ← c.toFields_text, take_stampText c.toFields.length_text]
    at htext
  exact hnames (TimeFields.text_injective htext ▸ namesTime_toFields c)

/-- An accepted text of existing fields names the instant that is returned. -/
theorem soundAt_of_names (now : Timestamp) {value : Str} (hread : ReadsDigitFields value)
    (h : ¬ Carried value) : SoundAt now value := by
  intro t hnow haccepted
  obtain ⟨f, fraction, hdigits, hlength, rfl⟩ := stamp_of_parseTimestamp hread hnow haccepted
  obtain ⟨ht, hconvertible⟩ := (parseTimestamp_stamp_ok_iff now f hdigits hlength t).mp haccepted
  have hnames : NamesTime f := by
    by_contra hno
    exact h ⟨f, fraction, hdigits, hlength, rfl, hno, hconvertible⟩
  obtain ⟨c, rfl⟩ := exists_civilTime (year_of_convertible hdigits hlength hconvertible) hnames
  have hinstant : t.toInt = c.toSeconds * 10 ^ 9 + microsOf fraction * 10 ^ 3 := by
    rw [ht, fieldsInstant, ← c.secondsOf_tm]
    rfl
  have hmicros := microsOf_lt hdigits hlength
  have hrange : |c.toSeconds| ≤ 9223372036 := by
    rw [← ht, hinstant] at hconvertible
    obtain ⟨hlow, hhigh, hreadable, -⟩ := hconvertible
    rw [abs_le]
    omega
  have hformat := formatTimestamp_eq t c hrange hmicros (by omega) (by omega)
  refine ⟨c, fraction, hdigits, hlength, ?_, hinstant, ?_⟩
  · rw [c.toFields_text]
  · rw [hformat, instantText_microsOf c hdigits hlength]

end Timestamps

open Timestamps in
/-- **Exactly where `parse_timestamp` is sound**: on every text but those that
name no time and are carried to an instant. -/
theorem parseTimestamp_sound_iff (now : Timestamp) (value : Str) (hread : ReadsDigitFields value) :
    SoundAt now value ↔ ¬ Carried value :=
  ⟨fun hsound hcarried => not_soundAt_of_carried now hcarried hsound,
    soundAt_of_names now hread⟩

/-- 21 August 2026, 10:20:30. -/
def augustTime : CivilTime where
  year := 2026
  month := 8
  day := 21
  hour := 10
  minute := 20
  second := 30
  year_range := by omega
  month_range := by omega
  day_range := by decide
  hour_lt := by decide
  minute_lt := by decide
  second_lt := by decide

theorem parseTimestamp_sound_iff_half :
    SoundAt 0 "2026-08-21T10:20:30.5Z".toList ↔ ¬ Carried "2026-08-21T10:20:30.5Z".toList :=
  parseTimestamp_sound_iff 0 "2026-08-21T10:20:30.5Z".toList
    fun _ _ => ⟨augustTime.toFields, by decide⟩

/-- 30 February 2026. -/
def februaryFields : TimeFields where
  year := 2026
  month := 2
  day := 30
  hour := 0
  minute := 0
  second := 0
  year_lt := by omega
  month_range := by omega
  day_range := by omega
  hour_lt := by omega
  minute_lt := by omega
  second_le := by omega

/-- 30 February is accepted as 2 March, and the second 60 as the next minute. -/
theorem february_accepted :
    parseTimestamp 0 "2026-02-30T00:00:00Z".toList = .ok 1772409600000000000
    ∧ formatTimestamp 1772409600000000000 = "2026-03-02T00:00:00.000000Z".toList
    ∧ Timestamps.ReadsDigitFields "2026-02-30T00:00:00Z".toList
    ∧ ¬ SoundAt 0 "2026-02-30T00:00:00Z".toList
    ∧ parseTimestamp 0 "2026-07-21T10:20:60Z".toList
      = parseTimestamp 0 "2026-07-21T10:21:00Z".toList := by
  refine ⟨by decide +kernel, by decide +kernel, fun _ _ => ⟨februaryFields, by decide⟩, ?_,
    by decide +kernel⟩
  refine Timestamps.not_soundAt_of_carried 0 ⟨februaryFields, [], isDigits_nil, by decide,
    by decide, ?_, ?_⟩
  · unfold Timestamps.NamesTime
    decide
  · unfold Convertible Readable
    decide +kernel

/-! ## §7. Reading back. -/

/-- Within a second of the years 1678 to 2261. -/
def InSupportedYears (instant : ℤ) : Prop :=
  ∃ c : CivilTime, 1678 ≤ c.year ∧ c.year ≤ 2261 ∧ c.toSeconds * 10 ^ 9 ≤ instant
    ∧ instant < (c.toSeconds + 1) * 10 ^ 9

namespace Timestamps

/-- The supported years lie within the range of the clock. -/
theorem abs_toSeconds_le {c : CivilTime} (hlow : 1678 ≤ c.year) (hhigh : c.year ≤ 2261) :
    |c.toSeconds| ≤ 9223372035 := by
  have hmonth := c.month_range
  have hday := c.day_range.1
  have hday31 := c.day_le
  have hhour := c.hour_lt
  have hminute := c.minute_lt
  have hsecond := c.second_lt
  have hnumber : 612818 ≤ dayNumber c.year c.month c.day
      ∧ dayNumber c.year c.month c.day ≤ 826118 := by
    have h1677 : daysBeforeYear 1677 = 612512 := by decide
    have h1678 : daysBeforeYear 1678 = 612877 := by decide
    have h2260 : daysBeforeYear 2260 = 825448 := by decide
    have h2261 : daysBeforeYear 2261 = 825813 := by decide
    have hlowPrevious := CivilTime.daysBeforeYear_mono (show 1677 ≤ c.year - 1 by omega)
    have hhighPrevious := CivilTime.daysBeforeYear_mono (show c.year - 1 ≤ 2260 by omega)
    have hlowSame := CivilTime.daysBeforeYear_mono hlow
    have hhighSame := CivilTime.daysBeforeYear_mono hhigh
    unfold dayNumber daysBeforeMonth
    split
    · omega
    · omega
  rw [abs_le]
  unfold CivilTime.toSeconds secondsSinceEpoch epochDay
  omega

variable {c : CivilTime} {fraction : Str}

/-- The instant of a time and a fraction, in nanoseconds. -/
def instantOf (c : CivilTime) (fraction : Str) : ℤ :=
  c.toSeconds * 10 ^ 9 + microsOf fraction * 10 ^ 3

theorem fieldsInstant_toFields (c : CivilTime) (fraction : Str) :
    fieldsInstant c.toFields fraction = instantOf c fraction := by
  rw [fieldsInstant, instantOf, ← c.secondsOf_tm]
  rfl

/-- **Which texts of existing times are accepted.** -/
theorem parseTimestamp_stamp_iff (now : Timestamp) (hlow : 1678 ≤ c.year) (hhigh : c.year ≤ 2261)
    (hdigits : IsDigits fraction) (hlength : fraction.length ≤ 6) (t : Timestamp) :
    parseTimestamp now (stampText c.text fraction) = .ok t
      ↔ t.toInt = instantOf c fraction ∧ Readable (instantOf c fraction) := by
  have hmicros := microsOf_lt hdigits hlength
  have hrange := abs_toSeconds_le hlow hhigh
  rw [abs_le] at hrange
  -- in the supported years the clock holds every instant
  have hholds : Convertible (instantOf c fraction) ↔ Readable (instantOf c fraction) := by
    unfold Convertible instantOf
    exact ⟨fun h => h.2.2, fun h => ⟨by omega, by omega, h⟩⟩
  rw [← c.toFields_text, parseTimestamp_stamp_ok_iff now c.toFields hdigits hlength,
    fieldsInstant_toFields, hholds]

/-- The digits printed of a number of microseconds. -/
def printedFraction (micros : ℕ) : Str := padZero 6 (toStringNat micros)

theorem printedFraction_spec {micros : ℕ} (h : micros < 10 ^ 6) :
    IsDigits (printedFraction micros) ∧ (printedFraction micros).length = 6
      ∧ microsOf (printedFraction micros) = micros := by
  have hlength : (printedFraction micros).length = 6 := CivilTime.field_length (by decide) h
  refine ⟨isDigits_padZero (toStringNat_isDigits _), hlength, ?_⟩
  rw [microsOf, hlength, printedFraction, digitsValue_padZero, digitsValue_toStringNat]
  exact Nat.mul_one micros

/-- **Which printed timestamps are read back.** -/
theorem parseTimestamp_format_iff (now t : Timestamp) (hwhole : t.toInt % 10 ^ 3 = 0)
    (hyears : InSupportedYears t.toInt) :
    parseTimestamp now (formatTimestamp t) = .ok t ↔ Readable t.toInt := by
  obtain ⟨c, hlow, hhigh, hstart, hend⟩ := hyears
  have hrange := abs_toSeconds_le hlow hhigh
  let micros : ℕ := ((t.toInt - c.toSeconds * 10 ^ 9) / 10 ^ 3).toNat
  have hmicros : (micros : ℤ) * 10 ^ 3 = t.toInt - c.toSeconds * 10 ^ 9 := by
    show (((t.toInt - c.toSeconds * 10 ^ 9) / 10 ^ 3).toNat : ℤ) * 10 ^ 3 = _
    omega
  have hlt : micros < 10 ^ 6 := by omega
  obtain ⟨hdigits, hsix, hvalue⟩ := printedFraction_spec hlt
  have hformat : formatTimestamp t = stampText c.text (printedFraction micros) := by
    -- six digits were printed, so there is nothing to pad
    have hpad : padFraction (printedFraction micros) = printedFraction micros := by
      rw [padFraction, hsix]
      exact List.append_nil _
    rw [formatTimestamp_eq t c (hrange.trans (by norm_num)) hlt (by omega) (by omega)]
    conv_lhs => rw [← hvalue]
    rw [instantText_microsOf c hdigits hsix.le, hpad]
  have hinstant : instantOf c (printedFraction micros) = t.toInt := by
    rw [instantOf, hvalue]
    omega
  rw [hformat, parseTimestamp_stamp_iff now hlow hhigh hdigits hsix.le, hinstant]
  exact ⟨fun h => h.2, fun h => ⟨rfl, h⟩⟩

end Timestamps

open Timestamps in
/-- **Which printed timestamps and which existing dates and times can be read.** -/
theorem timestamps_readable (now : Timestamp) :
    (∀ t : Timestamp, t.toInt % 10 ^ 3 = 0 → InSupportedYears t.toInt →
        (parseTimestamp now (formatTimestamp t) = .ok t ↔ Readable t.toInt))
    ∧ (∀ (c : CivilTime) (fraction : Str), 1678 ≤ c.year → c.year ≤ 2261 → IsDigits fraction →
        fraction.length ≤ 6 → ∀ t : Timestamp,
        (parseTimestamp now (stampText c.text fraction) = .ok t
          ↔ t.toInt = instantOf c fraction ∧ Readable (instantOf c fraction))) := by
  constructor
  · intro t hwhole hyears
    exact parseTimestamp_format_iff now t hwhole hyears
  · intro c fraction hlow hhigh hdigits hlength t
    exact parseTimestamp_stamp_iff now hlow hhigh hdigits hlength t

theorem august_readable :
    (parseTimestamp 0 (formatTimestamp 1787307630500000000) = .ok 1787307630500000000
      ↔ Readable (1787307630500000000 : Timestamp).toInt)
    ∧ (parseTimestamp 0 (Timestamps.stampText augustTime.text "5".toList) = .ok 1787307630500000000
      ↔ (1787307630500000000 : Timestamp).toInt = Timestamps.instantOf augustTime "5".toList
        ∧ Readable (Timestamps.instantOf augustTime "5".toList)) := by
  have hyears : InSupportedYears (1787307630500000000 : Timestamp).toInt :=
    ⟨augustTime, by decide, by decide, by decide, by decide⟩
  exact ⟨(timestamps_readable 0).1 1787307630500000000 (by decide) hyears,
    (timestamps_readable 0).2 augustTime "5".toList (by decide) (by decide) (by decide) (by decide)
      1787307630500000000⟩

/-- The second but one before 1970. -/
def eveTime : CivilTime where
  year := 1969
  month := 12
  day := 31
  hour := 23
  minute := 59
  second := 58
  year_range := by omega
  month_range := by omega
  day_range := by decide
  hour_lt := by omega
  minute_lt := by omega
  second_lt := by omega

/-- Half a second before 23:59:59 on the last day of 1969, and 23:59:59 itself,
are printed and then refused. -/
theorem eve_refused :
    ((-1500000000 : Timestamp).toInt % 10 ^ 3 = 0
      ∧ InSupportedYears (-1500000000 : Timestamp).toInt
      ∧ formatTimestamp (-1500000000) = "1969-12-31T23:59:58.500000Z".toList
      ∧ parseTimestamp 0 (formatTimestamp (-1500000000))
        = .error (.invalidArgument "timestamp contains an invalid calendar date".toList))
    ∧ formatTimestamp (-1000000000) = "1969-12-31T23:59:59.000000Z".toList
    ∧ parseTimestamp 0 (formatTimestamp (-1000000000))
        = .error (.invalidArgument "timestamp is outside the supported range".toList) := by
  refine ⟨⟨by decide, ⟨eveTime, by decide, by decide, by decide, by decide⟩, ?_, ?_⟩, ?_, ?_⟩
  · decide +kernel
  · decide +kernel
  · decide +kernel
  · decide +kernel

end FinCore.Cli

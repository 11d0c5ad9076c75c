/-
  FinCore.Cxx.TimeFields
  ──────────────────────
  The C library's broken-down time: `std::get_time` and `std::put_time` with the
  format `%Y-%m-%dT%H:%M:%S`, `timegm` and `gmtime_r`.

  `get_time` reads numbers in the ranges of their fields, as libstdc++ does: with
  fewer digits than the format has, and behind white space at the start and in
  front of the day.  `timegm` carries a field that is too large for its place
  into the next and leaves the fields normalised; `gmtime_r` gives the fields of
  a date that exists, and a second is found again from its fields
  (`secondsOf_gmtime`).
-/
import FinCore.Cxx.Calendar
import FinCore.Cxx.ReadBack

namespace FinCore.Cxx

/-- The fields of `std::tm` that the formats set. -/
structure Tm where
  /-- Years since 1900. -/
  tmYear : ℤ
  /-- Months since January. -/
  tmMon : ℤ
  tmMday : ℤ
  tmHour : ℤ
  tmMin : ℤ
  tmSec : ℤ
  deriving DecidableEq

/-! ## §1. Reading and printing the fields. -/

/-- A number of at most `width` digits between bounds, and what follows it. -/
def takeField (width low high : ℕ) (s : Str) : Option (ℕ × Str) :=
  let digits := (s.take width).takeWhile Char.isDigit
  if digits ≠ [] ∧ low ≤ digitsValue digits ∧ digitsValue digits ≤ high then
    some (digitsValue digits, s.drop digits.length)
  else none

/-- What follows a character of the format; its case does not matter. -/
def takeChar (c : Char) : Str → Option Str
  | [] => none
  | x :: s => if x.toLower = c.toLower then some s else none

/-- The one white space that may stand in front of the day. -/
def skipSpace : Str → Str
  | [] => []
  | c :: s => if isSpace c then s else c :: s

/-- `stream >> std::get_time(&tm, "%Y-%m-%dT%H:%M:%S")`; `none` when the stream
fails. -/
def getTime (s : Str) : Option Tm := do
  -- the extraction skips white space first
  let (year, s) ← takeField 4 0 9999 (s.dropWhile isSpace)
  let s ← takeChar '-' s
  let (month, s) ← takeField 2 1 12 s
  let s ← takeChar '-' s
  let (day, s) ← takeField 2 1 31 (skipSpace s)
  let s ← takeChar 'T' s
  let (hour, s) ← takeField 2 0 23 s
  let s ← takeChar ':' s
  let (minute, s) ← takeField 2 0 59 s
  let s ← takeChar ':' s
  let (second, _) ← takeField 2 0 60 s
  -- `tm` counts years from 1900 and months from 0
  return { tmYear := year - 1900, tmMon := month - 1, tmMday := day
           tmHour := hour, tmMin := minute, tmSec := second }

/-- `std::put_time(&tm, "%Y-%m-%dT%H:%M:%S")`. -/
def putTime (tm : Tm) : Str :=
  let year := tm.tmYear + 1900
  (if year < 0 then ['-'] else []) ++ toStringNat year.natAbs
    ++ '-' :: padZero 2 (toStringNat (tm.tmMon + 1).toNat)
    ++ '-' :: padZero 2 (toStringNat tm.tmMday.toNat)
    ++ 'T' :: padZero 2 (toStringNat tm.tmHour.toNat)
    ++ ':' :: padZero 2 (toStringNat tm.tmMin.toNat)
    ++ ':' :: padZero 2 (toStringNat tm.tmSec.toNat)

/-- Fields in the ranges of `get_time`.  The day may be too large for its month,
and the second may be 60. -/
structure TimeFields where
  year : ℕ
  month : ℕ
  day : ℕ
  hour : ℕ
  minute : ℕ
  second : ℕ
  year_lt : year < 10000
  month_range : 1 ≤ month ∧ month ≤ 12
  day_range : 1 ≤ day ∧ day ≤ 31
  hour_lt : hour < 24
  minute_lt : minute < 60
  second_le : second ≤ 60

namespace TimeFields

def text (f : TimeFields) : Str :=
  padZero 4 (toStringNat f.year) ++ '-' :: (padZero 2 (toStringNat f.month)
    ++ '-' :: (padZero 2 (toStringNat f.day) ++ 'T' :: (padZero 2 (toStringNat f.hour)
    ++ ':' :: (padZero 2 (toStringNat f.minute) ++ ':' :: padZero 2 (toStringNat f.second)))))

def tm (f : TimeFields) : Tm where
  tmYear := f.year - 1900
  tmMon := f.month - 1
  tmMday := f.day
  tmHour := f.hour
  tmMin := f.minute
  tmSec := f.second

theorem length_text (f : TimeFields) : f.text.length = 19 := by
  have hyear : (padZero 4 (toStringNat f.year)).length = 4 :=
    CivilTime.field_length (by decide) f.year_lt
  have hfield : ∀ n, n < 10 ^ 2 → (padZero 2 (toStringNat n)).length = 2 :=
    fun n h => CivilTime.field_length (by decide) h
  have hmonth := f.month_range.2
  have hday := f.day_range.2
  have hhour := f.hour_lt
  have hminute := f.minute_lt
  have hsecond := f.second_le
  unfold text
  simp only [List.length_append, List.length_cons]
  rw [hyear, hfield _ (by omega), hfield _ (by omega), hfield _ (by omega), hfield _ (by omega),
    hfield _ (by omega)]

theorem tm_injective {f g : TimeFields} (h : f.tm = g.tm) : f = g := by
  obtain ⟨hyear, hmonth, hday, hhour, hminute, hsecond⟩ := Tm.mk.inj h
  cases f
  cases g
  dsimp only at hyear hmonth hday hhour hminute hsecond
  rw [TimeFields.mk.injEq]
  omega

end TimeFields

/-- A number padded to the width is read as it stands. -/
theorem takeField_padZero {width low high v : ℕ} (hwidth : 0 < width) (hhigh : high < 10 ^ width)
    (hlow : low ≤ v) (hle : v ≤ high) (rest : Str) :
    takeField width low high (padZero width (toStringNat v) ++ rest) = some (v, rest) := by
  have hlength : (padZero width (toStringNat v)).length = width :=
    CivilTime.field_length hwidth (by omega)
  have hdigits : IsDigits (padZero width (toStringNat v)) :=
    isDigits_padZero (toStringNat_isDigits _)
  -- all the digits there is room for
  have htake : ((padZero width (toStringNat v) ++ rest).take width).takeWhile Char.isDigit
      = padZero width (toStringNat v) := by
    rw [List.take_left' hlength]
    exact List.takeWhile_eq_self_iff.mpr hdigits
  have hne : padZero width (toStringNat v) ≠ [] := by
    intro hnil
    rw [hnil] at hlength
    exact absurd hlength hwidth.ne
  unfold takeField
  dsimp only
  rw [htake, digitsValue_padZero, digitsValue_toStringNat, if_pos ⟨hne, hlow, hle⟩, hlength,
    List.drop_left' hlength]

theorem takeChar_cons (c : Char) (s : Str) : takeChar c (c :: s) = some s := if_pos rfl

/-- A padded number begins with a digit, so no white space is skipped. -/
theorem padZero_head {width v : ℕ} (hwidth : 0 < width) (h : v < 10 ^ width) (rest : Str) :
    skipSpace (padZero width (toStringNat v) ++ rest) = padZero width (toStringNat v) ++ rest
      ∧ (padZero width (toStringNat v) ++ rest).dropWhile isSpace
        = padZero width (toStringNat v) ++ rest := by
  have hlength : (padZero width (toStringNat v)).length = width :=
    CivilTime.field_length hwidth h
  obtain ⟨c, w, hw⟩ := List.exists_cons_of_length_pos (by omega : 0 <
    (padZero width (toStringNat v)).length)
  have hdigits : IsDigits (padZero width (toStringNat v)) :=
    isDigits_padZero (toStringNat_isDigits _)
  rw [hw] at hdigits
  have hc : c.isDigit = true := (isDigits_cons.mp hdigits).1
  rw [hw, List.cons_append]
  constructor
  · show (if isSpace c then w ++ rest else c :: (w ++ rest)) = _
    rw [isSpace_of_isDigit hc, if_neg Bool.false_ne_true]
  · rw [List.dropWhile_cons, isSpace_of_isDigit hc, if_neg Bool.false_ne_true]

/-- **The text of fields is read as these fields**, whatever follows. -/
theorem getTime_text (f : TimeFields) (rest : Str) : getTime (f.text ++ rest) = some f.tm := by
  have hyear := f.year_lt
  have hmonth := f.month_range
  have hday := f.day_range
  have hhour := f.hour_lt
  have hminute := f.minute_lt
  have htext : f.text ++ rest = padZero 4 (toStringNat f.year) ++ ('-' ::
      (padZero 2 (toStringNat f.month) ++ ('-' :: (padZero 2 (toStringNat f.day) ++ ('T' ::
      (padZero 2 (toStringNat f.hour) ++ (':' :: (padZero 2 (toStringNat f.minute) ++ (':' ::
      (padZero 2 (toStringNat f.second) ++ rest)))))))))) := by
    simp only [TimeFields.text, List.append_assoc, List.cons_append]
  -- each field is taken off the front of what is left
  unfold getTime
  rw [htext, (padZero_head (by decide) (by omega) _).2,
    takeField_padZero (by decide) (by decide) (by omega) (by omega)]
  simp only [Option.bind_eq_bind, Option.bind_some, takeChar_cons]
  rw [takeField_padZero (by decide) (by decide) hmonth.1 hmonth.2]
  simp only [Option.bind_some, takeChar_cons]
  rw [(padZero_head (by decide) (by omega) _).1,
    takeField_padZero (by decide) (by decide) hday.1 hday.2]
  simp only [Option.bind_some, takeChar_cons]
  rw [takeField_padZero (by decide) (by decide) (by omega) (by omega)]
  simp only [Option.bind_some, takeChar_cons]
  rw [takeField_padZero (by decide) (by decide) (by omega) (by omega)]
  simp only [Option.bind_some, takeChar_cons]
  rw [takeField_padZero (by decide) (by decide) (by omega) f.second_le]
  rfl

theorem TimeFields.text_injective {f g : TimeFields} (h : f.text = g.text) : f = g := by
  have hf := getTime_text f []
  rw [h, getTime_text g []] at hf
  exact TimeFields.tm_injective (Option.some.inj hf).symm

/-! ## §2. Seconds. -/

/-- The day of the first of a month, counted as `dayNumber` counts, in any year:
the calendar repeats every 400 years. -/
def firstOfMonth (year : ℤ) (month : ℕ) : ℤ :=
  dayNumber (year % 400 + 400).toNat month 1 + 146097 * (year / 400 - 1)

/-- The seconds that fields stand for, which may be too large for their places. -/
def secondsOf (tm : Tm) : ℤ :=
  let year := tm.tmYear + 1900 + tm.tmMon / 12
  let month := (tm.tmMon % 12).toNat + 1
  (firstOfMonth year month + (tm.tmMday - 1) - epochDay) * 86400
    + tm.tmHour * 3600 + tm.tmMin * 60 + tm.tmSec

/-- `gmtime_r`. -/
def gmtime (s : ℤ) : Tm :=
  let day := s / 86400 + epochDay
  let n := (day % 146097).toNat
  { tmYear := CivilTime.civilYear n + 400 * (day / 146097) - 1900
    tmMon := CivilTime.civilMonth n - 1
    tmMday := CivilTime.civilDay n
    tmHour := s % 86400 / 3600
    tmMin := s % 3600 / 60
    tmSec := s % 60 }

/-- `timegm(&tm)`: the seconds, and the fields, which it normalises in place. -/
def timegm (tm : Tm) : ℤ × Tm := (secondsOf tm, gmtime (secondsOf tm))

theorem daysBeforeYear_add_eras (y e : ℕ) :
    daysBeforeYear (y + 400 * e) = daysBeforeYear y + 146097 * e := by
  have h4 : (y + 400 * e) / 4 = y / 4 + 100 * e := by omega
  have h100 : (y + 400 * e) / 100 = y / 100 + 4 * e := by omega
  have h400 : (y + 400 * e) / 400 = y / 400 + e := by omega
  have hle : y / 100 ≤ y / 4 := Nat.div_le_div_left (by decide) (by decide)
  unfold daysBeforeYear
  rw [h4, h100, h400]
  omega

theorem dayNumber_add_eras {year : ℕ} (hyear : 1 ≤ year) (month day e : ℕ) :
    dayNumber (year + 400 * e) month day = dayNumber year month day + 146097 * e := by
  unfold dayNumber
  split
  · rw [show year + 400 * e - 1 = year - 1 + 400 * e by omega, daysBeforeYear_add_eras]
    omega
  · rw [daysBeforeYear_add_eras]
    omega

theorem firstOfMonth_natCast {year : ℕ} (hyear : 1 ≤ year) (month : ℕ) :
    firstOfMonth year month = dayNumber year month 1 := by
  have hshift := dayNumber_add_eras hyear month 1 1
  have hera := dayNumber_add_eras (show 1 ≤ year % 400 + 400 by omega) month 1 (year / 400)
  rw [show year % 400 + 400 + 400 * (year / 400) = year + 400 * 1 by omega] at hera
  unfold firstOfMonth
  rw [show ((year : ℤ) % 400 + 400).toNat = year % 400 + 400 by omega]
  omega

namespace CivilTime

/-! ## §3. Times of the calendar. -/

def toFields (t : CivilTime) : TimeFields where
  year := t.year
  month := t.month
  day := t.day
  hour := t.hour
  minute := t.minute
  second := t.second
  year_lt := t.year_range.2
  month_range := t.month_range
  day_range := ⟨t.day_range.1, t.day_le⟩
  hour_lt := t.hour_lt
  minute_lt := t.minute_lt
  second_le := t.second_lt.le

def tm (t : CivilTime) : Tm := t.toFields.tm

theorem toFields_text (t : CivilTime) : t.toFields.text = t.text := by
  have hyear : padZero 4 (toStringNat t.year) = toStringNat t.year := by
    rw [padZero, t.year_length]
    rfl
  unfold TimeFields.text text toFields
  dsimp only
  rw [hyear]
  simp only [List.append_assoc, List.cons_append]

theorem putTime_tm (t : CivilTime) : putTime t.tm = t.text := by
  have hyear : (t.year : ℤ) - 1900 + 1900 = t.year := by omega
  have hmonth : ((t.month : ℤ) - 1 + 1).toNat = t.month := by omega
  unfold putTime tm toFields TimeFields.tm
  dsimp only
  rw [hyear, hmonth, if_neg (by omega)]
  rfl

/-- The seconds of the fields of a time. -/
theorem secondsOf_tm (t : CivilTime) : secondsOf t.tm = t.toSeconds := by
  obtain ⟨hlow, hhigh⟩ := t.month_range
  have hyear := t.year_range.1
  have hday := t.day_range.1
  have hfirst := firstOfMonth_natCast (show 1 ≤ t.year by omega) t.month
  have hnumber : (dayNumber t.year t.month t.day : ℤ)
      = dayNumber t.year t.month 1 + (t.day - 1) := by
    unfold dayNumber
    split
    · omega
    · omega
  show (firstOfMonth ((t.year : ℤ) - 1900 + 1900 + ((t.month : ℤ) - 1) / 12)
      ((((t.month : ℤ) - 1) % 12).toNat + 1) + ((t.day : ℤ) - 1) - epochDay) * 86400
    + t.hour * 3600 + t.minute * 60 + t.second = _
  rw [show (t.year : ℤ) - 1900 + 1900 + ((t.month : ℤ) - 1) / 12 = t.year by omega,
    show (((t.month : ℤ) - 1) % 12).toNat + 1 = t.month by omega, hfirst]
  unfold toSeconds secondsSinceEpoch
  rw [hnumber]

/-- The date of a day, found within its era. -/
theorem civil_add_eras (n e : ℕ) :
    civilYear (n + 146097 * e) = civilYear n + 400 * e
      ∧ civilMonth (n + 146097 * e) = civilMonth n ∧ civilDay (n + 146097 * e) = civilDay n := by
  obtain ⟨hlow, hhigh⟩ := yearOfDay_spec n
  have hyear : yearOfDay (n + 146097 * e) = yearOfDay n + 400 * e := by
    refine yearOfDay_eq ?_ ?_
    · rw [daysBeforeYear_add_eras]
      omega
    · rw [Nat.add_right_comm, daysBeforeYear_add_eras]
      omega
  have hday : dayOfYear (n + 146097 * e) = dayOfYear n := by
    unfold dayOfYear
    rw [hyear, daysBeforeYear_add_eras]
    omega
  have hmonth : monthOfDay (n + 146097 * e) = monthOfDay n := by
    unfold monthOfDay
    rw [hday]
  unfold civilYear civilMonth civilDay
  rw [hyear, hday, hmonth]
  refine ⟨?_, rfl, rfl⟩
  -- a month of the new year adds one to both years
  split
  · rfl
  · omega

/-- **The fields of a time are found again from its seconds.** -/
theorem gmtime_toSeconds (t : CivilTime) : gmtime t.toSeconds = t.tm := by
  have hyear := t.year_range.1
  have hhour := t.hour_lt
  have hminute := t.minute_lt
  have hsecond := t.second_lt
  have hsplit : t.toSeconds = ((dayNumber t.year t.month t.day : ℤ) - epochDay) * 86400
      + t.hour * 3600 + t.minute * 60 + t.second := rfl
  have hcivil := civil_dayNumber (show 1 ≤ t.year by omega) t.month_range t.day_range
  generalize hN : dayNumber t.year t.month t.day = N at hsplit hcivil
  have hday : t.toSeconds / 86400 + epochDay = N := by omega
  -- the day and its place in its era have the same month and day
  have hera := civil_add_eras (N % 146097) (N / 146097)
  rw [Nat.mod_add_div, hcivil.1, hcivil.2.1, hcivil.2.2] at hera
  obtain ⟨hy, hm, hd⟩ := hera
  have hn : ((N : ℤ) % 146097).toNat = N % 146097 := by omega
  unfold gmtime
  dsimp only
  rw [hday, hn, ← hm, ← hd]
  show _ = (⟨(t.year : ℤ) - 1900, (t.month : ℤ) - 1, t.day, t.hour, t.minute, t.second⟩ : Tm)
  rw [Tm.mk.injEq]
  refine ⟨by omega, rfl, rfl, by omega, by omega, by omega⟩

end CivilTime

theorem firstOfMonth_add_eras (year e : ℤ) (month : ℕ) :
    firstOfMonth (year + 400 * e) month = firstOfMonth year month + 146097 * e := by
  unfold firstOfMonth
  rw [show (year + 400 * e) % 400 = year % 400 by omega,
    show (year + 400 * e) / 400 = year / 400 + e by omega]
  ring

/-- **Every second is found again from its fields.** -/
theorem secondsOf_gmtime (s : ℤ) : secondsOf (gmtime s) = s := by
  let n := ((s / 86400 + epochDay) % 146097).toNat
  have hn : (n : ℤ) = (s / 86400 + epochDay) % 146097 := by omega
  -- one era on, the year of the day is not zero
  have hera := CivilTime.civil_add_eras n 1
  have hnumber := CivilTime.dayNumber_civil (n + 146097 * 1)
  have hmonth := CivilTime.civilMonth_range n
  have hday := CivilTime.civilDay_range n
  rw [hera.1, hera.2.1, hera.2.2] at hnumber
  have hfirst : (dayNumber (CivilTime.civilYear n + 400 * 1) (CivilTime.civilMonth n)
        (CivilTime.civilDay n) : ℤ)
      = dayNumber (CivilTime.civilYear n + 400 * 1) (CivilTime.civilMonth n) 1
        + (CivilTime.civilDay n - 1) := by
    unfold dayNumber
    split
    · omega
    · omega
  have hshift := firstOfMonth_natCast (show 1 ≤ CivilTime.civilYear n + 400 * 1 by omega)
    (CivilTime.civilMonth n)
  have hyear := firstOfMonth_add_eras (CivilTime.civilYear n) 1 (CivilTime.civilMonth n)
  push_cast at hshift hfirst hyear
  rw [Nat.mul_one, Nat.mul_one] at hnumber
  show (firstOfMonth ((CivilTime.civilYear n : ℤ) + 400 * ((s / 86400 + epochDay) / 146097) - 1900
        + 1900 + ((CivilTime.civilMonth n : ℤ) - 1) / 12)
      ((((CivilTime.civilMonth n : ℤ) - 1) % 12).toNat + 1) + ((CivilTime.civilDay n : ℤ) - 1)
      - epochDay) * 86400 + s % 86400 / 3600 * 3600 + s % 3600 / 60 * 60 + s % 60 = s
  rw [show (CivilTime.civilYear n : ℤ) + 400 * ((s / 86400 + epochDay) / 146097) - 1900 + 1900
        + ((CivilTime.civilMonth n : ℤ) - 1) / 12
      = CivilTime.civilYear n + 400 * ((s / 86400 + epochDay) / 146097) by omega,
    show (((CivilTime.civilMonth n : ℤ) - 1) % 12).toNat + 1 = CivilTime.civilMonth n by omega,
    firstOfMonth_add_eras]
  omega

/-- Different seconds have different fields. -/
theorem gmtime_injective {s s' : ℤ} (h : gmtime s = gmtime s') : s = s' := by
  rw [← secondsOf_gmtime s, h, secondsOf_gmtime]

namespace CivilTime

/-- Within the range of the nanosecond clock every second is one of a time. -/
theorem exists_time {s : ℤ} (hs : |s| ≤ 9223372036) :
    ∃ t : CivilTime, t.toSeconds = s ∧ gmtime s = t.tm := by
  obtain ⟨t, -, ht⟩ := toSeconds_ofSeconds hs
  refine ⟨t, ht, ?_⟩
  rw [← ht]
  exact t.gmtime_toSeconds

theorem tm_injective {t u : CivilTime} (h : t.tm = u.tm) : t = u := by
  have hfields : t.toFields = u.toFields := TimeFields.tm_injective h
  obtain ⟨hyear, hmonth, hday, hhour, hminute, hsecond⟩ := TimeFields.mk.inj hfields
  cases t
  cases u
  rw [CivilTime.mk.injEq]
  exact ⟨hyear, hmonth, hday, hhour, hminute, hsecond⟩

end CivilTime

end FinCore.Cxx

/-
  FinCore.Cxx.Calendar
  ────────────────────
  The proleptic Gregorian calendar: UTC times by their fields, the seconds
  since 1970 they stand for, and their text `YYYY-MM-DDThh:mm:ss`.

  Days are counted from 1 March of the year 0, so that a leap day is the last
  day of its year.  A time carries the proofs that its fields are in range; its
  year has four digits.
-/
import FinCore.Cxx.Text

namespace FinCore.Cxx

/-! ## §1. Days. -/

/-- The days from 1 March of the year 0 to 1 March of the year `y`. -/
def daysBeforeYear (y : ℕ) : ℕ := 365 * y + y / 4 - y / 100 + y / 400

/-- The days before a month of a year that begins with March. -/
def daysBeforeMonth (m : ℕ) : ℕ := (153 * m + 2) / 5

def isLeapYear (y : ℕ) : Bool := y % 4 = 0 && (y % 100 ≠ 0 || y % 400 = 0)

def daysInMonth (year month : ℕ) : ℕ :=
  if month = 2 then if isLeapYear year then 29 else 28
  else if month = 4 ∨ month = 6 ∨ month = 9 ∨ month = 11 then 30
  else 31

/-- The days from 1 March of the year 0 to a date. -/
def dayNumber (year month day : ℕ) : ℕ :=
  if month ≤ 2 then daysBeforeYear (year - 1) + daysBeforeMonth (month + 9) + (day - 1)
  else daysBeforeYear year + daysBeforeMonth (month - 3) + (day - 1)

/-- The days from 1 March of the year 0 to the Unix epoch. -/
def epochDay : ℕ := 719468

example : dayNumber 1970 1 1 = epochDay := by decide

/-- The year, begun in March, that the `n`-th day falls in. -/
def yearOfDay (n : ℕ) : ℕ := Nat.findGreatest (fun y => daysBeforeYear y ≤ n) (n / 365)

theorem yearOfDay_spec (n : ℕ) :
    daysBeforeYear (yearOfDay n) ≤ n ∧ n < daysBeforeYear (yearOfDay n + 1) := by
  have hzero : daysBeforeYear 0 ≤ n := Nat.zero_le n
  refine ⟨Nat.findGreatest_spec (P := fun y => daysBeforeYear y ≤ n) (Nat.zero_le _) hzero, ?_⟩
  by_contra hle
  rw [not_lt] at hle
  -- a later year would have been found
  have hbound : yearOfDay n + 1 ≤ n / 365 := by
    unfold daysBeforeYear at hle
    omega
  have hfound : yearOfDay n + 1 ≤ yearOfDay n := Nat.le_findGreatest hbound hle
  omega

/-- Going on to the next year, a quotient grows with every multiple. -/
theorem succ_div_step (y k : ℕ) :
    (y + 1) / k = y / k + (if (y + 1) % k = 0 then 1 else 0) := by
  rw [Nat.succ_div]
  simp only [Nat.dvd_iff_mod_eq_zero]

/-- A year has 366 days if its last February has a 29th. -/
theorem daysBeforeYear_succ (y : ℕ) :
    daysBeforeYear (y + 1) = daysBeforeYear y + (if isLeapYear (y + 1) then 366 else 365) := by
  have h4 := succ_div_step y 4
  have h100 := succ_div_step y 100
  have h400 := succ_div_step y 400
  have hcentury : y / 100 ≤ y / 4 := Nat.div_le_div_left (by decide) (by decide)
  have hof100 : (y + 1) % 100 = 0 → (y + 1) % 4 = 0 := by omega
  have hof400 : (y + 1) % 400 = 0 → (y + 1) % 100 = 0 := by omega
  -- the three rules of the calendar, from the most to the least frequent
  by_cases hy4 : (y + 1) % 4 = 0
  · rw [if_pos hy4] at h4
    by_cases hy100 : (y + 1) % 100 = 0
    · rw [if_pos hy100] at h100
      by_cases hy400 : (y + 1) % 400 = 0
      · have hleap : isLeapYear (y + 1) = true := by simp [isLeapYear, hy4, hy400]
        rw [if_pos hy400] at h400
        rw [hleap, if_pos rfl, daysBeforeYear, daysBeforeYear, h4, h100, h400]
        omega
      · have hleap : isLeapYear (y + 1) = false := by simp [isLeapYear, hy100, hy400]
        rw [if_neg hy400] at h400
        rw [hleap, if_neg (by decide), daysBeforeYear, daysBeforeYear, h4, h100, h400]
        omega
    · have hy400 : ¬ (y + 1) % 400 = 0 := fun h => hy100 (hof400 h)
      have hleap : isLeapYear (y + 1) = true := by simp [isLeapYear, hy4, hy100]
      rw [if_neg hy100] at h100
      rw [if_neg hy400] at h400
      rw [hleap, if_pos rfl, daysBeforeYear, daysBeforeYear, h4, h100, h400]
      omega
  · have hy100 : ¬ (y + 1) % 100 = 0 := fun h => hy4 (hof100 h)
    have hy400 : ¬ (y + 1) % 400 = 0 := fun h => hy100 (hof400 h)
    have hleap : isLeapYear (y + 1) = false := by simp [isLeapYear, hy4]
    rw [if_neg hy4] at h4
    rw [if_neg hy100] at h100
    rw [if_neg hy400] at h400
    rw [hleap, if_neg (by decide), daysBeforeYear, daysBeforeYear, h4, h100, h400]
    omega

/-! ## §2. Times. -/

/-- A UTC time in a year of four digits, without leap seconds. -/
structure CivilTime where
  year : ℕ
  month : ℕ
  day : ℕ
  hour : ℕ
  minute : ℕ
  second : ℕ
  year_range : 1000 ≤ year ∧ year < 10000
  month_range : 1 ≤ month ∧ month ≤ 12
  day_range : 1 ≤ day ∧ day ≤ daysInMonth year month
  hour_lt : hour < 24
  minute_lt : minute < 60
  second_lt : second < 60

/-- The seconds from the Unix epoch to a time given by its fields. -/
def secondsSinceEpoch (year month day hour minute second : ℕ) : ℤ :=
  ((dayNumber year month day : ℤ) - epochDay) * 86400 + hour * 3600 + minute * 60 + second

namespace CivilTime

def toSeconds (t : CivilTime) : ℤ :=
  secondsSinceEpoch t.year t.month t.day t.hour t.minute t.second

theorem day_le (t : CivilTime) : t.day ≤ 31 := by
  have h := t.day_range.2
  unfold daysInMonth at h
  split at h
  · split at h
    · omega
    · omega
  · split at h
    · omega
    · omega

/-- `%Y-%m-%dT%H:%M:%S`. -/
def text (t : CivilTime) : Str :=
  toStringNat t.year ++ '-' :: padZero 2 (toStringNat t.month) ++ '-' :: padZero 2 (toStringNat t.day)
    ++ 'T' :: padZero 2 (toStringNat t.hour) ++ ':' :: padZero 2 (toStringNat t.minute)
    ++ ':' :: padZero 2 (toStringNat t.second)

/-- The text with microseconds, as an instant in UTC. -/
def instantText (t : CivilTime) (us : ℕ) : Str :=
  t.text ++ '.' :: padZero 6 (toStringNat us) ++ ['Z']

/-! ## §3. From seconds to times. -/

section OfSeconds

/-- The month and the day of the `d`-th day of a year begun in March. -/
theorem month_spec {d : ℕ} (hd : d < 366) :
    daysBeforeMonth ((5 * d + 2) / 153) ≤ d ∧ d < daysBeforeMonth ((5 * d + 2) / 153 + 1)
      ∧ (5 * d + 2) / 153 < 12 := by
  unfold daysBeforeMonth
  omega

variable (n : ℕ)

/-- The day within the year begun in March. -/
def dayOfYear : ℕ := n - daysBeforeYear (yearOfDay n)

/-- Counted from March. -/
def monthOfDay : ℕ := (5 * dayOfYear n + 2) / 153

def civilYear : ℕ := if monthOfDay n < 10 then yearOfDay n else yearOfDay n + 1

def civilMonth : ℕ := if monthOfDay n < 10 then monthOfDay n + 3 else monthOfDay n - 9

def civilDay : ℕ := dayOfYear n - daysBeforeMonth (monthOfDay n) + 1

theorem dayOfYear_lt :
    dayOfYear n < (if isLeapYear (yearOfDay n + 1) then 366 else 365) := by
  obtain ⟨hlow, hhigh⟩ := yearOfDay_spec n
  rw [daysBeforeYear_succ] at hhigh
  unfold dayOfYear
  omega

theorem dayOfYear_lt_366 : dayOfYear n < 366 := by
  have h := dayOfYear_lt n
  split at h
  · exact h
  · omega

theorem civilMonth_range : 1 ≤ civilMonth n ∧ civilMonth n ≤ 12 := by
  obtain ⟨_, _, hm⟩ := month_spec (dayOfYear_lt_366 n)
  have hm' : monthOfDay n < 12 := hm
  unfold civilMonth
  split
  · omega
  · omega

/-- A month other than February is as long as the next one is away. -/
theorem daysInMonth_of_march (year : ℕ) {m : ℕ} (hm : m < 11) :
    daysInMonth year (if m < 10 then m + 3 else m - 9)
      = daysBeforeMonth (m + 1) - daysBeforeMonth m := by
  unfold daysInMonth
  rw [if_neg (by split <;> omega)]
  revert m
  decide

/-- A day within its month of the year begun in March; February is the last
one and ends with the year. -/
theorem day_le_daysInMonth {year d : ℕ} (hlow : daysBeforeMonth ((5 * d + 2) / 153) ≤ d)
    (hhigh : d < daysBeforeMonth ((5 * d + 2) / 153 + 1)) (hlast : (5 * d + 2) / 153 < 12)
    (hyear : d < (if isLeapYear (year + 1) then 366 else 365)) :
    d - daysBeforeMonth ((5 * d + 2) / 153) + 1
      ≤ daysInMonth (if (5 * d + 2) / 153 < 10 then year else year + 1)
        (if (5 * d + 2) / 153 < 10 then (5 * d + 2) / 153 + 3 else (5 * d + 2) / 153 - 9) := by
  generalize (5 * d + 2) / 153 = m at hlow hhigh hlast ⊢
  by_cases hfebruary : m = 11
  · subst hfebruary
    have hbefore : daysBeforeMonth 11 = 337 := by decide
    show d - daysBeforeMonth 11 + 1 ≤ (if isLeapYear (year + 1) then 29 else 28)
    rw [hbefore]
    split at hyear
    next h =>
      rw [if_pos h]
      omega
    next h =>
      rw [if_neg h]
      omega
  · rw [daysInMonth_of_march _ (by omega)]
    omega

theorem civilDay_range :
    1 ≤ civilDay n ∧ civilDay n ≤ daysInMonth (civilYear n) (civilMonth n) := by
  obtain ⟨hlow, hhigh, hm⟩ := month_spec (dayOfYear_lt_366 n)
  exact ⟨Nat.le_add_left _ _, day_le_daysInMonth hlow hhigh hm (dayOfYear_lt n)⟩

/-- The date of the `n`-th day has the number `n`. -/
theorem dayNumber_civil : dayNumber (civilYear n) (civilMonth n) (civilDay n) = n := by
  obtain ⟨hlow, _, hm⟩ := month_spec (dayOfYear_lt_366 n)
  have hlow' : daysBeforeMonth (monthOfDay n) ≤ dayOfYear n := hlow
  have hm' : monthOfDay n < 12 := hm
  have hyear := (yearOfDay_spec n).1
  have hday : daysBeforeYear (yearOfDay n) + dayOfYear n = n := by
    unfold dayOfYear
    omega
  unfold dayNumber civilYear civilMonth civilDay
  by_cases h : monthOfDay n < 10
  · rw [if_pos h, if_pos h, if_neg (by omega), Nat.add_sub_cancel, Nat.add_sub_cancel]
    omega
  · rw [if_neg h, if_neg h, if_pos (by omega), Nat.add_sub_cancel, Nat.sub_add_cancel (by omega),
      Nat.add_sub_cancel]
    omega

end OfSeconds

theorem daysBeforeYear_mono {a b : ℕ} (h : a ≤ b) : daysBeforeYear a ≤ daysBeforeYear b := by
  refine monotone_nat_of_le_succ (fun y => ?_) h
  rw [daysBeforeYear_succ]
  exact Nat.le_add_right _ _

/-- Only one year begun in March contains a day. -/
theorem yearOfDay_eq {n y : ℕ} (hlow : daysBeforeYear y ≤ n) (hhigh : n < daysBeforeYear (y + 1)) :
    yearOfDay n = y := by
  obtain ⟨hlow', hhigh'⟩ := yearOfDay_spec n
  apply le_antisymm
  · by_contra hlt
    have hmono := daysBeforeYear_mono (a := y + 1) (b := yearOfDay n) (by omega)
    omega
  · by_contra hlt
    have hmono := daysBeforeYear_mono (a := yearOfDay n + 1) (b := y) (by omega)
    omega

/-- A day given by a year and a month begun in March falls in them. -/
theorem marchDay {y m d : ℕ}
    (hmonth : daysBeforeMonth m + d < daysBeforeMonth (m + 1))
    (hyear : daysBeforeMonth m + d < (if isLeapYear (y + 1) then 366 else 365)) :
    yearOfDay (daysBeforeYear y + daysBeforeMonth m + d) = y
      ∧ dayOfYear (daysBeforeYear y + daysBeforeMonth m + d) = daysBeforeMonth m + d
      ∧ monthOfDay (daysBeforeYear y + daysBeforeMonth m + d) = m := by
  have hy : yearOfDay (daysBeforeYear y + daysBeforeMonth m + d) = y := by
    refine yearOfDay_eq (by omega) ?_
    rw [daysBeforeYear_succ]
    omega
  have hdoy : dayOfYear (daysBeforeYear y + daysBeforeMonth m + d) = daysBeforeMonth m + d := by
    unfold dayOfYear
    rw [hy]
    omega
  refine ⟨hy, hdoy, ?_⟩
  unfold monthOfDay
  rw [hdoy]
  unfold daysBeforeMonth at *
  omega

/-- Within its year begun in March, a date lies inside its month and the year. -/
theorem marchDay_bounds {year month day : ℕ} (hmonth : 1 ≤ month ∧ month ≤ 12)
    (hday : 1 ≤ day ∧ day ≤ daysInMonth year month) {m y : ℕ}
    (hm : m = if month ≤ 2 then month + 9 else month - 3)
    (hy : y + 1 = if month ≤ 2 then year else year + 1) :
    daysBeforeMonth m + (day - 1) < daysBeforeMonth (m + 1)
      ∧ daysBeforeMonth m + (day - 1) < (if isLeapYear (y + 1) then 366 else 365) := by
  by_cases hfebruary : month = 2
  · subst hfebruary
    -- February is the last month, and the only one whose length varies
    rw [if_pos le_rfl] at hm hy
    subst hm
    rw [hy]
    have h11 : daysBeforeMonth (2 + 9) = 337 := by decide
    have h12 : daysBeforeMonth (2 + 9 + 1) = 367 := by decide
    have hle : day ≤ (if isLeapYear year then 29 else 28) := hday.2
    rw [h11, h12]
    refine ⟨by split at hle <;> omega, ?_⟩
    split at hle
    next hleap =>
      rw [if_pos hleap]
      omega
    next hleap =>
      rw [if_neg hleap]
      omega
  · -- every other month ends where the next one begins
    have hm11 : m < 11 := by
      rw [hm]
      split
      · omega
      · omega
    have hback : (if m < 10 then m + 3 else m - 9) = month := by
      rw [hm]
      split
      · rw [if_neg (by omega)]
        omega
      · rw [if_pos (by omega)]
        omega
    have hlength := daysInMonth_of_march year hm11
    rw [hback] at hlength
    have hmono : daysBeforeMonth (m + 1) ≤ 337 := by
      unfold daysBeforeMonth
      omega
    constructor
    · omega
    · split
      · omega
      · omega

/-- **A date is found again from its day.** -/
theorem civil_dayNumber {year month day : ℕ} (hyear : 1 ≤ year)
    (hmonth : 1 ≤ month ∧ month ≤ 12) (hday : 1 ≤ day ∧ day ≤ daysInMonth year month) :
    civilYear (dayNumber year month day) = year ∧ civilMonth (dayNumber year month day) = month
      ∧ civilDay (dayNumber year month day) = day := by
  unfold dayNumber
  -- January and February belong to the March year before
  by_cases hearly : month ≤ 2
  · rw [if_pos hearly]
    obtain ⟨hin, hlast⟩ := marchDay_bounds hmonth hday (m := month + 9) (y := year - 1)
      (by rw [if_pos hearly]) (by rw [if_pos hearly]; omega)
    obtain ⟨hy, hdoy, hm⟩ := marchDay hin hlast
    unfold civilYear civilMonth civilDay
    rw [hy, hdoy, hm, if_neg (by omega), if_neg (by omega)]
    omega
  · rw [if_neg hearly]
    obtain ⟨hin, hlast⟩ := marchDay_bounds hmonth hday (m := month - 3) (y := year)
      (by rw [if_neg hearly]) (by rw [if_neg hearly])
    obtain ⟨hy, hdoy, hm⟩ := marchDay hin hlast
    unfold civilYear civilMonth civilDay
    rw [hy, hdoy, hm, if_pos (by omega), if_pos (by omega)]
    omega

/-- The time `s` seconds after the epoch, if its year has four digits. -/
def ofSeconds? (s : ℤ) : Option CivilTime :=
  let n := (s / 86400 + epochDay).toNat
  if h : 1000 ≤ civilYear n ∧ civilYear n < 10000 then
    some { year := civilYear n, month := civilMonth n, day := civilDay n
           hour := (s % 86400).toNat / 3600, minute := (s % 86400).toNat % 3600 / 60
           second := (s % 86400).toNat % 60
           year_range := h, month_range := civilMonth_range n, day_range := civilDay_range n
           hour_lt := by omega, minute_lt := by omega, second_lt := by omega }
  else none

/-- **The fields of a time stand for its seconds.** -/
theorem toSeconds_ofSeconds {s : ℤ} (hs : |s| ≤ 9223372036) :
    ∃ t, ofSeconds? s = some t ∧ t.toSeconds = s := by
  rw [abs_le] at hs
  obtain ⟨hlow, hhigh⟩ := hs
  have hn : ((s / 86400 + epochDay).toNat : ℤ) = s / 86400 + epochDay := by
    unfold epochDay
    omega
  have hyear := yearOfDay_spec (s / 86400 + epochDay).toNat
  have hrange : 1000 ≤ civilYear (s / 86400 + epochDay).toNat
      ∧ civilYear (s / 86400 + epochDay).toNat < 10000 := by
    unfold daysBeforeYear at hyear
    unfold civilYear
    unfold epochDay at hn hyear ⊢
    split
    · omega
    · omega
  have hnumber := dayNumber_civil (s / 86400 + epochDay).toNat
  unfold ofSeconds?
  refine ⟨_, dif_pos hrange, ?_⟩
  unfold toSeconds secondsSinceEpoch
  simp only [hnumber]
  rw [hn]
  omega

/-! ## §4. Reading the text. -/

/-- A number of `width` digits, and what follows the character behind it. -/
def readField (width : ℕ) (s : Str) : ℕ × Str := (digitsValue (s.take width), s.drop (width + 1))

theorem readField_append {w rest : Str} {c : Char} {width : ℕ} (h : w.length = width) :
    readField width (w ++ c :: rest) = (digitsValue w, rest) := by
  have hdrop : (w ++ c :: rest).drop (width + 1) = rest := by
    rw [List.append_cons, List.drop_left' (by rw [List.length_append, h]; rfl)]
  rw [readField, List.take_left' h, hdrop]

/-- The microseconds since the epoch that `YYYY-MM-DDThh:mm:ss.ffffffZ` stands
for. -/
def readInstant (s : Str) : ℤ :=
  let (year, s) := readField 4 s
  let (month, s) := readField 2 s
  let (day, s) := readField 2 s
  let (hour, s) := readField 2 s
  let (minute, s) := readField 2 s
  let (second, s) := readField 2 s
  let (us, _) := readField 6 s
  secondsSinceEpoch year month day hour minute second * 10 ^ 6 + us

/-- A padded field that is wide enough. -/
theorem field_length {n width : ℕ} (hwidth : 0 < width) (h : n < 10 ^ width) :
    (padZero width (toStringNat n)).length = width :=
  length_padZero (toStringNat_length_le hwidth h)

theorem year_length (t : CivilTime) : (toStringNat t.year).length = 4 := by
  obtain ⟨hlow, hhigh⟩ := t.year_range
  have hle : (toStringNat t.year).length ≤ 4 := toStringNat_length_le (by decide) hhigh
  by_contra hne
  have hshort : (toStringNat t.year).length ≤ 3 := by omega
  have hvalue := digitsValue_lt (toStringNat_isDigits t.year)
  have hpow : 10 ^ (toStringNat t.year).length ≤ 10 ^ 3 := Nat.pow_le_pow_right (by decide) hshort
  rw [digitsValue_toStringNat] at hvalue
  omega

/-- **The text of an instant is read as the instant.** -/
theorem readInstant_text (t : CivilTime) {us : ℕ} (hus : us < 10 ^ 6) :
    readInstant (t.instantText us) = t.toSeconds * 10 ^ 6 + us := by
  have hmonth := t.month_range.2
  have hday := t.day_le
  have hhour := t.hour_lt
  have hminute := t.minute_lt
  have hsecond := t.second_lt
  unfold readInstant instantText text
  simp only [List.append_assoc, List.cons_append]
  rw [readField_append t.year_length, readField_append (field_length (by decide) (by omega)),
    readField_append (field_length (by decide) (by omega)),
    readField_append (field_length (by decide) (by omega)),
    readField_append (field_length (by decide) (by omega)),
    readField_append (field_length (by decide) (by omega)),
    readField_append (field_length (by decide) hus)]
  simp only [digitsValue_padZero, digitsValue_toStringNat]
  rfl

theorem text_no_nul (t : CivilTime) (us : ℕ) : Char.ofNat 0 ∉ t.instantText us := by
  have hnumber : ∀ n, Char.ofNat 0 ∉ toStringNat n :=
    fun n hmem => absurd (toStringNat_isDigits n _ hmem) (by decide)
  have hfield : ∀ width n, Char.ofNat 0 ∉ padZero width (toStringNat n) :=
    fun width n hmem => absurd (isDigits_padZero (toStringNat_isDigits n) _ hmem) (by decide)
  unfold instantText text
  simp only [List.mem_append, List.mem_cons, List.not_mem_nil, hnumber, hfield, or_false, false_or]
  decide

end CivilTime

end FinCore.Cxx

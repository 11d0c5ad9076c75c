/-
  FinCore.Domain.Decimal
  ──────────────────────
  `domain::Decimal`: fixed-point numbers with eight fractional digits in an
  `int64`, their parser `fromString` and their printer `toString`.

  The parser is written over `Checked`, so the same definition says what it
  returns and whether any of its 64-bit operations wrapped; `fromString` is its
  result.  The four loops and the final range check are separate definitions,
  each with one lemma that says what it computes on the numbers behind the
  words.
-/
import FinCore.Cxx.Checked
import FinCore.Cxx.DecimalLiteral
import FinCore.Core.Types

namespace FinCore.Domain

open FinCore.Cxx
open FinCore.Cxx.Checked

/-- A fixed-point number: `raw` units of `10 ^ -8`. -/
@[ext] structure Decimal where
  raw : Int64
  deriving DecidableEq

namespace Decimal

/-- Eight fractional digits. -/
def scale : Int64 := 100000000

def fromRaw (raw : Int64) : Decimal := ⟨raw⟩

/-- The number a decimal stands for. -/
def toRat (d : Decimal) : ℚ := d.raw.toInt / 10 ^ 8

/-! ## §1. The parser. -/

def overflowError : Exn := .outOfRange "decimal value exceeds the supported range".toList

def rangeError : Exn := .outOfRange "decimal value exceeds int64 range".toList

def nonDigitError : Exn := .invalidArgument "decimal contains a non-digit character".toList

/-- `current * 10 + digit`, or the overflow error. -/
def checkedAccumulate (current : UInt64) (digit : ℕ) : Checked Exn UInt64 := do
  let max : UInt64 := 18446744073709551615
  let room ← subU64 max (UInt64.ofNat digit)
  if room / 10 < current then throw overflowError
  else do
    let shifted ← mulU64 current 10
    addU64 shifted (UInt64.ofNat digit)

/-- The digits up to the point or the end; what is left starts at the point. -/
def accumulateWhole (whole : UInt64) (sawWholeDigit : Bool) :
    Str → Checked Exn (UInt64 × Bool × Str)
  | [] => pure (whole, sawWholeDigit, [])
  | ch :: rest =>
      if ch = '.' then pure (whole, sawWholeDigit, ch :: rest)
      else if ch < '0' ∨ ch > '9' then throw nonDigitError
      else do
        let whole' ← checkedAccumulate whole (digitOf ch)
        accumulateWhole whole' true rest

/-- The digits after the point, eight at most. -/
def accumulateFraction (fraction : UInt64) (fractionDigits : ℕ) :
    Str → Checked Exn (UInt64 × ℕ)
  | [] => pure (fraction, fractionDigits)
  | ch :: rest =>
      if ch < '0' ∨ ch > '9' then throw nonDigitError
      else if fractionDigits = 8 then
        throw (.invalidArgument "decimal contains more than eight fractional digits".toList)
      else do
        let shifted ← mulU64 fraction 10
        let fraction' ← addU64 shifted (UInt64.ofNat (digitOf ch))
        accumulateFraction fraction' (fractionDigits + 1) rest

/-- What follows the whole part: nothing, or a point and at least one digit. -/
def readFraction : Str → Checked Exn (UInt64 × ℕ)
  | [] => pure (0, 0)
  | _ :: digits =>
      if digits = [] then
        throw (.invalidArgument "decimal point must be followed by digits".toList)
      else accumulateFraction 0 0 digits

/-- `fraction *= 10` once for every missing fractional digit. -/
def padFraction (fraction : UInt64) : ℕ → Checked Exn UInt64
  | 0 => pure fraction
  | missing + 1 => do
      let fraction' ← mulU64 fraction 10
      padFraction fraction' missing

/-- The range check and the conversion to a signed raw value. -/
def assemble (negative : Bool) (whole fraction : UInt64) : Checked Exn Decimal := do
  let positiveLimit : UInt64 := 9223372036854775807
  let negativeLimit : UInt64 := positiveLimit + 1
  let limit := if negative then negativeLimit else positiveLimit
  let scaleValue : UInt64 := 100000000
  let room ← subU64 limit fraction
  -- `whole * scale + fraction` would leave the limit
  if room / scaleValue < whole then throw rangeError
  else do
    let shifted ← mulU64 whole scaleValue
    let magnitude ← addU64 shifted fraction
    if negative = false then fromRaw <$> toI64 magnitude
    -- the least value has no positive counterpart to negate
    else if magnitude = negativeLimit then pure (fromRaw Int64.minValue)
    else do
      let positive ← toI64 magnitude
      fromRaw <$> negI64 positive

/-- The missing fractional digits, then the range check. -/
def finishFraction (negative : Bool) (whole : UInt64) :
    UInt64 × ℕ → Checked Exn Decimal
  | (fraction, fractionDigits) => do
      let padded ← padFraction fraction (8 - fractionDigits)
      assemble negative whole padded

/-- The fraction, once the whole part has been read. -/
def finishWhole (negative : Bool) : UInt64 × Bool × Str → Checked Exn Decimal
  | (whole, sawWholeDigit, rest) =>
      if sawWholeDigit = false then
        throw (.invalidArgument "decimal requires digits before the decimal point".toList)
      else do
        let fraction ← readFraction rest
        finishFraction negative whole fraction

/-- `Decimal::from_string`, with its overflow flag. -/
def fromStringChecked (value : Str) : Checked Exn Decimal :=
  if value = [] then throw (.invalidArgument "decimal string is empty".toList)
  else
    let (sign, unsigned) := Sign.split value
    if unsigned = [] then
      throw (.invalidArgument "decimal has a sign but no digits".toList)
    else do
      let read ← accumulateWhole 0 false unsigned
      finishWhole (decide (sign = .minus)) read

/-- `Decimal::from_string`. -/
def fromString (value : Str) : Except Exn Decimal := (fromStringChecked value).result

/-! ## §2. The printer. -/

/-- `|raw|` as an unsigned word; the detour over `raw + 1` keeps the negation
of the least `int64` in range. -/
def magnitude (d : Decimal) : UInt64 :=
  if d.raw < 0 then (-(d.raw + 1)).toUInt64 + 1 else d.raw.toUInt64

/-- `Decimal::to_string`. -/
def toString (d : Decimal) : Str :=
  let scaleValue : UInt64 := 100000000
  let whole := d.magnitude / scaleValue
  let fraction := d.magnitude % scaleValue
  let fractionText := toStringNat fraction.toNat
  (if d.raw < 0 then ['-'] else []) ++ toStringNat whole.toNat ++ ['.']
    ++ List.replicate (8 - fractionText.length) '0' ++ fractionText

/-! ## §3. What each loop computes. -/

theorem not_digit_iff (ch : Char) : (ch < '0' ∨ ch > '9') ↔ ch.isDigit = false := by
  have h := Char.isDigit_iff_toNat (c := ch)
  rw [← Bool.not_eq_true, h, Char.lt_def, gt_iff_lt, Char.lt_def, UInt32.lt_iff_toNat_lt,
    UInt32.lt_iff_toNat_lt]
  show ch.toNat < '0'.toNat ∨ '9'.toNat < ch.toNat ↔ _
  omega

theorem checkedAccumulate_eq {n d : ℕ} (hn : n < 2 ^ 64) (hd : d < 10) :
    checkedAccumulate (UInt64.ofNat n) d
      = if n * 10 + d < 2 ^ 64 then pure (UInt64.ofNat (n * 10 + d))
        else throw overflowError := by
  have hmax : (18446744073709551615 : UInt64) = UInt64.ofNat 18446744073709551615 := by decide
  have hten : (10 : UInt64) = UInt64.ofNat 10 := by decide
  unfold checkedAccumulate
  simp only [hmax, hten, subU64_ofNat (show 18446744073709551615 < 2 ^ 64 by decide)
    (show d ≤ 18446744073709551615 by omega), pure_bind]
  rw [ofNat_div (by omega) (by decide)]
  simp only [ofNat_lt_iff (show (18446744073709551615 - d) / 10 < 2 ^ 64 by omega) hn]
  by_cases hfit : n * 10 + d < 2 ^ 64
  · rw [if_pos hfit, if_neg (by omega), mulU64_ofNat hn (by decide) (by omega), pure_bind,
      addU64_ofNat hfit]
  · rw [if_neg hfit, if_pos (by omega)]

/-- Digits followed by the end or the point: the loop stops there with the
value of the digits, or overflows. -/
theorem accumulateWhole_digits {w r : Str} (hw : IsDigits w)
    (hr : r = [] ∨ ∃ r', r = '.' :: r') :
    ∀ {n : ℕ} (saw : Bool), n < 2 ^ 64 →
      accumulateWhole (UInt64.ofNat n) saw (w ++ r)
        = if n * 10 ^ w.length + digitsValue w < 2 ^ 64 then
            pure (UInt64.ofNat (n * 10 ^ w.length + digitsValue w), saw || !w.isEmpty, r)
          else throw overflowError := by
  induction w with
  | nil =>
      intro n saw hn
      have hstop : accumulateWhole (UInt64.ofNat n) saw r = pure (UInt64.ofNat n, saw, r) := by
        rcases hr with rfl | ⟨r', rfl⟩ <;> rfl
      rw [List.nil_append, hstop, List.length_nil, digitsValue_nil, pow_zero, mul_one,
        add_zero, if_pos hn, List.isEmpty_nil, Bool.not_true, Bool.or_false]
  | cons c w ih =>
      intro n saw hn
      obtain ⟨hc, hw'⟩ := isDigits_cons.mp hw
      have hdot : c ≠ '.' := by rintro rfl; exact absurd hc (by decide)
      have hd : ¬ (c < '0' ∨ c > '9') := by rw [not_digit_iff, hc]; decide
      have hlt := digitOf_lt hc
      -- the next digit moves the value one place to the left
      have hval : n * 10 ^ (c :: w).length + digitsValue (c :: w)
          = (n * 10 + digitOf c) * 10 ^ w.length + digitsValue w := by
        rw [digitsValue_cons, List.length_cons, pow_succ]
        ring
      rw [List.cons_append, accumulateWhole, if_neg hdot, if_neg hd,
        checkedAccumulate_eq hn hlt, hval]
      by_cases hfit : n * 10 + digitOf c < 2 ^ 64
      · rw [if_pos hfit, pure_bind, ih hw' true hfit]
        simp
      · -- one digit too many already; the remaining ones only make it larger
        have hpos : 1 ≤ 10 ^ w.length := Nat.one_le_pow _ _ (by decide)
        have hmono := Nat.mul_le_mul_left (n * 10 + digitOf c) hpos
        rw [if_neg hfit, throw_bind, if_neg (by omega)]

/-- A character that is neither a digit nor the point is an error, if the
digits before it have not overflowed already. -/
theorem accumulateWhole_bad {w r : Str} {c : Char} (hw : IsDigits w) (hc : c.isDigit = false)
    (hdot : c ≠ '.') :
    ∀ {n : ℕ} (saw : Bool), n < 2 ^ 64 →
      ∃ e, accumulateWhole (UInt64.ofNat n) saw (w ++ c :: r) = throw e := by
  induction w with
  | nil =>
      intro n saw _
      have hd : c < '0' ∨ c > '9' := (not_digit_iff c).mpr hc
      exact ⟨nonDigitError, by rw [List.nil_append, accumulateWhole, if_neg hdot, if_pos hd]⟩
  | cons d w ih =>
      intro n saw hn
      obtain ⟨hd, hw'⟩ := isDigits_cons.mp hw
      have hne : d ≠ '.' := by rintro rfl; exact absurd hd (by decide)
      have hdig : ¬ (d < '0' ∨ d > '9') := by rw [not_digit_iff, hd]; decide
      rw [List.cons_append, accumulateWhole, if_neg hne, if_neg hdig,
        checkedAccumulate_eq hn (digitOf_lt hd)]
      -- the overflow may come before the bad character
      by_cases hfit : n * 10 + digitOf d < 2 ^ 64
      · rw [if_pos hfit, pure_bind]
        exact ih hw' true hfit
      · exact ⟨overflowError, by rw [if_neg hfit, throw_bind]⟩

theorem accumulateFraction_digits {w : Str} (hw : IsDigits w) :
    ∀ {f k : ℕ}, f < 10 ^ k → k + w.length ≤ 8 →
      accumulateFraction (UInt64.ofNat f) k w
        = pure (UInt64.ofNat (f * 10 ^ w.length + digitsValue w), k + w.length) := by
  induction w with
  | nil => intro f k _ _; simp [accumulateFraction]
  | cons c w ih =>
      intro f k hf hk
      obtain ⟨hc, hw'⟩ := isDigits_cons.mp hw
      have hd : ¬ (c < '0' ∨ c > '9') := by rw [not_digit_iff, hc]; decide
      have hlt := digitOf_lt hc
      rw [List.length_cons] at hk
      -- eight digits stay far below `2 ^ 64`, so nothing wraps
      have hpow : 10 ^ k ≤ 10 ^ 7 := Nat.pow_le_pow_right (by decide) (by omega)
      have hten : (10 : UInt64) = UInt64.ofNat 10 := by decide
      have hf' : f * 10 + digitOf c < 10 ^ (k + 1) := by
        rw [pow_succ]
        omega
      rw [accumulateFraction, if_neg hd, if_neg (by omega), hten,
        mulU64_ofNat (by omega) (by decide) (by omega), pure_bind, addU64_ofNat (by omega),
        pure_bind, ih hw' hf' (by omega), digitsValue_cons, List.length_cons, pow_succ]
      congr 2
      · congr 1
        ring
      · omega

theorem accumulateFraction_bad {w : Str} :
    ∀ {f k : ℕ}, f < 10 ^ k → k ≤ 8 → (¬ IsDigits w ∨ 8 < k + w.length) →
      ∃ e, accumulateFraction (UInt64.ofNat f) k w = throw e := by
  induction w with
  | nil =>
      intro f k _ hk h
      rcases h with h | h
      · exact absurd isDigits_nil h
      · simp only [List.length_nil] at h
        omega
  | cons c w ih =>
      intro f k hf hk h
      by_cases hd : c < '0' ∨ c > '9'
      · exact ⟨nonDigitError, by rw [accumulateFraction, if_pos hd]⟩
      have hc : c.isDigit = true := by
        rw [not_digit_iff] at hd
        simpa using hd
      -- the ninth digit is refused whatever follows it
      by_cases hk8 : k = 8
      · exact ⟨_, by rw [accumulateFraction, if_neg hd, if_pos hk8]⟩
      have hlt := digitOf_lt hc
      have hpow : 10 ^ k ≤ 10 ^ 7 := Nat.pow_le_pow_right (by decide) (by omega)
      have hten : (10 : UInt64) = UInt64.ofNat 10 := by decide
      have hf' : f * 10 + digitOf c < 10 ^ (k + 1) := by
        rw [pow_succ]
        omega
      have hrest : ¬ IsDigits w ∨ 8 < k + 1 + w.length := by
        rcases h with h | h
        · exact Or.inl (fun hw => h (isDigits_cons.mpr ⟨hc, hw⟩))
        · rw [List.length_cons] at h
          exact Or.inr (by omega)
      rw [accumulateFraction, if_neg hd, if_neg hk8, hten,
        mulU64_ofNat (by omega) (by decide) (by omega), pure_bind, addU64_ofNat (by omega),
        pure_bind]
      exact ih hf' (by omega) hrest

theorem padFraction_eq :
    ∀ (m : ℕ) {f : ℕ}, f * 10 ^ m < 2 ^ 64 →
      padFraction (UInt64.ofNat f) m = pure (UInt64.ofNat (f * 10 ^ m)) := by
  intro m
  induction m with
  | zero => intro f _; simp [padFraction]
  | succ m ih =>
      intro f hf
      have hpow : f * 10 ^ (m + 1) = f * 10 * 10 ^ m := by rw [pow_succ]; ring
      rw [hpow] at hf ⊢
      have hpos : 1 ≤ 10 ^ m := Nat.one_le_pow _ _ (by decide)
      have hle := Nat.mul_le_mul_left (f * 10) hpos
      have hten : (10 : UInt64) = UInt64.ofNat 10 := by decide
      rw [padFraction, hten, mulU64_ofNat (by omega) (by decide) (by omega), pure_bind, ih hf]

/-- The largest magnitude the sign allows. -/
def limitOf (negative : Bool) : ℕ := if negative then 2 ^ 63 else 2 ^ 63 - 1

/-- The signed raw value of a magnitude. -/
def signed (negative : Bool) (m : ℕ) : ℤ := if negative then -(m : ℤ) else m

theorem limitOf_bounds (negative : Bool) :
    2 ^ 63 - 1 ≤ limitOf negative ∧ limitOf negative ≤ 2 ^ 63 := by
  cases negative <;> simp [limitOf]

/-- The conversion of a magnitude within its limit is exact, the least `int64`
included. -/
theorem toSigned_eq (negative : Bool) {m : ℕ} (hm : m ≤ limitOf negative) :
    (if negative = false then fromRaw <$> toI64 (UInt64.ofNat m)
     else if UInt64.ofNat m = UInt64.ofNat (2 ^ 63) then pure (fromRaw Int64.minValue)
     else do
       let positive ← toI64 (UInt64.ofNat m)
       fromRaw <$> negI64 positive : Checked Exn Decimal)
      = pure (fromRaw (Int64.ofInt (signed negative m))) := by
  cases negative with
  | false =>
      have hpos : m < 2 ^ 63 := by
        simp only [limitOf, Bool.false_eq_true, if_false] at hm
        omega
      rw [if_pos rfl, toI64_ofNat hpos, map_pure]
      simp [signed]
  | true =>
      simp only [limitOf, if_true] at hm
      rw [if_neg (by simp)]
      by_cases hmin : m = 2 ^ 63
      · -- the least `int64`, which has no positive counterpart
        have hcast : Int64.ofInt (signed true (2 ^ 63)) = Int64.minValue := by decide
        rw [if_pos (by rw [hmin]), hmin, hcast]
      · have hlt : m < 2 ^ 63 := by omega
        have hne : ¬ UInt64.ofNat m = UInt64.ofNat (2 ^ 63) := by
          rw [ofNat_inj (by omega) (by decide)]
          exact hmin
        rw [if_neg hne, toI64_ofNat hlt, pure_bind, negI64_ofInt (by omega) (by omega), map_pure]
        simp [signed]

/-- The division in the range check loses nothing: the check succeeds exactly
when the scaled number is within its limit. -/
theorem assemble_eq (negative : Bool) {w f : ℕ} (hw : w < 2 ^ 64) (hf : f < 10 ^ 8) :
    assemble negative (UInt64.ofNat w) (UInt64.ofNat f)
      = if w * 10 ^ 8 + f ≤ limitOf negative then
          pure (fromRaw (Int64.ofInt (signed negative (w * 10 ^ 8 + f))))
        else throw rangeError := by
  have hscale : (100000000 : UInt64) = UInt64.ofNat (10 ^ 8) := by decide
  have hneg : (9223372036854775807 + 1 : UInt64) = UInt64.ofNat (2 ^ 63) := by decide
  have hlim : (if negative = true then UInt64.ofNat (2 ^ 63) else 9223372036854775807)
      = UInt64.ofNat (limitOf negative) := by
    cases negative <;> decide
  obtain ⟨hlo, hhi⟩ := limitOf_bounds negative
  unfold assemble
  simp only [hscale, hneg, hlim]
  rw [subU64_ofNat (by omega) (by omega), pure_bind, ofNat_div (by omega) (by decide)]
  simp only [ofNat_lt_iff (show (limitOf negative - f) / 10 ^ 8 < 2 ^ 64 by omega) hw]
  -- the check by division is the check of the sum itself
  by_cases hfit : w * 10 ^ 8 + f ≤ limitOf negative
  · have hroom : ¬ (limitOf negative - f) / 10 ^ 8 < w := by omega
    rw [if_pos hfit, if_neg hroom, mulU64_ofNat hw (by decide) (by omega), pure_bind,
      addU64_ofNat (by omega), pure_bind]
    exact toSigned_eq negative hfit
  · have hroom : (limitOf negative - f) / 10 ^ 8 < w := by omega
    rw [if_neg hfit, if_pos hroom]

/-! ## §4. What the parser throws. -/

theorem checkedAccumulate_throwsOnly (current : UInt64) (digit : ℕ) :
    ThrowsOnly Exn.IsParseError (checkedAccumulate current digit) := by
  refine (subU64_throwsOnly _ _).bind fun room => ?_
  refine (ThrowsOnly.throw trivial).ite ?_
  exact (mulU64_throwsOnly _ _).bind fun shifted => addU64_throwsOnly _ _

theorem accumulateWhole_throwsOnly (s : Str) :
    ∀ whole saw, ThrowsOnly Exn.IsParseError (accumulateWhole whole saw s) := by
  induction s with
  | nil => exact fun _ _ => ThrowsOnly.pure _
  | cons c s ih =>
      intro whole saw
      refine (ThrowsOnly.pure _).ite ((ThrowsOnly.throw trivial).ite ?_)
      exact (checkedAccumulate_throwsOnly _ _).bind fun whole' => ih whole' true

theorem accumulateFraction_throwsOnly (s : Str) :
    ∀ fraction count, ThrowsOnly Exn.IsParseError (accumulateFraction fraction count s) := by
  induction s with
  | nil => exact fun _ _ => ThrowsOnly.pure _
  | cons c s ih =>
      intro fraction count
      refine (ThrowsOnly.throw trivial).ite ((ThrowsOnly.throw trivial).ite ?_)
      refine (mulU64_throwsOnly _ _).bind fun shifted => ?_
      exact (addU64_throwsOnly _ _).bind fun fraction' => ih fraction' (count + 1)

theorem readFraction_throwsOnly (s : Str) : ThrowsOnly Exn.IsParseError (readFraction s) := by
  cases s with
  | nil => exact ThrowsOnly.pure _
  | cons c s => exact (ThrowsOnly.throw trivial).ite (accumulateFraction_throwsOnly s 0 0)

theorem padFraction_throwsOnly (missing : ℕ) :
    ∀ fraction, ThrowsOnly Exn.IsParseError (padFraction fraction missing) := by
  induction missing with
  | zero => exact fun fraction => ThrowsOnly.pure fraction
  | succ missing ih =>
      intro fraction
      exact (mulU64_throwsOnly _ _).bind fun fraction' => ih fraction'

theorem assemble_throwsOnly (negative : Bool) (whole fraction : UInt64) :
    ThrowsOnly Exn.IsParseError (assemble negative whole fraction) := by
  refine (subU64_throwsOnly _ _).bind fun room => (ThrowsOnly.throw trivial).ite ?_
  refine (mulU64_throwsOnly _ _).bind fun shifted => ?_
  refine (addU64_throwsOnly _ _).bind fun magnitude => ?_
  refine ((toI64_throwsOnly _).map _).ite ((ThrowsOnly.pure _).ite ?_)
  exact (toI64_throwsOnly _).bind fun positive => (negI64_throwsOnly _).map _

/-- **Only the two parsing exceptions leave the parser.** -/
theorem fromString_throwsOnly {s : Str} {e : Exn} (h : fromString s = .error e) :
    Exn.IsParseError e := by
  have hall : ThrowsOnly Exn.IsParseError (fromStringChecked s) := by
    refine (ThrowsOnly.throw trivial).ite ((ThrowsOnly.throw trivial).ite ?_)
    refine (accumulateWhole_throwsOnly _ _ _).bind fun read => ?_
    obtain ⟨whole, saw, rest⟩ := read
    refine (ThrowsOnly.throw trivial).ite ?_
    refine (readFraction_throwsOnly rest).bind fun fraction => ?_
    obtain ⟨f, count⟩ := fraction
    exact (padFraction_throwsOnly _ _).bind fun padded => assemble_throwsOnly _ _ _
  exact hall e h

end Decimal

end FinCore.Domain

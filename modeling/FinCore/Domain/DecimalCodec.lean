/-
  FinCore.Domain.DecimalCodec
  ───────────────────────────
  The decimal parser is exact and inverse to the decimal printer.

  `fromString` accepts a string exactly when it spells a decimal literal of at
  most eight fractional digits whose number, in units of `10 ^ -8`, fits an
  `int64`; the raw value is then that number of units, and no 64-bit operation
  wraps on any input.  The printer produces the canonical spelling of a raw
  value, so the accepted strings of one number share one canonical text.
-/
import FinCore.Domain.Decimal

namespace FinCore.Domain.Decimal

open FinCore.Cxx
open FinCore.Cxx.Checked

/-! ## §1. Literals inside and outside the range. -/

/-- The literal has at most eight fractional digits and its number of units
fits an `int64`. -/
structure InRange (l : DecimalLiteral) : Prop where
  fraction_le : l.fraction.length ≤ 8
  lower : -2 ^ 63 ≤ l.value * 10 ^ 8
  upper : l.value * 10 ^ 8 ≤ 2 ^ 63 - 1

/-- Whether the literal is negative, `-0` included. -/
def isMinus (l : DecimalLiteral) : Bool := decide (l.sign = .minus)

/-- The raw value of a literal in range. -/
def rawOf (l : DecimalLiteral) : ℤ := signed (isMinus l) (l.scaled 8)

theorem rawOf_eq (l : DecimalLiteral) : rawOf l = l.sign.apply (l.scaled 8 : ℤ) := by
  unfold rawOf signed isMinus Sign.apply
  cases l.sign <;> simp

/-- The sign-dependent limit on the magnitude is the range check on the
number. -/
theorem inRange_iff (l : DecimalLiteral) :
    InRange l ↔ l.fraction.length ≤ 8 ∧ l.scaled 8 ≤ limitOf (isMinus l) := by
  have hcast : ∀ h : l.fraction.length ≤ 8, l.value * 10 ^ 8 = ((rawOf l : ℤ) : ℚ) := by
    intro h
    rw [DecimalLiteral.value_mul_pow h, rawOf_eq]
  -- the two bounds on the raw value are one on its magnitude
  have hlimit : (-2 ^ 63 ≤ rawOf l ∧ rawOf l ≤ 2 ^ 63 - 1) ↔ l.scaled 8 ≤ limitOf (isMinus l) := by
    unfold rawOf signed limitOf
    cases isMinus l <;> simp
  constructor
  · intro h
    have hlo : ((-2 ^ 63 : ℤ) : ℚ) ≤ ((rawOf l : ℤ) : ℚ) := by
      rw [← hcast h.fraction_le]
      exact_mod_cast h.lower
    have hhi : ((rawOf l : ℤ) : ℚ) ≤ ((2 ^ 63 - 1 : ℤ) : ℚ) := by
      rw [← hcast h.fraction_le]
      exact_mod_cast h.upper
    exact ⟨h.fraction_le, hlimit.mp ⟨Int.cast_le.mp hlo, Int.cast_le.mp hhi⟩⟩
  · rintro ⟨hf, hm⟩
    obtain ⟨hlo, hhi⟩ := hlimit.mpr hm
    refine ⟨hf, ?_, ?_⟩
    · rw [hcast hf]
      exact_mod_cast hlo
    · rw [hcast hf]
      exact_mod_cast hhi

theorem rawOf_toInt {l : DecimalLiteral} (h : InRange l) :
    (Int64.ofInt (rawOf l)).toInt = rawOf l := by
  have hm := ((inRange_iff l).mp h).2
  have hrange : -2 ^ 63 ≤ rawOf l ∧ rawOf l < 2 ^ 63 := by
    revert hm
    unfold rawOf signed limitOf
    cases isMinus l <;> simp <;> omega
  exact Int64.toInt_ofInt_of_le hrange.1 hrange.2

/-! ## §2. The parser on literals. -/

theorem readFraction_text {f : Str} (hf : IsDigits f) (hlen : f.length ≤ 8) :
    readFraction (DecimalLiteral.fractionText f)
      = pure (UInt64.ofNat (digitsValue f), f.length) := by
  cases f with
  | nil => rfl
  | cons c f =>
      have hacc := accumulateFraction_digits hf (f := 0) (k := 0) (by decide)
        (by rw [Nat.zero_add]; exact hlen)
      rw [Nat.zero_mul, Nat.zero_add, Nat.zero_add] at hacc
      exact hacc

theorem scaledFraction_lt {l : DecimalLiteral} (h : l.fraction.length ≤ 8) :
    digitsValue l.fraction * 10 ^ (8 - l.fraction.length) < 10 ^ 8 := by
  have hlt := Nat.mul_lt_mul_of_pos_right (digitsValue_lt l.fraction_digits)
    (show 0 < 10 ^ (8 - l.fraction.length) by positivity)
  rwa [← pow_add, Nat.add_sub_cancel' h] at hlt

/-- The whole part of a literal that has one. -/
theorem accumulateWhole_text (l : DecimalLiteral) :
    accumulateWhole 0 false (l.whole ++ DecimalLiteral.fractionText l.fraction)
      = if digitsValue l.whole < 2 ^ 64 then
          pure (UInt64.ofNat (digitsValue l.whole), true,
            DecimalLiteral.fractionText l.fraction)
        else throw overflowError := by
  have hr : DecimalLiteral.fractionText l.fraction = []
      ∨ ∃ r', DecimalLiteral.fractionText l.fraction = '.' :: r' := by
    cases l.fraction with
    | nil => exact Or.inl rfl
    | cons c f => exact Or.inr ⟨_, rfl⟩
  have h := accumulateWhole_digits l.whole_digits hr (n := 0) false (by decide)
  have hne : l.whole.isEmpty = false := by simpa using l.whole_ne
  rw [Nat.zero_mul, Nat.zero_add, hne, Bool.not_false, Bool.or_true] at h
  exact h

theorem text_ne_nil (l : DecimalLiteral) : l.text ≠ [] := by
  intro h
  have hne := l.whole_ne
  simp [DecimalLiteral.text] at h
  exact hne h.2.1

/-- What the parser does with a literal of at most eight fractional digits. -/
theorem fromStringChecked_text {l : DecimalLiteral} (hlen : l.fraction.length ≤ 8) :
    fromStringChecked l.text
      = if 2 ^ 64 ≤ digitsValue l.whole then throw overflowError
        else if l.scaled 8 ≤ limitOf (isMinus l) then pure (fromRaw (Int64.ofInt (rawOf l)))
        else throw rangeError := by
  have hbody : l.whole ++ DecimalLiteral.fractionText l.fraction ≠ [] := by
    simp [l.whole_ne]
  have hfrac := scaledFraction_lt hlen
  unfold fromStringChecked
  rw [if_neg (text_ne_nil l), DecimalLiteral.split_text]
  simp only
  rw [if_neg hbody, accumulateWhole_text]
  by_cases hw : digitsValue l.whole < 2 ^ 64
  · rw [if_pos hw, if_neg (by omega), pure_bind, finishWhole, if_neg (by decide),
      readFraction_text l.fraction_digits hlen, pure_bind, finishFraction,
      padFraction_eq _ (by omega), pure_bind, assemble_eq _ hw hfrac]
    rfl
  · rw [if_neg hw, if_pos (by omega), throw_bind]

/-- What follows a run of digits cannot rescue a string that spells no literal
of at most eight fractional digits. -/
theorem afterDigits_bad (negative : Bool) {w r : Str} (hw : IsDigits w) (hne : w ++ r ≠ [])
    (hr : ∀ c ∈ r.head?, c.isDigit = false)
    (hbad : w ≠ [] → ∀ f, IsDigits f → r = DecimalLiteral.fractionText f → 8 < f.length) :
    ∃ e, accumulateWhole 0 false (w ++ r) >>= finishWhole negative = throw e := by
  have hzero : (0 : UInt64) = UInt64.ofNat 0 := by decide
  rw [hzero]
  cases r with
  | nil =>
      -- only digits: the empty fraction would do
      have hw' : w ≠ [] := by simpa using hne
      exact absurd (hbad hw' [] isDigits_nil rfl) (by decide)
  | cons c r =>
      have hc : c.isDigit = false := hr c rfl
      by_cases hdot : c = '.'
      · subst hdot
        rw [accumulateWhole_digits hw (Or.inr ⟨r, rfl⟩) false (by decide), Nat.zero_mul,
          Nat.zero_add]
        by_cases hfit : digitsValue w < 2 ^ 64
        · rw [if_pos hfit, pure_bind, finishWhole]
          by_cases hw' : w = []
          · exact ⟨_, by rw [if_pos (by simp [hw'])]⟩
          rw [if_neg (by simp [hw'])]
          by_cases hr' : r = []
          · exact ⟨_, by rw [readFraction, if_pos hr', throw_bind]⟩
          have hrest : ¬ IsDigits r ∨ 8 < 0 + r.length := by
            by_cases hd : IsDigits r
            · obtain ⟨d, t, rfl⟩ := List.exists_cons_of_ne_nil hr'
              have := hbad hw' _ hd rfl
              exact Or.inr (by omega)
            · exact Or.inl hd
          obtain ⟨e, he⟩ := accumulateFraction_bad (f := 0) (by decide) (by decide) hrest
          exact ⟨e, by rw [readFraction, if_neg hr', hzero, he, throw_bind]⟩
        · exact ⟨overflowError, by rw [if_neg hfit, throw_bind]⟩
      · obtain ⟨e, he⟩ := accumulateWhole_bad (r := r) hw hc hdot (n := 0) false (by decide)
        exact ⟨e, by rw [he, throw_bind]⟩

/-- A string that spells no literal of at most eight fractional digits is an
error. -/
theorem fromStringChecked_bad {s : Str}
    (h : ∀ l : DecimalLiteral, s = l.text → 8 < l.fraction.length) :
    ∃ e, fromStringChecked s = throw e := by
  by_cases hs : s = []
  · exact ⟨_, by rw [fromStringChecked, if_pos hs]⟩
  have hsplit := Sign.split_sound s
  unfold fromStringChecked
  rw [if_neg hs]
  rcases hσ : Sign.split s with ⟨σ, body⟩
  rw [hσ] at hsplit
  simp only at hsplit ⊢
  by_cases hu : body = []
  · exact ⟨_, by rw [if_pos hu]⟩
  rw [if_neg hu]
  have hcut := List.takeWhile_append_dropWhile (p := Char.isDigit) (l := body)
  have hw : IsDigits (body.takeWhile Char.isDigit) := fun _ hc => List.mem_takeWhile_imp hc
  rw [← hcut] at hu ⊢
  -- sign and whole part are cut off: what follows is no short fraction
  refine afterDigits_bad _ hw hu ?_ ?_
  · intro c hc
    have hstop := List.head?_dropWhile_not Char.isDigit body
    rw [Option.mem_def.mp hc] at hstop
    simpa using hstop
  · intro hne f hf hr
    refine h ⟨σ, _, f, hw, hne, hf⟩ ?_
    rw [hsplit]
    show _ = σ.text ++ (_ ++ DecimalLiteral.fractionText f)
    rw [← hr, hcut]

theorem fromStringChecked_inRange {l : DecimalLiteral} (h : InRange l) :
    fromStringChecked l.text = pure (fromRaw (Int64.ofInt (rawOf l))) := by
  obtain ⟨hlen, hm⟩ := (inRange_iff l).mp h
  have hhi := (limitOf_bounds (isMinus l)).2
  have hw : digitsValue l.whole ≤ l.scaled 8 := by
    have hmul := Nat.mul_le_mul_left (digitsValue l.whole) (show 1 ≤ 10 ^ 8 by decide)
    unfold DecimalLiteral.scaled
    omega
  rw [fromStringChecked_text hlen, if_neg (by omega), if_pos hm]

theorem fromStringChecked_outside {s : Str}
    (h : ¬ ∃ l : DecimalLiteral, s = l.text ∧ InRange l) :
    ∃ e, fromStringChecked s = throw e := by
  by_cases hs : ∀ l : DecimalLiteral, s = l.text → 8 < l.fraction.length
  · exact fromStringChecked_bad hs
  push Not at hs
  obtain ⟨l, rfl, hlen⟩ := hs
  have hm : ¬ l.scaled 8 ≤ limitOf (isMinus l) := fun hm =>
    h ⟨l, rfl, (inRange_iff l).mpr ⟨hlen, hm⟩⟩
  rw [fromStringChecked_text hlen, if_neg hm]
  split
  · exact ⟨_, rfl⟩
  · exact ⟨_, rfl⟩

theorem rawOf_value {l : DecimalLiteral} (h : InRange l) :
    ((fromRaw (Int64.ofInt (rawOf l))).raw.toInt : ℚ) = l.value * 10 ^ 8 := by
  show (((Int64.ofInt (rawOf l)).toInt : ℤ) : ℚ) = _
  rw [rawOf_toInt h, rawOf_eq, DecimalLiteral.value_mul_pow h.fraction_le]

/-- A literal in range is read as the decimal of its number. -/
theorem fromString_value {l : DecimalLiteral} {d : Decimal} (h : InRange l)
    (hd : (d.raw.toInt : ℚ) = l.value * 10 ^ 8) : fromString l.text = .ok d := by
  have hraw : Int64.ofInt (rawOf l) = d.raw := by
    rw [← rawOf_value h] at hd
    exact (Int64.toInt_inj.mp (by exact_mod_cast hd)).symm
  rw [fromString, fromStringChecked_inRange h, pure_result, hraw]
  rfl

theorem value_of_fromString {l : DecimalLiteral} {d : Decimal} (h : fromString l.text = .ok d) :
    l.value = d.toRat := by
  by_cases hl : ∃ m : DecimalLiteral, l.text = m.text ∧ InRange m
  · obtain ⟨m, hm, hr⟩ := hl
    rw [← DecimalLiteral.text_inj hm] at hr
    rw [fromString, fromStringChecked_inRange hr, pure_result] at h
    injection h with h
    rw [← h, toRat, rawOf_value hr, mul_div_cancel_right₀ _ (by norm_num)]
  · obtain ⟨e, he⟩ := fromStringChecked_outside hl
    rw [fromString, he, throw_result] at h
    cases h

/-- A literal with at most eight fractional digits is read as the decimal of its
number, if there is one. -/
theorem fromString_text_iff {l : DecimalLiteral} (h : l.fraction.length ≤ 8) {d : Decimal} :
    fromString l.text = .ok d ↔ (d.raw.toInt : ℚ) = l.value * 10 ^ 8 := by
  constructor
  · intro hd
    rw [value_of_fromString hd, toRat, div_mul_cancel₀ _ (by norm_num)]
  · intro hd
    have hrange : InRange l := by
      have hlow : (-2 ^ 63 : ℤ) ≤ d.raw.toInt := d.raw.le_toInt
      have hhigh : d.raw.toInt < (2 ^ 63 : ℤ) := d.raw.toInt_lt
      refine ⟨h, ?_, ?_⟩
      · rw [← hd]
        exact_mod_cast hlow
      · have hle : d.raw.toInt ≤ (2 ^ 63 - 1 : ℤ) := by omega
        rw [← hd]
        exact_mod_cast hle
    exact fromString_value hrange hd

/-- **The parser is exact.**  It returns a decimal exactly on the literals in
range, the raw value is the literal's number of units, every other string is an
error, and no operation on a machine word leaves its range on any input. -/
theorem fromString_exact (s : Str) :
    (∀ d, fromString s = .ok d ↔
      ∃ l : DecimalLiteral, s = l.text ∧ InRange l ∧ (d.raw.toInt : ℚ) = l.value * 10 ^ 8)
    ∧ ((∃ d, fromString s = .ok d) ↔ ∃ l : DecimalLiteral, s = l.text ∧ InRange l)
    ∧ ((∃ e, fromString s = .error e) ↔ ¬ ∃ l : DecimalLiteral, s = l.text ∧ InRange l)
    ∧ (fromStringChecked s).wrapped = false := by
  by_cases h : ∃ l : DecimalLiteral, s = l.text ∧ InRange l
  · obtain ⟨l, rfl, hl⟩ := h
    have hrun := fromStringChecked_inRange hl
    have hok : fromString l.text = .ok (fromRaw (Int64.ofInt (rawOf l))) := by
      rw [fromString, hrun, pure_result]
    have hraw := rawOf_value hl
    refine ⟨fun d => ⟨fun hd => ?_, ?_⟩, ⟨fun _ => ⟨l, rfl, hl⟩, fun _ => ⟨_, hok⟩⟩,
      ⟨fun ⟨e, he⟩ => ?_, fun hno => absurd ⟨l, rfl, hl⟩ hno⟩, by rw [hrun, pure_wrapped]⟩
    · rw [hok] at hd
      injection hd with hd
      subst hd
      exact ⟨l, rfl, hl, hraw⟩
    · rintro ⟨m, hm, -, hd⟩
      -- one text is one literal
      rw [← DecimalLiteral.text_inj hm, ← hraw] at hd
      have hd' : d.raw = Int64.ofInt (rawOf l) := Int64.toInt_inj.mp (by exact_mod_cast hd)
      rw [hok, ← hd']
      rfl
    · rw [hok] at he
      cases he
  · obtain ⟨e, hrun⟩ := fromStringChecked_outside h
    have herr : fromString s = .error e := by rw [fromString, hrun, throw_result]
    refine ⟨fun d => ⟨fun hd => ?_, fun ⟨l, hl, hr, _⟩ => absurd ⟨l, hl, hr⟩ h⟩,
      ⟨fun ⟨d, hd⟩ => ?_, fun hl => absurd hl h⟩, ⟨fun _ => h, fun _ => ⟨e, herr⟩⟩,
      by rw [hrun, throw_wrapped]⟩
    · rw [herr] at hd
      cases hd
    · rw [herr] at hd
      cases hd

/-! ## §3. The printer. -/

theorem magnitude_toNat (d : Decimal) : d.magnitude.toNat = d.raw.toInt.natAbs := by
  obtain ⟨r⟩ := d
  have hlt : r < 0 ↔ r.toInt < 0 := Int64.lt_iff_toInt_lt
  have hint : r.toInt = r.toBitVec.toInt := rfl
  have hdef := BitVec.toInt_eq_toNat_cond r.toBitVec
  have hbound := r.toBitVec.isLt
  unfold magnitude
  by_cases h : r < 0
  · have h' := hlt.mp h
    -- the code negates `raw + 1`, which does not overflow
    have hneg : (-(r + 1)).toUInt64 + 1 = (-r).toUInt64 := by
      rw [Int64.neg_add, Int64.toUInt64_sub]
      exact UInt64.sub_add_cancel _ _
    rw [if_pos h, hneg]
    show (-r.toBitVec).toNat = _
    rw [BitVec.toNat_neg, hint]
    split at hdef <;> omega
  · have h' : ¬ r.toInt < 0 := fun hr => h (hlt.mpr hr)
    rw [if_neg h]
    show r.toBitVec.toNat = _
    rw [hint] at h' ⊢
    split at hdef <;> omega

/-- The literal the printer spells. -/
def printed (d : Decimal) : DecimalLiteral where
  sign := if d.raw < 0 then .minus else .none
  whole := toStringNat (d.raw.toInt.natAbs / 10 ^ 8)
  fraction := padZero 8 (toStringNat (d.raw.toInt.natAbs % 10 ^ 8))
  whole_digits := toStringNat_isDigits _
  whole_ne := toStringNat_ne_nil _
  fraction_digits := isDigits_padZero (toStringNat_isDigits _)

theorem printed_fraction_length (d : Decimal) : (printed d).fraction.length = 8 :=
  length_padZero (toStringNat_length_le (by decide) (Nat.mod_lt _ (by decide)))

theorem toString_eq_text (d : Decimal) : toString d = (printed d).text := by
  have hscale : (100000000 : UInt64).toNat = 10 ^ 8 := by decide
  have hfrac : DecimalLiteral.fractionText (printed d).fraction = '.' :: (printed d).fraction := by
    have hlen := printed_fraction_length d
    cases h : (printed d).fraction with
    | nil => rw [h] at hlen; exact absurd hlen (by decide)
    | cons c f => rfl
  have hsign : (printed d).sign.text = if d.raw < 0 then ['-'] else [] := by
    show Sign.text (if d.raw < 0 then .minus else .none) = _
    split <;> rfl
  unfold toString DecimalLiteral.text
  rw [hfrac, hsign]
  simp only [UInt64.toNat_div, UInt64.toNat_mod, hscale, magnitude_toNat]
  simp only [printed, padZero, List.append_assoc, List.cons_append, List.nil_append]

theorem printed_scaled (d : Decimal) : (printed d).scaled 8 = d.raw.toInt.natAbs := by
  have hlen := printed_fraction_length d
  unfold DecimalLiteral.scaled
  rw [hlen]
  simp only [printed, digitsValue_toStringNat, digitsValue_padZero]
  omega

theorem printed_value (d : Decimal) : (printed d).value * 10 ^ 8 = d.raw.toInt := by
  rw [DecimalLiteral.value_mul_pow (printed_fraction_length d).le, printed_scaled]
  have hlt : d.raw < 0 ↔ d.raw.toInt < 0 := Int64.lt_iff_toInt_lt
  have hsign : (printed d).sign = if d.raw < 0 then .minus else .none := rfl
  rw [hsign]
  congr 1
  by_cases h : d.raw < 0
  · have h' := hlt.mp h
    rw [if_pos h]
    show -(_ : ℤ) = _
    omega
  · have h' : ¬ d.raw.toInt < 0 := fun hr => h (hlt.mpr hr)
    rw [if_neg h]
    show ((_ : ℕ) : ℤ) = _
    omega

theorem value_of_printed (d : Decimal) : (printed d).value = d.toRat := by
  rw [toRat, ← printed_value, mul_div_cancel_right₀ _ (by norm_num)]

theorem toRat_inj {d e : Decimal} (h : d.toRat = e.toRat) : d = e := by
  have hcast : (d.raw.toInt : ℚ) = e.raw.toInt := by
    unfold toRat at h
    exact (div_left_inj' (by norm_num)).mp h
  ext
  exact Int64.toInt_inj.mp (by exact_mod_cast hcast)

theorem printed_inRange (d : Decimal) : InRange (printed d) where
  fraction_le := (printed_fraction_length d).le
  lower := by
    rw [printed_value]
    exact_mod_cast d.raw.le_toInt
  upper := by
    rw [printed_value]
    exact_mod_cast Int.le_sub_one_of_lt d.raw.toInt_lt

/-! ## §4. Canonical texts. -/

/-- The canonical spelling: no plus sign, no negative zero, no redundant
leading zero and exactly eight fractional digits. -/
structure Canonical (l : DecimalLiteral) : Prop where
  sign_ne_plus : l.sign ≠ .plus
  minus_nonzero : l.sign = .minus → l.value ≠ 0
  whole_noLeadingZero : NoLeadingZero l.whole
  fraction_length : l.fraction.length = 8

theorem printed_canonical (d : Decimal) : Canonical (printed d) where
  sign_ne_plus := by
    show (if d.raw < 0 then Sign.minus else Sign.none) ≠ .plus
    split <;> decide
  minus_nonzero := by
    intro hminus hzero
    have hneg : d.raw < 0 := by
      by_contra h
      have hsign : (printed d).sign = if d.raw < 0 then .minus else .none := rfl
      rw [hsign, if_neg h] at hminus
      exact absurd hminus (by decide)
    have hlt : d.raw.toInt < 0 := Int64.lt_iff_toInt_lt.mp hneg
    have hval := printed_value d
    rw [hzero, zero_mul] at hval
    have hint : (0 : ℤ) = d.raw.toInt := by exact_mod_cast hval
    omega
  whole_noLeadingZero := toStringNat_noLeadingZero _
  fraction_length := printed_fraction_length d

/-- The magnitude of a canonical literal determines its digits. -/
theorem canonical_digits {l m : DecimalLiteral} (hl : Canonical l) (hm : Canonical m)
    (h : l.scaled 8 = m.scaled 8) : l.whole = m.whole ∧ l.fraction = m.fraction := by
  have hlf := digitsValue_lt l.fraction_digits
  have hmf := digitsValue_lt m.fraction_digits
  unfold DecimalLiteral.scaled at h
  rw [hl.fraction_length] at hlf h
  rw [hm.fraction_length] at hmf h
  have hwhole : digitsValue l.whole = digitsValue m.whole := by omega
  have hfraction : digitsValue l.fraction = digitsValue m.fraction := by omega
  constructor
  · rw [← toStringNat_digitsValue l.whole_digits l.whole_ne hl.whole_noLeadingZero, hwhole,
      toStringNat_digitsValue m.whole_digits m.whole_ne hm.whole_noLeadingZero]
  · exact digits_eq_of_value l.fraction_digits m.fraction_digits
      (hl.fraction_length.trans hm.fraction_length.symm) hfraction

/-- **A number has one canonical spelling.** -/
theorem canonical_unique {l m : DecimalLiteral} (hl : Canonical l) (hm : Canonical m)
    (h : l.value = m.value) : l = m := by
  have hvl := DecimalLiteral.value_mul_pow hl.fraction_length.le
  have hvm := DecimalLiteral.value_mul_pow hm.fraction_length.le
  have happly : l.sign.apply (l.scaled 8 : ℤ) = m.sign.apply (m.scaled 8 : ℤ) := by
    rw [h, hvm] at hvl
    exact_mod_cast hvl.symm
  -- a negative literal is not zero, so the sign of the number is the sign's
  have hneg : ∀ {k : DecimalLiteral}, Canonical k → k.sign = .minus → 0 < k.scaled 8 := by
    intro k hk hs
    by_contra hz
    have hz' : k.scaled 8 = 0 := by omega
    have hvk := DecimalLiteral.value_mul_pow hk.fraction_length.le
    rw [hs, hz'] at hvk
    simp [Sign.apply] at hvk
    exact hk.minus_nonzero hs hvk
  have hboth : l.sign = m.sign ∧ l.scaled 8 = m.scaled 8 := by
    have hlp := hl.sign_ne_plus
    have hmp := hm.sign_ne_plus
    have hln := hneg hl
    have hmn := hneg hm
    cases hls : l.sign <;> cases hms : m.sign <;> rw [hls, hms] at happly <;>
      simp_all [Sign.apply]
  obtain ⟨hwhole, hfraction⟩ := canonical_digits hl hm hboth.2
  exact DecimalLiteral.ext hboth.1 hwhole hfraction

/-- **Printing and parsing are inverse.**  Every raw value is read back from its
text; the text of an accepted string is the canonical spelling of its number;
two accepted strings denote the same number exactly when their texts agree. -/
theorem text_codec :
    (∀ r : Int64, fromString (toString (fromRaw r)) = .ok (fromRaw r))
    ∧ (∀ (l : DecimalLiteral) (d : Decimal), fromString l.text = .ok d →
        ∀ c : DecimalLiteral, toString d = c.text ↔ Canonical c ∧ c.value = l.value)
    ∧ (∀ (l m : DecimalLiteral) (d e : Decimal), fromString l.text = .ok d →
        fromString m.text = .ok e → (l.value = m.value ↔ toString d = toString e)) := by
  refine ⟨fun r => ?_, fun l d hd c => ?_, fun l m d e hd he => ?_⟩
  · rw [toString_eq_text]
    exact fromString_value (printed_inRange _) (printed_value _).symm
  · -- the printed text is the one canonical literal of the value
    have hvalue := value_of_fromString hd
    rw [toString_eq_text]
    constructor
    · intro hc
      rw [← DecimalLiteral.text_inj hc]
      exact ⟨printed_canonical d, by rw [hvalue]; exact value_of_printed d⟩
    · rintro ⟨hc, hv⟩
      rw [canonical_unique (printed_canonical d) hc]
      rw [value_of_printed, hv, hvalue]
  · have hl := value_of_fromString hd
    have hm := value_of_fromString he
    rw [hl, hm]
    constructor
    · intro h
      rw [toRat_inj h]
    · intro h
      rw [toString_eq_text, toString_eq_text] at h
      rw [← value_of_printed d, ← value_of_printed e, DecimalLiteral.text_inj h]

end FinCore.Domain.Decimal

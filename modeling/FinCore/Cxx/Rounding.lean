/-
  FinCore.Cxx.Rounding
  ────────────────────
  Rounding to the nearest integer, ties to even, and the decimal literal that
  fixed notation prints.

  The rounded integer is characterised by its distance to the number
  (`RoundsHalfEven`, which determines it); the order facts follow from that
  alone.  Fixed notation with `digits` fractional digits prints the literal of
  the rounded multiple of `10 ^ -digits` (`formatFixed_eq_text`,
  `fixedLiteral_value`).
-/
import FinCore.Cxx.DecimalLiteral
import FinCore.Cxx.Double

namespace FinCore.Cxx

namespace Double

/-! ## §1. The nearest integer. -/

/-- `r` is the integer nearest to `x`, the even one of two. -/
def RoundsHalfEven (x : ℚ) (r : ℤ) : Prop := |x - r| < 1 / 2 ∨ |x - r| = 1 / 2 ∧ r % 2 = 0

theorem roundHalfEven_spec (x : ℚ) : RoundsHalfEven x (roundHalfEven x) := by
  have hlow : (⌊x⌋ : ℚ) ≤ x := Int.floor_le x
  have hhigh : x < ⌊x⌋ + 1 := Int.lt_floor_add_one x
  unfold roundHalfEven RoundsHalfEven
  simp only
  split
  next h => exact Or.inl (by rw [abs_lt]; constructor <;> linarith)
  next h =>
    split
    next h' => exact Or.inl (by push_cast; rw [abs_lt]; constructor <;> linarith)
    next h' =>
      -- a tie: the two neighbours are equally far, one of them is even
      have hhalf : x = ⌊x⌋ + 1 / 2 := by linarith
      split
      next heven => exact Or.inr ⟨by rw [abs_eq (by norm_num)]; left; linarith, heven⟩
      next hodd =>
        refine Or.inr ⟨?_, by omega⟩
        push_cast
        rw [abs_eq (by norm_num)]
        right
        linarith

theorem RoundsHalfEven.bounds {x : ℚ} {r : ℤ} (h : RoundsHalfEven x r) :
    (r : ℚ) - 1 / 2 ≤ x ∧ x ≤ r + 1 / 2 := by
  have hle : |x - r| ≤ 1 / 2 := by
    rcases h with h | ⟨h, _⟩
    · exact h.le
    · exact h.le
  rw [abs_le] at hle
  constructor <;> linarith [hle.1, hle.2]

/-- At the border of its interval a rounded integer is even. -/
theorem RoundsHalfEven.even_of_tie {x : ℚ} {r : ℤ} (h : RoundsHalfEven x r)
    (htie : x = r - 1 / 2 ∨ x = r + 1 / 2) : r % 2 = 0 := by
  rcases h with h | ⟨_, h⟩
  · rw [abs_lt] at h
    rcases htie with htie | htie <;> linarith [h.1, h.2]
  · exact h

/-- **Rounding is monotone.** -/
theorem RoundsHalfEven.mono {x y : ℚ} {r s : ℤ} (hx : RoundsHalfEven x r)
    (hy : RoundsHalfEven y s) (h : x ≤ y) : r ≤ s := by
  by_contra hlt
  have hstep : s + 1 ≤ r := by omega
  have hcast : (s : ℚ) + 1 ≤ r := by exact_mod_cast hstep
  have hxr := hx.bounds.1
  have hys := hy.bounds.2
  -- `x` and `y` meet half way between `s` and `r = s + 1`, one of which is odd
  have hr : r = s + 1 := by
    have hle : (r : ℚ) ≤ s + 1 := by linarith
    have hle' : r ≤ s + 1 := by exact_mod_cast hle
    omega
  have hr' : (r : ℚ) = s + 1 := by rw [hr]; push_cast; rfl
  have hevenr := hx.even_of_tie (Or.inl (by linarith))
  have hevens := hy.even_of_tie (Or.inr (by linarith))
  omega

theorem RoundsHalfEven.unique {x : ℚ} {r s : ℤ} (hr : RoundsHalfEven x r)
    (hs : RoundsHalfEven x s) : r = s :=
  le_antisymm (hr.mono hs le_rfl) (hs.mono hr le_rfl)

theorem RoundsHalfEven.neg {x : ℚ} {r : ℤ} (h : RoundsHalfEven x r) :
    RoundsHalfEven (-x) (-r) := by
  have habs : |-x - ((-r : ℤ) : ℚ)| = |x - r| := by
    rw [← abs_neg]
    push_cast
    congr 1
    ring
  unfold RoundsHalfEven
  rw [habs]
  rcases h with h | ⟨h, heven⟩
  · exact Or.inl h
  · exact Or.inr ⟨h, by omega⟩

/-- No integer is nearer. -/
theorem abs_sub_roundHalfEven_le (x : ℚ) (k : ℤ) : |x - roundHalfEven x| ≤ |x - k| := by
  obtain ⟨hlow, hhigh⟩ := (roundHalfEven_spec x).bounds
  have hnear : |x - roundHalfEven x| ≤ 1 / 2 := by
    rw [abs_le]
    constructor <;> linarith
  rcases lt_trichotomy k (roundHalfEven x) with hlt | rfl | hgt
  · have hstep : (k : ℚ) + 1 ≤ roundHalfEven x := by exact_mod_cast hlt
    exact hnear.trans ((by linarith : 1 / 2 ≤ x - k).trans (le_abs_self _))
  · exact le_rfl
  · have hstep : (roundHalfEven x : ℚ) + 1 ≤ k := by exact_mod_cast hgt
    exact hnear.trans ((by linarith : 1 / 2 ≤ -(x - k)).trans (neg_le_abs _))

theorem roundHalfEven_neg (x : ℚ) : roundHalfEven (-x) = -roundHalfEven x :=
  (roundHalfEven_spec (-x)).unique (roundHalfEven_spec x).neg

theorem roundHalfEven_mono {x y : ℚ} (h : x ≤ y) : roundHalfEven x ≤ roundHalfEven y :=
  (roundHalfEven_spec x).mono (roundHalfEven_spec y) h

@[simp] theorem roundHalfEven_intCast (n : ℤ) : roundHalfEven n = n := by
  refine (roundHalfEven_spec n).unique (Or.inl ?_)
  rw [sub_self, abs_zero]
  norm_num

theorem roundHalfEven_nonneg {x : ℚ} (h : 0 ≤ x) : 0 ≤ roundHalfEven x := by
  have hzero := roundHalfEven_mono h
  have hcast : roundHalfEven 0 = 0 := roundHalfEven_intCast 0
  rwa [hcast] at hzero

theorem roundHalfEven_nonpos {x : ℚ} (h : x ≤ 0) : roundHalfEven x ≤ 0 := by
  have hzero := roundHalfEven_mono h
  have hcast : roundHalfEven 0 = 0 := roundHalfEven_intCast 0
  rwa [hcast] at hzero

/-- The ties on both sides of an even integer go to it. -/
theorem le_roundHalfEven_iff {x : ℚ} {n : ℤ} (heven : n % 2 = 0) :
    n ≤ roundHalfEven x ↔ (n : ℚ) - 1 / 2 ≤ x := by
  constructor
  · intro h
    have hcast : (n : ℚ) ≤ roundHalfEven x := by exact_mod_cast h
    have hbound := (roundHalfEven_spec x).bounds.1
    linarith
  · intro h
    have htie : RoundsHalfEven ((n : ℚ) - 1 / 2) n := by
      refine Or.inr ⟨?_, heven⟩
      rw [abs_eq (by norm_num)]
      right
      ring
    exact htie.mono (roundHalfEven_spec x) h

theorem roundHalfEven_le_iff {x : ℚ} {n : ℤ} (heven : n % 2 = 0) :
    roundHalfEven x ≤ n ↔ x ≤ (n : ℚ) + 1 / 2 := by
  have hneg := le_roundHalfEven_iff (x := -x) (n := -n) (by omega)
  rw [roundHalfEven_neg] at hneg
  push_cast at hneg
  constructor
  · intro h
    have := hneg.mp (by omega)
    linarith
  · intro h
    have := hneg.mpr (by linarith)
    omega

/-! ## §2. Fixed notation. -/

/-- The multiples of `10 ^ -digits` a double is rounded to for printing. -/
def scaledRound (digits : ℕ) (q : ℚ) : ℤ := roundHalfEven (q * 10 ^ digits)

theorem scaledRound_mono (digits : ℕ) {p q : ℚ} (h : p ≤ q) :
    scaledRound digits p ≤ scaledRound digits q :=
  roundHalfEven_mono (mul_le_mul_of_nonneg_right h (by positivity))

theorem scaledRound_natAbs (digits : ℕ) (q : ℚ) :
    (roundHalfEven (|q| * 10 ^ digits)).toNat = (scaledRound digits q).natAbs := by
  have hp : (0 : ℚ) < 10 ^ digits := by positivity
  unfold scaledRound
  rcases le_or_gt 0 q with h | h
  · have hnonneg := roundHalfEven_nonneg (mul_nonneg h hp.le)
    rw [abs_of_nonneg h]
    omega
  · have hnonpos := roundHalfEven_nonpos (mul_nonpos_of_nonpos_of_nonneg h.le hp.le)
    rw [abs_of_neg h, neg_mul, roundHalfEven_neg]
    omega

/-- The literal `formatFixed` prints. -/
def fixedLiteral (digits : ℕ) (q : ℚ) : DecimalLiteral where
  sign := if q < 0 then .minus else .none
  whole := toStringNat ((scaledRound digits q).natAbs / 10 ^ digits)
  fraction := padZero digits (toStringNat ((scaledRound digits q).natAbs % 10 ^ digits))
  whole_digits := toStringNat_isDigits _
  whole_ne := toStringNat_ne_nil _
  fraction_digits := isDigits_padZero (toStringNat_isDigits _)

section Fixed

variable {digits : ℕ}

theorem fixedLiteral_fraction_length (hdigits : 0 < digits) (q : ℚ) :
    (fixedLiteral digits q).fraction.length = digits :=
  length_padZero (toStringNat_length_le hdigits (Nat.mod_lt _ (by positivity)))

theorem formatFixed_eq_text (hdigits : 0 < digits) (q : ℚ) :
    (finite q).formatFixed digits = (fixedLiteral digits q).text := by
  have hlen := fixedLiteral_fraction_length hdigits q
  have hpoint : DecimalLiteral.fractionText (fixedLiteral digits q).fraction
      = '.' :: (fixedLiteral digits q).fraction := by
    cases h : (fixedLiteral digits q).fraction with
    | nil =>
        rw [h] at hlen
        simp only [List.length_nil] at hlen
        omega
    | cons c f => rfl
  unfold formatFixed DecimalLiteral.text fixedText
  simp only [scaledRound_natAbs, hpoint]
  show (if q < 0 then ['-'] else []) ++ _ = (if q < 0 then Sign.minus else Sign.none).text ++ _
  split <;> rfl

theorem fixedLiteral_scaled (hdigits : 0 < digits) (q : ℚ) :
    (fixedLiteral digits q).scaled digits = (scaledRound digits q).natAbs := by
  have hlen := fixedLiteral_fraction_length hdigits q
  have hdiv := Nat.div_add_mod (scaledRound digits q).natAbs (10 ^ digits)
  unfold DecimalLiteral.scaled
  rw [hlen, Nat.sub_self, pow_zero, mul_one]
  simp only [fixedLiteral, digitsValue_toStringNat, digitsValue_padZero]
  rw [mul_comm]
  exact hdiv

/-- **Fixed notation denotes the rounded number.** -/
theorem fixedLiteral_value (hdigits : 0 < digits) (q : ℚ) :
    (fixedLiteral digits q).value * 10 ^ digits = scaledRound digits q := by
  have hp : (0 : ℚ) < 10 ^ digits := by positivity
  rw [DecimalLiteral.value_mul_pow (fixedLiteral_fraction_length hdigits q).le,
    fixedLiteral_scaled hdigits]
  congr 1
  show (if q < 0 then Sign.minus else Sign.none).apply ((scaledRound digits q).natAbs : ℤ) = _
  split
  next h =>
    have hnonpos : scaledRound digits q ≤ 0 :=
      roundHalfEven_nonpos (mul_nonpos_of_nonpos_of_nonneg h.le hp.le)
    show -((scaledRound digits q).natAbs : ℤ) = _
    omega
  next h =>
    have hnonneg : 0 ≤ scaledRound digits q :=
      roundHalfEven_nonneg (mul_nonneg (not_lt.mp h) hp.le)
    show ((scaledRound digits q).natAbs : ℤ) = _
    omega

end Fixed

end Double

namespace DecimalLiteral

/-- The literal `std::to_string` of an unsigned integer prints. -/
def ofNat (n : ℕ) : DecimalLiteral where
  sign := .none
  whole := toStringNat n
  fraction := []
  whole_digits := toStringNat_isDigits _
  whole_ne := toStringNat_ne_nil _
  fraction_digits := isDigits_nil

theorem ofNat_text (n : ℕ) : (ofNat n).text = toStringNat n := by
  show [] ++ (toStringNat n ++ []) = _
  rw [List.nil_append, List.append_nil]

theorem ofNat_value (n : ℕ) : (ofNat n).value = n := by
  show (digitsValue (toStringNat n) : ℚ) + digitsValue [] / 10 ^ 0 = _
  rw [digitsValue_toStringNat, digitsValue_nil]
  simp

end DecimalLiteral

end FinCore.Cxx

/-
  FinCore.Cxx.FloatFormat
  ───────────────────────
  Binary floating-point formats, and rounding to the nearest number of one.

  A number of a format is an integer of at most `precision` bits times a power
  of two no finer than the finest.  `round` takes the nearest, with an even last
  digit where two are equally near; there is no greatest exponent, so a caller
  looks out for overflow.  The rounded number is one of the format
  (`represents_round`), none of the format lies between it and the number that
  was rounded (`le_round`, `round_le`), and none is nearer (`abs_sub_round_le`).
-/
import FinCore.Cxx.Rounding
import Mathlib.Data.Int.Log

namespace FinCore.Cxx

open Double (roundHalfEven)

structure FloatFormat where
  /-- The significant bits. -/
  precision : ℕ
  /-- The exponent of the finest last place. -/
  minExponent : ℤ
  precision_pos : 0 < precision

namespace FloatFormat

variable (f : FloatFormat)

/-! ## §1. Rounding. -/

/-- The exponent of the last place of the numbers as large as `q`. -/
def lastPlace (q : ℚ) : ℤ := max (Int.log 2 |q| + 1 - f.precision) f.minExponent

/-- The nearest number of the format. -/
def round (q : ℚ) : ℚ := roundHalfEven (q / 2 ^ f.lastPlace q) * 2 ^ f.lastPlace q

/-- A number of the format. -/
def Represents (q : ℚ) : Prop :=
  ∃ n e : ℤ, q = n * 2 ^ e ∧ |n| < 2 ^ f.precision ∧ f.minExponent ≤ e

/-- `double`. -/
def binary64 : FloatFormat := ⟨53, -1074, by decide⟩

/-- The x87 format with 64 bits, the `long double` of x86-64. -/
def extended : FloatFormat := ⟨64, -16445, by decide⟩

example : binary64.round 9007199254740993 = 9007199254740992 := by decide +kernel

example : binary64.round (1 / 10) = 3602879701896397 / 36028797018963968 := by decide +kernel

variable {f}

theorem two_zpow_pos (e : ℤ) : (0 : ℚ) < 2 ^ e := zpow_pos (by norm_num) e

theorem lastPlace_neg (q : ℚ) : f.lastPlace (-q) = f.lastPlace q := by
  unfold lastPlace
  rw [abs_neg]

theorem round_neg (q : ℚ) : f.round (-q) = -f.round q := by
  unfold round
  rw [lastPlace_neg, neg_div, Double.roundHalfEven_neg]
  push_cast
  rw [neg_mul]

theorem round_zero : f.round 0 = 0 := by
  unfold round
  have hzero : roundHalfEven ((0 : ℤ) : ℚ) = 0 := Double.roundHalfEven_intCast 0
  rw [Int.cast_zero] at hzero
  rw [zero_div, hzero, Int.cast_zero, zero_mul]

theorem Represents.neg {q : ℚ} (h : f.Represents q) : f.Represents (-q) := by
  obtain ⟨n, e, rfl, hn, he⟩ := h
  refine ⟨-n, e, ?_, ?_, he⟩
  · push_cast
    rw [neg_mul]
  · rwa [abs_neg]

/-- An integer that fits the significant bits is a number of the format. -/
theorem represents_intCast {n : ℤ} (hn : |n| < 2 ^ f.precision) (he : f.minExponent ≤ 0) :
    f.Represents n :=
  ⟨n, 0, by rw [zpow_zero, mul_one], hn, he⟩

/-! ## §2. The last place. -/

/-- A multiple of the last place is rounded by rounding the multiple. -/
theorem le_round_of_multiple {q : ℚ} {k : ℤ} (h : (k : ℚ) * 2 ^ f.lastPlace q ≤ q) :
    (k : ℚ) * 2 ^ f.lastPlace q ≤ f.round q := by
  have hpos := two_zpow_pos (f.lastPlace q)
  have hk : (k : ℚ) ≤ q / 2 ^ f.lastPlace q := (le_div_iff₀ hpos).mpr h
  have hround := Double.roundHalfEven_mono hk
  rw [Double.roundHalfEven_intCast] at hround
  have hcast : (k : ℚ) ≤ roundHalfEven (q / 2 ^ f.lastPlace q) := by exact_mod_cast hround
  exact mul_le_mul_of_nonneg_right hcast hpos.le

/-- A coarse number of the format is a multiple of a finer place. -/
theorem multiple_of_le {n e u : ℤ} (h : u ≤ e) : ∃ k : ℤ, (n : ℚ) * 2 ^ e = k * 2 ^ u := by
  refine ⟨n * 2 ^ (e - u).toNat, ?_⟩
  have hsplit : (2 : ℚ) ^ e = 2 ^ (e - u).toNat * 2 ^ u := by
    rw [← zpow_natCast, Int.toNat_of_nonneg (by omega), ← zpow_add₀ (by norm_num)]
    congr 1
    omega
  rw [hsplit]
  push_cast
  ring

/-- The numbers of the format are multiples of the last place of `q`, or lie
below the power of two that `q` has reached. -/
theorem Represents.cases {m q : ℚ} (hm : f.Represents m) (hq : 0 < q) :
    (∃ k : ℤ, m = k * 2 ^ f.lastPlace q)
    ∨ (m < ((2 ^ (f.precision - 1) : ℕ) : ℤ) * 2 ^ f.lastPlace q
      ∧ (((2 ^ (f.precision - 1) : ℕ) : ℤ) : ℚ) * 2 ^ f.lastPlace q ≤ q) := by
  obtain ⟨n, e, rfl, hn, he⟩ := hm
  have hprecision := f.precision_pos
  by_cases hfine : f.lastPlace q ≤ e
  · exact Or.inl (multiple_of_le hfine)
  right
  -- the last place is that of the leading bit of `q`
  have hplace : f.lastPlace q = Int.log 2 q + 1 - f.precision := by
    unfold lastPlace at hfine ⊢
    rw [abs_of_pos hq] at hfine ⊢
    omega
  have hpower : (((2 ^ (f.precision - 1) : ℕ) : ℤ) : ℚ) * 2 ^ f.lastPlace q
      = 2 ^ Int.log 2 q := by
    push_cast
    rw [← zpow_natCast, ← zpow_add₀ (by norm_num), hplace]
    congr 1
    omega
  rw [hpower]
  constructor
  · have hcast : (n : ℚ) < 2 ^ f.precision := by exact_mod_cast (le_abs_self n).trans_lt hn
    have hlt : (n : ℚ) * 2 ^ e < 2 ^ f.precision * 2 ^ e :=
      mul_lt_mul_of_pos_right hcast (two_zpow_pos e)
    refine hlt.trans_le ?_
    rw [← zpow_natCast, ← zpow_add₀ (by norm_num)]
    exact zpow_le_zpow_right₀ (by norm_num) (by omega)
  · exact_mod_cast Int.zpow_log_le_self (by decide) hq

/-! ## §3. The nearest number. -/

theorem le_round_of_pos {m q : ℚ} (hm : f.Represents m) (hq : 0 < q) (h : m ≤ q) :
    m ≤ f.round q := by
  rcases hm.cases hq with ⟨k, rfl⟩ | ⟨hlt, hle⟩
  · exact le_round_of_multiple h
  · exact hlt.le.trans (le_round_of_multiple hle)

theorem round_le_of_pos {m q : ℚ} (hm : f.Represents m) (hq : 0 < q) (h : q ≤ m) :
    f.round q ≤ m := by
  rcases hm.cases hq with ⟨k, rfl⟩ | ⟨hlt, hle⟩
  · have hneg := le_round_of_multiple (f := f) (q := -q) (k := -k) (by
      rw [lastPlace_neg]
      push_cast
      linarith)
    rw [lastPlace_neg, round_neg] at hneg
    push_cast at hneg
    linarith
  · -- a number below the leading bit is not above `q`
    linarith

/-- **Rounding does not pass a number of the format** from above … -/
theorem le_round {m q : ℚ} (hm : f.Represents m) (h : m ≤ q) : m ≤ f.round q := by
  rcases lt_trichotomy q 0 with hq | rfl | hq
  · have hneg := round_le_of_pos hm.neg (neg_pos.mpr hq) (neg_le_neg h)
    rw [round_neg] at hneg
    exact neg_le_neg_iff.mp hneg
  · rwa [round_zero]
  · exact le_round_of_pos hm hq h

/-- … nor from below. -/
theorem round_le {m q : ℚ} (hm : f.Represents m) (h : q ≤ m) : f.round q ≤ m := by
  have hneg := le_round hm.neg (neg_le_neg h)
  rw [round_neg] at hneg
  exact neg_le_neg_iff.mp hneg

/-- A number of the format is rounded to itself. -/
theorem round_of_represents {q : ℚ} (h : f.Represents q) : f.round q = q :=
  le_antisymm (round_le h le_rfl) (le_round h le_rfl)

/-- **No number of the format is nearer.** -/
theorem abs_sub_round_le {m : ℚ} (hm : f.Represents m) (q : ℚ) :
    |q - f.round q| ≤ |q - m| := by
  have hpositive : ∀ {m q : ℚ}, f.Represents m → 0 < q → |q - f.round q| ≤ |q - m| := by
    intro m q hm hq
    have hplace := two_zpow_pos (f.lastPlace q)
    -- in units of the last place the nearest integer is taken
    have hunits : ∀ k : ℤ, |q - f.round q| ≤ |q - k * 2 ^ f.lastPlace q| := by
      intro k
      have hnearest := Double.abs_sub_roundHalfEven_le (q / 2 ^ f.lastPlace q) k
      have hscale : ∀ n : ℤ, |q - n * 2 ^ f.lastPlace q|
          = |q / 2 ^ f.lastPlace q - n| * 2 ^ f.lastPlace q := by
        intro n
        rw [← abs_of_pos hplace, ← abs_mul, abs_of_pos hplace, sub_mul,
          div_mul_cancel₀ _ hplace.ne']
      unfold round
      rw [hscale, hscale]
      exact mul_le_mul_of_nonneg_right hnearest hplace.le
    rcases hm.cases hq with ⟨k, rfl⟩ | ⟨hlt, hle⟩
    · exact hunits k
    · refine (hunits ((2 ^ (f.precision - 1) : ℕ) : ℤ)).trans ?_
      rw [abs_of_nonneg (by linarith), abs_of_nonneg (by linarith)]
      linarith
  rcases lt_trichotomy q 0 with hq | rfl | hq
  · have hneg := hpositive hm.neg (neg_pos.mpr hq)
    rwa [round_neg, neg_sub_neg, neg_sub_neg, abs_sub_comm, abs_sub_comm m] at hneg
  · rw [round_zero, sub_zero, abs_zero]
    exact abs_nonneg _
  · exact hpositive hm hq

/-- **What is rounded to is a number of the format.** -/
theorem represents_round (q : ℚ) : f.Represents (f.round q) := by
  have hpositive : ∀ {q : ℚ}, 0 < q → f.Represents (f.round q) := by
    intro q hq
    have hprecision := f.precision_pos
    have hmin : f.minExponent ≤ f.lastPlace q := le_max_right _ _
    have hnonneg : 0 ≤ roundHalfEven (q / 2 ^ f.lastPlace q) :=
      Double.roundHalfEven_nonneg (div_nonneg hq.le (two_zpow_pos _).le)
    have hbelow : q / 2 ^ f.lastPlace q ≤ ((2 ^ f.precision : ℕ) : ℤ) := by
      rw [div_le_iff₀ (two_zpow_pos _)]
      have hlog : q < 2 ^ (Int.log 2 q + 1) := by
        exact_mod_cast Int.lt_zpow_succ_log_self (by decide) q
      refine hlog.le.trans ?_
      push_cast
      rw [← zpow_natCast, ← zpow_add₀ (by norm_num)]
      refine zpow_le_zpow_right₀ (by norm_num) ?_
      unfold lastPlace
      rw [abs_of_pos hq]
      omega
    have hle := Double.roundHalfEven_mono hbelow
    rw [Double.roundHalfEven_intCast] at hle
    rcases hle.lt_or_eq with hlt | heq
    · refine ⟨_, _, rfl, ?_, hmin⟩
      rw [abs_of_nonneg hnonneg]
      exact_mod_cast hlt
    · -- a carry out of the leading bit
      refine ⟨1, f.precision + f.lastPlace q, ?_, ?_, by omega⟩
      · unfold round
        rw [heq, zpow_add₀ (by norm_num), zpow_natCast]
        push_cast
        ring
      · rw [abs_one]
        exact_mod_cast Nat.one_lt_two_pow hprecision.ne'
  rcases lt_trichotomy q 0 with hq | rfl | hq
  · have hneg := (hpositive (neg_pos.mpr hq)).neg
    rwa [round_neg, neg_neg] at hneg
  · rw [round_zero]
    refine ⟨0, f.minExponent, by simp, ?_, le_rfl⟩
    rw [abs_zero]
    positivity
  · exact hpositive hq

end FloatFormat

end FinCore.Cxx

/-
  FinCore.Cxx.Double
  ──────────────────
  The `double`s of a program: the finite ones as exact rationals, the two
  infinities and NaN.

  Comparisons follow IEEE 754 (every comparison with NaN is false); arithmetic
  on finite values is exact, and zero carries no sign.  Printing in fixed
  notation rounds to the nearest decimal, ties to even, and prints a minus sign
  for every negative value, also where all printed digits are zero.
-/
import FinCore.Cxx.Text

namespace FinCore.Cxx

inductive Double where
  | nan
  | negInf
  | finite (q : ℚ)
  | posInf
  deriving DecidableEq

namespace Double

/-! ## §1. Comparisons. -/

/-- `a < b`. -/
def lt : Double → Double → Bool
  | finite a, finite b => decide (a < b)
  | negInf, finite _ => true
  | negInf, posInf => true
  | finite _, posInf => true
  | _, _ => false

/-- `a <= b`. -/
def le : Double → Double → Bool
  | nan, _ => false
  | _, nan => false
  | a, b => lt a b || decide (a = b)

/-- `a > b`, the order of `std::greater`. -/
def gt (a b : Double) : Bool := lt b a

/-- `a >= b`. -/
def ge (a b : Double) : Bool := le b a

/-- `a == b`. -/
def eq : Double → Double → Bool
  | nan, _ => false
  | a, b => decide (a = b)

/-- `std::isfinite`. -/
def isFinite : Double → Bool
  | finite _ => true
  | _ => false

theorem lt_irrefl (a : Double) : lt a a = false := by
  cases a <;> simp [lt]

theorem lt_trans {a b c : Double} (hab : lt a b = true) (hbc : lt b c = true) :
    lt a c = true := by
  cases a <;> cases b <;> cases c <;>
    simp only [lt, decide_eq_true_eq, Bool.false_eq_true] at hab hbc ⊢
  exact hab.trans hbc

theorem gt_irrefl (a : Double) : gt a a = false := lt_irrefl a

theorem gt_trans {a b c : Double} (hab : gt a b = true) (hbc : gt b c = true) :
    gt a c = true := lt_trans hbc hab

/-- Away from NaN the comparison is total. -/
theorem lt_total {a b : Double} (ha : a ≠ nan) (hb : b ≠ nan) :
    lt a b = true ∨ a = b ∨ lt b a = true := by
  cases a <;> cases b <;> simp_all only [lt, ne_eq, not_true, decide_eq_true_eq, finite.injEq,
    reduceCtorEq, or_true, not_false_eq_true, Bool.false_eq_true, or_false]
  next p q => exact lt_trichotomy p q

theorem le_iff {a b : Double} (ha : a ≠ nan) (hb : b ≠ nan) :
    le a b = true ↔ lt a b = true ∨ a = b := by
  cases a <;> cases b <;> simp_all [le]

/-- `!(a <= b)` and `a > b` differ on NaN only. -/
theorem le_eq_false_iff {a b : Double} (ha : a ≠ nan) (hb : b ≠ nan) :
    le a b = false ↔ lt b a = true := by
  cases a <;> cases b <;> simp_all [le, lt]
  next p q => grind

/-! ## §2. Arithmetic. -/

/-- `static_cast<double>` of an integer. -/
def ofNat (n : ℕ) : Double := finite n

def neg : Double → Double
  | nan => nan
  | negInf => posInf
  | posInf => negInf
  | finite q => finite (-q)

def add : Double → Double → Double
  | nan, _ => nan
  | _, nan => nan
  | finite a, finite b => finite (a + b)
  | posInf, negInf => nan
  | negInf, posInf => nan
  | posInf, _ => posInf
  | _, posInf => posInf
  | negInf, _ => negInf
  | _, negInf => negInf

def sub (a b : Double) : Double := add a (neg b)

/-- An infinity of the sign of `s`, and NaN for zero. -/
def infOfSign (s : ℚ) : Double :=
  if 0 < s then posInf else if s < 0 then negInf else nan

/-- The sign of a double that is not NaN. -/
def sign : Double → ℚ
  | negInf => -1
  | posInf => 1
  | finite q => if 0 < q then 1 else if q < 0 then -1 else 0
  | nan => 0

def mul : Double → Double → Double
  | nan, _ => nan
  | _, nan => nan
  | finite a, finite b => finite (a * b)
  | a, b => infOfSign (sign a * sign b)

def div : Double → Double → Double
  | nan, _ => nan
  | _, nan => nan
  | finite a, finite b => if b = 0 then infOfSign a else finite (a / b)
  | finite _, _ => finite 0
  | a, finite b => if b < 0 then neg a else a
  | _, _ => nan

/-! ## §3. Fixed notation. -/

/-- The nearest integer, ties to even. -/
def roundHalfEven (x : ℚ) : ℤ :=
  let f := ⌊x⌋
  if x - f < 1 / 2 then f
  else if 1 / 2 < x - f then f + 1
  else if f % 2 = 0 then f else f + 1

/-- `n / 10 ^ digits` in fixed notation. -/
def fixedText (digits n : ℕ) : Str :=
  toStringNat (n / 10 ^ digits) ++ ('.' :: padZero digits (toStringNat (n % 10 ^ digits)))

/-- Stream output with `std::fixed << std::setprecision(digits)`, also
`printf("%.<digits>f")`, for `digits > 0`. -/
def formatFixed (digits : ℕ) : Double → Str
  | nan => "nan".toList
  | posInf => "inf".toList
  | negInf => "-inf".toList
  | finite q =>
      let n := (roundHalfEven (|q| * 10 ^ digits)).toNat
      (if q < 0 then ['-'] else []) ++ fixedText digits n

/-- `std::to_string(double)`: six fractional digits. -/
def toString (a : Double) : Str := formatFixed 6 a

end Double

end FinCore.Cxx

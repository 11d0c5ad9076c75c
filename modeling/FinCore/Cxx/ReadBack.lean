/-
  FinCore.Cxx.ReadBack
  ────────────────────
  What the conversions make of printed numbers.

  The scanners cut a literal off exactly where it ends, so an integer comes back
  as it was printed.
-/
import FinCore.Cxx.Convert
import FinCore.Cxx.Rounding

namespace FinCore.Cxx

/-! ## §1. The first character of a numeral. -/

theorem isSpace_of_isDigit {c : Char} (h : c.isDigit = true) : isSpace c = false := by
  rw [Char.isDigit_iff_toNat] at h
  have h0 : '0'.toNat = 48 := rfl
  have ht : '\t'.toNat = 9 := rfl
  have hr : '\r'.toNat = 13 := rfl
  have hne : c ≠ ' ' := by
    rintro rfl
    have hspace : ' '.toNat = 32 := rfl
    omega
  unfold isSpace
  rw [Bool.or_eq_false_iff, decide_eq_false_iff_not, Bool.and_eq_false_iff,
    decide_eq_false_iff_not, decide_eq_false_iff_not]
  exact ⟨hne, Or.inr (by omega)⟩

/-- A signed numeral starts with no white space. -/
theorem span_isSpace (σ : Sign) {c : Char} (s : Str) (hc : c.isDigit = true) :
    (σ.text ++ c :: s).dropWhile isSpace = σ.text ++ c :: s
      ∧ (σ.text ++ c :: s).takeWhile isSpace = [] := by
  cases σ with
  | none =>
      show (c :: s).dropWhile isSpace = c :: s ∧ (c :: s).takeWhile isSpace = []
      rw [List.dropWhile_cons, List.takeWhile_cons, isSpace_of_isDigit hc]
      exact ⟨rfl, rfl⟩
  | plus => exact ⟨rfl, rfl⟩
  | minus => exact ⟨rfl, rfl⟩

/-! ## §2. Integers. -/

theorem scanInteger_text (σ : Sign) {w : Str} (hw : IsDigits w) (hne : w ≠ []) :
    scanInteger (σ.text ++ w) = ⟨σ, w, σ.text.length + w.length⟩ := by
  obtain ⟨c, s, rfl⟩ := List.exists_cons_of_ne_nil hne
  have hc : c.isDigit = true := (isDigits_cons.mp hw).1
  obtain ⟨hdrop, htake⟩ := span_isSpace σ s hc
  have hspan := (DecimalLiteral.span_digits (r := []) hw rfl).1
  rw [List.append_nil] at hspan
  unfold scanInteger
  rw [hdrop, htake, Sign.split_text_digit σ hc]
  simp only [hspan, List.length_nil, Nat.zero_add]

/-- **An unsigned integer is read as it was printed.** -/
theorem stoull_toStringNat (n : UInt64) :
    stoull (toStringNat n.toNat) = .ok (n, (toStringNat n.toNat).length) := by
  have hne := toStringNat_ne_nil n.toNat
  have hscan := scanInteger_text .none (toStringNat_isDigits n.toNat) hne
  have hlt : digitsValue (toStringNat n.toNat) < 2 ^ 64 := by
    rw [digitsValue_toStringNat]
    exact n.toNat_lt
  change scanInteger (toStringNat n.toNat) = _ at hscan
  unfold stoull
  simp only [hscan]
  rw [if_neg hne, if_pos hlt, digitsValue_toStringNat, UInt64.ofNat_toNat]
  show Except.ok (n, 0 + (toStringNat n.toNat).length) = _
  rw [Nat.zero_add]

/-- **A signed integer is read as it was printed.** -/
theorem stoll_text (σ : Sign) {n : Int64} {m : ℕ} (h : σ.apply (m : ℤ) = n.toInt) :
    stoll (σ.text ++ toStringNat m) = .ok n := by
  have hne := toStringNat_ne_nil m
  have hscan := scanInteger_text σ (toStringNat_isDigits m) hne
  have hvalue : (scanInteger (σ.text ++ toStringNat m)).value = n.toInt := by
    rw [hscan, IntegerScan.value, digitsValue_toStringNat, h]
  have hlow : (-2 ^ 63 : ℤ) ≤ n.toInt := n.le_toInt
  have hhigh : n.toInt < (2 ^ 63 : ℤ) := n.toInt_lt
  have hdigits : (scanInteger (σ.text ++ toStringNat m)).digits ≠ [] := by
    rw [hscan]
    exact hne
  unfold stoll
  simp only [hvalue]
  rw [if_neg hdigits, if_pos ⟨hlow, hhigh⟩, Int64.ofInt_toInt]

theorem splitMinus_text {σ : Sign} (hσ : σ ≠ .plus) {c : Char} (s : Str) (hc : c.isDigit = true) :
    splitMinus (σ.text ++ c :: s) = (σ, c :: s) := by
  cases σ with
  | plus => exact absurd rfl hσ
  | minus => rfl
  | none =>
      have hne : c ≠ '-' := by
        rintro rfl
        exact absurd hc (by decide)
      show splitMinus (c :: s) = _
      unfold splitMinus
      split
      next h => exact absurd (List.cons.inj h).1 hne
      next => rfl

/-- `std::from_chars` reads a printed integer to its end. -/
theorem fromCharsInt64_text {σ : Sign} (hσ : σ ≠ .plus) {n : Int64} {m : ℕ}
    (h : σ.apply (m : ℤ) = n.toInt) :
    fromCharsInt64 (σ.text ++ toStringNat m) = some (n, []) := by
  have hne := toStringNat_ne_nil m
  have hdigits := toStringNat_isDigits m
  have hspan := DecimalLiteral.span_digits (r := []) hdigits rfl
  rw [List.append_nil] at hspan
  have hlow : (-2 ^ 63 : ℤ) ≤ n.toInt := n.le_toInt
  have hhigh : n.toInt < (2 ^ 63 : ℤ) := n.toInt_lt
  have hsplit : splitMinus (σ.text ++ toStringNat m) = (σ, toStringNat m) := by
    obtain ⟨c, s, hcons⟩ := List.exists_cons_of_ne_nil hne
    rw [hcons] at hdigits ⊢
    exact splitMinus_text hσ s (isDigits_cons.mp hdigits).1
  unfold fromCharsInt64
  simp only [hsplit, hspan.1, hspan.2, digitsValue_toStringNat, h]
  rw [if_pos ⟨hne, hlow, hhigh⟩, Int64.ofInt_toInt]

/-! ## §3. Decimal numerals. -/

/-- A mantissa ends before a character that is neither a digit nor a point. -/
theorem scanMantissa_append {w f r : Str} (hw : IsDigits w) (hne : w ≠ []) (hf : IsDigits f)
    (hr : r.head?.all (fun c => !c.isDigit && c != '.') = true) :
    scanMantissa Char.isDigit (w ++ (DecimalLiteral.fractionText f ++ r)) = some (w, f, r) := by
  have hdigit : r.head?.all (!Char.isDigit ·) = true := by
    cases r with
    | nil => rfl
    | cons c r => exact (Bool.and_eq_true_iff.mp hr).1
  have hhead : (DecimalLiteral.fractionText f ++ r).head?.all (!Char.isDigit ·) = true := by
    cases f with
    | nil => exact hdigit
    | cons c f => rfl
  -- the whole digits end where the point or the rest begins
  obtain ⟨htake, hdrop⟩ := DecimalLiteral.span_digits hw hhead
  have hwf : w ++ f ≠ [] := by
    intro h
    exact hne (List.append_eq_nil_iff.mp h).1
  unfold scanMantissa
  simp only [htake, hdrop]
  cases f with
  | nil =>
      cases r with
      | nil => simp only [DecimalLiteral.fractionText, List.nil_append, hwf, if_false]
      | cons c r =>
          -- without a fraction the rest may not begin with a point
          have hpoint : c ≠ '.' := by
            intro heq
            have hboth : (!c.isDigit && c != '.') = true := hr
            rw [heq] at hboth
            exact absurd hboth (by decide)
          split
          next h => exact absurd (List.cons.inj (h : c :: r = '.' :: _)).1 hpoint
          next => exact if_neg hwf
  | cons c f =>
      obtain ⟨htake', hdrop'⟩ := DecimalLiteral.span_digits hf hdigit
      simp only [DecimalLiteral.fractionText, List.cons_append]
      simp only [← List.cons_append, htake', hdrop', hwf, if_false]

theorem toLower_of_isDigit {c : Char} (h : c.isDigit = true) : c.toLower = c := by
  rw [Char.isDigit_iff_toNat] at h
  have h9 : '9'.toNat = 57 := rfl
  refine Char.toLower_eq_of_not_isUpper ?_
  simp only [Char.isUpper, UInt32.le_iff_toNat_le, decide_eq_true_eq]
  show ¬ (65 ≤ c.toNat ∧ c.toNat ≤ 90)
  omega

/-- The numeral behind a digit is neither an infinity, nor NaN, nor
hexadecimal, unless an `x` follows. -/
theorem scanMagnitude_digits {w r : Str} (hw : IsDigits w) (hne : w ≠ [])
    (hr : r.head?.all (fun c => c.toLower != 'x') = true) :
    scanMagnitude (w ++ r) = scanDecimal (w ++ r) := by
  obtain ⟨c, s, rfl⟩ := List.exists_cons_of_ne_nil hne
  obtain ⟨hc, hs⟩ := isDigits_cons.mp hw
  -- a digit is its own lower case, and no letter
  have hletter : ∀ d : Char, d.isDigit = false → ∀ rest : Str,
      ¬ d :: rest <+: toLower (c :: s ++ r) := by
    intro d hd rest hpre
    have hhead := (List.cons_prefix_cons.mp hpre).1
    rw [toLower_of_isDigit hc] at hhead
    rw [hhead, hc] at hd
    cases hd
  have hhex : ¬ "0x".toList <+: toLower (c :: s ++ r) := by
    intro hpre
    have htail := (List.cons_prefix_cons.mp hpre).2
    -- behind the zero stands a digit or the first of `r`, and neither is an `x`
    cases s with
    | nil =>
        cases r with
        | nil => exact absurd htail (by decide)
        | cons d r =>
            have hx : 'x' = d.toLower := (List.cons_prefix_cons.mp htail).1
            have hd : (d.toLower != 'x') = true := hr
            rw [← hx] at hd
            exact absurd hd (by decide)
    | cons d s =>
        have hd := (isDigits_cons.mp hs).1
        have hhead := (List.cons_prefix_cons.mp htail).1
        rw [toLower_of_isDigit hd] at hhead
        rw [← hhead] at hd
        exact absurd hd (by decide)
  have hinf : ¬ "inf".toList <+: toLower (c :: s ++ r) := hletter 'i' (by decide) "nf".toList
  have hnan : ¬ "nan".toList <+: toLower (c :: s ++ r) := hletter 'n' (by decide) "an".toList
  unfold scanMagnitude
  rw [if_neg hinf, if_neg hnan, if_neg hhex]

end FinCore.Cxx

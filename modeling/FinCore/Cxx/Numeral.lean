/-
  FinCore.Cxx.Numeral
  ───────────────────
  The grammar `[+-]?[0-9]+(\.[0-9]+)?([eE][+-]?[0-9]+)?` of decimal numerals,
  and what `std::stod` makes of one.

  A `Numeral` is a plain literal with an optional exponent behind it, so its
  text always lies in the grammar.  `std::stod` reads it from the first
  character to the last and returns the double nearest to its number, unless that
  is out of the range of a `double` (`stod_numeral`).
-/
import FinCore.Cxx.ReadBack

namespace FinCore.Cxx

/-! ## §1. Numerals. -/

/-- The exponent of a numeral, by parts. -/
structure Exponent where
  mark : Char
  sign : Sign
  digits : Str
  mark_e : mark = 'e' ∨ mark = 'E'
  digits_digits : IsDigits digits
  digits_ne : digits ≠ []

namespace Exponent

def text (e : Exponent) : Str := e.mark :: (e.sign.text ++ e.digits)

def value (e : Exponent) : ℤ := e.sign.apply (digitsValue e.digits : ℤ)

end Exponent

/-- A decimal numeral. -/
structure Numeral where
  literal : DecimalLiteral
  exponent : Option Exponent

namespace Numeral

def exponentText (n : Numeral) : Str :=
  match n.exponent with
  | none => []
  | some e => e.text

/-- The power of ten the literal is scaled by. -/
def scale (n : Numeral) : ℤ :=
  match n.exponent with
  | none => 0
  | some e => e.value

def text (n : Numeral) : Str := n.literal.text ++ n.exponentText

/-- The number the numeral denotes. -/
def value (n : Numeral) : ℚ := n.literal.value * 10 ^ n.scale

/-- A plain literal. -/
def ofLiteral (l : DecimalLiteral) : Numeral := ⟨l, none⟩

theorem ofLiteral_text (l : DecimalLiteral) : (ofLiteral l).text = l.text := List.append_nil _

theorem ofLiteral_value (l : DecimalLiteral) : (ofLiteral l).value = l.value := by
  show l.value * 10 ^ (0 : ℤ) = l.value
  rw [zpow_zero, mul_one]

/-! ## §2. The characters of a numeral. -/

/-- What may stand in a numeral. -/
def isNumeralChar (c : Char) : Bool :=
  c.isDigit || c == '+' || c == '-' || c == '.' || c == 'e' || c == 'E'

theorem isNumeralChar_of_isDigit {c : Char} (h : c.isDigit = true) : isNumeralChar c = true := by
  unfold isNumeralChar
  rw [h]
  rfl

theorem sign_chars (σ : Sign) : ∀ c ∈ σ.text, isNumeralChar c = true := by
  cases σ with
  | none => exact fun c hc => absurd hc List.not_mem_nil
  | plus =>
      intro c hc
      rw [List.mem_singleton.mp hc]
      rfl
  | minus =>
      intro c hc
      rw [List.mem_singleton.mp hc]
      rfl

theorem fraction_chars {f : Str} (hf : IsDigits f) :
    ∀ c ∈ DecimalLiteral.fractionText f, isNumeralChar c = true := by
  intro c hc
  cases f with
  | nil => exact absurd hc List.not_mem_nil
  | cons d f =>
      rcases List.mem_cons.mp hc with rfl | hc
      · rfl
      · exact isNumeralChar_of_isDigit (hf c hc)

/-- **Nothing else stands in a numeral.** -/
theorem text_chars (n : Numeral) : ∀ c ∈ n.text, isNumeralChar c = true := by
  intro c hc
  rw [text, DecimalLiteral.text, List.mem_append, List.mem_append, List.mem_append] at hc
  -- sign, whole part, fraction and exponent
  rcases hc with (hc | hc | hc) | hc
  · exact sign_chars _ c hc
  · exact isNumeralChar_of_isDigit (n.literal.whole_digits c hc)
  · exact fraction_chars n.literal.fraction_digits c hc
  · unfold exponentText at hc
    cases he : n.exponent with
    | none =>
        rw [he] at hc
        exact absurd hc List.not_mem_nil
    | some e =>
        rw [he] at hc
        have hmem : c = e.mark ∨ c ∈ e.sign.text ++ e.digits := List.mem_cons.mp hc
        rw [List.mem_append] at hmem
        rcases hmem with rfl | hc | hc
        · rcases e.mark_e with h | h
          · rw [h]
            rfl
          · rw [h]
            rfl
        · exact sign_chars _ c hc
        · exact isNumeralChar_of_isDigit (e.digits_digits c hc)

/-- A text that ends in digits ends in a digit. -/
theorem getLast_append_digits (s : Str) {w : Str} (hw : IsDigits w) (hne : w ≠ []) :
    ∃ c, (s ++ w).getLast? = some c ∧ c.isDigit = true := by
  refine ⟨w.getLast hne, ?_, hw _ (List.getLast_mem hne)⟩
  rw [List.getLast?_append, List.getLast?_eq_some_getLast hne]
  rfl

/-- A numeral ends in a digit. -/
theorem text_getLast (n : Numeral) : ∃ c, n.text.getLast? = some c ∧ c.isDigit = true := by
  unfold text exponentText
  cases n.exponent with
  | some e =>
      -- with an exponent the last character is one of its digits
      have hlast := getLast_append_digits (n.literal.text ++ e.mark :: e.sign.text)
        e.digits_digits e.digits_ne
      rw [List.append_assoc] at hlast
      exact hlast
  | none =>
      show ∃ c, (n.literal.text ++ []).getLast? = some c ∧ _
      rw [List.append_nil]
      unfold DecimalLiteral.text
      cases hf : n.literal.fraction with
      | nil =>
          show ∃ c, (n.literal.sign.text ++ (n.literal.whole ++ [])).getLast? = some c ∧ _
          rw [List.append_nil]
          exact getLast_append_digits _ n.literal.whole_digits n.literal.whole_ne
      | cons d f =>
          have hdigits : IsDigits (d :: f) := hf ▸ n.literal.fraction_digits
          have hlast := getLast_append_digits (n.literal.sign.text ++ (n.literal.whole ++ ['.']))
            hdigits (List.cons_ne_nil d f)
          rw [List.append_assoc, List.append_assoc] at hlast
          exact hlast

/-! ## §3. Reading a numeral. -/

theorem toLower_eq_e {c : Char} (h : c.toLower = 'e') : c = 'e' ∨ c = 'E' := by
  by_cases hupper : c.isUpper
  · right
    have hlower := Char.not_isLower_of_isUpper hupper
    have hcase := Char.toUpper_toLower_eq_toUpper c
    rw [h, Char.toUpper_eq_of_not_isLower hlower] at hcase
    exact hcase.symm
  · left
    rwa [Char.toLower_eq_of_not_isUpper hupper] at h

/-- What does not continue the numeral in front of it. -/
def IsTail (r : Str) : Prop :=
  r.head?.all (fun c => !isNumeralChar c && c.toLower != 'x') = true

theorem isTail_nil : IsTail [] := rfl

theorem IsTail.head {c : Char} {r : Str} (h : IsTail (c :: r)) :
    (c.isDigit = false ∧ c ≠ '.' ∧ c.toLower ≠ 'e') ∧ c.toLower ≠ 'x' := by
  have hboth : (!isNumeralChar c && c.toLower != 'x') = true := h
  rw [Bool.and_eq_true, Bool.not_eq_true', bne_iff_ne] at hboth
  obtain ⟨hchar, hx⟩ := hboth
  unfold isNumeralChar at hchar
  simp only [Bool.or_eq_false_iff, beq_eq_false_iff_ne] at hchar
  obtain ⟨⟨⟨⟨⟨hdigit, -⟩, -⟩, hpoint⟩, he⟩, hE⟩ := hchar
  refine ⟨⟨hdigit, hpoint, ?_⟩, hx⟩
  intro hlower
  rcases toLower_eq_e hlower with h | h
  · exact he h
  · exact hE h

/-- Behind the digits stands the exponent, or a tail. -/
theorem exponentText_head (n : Numeral) {r : Str} (hr : IsTail r) :
    (n.exponentText ++ r).head?.all (fun c => !c.isDigit && c != '.') = true
    ∧ (n.exponentText ++ r).head?.all (fun c => c.toLower != 'x') = true := by
  unfold exponentText
  cases n.exponent with
  | none =>
      cases r with
      | nil => exact ⟨rfl, rfl⟩
      | cons c r =>
          obtain ⟨⟨hdigit, hpoint, -⟩, hx⟩ := hr.head
          show (!c.isDigit && c != '.') = true ∧ (c.toLower != 'x') = true
          rw [hdigit]
          exact ⟨bne_iff_ne.mpr hpoint, bne_iff_ne.mpr hx⟩
  | some e =>
      show (!e.mark.isDigit && e.mark != '.') = true ∧ (e.mark.toLower != 'x') = true
      rcases e.mark_e with h | h
      · rw [h]
        exact ⟨rfl, rfl⟩
      · rw [h]
        exact ⟨rfl, rfl⟩

/-- The exponent is read from its mark to its last digit. -/
theorem scanExponent_append (n : Numeral) {r : Str} (hr : IsTail r) :
    scanExponent 'e' (n.exponentText ++ r) = n.scale := by
  unfold exponentText scale
  cases n.exponent with
  | none =>
      cases r with
      | nil => rfl
      | cons c r =>
          show scanExponent 'e' (c :: r) = 0
          rw [scanExponent, if_neg hr.head.1.2.2]
  | some e =>
      obtain ⟨c, s, hdigits⟩ := List.exists_cons_of_ne_nil e.digits_ne
      have hc : c.isDigit = true := e.digits_digits c (by simp [hdigits])
      have hsplit : Sign.split (e.sign.text ++ e.digits ++ r) = (e.sign, e.digits ++ r) := by
        rw [List.append_assoc, hdigits]
        exact Sign.split_text_digit e.sign hc
      -- the digits end where the numeral does
      have hstop : r.head?.all (!Char.isDigit ·) = true := by
        cases r with
        | nil => rfl
        | cons c r =>
            show (!c.isDigit) = true
            rw [hr.head.1.1]
            rfl
      have hspan := (DecimalLiteral.span_digits e.digits_digits hstop).1
      have hmark : e.mark.toLower = 'e' := by
        rcases e.mark_e with h | h
        · rw [h]
          rfl
        · rw [h]
          rfl
      show scanExponent 'e' (e.mark :: (e.sign.text ++ e.digits ++ r)) = e.value
      rw [scanExponent, if_pos hmark, hsplit]
      simp only [hspan]
      rfl

theorem scanDecimal_append (n : Numeral) {r : Str} (hr : IsTail r) :
    scanDecimal (n.literal.whole ++ (DecimalLiteral.fractionText n.literal.fraction
        ++ (n.exponentText ++ r))) = some (.finite (n.literal.magnitude * 10 ^ n.scale)) := by
  have hten : (10 : ℚ) ≠ 0 := by norm_num
  unfold scanDecimal
  rw [scanMantissa_append n.literal.whole_digits n.literal.whole_ne n.literal.fraction_digits
    (n.exponentText_head hr).1]
  simp only [Option.map_some, scanExponent_append n hr]
  rw [zpow_sub₀ hten, zpow_natCast, digitsValue_append, DecimalLiteral.magnitude]
  push_cast
  congr 2
  field_simp

theorem value_eq (n : Numeral) :
    n.value = n.literal.sign.apply (n.literal.magnitude * 10 ^ n.scale) := by
  unfold value DecimalLiteral.value
  cases n.literal.sign with
  | minus =>
      show -n.literal.magnitude * 10 ^ n.scale = -(n.literal.magnitude * 10 ^ n.scale)
      rw [neg_mul]
  | none => rfl
  | plus => rfl

theorem abs_value (n : Numeral) : |n.value| = n.literal.magnitude * 10 ^ n.scale := by
  have hnonneg : 0 ≤ n.literal.magnitude * 10 ^ n.scale := by
    unfold DecimalLiteral.magnitude
    positivity
  rw [value_eq]
  cases n.literal.sign with
  | minus =>
      show |-(n.literal.magnitude * 10 ^ n.scale)| = _
      rw [abs_neg, abs_of_nonneg hnonneg]
  | none => exact abs_of_nonneg hnonneg
  | plus => exact abs_of_nonneg hnonneg

/-- The number has a place among the doubles. -/
def InRange (n : Numeral) : Prop := (Double.finite |n.value|).isOutOfRange = false

instance (n : Numeral) : Decidable n.InRange := inferInstanceAs (Decidable (_ = false))

/-- The double nearest to the number. -/
def nearest (n : Numeral) : Double := .finite (FloatFormat.binary64.round n.value)

/-- A numeral is read whole, and what is behind it is not; whatever the numbers
are rounded to, as long as that keeps their signs. -/
theorem stodBy_append (n : Numeral) {round : ℚ → ℚ} (hodd : ∀ q, round (-q) = -round q) {r : Str}
    (hr : IsTail r) :
    stodBy round (n.text ++ r) = if (Double.finite |n.value|).isOutOfRange then .error .range
      else .ok (.finite (round n.value)) := by
  obtain ⟨c, w, hw⟩ := List.exists_cons_of_ne_nil n.literal.whole_ne
  have hc : c.isDigit = true := n.literal.whole_digits c (by simp [hw])
  have htext : n.text ++ r = n.literal.sign.text ++ (n.literal.whole
      ++ (DecimalLiteral.fractionText n.literal.fraction ++ (n.exponentText ++ r))) := by
    rw [text, DecimalLiteral.text]
    simp only [List.append_assoc]
  have hdrop : (n.text ++ r).dropWhile isSpace = n.text ++ r := by
    rw [htext, hw]
    exact (span_isSpace n.literal.sign _ hc).1
  have hsplit : Sign.split (n.text ++ r) = (n.literal.sign, n.literal.whole
      ++ (DecimalLiteral.fractionText n.literal.fraction ++ (n.exponentText ++ r))) := by
    rw [htext, hw]
    exact Sign.split_text_digit n.literal.sign hc
  -- an `x` behind a lone zero would make it hexadecimal
  have hhead : (DecimalLiteral.fractionText n.literal.fraction ++ (n.exponentText ++ r)).head?.all
      (fun c => c.toLower != 'x') = true := by
    cases n.literal.fraction with
    | nil => exact (n.exponentText_head hr).2
    | cons d f => rfl
  unfold stodBy
  rw [hdrop, hsplit]
  simp only
  rw [scanMagnitude_digits n.literal.whole_digits n.literal.whole_ne hhead,
    scanDecimal_append n hr, abs_value]
  show (if (Double.finite (n.literal.magnitude * 10 ^ n.scale)).isOutOfRange then _ else _) = _
  split
  next => rfl
  next =>
    rw [value_eq]
    cases n.literal.sign with
    | minus =>
        show Except.ok (Double.finite (-round (n.literal.magnitude * 10 ^ n.scale)))
          = .ok (.finite (round (-(n.literal.magnitude * 10 ^ n.scale))))
        rw [hodd]
    | none => rfl
    | plus => rfl

/-- **`std::stod` reads a numeral whole and stops behind it**; it throws if the
numeral is out of range. -/
theorem stod_append (n : Numeral) {r : Str} (hr : IsTail r) :
    stod (n.text ++ r) = if (Double.finite |n.value|).isOutOfRange then .error .range
      else .ok n.nearest :=
  n.stodBy_append (fun _ => FloatFormat.round_neg _) hr

theorem stod_numeral (n : Numeral) :
    stod n.text = if (Double.finite |n.value|).isOutOfRange then .error .range
      else .ok n.nearest := by
  have happend := n.stod_append isTail_nil
  rwa [List.append_nil] at happend

/-- Without rounding a plain literal is read as its number. -/
theorem stodExact_text (l : DecimalLiteral) :
    stodExact l.text = if (Double.finite |l.value|).isOutOfRange then .error .range
      else .ok (.finite l.value) := by
  have hodd : ∀ q : ℚ, id (-q) = -id q := fun _ => rfl
  have hread := (ofLiteral l).stodBy_append hodd isTail_nil
  rwa [List.append_nil, ofLiteral_text, ofLiteral_value] at hread

theorem stod_inRange {n : Numeral} (h : n.InRange) : stod n.text = .ok n.nearest := by
  rw [stod_numeral, h]
  rfl

theorem inRange_of_ok {n : Numeral} {x : Double} (h : stod n.text = .ok x) : n.InRange := by
  rw [stod_numeral] at h
  split at h
  · cases h
  next hrange => exact Bool.eq_false_iff.mpr hrange

/-- What `std::stod` returns for a numeral is the double nearest to its number. -/
theorem stod_numeral_ok {n : Numeral} {x : Double} (h : stod n.text = .ok x) :
    x = n.nearest := by
  rw [stod_numeral] at h
  split at h
  · cases h
  · exact (Except.ok.inj h).symm

end Numeral

end FinCore.Cxx

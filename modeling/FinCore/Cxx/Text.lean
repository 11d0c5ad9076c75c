/-
  FinCore.Cxx.Text
  ────────────────
  Byte strings, decimal digit strings and their rendering.

  A `std::string` is the list of its bytes, one `Char` for each.  The value of
  a digit string is `Nat.ofDigitChars 10`, its rendering `Nat.toDigits 10`
  (what `std::to_string` prints for an unsigned integer); this file adds what
  the two have to say to each other: values are bounded by the length, a digit
  string of fixed length is determined by its value, and one without a
  redundant leading zero is the rendering of its value.
-/
import Mathlib

namespace FinCore.Cxx

/-- A `std::string` (or `std::string_view`): its bytes in order. -/
abbrev Str := List Char

/-! ## §1. Digit strings and their values. -/

/-- Every character is one of `0` … `9`. -/
def IsDigits (s : Str) : Prop := ∀ c ∈ s, c.isDigit = true

instance (s : Str) : Decidable (IsDigits s) :=
  decidable_of_iff (s.all Char.isDigit = true) List.all_eq_true

/-- The number a digit string denotes, most significant digit first. -/
def digitsValue (s : Str) : ℕ := Nat.ofDigitChars 10 s 0

/-- `ch - '0'`. -/
def digitOf (c : Char) : ℕ := c.toNat - '0'.toNat

theorem digitOf_lt {c : Char} (h : c.isDigit = true) : digitOf c < 10 := by
  rw [Char.isDigit_iff_toNat] at h
  have h0 : '0'.toNat = 48 := rfl
  have h9 : '9'.toNat = 57 := rfl
  unfold digitOf
  omega

/-- A digit is determined by its value. -/
theorem digitOf_inj {c d : Char} (hc : c.isDigit = true) (hd : d.isDigit = true)
    (h : digitOf c = digitOf d) : c = d := by
  rw [Char.isDigit_iff_toNat] at hc hd
  unfold digitOf at h
  have hn : c.toNat = d.toNat := by omega
  exact Char.toNat_inj.mp hn

@[simp] theorem isDigits_nil : IsDigits [] := by
  simp [IsDigits]

@[simp] theorem isDigits_cons {c : Char} {s : Str} :
    IsDigits (c :: s) ↔ c.isDigit = true ∧ IsDigits s := by
  simp [IsDigits]

@[simp] theorem isDigits_append {s t : Str} :
    IsDigits (s ++ t) ↔ IsDigits s ∧ IsDigits t := by
  simp [IsDigits, or_imp, forall_and]

/-- A run of a class is exactly what `takeWhile`/`dropWhile` cut off in front of
a character outside it. -/
theorem span_class {p : Char → Bool} {w r : Str} (hw : ∀ c ∈ w, p c = true)
    (hr : r.head?.all (!p ·) = true) :
    (w ++ r).takeWhile p = w ∧ (w ++ r).dropWhile p = r := by
  rw [List.takeWhile_append_of_pos hw, List.dropWhile_append_of_pos hw]
  cases r with
  | nil => simp
  | cons c r =>
      have hc : p c = false := by simpa using hr
      simp [hc]

/-- What is left behind such a run does not continue it. -/
theorem head_dropWhile (p : Char → Bool) (s : Str) :
    (s.dropWhile p).head?.all (!p ·) = true := by
  induction s with
  | nil => rfl
  | cons c s ih =>
      rw [List.dropWhile_cons]
      split
      next => exact ih
      next h => simpa using h

theorem isDigits_replicate_zero (n : ℕ) : IsDigits (List.replicate n '0') := by
  intro c hc
  rw [List.eq_of_mem_replicate hc]
  rfl

@[simp] theorem digitsValue_nil : digitsValue [] = 0 := rfl

theorem digitsValue_append (s t : Str) :
    digitsValue (s ++ t) = digitsValue s * 10 ^ t.length + digitsValue t := by
  unfold digitsValue
  rw [Nat.ofDigitChars_append, Nat.ofDigitChars_eq_ofDigitChars_zero]
  ring

theorem digitsValue_cons (c : Char) (s : Str) :
    digitsValue (c :: s) = digitOf c * 10 ^ s.length + digitsValue s := by
  have h := digitsValue_append [c] s
  simpa [digitsValue, digitOf, Nat.ofDigitChars_cons] using h

@[simp] theorem digitsValue_replicate_zero (n : ℕ) :
    digitsValue (List.replicate n '0') = 0 := by
  simp [digitsValue]

/-- `n` digits denote a number below `10 ^ n`. -/
theorem digitsValue_lt {s : Str} (h : IsDigits s) : digitsValue s < 10 ^ s.length := by
  induction s with
  | nil => simp
  | cons c s ih =>
      obtain ⟨hc, hs⟩ := isDigits_cons.mp h
      have hd := digitOf_lt hc
      have hv := ih hs
      rw [digitsValue_cons, List.length_cons, pow_succ]
      calc digitOf c * 10 ^ s.length + digitsValue s
          < digitOf c * 10 ^ s.length + 10 ^ s.length := by omega
        _ = (digitOf c + 1) * 10 ^ s.length := by ring
        _ ≤ 10 * 10 ^ s.length := Nat.mul_le_mul_right _ hd
        _ = 10 ^ s.length * 10 := by ring

/-- A digit string of known length is determined by its value. -/
theorem digits_eq_of_value {s t : Str} (hs : IsDigits s) (ht : IsDigits t)
    (hlen : s.length = t.length) (hv : digitsValue s = digitsValue t) : s = t := by
  induction s generalizing t with
  | nil => exact (List.length_eq_zero_iff.mp hlen.symm).symm
  | cons c s ih =>
      cases t with
      | nil => simp at hlen
      | cons d t =>
          obtain ⟨hc, hs'⟩ := isDigits_cons.mp hs
          obtain ⟨hd, ht'⟩ := isDigits_cons.mp ht
          have hl : s.length = t.length := by simpa using hlen
          rw [digitsValue_cons, digitsValue_cons, hl] at hv
          have hsv := digitsValue_lt hs'
          have htv := digitsValue_lt ht'
          rw [hl] at hsv
          have hpos : 0 < 10 ^ t.length := by positivity
          -- the leading digit is the quotient, the rest the remainder
          have hcd : digitOf c = digitOf d := by
            have h1 := congrArg (· / 10 ^ t.length) hv
            simpa [Nat.mul_add_div, Nat.add_div_of_dvd_right, Nat.div_eq_of_lt hsv,
              Nat.div_eq_of_lt htv, hpos.ne'] using h1
          have hrest : digitsValue s = digitsValue t := by
            rw [hcd] at hv
            omega
          rw [digitOf_inj hc hd hcd, ih hs' ht' hl hrest]

/-! ## §2. Rendering: `std::to_string` on unsigned integers. -/

/-- `std::to_string` of an unsigned integer. -/
def toStringNat (n : ℕ) : Str := Nat.toDigits 10 n

theorem toStringNat_isDigits (n : ℕ) : IsDigits (toStringNat n) := fun _ hc =>
  Nat.isDigit_of_mem_toDigits (by decide) (by decide) hc

@[simp] theorem digitsValue_toStringNat (n : ℕ) : digitsValue (toStringNat n) = n :=
  Nat.ofDigitChars_ten_toDigits

theorem toStringNat_ne_nil (n : ℕ) : toStringNat n ≠ [] := Nat.toDigits_ne_nil

theorem toStringNat_length_le {n k : ℕ} (hk : 0 < k) (h : n < 10 ^ k) :
    (toStringNat n).length ≤ k :=
  (Nat.length_toDigits_le_iff (by decide) hk).mpr h

/-- The digit string has no redundant leading zero. -/
def NoLeadingZero (s : Str) : Prop := s.head? = some '0' → s = ['0']

theorem toStringNat_eq (n : ℕ) (h : 10 ≤ n) :
    toStringNat n = toStringNat (n / 10) ++ [(n % 10).digitChar] :=
  Nat.toDigits_of_base_le (by decide) h

theorem toStringNat_lt (n : ℕ) (h : n < 10) : toStringNat n = [n.digitChar] :=
  Nat.toDigits_of_lt_base h

/-- Only zero is rendered with a leading `0`. -/
theorem toStringNat_head (n : ℕ) : (toStringNat n).head? = some '0' → n = 0 := by
  induction n using Nat.strong_induction_on with
  | _ n ih =>
      intro h
      by_cases hn : n < 10
      · rw [toStringNat_lt n hn] at h
        simpa using h
      · rw [toStringNat_eq n (by omega),
          List.head?_append_of_ne_nil _ (toStringNat_ne_nil _)] at h
        have := ih (n / 10) (by omega) h
        omega

theorem toStringNat_noLeadingZero (n : ℕ) : NoLeadingZero (toStringNat n) := by
  intro h
  rw [toStringNat_head n h]
  rfl

/-- **A digit string without a redundant leading zero is the rendering of its
value.** -/
theorem toStringNat_digitsValue {s : Str} (hs : IsDigits s) (hne : s ≠ [])
    (hz : NoLeadingZero s) : toStringNat (digitsValue s) = s := by
  have hr := toStringNat_isDigits (digitsValue s)
  have hv := digitsValue_toStringNat (digitsValue s)
  refine digits_eq_of_value hr hs ?_ hv
  have hpos : 0 < s.length := List.length_pos_iff.mpr hne
  refine le_antisymm (toStringNat_length_le hpos (digitsValue_lt hs)) ?_
  -- the leading digit of `s` keeps the rendering from being shorter
  obtain ⟨c, t, rfl⟩ := List.exists_cons_of_ne_nil hne
  by_cases hc : c = '0'
  · subst hc
    rw [hz rfl]
    exact List.length_pos_iff.mpr (toStringNat_ne_nil _)
  · have hdc : 1 ≤ digitOf c := by
      by_contra h0
      exact hc (digitOf_inj (isDigits_cons.mp hs).1 rfl (by
        have : digitOf '0' = 0 := rfl
        omega))
    by_contra hlt
    have hlt' : (toStringNat (digitsValue (c :: t))).length ≤ t.length := by
      simp only [List.length_cons] at hlt
      omega
    have hbound := digitsValue_lt hr
    rw [hv] at hbound
    have hle := Nat.pow_le_pow_right (show 0 < 10 by decide) hlt'
    have hsum := digitsValue_cons c t
    have hlow : 1 * 10 ^ t.length ≤ digitOf c * 10 ^ t.length := Nat.mul_le_mul_right _ hdc
    omega

/-! ## §3. Zero padding. -/

/-- `s` padded on the left with zeros to width `w`. -/
def padZero (w : ℕ) (s : Str) : Str := List.replicate (w - s.length) '0' ++ s

@[simp] theorem digitsValue_padZero (w : ℕ) (s : Str) :
    digitsValue (padZero w s) = digitsValue s := by
  simp [padZero, digitsValue_append]

theorem isDigits_padZero {w : ℕ} {s : Str} (h : IsDigits s) : IsDigits (padZero w s) :=
  isDigits_append.mpr ⟨isDigits_replicate_zero _, h⟩

theorem length_padZero {w : ℕ} {s : Str} (h : s.length ≤ w) : (padZero w s).length = w := by
  simp [padZero, h]

/-! ## §4. Character classes and C strings. -/

/-- `std::toupper` on every character, in the C locale. -/
def toUpper (s : Str) : Str := s.map Char.toUpper

/-- `std::tolower` on every character, in the C locale. -/
def toLower (s : Str) : Str := s.map Char.toLower

theorem toUpper_idem (s : Str) : toUpper (toUpper s) = toUpper s := by
  simp [toUpper]

/-- What a C API reads from `s.c_str()`: the bytes before the first NUL. -/
def cStr (s : Str) : Str := s.takeWhile (· ≠ Char.ofNat 0)

end FinCore.Cxx

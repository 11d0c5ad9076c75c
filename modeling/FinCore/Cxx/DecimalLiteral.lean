/-
  FinCore.Cxx.DecimalLiteral
  ──────────────────────────
  The grammar `[+-]?[0-9]+(\.[0-9]+)?` of plain decimal literals, the rational
  number a literal denotes, and its parser.

  A `DecimalLiteral` carries the proofs that its parts are digit strings, so
  `text` always lies in the grammar; `parse?` is the inverse of `text`
  (`parse?_eq_some_iff`), which makes the denoted number a function of the
  string.
-/
import FinCore.Cxx.Text

namespace FinCore.Cxx

/-! ## §1. Signs. -/

/-- The optional sign in front of a numeral. -/
inductive Sign where
  | none
  | plus
  | minus
  deriving DecidableEq, Repr

namespace Sign

def text : Sign → Str
  | none => []
  | plus => ['+']
  | minus => ['-']

/-- The sign's effect on a magnitude. -/
def apply {α : Type} [Neg α] : Sign → α → α
  | minus, x => -x
  | _, x => x

/-- Strip a leading sign. -/
def split : Str → Sign × Str
  | '+' :: s => (plus, s)
  | '-' :: s => (minus, s)
  | s => (none, s)

theorem split_sound (s : Str) : s = (split s).1.text ++ (split s).2 := by
  unfold split
  split <;> rfl

theorem split_text_digit (σ : Sign) {c : Char} {s : Str} (hc : c.isDigit = true) :
    split (σ.text ++ c :: s) = (σ, c :: s) := by
  have hp : c ≠ '+' := by rintro rfl; exact absurd hc (by decide)
  have hm : c ≠ '-' := by rintro rfl; exact absurd hc (by decide)
  cases σ with
  | none =>
      show split (c :: s) = _
      unfold split
      split
      · next h => exact absurd (List.cons.inj h).1 hp
      · next h => exact absurd (List.cons.inj h).1 hm
      · rfl
  | plus => rfl
  | minus => rfl

end Sign

/-! ## §2. Literals and their values. -/

/-- A decimal literal, by parts; an empty fraction means that there is no
point. -/
@[ext] structure DecimalLiteral where
  sign : Sign
  whole : Str
  fraction : Str
  whole_digits : IsDigits whole
  whole_ne : whole ≠ []
  fraction_digits : IsDigits fraction

namespace DecimalLiteral

/-- The fraction with its point, or nothing. -/
def fractionText : Str → Str
  | [] => []
  | f => '.' :: f

def text (l : DecimalLiteral) : Str := l.sign.text ++ (l.whole ++ fractionText l.fraction)

/-- The number without its sign. -/
def magnitude (l : DecimalLiteral) : ℚ :=
  digitsValue l.whole + digitsValue l.fraction / 10 ^ l.fraction.length

/-- The number the literal denotes. -/
def value (l : DecimalLiteral) : ℚ := l.sign.apply l.magnitude

/-- The magnitude in units of `10 ^ -k`, for literals with at most `k`
fractional digits. -/
def scaled (k : ℕ) (l : DecimalLiteral) : ℕ :=
  digitsValue l.whole * 10 ^ k + digitsValue l.fraction * 10 ^ (k - l.fraction.length)

theorem magnitude_mul_pow {k : ℕ} {l : DecimalLiteral} (h : l.fraction.length ≤ k) :
    l.magnitude * 10 ^ k = l.scaled k := by
  have hp : (10 : ℚ) ^ k = 10 ^ (k - l.fraction.length) * 10 ^ l.fraction.length := by
    rw [← pow_add, Nat.sub_add_cancel h]
  have hne : (10 : ℚ) ^ l.fraction.length ≠ 0 := by positivity
  unfold magnitude scaled
  push_cast
  rw [add_mul, div_mul_eq_mul_div, hp]
  field_simp

theorem value_mul_pow {k : ℕ} {l : DecimalLiteral} (h : l.fraction.length ≤ k) :
    l.value * 10 ^ k = ((l.sign.apply (l.scaled k : ℤ) : ℤ) : ℚ) := by
  have hm := magnitude_mul_pow h
  unfold value Sign.apply
  cases l.sign <;> push_cast <;> linarith

/-! ## §3. Parsing. -/

/-- Read what follows the whole part: nothing, or a point and digits. -/
def parseFraction? : Str → Option Str
  | [] => some []
  | c :: f => if c = '.' ∧ f ≠ [] ∧ IsDigits f then some f else none

theorem parseFraction?_fractionText {f : Str} (h : IsDigits f) :
    parseFraction? (fractionText f) = some f := by
  cases f with
  | nil => rfl
  | cons c f => simp [fractionText, parseFraction?, isDigits_cons.mp h]

theorem parseFraction?_sound {r f : Str} (h : parseFraction? r = some f) :
    r = fractionText f ∧ IsDigits f := by
  cases r with
  | nil =>
      cases h
      exact ⟨rfl, isDigits_nil⟩
  | cons c r =>
      simp only [parseFraction?] at h
      split at h
      next hc =>
        obtain ⟨rfl, hne, hd⟩ := hc
        injection h with h
        subst h
        obtain ⟨d, r', rfl⟩ := List.exists_cons_of_ne_nil hne
        exact ⟨rfl, hd⟩
      next => exact absurd h (by simp)

/-- The literal a string spells, if it spells one. -/
def parse? (s : Str) : Option DecimalLiteral :=
  let body := (Sign.split s).2
  let whole := body.takeWhile Char.isDigit
  if hw : whole ≠ [] then
    match hf : parseFraction? (body.dropWhile Char.isDigit) with
    | some f =>
        some { sign := (Sign.split s).1, whole := whole, fraction := f
               whole_digits := fun _ hc => List.mem_takeWhile_imp hc
               whole_ne := hw
               fraction_digits := (parseFraction?_sound hf).2 }
    | none => none
  else none

theorem fractionText_head (f : Str) : (fractionText f).head?.all (!Char.isDigit ·) = true := by
  cases f <;> rfl

/-- A digit string is exactly what `takeWhile`/`dropWhile` cut off in front of
a non-digit. -/
theorem span_digits {w r : Str} (hw : IsDigits w)
    (hr : r.head?.all (!Char.isDigit ·) = true) :
    (w ++ r).takeWhile Char.isDigit = w ∧ (w ++ r).dropWhile Char.isDigit = r :=
  span_class hw hr

theorem split_text (l : DecimalLiteral) :
    Sign.split l.text = (l.sign, l.whole ++ fractionText l.fraction) := by
  obtain ⟨c, w, hw⟩ := List.exists_cons_of_ne_nil l.whole_ne
  have hc : c.isDigit = true := l.whole_digits c (by simp [hw])
  unfold text
  rw [hw]
  exact Sign.split_text_digit l.sign hc

theorem parse?_text (l : DecimalLiteral) : parse? l.text = some l := by
  obtain ⟨ht, hd⟩ := span_digits l.whole_digits (fractionText_head l.fraction)
  have hf := parseFraction?_fractionText l.fraction_digits
  unfold parse?
  simp only [split_text, ht]
  rw [dif_pos l.whole_ne]
  split
  next f h =>
    rw [split_text, hd, hf] at h
    injection h with h
    subst h
    rfl
  next h =>
    rw [split_text, hd, hf] at h
    exact absurd h (by simp)

theorem parse?_sound {s : Str} {l : DecimalLiteral} (h : parse? s = some l) : s = l.text := by
  unfold parse? at h
  simp only at h
  split at h
  next hw =>
    split at h
    next f hf =>
      injection h with h
      subst h
      show s = (Sign.split s).1.text ++ (_ ++ fractionText f)
      rw [← (parseFraction?_sound hf).1, List.takeWhile_append_dropWhile]
      exact Sign.split_sound s
    next => exact absurd h (by simp)
  next => exact absurd h (by simp)

/-- **The parser inverts `text`**: a string spells at most one literal. -/
theorem parse?_eq_some_iff {s : Str} {l : DecimalLiteral} :
    parse? s = some l ↔ s = l.text :=
  ⟨parse?_sound, fun h => h ▸ parse?_text l⟩

theorem text_inj {l m : DecimalLiteral} (h : l.text = m.text) : l = m := by
  have hl := parse?_text l
  rw [h, parse?_text m] at hl
  exact (Option.some.inj hl).symm

end DecimalLiteral

end FinCore.Cxx

/-
  FinCore.Cxx.LetterCase
  ──────────────────────
  What folding a text to upper case leaves as it is.

  A class without letters does not tell the cases of a letter apart
  (`class_toUpper`), so a text is split and scanned for a number alike in any
  letter case.
-/
import FinCore.Cxx.Convert

namespace FinCore.Cxx

/-! ## §1. Classes without letters. -/

/-- A class without letters sees no letter case. -/
theorem class_toUpper {p : Char → Bool} (h : ∀ c, c.isAlpha = true → p c = false) (c : Char) :
    p c.toUpper = p c := by
  by_cases hlower : c.isLower = true
  · have halpha : c.isAlpha = true := by
      rw [Char.isAlpha, hlower, Bool.or_true]
    have hfolded : c.toUpper.isAlpha = true := by
      rw [Char.isAlpha_toUpper_eq_isAlpha, halpha]
    rw [h c halpha, h _ hfolded]
  · rw [Char.toUpper_eq_of_not_isLower hlower]

/-- A member of such a class is its own upper case. -/
theorem toUpper_eq_of_class {p : Char → Bool} (h : ∀ c, c.isAlpha = true → p c = false) {c : Char}
    (hc : p c = true) : c.toUpper = c := by
  refine Char.toUpper_eq_of_not_isLower (fun hlower => ?_)
  have halpha : c.isAlpha = true := by
    rw [Char.isAlpha, hlower, Bool.or_true]
  rw [h c halpha] at hc
  cases hc

theorem isAlpha_toNat {c : Char} (h : c.isAlpha = true) : 65 ≤ c.toNat := by
  simp only [Char.isAlpha, Char.isUpper, Char.isLower, Bool.or_eq_true, Bool.and_eq_true,
    decide_eq_true_eq, UInt32.le_iff_toNat_le] at h
  change (65 ≤ c.toNat ∧ c.toNat ≤ 90) ∨ (97 ≤ c.toNat ∧ c.toNat ≤ 122) at h
  omega

theorem isSpace_of_isAlpha (c : Char) (h : c.isAlpha = true) : isSpace c = false := by
  have hcode := isAlpha_toNat h
  have htab : '\t'.toNat = 9 := rfl
  have hreturn : '\r'.toNat = 13 := rfl
  rw [Bool.eq_false_iff]
  intro hspace
  simp only [isSpace, Bool.or_eq_true, Bool.and_eq_true, decide_eq_true_eq] at hspace
  rcases hspace with rfl | hrange
  · cases h
  · omega

theorem isDigit_of_isAlpha (c : Char) (h : c.isAlpha = true) : c.isDigit = false := by
  have hcode := isAlpha_toNat h
  rw [Bool.eq_false_iff]
  intro hdigit
  rw [Char.isDigit_iff_toNat] at hdigit
  have hnine : '9'.toNat = 57 := rfl
  omega

/-! ## §2. Splitting and scanning. -/

theorem takeWhile_toUpper {p : Char → Bool} (h : ∀ c, c.isAlpha = true → p c = false) (s : Str) :
    (toUpper s).takeWhile p = s.takeWhile p := by
  have hclass : p ∘ Char.toUpper = p := funext (class_toUpper h)
  unfold toUpper
  rw [List.takeWhile_map, hclass]
  -- what is taken is made of members of the class
  refine (List.map_congr_left (fun c hc => ?_)).trans (List.map_id _)
  exact toUpper_eq_of_class h (List.mem_takeWhile_imp hc)

theorem dropWhile_toUpper {p : Char → Bool} (h : ∀ c, c.isAlpha = true → p c = false) (s : Str) :
    (toUpper s).dropWhile p = toUpper (s.dropWhile p) := by
  have hclass : p ∘ Char.toUpper = p := funext (class_toUpper h)
  unfold toUpper
  rw [List.dropWhile_map, hclass]

theorem splitOnP_toUpper {p : Char → Bool} (h : ∀ c, c.isAlpha = true → p c = false) (s : Str) :
    (toUpper s).splitOnP p = (s.splitOnP p).map toUpper := by
  induction s with
  | nil => rfl
  | cons c s ih =>
      show (c.toUpper :: toUpper s).splitOnP p = _
      rw [List.splitOnP_cons_eq_if_modifyHead, List.splitOnP_cons_eq_if_modifyHead,
        class_toUpper h c, ih]
      cases p c with
      | true => rfl
      | false =>
          cases s.splitOnP p with
          | nil => rfl
          | cons first rest => rfl

/-- A character that is no letter is the upper case of itself only. -/
theorem toUpper_eq_iff {c d : Char} (h : d.isAlpha = false) : c.toUpper = d ↔ c = d := by
  have hclass : ∀ a : Char, a.isAlpha = true → (a == d) = false := by
    intro a ha
    rw [beq_eq_false_iff_ne]
    rintro rfl
    rw [ha] at h
    cases h
  rw [← beq_iff_eq (a := c.toUpper), class_toUpper (p := (· == d)) hclass, beq_iff_eq]

theorem Sign.split_of_ne {c : Char} {s : Str} (hplus : c ≠ '+') (hminus : c ≠ '-') :
    Sign.split (c :: s) = (.none, c :: s) := by
  unfold Sign.split
  split
  next h => exact absurd (List.cons.inj h).1 hplus
  next h => exact absurd (List.cons.inj h).1 hminus
  next => rfl

/-- A sign is no letter. -/
theorem Sign.split_toUpper (s : Str) :
    Sign.split (toUpper s) = ((Sign.split s).1, toUpper (Sign.split s).2) := by
  cases s with
  | nil => rfl
  | cons c s =>
      by_cases hplus : c = '+'
      · subst hplus
        rfl
      by_cases hminus : c = '-'
      · subst hminus
        rfl
      have hplus' : c.toUpper ≠ '+' := mt (toUpper_eq_iff rfl).mp hplus
      have hminus' : c.toUpper ≠ '-' := mt (toUpper_eq_iff rfl).mp hminus
      show Sign.split (c.toUpper :: toUpper s) = _
      rw [Sign.split_of_ne hplus hminus, Sign.split_of_ne hplus' hminus']
      rfl

/-- A number is read alike in any letter case. -/
theorem scanInteger_toUpper (s : Str) : scanInteger (toUpper s) = scanInteger s := by
  unfold scanInteger
  simp only [dropWhile_toUpper isSpace_of_isAlpha, Sign.split_toUpper,
    takeWhile_toUpper isDigit_of_isAlpha, takeWhile_toUpper isSpace_of_isAlpha]

end FinCore.Cxx

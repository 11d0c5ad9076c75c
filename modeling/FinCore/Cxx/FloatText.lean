/-
  FinCore.Cxx.FloatText
  ─────────────────────
  The grammar of the texts `std::stod` converts.

  White space, a sign, and then an infinity, a NaN, a hexadecimal numeral behind
  `0x`, or a decimal one; a mantissa may have its point anywhere among its
  digits, and whatever stands behind the longest numeral is not looked at.  The
  relations below say this of texts, each part with the text left behind it.
  The scanners are sound and complete for them (`scanMagnitude_eq_some_iff`), so
  `stod_eq_ok_iff` decides from the text whether a number comes back, and which.
-/
import FinCore.Cxx.LetterCase
import FinCore.Cxx.Numeral

namespace FinCore.Cxx

/-! ## §1. The grammar. -/

/-- A mantissa at the start of a text: its whole digits, those behind the point,
and the text behind both.  It has a digit, and does not go on. -/
inductive MantissaText (isDigit : Char → Bool) : Str → Str → Str → Str → Prop
  | plain {w r : Str} (hw : ∀ c ∈ w, isDigit c = true) (hne : w ≠ [])
      (hr : r.head?.all (fun c => !isDigit c && c != '.') = true) :
      MantissaText isDigit (w ++ r) w [] r
  | pointed {w f r : Str} (hw : ∀ c ∈ w, isDigit c = true) (hf : ∀ c ∈ f, isDigit c = true)
      (hne : w ++ f ≠ []) (hr : r.head?.all (!isDigit ·) = true) :
      MantissaText isDigit (w ++ '.' :: (f ++ r)) w f r

/-- An exponent at the start of the text behind a mantissa, and zero if none is
there. -/
inductive ExponentText (mark : Char) : Str → ℤ → Prop
  | written {c : Char} {σ : Sign} {d r : Str} (hc : c.toLower = mark) (hd : IsDigits d)
      (hne : d ≠ []) (hr : r.head?.all (!Char.isDigit ·) = true) :
      ExponentText mark (c :: (σ.text ++ (d ++ r))) (σ.apply (digitsValue d : ℤ))
  | absent {s : Str} (h : ∀ (c : Char) (σ : Sign) (d r : Str), c.toLower = mark → IsDigits d →
      d ≠ [] → s ≠ c :: (σ.text ++ (d ++ r))) : ExponentText mark s 0

/-- A number without its sign at the start of a text. -/
inductive MagnitudeText : Str → Double → Prop
  | infinity {s : Str} (h : "inf".toList <+: toLower s) : MagnitudeText s .posInf
  | nan {s : Str} (h : "nan".toList <+: toLower s) : MagnitudeText s .nan
  | hexadecimal {s w f r : Str} {k : ℤ} (h : "0x".toList <+: toLower s)
      (hm : MantissaText isHexDigit (s.drop 2) w f r) (hk : ExponentText 'p' r k) :
      MagnitudeText s (.finite (hexValue (w ++ f) * 2 ^ (k - 4 * f.length)))
  | decimal {s w f r : Str} {k : ℤ} (hm : MantissaText Char.isDigit s w f r)
      (hk : ExponentText 'e' r k)
      (hhex : "0x".toList <+: toLower s → ∀ w f r, ¬ MantissaText isHexDigit (s.drop 2) w f r) :
      MagnitudeText s (.finite (digitsValue (w ++ f) * 10 ^ (k - f.length)))

/-- The text begins with a number: white space, a sign and a magnitude. -/
inductive FloatText : Str → Sign → Double → Prop
  | intro {blank body : Str} {σ : Sign} {x : Double} (hblank : ∀ c ∈ blank, isSpace c = true)
      (hbody : MagnitudeText body x) : FloatText (blank ++ (σ.text ++ body)) σ x

/-! ## §2. The parts. -/

section Mantissa

variable {isDigit : Char → Bool} {s w f r : Str}

/-- The scanner cuts the mantissa off. -/
theorem MantissaText.scan (hpoint : isDigit '.' = false) (h : MantissaText isDigit s w f r) :
    scanMantissa isDigit s = some (w, f, r) := by
  cases h with
  | plain hw hne hr =>
      have hstop : r.head?.all (!isDigit ·) = true := by
        cases r with
        | nil => rfl
        | cons c r => exact (Bool.and_eq_true_iff.mp hr).1
      obtain ⟨htake, hdrop⟩ := span_class hw hstop
      unfold scanMantissa
      simp only [htake, hdrop]
      cases r with
      | nil => simp only [List.append_nil, hne, if_false]
      | cons c r =>
          have hc : c ≠ '.' := bne_iff_ne.mp (Bool.and_eq_true_iff.mp hr).2
          split
          next heq => exact absurd (List.cons.inj (heq : c :: r = '.' :: _)).1 hc
          next => simp only [List.append_nil, hne, if_false]
  | pointed hw hf hne hr =>
      have hstop : ('.' :: (f ++ r)).head?.all (!isDigit ·) = true := by
        show (!isDigit '.') = true
        rw [hpoint]
        rfl
      obtain ⟨htake, hdrop⟩ := span_class hw hstop
      obtain ⟨htake', hdrop'⟩ := span_class hf hr
      unfold scanMantissa
      simp only [htake, hdrop, htake', hdrop', hne, if_false]

/-- What the scanner cuts off is a mantissa. -/
theorem mantissaText_of_scan (h : scanMantissa isDigit s = some (w, f, r)) :
    MantissaText isDigit s w f r := by
  have hsplit : s = s.takeWhile isDigit ++ s.dropWhile isDigit :=
    List.takeWhile_append_dropWhile.symm
  have hwhole : ∀ c ∈ s.takeWhile isDigit, isDigit c = true :=
    fun _ hc => List.mem_takeWhile_imp hc
  unfold scanMantissa at h
  simp only at h
  split at h
  next rest hrest =>
    -- a point stands behind the whole digits
    simp only [Option.ite_none_left_eq_some, Option.some.injEq, Prod.mk.injEq] at h
    obtain ⟨hne, rfl, rfl, rfl⟩ := h
    have hpointed := MantissaText.pointed hwhole (fun _ hc => List.mem_takeWhile_imp hc) hne
      (head_dropWhile isDigit rest)
    rw [List.takeWhile_append_dropWhile, ← hrest, ← hsplit] at hpointed
    exact hpointed
  next hrest =>
    simp only [Option.ite_none_left_eq_some, Option.some.injEq, Prod.mk.injEq,
      List.append_nil] at h
    obtain ⟨hne, rfl, rfl, rfl⟩ := h
    have hstop : (s.dropWhile isDigit).head?.all (fun c => !isDigit c && c != '.') = true := by
      have hdigit := head_dropWhile isDigit s
      cases hcons : s.dropWhile isDigit with
      | nil => rfl
      | cons c rest =>
          rw [hcons] at hdigit
          have hc : c ≠ '.' := by
            rintro rfl
            exact hrest rest hcons
          exact Bool.and_eq_true_iff.mpr ⟨hdigit, bne_iff_ne.mpr hc⟩
    have hplain := MantissaText.plain hwhole hne hstop
    rwa [← hsplit] at hplain

/-- **The scanner finds exactly the mantissas.** -/
theorem scanMantissa_eq_some_iff (hpoint : isDigit '.' = false) :
    scanMantissa isDigit s = some (w, f, r) ↔ MantissaText isDigit s w f r :=
  ⟨mantissaText_of_scan, MantissaText.scan hpoint⟩

theorem scanMantissa_eq_none_iff (hpoint : isDigit '.' = false) :
    scanMantissa isDigit s = none ↔ ∀ w f r, ¬ MantissaText isDigit s w f r := by
  rw [Option.eq_none_iff_forall_ne_some]
  constructor
  · intro h w f r hm
    exact h _ ((scanMantissa_eq_some_iff hpoint).mpr hm)
  · rintro h ⟨w, f, r⟩ hscan
    exact h w f r ((scanMantissa_eq_some_iff hpoint).mp hscan)

/-- A mantissa begins with a digit or with its point. -/
theorem MantissaText.head (h : MantissaText isDigit s w f r) :
    ∃ c t, s = c :: t ∧ (isDigit c = true ∨ c = '.') := by
  have hcons : ∀ {w t : Str}, (∀ c ∈ w, isDigit c = true) → w ≠ [] →
      ∃ c u, w ++ t = c :: u ∧ (isDigit c = true ∨ c = '.') := by
    intro w t hw hne
    obtain ⟨c, u, rfl⟩ := List.exists_cons_of_ne_nil hne
    exact ⟨c, u ++ t, rfl, Or.inl (hw c List.mem_cons_self)⟩
  cases h with
  | plain hw hne _ => exact hcons hw hne
  | pointed hw _ _ _ =>
      by_cases hne : w = []
      · exact ⟨'.', f ++ r, by rw [hne, List.nil_append], Or.inr rfl⟩
      · exact hcons hw hne

end Mantissa

section Exponent

variable {mark : Char} {s : Str} {k : ℤ}

theorem ExponentText.scan (h : ExponentText mark s k) : scanExponent mark s = k := by
  cases h with
  | @written c σ d r hc hd hne hr =>
      obtain ⟨e, t, rfl⟩ := List.exists_cons_of_ne_nil hne
      have hsplit : Sign.split (σ.text ++ (e :: t ++ r)) = (σ, e :: t ++ r) :=
        Sign.split_text_digit σ (hd e List.mem_cons_self)
      rw [scanExponent, if_pos hc, hsplit]
      simp only [(DecimalLiteral.span_digits hd hr).1]
  | absent h =>
      cases s with
      | nil => rfl
      | cons c s =>
          rw [scanExponent]
          split
          next hc =>
            -- a mark without digits behind it is no exponent
            have hnil : (Sign.split s).2.takeWhile Char.isDigit = [] := by
              by_contra hne
              refine h c (Sign.split s).1 _ ((Sign.split s).2.dropWhile Char.isDigit) hc
                (fun _ hd => List.mem_takeWhile_imp hd) hne ?_
              rw [List.takeWhile_append_dropWhile, ← Sign.split_sound]
            simp only [hnil, digitsValue_nil]
            cases (Sign.split s).1 <;> rfl
          next => rfl

/-- Every text has an exponent at its start, or none. -/
theorem exponentText_scan (mark : Char) (s : Str) :
    ExponentText mark s (scanExponent mark s) := by
  by_cases h : ∃ (c : Char) (σ : Sign) (d r : Str), c.toLower = mark ∧ IsDigits d ∧ d ≠ []
      ∧ s = c :: (σ.text ++ (d ++ r))
  · obtain ⟨c, σ, d, r, hc, hd, hne, rfl⟩ := h
    -- the digits go on to the first character that is none
    have hdigits : ∀ e ∈ d ++ r.takeWhile Char.isDigit, e.isDigit = true := by
      intro e he
      rcases List.mem_append.mp he with he | he
      · exact hd e he
      · exact List.mem_takeWhile_imp he
    have hne' : d ++ r.takeWhile Char.isDigit ≠ [] := by
      intro hnil
      exact hne (List.append_eq_nil_iff.mp hnil).1
    have hwritten := ExponentText.written (σ := σ) hc hdigits hne' (head_dropWhile _ r)
    rw [List.append_assoc, List.takeWhile_append_dropWhile] at hwritten
    rw [hwritten.scan]
    exact hwritten
  · have habsent : ExponentText mark s 0 := by
      refine .absent (fun c σ d r hc hd hne heq => h ⟨c, σ, d, r, hc, hd, hne, heq⟩)
    rw [habsent.scan]
    exact habsent

end Exponent

/-! ## §3. The number. -/

/-- The scanner of decimal numerals. -/
theorem scanDecimal_of_text {s w f r : Str} {k : ℤ} (hm : MantissaText Char.isDigit s w f r)
    (hk : ExponentText 'e' r k) :
    scanDecimal s = some (.finite (digitsValue (w ++ f) * 10 ^ (k - f.length))) := by
  unfold scanDecimal
  rw [hm.scan (by decide)]
  simp only [Option.map_some, hk.scan]

theorem scanHex_of_text {s w f r : Str} {k : ℤ} (hm : MantissaText isHexDigit s w f r)
    (hk : ExponentText 'p' r k) :
    scanHex s = some (.finite (hexValue (w ++ f) * 2 ^ (k - 4 * f.length))) := by
  unfold scanHex
  rw [hm.scan (by decide)]
  simp only [Option.map_some, hk.scan]

theorem scanHex_eq_none {s : Str} (h : ∀ w f r, ¬ MantissaText isHexDigit s w f r) :
    scanHex s = none := by
  unfold scanHex
  rw [(scanMantissa_eq_none_iff (by decide)).mpr h]
  rfl

theorem not_prefix_of_prefix {c d : Char} {s t u : Str} (hne : c ≠ d) (h : d :: t <+: u) :
    ¬ c :: s <+: u := by
  intro hpre
  cases u with
  | nil => exact absurd (List.prefix_nil.mp h) (List.cons_ne_nil _ _)
  | cons e u =>
      exact hne ((List.cons_prefix_cons.mp hpre).1.trans (List.cons_prefix_cons.mp h).1.symm)

theorem toLower_eq_zero {c : Char} (h : c.toLower = '0') : c = '0' := by
  by_cases hupper : c.isUpper = true
  · have halpha : c.toLower.isAlpha = true := by
      rw [Char.isAlpha_toLower_eq_isAlpha, Char.isAlpha, hupper, Bool.true_or]
    rw [h] at halpha
    exact absurd halpha (by decide)
  · rwa [Char.toLower_eq_of_not_isUpper hupper] at h

/-- No letter begins a decimal mantissa. -/
theorem MantissaText.not_letter {s w f r : Str} (h : MantissaText Char.isDigit s w f r) {d : Char}
    (hd : d.isAlpha = true) (u : Str) : ¬ d :: u <+: toLower s := by
  obtain ⟨c, t, rfl, hc⟩ := h.head
  intro hpre
  have hlower : d = c.toLower := (List.cons_prefix_cons.mp hpre).1
  rcases hc with hc | rfl
  · rw [toLower_of_isDigit hc] at hlower
    rw [← hlower, isDigit_of_isAlpha d hd] at hc
    cases hc
  · rw [hlower] at hd
    exact absurd hd (by decide)

/-- The first character of a magnitude is no white space and no sign. -/
theorem MagnitudeText.head {s : Str} {x : Double} (h : MagnitudeText s x) :
    ∃ c t, s = c :: t ∧ isSpace c = false ∧ c ≠ '+' ∧ c ≠ '-' := by
  have hletter : ∀ {d : Char} {u : Str}, d.isAlpha = true → d :: u <+: toLower s →
      ∃ c t, s = c :: t ∧ isSpace c = false ∧ c ≠ '+' ∧ c ≠ '-' := by
    intro d u hd hpre
    cases s with
    | nil => exact absurd (List.prefix_nil.mp hpre) (List.cons_ne_nil _ _)
    | cons c t =>
        have hlower : d = c.toLower := (List.cons_prefix_cons.mp hpre).1
        rw [hlower, Char.isAlpha_toLower_eq_isAlpha] at hd
        refine ⟨c, t, rfl, isSpace_of_isAlpha c hd, ?_, ?_⟩
        · rintro rfl
          exact absurd hd (by decide)
        · rintro rfl
          exact absurd hd (by decide)
  cases h with
  | infinity h => exact hletter (by decide) h
  | nan h => exact hletter (by decide) h
  | hexadecimal h _ _ =>
      cases s with
      | nil => exact absurd (List.prefix_nil.mp h) (List.cons_ne_nil _ _)
      | cons c t =>
          have hc : c = '0' := toLower_eq_zero (List.cons_prefix_cons.mp h).1.symm
          exact ⟨c, t, rfl, by rw [hc]; decide⟩
  | decimal hm _ _ =>
      obtain ⟨c, t, rfl, hc | rfl⟩ := hm.head
      · refine ⟨c, t, rfl, isSpace_of_isDigit hc, ?_, ?_⟩
        · rintro rfl
          exact absurd hc (by decide)
        · rintro rfl
          exact absurd hc (by decide)
      · exact ⟨'.', t, rfl, by decide⟩

/-- The scanner takes the number a text begins with. -/
theorem MagnitudeText.scan {s : Str} {x : Double} (h : MagnitudeText s x) :
    scanMagnitude s = some x := by
  cases h with
  | infinity h =>
      unfold scanMagnitude
      rw [if_pos h]
  | nan h =>
      have hinf : ¬ "inf".toList <+: toLower s := not_prefix_of_prefix (by decide) h
      unfold scanMagnitude
      rw [if_neg hinf, if_pos h]
  | hexadecimal h hm hk =>
      have hinf : ¬ "inf".toList <+: toLower s := not_prefix_of_prefix (by decide) h
      have hnan : ¬ "nan".toList <+: toLower s := not_prefix_of_prefix (by decide) h
      unfold scanMagnitude
      rw [if_neg hinf, if_neg hnan, if_pos h, scanHex_of_text hm hk]
      rfl
  | decimal hm hk hhex =>
      have hinf : ¬ "inf".toList <+: toLower s := hm.not_letter (by decide) _
      have hnan : ¬ "nan".toList <+: toLower s := hm.not_letter (by decide) _
      unfold scanMagnitude
      rw [if_neg hinf, if_neg hnan]
      split
      next h =>
        rw [scanHex_eq_none (hhex h)]
        exact scanDecimal_of_text hm hk
      next => exact scanDecimal_of_text hm hk

/-- What the scanner takes is the number the text begins with. -/
theorem magnitudeText_of_scan {s : Str} {x : Double} (h : scanMagnitude s = some x) :
    MagnitudeText s x := by
  -- the decimal numeral, where no hexadecimal one stands
  have hdecimal : scanDecimal s = some x →
      ("0x".toList <+: toLower s → ∀ w f r, ¬ MantissaText isHexDigit (s.drop 2) w f r) →
      MagnitudeText s x := by
    intro hscan hhex
    unfold scanDecimal at hscan
    obtain ⟨⟨w, f, r⟩, hm, rfl⟩ := Option.map_eq_some_iff.mp hscan
    exact .decimal (mantissaText_of_scan hm) (exponentText_scan 'e' r) hhex
  unfold scanMagnitude at h
  split at h
  next hinf =>
    obtain rfl := Option.some.inj h
    exact .infinity hinf
  split at h
  next hnan =>
    obtain rfl := Option.some.inj h
    exact .nan hnan
  split at h
  next hpre =>
    cases hm : scanMantissa isHexDigit (s.drop 2) with
    | none =>
        have hnone := (scanMantissa_eq_none_iff (by decide)).mp hm
        rw [scanHex_eq_none hnone] at h
        exact hdecimal h (fun _ => hnone)
    | some parts =>
        obtain ⟨w, f, r⟩ := parts
        have htext := mantissaText_of_scan hm
        rw [scanHex_of_text htext (exponentText_scan 'p' r)] at h
        obtain rfl := Option.some.inj h
        exact .hexadecimal hpre htext (exponentText_scan 'p' r)
  next hpre => exact hdecimal h (fun hpre' => absurd hpre' hpre)

/-- **The scanner takes exactly the numbers texts begin with.** -/
theorem scanMagnitude_eq_some_iff {s : Str} {x : Double} :
    scanMagnitude s = some x ↔ MagnitudeText s x :=
  ⟨magnitudeText_of_scan, MagnitudeText.scan⟩

/-! ## §4. The conversion. -/

/-- A double under a sign. -/
def Double.signed (σ : Sign) (x : Double) : Double := if σ = .minus then x.neg else x

theorem FloatText.split {text : Str} {σ : Sign} {x : Double} (h : FloatText text σ x) :
    ∃ body, Sign.split (text.dropWhile isSpace) = (σ, body) ∧ MagnitudeText body x := by
  obtain ⟨hblank, hbody⟩ := h
  obtain ⟨c, t, rfl, hspace, hplus, hminus⟩ := hbody.head
  refine ⟨c :: t, ?_, hbody⟩
  rw [List.dropWhile_append_of_pos hblank]
  cases σ with
  | none =>
      show Sign.split ((c :: t).dropWhile isSpace) = _
      rw [List.dropWhile_cons, hspace]
      exact Sign.split_of_ne hplus hminus
  | plus => rfl
  | minus => rfl

theorem floatText_of_split {text body : Str} {σ : Sign} {x : Double}
    (h : Sign.split (text.dropWhile isSpace) = (σ, body)) (hbody : MagnitudeText body x) :
    FloatText text σ x := by
  have hsplit := Sign.split_sound (text.dropWhile isSpace)
  rw [h] at hsplit
  have htext : FloatText (text.takeWhile isSpace ++ (σ.text ++ body)) σ x :=
    .intro (fun _ hc => List.mem_takeWhile_imp hc) hbody
  rwa [← hsplit, List.takeWhile_append_dropWhile] at htext

/-- **`std::stod` converts exactly the texts that begin with a number in the
range of a `double`**, to the double nearest to it. -/
theorem stod_eq_ok_iff {text : Str} {y : Double} :
    stod text = .ok y ↔ ∃ σ x, FloatText text σ x ∧ x.isOutOfRange = false
      ∧ y = (x.rounded FloatFormat.binary64.round).signed σ := by
  unfold stod stodBy
  cases hsplit : Sign.split (text.dropWhile isSpace) with
  | mk σ body =>
      simp only
      constructor
      · intro h
        split at h
        · cases h
        next x hscan =>
          split at h
          · cases h
          next hrange =>
            refine ⟨σ, x, floatText_of_split hsplit (scanMagnitude_eq_some_iff.mp hscan),
              Bool.eq_false_iff.mpr hrange, ?_⟩
            exact (Except.ok.inj h).symm
      · rintro ⟨σ', x, htext, hrange, rfl⟩
        obtain ⟨body', hsplit', hbody⟩ := htext.split
        obtain ⟨rfl, rfl⟩ : σ = σ' ∧ body = body' := by
          rw [hsplit] at hsplit'
          exact Prod.mk.inj hsplit'
        rw [scanMagnitude_eq_some_iff.mpr hbody]
        simp only [hrange]
        rfl

/-- The text begins with a number in the range of a `double`. -/
def BeginsNumber (text : Str) : Prop := ∃ σ x, FloatText text σ x ∧ x.isOutOfRange = false

theorem exists_stod_ok_iff {text : Str} : (∃ y, stod text = .ok y) ↔ BeginsNumber text := by
  simp only [stod_eq_ok_iff]
  constructor
  · rintro ⟨y, σ, x, htext, hrange, -⟩
    exact ⟨σ, x, htext, hrange⟩
  · rintro ⟨σ, x, htext, hrange⟩
    exact ⟨_, σ, x, htext, hrange, rfl⟩

end FinCore.Cxx

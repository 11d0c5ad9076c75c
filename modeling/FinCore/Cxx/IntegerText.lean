/-
  FinCore.Cxx.IntegerText
  ───────────────────────
  Integer numerals and the texts they lead.

  `std::stoll` and `std::stoull` read the numeral at the start of a text, past
  white space.  Here the start of a text is a predicate, `Leads`; a text has at
  most one such numeral (`Leads.unique`), and `stoll_ok_iff` and `stoull_ok_iff`
  say what is returned for it.
-/
import FinCore.Cxx.ReadBack

namespace FinCore.Cxx

/-- An optional sign and digits. -/
structure IntegerNumeral where
  sign : Sign
  digits : Str
  isDigits : IsDigits digits
  ne_nil : digits ≠ []

namespace IntegerNumeral

def text (n : IntegerNumeral) : Str := n.sign.text ++ n.digits

/-- The value without the sign. -/
def magnitude (n : IntegerNumeral) : ℕ := digitsValue n.digits

def value (n : IntegerNumeral) : ℤ := n.sign.apply (n.magnitude : ℤ)

/-- `s` is white space, the numeral, and something that no digit starts. -/
def Leads (n : IntegerNumeral) (s : Str) : Prop :=
  ∃ blank rest : Str, (∀ c ∈ blank, isSpace c = true)
    ∧ rest.head?.all (!Char.isDigit ·) = true ∧ s = blank ++ (n.text ++ rest)

theorem leads_text (n : IntegerNumeral) : n.Leads n.text :=
  ⟨[], [], List.forall_mem_nil _, rfl, (List.append_nil _).symm⟩

/-! ## §1. The scan of a text a numeral leads. -/

theorem scanInteger_append (n : IntegerNumeral) {blank rest : Str}
    (hblank : ∀ c ∈ blank, isSpace c = true) (hrest : rest.head?.all (!Char.isDigit ·) = true) :
    scanInteger (blank ++ (n.text ++ rest))
      = ⟨n.sign, n.digits, blank.length + n.text.length⟩ := by
  obtain ⟨c, w, hw⟩ := List.exists_cons_of_ne_nil n.ne_nil
  have hdigits := n.isDigits
  rw [hw] at hdigits
  have hc : c.isDigit = true := (isDigits_cons.mp hdigits).1
  have hcons : n.text ++ rest = n.sign.text ++ c :: (w ++ rest) := by
    rw [text, hw, List.append_assoc, List.cons_append]
  obtain ⟨hdrop, htake⟩ := span_isSpace n.sign (w ++ rest) hc
  have hspan := (DecimalLiteral.span_digits n.isDigits hrest).1
  rw [hw, List.cons_append] at hspan
  unfold scanInteger
  rw [List.dropWhile_append_of_pos hblank, List.takeWhile_append_of_pos hblank, hcons, hdrop,
    htake, Sign.split_text_digit n.sign hc]
  simp only [hspan, List.append_nil]
  rw [text, hw, List.length_append, Nat.add_assoc]

theorem Leads.scan {n : IntegerNumeral} {s : Str} (h : n.Leads s) :
    (scanInteger s).sign = n.sign ∧ (scanInteger s).digits = n.digits := by
  obtain ⟨blank, rest, hblank, hrest, rfl⟩ := h
  rw [n.scanInteger_append hblank hrest]
  exact ⟨rfl, rfl⟩

theorem Leads.digits_ne_nil {n : IntegerNumeral} {s : Str} (h : n.Leads s) :
    (scanInteger s).digits ≠ [] := by
  rw [h.scan.2]
  exact n.ne_nil

theorem Leads.scan_value {n : IntegerNumeral} {s : Str} (h : n.Leads s) :
    (scanInteger s).value = n.value := by
  rw [IntegerScan.value, h.scan.1, h.scan.2]
  rfl

/-- At most one numeral leads a text. -/
theorem Leads.unique {n m : IntegerNumeral} {s : Str} (hn : n.Leads s) (hm : m.Leads s) :
    n = m := by
  obtain ⟨hsign, hdigits⟩ := hn.scan
  obtain ⟨hsign', hdigits'⟩ := hm.scan
  have h1 : n.sign = m.sign := hsign.symm.trans hsign'
  have h2 : n.digits = m.digits := hdigits.symm.trans hdigits'
  cases n
  cases m
  cases h1
  cases h2
  rfl

theorem takeWhile_isDigits (s : Str) : IsDigits (s.takeWhile Char.isDigit) :=
  fun _ hc => List.mem_takeWhile_imp hc

/-- A scan that finds digits finds the numeral that leads the text, and stops
where it ends. -/
theorem exists_leads {s : Str} (h : (scanInteger s).digits ≠ []) :
    ∃ n : IntegerNumeral, n.Leads s ∧ n.sign = (scanInteger s).sign
      ∧ n.digits = (scanInteger s).digits := by
  let body := s.dropWhile isSpace
  let n : IntegerNumeral :=
    ⟨(Sign.split body).1, (Sign.split body).2.takeWhile Char.isDigit, takeWhile_isDigits _, h⟩
  refine ⟨n, ⟨s.takeWhile isSpace, (Sign.split body).2.dropWhile Char.isDigit,
    fun _ hc => List.mem_takeWhile_imp hc, head_dropWhile _ _, ?_⟩, rfl, rfl⟩
  have hbody : body = n.text ++ (Sign.split body).2.dropWhile Char.isDigit := by
    show body = ((Sign.split body).1.text ++ _) ++ _
    rw [List.append_assoc, List.takeWhile_append_dropWhile]
    exact Sign.split_sound body
  rw [← hbody]
  exact List.takeWhile_append_dropWhile.symm

theorem digits_eq_nil_iff {s : Str} :
    (scanInteger s).digits = [] ↔ ∀ n : IntegerNumeral, ¬ n.Leads s := by
  constructor
  · intro h n hn
    exact hn.digits_ne_nil h
  · intro h
    by_contra hne
    obtain ⟨n, hn, -⟩ := exists_leads hne
    exact h n hn

/-! ## §2. What the conversions return. -/

/-- `std::stoll` returns the integer the text starts with. -/
theorem Leads.stoll {n : IntegerNumeral} {s : Str} (h : n.Leads s) :
    stoll s = if -2 ^ 63 ≤ n.value ∧ n.value < 2 ^ 63 then .ok (Int64.ofInt n.value)
      else .error .range := by
  unfold Cxx.stoll
  simp only [h.scan_value]
  rw [if_neg h.digits_ne_nil]

theorem stoll_of_not_leads {s : Str} (h : ∀ n : IntegerNumeral, ¬ n.Leads s) :
    Cxx.stoll s = .error .noConversion := by
  unfold Cxx.stoll
  exact if_pos (digits_eq_nil_iff.mpr h)

/-- `std::stoull` bounds the magnitude alone. -/
theorem Leads.stoull {n : IntegerNumeral} {s : Str} (h : n.Leads s) :
    stoull s = if n.magnitude < 2 ^ 64 then
        .ok (n.sign.apply (UInt64.ofNat n.magnitude), (scanInteger s).consumed)
      else .error .range := by
  unfold Cxx.stoull
  simp only
  rw [if_neg h.digits_ne_nil, h.scan.1, h.scan.2]
  rfl

theorem stoull_of_not_leads {s : Str} (h : ∀ n : IntegerNumeral, ¬ n.Leads s) :
    Cxx.stoull s = .error .noConversion := by
  unfold Cxx.stoull
  exact if_pos (digits_eq_nil_iff.mpr h)

/-- A numeral that leads a text without white space is the whole of it exactly
when the scan consumes the whole. -/
theorem Leads.consumed_eq_iff {n : IntegerNumeral} {s : Str} (h : n.Leads s)
    (hs : ∀ c ∈ s, isSpace c = false) : (scanInteger s).consumed = s.length ↔ s = n.text := by
  obtain ⟨blank, rest, hblank, hrest, rfl⟩ := h
  -- a text without spaces begins with the numeral
  have hnil : blank = [] := by
    cases blank with
    | nil => rfl
    | cons c blank =>
        have hspace := hblank c List.mem_cons_self
        have hnone := hs c (List.mem_append_left _ List.mem_cons_self)
        rw [hspace] at hnone
        cases hnone
  subst hnil
  rw [n.scanInteger_append hblank hrest]
  simp only [List.nil_append, List.length_nil, Nat.zero_add, List.length_append]
  constructor
  · intro hlen
    have hrest' : rest = [] := List.length_eq_zero_iff.mp (by omega)
    rw [hrest', List.append_nil]
  · intro heq
    have hlen := congrArg List.length heq
    rw [List.length_append] at hlen
    exact hlen.symm

end IntegerNumeral

end FinCore.Cxx

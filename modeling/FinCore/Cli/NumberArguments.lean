/-
  FinCore.Cli.NumberArguments
  ───────────────────────────
  `parse_number`: which tokens are numbers in range.

  The token goes to `std::stoull`, which negates modulo `2 ^ 64` behind a minus
  sign, and only the result is compared with the bounds.  So a token is taken
  for a number it does not denote exactly when it is negative and wraps into the
  bounds.
-/
import FinCore.Cli.FinCoreCli
import FinCore.Cxx.IntegerText

namespace FinCore.Cli

open FinCore.Cxx

/-- An optional plus sign and digits that denote `n`. -/
def Denotes (text : Str) (n : ℕ) : Prop :=
  ∃ numeral : IntegerNumeral, numeral.sign ≠ .minus ∧ text = numeral.text ∧ numeral.magnitude = n

/-- The numbers in the bounds are returned, and every other token is refused
with `std::invalid_argument`. -/
def ReadsExactly (text name : Str) (minimum maximum : ℕ) : Prop :=
  (∀ n, Denotes text n → minimum ≤ n → n ≤ maximum →
      FinCoreCli.parseNumber text name minimum maximum = .ok n)
    ∧ ((∀ n, Denotes text n → minimum ≤ n → ¬ n ≤ maximum) →
        ∃ message, FinCoreCli.parseNumber text name minimum maximum
          = .error (.invalidArgument message))

/-- A minus sign and digits below `2 ^ 64` whose negation modulo `2 ^ 64` lies in
the bounds. -/
def WrapsInto (text : Str) (minimum maximum : ℕ) : Prop :=
  ∃ numeral : IntegerNumeral, numeral.sign = .minus ∧ text = numeral.text
    ∧ numeral.magnitude < 2 ^ 64 ∧ minimum ≤ (2 ^ 64 - numeral.magnitude) % 2 ^ 64
    ∧ (2 ^ 64 - numeral.magnitude) % 2 ^ 64 ≤ maximum

namespace NumberArguments

variable {text : Str} {name : Str} {minimum maximum : ℕ}

/-! ## §1. The two answers. -/

/-- Every failure is a `std::invalid_argument`. -/
theorem parseNumber_error {e : Exn}
    (h : FinCoreCli.parseNumber text name minimum maximum = .error e) :
    ∃ message, e = .invalidArgument message := by
  unfold FinCoreCli.parseNumber at h
  split at h
  · cases h
    exact ⟨_, rfl⟩
  · split at h
    · cases h
      exact ⟨_, rfl⟩
    · cases h

/-- What `std::stoull` returned decides. -/
theorem parseNumber_ok_iff {n : ℕ} :
    FinCoreCli.parseNumber text name minimum maximum = .ok n
      ↔ ∃ value : UInt64, stoull text = .ok (value, text.length) ∧ value.toNat = n
          ∧ minimum ≤ n ∧ n ≤ maximum := by
  unfold FinCoreCli.parseNumber
  constructor
  · intro h
    split at h
    · cases h
    next value consumed hstoull =>
      split at h
      · cases h
      next hin =>
        have hvalue : value.toNat = n := by injection h
        subst hvalue
        -- the three checks of the range branch, one by one
        have hconsumed : consumed = text.length := by
          by_contra hne
          exact hin (Or.inl hne)
        have hlow : minimum ≤ value.toNat := by
          by_contra hlt
          exact hin (Or.inr (Or.inl (by omega)))
        have hhigh : value.toNat ≤ maximum := by
          by_contra hlt
          exact hin (Or.inr (Or.inr (by omega)))
        exact ⟨value, by rw [← hconsumed]; exact hstoull, rfl, hlow, hhigh⟩
  · rintro ⟨value, hstoull, rfl, hlow, hhigh⟩
    rw [hstoull]
    dsimp only
    rw [if_neg]
    rintro (hne | hlt | hlt)
    · exact hne rfl
    · omega
    · omega

/-! ## §2. The number of a token. -/

/-- The number `std::stoull` makes of a numeral. -/
def wrapped (numeral : IntegerNumeral) : ℕ :=
  if numeral.sign = .minus then (2 ^ 64 - numeral.magnitude) % 2 ^ 64 else numeral.magnitude

theorem apply_toNat (numeral : IntegerNumeral) (h : numeral.magnitude < 2 ^ 64) :
    (numeral.sign.apply (UInt64.ofNat numeral.magnitude)).toNat = wrapped numeral := by
  have hof : (UInt64.ofNat numeral.magnitude).toNat = numeral.magnitude :=
    UInt64.toNat_ofNat_of_lt' h
  unfold wrapped Sign.apply
  split
  next hsign =>
    rw [if_pos hsign, UInt64.toNat_neg, hof]
    rfl
  next hsign => rw [if_neg hsign, hof]

/-- **A token is a number exactly when it is one numeral, from its first to its
last character, and the numeral wraps into the bounds.** -/
theorem parseNumber_reads (hspace : ∀ c ∈ text, isSpace c = false) {n : ℕ} :
    FinCoreCli.parseNumber text name minimum maximum = .ok n
      ↔ ∃ numeral : IntegerNumeral, text = numeral.text ∧ numeral.magnitude < 2 ^ 64
          ∧ wrapped numeral = n ∧ minimum ≤ n ∧ n ≤ maximum := by
  rw [parseNumber_ok_iff]
  constructor
  · rintro ⟨value, hstoull, hvalue, hlow, hhigh⟩
    have hlead : ∃ numeral : IntegerNumeral, numeral.Leads text := by
      by_contra hnone
      rw [IntegerNumeral.stoull_of_not_leads (fun m hm => hnone ⟨m, hm⟩)] at hstoull
      cases hstoull
    obtain ⟨numeral, hnumeral⟩ := hlead
    rw [hnumeral.stoull] at hstoull
    split at hstoull
    next hlt =>
      have hpair := Except.ok.inj hstoull
      -- no space in front, so consuming everything means being the numeral
      have hconsumed : (scanInteger text).consumed = text.length := congrArg Prod.snd hpair
      have hfirst : numeral.sign.apply (UInt64.ofNat numeral.magnitude) = value :=
        congrArg Prod.fst hpair
      refine ⟨numeral, (hnumeral.consumed_eq_iff hspace).mp hconsumed, hlt, ?_, hlow, hhigh⟩
      rw [← apply_toNat numeral hlt, hfirst, hvalue]
    next => cases hstoull
  · rintro ⟨numeral, htext, hlt, hvalue, hlow, hhigh⟩
    have hnumeral : numeral.Leads text := by
      rw [htext]
      exact numeral.leads_text
    refine ⟨_, ?_, (apply_toNat numeral hlt).trans hvalue, hlow, hhigh⟩
    rw [hnumeral.stoull, if_pos hlt, (hnumeral.consumed_eq_iff hspace).mpr htext]

/-! ## §3. Which tokens are read as they stand. -/

theorem wrapped_of_denotes {n : ℕ} {numeral : IntegerNumeral} (h : Denotes text n)
    (htext : text = numeral.text) :
    numeral.sign ≠ .minus ∧ numeral.magnitude = n ∧ wrapped numeral = n := by
  obtain ⟨m, hsign, hm, hvalue⟩ := h
  have hlead : m.Leads text := by
    rw [hm]
    exact m.leads_text
  have hlead' : numeral.Leads text := by
    rw [htext]
    exact numeral.leads_text
  obtain rfl := hlead.unique hlead'
  refine ⟨hsign, hvalue, ?_⟩
  rw [wrapped, if_neg hsign, hvalue]

/-- The numbers in the bounds are read. -/
theorem parseNumber_denotes (hspace : ∀ c ∈ text, isSpace c = false) (hmax : maximum < 2 ^ 63)
    {n : ℕ} (h : Denotes text n) (hlow : minimum ≤ n) (hhigh : n ≤ maximum) :
    FinCoreCli.parseNumber text name minimum maximum = .ok n := by
  rw [parseNumber_reads hspace]
  obtain ⟨numeral, hsign, htext, hvalue⟩ := id h
  exact ⟨numeral, htext, by omega, (wrapped_of_denotes h htext).2.2, hlow, hhigh⟩

end NumberArguments

open NumberArguments in
/-- **`parse_number` accepts exactly the integers in range, save for the negative
ones that wrap into it.** -/
theorem parseNumber_readsExactly_iff (text name : Str) (minimum maximum : ℕ)
    (hspace : ∀ c ∈ text, isSpace c = false) (hmax : maximum < 2 ^ 63) :
    ReadsExactly text name minimum maximum ↔ ¬ WrapsInto text minimum maximum := by
  constructor
  · rintro ⟨-, hrefused⟩ ⟨numeral, hsign, htext, hlt, hlow, hhigh⟩
    have hnone : ∀ n, Denotes text n → minimum ≤ n → ¬ n ≤ maximum := by
      intro n hn
      exact absurd hsign (wrapped_of_denotes hn htext).1
    obtain ⟨message, herror⟩ := hrefused hnone
    have hwrapped : wrapped numeral = (2 ^ 64 - numeral.magnitude) % 2 ^ 64 := if_pos hsign
    have hok : FinCoreCli.parseNumber text name minimum maximum = .ok (wrapped numeral) := by
      rw [parseNumber_reads hspace]
      exact ⟨numeral, htext, hlt, rfl, by omega, by omega⟩
    rw [herror] at hok
    cases hok
  · intro hwraps
    refine ⟨fun n hn hlow hhigh => parseNumber_denotes hspace hmax hn hlow hhigh, ?_⟩
    intro hnone
    cases hparse : FinCoreCli.parseNumber text name minimum maximum with
    | error e =>
        obtain ⟨message, rfl⟩ := parseNumber_error hparse
        exact ⟨message, rfl⟩
    | ok n =>
        obtain ⟨numeral, htext, hlt, hvalue, hlow, hhigh⟩ := (parseNumber_reads hspace).mp hparse
        exfalso
        by_cases hsign : numeral.sign = .minus
        · have hwrapped : wrapped numeral = (2 ^ 64 - numeral.magnitude) % 2 ^ 64 := if_pos hsign
          exact hwraps ⟨numeral, hsign, htext, hlt, by omega, by omega⟩
        · have hwrapped : wrapped numeral = numeral.magnitude := if_neg hsign
          exact hnone n ⟨numeral, hsign, htext, by omega⟩ hlow hhigh

theorem twenty_readsExactly :
    ReadsExactly "20".toList "COUNT".toList 1 100000 ↔ ¬ WrapsInto "20".toList 1 100000 := by
  have hdigits : IsDigits "20".toList := by decide
  exact parseNumber_readsExactly_iff "20".toList "COUNT".toList 1 100000
    (fun c hc => isSpace_of_isDigit (hdigits c hc)) (by omega)

/-- `1 - 2 ^ 64` is a count of one. -/
theorem wrappedCount_accepted :
    FinCoreCli.parseNumber "-18446744073709551615".toList "COUNT".toList 1 100000 = .ok 1
    ∧ ¬ ReadsExactly "-18446744073709551615".toList "COUNT".toList 1 100000 := by
  have hok : FinCoreCli.parseNumber "-18446744073709551615".toList "COUNT".toList 1 100000
      = .ok 1 := by decide +kernel
  refine ⟨hok, ?_⟩
  rintro ⟨-, hrefused⟩
  have hnone : ∀ n, Denotes "-18446744073709551615".toList n → 1 ≤ n → ¬ n ≤ 100000 := by
    rintro n ⟨numeral, hsign, htext, -⟩
    have hscan := numeral.leads_text.scan.1
    rw [← htext] at hscan
    have hminus : (scanInteger "-18446744073709551615".toList).sign = .minus := by decide +kernel
    exact absurd (hscan.symm.trans hminus) hsign
  obtain ⟨message, herror⟩ := hrefused hnone
  rw [hok] at herror
  cases herror

end FinCore.Cli

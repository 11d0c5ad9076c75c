/-
  FinCore.Api.VolumeField
  ───────────────────────
  The `"06. volume"` member of a response.

  `parse_quote` hands the member's text to `std::stoll` and casts what it
  returns to the unsigned `Volume`.  An integer at the start of the text is
  therefore taken whatever follows it, and a negative one wraps round.
-/
import FinCore.Api.Response
import FinCore.Cxx.IntegerText

namespace FinCore.Api

open FinCore.Cxx

/-- The search of the volume. -/
def volumeKey : Str := "\"06. volume\": \"".toList

/-- The member's whole text is the numeral of `v`, and `v` is an `int64`. -/
def StandsFor (member : Option Str) (v : ℕ) : Prop :=
  v < 2 ^ 63 ∧ ∃ n : IntegerNumeral, member = some n.text ∧ n.value = v

/-- A sanitised volume: what the member stands for, and zero if it stands for
nothing. -/
def Sanitised (member : Option Str) (volume : Volume) : Prop :=
  (∀ v, StandsFor member v → volume.toNat = v)
    ∧ ((∀ v, ¬ StandsFor member v) → volume = 0)

/-- A text that starts with a nonzero `int64` is that numeral and nothing else,
and the number is positive. -/
def PlainVolume (text : Str) : Prop :=
  ∀ n : IntegerNumeral, n.Leads text → n.value ≠ 0 → -2 ^ 63 ≤ n.value → n.value < 2 ^ 63 →
    text = n.text ∧ 0 < n.value

/-! ## §1. One text. -/

theorem StandsFor.leads {text : Str} {v : ℕ} (h : StandsFor (some text) v) :
    ∃ n : IntegerNumeral, n.Leads text ∧ text = n.text ∧ n.value = v ∧ v < 2 ^ 63 := by
  obtain ⟨hv, n, htext, hvalue⟩ := h
  cases htext
  exact ⟨n, n.leads_text, rfl, hvalue, hv⟩

theorem parseVolume_of_error {text : Str} {e : ConvertError} (h : stoll text = .error e) :
    parseVolume text = 0 := by
  unfold parseVolume
  rw [h]

theorem parseVolume_of_leads {text : Str} {n : IntegerNumeral} (h : n.Leads text)
    (hlow : -2 ^ 63 ≤ n.value) (hhigh : n.value < 2 ^ 63) :
    parseVolume text = (Int64.ofInt n.value).toUInt64 := by
  unfold parseVolume
  rw [h.stoll, if_pos ⟨hlow, hhigh⟩]

/-- An `int64` cast to an unsigned 64-bit integer. -/
theorem toUInt64_toNat (z : ℤ) : ((Int64.ofInt z).toUInt64.toNat : ℤ) = z % 2 ^ 64 := by
  show ((BitVec.ofInt 64 z).toNat : ℤ) = z % 2 ^ 64
  rw [BitVec.toNat_ofInt]
  omega

/-- Without a numeral in range there is nothing to stand for, and the volume is
zero. -/
theorem sanitised_of_error {text : Str} {e : ConvertError} (h : stoll text = .error e) :
    Sanitised (some text) (parseVolume text) := by
  refine ⟨fun v hv => ?_, fun _ => parseVolume_of_error h⟩
  obtain ⟨n, hn, -, hvalue, hlt⟩ := hv.leads
  rw [hn.stoll, if_pos ⟨by omega, by omega⟩] at h
  cases h

theorem sanitised_iff_of_leads {text : Str} {n : IntegerNumeral} (hn : n.Leads text)
    (hlow : -2 ^ 63 ≤ n.value) (hhigh : n.value < 2 ^ 63) :
    Sanitised (some text) (parseVolume text)
      ↔ (n.value ≠ 0 → text = n.text ∧ 0 < n.value) := by
  have hvolume : ((parseVolume text).toNat : ℤ) = n.value % 2 ^ 64 := by
    rw [parseVolume_of_leads hn hlow hhigh, toUInt64_toNat]
  constructor
  · rintro ⟨-, hzero⟩ hne
    by_contra hplain
    -- then the text stands for nothing, yet the cast of a nonzero integer is not zero
    have hnone : ∀ v, ¬ StandsFor (some text) v := by
      intro v hv
      obtain ⟨m, hm, htext, hvalue, -⟩ := hv.leads
      obtain rfl := hn.unique hm
      exact hplain ⟨htext, by omega⟩
    have h0 : ((0 : Volume).toNat : ℤ) = 0 := rfl
    rw [hzero hnone, h0] at hvolume
    omega
  · intro hplain
    constructor
    · intro v hv
      obtain ⟨m, hm, -, hvalue, -⟩ := hv.leads
      obtain rfl := hn.unique hm
      omega
    · intro hnone
      by_cases hne : n.value = 0
      · have hnat : (parseVolume text).toNat = 0 := by omega
        exact UInt64.toNat_inj.mp hnat
      · obtain ⟨htext, hpos⟩ := hplain hne
        refine absurd ?_ (hnone n.value.toNat)
        exact ⟨by omega, n, congrArg some htext, by omega⟩

/-- **One text is sanitised exactly when it is plain.** -/
theorem sanitised_iff (text : Str) :
    Sanitised (some text) (parseVolume text) ↔ PlainVolume text := by
  by_cases hlead : ∃ n : IntegerNumeral, n.Leads text
  · obtain ⟨n, hn⟩ := hlead
    have honly : PlainVolume text
        ↔ (n.value ≠ 0 → -2 ^ 63 ≤ n.value → n.value < 2 ^ 63 →
            text = n.text ∧ 0 < n.value) := by
      constructor
      · intro h
        exact h n hn
      · intro h m hm
        obtain rfl := hn.unique hm
        exact h
    rw [honly]
    by_cases hrange : -2 ^ 63 ≤ n.value ∧ n.value < 2 ^ 63
    · rw [sanitised_iff_of_leads hn hrange.1 hrange.2]
      exact ⟨fun h hne _ _ => h hne, fun h hne => h hne hrange.1 hrange.2⟩
    · have herror : stoll text = .error .range := by rw [hn.stoll, if_neg hrange]
      refine iff_of_true (sanitised_of_error herror) ?_
      intro _ hlow hhigh
      exact absurd ⟨hlow, hhigh⟩ hrange
  · have hnone : ∀ n : IntegerNumeral, ¬ n.Leads text := fun n hn => hlead ⟨n, hn⟩
    refine iff_of_true (sanitised_of_error (IntegerNumeral.stoll_of_not_leads hnone)) ?_
    intro n hn
    exact absurd hn (hnone n)

/-! ## §2. The quote. -/

/-- **The volume of a quote is sanitised exactly when its text, if there is one,
is plain.** -/
theorem parseQuote_sanitised_iff {mktime : ℤ → Int64} {json : Str} {symbol : Symbol} {q : Quote}
    (h : parseQuote mktime json symbol = some q) :
    Sanitised (extractString json volumeKey) q.volume
      ↔ ∀ text, extractString json volumeKey = some text → PlainVolume text := by
  have hvolume : q.volume = ((extractString json volumeKey).map parseVolume).getD 0 :=
    (parseQuote_fields h).2.2.2.2.2.1
  rw [hvolume]
  cases extractString json volumeKey with
  | none =>
      refine iff_of_true ⟨?_, fun _ => rfl⟩ ?_
      · rintro v ⟨-, n, hmember, -⟩
        cases hmember
      · intro text htext
        cases htext
  | some text =>
      show Sanitised (some text) (parseVolume text) ↔ _
      rw [sanitised_iff]
      constructor
      · intro hplain t ht
        cases ht
        exact hplain
      · intro hall
        exact hall text rfl

/-- The sample object with another volume. -/
def volumeMembers (volume : Str) (h : Plain volume) : List Member :=
  (pricedMembers samplePrice).map fun m =>
    if m.name = volumeName then { m with value := volume, value_plain := h } else m

def volumeJson (volume : Str) (h : Plain volume) : Str := compactText (volumeMembers volume h)

def sampleVolumeJson : Str := volumeJson "2500000".toList (by decide)

theorem sampleVolume_sanitised :
    ∃ q, parseQuote (fun _ => 0) sampleVolumeJson "IBM".toList = some q
      ∧ (Sanitised (extractString sampleVolumeJson volumeKey) q.volume
        ↔ ∀ text, extractString sampleVolumeJson volumeKey = some text → PlainVolume text) := by
  have hprices : ∀ key ∈ priceKeys, extractDouble sampleVolumeJson key ≠ none := by decide +kernel
  obtain ⟨q, hq⟩ := parseQuote_exists hprices
  exact ⟨q, hq, parseQuote_sanitised_iff hq⟩

/-- The response whose volume is minus five. -/
def negativeVolumeJson : Str := volumeJson "-5".toList (by decide)

/-- Minus five becomes a volume of `2 ^ 64 - 5`. -/
theorem negativeVolume_accepted :
    extractString negativeVolumeJson volumeKey = some "-5".toList
    ∧ ∃ q, parseQuote (fun _ => 0) negativeVolumeJson "IBM".toList = some q
        ∧ q.volume = 18446744073709551611
        ∧ ¬ Sanitised (extractString negativeVolumeJson volumeKey) q.volume := by
  have htext : extractString negativeVolumeJson volumeKey = some "-5".toList := by decide +kernel
  refine ⟨htext, ?_⟩
  have hvolume : (parseQuote (fun _ => 0) negativeVolumeJson "IBM".toList).map Quote.volume
      = some 18446744073709551611 := by decide +kernel
  obtain ⟨q, hq, hq'⟩ := Option.map_eq_some_iff.mp hvolume
  refine ⟨q, hq, hq', ?_⟩
  rintro ⟨-, hzero⟩
  rw [htext, hq'] at hzero
  refine absurd (hzero ?_) (by decide)
  intro v hv
  obtain ⟨n, hn, -, hvalue, -⟩ := hv.leads
  have hminus : IntegerNumeral.Leads ⟨.minus, ['5'], by decide, by decide⟩ "-5".toList :=
    IntegerNumeral.leads_text ⟨.minus, ['5'], by decide, by decide⟩
  -- `-5` is the one numeral the text begins with
  obtain rfl := hn.unique hminus
  have hfive : IntegerNumeral.value ⟨.minus, ['5'], by decide, by decide⟩ = -5 := rfl
  omega

end FinCore.Api

/-
  FinCore.Cli.Persistable
  ───────────────────────
  Which quotes, and which books made from quotes, pass the conversion to domain
  records and their validation.

  A conversion rounds to eight fractional digits and fails outside the range of
  a decimal (`decimalFrom_iff`).  `Quote::is_valid` leaves the sign of the low,
  a low above a missing high, the volume and the percent change unchecked; a
  book made from a quote has no best bid when the volume is below ten or the
  price is not above one tick.
-/
import FinCore.Cli.DurableWrites
import FinCore.Cli.RebuiltBook
import FinCore.Core.BookAggregates
import FinCore.Cxx.Rounding
import FinCore.Domain.DecimalCodec
import FinCore.Domain.Validation

namespace FinCore.Cli

open FinCore.Cxx FinCore.Domain
open FinCore.Cxx.Double (scaledRound fixedLiteral)

/-! ## §1. Conversion to decimals. -/

/-- **A double converts to the decimal of its rounded multiple.** -/
theorem decimalFrom_iff {value : Double} {d : Decimal} :
    decimalFrom value = .ok d ↔ ∃ q, value = .finite q ∧ d.raw.toInt = scaledRound 8 q := by
  have hlen : ∀ q, (fixedLiteral 8 q).fraction.length = 8 :=
    Double.fixedLiteral_fraction_length (by decide)
  have hvalue : ∀ q, (fixedLiteral 8 q).value * 10 ^ 8 = scaledRound 8 q :=
    Double.fixedLiteral_value (by decide)
  have hfinite : ∀ q, decimalFrom (.finite q) = Decimal.fromString (fixedLiteral 8 q).text := by
    intro q
    rw [← Double.formatFixed_eq_text (by decide)]
    rfl
  constructor
  · intro h
    cases value with
    | finite q =>
        refine ⟨q, rfl, ?_⟩
        rw [hfinite, Decimal.fromString_text_iff (hlen q).le, hvalue] at h
        exact_mod_cast h
    | nan => cases h
    | negInf => cases h
    | posInf => cases h
  · rintro ⟨q, rfl, h⟩
    rw [hfinite, Decimal.fromString_text_iff (hlen q).le, hvalue]
    exact_mod_cast h

theorem decimalFrom_finite_iff {q : ℚ} {d : Decimal} :
    decimalFrom (.finite q) = .ok d ↔ d.raw.toInt = scaledRound 8 q := by
  rw [decimalFrom_iff]
  constructor
  · rintro ⟨_, hq, h⟩
    injection hq with hq
    rw [hq]
    exact h
  · exact fun h => ⟨q, rfl, h⟩

theorem decimalFromVolume_iff {value : Volume} {d : Decimal} :
    decimalFromVolume value = .ok d ↔ d.raw.toInt = value.toNat * 10 ^ 8 := by
  have hlen : (DecimalLiteral.ofNat value.toNat).fraction.length ≤ 8 := Nat.zero_le 8
  unfold decimalFromVolume
  rw [← DecimalLiteral.ofNat_text, Decimal.fromString_text_iff hlen, DecimalLiteral.ofNat_value]
  constructor
  · intro h
    exact_mod_cast h
  · intro h
    exact_mod_cast h

/-- The raw values are the words of 64 bits. -/
theorem exists_raw_iff {n : ℤ} :
    (∃ d : Decimal, d.raw.toInt = n) ↔ -2 ^ 63 ≤ n ∧ n ≤ 2 ^ 63 - 1 := by
  constructor
  · rintro ⟨d, rfl⟩
    have hlow : (-2 ^ 63 : ℤ) ≤ d.raw.toInt := d.raw.le_toInt
    have hhigh : d.raw.toInt < (2 ^ 63 : ℤ) := d.raw.toInt_lt
    omega
  · rintro ⟨hlow, hhigh⟩
    exact ⟨Decimal.fromRaw (Int64.ofInt n), Int64.toInt_ofInt_of_le hlow (by omega)⟩

/-- A rounded multiple is a raw value when the number lies between the two ties
at the ends of the range. -/
theorem exists_decimalFrom_iff {q : ℚ} :
    (∃ d, decimalFrom (.finite q) = .ok d)
      ↔ -2 ^ 63 - 1 / 2 ≤ q * 10 ^ 8 ∧ q * 10 ^ 8 < 2 ^ 63 - 1 / 2 := by
  have hlow := Double.le_roundHalfEven_iff (x := q * 10 ^ 8) (n := -2 ^ 63) (by decide)
  have hhigh := Double.le_roundHalfEven_iff (x := q * 10 ^ 8) (n := 2 ^ 63) (by decide)
  push_cast at hlow hhigh
  simp only [decimalFrom_finite_iff]
  rw [exists_raw_iff]
  unfold scaledRound
  constructor
  · rintro ⟨h₁, h₂⟩
    have hle := hlow.mp (by omega)
    have hlt := mt hhigh.mpr (by omega)
    constructor <;> linarith
  · rintro ⟨h₁, h₂⟩
    have hle := hlow.mpr (by linarith)
    have hlt := mt hhigh.mp (by linarith)
    constructor <;> omega

theorem exists_decimalFromVolume_iff {value : Volume} :
    (∃ d, decimalFromVolume value = .ok d) ↔ value.toNat ≤ 92233720368 := by
  simp only [decimalFromVolume_iff]
  rw [exists_raw_iff]
  constructor
  · rintro ⟨_, h⟩
    omega
  · intro h
    constructor <;> omega

/-! ## §2. Quotes. -/

/-- What a conversion must find in a quote for the domain to accept it, beyond
`Quote::is_valid` and finite prices in range. -/
structure PersistableQuote (low high : ℚ) (volume : Volume) (changePct : Double) : Prop where
  /-- A low below this rounds to a negative number. -/
  low_nonneg : -5 / 10 ^ 9 ≤ low
  /-- Without a high there must not be a low either. -/
  low_of_no_high : high = 0 → low ≤ 5 / 10 ^ 9
  volume_fits : volume.toNat ≤ 92233720368
  change_fits : ∃ c, changePct = .finite c ∧ -2 ^ 63 - 1 / 2 ≤ c * 10 ^ 8
    ∧ c * 10 ^ 8 < 2 ^ 63 - 1 / 2

theorem scaledRound_nonneg_iff {q : ℚ} : 0 ≤ scaledRound 8 q ↔ -5 / 10 ^ 9 ≤ q := by
  have h := Double.le_roundHalfEven_iff (x := q * 10 ^ 8) (n := 0) rfl
  push_cast at h
  unfold scaledRound
  rw [h]
  constructor <;> intro hq <;> linarith

theorem scaledRound_nonpos_iff {q : ℚ} : scaledRound 8 q ≤ 0 ↔ q ≤ 5 / 10 ^ 9 := by
  have h := Double.roundHalfEven_le_iff (x := q * 10 ^ 8) (n := 0) rfl
  push_cast at h
  unfold scaledRound
  rw [h]
  constructor <;> intro hq <;> linarith

/-- Prices of the supported magnitude have a decimal. -/
theorem decimalFrom_price {q : ℚ} (h : |q| < 9 * 10 ^ 10) :
    ∃ d, decimalFrom (.finite q) = .ok d := by
  rw [abs_lt] at h
  rw [exists_decimalFrom_iff]
  constructor <;> linarith [h.1, h.2]

theorem isValid_price {quote : FinCore.Quote} {p : ℚ} (h : quote.isValid = true)
    (hp : quote.price = .finite p) : 0 < p := by
  unfold FinCore.Quote.isValid at h
  simp only [Bool.and_eq_true, hp] at h
  exact of_decide_eq_true h.1.1.2

/-- The checks of `Quote::is_valid` on the three other prices. -/
theorem isValid_prices {quote : FinCore.Quote} {openPrice high low : ℚ}
    (h : quote.isValid = true) (hopen : quote.openPrice = .finite openPrice)
    (hhigh : quote.high = .finite high) (hlow : quote.low = .finite low) :
    0 ≤ openPrice ∧ (high = 0 ∨ low ≤ high) := by
  unfold FinCore.Quote.isValid at h
  simp only [Bool.and_eq_true, Bool.or_eq_true, hopen, hhigh, hlow] at h
  obtain ⟨⟨_, hrange⟩, hstart⟩ := h
  constructor
  · rcases hstart with h | h
    · have hzero : openPrice = 0 := by simpa [Double.eq] using h
      exact hzero.ge
    · exact (of_decide_eq_true h : 0 < openPrice).le
  · rcases hrange with h | h
    · exact Or.inl (by simpa [Double.eq] using h)
    · right
      simp only [Double.ge, Double.le, Double.lt, Bool.or_eq_true, decide_eq_true_eq,
        Double.finite.injEq] at h
      rcases h with h | h
      · exact h.le
      · exact h.le

/-- The fields of a quote that converts, in the order they are converted. -/
theorem domainQuote_ok {quote : FinCore.Quote} {timestamp : Timestamp}
    {price openPrice high low volume changePct : Decimal}
    (hprice : decimalFrom quote.price = .ok price)
    (hopen : decimalFrom quote.openPrice = .ok openPrice)
    (hhigh : decimalFrom quote.high = .ok high) (hlow : decimalFrom quote.low = .ok low)
    (hvolume : decimalFromVolume quote.volume = .ok volume)
    (hchange : decimalFrom quote.changePct = .ok changePct) :
    domainQuote quote timestamp
      = .ok { symbol := quote.symbol, source := quote.source, timestamp := timestamp
              price := price, openPrice := openPrice, high := high, low := low
              volume := volume, changePct := some changePct } := by
  unfold domainQuote
  rw [hprice, hopen, hhigh, hlow, hvolume, hchange]
  rfl

/-- A quote whose record is accepted. -/
theorem PersistableQuote.of_accepted {quote : FinCore.Quote} {timestamp : Timestamp}
    {high low : ℚ} {record : Domain.Quote} (hhigh : quote.high = .finite high)
    (hlow : quote.low = .finite low) (hrecord : domainQuote quote timestamp = .ok record)
    (haccepted : record.validate = .ok ()) :
    PersistableQuote low high quote.volume quote.changePct := by
  rw [Quote.validate_iff] at haccepted
  obtain ⟨_, _, _, _, _, hh, hl, hv, hc⟩ := domainQuote_fields hrecord
  rw [hhigh, decimalFrom_finite_iff] at hh
  rw [hlow, decimalFrom_finite_iff] at hl
  have hlownonneg := haccepted.low
  have hordered := haccepted.low_le_high
  -- the checks on the record are checks on the rounded values
  rw [hl] at hlownonneg hordered
  rw [hh] at hordered
  refine ⟨scaledRound_nonneg_iff.mp hlownonneg, ?_, exists_decimalFromVolume_iff.mp ⟨_, hv⟩, ?_⟩
  · -- a high of zero bounds the rounded low
    rintro rfl
    have hzero : scaledRound 8 0 ≤ 0 := scaledRound_nonpos_iff.mpr (by norm_num)
    exact scaledRound_nonpos_iff.mp (hordered.trans hzero)
  · rcases hchange : decimalFrom quote.changePct with e | d
    · rw [hchange] at hc
      cases hc
    · obtain ⟨c, hfinite, _⟩ := decimalFrom_iff.mp hchange
      rw [hfinite] at hchange
      exact ⟨c, hfinite, exists_decimalFrom_iff.mp ⟨d, hchange⟩⟩

/-- The rounded prices are in the order of the prices, also without a high. -/
theorem PersistableQuote.ordered {low high : ℚ} {volume : Volume} {changePct : Double}
    (h : PersistableQuote low high volume changePct) (hrange : high = 0 ∨ low ≤ high) :
    scaledRound 8 low ≤ scaledRound 8 high := by
  rcases hrange with rfl | hle
  · have hzero : 0 ≤ scaledRound 8 0 := scaledRound_nonneg_iff.mpr (by norm_num)
    exact (scaledRound_nonpos_iff.mpr (h.low_of_no_high rfl)).trans hzero
  · exact Double.scaledRound_mono 8 hle

/-- **When a valid quote can be persisted.** -/
theorem validQuote_persistable_iff {quote : FinCore.Quote} {timestamp : Timestamp}
    {price openPrice high low : ℚ} (hvalid : quote.isValid = true)
    (hidentified : validateSymbolAndSource quote.symbol quote.source = .ok ())
    (hprice : quote.price = .finite price) (hopen : quote.openPrice = .finite openPrice)
    (hhigh : quote.high = .finite high) (hlow : quote.low = .finite low)
    (hprice' : |price| < 9 * 10 ^ 10) (hopen' : |openPrice| < 9 * 10 ^ 10)
    (hhigh' : |high| < 9 * 10 ^ 10) (hlow' : |low| < 9 * 10 ^ 10) :
    (∃ record, domainQuote quote timestamp = .ok record ∧ record.validate = .ok ())
      ↔ PersistableQuote low high quote.volume quote.changePct := by
  have hpositive := isValid_price hvalid hprice
  obtain ⟨hstart, hrange⟩ := isValid_prices hvalid hopen hhigh hlow
  constructor
  · rintro ⟨record, hrecord, haccepted⟩
    exact PersistableQuote.of_accepted hhigh hlow hrecord haccepted
  · intro hfits
    obtain ⟨c, hchange, hbounds⟩ := hfits.change_fits
    -- every field has a decimal
    obtain ⟨p, hp⟩ := decimalFrom_price hprice'
    obtain ⟨o, ho⟩ := decimalFrom_price hopen'
    obtain ⟨h, hh⟩ := decimalFrom_price hhigh'
    obtain ⟨l, hl⟩ := decimalFrom_price hlow'
    obtain ⟨v, hv⟩ := exists_decimalFromVolume_iff.mpr hfits.volume_fits
    obtain ⟨d, hd⟩ := exists_decimalFrom_iff.mpr hbounds
    have hordered := hfits.ordered hrange
    have hnonneg := scaledRound_nonneg_iff.mpr hfits.low_nonneg
    refine ⟨_, domainQuote_ok (by rw [hprice, hp]) (by rw [hopen, ho]) (by rw [hhigh, hh])
      (by rw [hlow, hl]) hv (by rw [hchange, hd]), Quote.validate_iff.mpr ?_⟩
    rw [decimalFrom_finite_iff] at hp ho hh hl
    rw [decimalFromVolume_iff] at hv
    exact {
      identified := validateSymbolAndSource_iff.mp hidentified
      price := by
        show 0 ≤ p.raw.toInt
        rw [hp]
        exact scaledRound_nonneg_iff.mpr (by linarith)
      openPrice := by
        show 0 ≤ o.raw.toInt
        rw [ho]
        exact scaledRound_nonneg_iff.mpr (by linarith)
      high := by
        show 0 ≤ h.raw.toInt
        rw [hh]
        exact hnonneg.trans hordered
      low := by
        show 0 ≤ l.raw.toInt
        rw [hl]
        exact hnonneg
      low_le_high := by
        show l.raw.toInt ≤ h.raw.toInt
        rw [hl, hh]
        exact hordered
      volume := by
        show 0 ≤ v.raw.toInt
        rw [hv]
        positivity }

/-- A trading day in full. -/
def tradingDay : FinCore.Quote where
  symbol := "IBM".toList
  price := .finite 100
  openPrice := .finite 99
  high := .finite 101
  low := .finite 98
  volume := 1000
  changePct := .finite 1

theorem tradingDay_persistable :
    ∃ record, domainQuote tradingDay 0 = .ok record ∧ record.validate = .ok () :=
  (validQuote_persistable_iff (by decide +kernel) (by decide +kernel)
    rfl rfl rfl rfl (by norm_num) (by norm_num) (by norm_num) (by norm_num)).mpr
    ⟨by norm_num, by norm_num, by decide, 1, rfl, by norm_num, by norm_num⟩

/-- A day without a high, which `Quote::is_valid` lets pass. -/
def dayWithoutHigh : FinCore.Quote := { tradingDay with high := .finite 0 }

theorem dayWithoutHigh_refused :
    dayWithoutHigh.isValid = true
    ∧ validateSymbolAndSource dayWithoutHigh.symbol dayWithoutHigh.source = .ok ()
    ∧ (∀ price ∈ [dayWithoutHigh.price, dayWithoutHigh.openPrice, dayWithoutHigh.high,
        dayWithoutHigh.low], price.isFinite = true
          ∧ price.lt (.finite (9 * 10 ^ 10)) = true ∧ price.gt (.finite (-9 * 10 ^ 10)) = true)
    ∧ ¬ ∃ record, domainQuote dayWithoutHigh 0 = .ok record ∧ record.validate = .ok () := by
  have hrefused : (domainQuote dayWithoutHigh 0 >>= Domain.Quote.validate)
      = .error (.invalidArgument "quote high cannot be below quote low".toList) := by
    decide +kernel
  refine ⟨by decide +kernel, by decide +kernel, by decide +kernel, ?_⟩
  rw [← Action.except_bind_eq_ok, hrefused]
  exact nofun

/-! ## §3. The book of a quote. -/

namespace FinCoreCli

section Book

variable {quote : FinCore.Quote} {p : ℚ}

theorem bidLevels_eq (hp : quote.price = .finite p) (levels : List ℕ) :
    bidLevels quote levels
      = levels.map fun level => (.finite (p - level / 100), levelVolume quote level) := by
  unfold bidLevels levelOffset
  rw [hp]
  refine List.map_congr_left fun level _ => ?_
  show (Double.finite (p + -(level * (1 / 100))), _) = (Double.finite (p - level / 100), _)
  rw [show p + -(level * (1 / 100)) = p - level / 100 by ring]

theorem askLevels_eq (hp : quote.price = .finite p) (levels : List ℕ) :
    askLevels quote levels
      = levels.map fun level => (.finite (p + level / 100), levelVolume quote level) := by
  unfold askLevels levelOffset
  rw [hp]
  refine List.map_congr_left fun level _ => ?_
  show (Double.finite (p + level * (1 / 100)), _) = (Double.finite (p + level / 100), _)
  rw [show p + level * (1 / 100) = p + level / 100 by ring]

theorem levelVolume_toNat (quote : FinCore.Quote) {level : ℕ} (h : level < 2 ^ 64) :
    (levelVolume quote level).toNat = quote.volume.toNat / 10 / level := by
  unfold levelVolume
  rw [UInt64.toNat_div, UInt64.toNat_div, UInt64.toNat_ofNat', Nat.mod_eq_of_lt h]
  rfl

theorem isSet_iff {q : ℚ} {volume : Volume} :
    isSet (.finite q, volume) = true ↔ 0 < q ∧ 0 < volume.toNat := by
  unfold isSet
  rw [Bool.and_eq_true, decide_eq_true_eq, UInt64.lt_iff_toNat_lt]
  show (decide (0 < q) = true ∧ _) ↔ _
  rw [decide_eq_true_eq]
  rfl

theorem rebuilt_bids (hp : quote.price = .finite p) (before : OrderBook) :
    (rebuilt before quote).bids.entries = (bidLevels quote [1, 2, 3, 4, 5]).filter isSet := by
  rw [rebuilt, populateBookFromQuote_run]
  refine fillLevels_entries ?_ (fun e he => absurd he List.not_mem_nil)
  rw [bidLevels_eq hp]
  simp [Double.gt, Double.lt]
  norm_num

theorem rebuilt_asks (hp : quote.price = .finite p) (before : OrderBook) :
    (rebuilt before quote).asks.entries = (askLevels quote [1, 2, 3, 4, 5]).filter isSet := by
  rw [rebuilt, populateBookFromQuote_run]
  refine fillLevels_entries ?_ (fun e he => absurd he List.not_mem_nil)
  rw [askLevels_eq hp]
  simp [Double.lt]
  norm_num

/-- No level is set without a first one: the prices move away from the quote
and the volumes fall. -/
theorem tenth_pos {level : ℕ} (h : 0 < quote.volume.toNat / 10 / level) :
    10 ≤ quote.volume.toNat := by
  by_contra hlt
  have hzero : quote.volume.toNat / 10 = 0 := by omega
  rw [hzero, Nat.zero_div] at h
  exact absurd h (lt_irrefl 0)

/-- The best of five levels is the first, if any is set. -/
theorem levels_head (quote : FinCore.Quote) (price : ℕ → ℚ)
    (hfirst : ∀ level, 1 ≤ level → 0 < price level → 0 < price 1) :
    ((([1, 2, 3, 4, 5].map fun level =>
        (Double.finite (price level), levelVolume quote level)).filter isSet).head?).map Prod.fst
      = if 0 < price 1 ∧ 10 ≤ quote.volume.toNat then some (.finite (price 1)) else none := by
  split
  next h =>
    have hset : isSet (.finite (price 1), levelVolume quote 1) = true := by
      rw [isSet_iff, levelVolume_toNat quote (by decide)]
      exact ⟨h.1, by omega⟩
    rw [List.map_cons, List.filter_cons_of_pos hset]
    rfl
  next h =>
    rw [List.filter_eq_nil_iff.mpr]
    · rfl
    intro e he hset
    obtain ⟨level, hlevel, rfl⟩ := List.mem_map.mp he
    have hrange : 1 ≤ level ∧ level ≤ 5 := by
      simp only [List.mem_cons, List.not_mem_nil, or_false] at hlevel
      omega
    rw [isSet_iff, levelVolume_toNat quote (by omega)] at hset
    -- a level that is set makes the first one positive, so it is set as well
    exact h ⟨hfirst level hrange.1 hset.1, tenth_pos hset.2⟩

theorem rebuilt_bestBid (hp : quote.price = .finite p) (before : OrderBook) :
    (rebuilt before quote).bestBid
      = if 1 / 100 < p ∧ 10 ≤ quote.volume.toNat then some (.finite (p - 1 / 100)) else none := by
  have hfalls : ∀ level : ℕ, 1 ≤ level → 0 < p - level / 100 → 0 < p - ((1 : ℕ) : ℚ) / 100 := by
    intro level hlevel hset
    have hcast : (1 : ℚ) ≤ level := by exact_mod_cast hlevel
    push_cast
    linarith
  unfold OrderBook.bestBid
  rw [rebuilt_bids hp, bidLevels_eq hp, levels_head quote (fun level => p - level / 100) hfalls,
    Nat.cast_one]
  simp only [sub_pos]

theorem rebuilt_bestAsk (hp : quote.price = .finite p) (hpositive : 0 < p) (before : OrderBook) :
    (rebuilt before quote).bestAsk
      = if 10 ≤ quote.volume.toNat then some (.finite (p + 1 / 100)) else none := by
  have hfirst : 0 < p + ((1 : ℕ) : ℚ) / 100 := by positivity
  unfold OrderBook.bestAsk
  rw [rebuilt_asks hp, askLevels_eq hp,
    levels_head quote (fun level => p + level / 100) (fun _ _ _ => hfirst), Nat.cast_one]
  rw [Nat.cast_one] at hfirst
  simp only [hfirst, true_and]

/-! ## §4. Volumes and imbalance. -/

/-- Five levels of a tenth each stay below the volume of the quote. -/
theorem totalVolume_le {lt : Price → Price → Bool} {side : Levels lt}
    {price : ℕ → Double} (h : side.entries
      = ([1, 2, 3, 4, 5].map fun level => (price level, levelVolume quote level)).filter isSet) :
    (OrderBook.totalVolume side).toNat ≤ quote.volume.toNat := by
  -- a sum that wraps is only smaller
  have hsum : (OrderBook.totalVolume side).toNat ≤ volumeSum side.entries := by
    rw [totalVolume_toNat]
    exact Nat.mod_le _ _
  have hsublist : volumeSum side.entries
      ≤ (([1, 2, 3, 4, 5].map fun level => (price level, levelVolume quote level)).map
          fun e => e.2.toNat).sum := by
    rw [h]
    exact (List.filter_sublist.map _).sum_le_sum (fun _ _ => Nat.zero_le _)
  have hlevel : ∀ level, level < 2 ^ 64 → (levelVolume quote level).toNat
      ≤ quote.volume.toNat / 10 := by
    intro level hlt
    rw [levelVolume_toNat quote hlt]
    exact Nat.div_le_self _ _
  have h₁ := hlevel 1 (by decide)
  have h₂ := hlevel 2 (by decide)
  have h₃ := hlevel 3 (by decide)
  have h₄ := hlevel 4 (by decide)
  have h₅ := hlevel 5 (by decide)
  simp only [List.map_cons, List.map_nil, List.sum_cons, List.sum_nil] at hsublist
  omega

theorem rebuilt_totals_le (hp : quote.price = .finite p) (before : OrderBook) :
    (rebuilt before quote).totalBidVolume.toNat ≤ quote.volume.toNat
    ∧ (rebuilt before quote).totalAskVolume.toNat ≤ quote.volume.toNat := by
  constructor
  · exact totalVolume_le ((rebuilt_bids hp before).trans (by rw [bidLevels_eq hp]))
  · exact totalVolume_le ((rebuilt_asks hp before).trans (by rw [askLevels_eq hp]))

/-- The imbalance of any book lies between minus one and one. -/
theorem imbalance_bounds (book : OrderBook) :
    ∃ r : ℚ, book.imbalance = .finite r ∧ -1 ≤ r ∧ r ≤ 1 :=
  ⟨_, book.imbalance_eq, OrderBook.ratio_bounds _ _⟩

end Book

/-! ## §5. Snapshots. -/

theorem domainSnapshot_iff {snapshot : FinCore.OrderBookSnapshot} {source : Str}
    {timestamp : Timestamp} {record : Domain.OrderBookSnapshot} :
    domainSnapshot snapshot source timestamp = .ok record ↔
      record.symbol = snapshot.symbol ∧ record.source = source ∧ record.snapshotTime = timestamp
      ∧ decimalFrom snapshot.bestBid = .ok record.bestBid
      ∧ decimalFrom snapshot.bestAsk = .ok record.bestAsk
      ∧ decimalFrom snapshot.imbalance = .ok record.imbalance
      ∧ decimalFromVolume snapshot.totalBidVol = .ok record.totalBidVolume
      ∧ decimalFromVolume snapshot.totalAskVol = .ok record.totalAskVolume := by
  unfold domainSnapshot
  constructor
  · intro h
    obtain ⟨bid, hbid, h⟩ := Action.except_bind_eq_ok.mp h
    obtain ⟨ask, hask, h⟩ := Action.except_bind_eq_ok.mp h
    obtain ⟨imbalance, himbalance, h⟩ := Action.except_bind_eq_ok.mp h
    obtain ⟨bidVolume, hbidVolume, h⟩ := Action.except_bind_eq_ok.mp h
    obtain ⟨askVolume, haskVolume, h⟩ := Action.except_bind_eq_ok.mp h
    obtain rfl := Except.ok.inj h
    exact ⟨rfl, rfl, rfl, hbid, hask, himbalance, hbidVolume, haskVolume⟩
  · rintro ⟨hsymbol, hsource, htime, hbid, hask, himbalance, hbidVolume, haskVolume⟩
    rw [hbid, hask, himbalance, hbidVolume, haskVolume]
    show Except.ok _ = _
    rw [← hsymbol, ← hsource, ← htime]

/-- The imbalance always has a decimal between minus one and one. -/
theorem decimalFrom_imbalance (book : OrderBook) :
    ∃ d, decimalFrom book.imbalance = .ok d ∧ -10 ^ 8 ≤ d.raw.toInt ∧ d.raw.toInt ≤ 10 ^ 8 := by
  obtain ⟨r, hr, hlow, hhigh⟩ := imbalance_bounds book
  have hone : scaledRound 8 1 = 10 ^ 8 := by decide +kernel
  have hneg : scaledRound 8 (-1) = -10 ^ 8 := by decide +kernel
  have hlow' := Double.scaledRound_mono 8 hlow
  have hhigh' := Double.scaledRound_mono 8 hhigh
  rw [hneg] at hlow'
  rw [hone] at hhigh'
  obtain ⟨d, hd⟩ := (exists_raw_iff (n := scaledRound 8 r)).mpr ⟨by omega, by omega⟩
  refine ⟨d, ?_, by omega, by omega⟩
  rw [hr]
  exact decimalFrom_finite_iff.mpr hd

/-- An accepted record has a bid, so the volume and the price are large enough
for one. -/
theorem book_of_accepted {quote : FinCore.Quote} {before : OrderBook} {p : ℚ}
    {now at_ : TimePoint} {timestamp : Timestamp} {record : Domain.OrderBookSnapshot}
    (hp : quote.price = .finite p)
    (hrecord : domainSnapshot ((rebuilt before quote).snapshot now at_) quote.source timestamp
      = .ok record) (haccepted : record.validate = .ok ()) :
    10 ≤ quote.volume.toNat ∧ 1 / 100 + 5 / 10 ^ 9 < p := by
  rw [OrderBookSnapshot.validate_iff] at haccepted
  obtain ⟨_, _, _, hbid, _⟩ := domainSnapshot_iff.mp hrecord
  have hpos := haccepted.bestBid
  have hbid' : decimalFrom ((rebuilt before quote).bestBid.getD (.finite 0))
      = .ok record.bestBid := hbid
  rw [rebuilt_bestBid hp before] at hbid'
  split at hbid'
  next h =>
    rw [Option.getD_some, decimalFrom_finite_iff] at hbid'
    rw [hbid'] at hpos
    have hround := mt (scaledRound_nonpos_iff (q := p - 1 / 100)).mpr (by omega)
    exact ⟨h.2, by linarith⟩
  next h =>
    -- an empty side has the price zero
    have hzero : scaledRound 8 0 = 0 := by decide +kernel
    rw [Option.getD_none, decimalFrom_finite_iff, hzero] at hbid'
    omega

/-- The rounded best prices of a rebuilt book. -/
theorem rebuilt_prices_round {p : ℚ} (htick : 1 / 100 + 5 / 10 ^ 9 < p)
    (hprice : (p + 1 / 100) * 10 ^ 8 ≤ 2 ^ 63 - 1) :
    0 < scaledRound 8 (p - 1 / 100)
    ∧ scaledRound 8 (p - 1 / 100) ≤ scaledRound 8 (p + 1 / 100)
    ∧ scaledRound 8 (p + 1 / 100) ≤ 2 ^ 63 - 1 := by
  have hbid : 0 < scaledRound 8 (p - 1 / 100) := by
    have h := mt (scaledRound_nonpos_iff (q := p - 1 / 100)).mp (by linarith)
    omega
  have hordered : scaledRound 8 (p - 1 / 100) ≤ scaledRound 8 (p + 1 / 100) :=
    Double.scaledRound_mono 8 (by linarith)
  have hask : scaledRound 8 (p + 1 / 100) ≤ 2 ^ 63 - 1 := by
    have hcast : (p + 1 / 100) * 10 ^ 8 ≤ ((2 ^ 63 - 1 : ℤ) : ℚ) := by
      push_cast
      linarith
    have h := Double.roundHalfEven_mono hcast
    rwa [Double.roundHalfEven_intCast] at h
  exact ⟨hbid, hordered, hask⟩

/-- **When the book of a valid quote can be persisted.** -/
theorem bookSnapshot_persistable_iff {quote : FinCore.Quote} {before : OrderBook} {p : ℚ}
    {now at_ : TimePoint} {timestamp : Timestamp} (hvalid : quote.isValid = true)
    (hp : quote.price = .finite p) (hbook : before.symbol = quote.symbol)
    (hidentified : validateSymbolAndSource quote.symbol quote.source = .ok ())
    (hprice : (p + 1 / 100) * 10 ^ 8 ≤ 2 ^ 63 - 1)
    (hvolume : quote.volume.toNat * 10 ^ 8 ≤ 2 ^ 63 - 1) :
    (∃ record, domainSnapshot ((rebuilt before quote).snapshot now at_) quote.source timestamp
        = .ok record ∧ record.validate = .ok ())
      ↔ 10 ≤ quote.volume.toNat ∧ 1 / 100 + 5 / 10 ^ 9 < p := by
  have hbestBid := rebuilt_bestBid hp before
  have hbestAsk := rebuilt_bestAsk hp (isValid_price hvalid hp) before
  constructor
  · rintro ⟨record, hrecord, haccepted⟩
    exact book_of_accepted hp hrecord haccepted
  · rintro ⟨hvolume', hprice'⟩
    have htick : 1 / 100 < p := by linarith
    rw [if_pos ⟨htick, hvolume'⟩] at hbestBid
    rw [if_pos hvolume'] at hbestAsk
    obtain ⟨hbid, hordered, hask⟩ := rebuilt_prices_round hprice' hprice
    obtain ⟨hbids, hasks⟩ := rebuilt_totals_le hp before
    -- every field of the record has a decimal
    obtain ⟨bid, hbidRaw⟩ := exists_raw_iff.mpr
      (⟨by omega, by omega⟩ : -2 ^ 63 ≤ scaledRound 8 (p - 1 / 100) ∧ _)
    obtain ⟨ask, haskRaw⟩ := exists_raw_iff.mpr
      (⟨by omega, hask⟩ : -2 ^ 63 ≤ scaledRound 8 (p + 1 / 100) ∧ _)
    obtain ⟨imbalance, himbalance, hlower, hupper⟩ := decimalFrom_imbalance (rebuilt before quote)
    obtain ⟨bidVolume, hbidVolume⟩ := exists_decimalFromVolume_iff.mpr
      (show (rebuilt before quote).totalBidVolume.toNat ≤ 92233720368 by omega)
    obtain ⟨askVolume, haskVolume⟩ := exists_decimalFromVolume_iff.mpr
      (show (rebuilt before quote).totalAskVolume.toNat ≤ 92233720368 by omega)
    refine ⟨⟨quote.symbol, quote.source, timestamp, bid, ask, imbalance, bidVolume, askVolume⟩,
      domainSnapshot_iff.mpr ⟨?_, rfl, rfl, ?_, ?_, himbalance, hbidVolume, haskVolume⟩,
      OrderBookSnapshot.validate_iff.mpr ?_⟩
    · exact (hbook.symm.trans (rebuilt_symbol before quote).symm)
    · show decimalFrom ((rebuilt before quote).bestBid.getD (.finite 0)) = _
      rw [hbestBid]
      exact decimalFrom_finite_iff.mpr hbidRaw
    · show decimalFrom ((rebuilt before quote).bestAsk.getD (.finite 0)) = _
      rw [hbestAsk]
      exact decimalFrom_finite_iff.mpr haskRaw
    · rw [decimalFromVolume_iff] at hbidVolume haskVolume
      exact {
        identified := validateSymbolAndSource_iff.mp hidentified
        bestBid := by
          show 0 < bid.raw.toInt
          omega
        bestAsk := by
          show 0 < ask.raw.toInt
          omega
        not_crossed := by
          show bid.raw.toInt ≤ ask.raw.toInt
          omega
        imbalance_lower := hlower
        imbalance_upper := hupper
        totalBidVolume := by
          show 0 ≤ bidVolume.raw.toInt
          omega
        totalAskVolume := by
          show 0 ≤ askVolume.raw.toInt
          omega }

theorem tradingDay_book_persistable :
    ∃ record, domainSnapshot ((rebuilt ⟨"IBM".toList, OrderedMap.empty, OrderedMap.empty,
        by decide⟩ tradingDay).snapshot 1 0) tradingDay.source 0 = .ok record
      ∧ record.validate = .ok () :=
  (bookSnapshot_persistable_iff (by decide +kernel) rfl rfl (by decide +kernel) (by norm_num)
    (by decide)).mpr ⟨by decide, by norm_num⟩

/-- A day on which five shares were traded. -/
def thinDay : FinCore.Quote := { tradingDay with volume := 5 }

theorem thinDay_book_refused :
    thinDay.isValid = true
    ∧ validateSymbolAndSource thinDay.symbol thinDay.source = .ok ()
    ∧ (∃ record, domainQuote thinDay 0 = .ok record ∧ record.validate = .ok ())
    ∧ ¬ ∃ record, domainSnapshot ((rebuilt ⟨"IBM".toList, OrderedMap.empty, OrderedMap.empty,
        by decide⟩ thinDay).snapshot 1 0) thinDay.source 0 = .ok record
      ∧ record.validate = .ok () := by
  have hrefused : (domainSnapshot ((rebuilt ⟨"IBM".toList, OrderedMap.empty, OrderedMap.empty,
        by decide⟩ thinDay).snapshot 1 0) thinDay.source 0 >>= Domain.OrderBookSnapshot.validate)
      = .error (.invalidArgument "best bid and ask must be positive".toList) := by
    decide +kernel
  refine ⟨by decide +kernel, by decide +kernel, ?_, ?_⟩
  · rw [← Action.except_bind_eq_ok]
    decide +kernel
  · rw [← Action.except_bind_eq_ok, hrefused]
    exact nofun

end FinCoreCli

end FinCore.Cli

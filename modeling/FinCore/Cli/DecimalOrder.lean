/-
  FinCore.Cli.DecimalOrder
  ────────────────────────
  `decimal_from` as a rounding, and the order it preserves.

  The text in between (fixed notation, its sign, the parser's overflow checks)
  leaves no trace: the raw value is the nearest integer to the scaled number.
  A nearest integer is monotone, so whatever `<=` between two figures the
  validators of the domain ask for holds after the conversion if it held before.
-/
import FinCore.Cli.Persistable

namespace FinCore.Cli

open FinCore.Cxx FinCore.Domain
open FinCore.Cxx.Double (scaledRound RoundsHalfEven)

/-! ## §1. The conversion of a number. -/

/-- In range the conversion returns the rounded value. -/
theorem decimalFrom_in_range {q : ℚ} {r : ℤ} (hr : RoundsHalfEven (q * 10 ^ 8) r)
    (hrange : -2 ^ 63 ≤ r ∧ r ≤ 2 ^ 63 - 1) :
    ∃ d, decimalFrom (.finite q) = .ok d ∧ d.raw.toInt = r := by
  have hround : scaledRound 8 q = r := (Double.roundHalfEven_spec _).unique hr
  obtain ⟨d, hd⟩ := exists_raw_iff.mpr hrange
  refine ⟨d, ?_, hd⟩
  rw [decimalFrom_finite_iff, hround]
  exact hd

/-- Out of range it throws. -/
theorem decimalFrom_out_of_range {q : ℚ} {r : ℤ} (hr : RoundsHalfEven (q * 10 ^ 8) r)
    (hrange : ¬ (-2 ^ 63 ≤ r ∧ r ≤ 2 ^ 63 - 1)) :
    ∃ e, decimalFrom (.finite q) = .error e := by
  have hround : scaledRound 8 q = r := (Double.roundHalfEven_spec _).unique hr
  cases hresult : decimalFrom (.finite q) with
  | error e => exact ⟨e, rfl⟩
  | ok d =>
      rw [decimalFrom_finite_iff, hround] at hresult
      exact absurd (exists_raw_iff.mp ⟨d, hresult⟩) hrange

/-- **The conversion preserves the order.** -/
theorem decimalFrom_mono {x y : Double} {dx dy : Decimal} (h : Double.le x y = true)
    (hx : decimalFrom x = .ok dx) (hy : decimalFrom y = .ok dy) : dx.raw ≤ dy.raw := by
  obtain ⟨p, rfl, hp⟩ := decimalFrom_iff.mp hx
  obtain ⟨q, rfl, hq⟩ := decimalFrom_iff.mp hy
  have hle : p ≤ q := OrderBook.le_finite_iff.mp h
  rw [Int64.le_iff_toInt_le, hp, hq]
  exact Double.scaledRound_mono 8 hle

/-- The bounds of an imbalance are exact decimals. -/
theorem decimalFrom_one :
    decimalFrom (.finite 1) = .ok ⟨Decimal.scale⟩
    ∧ decimalFrom (.finite (-1)) = .ok ⟨-Decimal.scale⟩ := by
  have hone : decimalFrom (.finite 1) = .ok ⟨Decimal.scale⟩ := by decide +kernel
  have hneg : decimalFrom (.finite (-1)) = .ok ⟨-Decimal.scale⟩ := by decide +kernel
  exact ⟨hone, hneg⟩

/-! ## §2. Records. -/

theorem domainQuote_ordered {quote : FinCore.Quote} {timestamp : Timestamp}
    {record : Domain.Quote} (h : domainQuote quote timestamp = .ok record)
    (hordered : quote.high.ge quote.low = true) : record.low.raw ≤ record.high.raw := by
  obtain ⟨_, _, _, _, _, hhigh, hlow, _⟩ := domainQuote_fields h
  exact decimalFrom_mono hordered hlow hhigh

theorem domainSnapshot_ordered {snapshot : FinCore.OrderBookSnapshot} {source : Str}
    {timestamp : Timestamp} {record : Domain.OrderBookSnapshot}
    (h : domainSnapshot snapshot source timestamp = .ok record)
    (hordered : snapshot.bestAsk.ge snapshot.bestBid = true) :
    record.bestBid.raw ≤ record.bestAsk.raw := by
  obtain ⟨_, _, _, hbid, hask, _⟩ := FinCoreCli.domainSnapshot_iff.mp h
  exact decimalFrom_mono hordered hbid hask

theorem domainSnapshot_imbalance {snapshot : FinCore.OrderBookSnapshot} {source : Str}
    {timestamp : Timestamp} {record : Domain.OrderBookSnapshot}
    (h : domainSnapshot snapshot source timestamp = .ok record)
    (hlower : Double.le (.finite (-1)) snapshot.imbalance = true)
    (hupper : Double.le snapshot.imbalance (.finite 1) = true) :
    -Decimal.scale ≤ record.imbalance.raw ∧ record.imbalance.raw ≤ Decimal.scale := by
  obtain ⟨_, _, _, _, _, himbalance, _⟩ := FinCoreCli.domainSnapshot_iff.mp h
  obtain ⟨hone, hneg⟩ := decimalFrom_one
  exact ⟨decimalFrom_mono hlower hneg himbalance, decimalFrom_mono hupper himbalance hone⟩

/-- **`decimal_from` rounds correctly and preserves order.** -/
theorem decimalFrom_rounds :
    (∀ (q : ℚ) (r : ℤ), RoundsHalfEven (q * 10 ^ 8) r →
      (-2 ^ 63 ≤ r ∧ r ≤ 2 ^ 63 - 1 → ∃ d, decimalFrom (.finite q) = .ok d ∧ d.raw.toInt = r)
      ∧ (¬ (-2 ^ 63 ≤ r ∧ r ≤ 2 ^ 63 - 1) → ∃ e, decimalFrom (.finite q) = .error e))
    ∧ (∀ (x y : ℚ) (dx dy : Decimal), x ≤ y → decimalFrom (.finite x) = .ok dx →
        decimalFrom (.finite y) = .ok dy → dx.raw ≤ dy.raw)
    ∧ (∀ (quote : FinCore.Quote) (timestamp : Timestamp) (record : Domain.Quote),
        domainQuote quote timestamp = .ok record → quote.high.ge quote.low = true →
        record.low.raw ≤ record.high.raw)
    ∧ (∀ (snapshot : FinCore.OrderBookSnapshot) (source : Str) (timestamp : Timestamp)
        (record : Domain.OrderBookSnapshot),
        domainSnapshot snapshot source timestamp = .ok record →
        (snapshot.bestAsk.ge snapshot.bestBid = true →
          record.bestBid.raw ≤ record.bestAsk.raw)
        ∧ (Double.le (.finite (-1)) snapshot.imbalance = true →
            Double.le snapshot.imbalance (.finite 1) = true →
            -Decimal.scale ≤ record.imbalance.raw ∧ record.imbalance.raw ≤ Decimal.scale)) := by
  refine ⟨?_, ?_, ?_, ?_⟩
  · intro q r hr
    exact ⟨decimalFrom_in_range hr, decimalFrom_out_of_range hr⟩
  · intro x y dx dy h hx hy
    exact decimalFrom_mono (OrderBook.le_finite_iff.mpr h) hx hy
  · intro quote timestamp record h hordered
    exact domainQuote_ordered h hordered
  · intro snapshot source timestamp record h
    exact ⟨domainSnapshot_ordered h, domainSnapshot_imbalance h⟩

/-- A tie below zero goes to the even neighbour. -/
example : decimalFrom (.finite (-3 / 2 / 10 ^ 8)) = .ok ⟨-2⟩ := by decide +kernel

end FinCore.Cli

/-
  FinCore.Domain.Validation
  ─────────────────────────
  What `validate` accepts: for each record a predicate with one named field for
  each requirement, over the integers behind the decimals, and the theorem that
  the checks made one after the other decide it.
-/
import FinCore.Cxx.Action
import FinCore.Domain.MarketData

namespace FinCore.Domain

open FinCore.Cxx

/-! ## §1. Sequences of requirements. -/

theorem require_iff {condition : Bool} {message : Str} :
    require condition message = .ok () ↔ condition = true := by
  cases condition <;> simp [require]

theorem andThen_ok_iff {x y : Except Exn Unit} :
    (x >>= fun _ => y) = .ok () ↔ x = .ok () ∧ y = .ok () := by
  rw [Action.except_bind_eq_ok]
  constructor
  · rintro ⟨_, hx, hy⟩
    exact ⟨hx, hy⟩
  · rintro ⟨hx, hy⟩
    exact ⟨(), hx, hy⟩

theorem raw_le_iff {a b : Int64} : decide (a ≤ b) = true ↔ a.toInt ≤ b.toInt := by
  rw [decide_eq_true_eq, Int64.le_iff_toInt_le]

theorem raw_lt_iff {a b : Int64} : decide (a < b) = true ↔ a.toInt < b.toInt := by
  rw [decide_eq_true_eq, Int64.lt_iff_toInt_lt]

/-! ## §2. Identifiers. -/

/-- The rules for the symbol and the source of every record. -/
structure Identified (symbol source : Str) : Prop where
  symbol_length : symbol.length ≤ 16
  symbol_upper : isUpperIdentifier symbol "._:/-".toList = true
  source_length : source.length ≤ 20
  source_upper : isUpperIdentifier source "_-".toList = true

theorem validateSymbolAndSource_iff {symbol source : Str} :
    validateSymbolAndSource symbol source = .ok () ↔ Identified symbol source := by
  unfold validateSymbolAndSource
  rw [andThen_ok_iff, require_iff, require_iff, Bool.and_eq_true, Bool.and_eq_true,
    decide_eq_true_eq, decide_eq_true_eq]
  constructor
  · rintro ⟨⟨h₁, h₂⟩, h₃, h₄⟩
    exact ⟨h₁, h₂, h₃, h₄⟩
  · rintro ⟨h₁, h₂, h₃, h₄⟩
    exact ⟨⟨h₁, h₂⟩, h₃, h₄⟩

/-! ## §3. Quotes and snapshots. -/

structure Quote.Accepted (value : Quote) : Prop where
  identified : Identified value.symbol value.source
  price : 0 ≤ value.price.raw.toInt
  openPrice : 0 ≤ value.openPrice.raw.toInt
  high : 0 ≤ value.high.raw.toInt
  low : 0 ≤ value.low.raw.toInt
  low_le_high : value.low.raw.toInt ≤ value.high.raw.toInt
  volume : 0 ≤ value.volume.raw.toInt

theorem Quote.validate_iff {value : Quote} : value.validate = .ok () ↔ value.Accepted := by
  unfold Quote.validate
  simp only [andThen_ok_iff, require_iff, validateSymbolAndSource_iff, Bool.and_eq_true,
    raw_le_iff]
  constructor
  · rintro ⟨h₁, ⟨⟨⟨h₂, h₃⟩, h₄⟩, h₅⟩, h₆, h₇⟩
    exact ⟨h₁, h₂, h₃, h₄, h₅, h₆, h₇⟩
  · rintro ⟨h₁, h₂, h₃, h₄, h₅, h₆, h₇⟩
    exact ⟨h₁, ⟨⟨⟨h₂, h₃⟩, h₄⟩, h₅⟩, h₆, h₇⟩

structure OrderBookSnapshot.Accepted (value : OrderBookSnapshot) : Prop where
  identified : Identified value.symbol value.source
  bestBid : 0 < value.bestBid.raw.toInt
  bestAsk : 0 < value.bestAsk.raw.toInt
  not_crossed : value.bestBid.raw.toInt ≤ value.bestAsk.raw.toInt
  imbalance_lower : -10 ^ 8 ≤ value.imbalance.raw.toInt
  imbalance_upper : value.imbalance.raw.toInt ≤ 10 ^ 8
  totalBidVolume : 0 ≤ value.totalBidVolume.raw.toInt
  totalAskVolume : 0 ≤ value.totalAskVolume.raw.toInt

theorem OrderBookSnapshot.validate_iff {value : OrderBookSnapshot} :
    value.validate = .ok () ↔ value.Accepted := by
  have hscale : Decimal.scale.toInt = 10 ^ 8 := by decide
  have hneg : (-Decimal.scale).toInt = -10 ^ 8 := by decide
  unfold OrderBookSnapshot.validate
  simp only [andThen_ok_iff, require_iff, validateSymbolAndSource_iff, Bool.and_eq_true,
    raw_lt_iff, raw_le_iff, hscale, hneg]
  constructor
  · rintro ⟨h₁, ⟨h₂, h₃⟩, h₄, ⟨h₅, h₆⟩, h₇, h₈⟩
    exact ⟨h₁, h₂, h₃, h₄, h₅, h₆, h₇, h₈⟩
  · rintro ⟨h₁, h₂, h₃, h₄, h₅, h₆, h₇, h₈⟩
    exact ⟨h₁, ⟨h₂, h₃⟩, h₄, ⟨h₅, h₆⟩, h₇, h₈⟩

/-! ## §4. Instruments and data sources. -/

structure Instrument.Accepted (value : Instrument) : Prop where
  symbol_length : value.symbol.length ≤ 16
  symbol_upper : isUpperIdentifier value.symbol "._:/-".toList = true
  name_ne : value.name ≠ []
  name_length : value.name.length ≤ 100
  exchange_ne : value.exchange ≠ []
  exchange_length : value.exchange.length ≤ 32
  tickSizeDecimals_lower : 0 ≤ value.tickSizeDecimals.toInt
  tickSizeDecimals_upper : value.tickSizeDecimals.toInt ≤ 8

theorem isEmpty_eq_false_iff {s : Str} : (!s.isEmpty) = true ↔ s ≠ [] := by
  cases s <;> simp

theorem Instrument.validate_iff {value : Instrument} :
    value.validate = .ok () ↔ value.Accepted := by
  have hzero : (0 : Int16).toInt = 0 := by decide
  have height : (8 : Int16).toInt = 8 := by decide
  unfold Instrument.validate
  simp only [andThen_ok_iff, require_iff, Bool.and_eq_true, decide_eq_true_eq,
    isEmpty_eq_false_iff, Int16.le_iff_toInt_le, hzero, height]
  constructor
  · rintro ⟨⟨h₁, h₂⟩, ⟨h₃, h₄⟩, ⟨h₅, h₆⟩, h₇, h₈⟩
    exact ⟨h₁, h₂, h₃, h₄, h₅, h₆, h₇, h₈⟩
  · rintro ⟨h₁, h₂, h₃, h₄, h₅, h₆, h₇, h₈⟩
    exact ⟨⟨h₁, h₂⟩, ⟨h₃, h₄⟩, ⟨h₅, h₆⟩, h₇, h₈⟩

structure DataSource.Accepted (value : DataSource) : Prop where
  code_length : value.code.length ≤ 20
  code_upper : isUpperIdentifier value.code "_-".toList = true
  displayName_ne : value.displayName ≠ []
  displayName_length : value.displayName.length ≤ 60

theorem DataSource.validate_iff {value : DataSource} :
    value.validate = .ok () ↔ value.Accepted := by
  unfold DataSource.validate
  simp only [andThen_ok_iff, require_iff, Bool.and_eq_true, decide_eq_true_eq,
    isEmpty_eq_false_iff]
  constructor
  · rintro ⟨⟨h₁, h₂⟩, h₃, h₄⟩
    exact ⟨h₁, h₂, h₃, h₄⟩
  · rintro ⟨h₁, h₂, h₃, h₄⟩
    exact ⟨⟨h₁, h₂⟩, h₃, h₄⟩

/-! ## §5. Ticks and indicators. -/

structure Tick.Accepted (value : Tick) : Prop where
  identified : Identified value.symbol value.source
  price : 0 < value.price.raw.toInt
  size : 0 < value.size.raw.toInt
  tradeId_ne : value.tradeId ≠ some []
  tradeId_length : ∀ tradeId, value.tradeId = some tradeId → tradeId.length ≤ 64

theorem Tick.validate_iff {value : Tick} : value.validate = .ok () ↔ value.Accepted := by
  obtain ⟨symbol, source, timestamp, tradeId, price, size, side⟩ := value
  unfold Tick.validate
  simp only [andThen_ok_iff, require_iff, validateSymbolAndSource_iff, raw_lt_iff]
  cases tradeId with
  | none =>
      constructor
      · rintro ⟨h₁, h₂, h₃, _⟩
        exact ⟨h₁, h₂, h₃, nofun, nofun⟩
      · rintro ⟨h₁, h₂, h₃, _, _⟩
        exact ⟨h₁, h₂, h₃, rfl⟩
  | some tradeId =>
      simp only [Bool.and_eq_true, isEmpty_eq_false_iff, decide_eq_true_eq]
      constructor
      · rintro ⟨h₁, h₂, h₃, h₄, h₅⟩
        exact ⟨h₁, h₂, h₃, fun h => h₄ (Option.some.inj h), fun _ h => Option.some.inj h ▸ h₅⟩
      · rintro ⟨h₁, h₂, h₃, h₄, h₅⟩
        exact ⟨h₁, h₂, h₃, fun h => h₄ (congrArg some h), h₅ _ rfl⟩

structure TechnicalIndicator.Accepted (value : TechnicalIndicator) : Prop where
  identified : Identified value.symbol value.source
  indicatorName_length : value.indicatorName.length ≤ 32
  indicatorName_upper : isUpperIdentifier value.indicatorName "_".toList = true
  parametersJson_ne : value.parametersJson ≠ []

theorem TechnicalIndicator.validate_iff {value : TechnicalIndicator} :
    value.validate = .ok () ↔ value.Accepted := by
  unfold TechnicalIndicator.validate
  simp only [andThen_ok_iff, require_iff, validateSymbolAndSource_iff, Bool.and_eq_true,
    decide_eq_true_eq, isEmpty_eq_false_iff]
  constructor
  · rintro ⟨h₁, ⟨h₂, h₃⟩, h₄⟩
    exact ⟨h₁, h₂, h₃, h₄⟩
  · rintro ⟨h₁, h₂, h₃, h₄⟩
    exact ⟨h₁, ⟨h₂, h₃⟩, h₄⟩

end FinCore.Domain

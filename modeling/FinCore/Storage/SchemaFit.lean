/-
  FinCore.Storage.SchemaFit
  ─────────────────────────
  What the validation of the domain promises the schema.

  A record is checked twice, by `validate` and by the types and CHECK
  constraints of its table.  For quotes and snapshots the first implies the
  second (`validated_fits`).  For the other records it does not, and
  `metadata_fits_iff` says what it leaves to the server.
-/
import FinCore.Storage.LatestQuote
import FinCore.Storage.SentRows

namespace FinCore.Storage

open FinCore.Cxx FinCore.Sql FinCore.Domain

/-! ## §1. Identifiers and decimals. -/

/-- What stands before the lower-case letters is its own upper case. -/
theorem toUpper_of_toNat_le {c : Char} (h : c.toNat ≤ 0x60) : c.toUpper = c := by
  refine Char.toUpper_eq_of_not_isLower ?_
  simp only [Char.isLower, UInt32.le_iff_toNat_le, Bool.and_eq_true, decide_eq_true_eq]
  show ¬ (97 ≤ c.toNat ∧ c.toNat ≤ 122)
  omega

theorem upperClass_le {extra : Str} (hextra : ∀ c ∈ extra, c.toNat ≤ 0x60) {c : Char}
    (h : upperClass extra c = true) : c.toNat ≤ 0x60 := by
  unfold upperClass at h
  rw [Bool.or_eq_true, Bool.or_eq_true, List.contains_iff_mem] at h
  rcases h with (hupper | hdigit) | hmem
  · simp only [Char.isUpper, UInt32.le_iff_toNat_le, decide_eq_true_eq] at hupper
    change 65 ≤ c.toNat ∧ c.toNat ≤ 90 at hupper
    omega
  · rw [Char.isDigit_iff_toNat] at hdigit
    have hnine : '9'.toNat = 57 := rfl
    omega
  · exact hextra c hmem

theorem identifier_upper {value extra : Str} (hextra : ∀ c ∈ extra, c.toNat ≤ 0x60)
    (h : isUpperIdentifier value extra = true) : ValidUtf8 value ∧ value = toUpper value := by
  unfold isUpperIdentifier at h
  rw [Bool.and_eq_true, List.all_eq_true] at h
  have hle : ∀ c ∈ value, c.toNat ≤ 0x60 := fun c hc => upperClass_le hextra (h.2 c hc)
  constructor
  · exact ValidUtf8.of_ascii (fun c hc => (hle c hc).trans (by decide))
  · unfold toUpper
    rw [List.map_congr_left (fun c hc => toUpper_of_toNat_le (hle c hc)), List.map_id']

/-- An identifier has the format that the table wants. -/
theorem identifier_match {value extra : Str}
    (hextra : ∀ c ∈ extra, c.toNat ≤ 0x60)
    (h : isUpperIdentifier value extra = true) :
    Truth.Passes (Value.isUpperMatch (upperClass extra) (.text value)) := by
  unfold Value.isUpperMatch Value.onText
  rw [Truth.passes_and, Truth.passes_some, Truth.passes_some]
  exact ⟨decide_eq_true (identifier_upper hextra h).2, h⟩

theorem symbol_extra : ∀ c ∈ "._:/-".toList, c.toNat ≤ 0x60 := by simp

theorem source_extra : ∀ c ∈ "_-".toList, c.toNat ≤ 0x60 := by simp

theorem name_extra : ∀ c ∈ "_".toList, c.toNat ≤ 0x60 := by simp

theorem Identified.symbol_fits {symbol source : Str} (h : Identified symbol source) :
    (ColumnType.varchar 16).assign (.text symbol) = some (.text symbol) :=
  ColumnType.assign_varchar (identifier_upper symbol_extra h.symbol_upper).1 h.symbol_length

theorem Identified.source_fits {symbol source : Str} (h : Identified symbol source) :
    (ColumnType.varchar 20).assign (.text source) = some (.text source) :=
  ColumnType.assign_varchar (identifier_upper source_extra h.source_upper).1 h.source_length

/-- **Every decimal fits a column of eight fractional digits**, as it is. -/
theorem decimal_fits {precision : ℕ} (h : 19 ≤ precision) (d : Decimal) :
    (ColumnType.numeric precision 8).assign (.number d.toRat) = some (.number d.toRat) := by
  have hlow := d.raw.le_toInt
  have hhigh := d.raw.toInt_lt
  have hpow : 10 ^ 19 ≤ 10 ^ precision := Nat.pow_le_pow_right (by decide) h
  exact ColumnType.assign_numeric (by omega)

theorem toRat_le {a b : Decimal} : a.toRat ≤ b.toRat ↔ a.raw.toInt ≤ b.raw.toInt := by
  unfold Decimal.toRat
  rw [div_le_div_iff_of_pos_right (by norm_num), Int.cast_le]

/-! ## §2. Quotes and snapshots. -/

/-- A non-negative decimal passes a check against zero. -/
theorem zero_le_passes {d : Decimal} (h : 0 ≤ d.raw.toInt) :
    Truth.Passes (zero.le (.number d.toRat)) := by
  show Truth.Passes (some (decide (0 ≤ d.toRat)))
  rw [Truth.passes_some, decide_eq_true_eq]
  unfold Decimal.toRat
  positivity

theorem zero_lt_passes {d : Decimal} (h : 0 < d.raw.toInt) :
    Truth.Passes (zero.lt (.number d.toRat)) := by
  show Truth.Passes (some (decide (0 < d.toRat)))
  rw [Truth.passes_some, decide_eq_true_eq]
  unfold Decimal.toRat
  positivity

theorem le_passes {a b : Decimal} (h : a.raw.toInt ≤ b.raw.toInt) :
    Truth.Passes (Value.le (.number a.toRat) (.number b.toRat)) := by
  show Truth.Passes (some (decide (a.toRat ≤ b.toRat)))
  rw [Truth.passes_some, decide_eq_true_eq]
  exact toRat_le.mpr h

/-- **The table stores a valid quote as it is sent.** -/
theorem quote_stored {quote : Domain.Quote} (h : quote.Accepted) (us : ℤ) :
    quotes.store (sentRecord quoteColumns (quoteRow us quote))
      = some (sentRecord quoteColumns (quoteRow us quote)) := by
  refine Table.store_eq_some_iff.mpr ⟨?_, nofun, ?_, ?_⟩
  · intro c _
    cases c with
    | symbol => exact Identified.symbol_fits h.identified
    | source => exact Identified.source_fits h.identified
    | timestamp => rfl
    | price => exact decimal_fits (by decide) quote.price
    | openPrice => exact decimal_fits (by decide) quote.openPrice
    | high => exact decimal_fits (by decide) quote.high
    | low => exact decimal_fits (by decide) quote.low
    | volume => exact decimal_fits (by decide) quote.volume
    | changePct =>
        obtain ⟨symbol, source, timestamp, price, openPrice, high, low, volume, changePct⟩ := quote
        cases changePct with
        | none => rfl
        | some d => exact decimal_fits (by decide) d
  · intro c hnull
    cases c with
    | changePct => cases hnull
    | _ => nofun
  · intro check hmem
    simp only [quotes, List.mem_cons, List.not_mem_nil, or_false] at hmem
    -- the checks of the table are among those of `validate`
    rcases hmem with rfl | rfl | rfl
    · rw [Truth.passes_and, Truth.passes_and, Truth.passes_and]
      exact ⟨zero_le_passes h.price, zero_le_passes h.openPrice, zero_le_passes h.high,
        zero_le_passes h.low⟩
    · exact le_passes h.low_le_high
    · exact zero_le_passes h.volume

/-- The row that a snapshot becomes: the mid price, rounded up to eight digits,
and the spread are the server's. -/
def storedSnapshot (us : ℤ) (snapshot : Domain.OrderBookSnapshot) : Record SnapshotColumn
  | .midPrice =>
      .number ((((snapshot.bestBid.raw.toInt + snapshot.bestAsk.raw.toInt + 1) / 2 : ℤ) : ℚ)
        / 10 ^ 8)
  | .spread =>
      .number (((snapshot.bestAsk.raw.toInt - snapshot.bestBid.raw.toInt : ℤ) : ℚ) / 10 ^ 8)
  | c => sentRecord snapshotColumns (snapshotRow us snapshot) c

theorem midPrice_fits {bid ask : Decimal} (hbid : 0 < bid.raw.toInt) (hask : 0 < ask.raw.toInt) :
    (ColumnType.numeric 20 8).assign (.number ((bid.toRat + ask.toRat) / 2))
      = some (.number ((((bid.raw.toInt + ask.raw.toInt + 1) / 2 : ℤ) : ℚ) / 10 ^ 8)) := by
  have hbound := bid.raw.toInt_lt
  have hbound' := ask.raw.toInt_lt
  have hsum : bid.toRat + ask.toRat = ((bid.raw.toInt + ask.raw.toInt : ℤ) : ℚ) / 10 ^ 8 := by
    unfold Decimal.toRat
    rw [Int.cast_add, add_div]
  show (assignNumeric 20 8 _).map _ = _
  rw [hsum, assignNumeric_half (by omega) (by omega)]
  rfl

theorem spread_fits {bid ask : Decimal} (hbid : 0 < bid.raw.toInt) (hask : 0 < ask.raw.toInt) :
    (ColumnType.numeric 20 8).assign (.number (ask.toRat - bid.toRat))
      = some (.number (((ask.raw.toInt - bid.raw.toInt : ℤ) : ℚ) / 10 ^ 8)) := by
  have hbound := bid.raw.toInt_lt
  have hbound' := ask.raw.toInt_lt
  have hdifference : ask.toRat - bid.toRat
      = ((ask.raw.toInt - bid.raw.toInt : ℤ) : ℚ) / 10 ^ 8 := by
    unfold Decimal.toRat
    rw [Int.cast_sub, sub_div]
  rw [hdifference]
  exact ColumnType.assign_numeric (by omega)

theorem imbalance_passes {d : Decimal} (hlow : -10 ^ 8 ≤ d.raw.toInt)
    (hhigh : d.raw.toInt ≤ 10 ^ 8) :
    Truth.Passes ((Value.number d.toRat).between (.number (-1)) (.number 1)) := by
  have hlow : ((-10 ^ 8 : ℤ) : ℚ) ≤ d.raw.toInt := Int.cast_le.mpr hlow
  have hhigh : (d.raw.toInt : ℚ) ≤ ((10 ^ 8 : ℤ) : ℚ) := Int.cast_le.mpr hhigh
  push_cast at hlow hhigh
  show Truth.Passes (Truth.and (some (decide (-1 ≤ d.toRat))) (some (decide (d.toRat ≤ 1))))
  rw [Truth.passes_and, Truth.passes_some, Truth.passes_some, decide_eq_true_eq,
    decide_eq_true_eq]
  unfold Decimal.toRat
  constructor
  · rw [le_div_iff₀ (by norm_num)]
    linarith
  · rw [div_le_iff₀ (by norm_num)]
    linarith

/-- **The table stores a valid snapshot as it is sent**, with the generated
columns. -/
theorem snapshot_stored {snapshot : Domain.OrderBookSnapshot} (h : snapshot.Accepted) (us : ℤ) :
    orderBookSnapshots.store (sentRecord snapshotColumns (snapshotRow us snapshot))
      = some (storedSnapshot us snapshot) := by
  refine Table.store_eq_some_iff.mpr ⟨?_, ?_, ?_, ?_⟩
  · intro c hgenerated
    -- every column that is sent takes what it is given
    cases c with
    | symbol => exact Identified.symbol_fits h.identified
    | source => exact Identified.source_fits h.identified
    | snapshotTime => rfl
    | bestBid => exact decimal_fits (by decide) snapshot.bestBid
    | bestAsk => exact decimal_fits (by decide) snapshot.bestAsk
    | imbalance => exact decimal_fits (by decide) snapshot.imbalance
    | totalBidVol => exact decimal_fits (by decide) snapshot.totalBidVolume
    | totalAskVol => exact decimal_fits (by decide) snapshot.totalAskVolume
    -- the server computes the other two
    | midPrice => cases hgenerated
    | spread => cases hgenerated
  · intro c expression hgenerated
    cases c with
    | midPrice =>
        rw [← Option.some.inj hgenerated]
        exact midPrice_fits h.bestBid h.bestAsk
    | spread =>
        rw [← Option.some.inj hgenerated]
        exact spread_fits h.bestBid h.bestAsk
    | _ => cases hgenerated
  · intro c hnull
    cases c <;> nofun
  · intro check hmem
    simp only [orderBookSnapshots, List.mem_cons, List.not_mem_nil, or_false] at hmem
    -- the checks of the table are among those of `validate`
    rcases hmem with rfl | rfl | rfl | rfl
    · exact Truth.passes_and.mpr ⟨zero_lt_passes h.bestBid, zero_lt_passes h.bestAsk⟩
    · exact le_passes h.not_crossed
    · exact imbalance_passes h.imbalance_lower h.imbalance_upper
    · exact Truth.passes_and.mpr ⟨zero_le_passes h.totalBidVolume, zero_le_passes h.totalAskVolume⟩

/-- **Validated quotes and snapshots fit the schema.**  Every one is sent as a
row, and the table stores what is sent, without rounding; of a snapshot it also
stores the mid price and the spread. -/
theorem validated_fits {platform : Platform} (h : Gregorian platform) :
    (∀ quote : Domain.Quote, quote.validate = .ok () →
      ∃ us, Sends platform quoteBatch quote (quoteRow us quote)
        ∧ quotes.store (sentRecord quoteColumns (quoteRow us quote))
          = some (sentRecord quoteColumns (quoteRow us quote)))
    ∧ ∀ snapshot : Domain.OrderBookSnapshot, snapshot.validate = .ok () →
      ∃ us, Sends platform snapshotBatch snapshot (snapshotRow us snapshot)
        ∧ orderBookSnapshots.store (sentRecord snapshotColumns (snapshotRow us snapshot))
          = some (storedSnapshot us snapshot) := by
  constructor
  · intro quote hvalid
    exact ⟨_, quote_sends hvalid (sentInstant_eq h quote.timestamp),
      quote_stored (Domain.Quote.validate_iff.mp hvalid) _⟩
  · intro snapshot hvalid
    have haccepted := Domain.OrderBookSnapshot.validate_iff.mp hvalid
    exact ⟨_, snapshot_sends haccepted.identified (sentInstant_eq h snapshot.snapshotTime),
      snapshot_stored haccepted _⟩

/-- The greatest ask that there is. -/
def widestSnapshot : Domain.OrderBookSnapshot where
  symbol := "IBM".toList
  source := "FEED".toList
  snapshotTime := 0
  bestBid := ⟨2⟩
  bestAsk := ⟨9223372036854775807⟩
  imbalance := ⟨-100000000⟩
  totalBidVolume := ⟨0⟩
  totalAskVolume := ⟨9223372036854775807⟩

/-- Its mid price is rounded up. -/
theorem validated_fits_widestSnapshot :
    (∃ us, Sends gregorianPlatform snapshotBatch widestSnapshot (snapshotRow us widestSnapshot)
      ∧ orderBookSnapshots.store (sentRecord snapshotColumns (snapshotRow us widestSnapshot))
        = some (storedSnapshot us widestSnapshot))
    ∧ storedSnapshot 0 widestSnapshot .midPrice = .number (4611686018427387905 / 10 ^ 8) := by
  constructor
  · exact (validated_fits gregorianPlatform_gregorian).2 widestSnapshot (by decide +kernel)
  · decide +kernel

/-! ## §3. Instruments and data sources. -/

/-- A text that reaches the server whole. -/
structure Clean (s : Str) : Prop where
  no_nul : Char.ofNat 0 ∉ s
  utf8 : ValidUtf8 s

/-- Nothing but spaces. -/
def Blank (s : Str) : Prop := ∀ c ∈ s, c = ' '

theorem isNotBlank_passes_iff {s : Str} :
    Truth.Passes (Value.isNotBlank (.text s)) ↔ ¬ Blank s := by
  show Truth.Passes (some (decide (btrim s ≠ []))) ↔ _
  rw [Truth.passes_some, decide_eq_true_eq, Ne, btrim_eq_nil_iff]
  rfl

/-- The table takes the row of an instrument. -/
def InstrumentTaken (instrument : Instrument) : Prop :=
  ∃ sent, fincoreUpsertInstrument.record (instrumentParameters instrument) = some sent
    ∧ (instruments.store sent).isSome = true

/-- The table takes the row of a data source. -/
def DataSourceTaken (source : DataSource) : Prop :=
  ∃ sent, fincoreUpsertDataSource.record (dataSourceParameters source) = some sent
    ∧ (dataSources.store sent).isSome = true

theorem assetClass_fits (assetClass : AssetClass) :
    (ColumnType.varchar 20).assign (.text assetClass.toString)
      = some (.text assetClass.toString) := by
  cases assetClass <;> rfl

theorem instrument_taken_iff {instrument : Instrument} (h : instrument.Accepted)
    (hname : Clean instrument.name) (hexchange : Clean instrument.exchange) :
    InstrumentTaken instrument ↔ ¬ Blank instrument.name := by
  have hsymbol := identifier_upper symbol_extra h.symbol_upper
  have hlower := h.tickSizeDecimals_lower
  have hupper := h.tickSizeDecimals_upper
  have hdecimals : ColumnType.smallint.assign (.integer instrument.tickSizeDecimals.toInt)
      = some (.integer instrument.tickSizeDecimals.toInt) := if_pos (by omega)
  -- each column takes its value unchanged
  have hassign : ∀ c, (instruments.type c).assign (instrumentRecord instrument c)
      = some (instrumentRecord instrument c) := by
    intro c
    cases c with
    | symbol => exact ColumnType.assign_varchar hsymbol.1 h.symbol_length
    | name => exact ColumnType.assign_varchar hname.utf8 h.name_length
    | assetClass => exact assetClass_fits instrument.assetClass
    | exchange => exact ColumnType.assign_varchar hexchange.utf8 h.exchange_length
    | tickSizeDecimals => exact hdecimals
    | isActive => rfl
  have hnull : ∀ c, instruments.nullable c = false → instrumentRecord instrument c ≠ .null := by
    intro c _
    cases c <;> nofun
  have hrecord := instrument_record (identifier_no_nul (by decide) h.symbol_upper) hname.no_nul
    hexchange.no_nul
  -- what is left are the table's own checks
  have hstore := Table.store_isSome_iff (fun _ => rfl) hassign hnull
  unfold InstrumentTaken
  simp only [hrecord, Option.some.injEq, exists_eq_left']
  rw [hstore]
  simp only [instruments, List.forall_mem_cons, List.not_mem_nil, false_implies, implies_true,
    and_true]
  constructor
  · rintro ⟨_, hblank, _⟩
    exact isNotBlank_passes_iff.mp hblank
  · intro hblank
    refine ⟨identifier_match symbol_extra h.symbol_upper, isNotBlank_passes_iff.mpr hblank, ?_, ?_⟩
    · show Truth.Passes (Value.onText _ (.text instrument.assetClass.toString))
      cases instrument.assetClass <;> decide
    · show Truth.Passes (Truth.and (some (decide (0 ≤ instrument.tickSizeDecimals.toInt)))
        (some (decide (instrument.tickSizeDecimals.toInt ≤ 8))))
      rw [Truth.passes_and, Truth.passes_some, Truth.passes_some, decide_eq_true_eq,
        decide_eq_true_eq]
      exact ⟨hlower, hupper⟩

theorem optionalText_fits {type : ColumnType} {s : Option Str}
    (h : ∀ t, s = some t → type.assign (.text t) = some (.text t)) :
    type.assign (optionalText s).toValue = some (optionalText s).toValue := by
  cases s with
  | none => exact ColumnType.assign_null type
  | some t => exact h t rfl

theorem dataSource_taken_iff {source : DataSource} (h : source.Accepted)
    (hname : Clean source.displayName) (hurl : ∀ url, source.baseUrl = some url → Clean url) :
    DataSourceTaken source ↔ ¬ Blank source.displayName := by
  have hcode := identifier_upper source_extra h.code_upper
  have hassign : ∀ c, (dataSources.type c).assign (dataSourceRecord source c)
      = some (dataSourceRecord source c) := by
    intro c
    cases c with
    | code => exact ColumnType.assign_varchar hcode.1 h.code_length
    | displayName => exact ColumnType.assign_varchar hname.utf8 h.displayName_length
    | baseUrl =>
        exact optionalText_fits (fun url hsome => ColumnType.assign_text (hurl url hsome).utf8)
    | isActive => rfl
  have hnull : ∀ c, dataSources.nullable c = false → dataSourceRecord source c ≠ .null := by
    intro c hnull
    cases c with
    | baseUrl => cases hnull
    | _ => nofun
  have hrecord := dataSource_record (identifier_no_nul (by decide) h.code_upper) hname.no_nul
    (fun url hsome => (hurl url hsome).no_nul)
  -- every column fits, so the checks decide
  have hstore := Table.store_isSome_iff (fun _ => rfl) hassign hnull
  unfold DataSourceTaken
  simp only [hrecord, Option.some.injEq, exists_eq_left']
  rw [hstore]
  simp only [dataSources, List.forall_mem_cons, List.not_mem_nil, false_implies, implies_true,
    and_true]
  constructor
  · rintro ⟨_, hblank⟩
    exact isNotBlank_passes_iff.mp hblank
  · intro hblank
    exact ⟨identifier_match source_extra h.code_upper, isNotBlank_passes_iff.mpr hblank⟩

/-! ## §4. Ticks and indicators. -/

/-- The record is sent as a row that the table takes. -/
def Taken {R C : Type} [DecidableEq C] (platform : Platform) (kind : BatchKind R)
    (columns : List C) (table : Table C) (record : R) : Prop :=
  ∃ row, Sends platform kind record row ∧ (table.store (sentRecord columns row)).isSome = true

theorem taken_iff {R C : Type} [DecidableEq C] {platform : Platform} {kind : BatchKind R}
    {columns : List C} {table : Table C} {record : R} {row : Row}
    (h : Sends platform kind record row) :
    Taken platform kind columns table record
      ↔ (table.store (sentRecord columns row)).isSome = true := by
  constructor
  · rintro ⟨row', hrow', htaken⟩
    rw [Sends.unique h hrow']
    exact htaken
  · intro htaken
    exact ⟨row, h, htaken⟩

theorem side_fits (side : TradeSide) :
    (ColumnType.character 1).assign (.text [side.toChar]) = some (.text [side.toChar]) := by
  cases side <;> rfl

/-- The check on an optional text: NULL, or not blank. -/
theorem nullOrNotBlank_passes_iff {s : Option Str} :
    Truth.Passes (Truth.or (optionalText s).toValue.isNull (optionalText s).toValue.isNotBlank)
      ↔ ∀ t, s = some t → ¬ Blank t := by
  cases s with
  | none =>
      simp only [reduceCtorEq, false_implies, implies_true, iff_true]
      decide
  | some t =>
      simp only [Option.some.injEq, forall_eq']
      show Truth.Passes (Truth.or (some false) (Value.isNotBlank (.text t))) ↔ _
      rw [Truth.or_false]
      exact isNotBlank_passes_iff

theorem tick_taken_iff {platform : Platform} (hplatform : Gregorian platform) {tick : Tick}
    (h : tick.Accepted) (hclean : ∀ tradeId, tick.tradeId = some tradeId → Clean tradeId) :
    Taken platform tickBatch tickColumns ticks tick
      ↔ ∀ tradeId, tick.tradeId = some tradeId → ¬ Blank tradeId := by
  have hsends := tick_sends h.identified (fun tradeId hsome => (hclean tradeId hsome).no_nul)
    (sentInstant_eq hplatform tick.timestamp)
  rw [taken_iff hsends, Table.store_isSome_iff (fun _ => rfl)]
  · simp only [ticks, List.forall_mem_cons, List.not_mem_nil, false_implies, implies_true,
      and_true]
    constructor
    · rintro ⟨_, _, _, hpasses⟩
      exact nullOrNotBlank_passes_iff.mp hpasses
    · intro hblank
      -- the blank trade id is the one check that `validate` does not make
      refine ⟨zero_lt_passes h.price, zero_lt_passes h.size, ?_,
        nullOrNotBlank_passes_iff.mpr hblank⟩
      show Truth.Passes (Value.onText _ (.text [tick.side.toChar]))
      cases tick.side <;> decide
  · intro c
    cases c with
    | symbol => exact Identified.symbol_fits h.identified
    | source => exact Identified.source_fits h.identified
    | timestamp => rfl
    | tradeId =>
        exact optionalText_fits (fun tradeId hsome =>
          ColumnType.assign_varchar (hclean tradeId hsome).utf8 (h.tradeId_length tradeId hsome))
    | price => exact decimal_fits (by decide) tick.price
    | size => exact decimal_fits (by decide) tick.size
    | side => exact side_fits tick.side
  · intro c hnull
    cases c with
    | tradeId => cases hnull
    | _ => nofun

/-- The server reads the text as a JSON object. -/
def IsObject (platform : Platform) (parametersJson : Str) : Prop :=
  ∃ json, platform.jsonb parametersJson = some json ∧ json.head? = some '\x7b'

theorem indicator_taken_iff {platform : Platform} (hplatform : Gregorian platform)
    {indicator : TechnicalIndicator} (h : indicator.Accepted)
    (hclean : Clean indicator.parametersJson) :
    Taken platform indicatorBatch indicatorColumns technicalIndicators indicator
      ↔ IsObject platform indicator.parametersJson := by
  have hwhole := cStr_eq_self hclean.no_nul
  -- sent with a document, the row is taken if that is an object
  have htaken : ∀ json, platform.jsonb indicator.parametersJson = some json →
      (Taken platform indicatorBatch indicatorColumns technicalIndicators indicator
        ↔ json.head? = some '\x7b') := by
    intro json hjson
    have hsends := indicator_sends h.identified h.indicatorName_upper
      (sentInstant_eq hplatform indicator.timestamp) (hwhole.symm ▸ hjson)
    rw [taken_iff hsends, Table.store_isSome_iff (fun _ => rfl)]
    · simp only [technicalIndicators, List.forall_mem_cons, List.not_mem_nil, false_implies,
        implies_true, and_true]
      have hobject : Truth.Passes (Value.isJsonObject (.json json))
          ↔ json.head? = some '\x7b' := by
        show Truth.Passes (some (decide _)) ↔ _
        rw [Truth.passes_some, decide_eq_true_eq]
      constructor
      · rintro ⟨_, hpasses⟩
        exact hobject.mp hpasses
      · intro hhead
        exact ⟨identifier_match name_extra h.indicatorName_upper, hobject.mpr hhead⟩
    · intro c
      cases c with
      | symbol => exact Identified.symbol_fits h.identified
      | source => exact Identified.source_fits h.identified
      | indicatorName =>
          exact ColumnType.assign_varchar (identifier_upper name_extra h.indicatorName_upper).1
            h.indicatorName_length
      | timestamp => rfl
      | value => exact decimal_fits (by decide) indicator.value
      | parameters => rfl
    · intro c _
      cases c <;> nofun
  constructor
  · intro htake
    obtain ⟨row, hsends, _⟩ := id htake
    obtain ⟨json, hjson⟩ := indicator_sends_json hsends
    rw [hwhole] at hjson
    exact ⟨json, hjson, (htaken json hjson).mp htake⟩
  · rintro ⟨json, hjson, hhead⟩
    exact (htaken json hjson).mpr hhead

/-- **When validated metadata, ticks and indicators fit the schema.**  Names and
trade ids must not be blank, and the parameters of an indicator must be a JSON
object; everything else the tables ask for is validated. -/
theorem metadata_fits_iff {platform : Platform} (h : Gregorian platform) :
    (∀ instrument : Instrument, instrument.validate = .ok () → Clean instrument.name →
      Clean instrument.exchange → (InstrumentTaken instrument ↔ ¬ Blank instrument.name))
    ∧ (∀ source : DataSource, source.validate = .ok () → Clean source.displayName →
      (∀ url, source.baseUrl = some url → Clean url) →
      (DataSourceTaken source ↔ ¬ Blank source.displayName))
    ∧ (∀ tick : Tick, tick.validate = .ok () →
      (∀ tradeId, tick.tradeId = some tradeId → Clean tradeId) →
      (Taken platform tickBatch tickColumns ticks tick
        ↔ ∀ tradeId, tick.tradeId = some tradeId → ¬ Blank tradeId))
    ∧ ∀ indicator : TechnicalIndicator, indicator.validate = .ok () →
      Clean indicator.parametersJson →
      (Taken platform indicatorBatch indicatorColumns technicalIndicators indicator
        ↔ IsObject platform indicator.parametersJson) := by
  refine ⟨?_, ?_, ?_, ?_⟩
  · intro instrument hvalid
    exact instrument_taken_iff (Instrument.validate_iff.mp hvalid)
  · intro source hvalid
    exact dataSource_taken_iff (DataSource.validate_iff.mp hvalid)
  · intro tick hvalid
    exact tick_taken_iff h (Tick.validate_iff.mp hvalid)
  · intro indicator hvalid
    exact indicator_taken_iff h (TechnicalIndicator.validate_iff.mp hvalid)

/-- A listed instrument under a name. -/
def named (name : Str) : Instrument where
  symbol := "IBM".toList
  name := name
  exchange := "NYSE".toList
  tickSizeDecimals := 2

/-- A trade with an id. -/
def identifiedTick (tradeId : Str) : Tick where
  symbol := "IBM".toList
  source := "FEED".toList
  timestamp := 0
  tradeId := some tradeId
  price := ⟨1⟩
  size := ⟨1⟩

def indicatorWith (parametersJson : Str) : TechnicalIndicator where
  symbol := "IBM".toList
  source := "FEED".toList
  indicatorName := "RSI".toList
  timestamp := 0
  value := ⟨-1⟩
  parametersJson := parametersJson

instance (s : Str) : Decidable (Blank s) := List.decidableBAll (fun c => c = ' ') s

theorem metadata_fits_iff_samples :
    InstrumentTaken (named "IBM Corp".toList)
    ∧ Taken gregorianPlatform tickBatch tickColumns ticks (identifiedTick "7".toList)
    ∧ Taken gregorianPlatform indicatorBatch indicatorColumns technicalIndicators
      (indicatorWith "\x7b\x7d".toList) := by
  obtain ⟨hinstrument, _, htick, hindicator⟩ := metadata_fits_iff gregorianPlatform_gregorian
  refine ⟨?_, ?_, ?_⟩
  · exact (hinstrument (named "IBM Corp".toList) (by decide) ⟨by decide, by decide⟩
      ⟨by decide, by decide⟩).mpr (by decide)
  · refine (htick (identifiedTick "7".toList) (by decide) ?_).mpr ?_
    · rintro tradeId ⟨⟩
      exact ⟨by decide, by decide⟩
    · rintro tradeId ⟨⟩
      decide
  · exact (hindicator (indicatorWith "\x7b\x7d".toList) (by decide) ⟨by decide, by decide⟩).mpr
      ⟨_, rfl, rfl⟩

/-- A blank name, a blank trade id and a JSON array are valid, and refused. -/
theorem validated_refused :
    ((named " ".toList).validate = .ok () ∧ ¬ InstrumentTaken (named " ".toList))
    ∧ ((identifiedTick " ".toList).validate = .ok ()
      ∧ ¬ Taken gregorianPlatform tickBatch tickColumns ticks (identifiedTick " ".toList))
    ∧ (indicatorWith "[]".toList).validate = .ok ()
      ∧ ¬ Taken gregorianPlatform indicatorBatch indicatorColumns technicalIndicators
        (indicatorWith "[]".toList) := by
  refine ⟨⟨by decide, ?_⟩, ⟨by decide, ?_⟩, by decide, ?_⟩
  · rw [instrument_taken_iff (Instrument.validate_iff.mp (by decide)) ⟨by decide, by decide⟩
      ⟨by decide, by decide⟩, not_not]
    decide
  · rw [tick_taken_iff gregorianPlatform_gregorian (Tick.validate_iff.mp (by decide))]
    · intro hblank
      exact hblank " ".toList rfl (by decide)
    · rintro tradeId ⟨⟩
      exact ⟨by decide, by decide⟩
  · rw [indicator_taken_iff gregorianPlatform_gregorian
      (TechnicalIndicator.validate_iff.mp (by decide)) ⟨by decide, by decide⟩]
    rintro ⟨json, hjson, hhead⟩
    rw [← Option.some.inj hjson] at hhead
    exact absurd hhead (by decide)

end FinCore.Storage

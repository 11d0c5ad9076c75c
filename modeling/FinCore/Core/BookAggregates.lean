/-
  FinCore.Core.BookAggregates
  ───────────────────────────
  The totals and the imbalance of a book against the sums of its level volumes.

  The totals are summed in 64 bits.  Every reachable book has levels of positive
  volume only, so the imbalance tells which sides are empty as long as neither
  sum wraps.  A snapshot computes the imbalance once more, from the sum of the
  two totals as integers; §4 decides when the two figures agree.
-/
import FinCore.Core.BookFrame

namespace FinCore

open FinCore.Cxx

/-! ## §1. Volumes of a side. -/

/-- The sum of the volumes, as a natural number. -/
def volumeSum (levels : List (Price × Volume)) : ℕ := (levels.map fun level => level.2.toNat).sum

/-- No level has volume zero. -/
def Filled (levels : List (Price × Volume)) : Prop := ∀ level ∈ levels, level.2 ≠ 0

/-- Adding up from `total` in 64 bits. -/
theorem foldl_volume_toNat (levels : List (Price × Volume)) :
    ∀ total : Volume, (levels.foldl (fun total e => total + e.2) total).toNat
      = (total.toNat + volumeSum levels) % 2 ^ 64 := by
  induction levels with
  | nil =>
      intro total
      have hlt : total.toNat < 2 ^ 64 := total.toNat_lt
      show total.toNat = (total.toNat + 0) % 2 ^ 64
      omega
  | cons level levels ih =>
      intro total
      show (levels.foldl (fun total e => total + e.2) (total + level.2)).toNat
        = (total.toNat + (level.2.toNat + volumeSum levels)) % 2 ^ 64
      rw [ih, UInt64.toNat_add]
      omega

theorem totalVolume_toNat {lt : Price → Price → Bool} (levels : Levels lt) :
    (OrderBook.totalVolume levels).toNat = volumeSum levels.entries % 2 ^ 64 := by
  have hfold := foldl_volume_toNat levels.entries 0
  rw [show (0 : Volume).toNat = 0 from rfl, Nat.zero_add] at hfold
  exact hfold

/-- A side whose levels have volumes sums to zero only when it is empty. -/
theorem Filled.sum_eq_zero_iff {levels : List (Price × Volume)} (h : Filled levels) :
    volumeSum levels = 0 ↔ levels = [] := by
  cases levels with
  | nil => exact ⟨fun _ => rfl, fun _ => rfl⟩
  | cons level levels =>
      have hne : level.2.toNat ≠ 0 := by
        intro hzero
        exact h level List.mem_cons_self (UInt64.toNat_inj.mp hzero)
      have hsum : volumeSum (level :: levels) = level.2.toNat + volumeSum levels := rfl
      constructor
      · intro hzero
        omega
      · intro hnil
        cases hnil

/-! ## §2. Reachable books have filled levels. -/

section Side

variable {lt : Price → Price → Bool}

/-- What is stored after an assignment is the new volume or an old level. -/
theorem mem_assignEntries_volume {price : Price} {volume : Volume} {es : List (Price × Volume)}
    {level : Price × Volume} (h : level ∈ OrderedMap.assignEntries lt price volume es) :
    level.2 = volume ∨ level ∈ es := by
  induction es with
  | nil =>
      rw [OrderedMap.assignEntries, List.mem_singleton] at h
      exact Or.inl (by rw [h])
  | cons first es ih =>
      obtain ⟨p, v⟩ := first
      rw [OrderedMap.assignEntries] at h
      split at h
      · -- past a smaller price
        rcases List.mem_cons.mp h with rfl | h
        · exact Or.inr List.mem_cons_self
        · exact (ih h).imp_right (List.mem_cons_of_mem _)
      · split at h
        · rcases List.mem_cons.mp h with rfl | h
          · exact Or.inl rfl
          · exact Or.inr h
        · rcases List.mem_cons.mp h with rfl | h
          · exact Or.inl rfl
          · exact Or.inr (List.mem_cons_of_mem _ h)

variable [Comparator lt]

/-- Whatever the price is, a call stores no volume zero. -/
theorem setLevel_filled (what : Str) (price : Price) (volume : Volume) {levels : Levels lt}
    (h : Filled levels.entries) : Filled (setLevel what price volume levels).2.entries := by
  unfold setLevel
  split
  · exact h
  · split
    next => exact fun level hlevel => h level (List.mem_filter.mp hlevel).1
    next hv =>
      intro level hlevel
      rcases mem_assignEntries_volume hlevel with hvolume | hold
      · rw [hvolume]
        exact hv
      · exact h level hold

theorem setLevels_filled (what : Str) (es : List (Price × Volume)) :
    ∀ {levels : Levels lt}, Filled levels.entries →
      Filled (setLevels what es levels).2.entries := by
  induction es with
  | nil => exact fun h => h
  | cons level es ih =>
      intro levels h
      obtain ⟨price, volume⟩ := level
      have hstep := setLevel_filled what price volume h
      rw [setLevels, Action.bind_run]
      rcases hrun : setLevel what price volume levels with ⟨r, after⟩
      rw [hrun] at hstep
      cases r with
      | ok _ => exact ih hstep
      | error _ => exact hstep

theorem filled_nil : Filled [] := fun _ h => absurd h List.not_mem_nil

theorem replaceLevels_filled (what : Str) (new : Levels Double.lt) (levels : Levels lt) :
    Filled (replaceLevels what new levels).2.entries := by
  have hempty : Filled (OrderedMap.empty : Levels lt).entries := filled_nil
  exact setLevels_filled what new.entries hempty

end Side

namespace OrderBook

/-- **What one call preserves**, with any price and any volume. -/
theorem apply_filled (op : BookOp) {book : OrderBook} (h : ∀ side, Filled (book.levels side)) :
    ∀ side, Filled ((op.apply book).2.levels side) := by
  intro side
  cases op with
  | setBid price volume =>
      cases side with
      | bid => exact setLevel_filled setBidWhat price volume (h .bid)
      | ask => exact h .ask
  | setAsk price volume =>
      cases side with
      | bid => exact h .bid
      | ask => exact setLevel_filled setAskWhat price volume (h .ask)
  | replaceBids levels =>
      cases side with
      | bid => exact replaceLevels_filled setBidWhat levels book.bids
      | ask => exact h .ask
  | replaceAsks levels =>
      cases side with
      | bid => exact h .bid
      | ask => exact replaceLevels_filled setAskWhat levels book.asks
  | clear => cases side <;> exact filled_nil

theorem run_filled (ops : List BookOp) :
    ∀ {book : OrderBook}, (∀ side, Filled (book.levels side)) →
      ∀ side, Filled ((run ops book).levels side) := by
  induction ops with
  | nil => exact fun h => h
  | cons op ops ih =>
      intro book h
      show ∀ side, Filled ((run ops (op.apply book).2).levels side)
      exact ih (apply_filled op h)

theorem create_run_filled {symbol : Symbol} {book₀ : OrderBook}
    (hnew : create symbol = .ok book₀) (ops : List BookOp) :
    ∀ side, Filled ((run ops book₀).levels side) := by
  refine run_filled ops ?_
  intro side
  rw [create_levels hnew side]
  exact filled_nil

/-! ## §3. The imbalance. -/

/-- `imbalance()` in terms of the two totals; an empty denominator gives zero,
as division does. -/
theorem imbalance_eq (book : OrderBook) :
    book.imbalance = .finite (((book.totalBidVolume.toNat : ℚ) - book.totalAskVolume.toNat)
      / (book.totalBidVolume.toNat + book.totalAskVolume.toNat)) := by
  unfold imbalance
  simp only [Double.ofNat, Double.add, Double.sub, Double.neg, Double.eq, Double.div,
    Double.finite.injEq, decide_eq_true_eq]
  by_cases hzero : (book.totalBidVolume.toNat : ℚ) + book.totalAskVolume.toNat = 0
  · rw [if_pos hzero, hzero, div_zero]
  · rw [if_neg hzero, if_neg hzero, sub_eq_add_neg]

section Ratio

variable (b a : ℕ)

theorem ratio_bounds : -1 ≤ ((b : ℚ) - a) / (b + a) ∧ ((b : ℚ) - a) / (b + a) ≤ 1 := by
  have hb : (0 : ℚ) ≤ b := Nat.cast_nonneg b
  have ha : (0 : ℚ) ≤ a := Nat.cast_nonneg a
  by_cases hzero : (b : ℚ) + a = 0
  · rw [hzero, div_zero]
    norm_num
  · have hpos : (0 : ℚ) < b + a := lt_of_le_of_ne (add_nonneg hb ha) (Ne.symm hzero)
    constructor
    · rw [le_div_iff₀ hpos]
      linarith
    · rw [div_le_iff₀ hpos]
      linarith

theorem ratio_eq_one_iff : ((b : ℚ) - a) / (b + a) = 1 ↔ b ≠ 0 ∧ a = 0 := by
  by_cases hzero : b + a = 0
  · have hb : b = 0 := by omega
    have ha : a = 0 := by omega
    subst hb ha
    norm_num
  · have hne : (b : ℚ) + a ≠ 0 := by exact_mod_cast hzero
    rw [div_eq_one_iff_eq hne]
    constructor
    · intro h
      have ha : (a : ℚ) = 0 := by linarith
      have ha' : a = 0 := by exact_mod_cast ha
      omega
    · intro ⟨_, ha⟩
      rw [ha]
      norm_num

theorem ratio_eq_neg_one_iff : ((b : ℚ) - a) / (b + a) = -1 ↔ b = 0 ∧ a ≠ 0 := by
  have hswap : ((b : ℚ) - a) / (b + a) = -(((a : ℚ) - b) / (a + b)) := by
    rw [← neg_div, neg_sub, add_comm (a : ℚ)]
  rw [hswap, neg_inj, ratio_eq_one_iff, and_comm]

theorem ratio_eq_zero_iff : ((b : ℚ) - a) / (b + a) = 0 ↔ b = a := by
  by_cases hzero : b + a = 0
  · have hb : b = 0 := by omega
    have ha : a = 0 := by omega
    subst hb ha
    norm_num
  · have hne : (b : ℚ) + a ≠ 0 := by exact_mod_cast hzero
    rw [div_eq_zero_iff, or_iff_left hne, sub_eq_zero, Nat.cast_inj]

end Ratio

/-- The aggregates are those of the level volumes. -/
structure Exact (book : OrderBook) : Prop where
  totalBid : book.totalBidVolume.toNat = volumeSum (book.levels .bid)
  totalAsk : book.totalAskVolume.toNat = volumeSum (book.levels .ask)
  imbalance : book.imbalance
    = .finite (((volumeSum (book.levels .bid) : ℚ) - volumeSum (book.levels .ask))
        / (volumeSum (book.levels .bid) + volumeSum (book.levels .ask)))
  lower : Double.le (.finite (-1)) book.imbalance = true
  upper : Double.le book.imbalance (.finite 1) = true
  one_iff : book.imbalance = .finite 1 ↔ book.levels .bid ≠ [] ∧ book.levels .ask = []
  neg_one_iff : book.imbalance = .finite (-1) ↔ book.levels .bid = [] ∧ book.levels .ask ≠ []
  zero_iff : book.imbalance = .finite 0
    ↔ volumeSum (book.levels .bid) = volumeSum (book.levels .ask)

theorem le_finite_iff {p q : ℚ} : Double.le (.finite p) (.finite q) = true ↔ p ≤ q := by
  rw [Double.le_iff (a := .finite p) (b := .finite q) nofun nofun, le_iff_lt_or_eq]
  show decide (p < q) = true ∨ Double.finite p = Double.finite q ↔ _
  rw [decide_eq_true_eq, Double.finite.injEq]

/-- **Exact aggregates**, as long as neither sum leaves 64 bits. -/
theorem exact_of_lt {book : OrderBook} (hfilled : ∀ side, Filled (book.levels side))
    (hbids : volumeSum (book.levels .bid) < 2 ^ 64)
    (hasks : volumeSum (book.levels .ask) < 2 ^ 64) : book.Exact := by
  have hb : book.totalBidVolume.toNat = volumeSum (book.levels .bid) :=
    (totalVolume_toNat book.bids).trans (Nat.mod_eq_of_lt hbids)
  have ha : book.totalAskVolume.toNat = volumeSum (book.levels .ask) :=
    (totalVolume_toNat book.asks).trans (Nat.mod_eq_of_lt hasks)
  have himbalance := imbalance_eq book
  -- with both totals exact the imbalance is their ratio
  rw [hb, ha] at himbalance
  obtain ⟨hlower, hupper⟩ := ratio_bounds (volumeSum (book.levels .bid))
    (volumeSum (book.levels .ask))
  have hbid := (hfilled .bid).sum_eq_zero_iff
  have hask := (hfilled .ask).sum_eq_zero_iff
  exact {
    totalBid := hb
    totalAsk := ha
    imbalance := himbalance
    lower := by
      rw [himbalance]
      exact le_finite_iff.mpr hlower
    upper := by
      rw [himbalance]
      exact le_finite_iff.mpr hupper
    one_iff := by
      rw [himbalance, Double.finite.injEq, ratio_eq_one_iff, ne_eq, hbid, hask]
    neg_one_iff := by
      rw [himbalance, Double.finite.injEq, ratio_eq_neg_one_iff, ne_eq, hbid, hask]
    zero_iff := by
      rw [himbalance, Double.finite.injEq, ratio_eq_zero_iff] }

/-- **When the aggregates of a reachable book are exact.** -/
theorem run_exact_iff {symbol : Symbol} {book₀ : OrderBook} (hnew : create symbol = .ok book₀)
    (ops : List BookOp) :
    (run ops book₀).Exact
      ↔ volumeSum ((run ops book₀).levels .bid) < 2 ^ 64
        ∧ volumeSum ((run ops book₀).levels .ask) < 2 ^ 64 := by
  constructor
  · intro h
    rw [← h.totalBid, ← h.totalAsk]
    exact ⟨UInt64.toNat_lt _, UInt64.toNat_lt _⟩
  · intro ⟨hbids, hasks⟩
    exact exact_of_lt (create_run_filled hnew ops) hbids hasks

theorem run_exact_cleanCalls : (run cleanCalls newBook).Exact :=
  (run_exact_iff (rfl : create "AAPL".toList = .ok newBook) cleanCalls).mpr
    ⟨by decide +kernel, by decide +kernel⟩

/-- Two bids whose volumes add up to `2 ^ 64`. -/
def hugeBids : List BookOp :=
  [.setBid (.finite 100) (2 ^ 63), .setBid (.finite 99) (2 ^ 63)]

/-- The total wraps to zero, and a book with bids only has imbalance zero. -/
theorem hugeBids_not_exact :
    create "AAPL".toList = .ok newBook
    ∧ (run hugeBids newBook).totalBidVolume = 0
    ∧ (run hugeBids newBook).imbalance = .finite 0
    ∧ (run hugeBids newBook).levels .ask = []
    ∧ ¬ (run hugeBids newBook).Exact := by
  refine ⟨rfl, by decide +kernel, by decide +kernel, rfl, ?_⟩
  intro h
  have hone := h.one_iff.mpr ⟨by decide +kernel, rfl⟩
  exact absurd hone (by decide +kernel)

end OrderBook

/-! ## §4. Recomputing a snapshot. -/

namespace OrderBookSnapshot

/-- A valid snapshot has prices on both sides. -/
theorem valid_sides {book : OrderBook} {now at_ : TimePoint}
    (h : (book.snapshot now at_).isValid = true) :
    ∃ bid ask, book.bestBid = some bid ∧ book.bestAsk = some ask := by
  unfold isValid at h
  simp only [Bool.and_eq_true] at h
  obtain ⟨⟨⟨⟨⟨_, hbid⟩, hask⟩, _⟩, _⟩, _⟩ := h
  have hbid' : (book.bestBid.getD (.finite 0)).gt (.finite 0) = true := hbid
  have hask' : (book.bestAsk.getD (.finite 0)).gt (.finite 0) = true := hask
  cases hb : book.bestBid with
  | none =>
      rw [hb] at hbid'
      exact absurd hbid' (by decide)
  | some bid =>
      cases ha : book.bestAsk with
      | none =>
          rw [ha] at hask'
          exact absurd hask' (by decide)
      | some ask => exact ⟨bid, ask, rfl, rfl⟩

theorem computedMid_eq {book : OrderBook} {now at_ : TimePoint}
    (h : (book.snapshot now at_).isValid = true) :
    (book.snapshot now at_).computedMid = (book.snapshot now at_).midPrice := by
  obtain ⟨bid, ask, hbid, hask⟩ := valid_sides h
  show ((book.bestBid.getD (.finite 0)).add (book.bestAsk.getD (.finite 0))).mul _
    = book.midPrice.getD (.finite 0)
  unfold OrderBook.midPrice
  rw [hbid, hask]
  rfl

theorem computedSpread_eq {book : OrderBook} {now at_ : TimePoint}
    (h : (book.snapshot now at_).isValid = true) :
    (book.snapshot now at_).computedSpread = (book.snapshot now at_).spread := by
  obtain ⟨bid, ask, hbid, hask⟩ := valid_sides h
  show (book.bestAsk.getD (.finite 0)).sub (book.bestBid.getD (.finite 0))
    = book.spread.getD (.finite 0)
  unfold OrderBook.spread
  rw [hbid, hask]
  rfl

/-- The recomputed imbalance over the two totals; the denominator wraps. -/
theorem computedImbalance_eq (s : OrderBookSnapshot) :
    s.computedImbalance = .finite (((s.totalBidVol.toNat : ℚ) - s.totalAskVol.toNat)
      / ((s.totalBidVol.toNat + s.totalAskVol.toNat) % 2 ^ 64 : ℕ)) := by
  unfold computedImbalance
  rw [UInt64.toNat_add]
  simp only [Double.ofNat, Double.add, Double.sub, Double.neg, Double.eq, Double.div,
    Double.finite.injEq, decide_eq_true_eq]
  split
  next hzero => rw [hzero, div_zero]
  next => rw [sub_eq_add_neg]

/-- Dividing by the wrapped sum changes the quotient, unless nothing wraps or
the numerator is zero. -/
theorem wrapped_ratio_iff {b a : ℕ} :
    ((b : ℚ) - a) / ((b + a) % 2 ^ 64 : ℕ) = ((b : ℚ) - a) / (b + a)
      ↔ b + a < 2 ^ 64 ∨ b = a := by
  by_cases hlt : b + a < 2 ^ 64
  · rw [Nat.mod_eq_of_lt hlt, Nat.cast_add]
    exact ⟨fun _ => Or.inl hlt, fun _ => rfl⟩
  · rw [or_iff_right hlt]
    constructor
    · intro h
      by_contra hne
      have hdiff : (b : ℚ) - a ≠ 0 := by
        intro hzero
        exact hne (by exact_mod_cast sub_eq_zero.mp hzero)
      -- equal quotients of one numerator have equal denominators
      have hinv := (mul_right_inj' hdiff).mp (h : _ * _⁻¹ = _ * _⁻¹)
      have hden : (((b + a) % 2 ^ 64 : ℕ) : ℚ) = ((b + a : ℕ) : ℚ) := by
        rw [inv_inj] at hinv
        rw [hinv, Nat.cast_add]
      have hden' : (b + a) % 2 ^ 64 = b + a := by exact_mod_cast hden
      have hmod : (b + a) % 2 ^ 64 < 2 ^ 64 := Nat.mod_lt _ (by norm_num)
      omega
    · intro h
      rw [h, sub_self, zero_div, zero_div]

/-- **When a valid snapshot recomputes to its own figures**: the totals, each
modulo `2 ^ 64`, add up without wrapping or are equal. -/
theorem computed_iff {book : OrderBook} {now at_ : TimePoint}
    (h : (book.snapshot now at_).isValid = true) :
    ((book.snapshot now at_).computedMid = (book.snapshot now at_).midPrice
      ∧ (book.snapshot now at_).computedSpread = (book.snapshot now at_).spread
      ∧ (book.snapshot now at_).computedImbalance = (book.snapshot now at_).imbalance)
    ↔ volumeSum (book.levels .bid) % 2 ^ 64 + volumeSum (book.levels .ask) % 2 ^ 64 < 2 ^ 64
      ∨ volumeSum (book.levels .bid) % 2 ^ 64 = volumeSum (book.levels .ask) % 2 ^ 64 := by
  have hbid : book.totalBidVolume.toNat = volumeSum (book.levels .bid) % 2 ^ 64 :=
    totalVolume_toNat book.bids
  have hask : book.totalAskVolume.toNat = volumeSum (book.levels .ask) % 2 ^ 64 :=
    totalVolume_toNat book.asks
  have hstored : (book.snapshot now at_).imbalance = _ := book.imbalance_eq
  have hcomputed : (book.snapshot now at_).computedImbalance
      = .finite (((book.totalBidVolume.toNat : ℚ) - book.totalAskVolume.toNat)
        / ((book.totalBidVolume.toNat + book.totalAskVolume.toNat) % 2 ^ 64 : ℕ)) :=
    computedImbalance_eq _
  rw [and_iff_right (computedMid_eq h), and_iff_right (computedSpread_eq h), hcomputed, hstored,
    Double.finite.injEq, wrapped_ratio_iff, hbid, hask]

/-- One level on each side. -/
def smallBook : OrderBook :=
  OrderBook.run [.setBid (.finite 100) 300, .setAsk (.finite 101) 100] OrderBook.newBook

theorem smallBook_computed :
    (smallBook.snapshot 1 0).computedMid = (smallBook.snapshot 1 0).midPrice
    ∧ (smallBook.snapshot 1 0).computedSpread = (smallBook.snapshot 1 0).spread
    ∧ (smallBook.snapshot 1 0).computedImbalance = (smallBook.snapshot 1 0).imbalance :=
  (computed_iff (by decide +kernel)).mpr (Or.inl (by decide +kernel))

/-- Totals whose sum leaves 64 bits; all figures are exact as doubles. -/
def hugeBook : OrderBook :=
  OrderBook.run [.setBid (.finite 100) (2 ^ 63), .setAsk (.finite 101) (2 ^ 63 + 2 ^ 62)]
    OrderBook.newBook

theorem hugeBook_computed :
    (hugeBook.snapshot 1 0).isValid = true
    ∧ (hugeBook.snapshot 1 0).imbalance = .finite (-1 / 5)
    ∧ (hugeBook.snapshot 1 0).computedImbalance = .finite (-1)
    ∧ (hugeBook.snapshot 1 0).computedImbalance ≠ (hugeBook.snapshot 1 0).imbalance := by
  refine ⟨by decide +kernel, by decide +kernel, by decide +kernel, by decide +kernel⟩

end OrderBookSnapshot

end FinCore

/-
  FinCore.Cli.SyntheticBook
  ─────────────────────────
  The shape of the book made from a quote, for every price and every volume.

  Both sides are cut from the same five steps away from the price, the bids from
  those still above zero; so the asks carry at least the volume of the bids, and
  together they stay far below the volume of the quote.
-/
import FinCore.Cli.Persistable

namespace FinCore.Cli

open FinCore.Cxx

namespace FinCoreCli

/-! ## §1. The steps of one side. -/

section Steps

variable (quote : FinCore.Quote) (price : ℕ → ℚ)

/-- The five levels one loop looks at. -/
def steps : List (Price × Volume) :=
  [1, 2, 3, 4, 5].map fun level => (.finite (price level), levelVolume quote level)

theorem mem_levels {level : ℕ} : level ∈ [1, 2, 3, 4, 5] ↔ 1 ≤ level ∧ level ≤ 5 := by
  simp only [List.mem_cons, List.not_mem_nil, or_false]
  omega

/-- The levels set are those of positive price and volume, and nothing else. -/
theorem mem_steps_iff (level : Price × Volume) :
    level ∈ (steps quote price).filter isSet
      ↔ ∃ k, (1 ≤ k ∧ k ≤ 5) ∧ level.1 = .finite (price k)
        ∧ level.2.toNat = quote.volume.toNat / 10 / k
        ∧ 0 < price k ∧ 0 < quote.volume.toNat / 10 / k := by
  have hvolume : ∀ k, 1 ≤ k ∧ k ≤ 5 →
      (levelVolume quote k).toNat = quote.volume.toNat / 10 / k := by
    intro k hk
    exact levelVolume_toNat quote (by omega)
  rw [List.mem_filter, steps, List.mem_map]
  constructor
  · intro ⟨⟨k, hk, hlevel⟩, hset⟩
    rw [mem_levels] at hk
    rw [← hlevel, isSet_iff, hvolume k hk] at hset
    refine ⟨k, hk, ?_, ?_, hset⟩
    · rw [← hlevel]
    · rw [← hlevel]
      exact hvolume k hk
  · intro ⟨k, hk, hprice, hlevel, hset⟩
    -- the price and the volume of a level determine it
    have heq : level = (.finite (price k), levelVolume quote k) := by
      refine Prod.ext hprice (UInt64.toNat_inj.mp ?_)
      rw [hlevel, hvolume k hk]
    refine ⟨⟨k, mem_levels.mpr hk, heq.symm⟩, ?_⟩
    rw [heq, isSet_iff, hvolume k hk]
    exact hset

/-- Away from the top the volumes do not increase. -/
theorem steps_volumes : ((steps quote price).filter isSet).Pairwise (fun a b => b.2 ≤ a.2) := by
  refine List.Pairwise.filter _ ?_
  rw [steps, List.pairwise_map]
  have hordered : [1, 2, 3, 4, 5].Pairwise (fun k k' : ℕ => 1 ≤ k ∧ k ≤ k' ∧ k' ≤ 5) := by
    decide
  refine hordered.imp ?_
  intro k k' ⟨hpos, hle, hmax⟩
  show levelVolume quote k' ≤ levelVolume quote k
  rw [UInt64.le_iff_toNat_le, levelVolume_toNat quote (by omega),
    levelVolume_toNat quote (by omega)]
  exact Nat.div_le_div_left hle hpos

/-- What one step adds to the total. -/
def stepVolume (level : ℕ) : ℕ :=
  if 0 < price level then quote.volume.toNat / 10 / level else 0

theorem volumeSum_filter (levels : List (Price × Volume)) :
    volumeSum (levels.filter isSet)
      = (levels.map fun level => if isSet level then level.2.toNat else 0).sum := by
  induction levels with
  | nil => rfl
  | cons level levels ih =>
      rw [List.filter_cons, List.map_cons, List.sum_cons, ← ih]
      cases isSet level with
      | true => rfl
      | false =>
          show volumeSum (levels.filter isSet) = 0 + volumeSum (levels.filter isSet)
          omega

theorem volumeSum_steps :
    volumeSum ((steps quote price).filter isSet)
      = ([1, 2, 3, 4, 5].map (stepVolume quote price)).sum := by
  rw [volumeSum_filter, steps, List.map_map]
  refine congrArg List.sum (List.map_congr_left ?_)
  intro level hlevel
  rw [mem_levels] at hlevel
  have hvolume := levelVolume_toNat quote (show level < 2 ^ 64 by omega)
  show (if isSet (.finite (price level), levelVolume quote level) then _ else 0) = _
  unfold stepVolume
  by_cases hprice : 0 < price level
  · rw [if_pos hprice]
    split
    next => exact hvolume
    next hset =>
      -- not set for lack of volume
      rw [isSet_iff, and_iff_right hprice, hvolume] at hset
      omega
  · rw [if_neg hprice, if_neg]
    rw [isSet_iff]
    exact fun h => hprice h.1

/-- Five steps come to less than half of the quote's volume. -/
theorem volumeSum_steps_le :
    volumeSum ((steps quote price).filter isSet) ≤ quote.volume.toNat / 2 := by
  have hstep : ∀ level, stepVolume quote price level ≤ quote.volume.toNat / 10 := by
    intro level
    unfold stepVolume
    split
    · exact Nat.div_le_self _ _
    · exact Nat.zero_le _
  have h₁ := hstep 1
  have h₂ := hstep 2
  have h₃ := hstep 3
  have h₄ := hstep 4
  have h₅ := hstep 5
  rw [volumeSum_steps]
  simp only [List.map_cons, List.map_nil, List.sum_cons, List.sum_nil]
  omega

/-- More positive prices, more volume. -/
theorem volumeSum_steps_mono {price price' : ℕ → ℚ}
    (h : ∀ level, 0 < price level → 0 < price' level) :
    volumeSum ((steps quote price).filter isSet)
      ≤ volumeSum ((steps quote price').filter isSet) := by
  rw [volumeSum_steps, volumeSum_steps]
  refine List.sum_le_sum ?_
  intro level _
  unfold stepVolume
  split
  next hprice => rw [if_pos (h level hprice)]
  next => exact Nat.zero_le _

end Steps

/-! ## §2. The book. -/

/-- A book cut from the price `p` and the volume `V`. -/
structure Synthetic (p : ℚ) (V : ℕ) (book : OrderBook) : Prop where
  bids : ∀ level, level ∈ book.levels .bid ↔ ∃ k : ℕ, (1 ≤ k ∧ k ≤ 5)
    ∧ level.1 = .finite (p - k / 100) ∧ level.2.toNat = V / 10 / k
    ∧ 0 < p - k / 100 ∧ 0 < V / 10 / k
  asks : ∀ level, level ∈ book.levels .ask ↔ ∃ k : ℕ, (1 ≤ k ∧ k ≤ 5)
    ∧ level.1 = .finite (p + k / 100) ∧ level.2.toNat = V / 10 / k
    ∧ 0 < p + k / 100 ∧ 0 < V / 10 / k
  /-- Uncrossed and centred, where both sides have levels. -/
  centred : book.levels .bid ≠ [] → book.levels .ask ≠ [] →
    ∃ bid ask, book.bestBid = some bid ∧ book.bestAsk = some ask ∧ bid.lt ask = true
      ∧ book.spread = some (.finite (1 / 50)) ∧ book.midPrice = some (.finite p)
  volumes : ∀ side, (book.levels side).Pairwise (fun a b => b.2 ≤ a.2)
  totalBid : book.totalBidVolume.toNat = volumeSum (book.levels .bid)
  totalAsk : book.totalAskVolume.toNat = volumeSum (book.levels .ask)
  totals : book.totalBidVolume ≤ book.totalAskVolume
  noWrap : volumeSum (book.levels .bid) + volumeSum (book.levels .ask) < 2 ^ 64
  imbalance : ∃ r : ℚ, book.imbalance = .finite r ∧ -1 ≤ r ∧ r ≤ 0

section Book

variable {quote : FinCore.Quote} {p : ℚ}

theorem rebuilt_bid_steps (hp : quote.price = .finite p) (before : OrderBook) :
    (rebuilt before quote).levels .bid
      = (steps quote fun level => p - level / 100).filter isSet :=
  (rebuilt_bids hp before).trans (by rw [bidLevels_eq hp, steps])

theorem rebuilt_ask_steps (hp : quote.price = .finite p) (before : OrderBook) :
    (rebuilt before quote).levels .ask
      = (steps quote fun level => p + level / 100).filter isSet :=
  (rebuilt_asks hp before).trans (by rw [askLevels_eq hp, steps])

/-- Neither total wraps, and the asks have at least the volume of the bids. -/
theorem rebuilt_volumes (hp : quote.price = .finite p) (before : OrderBook) :
    volumeSum ((rebuilt before quote).levels .bid) ≤ volumeSum ((rebuilt before quote).levels .ask)
    ∧ volumeSum ((rebuilt before quote).levels .ask) ≤ quote.volume.toNat / 2 := by
  rw [rebuilt_bid_steps hp, rebuilt_ask_steps hp]
  constructor
  · refine volumeSum_steps_mono quote ?_
    intro level hbid
    have hlevel : (0 : ℚ) ≤ level := Nat.cast_nonneg level
    show 0 < p + level / 100
    have hbid' : 0 < p - level / 100 := hbid
    linarith
  · exact volumeSum_steps_le quote _

/-- With levels on both sides the best ones are one tick from the price. -/
theorem rebuilt_centred (hp : quote.price = .finite p) (before : OrderBook)
    (hbids : (rebuilt before quote).levels .bid ≠ []) :
    (rebuilt before quote).bestBid = some (.finite (p - 1 / 100))
    ∧ (rebuilt before quote).bestAsk = some (.finite (p + 1 / 100)) := by
  have hbest := rebuilt_bestBid hp before
  have hset : 1 / 100 < p ∧ 10 ≤ quote.volume.toNat := by
    by_contra hnot
    rw [if_neg hnot] at hbest
    exact hbids (List.head?_eq_none_iff.mp (Option.map_eq_none_iff.mp hbest))
  have hpositive : 0 < p := by linarith [hset.1]
  rw [if_pos hset] at hbest
  rw [rebuilt_bestAsk hp hpositive, if_pos hset.2]
  exact ⟨hbest, rfl⟩

/-- The sides stand one tick above and below the price. -/
theorem rebuilt_spread (hp : quote.price = .finite p) (before : OrderBook)
    (hbids : (rebuilt before quote).levels .bid ≠ []) :
    (rebuilt before quote).spread = some (.finite (1 / 50)) := by
  obtain ⟨hbestBid, hbestAsk⟩ := rebuilt_centred hp before hbids
  unfold OrderBook.spread
  rw [hbestBid, hbestAsk]
  show some (Double.finite (p + 1 / 100 + -(p - 1 / 100))) = _
  rw [show p + 1 / 100 + -(p - 1 / 100) = 1 / 50 by ring]

theorem rebuilt_midPrice (hp : quote.price = .finite p) (before : OrderBook)
    (hbids : (rebuilt before quote).levels .bid ≠ []) :
    (rebuilt before quote).midPrice = some (.finite p) := by
  obtain ⟨hbestBid, hbestAsk⟩ := rebuilt_centred hp before hbids
  unfold OrderBook.midPrice
  rw [hbestBid, hbestAsk]
  show some (Double.finite ((p - 1 / 100 + (p + 1 / 100)) * (1 / 2))) = _
  rw [show (p - 1 / 100 + (p + 1 / 100)) * (1 / 2) = p by ring]

/-- **The synthetic book is well formed for every quote.** -/
theorem populateBookFromQuote_synthetic (before : OrderBook) (hp : quote.price = .finite p) :
    (populateBookFromQuote quote before).1 = .ok ()
    ∧ Synthetic p quote.volume.toNat (populateBookFromQuote quote before).2 := by
  obtain ⟨hle, hhalf⟩ := rebuilt_volumes hp before
  have hvolume : quote.volume.toNat < 2 ^ 64 := quote.volume.toNat_lt
  have hbidLt : volumeSum ((rebuilt before quote).levels .bid) < 2 ^ 64 := by omega
  have haskLt : volumeSum ((rebuilt before quote).levels .ask) < 2 ^ 64 := by omega
  have hbid : (rebuilt before quote).totalBidVolume.toNat
      = volumeSum ((rebuilt before quote).levels .bid) :=
    (totalVolume_toNat _).trans (Nat.mod_eq_of_lt hbidLt)
  have hask : (rebuilt before quote).totalAskVolume.toNat
      = volumeSum ((rebuilt before quote).levels .ask) :=
    (totalVolume_toNat _).trans (Nat.mod_eq_of_lt haskLt)
  have htotals : (rebuilt before quote).totalBidVolume.toNat
      ≤ (rebuilt before quote).totalAskVolume.toNat := by omega
  refine ⟨populateBookFromQuote_ok quote before, ?_⟩
  show Synthetic p quote.volume.toNat (rebuilt before quote)
  exact {
    bids := by
      intro level
      rw [rebuilt_bid_steps hp, mem_steps_iff]
    asks := by
      intro level
      rw [rebuilt_ask_steps hp, mem_steps_iff]
    centred := by
      intro hbids _
      obtain ⟨hbestBid, hbestAsk⟩ := rebuilt_centred hp before hbids
      refine ⟨_, _, hbestBid, hbestAsk, ?_, rebuilt_spread hp before hbids,
        rebuilt_midPrice hp before hbids⟩
      show decide (p - 1 / 100 < p + 1 / 100) = true
      rw [decide_eq_true_eq]
      linarith
    volumes := by
      intro side
      cases side with
      | bid =>
          rw [rebuilt_bid_steps hp]
          exact steps_volumes quote _
      | ask =>
          rw [rebuilt_ask_steps hp]
          exact steps_volumes quote _
    totalBid := hbid
    totalAsk := hask
    totals := UInt64.le_iff_toNat_le.mpr htotals
    noWrap := by omega
    imbalance := by
      refine ⟨_, OrderBook.imbalance_eq _, (OrderBook.ratio_bounds _ _).1, ?_⟩
      -- the numerator is not positive
      have hcast : ((rebuilt before quote).totalBidVolume.toNat : ℚ)
          ≤ (rebuilt before quote).totalAskVolume.toNat := by exact_mod_cast htotals
      exact div_nonpos_of_nonpos_of_nonneg (by linarith) (by positivity) }

end Book

theorem tradingDay_synthetic :
    (populateBookFromQuote tradingDay OrderBook.newBook).1 = .ok ()
    ∧ Synthetic 100 1000 (populateBookFromQuote tradingDay OrderBook.newBook).2 :=
  populateBookFromQuote_synthetic OrderBook.newBook (rfl : tradingDay.price = .finite 100)

end FinCoreCli

end FinCore.Cli

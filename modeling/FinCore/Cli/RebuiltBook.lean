/-
  FinCore.Cli.RebuiltBook
  ───────────────────────
  The book `populate_book_from_quote` leaves behind.

  Each of its two loops fills one side, and the levels come in the order of the
  side's comparator; so the side holds exactly the levels of positive price and
  volume, in the order they were set.  Nothing of the earlier book survives but
  its symbol.
-/
import FinCore.Cli.FinCoreCli

namespace FinCore.Cli

open FinCore.Cxx

namespace FinCoreCli

/-! ## §1. Filling one side. -/

section Side

variable {lt : Price → Price → Bool} [Comparator lt]

/-- A level that is set: its price and its volume are positive. -/
def isSet (level : Price × Volume) : Bool := level.1.gt (.finite 0) && decide (0 < level.2)

def addLevel (side : Levels lt) (level : Price × Volume) : Levels lt :=
  if isSet level then side.assign level.1 level.2 else side

/-- One side after the levels that are set have been assigned in order. -/
def fillLevels (side : Levels lt) (levels : List (Price × Volume)) : Levels lt :=
  levels.foldl addLevel side

/-- A positive price with a volume is accepted. -/
theorem setLevel_run (what : Str) {level : Price × Volume} (side : Levels lt)
    (h : isSet level = true) :
    setLevel what level.1 level.2 side = (.ok (), side.assign level.1 level.2) := by
  unfold isSet at h
  rw [Bool.and_eq_true, decide_eq_true_eq] at h
  obtain ⟨hprice, hvolume⟩ := h
  have hnan : level.1 ≠ .nan := by
    intro hnan
    rw [hnan] at hprice
    cases hprice
  have hle : level.1.le (.finite 0) = false :=
    (Double.le_eq_false_iff hnan (b := .finite 0) nofun).mpr hprice
  have hne : level.2 ≠ 0 := by
    intro hzero
    rw [hzero] at hvolume
    exact absurd hvolume (by decide)
  unfold setLevel
  rw [hle, if_neg Bool.false_ne_true, if_neg hne]
  rfl

theorem fillLevels_cons (side : Levels lt) (level : Price × Volume)
    (levels : List (Price × Volume)) :
    fillLevels side (level :: levels) = fillLevels (addLevel side level) levels := rfl

/-- A key past all the others is put at the end. -/
theorem assignEntries_append {K V : Type} {lt : K → K → Bool} (k : K) (v : V)
    {es : List (K × V)} (h : ∀ e ∈ es, lt e.1 k = true) :
    OrderedMap.assignEntries lt k v es = es ++ [(k, v)] := by
  induction es with
  | nil => rfl
  | cons e es ih =>
      obtain ⟨k', v'⟩ := e
      have hhead : lt k' k = true := h _ List.mem_cons_self
      have htail := ih (fun e he => h e (List.mem_cons_of_mem _ he))
      rw [OrderedMap.assignEntries, if_pos hhead, htail]
      rfl

/-- **A side filled in its own order** holds the levels that are set, behind
those it held before. -/
theorem fillLevels_entries {levels : List (Price × Volume)} :
    ∀ {side : Levels lt}, levels.Pairwise (fun a b => lt a.1 b.1 = true) →
      (∀ e ∈ side.entries, ∀ level ∈ levels, lt e.1 level.1 = true) →
      (fillLevels side levels).entries = side.entries ++ levels.filter isSet := by
  induction levels with
  | nil =>
      intro side _ _
      show side.entries = side.entries ++ []
      rw [List.append_nil]
  | cons level levels ih =>
      intro side hsorted hside
      obtain ⟨hhead, htail⟩ := List.pairwise_cons.mp hsorted
      have hrest : ∀ e ∈ side.entries, ∀ level ∈ levels, lt e.1 level.1 = true :=
        fun e he level' hl => hside e he level' (List.mem_cons_of_mem _ hl)
      rw [fillLevels_cons, List.filter_cons]
      unfold addLevel
      split
      next hset =>
        -- the level is greater than all that is there, so it goes last
        have hentries : (side.assign level.1 level.2).entries = side.entries ++ [level] :=
          assignEntries_append _ _ (fun e he => hside e he level List.mem_cons_self)
        rw [ih htail, hentries, List.append_assoc]
        · rfl
        · intro e he level' hl
          rw [hentries, List.mem_append, List.mem_singleton] at he
          rcases he with he | rfl
          · exact hrest e he level' hl
          · exact hhead level' hl
      -- an empty level is left out
      next => exact ih htail hrest

end Side

/-! ## §2. The two loops. -/

/-- The levels of the first loop. -/
def bidLevels (quote : Quote) (levels : List ℕ) : List (Price × Volume) :=
  levels.map fun level => (quote.price.sub (levelOffset level), levelVolume quote level)

/-- The levels of the second loop. -/
def askLevels (quote : Quote) (levels : List ℕ) : List (Price × Volume) :=
  levels.map fun level => (quote.price.add (levelOffset level), levelVolume quote level)

theorem populateLevel_bid (level : Price × Volume) (book : OrderBook) :
    populateLevel OrderBook.setBid level.1 level.2 book
      = (.ok (), { book with bids := addLevel book.bids level }) := by
  have hiff : (level.1.gt (.finite 0) = true ∧ 0 < level.2) ↔ isSet level = true := by
    simp [isSet]
  unfold populateLevel addLevel
  simp only [hiff]
  split
  next h => rw [OrderBook.setBid, OrderBook.onBids, Action.zoom, setLevel_run _ _ h]
  next h => rfl

theorem populateLevel_ask (level : Price × Volume) (book : OrderBook) :
    populateLevel OrderBook.setAsk level.1 level.2 book
      = (.ok (), { book with asks := addLevel book.asks level }) := by
  have hiff : (level.1.gt (.finite 0) = true ∧ 0 < level.2) ↔ isSet level = true := by
    simp [isSet]
  unfold populateLevel addLevel
  simp only [hiff]
  split
  next h => rw [OrderBook.setAsk, OrderBook.onAsks, Action.zoom, setLevel_run _ _ h]
  next h => rfl

theorem populateBids_run (quote : Quote) (levels : List ℕ) :
    ∀ book, populateBids quote levels book
      = (.ok (), { book with bids := fillLevels book.bids (bidLevels quote levels) }) := by
  induction levels with
  | nil => exact fun book => rfl
  | cons level rest ih =>
      intro book
      have hstep := populateLevel_bid
        (quote.price.sub (levelOffset level), levelVolume quote level) book
      rw [populateBids, Action.bind_ok hstep, ih]
      rfl

theorem populateAsks_run (quote : Quote) (levels : List ℕ) :
    ∀ book, populateAsks quote levels book
      = (.ok (), { book with asks := fillLevels book.asks (askLevels quote levels) }) := by
  induction levels with
  | nil => exact fun book => rfl
  | cons level rest ih =>
      intro book
      have hstep := populateLevel_ask
        (quote.price.add (levelOffset level), levelVolume quote level) book
      rw [populateAsks, Action.bind_ok hstep, ih]
      rfl

/-! ## §3. The rebuilt book. -/

/-- The book after it has been rebuilt from a quote. -/
def rebuilt (before : OrderBook) (quote : Quote) : OrderBook := (populateBookFromQuote quote before).2

/-- **Building a book from a quote never throws**, and leaves the levels of the
quote alone. -/
theorem populateBookFromQuote_run (quote : Quote) (before : OrderBook) :
    populateBookFromQuote quote before
      = (.ok (), { symbol := before.symbol, symbol_ne := before.symbol_ne
                   bids := fillLevels OrderedMap.empty (bidLevels quote [1, 2, 3, 4, 5])
                   asks := fillLevels OrderedMap.empty (askLevels quote [1, 2, 3, 4, 5]) }) := by
  have hclear : OrderBook.clear before = (.ok (), (OrderBook.clear before).2) := rfl
  unfold populateBookFromQuote
  rw [Action.bind_ok hclear, Action.bind_ok (populateBids_run quote _ _), populateAsks_run]
  rfl

theorem populateBookFromQuote_ok (quote : Quote) (book : OrderBook) :
    (populateBookFromQuote quote book).1 = .ok () := by
  rw [populateBookFromQuote_run]

theorem rebuilt_symbol (before : OrderBook) (quote : Quote) :
    (rebuilt before quote).symbol = before.symbol := by
  rw [rebuilt, populateBookFromQuote_run]

/-- Only the symbol of the earlier book matters. -/
theorem rebuilt_congr {before before' : OrderBook} (h : before.symbol = before'.symbol)
    (quote : Quote) : rebuilt before quote = rebuilt before' quote := by
  rw [rebuilt, rebuilt, populateBookFromQuote_run, populateBookFromQuote_run]
  simp only [h]

end FinCoreCli

end FinCore.Cli

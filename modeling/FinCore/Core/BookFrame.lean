/-
  FinCore.Core.BookFrame
  ──────────────────────
  What one mutation of the book may touch.

  `set_bid` and `set_ask` refuse the prices `price <= 0`, which lets NaN pass;
  NaN is equivalent to every stored price, so a call with it reaches a level
  that is not its own.  §2 decides for one side when a call is local, §3 carries
  that along the runs of a book.  A replacement clears its side before it looks
  at a price; §4 decides when that leaves a trace.
-/
import FinCore.Core.BookHistory

namespace FinCore

open FinCore.Cxx

/-! ## §1. Levels of a side. -/

/-- The order of a side's levels. -/
def Side.before : Side → Price → Price → Bool
  | .bid => Double.gt
  | .ask => Double.lt

/-- The levels are at positive prices, strictly ordered. -/
structure WellPriced (side : Side) (levels : List (Price × Volume)) : Prop where
  positive : ∀ level ∈ levels, level.1.gt (.finite 0) = true
  ordered : levels.Pairwise (fun a b => side.before a.1 b.1 = true)

/-- No level at another price appears, disappears or changes its volume. -/
def KeepsOthers (price : Price) (before after : List (Price × Volume)) : Prop :=
  ∀ level : Price × Volume, level.1 ≠ price → (level ∈ after ↔ level ∈ before)

/-- The calls that do not reach a level through NaN: the price is a number, or
there is nothing to erase, or the first level has the volume already. -/
def NanSafe (price : Price) (volume : Volume) (levels : List (Price × Volume)) : Prop :=
  price ≠ .nan
  ∨ (volume = 0 ∧ levels = [])
  ∨ (volume ≠ 0 ∧ levels.head?.map Prod.snd = some volume)

instance (price : Price) (volume : Volume) (levels : List (Price × Volume)) :
    Decidable (NanSafe price volume levels) :=
  inferInstanceAs (Decidable (_ ∨ _))

/-- NaN is neither before nor after any price. -/
class NanOrder (lt : Price → Price → Bool) : Prop extends PriceOrder lt where
  lt_nan : ∀ price, lt price .nan = false
  nan_lt : ∀ price, lt .nan price = false

instance : NanOrder Double.lt where
  lt_nan price := by cases price <;> rfl
  nan_lt price := by cases price <;> rfl

instance : NanOrder Double.gt where
  lt_nan price := by cases price <;> rfl
  nan_lt price := by cases price <;> rfl

/-! ## §2. One call on one side. -/

section Levels

variable {lt : Price → Price → Bool} {levels : Levels lt}

/-- All prices of a side are positive. -/
def Positive (levels : Levels lt) : Prop :=
  ∀ level ∈ levels.entries, level.1.gt (.finite 0) = true

theorem Positive.ne_nan (h : Positive levels) {level : Price × Volume}
    (hlevel : level ∈ levels.entries) : level.1 ≠ .nan :=
  ne_nan_of_positive (h level hlevel)

theorem Positive.erase (h : Positive levels) (price : Price) : Positive (levels.erase price) :=
  fun level hlevel => h level (List.mem_filter.mp hlevel).1

variable [NanOrder lt]

theorem Positive.compares (h : Positive levels) {price : Price} (hp : price ≠ .nan) :
    levels.Compares price :=
  fun level hlevel => PriceOrder.total (ne_nan_of_positive (h level hlevel)) hp

/-- A number is assigned among its own kind. -/
theorem Positive.assign (h : Positive levels) {price : Price} (hp : price.gt (.finite 0) = true)
    (volume : Volume) : Positive (levels.assign price volume) := by
  intro level hlevel
  have hmem := (OrderedMap.holds_assign (h.compares (ne_nan_of_positive hp)) volume
    level.1 level.2).mp hlevel
  rcases hmem with ⟨hprice, _⟩ | ⟨_, hold⟩
  · rw [hprice]
    exact hp
  · exact h _ hold

/-- NaN erases the whole side. -/
theorem erase_nan (levels : Levels lt) : (levels.erase .nan).entries = [] := by
  show levels.entries.filter _ = []
  rw [List.filter_eq_nil_iff]
  intro level _
  simp [OrderedMap.equivalent, NanOrder.lt_nan, NanOrder.nan_lt]

/-- NaN overwrites the volume of the first level. -/
theorem assign_nan_cons {price : Price} {v volume : Volume} {rest : List (Price × Volume)}
    (h : levels.entries = (price, v) :: rest) :
    (levels.assign .nan volume).entries = (price, volume) :: rest := by
  show OrderedMap.assignEntries lt .nan volume levels.entries = _
  have hlt : lt price .nan = false := NanOrder.lt_nan price
  have hgt : lt .nan price = false := NanOrder.nan_lt price
  rw [h, OrderedMap.assignEntries, hlt, hgt]
  rfl

/-- On an empty side NaN becomes a level. -/
theorem assign_nan_nil {volume : Volume} (h : levels.entries = []) :
    (levels.assign .nan volume).entries = [(.nan, volume)] := by
  show OrderedMap.assignEntries lt .nan volume levels.entries = _
  rw [h]
  rfl

/-- A number as price never touches another level. -/
theorem setLevel_number (what : Str) {price : Price} (volume : Volume) (hpos : Positive levels)
    (hp : price ≠ .nan) :
    KeepsOthers price levels.entries (setLevel what price volume levels).2.entries
    ∧ Positive (setLevel what price volume levels).2 := by
  have hcmp := hpos.compares hp
  cases hle : Double.le price (.finite 0) with
  | true =>
      rw [setLevel_rejected what volume hle]
      exact ⟨fun _ _ => Iff.rfl, hpos⟩
  | false =>
      have hgt : price.gt (.finite 0) = true :=
        (Double.le_eq_false_iff hp (b := .finite 0) nofun).mp hle
      rw [setLevel_accepted what volume hle]
      by_cases hv : volume = 0
      · rw [if_pos hv]
        constructor
        · intro level hne
          -- an empty volume erases the level
          have hmem := OrderedMap.holds_erase hcmp level.1 level.2
          exact hmem.trans (and_iff_right hne)
        · exact hpos.erase price
      · rw [if_neg hv]
        constructor
        · intro level hne
          -- any other replaces it
          have hmem := OrderedMap.holds_assign hcmp volume level.1 level.2
          rw [and_iff_right hne] at hmem
          exact hmem.trans (or_iff_right (fun h => hne h.1))
        · exact hpos.assign hgt volume

/-- Erasing at NaN empties the side. -/
theorem erase_nan_local_iff (hpos : Positive levels) :
    (KeepsOthers .nan levels.entries (levels.erase .nan).entries ∧ Positive (levels.erase .nan))
      ↔ levels.entries = [] := by
  constructor
  · intro ⟨hkeeps, _⟩
    -- whatever level there was is gone
    rw [List.eq_nil_iff_forall_not_mem]
    intro level hlevel
    have hleft := (hkeeps level (hpos.ne_nan hlevel)).mpr hlevel
    rw [erase_nan] at hleft
    exact List.not_mem_nil hleft
  · intro hempty
    refine ⟨fun level _ => ?_, hpos.erase .nan⟩
    rw [erase_nan, hempty]

/-- Assigning at NaN overwrites the volume of the first level. -/
theorem assign_nan_local_iff (volume : Volume) (hpos : Positive levels) :
    (KeepsOthers .nan levels.entries (levels.assign .nan volume).entries
      ∧ Positive (levels.assign .nan volume))
      ↔ levels.entries.head?.map Prod.snd = some volume := by
  cases hentries : levels.entries with
  | nil =>
      constructor
      · intro ⟨_, hafter⟩
        -- the level at NaN is not positive
        have hmem : ((.nan : Price), volume) ∈ (levels.assign .nan volume).entries := by
          rw [assign_nan_nil hentries]
          exact List.mem_singleton_self _
        exact absurd (hafter _ hmem) Bool.false_ne_true
      · intro h
        cases h
  | cons first rest =>
      obtain ⟨price, v⟩ := first
      have hafter : (levels.assign .nan volume).entries = (price, volume) :: rest :=
        assign_nan_cons hentries
      have hmem : (price, v) ∈ levels.entries := by
        rw [hentries]
        exact List.mem_cons_self
      constructor
      · intro ⟨hkeeps, _⟩
        rw [← hentries] at hkeeps
        have hold := (hkeeps (price, v) (hpos.ne_nan hmem)).mpr hmem
        -- the first price has one volume
        have hnew : (price, volume) ∈ (levels.assign .nan volume).entries := by
          rw [hafter]
          exact List.mem_cons_self
        exact congrArg some (OrderedMap.holds_unique hold hnew)
      · intro h
        have hsame : v = volume := Option.some.inj h
        rw [hsame] at hentries ⊢
        have hentries' : (levels.assign .nan volume).entries = levels.entries := by
          rw [hafter, hentries]
        constructor
        · intro level _
          rw [hafter]
        · intro level hlevel
          rw [hentries'] at hlevel
          exact hpos level hlevel

/-- NaN is harmless on one occasion each for erasing and for assigning. -/
theorem setLevel_nan (what : Str) (volume : Volume) (hpos : Positive levels) :
    (KeepsOthers .nan levels.entries (setLevel what .nan volume levels).2.entries
      ∧ Positive (setLevel what .nan volume levels).2) ↔ NanSafe .nan volume levels.entries := by
  rw [setLevel_accepted what volume (by rfl : Double.le .nan (.finite 0) = false)]
  unfold NanSafe
  by_cases hv : volume = 0
  · rw [if_pos hv, erase_nan_local_iff hpos]
    constructor
    · intro hempty
      exact Or.inr (Or.inl ⟨hv, hempty⟩)
    · rintro (h | ⟨_, hempty⟩ | ⟨h, _⟩)
      · exact absurd rfl h
      · exact hempty
      · exact absurd hv h
  · rw [if_neg hv, assign_nan_local_iff volume hpos]
    constructor
    · intro hfirst
      exact Or.inr (Or.inr ⟨hv, hfirst⟩)
    · rintro (h | ⟨h, _⟩ | ⟨_, hfirst⟩)
      · exact absurd rfl h
      · exact absurd h hv
      · exact hfirst

/-- **When a call touches its own level only.** -/
theorem setLevel_local_iff (what : Str) (price : Price) (volume : Volume)
    (hpos : Positive levels) :
    (KeepsOthers price levels.entries (setLevel what price volume levels).2.entries
      ∧ Positive (setLevel what price volume levels).2) ↔ NanSafe price volume levels.entries := by
  by_cases hp : price = .nan
  · rw [hp]
    exact setLevel_nan what volume hpos
  · exact ⟨fun _ => Or.inl hp, fun _ => setLevel_number what volume hpos hp⟩

/-- Setting levels keeps a side positive, unless one puts a volume at NaN. -/
theorem setLevels_positive (what : Str) {es : List (Price × Volume)}
    (hes : ∀ level ∈ es, level.1 = .nan → level.2 = 0) :
    ∀ {levels : Levels lt}, Positive levels → Positive (setLevels what es levels).2 := by
  induction es with
  | nil => exact fun h => h
  | cons level es ih =>
      intro levels hpos
      obtain ⟨price, volume⟩ := level
      cases hle : Double.le price (.finite 0) with
      | true =>
          -- the loop ends here
          rw [setLevels, Action.bind_error (setLevel_rejected what volume hle levels)]
          exact hpos
      | false =>
          have hstep : Positive (setLevel what price volume levels).2 := by
            by_cases hp : price = .nan
            · have hv : volume = 0 := hes _ List.mem_cons_self hp
              rw [setLevel_accepted what volume hle, if_pos hv]
              exact hpos.erase price
            · exact (setLevel_number what volume hpos hp).2
          rw [setLevel_accepted what volume hle] at hstep
          rw [setLevels, Action.bind_ok (setLevel_accepted what volume hle levels)]
          exact ih (fun level hlevel => hes level (List.mem_cons_of_mem _ hlevel)) hstep

end Levels

/-! ## §3. The runs of a book. -/

namespace OrderBook

def levels (book : OrderBook) : Side → List (Price × Volume)
  | .bid => book.bids.entries
  | .ask => book.asks.entries

/-- `set_bid` or `set_ask`. -/
def setSide : Side → Price → Volume → Action OrderBook Exn Unit
  | .bid => setBid
  | .ask => setAsk

/-- All stored prices are positive and strictly ordered. -/
def Priced (book : OrderBook) : Prop := ∀ side, WellPriced side (book.levels side)

/-- A call of `set_bid` or `set_ask` throws and leaves the book as it was, or
changes nothing but the level at its price. -/
structure Local (side : Side) (price : Price) (volume : Volume) (book : OrderBook) : Prop where
  unchanged : (setSide side price volume book).1 ≠ .ok () →
    (setSide side price volume book).2 = book
  symbol : (setSide side price volume book).2.symbol = book.symbol
  others : KeepsOthers price (book.levels side) ((setSide side price volume book).2.levels side)
  otherSide : ∀ s, s ≠ side → (setSide side price volume book).2.levels s = book.levels s
  priced : (setSide side price volume book).2.Priced

theorem priced_iff {book : OrderBook} :
    book.Priced ↔ Positive book.bids ∧ Positive book.asks := by
  constructor
  · intro h
    exact ⟨(h .bid).positive, (h .ask).positive⟩
  · intro ⟨hbids, hasks⟩ side
    cases side with
    | bid => exact ⟨hbids, book.bids.sorted⟩
    | ask => exact ⟨hasks, book.asks.sorted⟩

theorem setSide_unchanged {side : Side} {price : Price} {volume : Volume} {book : OrderBook}
    (h : (setSide side price volume book).1 ≠ .ok ()) :
    (setSide side price volume book).2 = book := by
  cases side with
  | bid =>
      show ({ book with bids := _ } : OrderBook) = book
      rw [setLevel_unchanged h]
  | ask =>
      show ({ book with asks := _ } : OrderBook) = book
      rw [setLevel_unchanged h]

/-- **When a call on a well-priced book is local.** -/
theorem Priced.local_iff {book : OrderBook} (h : book.Priced) (side : Side) (price : Price)
    (volume : Volume) : Local side price volume book ↔ NanSafe price volume (book.levels side) := by
  obtain ⟨hbids, hasks⟩ := priced_iff.mp h
  cases side with
  | bid =>
      -- the call on the side decides; the other side is not read
      have hside := setLevel_local_iff setBidWhat price volume hbids
      constructor
      · intro hlocal
        exact hside.mp ⟨hlocal.others, (priced_iff.mp hlocal.priced).1⟩
      · intro hsafe
        obtain ⟨hothers, hpositive⟩ := hside.mpr hsafe
        exact {
          unchanged := setSide_unchanged
          symbol := rfl
          others := hothers
          otherSide := fun s hs => by
            cases s with
            | bid => exact absurd rfl hs
            | ask => rfl
          priced := priced_iff.mpr ⟨hpositive, hasks⟩ }
  | ask =>
      have hside := setLevel_local_iff setAskWhat price volume hasks
      constructor
      · intro hlocal
        exact hside.mp ⟨hlocal.others, (priced_iff.mp hlocal.priced).2⟩
      · intro hsafe
        obtain ⟨hothers, hpositive⟩ := hside.mpr hsafe
        exact {
          unchanged := setSide_unchanged
          symbol := rfl
          others := hothers
          otherSide := fun s hs => by
            cases s with
            | bid => rfl
            | ask => exact absurd rfl hs
          priced := priced_iff.mpr ⟨hbids, hpositive⟩ }

/-- The calls that keep NaN out of a book in this state.  A replacement sets its
levels from an empty side, where NaN is let in with any volume but zero. -/
def Clean : BookOp → OrderBook → Prop
  | .setBid price volume, book => NanSafe price volume (book.levels .bid)
  | .setAsk price volume, book => NanSafe price volume (book.levels .ask)
  | .replaceBids levels, _ => ∀ level ∈ levels.entries, level.1 = .nan → level.2 = 0
  | .replaceAsks levels, _ => ∀ level ∈ levels.entries, level.1 = .nan → level.2 = 0
  | .clear, _ => True

/-- Every call of the run is clean in the state it finds. -/
def CleanRun : List BookOp → OrderBook → Prop
  | [], _ => True
  | op :: ops, book => Clean op book ∧ CleanRun ops (op.apply book).2

/-- **What one clean call preserves.** -/
theorem Priced.apply {book : OrderBook} (h : book.Priced) {op : BookOp} (hop : Clean op book) :
    (op.apply book).2.Priced := by
  obtain ⟨hbids, hasks⟩ := priced_iff.mp h
  cases op with
  | setBid price volume => exact ((h.local_iff .bid price volume).mpr hop).priced
  | setAsk price volume => exact ((h.local_iff .ask price volume).mpr hop).priced
  | replaceBids levels =>
      have hempty : Positive (OrderedMap.empty : Levels Double.gt) :=
        fun level hlevel => absurd hlevel List.not_mem_nil
      exact priced_iff.mpr ⟨setLevels_positive setBidWhat hop hempty, hasks⟩
  | replaceAsks levels =>
      have hempty : Positive (OrderedMap.empty : Levels Double.lt) :=
        fun level hlevel => absurd hlevel List.not_mem_nil
      exact priced_iff.mpr ⟨hbids, setLevels_positive setAskWhat hop hempty⟩
  | clear =>
      exact priced_iff.mpr ⟨fun level hlevel => absurd hlevel List.not_mem_nil,
        fun level hlevel => absurd hlevel List.not_mem_nil⟩

theorem Priced.run {ops : List BookOp} :
    ∀ {book : OrderBook}, book.Priced → CleanRun ops book → (run ops book).Priced := by
  induction ops with
  | nil => exact fun h _ => h
  | cons op ops ih =>
      intro book h hclean
      show (OrderBook.run ops (op.apply book).2).Priced
      exact ih (h.apply hclean.1) hclean.2

theorem create_levels {symbol : Symbol} {book : OrderBook} (h : create symbol = .ok book)
    (side : Side) : book.levels side = [] := by
  unfold create at h
  split at h
  · cases h
  · injection h with h
    rw [← h]
    cases side <;> rfl

theorem create_priced {symbol : Symbol} {book : OrderBook} (h : create symbol = .ok book) :
    book.Priced := by
  intro side
  rw [create_levels h side]
  exact ⟨fun level hlevel => absurd hlevel List.not_mem_nil, List.Pairwise.nil⟩

/-- **A level update touches only its level, unless NaN comes in.**  In every
state a clean run reaches, the prices are positive and strictly ordered, and a
call is local for exactly the arguments that do not reach a level through NaN. -/
theorem run_local_iff {symbol : Symbol} {book₀ : OrderBook} (hnew : create symbol = .ok book₀)
    {ops : List BookOp} (hclean : CleanRun ops book₀) :
    (run ops book₀).Priced
    ∧ ∀ side price volume, Local side price volume (run ops book₀)
        ↔ NanSafe price volume ((run ops book₀).levels side) := by
  have hpriced := (create_priced hnew).run hclean
  exact ⟨hpriced, hpriced.local_iff⟩

def newBook : OrderBook := { symbol := "AAPL".toList, symbol_ne := by decide }

/-- An infinite price, a refused one, and NaN where it does no harm. -/
def cleanCalls : List BookOp :=
  [.setBid (.finite 100) 5, .setAsk .posInf 3, .setBid (.finite (-1)) 2, .setBid .nan 5,
    .replaceAsks (OrderedMap.ofEntries [(.nan, 0)])]

theorem cleanCalls_local :
    (run cleanCalls newBook).Priced ∧ Local .bid (.finite 99) 7 (run cleanCalls newBook) := by
  have hclean : CleanRun cleanCalls newBook := by
    refine ⟨?_, ?_, ?_, ?_, ?_, trivial⟩
    · show NanSafe _ _ _
      decide +kernel
    · show NanSafe _ _ _
      decide +kernel
    · show NanSafe _ _ _
      decide +kernel
    · show NanSafe _ _ _
      decide +kernel
    · intro level hlevel _
      have hentries : (OrderedMap.ofEntries [(.nan, 0)] : Levels Double.lt).entries
          = [(.nan, 0)] := rfl
      rw [hentries, List.mem_singleton] at hlevel
      rw [hlevel]
  have hrun := run_local_iff (rfl : create "AAPL".toList = .ok newBook) hclean
  exact ⟨hrun.1, (hrun.2 _ _ _).mpr (Or.inl nofun)⟩

/-- NaN overwrites the best bid, and erases every bid. -/
theorem setBid_nan_not_local :
    create "AAPL".toList = .ok newBook
    ∧ ¬ Local .bid .nan 7 (run [.setBid (.finite 100) 5] newBook)
    ∧ (setBid .nan 7 (run [.setBid (.finite 100) 5] newBook)).2.levels .bid
        = [(.finite 100, 7)]
    ∧ (setBid .nan 0 (run [.setBid (.finite 100) 5] newBook)).2.levels .bid = [] := by
  refine ⟨rfl, ?_, by decide +kernel, by decide +kernel⟩
  intro hlocal
  have hold : (.finite 100, 7) ∈ (run [.setBid (.finite 100) 5] newBook).levels .bid :=
    (hlocal.others (.finite 100, 7) nofun).mp (by decide +kernel)
  exact absurd hold (by decide +kernel)

end OrderBook

/-! ## §4. Replacing a side. -/

section Replace

variable {lt : Price → Price → Bool} [PriceOrder lt]

theorem setLevels_ok (what : Str) {es : List (Price × Volume)}
    (hes : ∀ level ∈ es, level.1.gt (.finite 0) = true) :
    ∀ levels : Levels lt, (setLevels what es levels).1 = .ok () := by
  induction es with
  | nil => exact fun levels => rfl
  | cons level es ih =>
      intro levels
      obtain ⟨price, volume⟩ := level
      have hprice : price.gt (.finite 0) = true := hes _ List.mem_cons_self
      have hle : Double.le price (.finite 0) = false :=
        (Double.le_eq_false_iff (ne_nan_of_positive hprice) (b := .finite 0) nofun).mpr hprice
      rw [setLevels, Action.bind_ok (setLevel_accepted what volume hle levels)]
      exact ih (fun level hlevel => hes level (List.mem_cons_of_mem _ hlevel)) _

/-- Positive levels are taken over, but for those of volume zero. -/
theorem replaceLevels_positive (what : Str) {new : Levels Double.lt} (hnew : Positive new)
    (levels : Levels lt) :
    (replaceLevels what new levels).1 = .ok ()
    ∧ ∀ level, level ∈ (replaceLevels what new levels).2.entries
        ↔ level ∈ new.entries ∧ level.2 ≠ 0 := by
  refine ⟨setLevels_ok what hnew _, fun level => ?_⟩
  obtain ⟨price, volume⟩ := level
  have hshows : Shows (setLevels what new.entries (OrderedMap.empty : Levels lt)).2
      (listVolume new.entries fun _ => none) :=
    Shows.empty.setLevels what hnew new.keys_nodup
  have hiff := hshows.holds_iff price volume
  show (price, volume) ∈ (setLevels what new.entries OrderedMap.empty).2.entries ↔ _
  refine hiff.trans ?_
  unfold listVolume LevelOp.present
  constructor
  · intro h
    split at h
    next e he =>
      obtain ⟨hprice, hmem⟩ := And.intro (List.find?_some he) (List.mem_of_find?_eq_some he)
      split at h
      next => cases h
      next hv =>
        obtain rfl : e.1 = price := of_decide_eq_true hprice
        obtain rfl : e.2 = volume := Option.some.inj h
        exact ⟨hmem, hv⟩
    next => cases h
  · intro ⟨hmem, hv⟩
    have hv' : volume ≠ 0 := hv
    cases hfind : new.entries.find? (fun e => decide (e.1 = price)) with
    | none =>
        rw [List.find?_eq_none] at hfind
        exact absurd (by simp) (hfind _ hmem)
    | some e =>
        have hprice : e.1 = price := by simpa using List.find?_some hfind
        -- the argument holds the price once, so this is its volume
        have hheld : new.Holds price e.2 := by
          rw [← hprice]
          exact List.mem_of_find?_eq_some hfind
        have hvolume : e.2 = volume := OrderedMap.holds_unique hheld hmem
        dsimp only
        rw [hvolume, if_neg hv']

/-- A price that is not positive comes first in the argument, and ends the call
with the side cleared. -/
theorem replaceLevels_refused (what : Str) {new : Levels Double.lt}
    (hnumbers : ∀ level ∈ new.entries, level.1 ≠ .nan) (hnew : ¬ Positive new)
    (levels : Levels lt) :
    replaceLevels what new levels = (.error (.invalidArgument what), OrderedMap.empty) := by
  obtain ⟨bad, hbad, hprice⟩ : ∃ level ∈ new.entries, ¬ level.1.gt (.finite 0) = true := by
    simpa [Positive] using hnew
  have hle : Double.le bad.1 (.finite 0) = true := by
    by_contra h
    rw [Bool.not_eq_true] at h
    exact hprice ((Double.le_eq_false_iff (hnumbers bad hbad) (b := .finite 0) nofun).mp h)
  show setLevels what new.entries OrderedMap.empty = _
  cases hentries : new.entries with
  | nil =>
      rw [hentries] at hbad
      exact absurd hbad List.not_mem_nil
  | cons first rest =>
      obtain ⟨price, volume⟩ := first
      have hmem : (price, volume) ∈ new.entries := by
        rw [hentries]
        exact List.mem_cons_self
      have hhead : new.entries.head? = some (price, volume) := by
        rw [hentries]
        rfl
      have hfirst : Double.le price (.finite 0) = true := by
        -- the levels ascend, so the first price is refused at the latest
        rcases OrderedMap.head_le hhead hbad with rfl | hlt
        · exact hle
        · -- below a price that is not positive
          by_contra h
          rw [Bool.not_eq_true,
            Double.le_eq_false_iff (hnumbers _ hmem) (b := .finite 0) nofun] at h
          exact hprice (Double.lt_trans h hlt)
      rw [setLevels, Action.bind_error (setLevel_rejected what volume hfirst _)]

end Replace

namespace OrderBook

/-- `replace_bids` or `replace_asks`. -/
def replaceSide : Side → Levels Double.lt → Action OrderBook Exn Unit
  | .bid => replaceBids
  | .ask => replaceAsks

/-- A replacement that throws leaves the book as it was; one that does not puts
the levels with a volume in the place of the side. -/
structure Atomic (side : Side) (new : Levels Double.lt) (book : OrderBook) : Prop where
  unchanged : (replaceSide side new book).1 ≠ .ok () → (replaceSide side new book).2 = book
  replaced : (replaceSide side new book).1 = .ok () →
    (∀ level, level ∈ (replaceSide side new book).2.levels side
      ↔ level ∈ new.entries ∧ level.2 ≠ 0)
    ∧ ∀ s, s ≠ side → (replaceSide side new book).2.levels s = book.levels s

theorem replaceSide_other {side s : Side} (h : s ≠ side) (new : Levels Double.lt)
    (book : OrderBook) : (replaceSide side new book).2.levels s = book.levels s := by
  cases side <;> cases s
  · exact absurd rfl h
  · rfl
  · rfl
  · exact absurd rfl h

/-- Positive levels replace either side. -/
theorem replaceSide_positive {new : Levels Double.lt} (hnew : Positive new) (side : Side)
    (book : OrderBook) :
    (replaceSide side new book).1 = .ok ()
    ∧ ∀ level, level ∈ (replaceSide side new book).2.levels side
        ↔ level ∈ new.entries ∧ level.2 ≠ 0 := by
  cases side with
  | bid => exact replaceLevels_positive setBidWhat hnew book.bids
  | ask => exact replaceLevels_positive setAskWhat hnew book.asks

/-- A refused replacement leaves the side without levels. -/
theorem replaceSide_refused {new : Levels Double.lt}
    (hnumbers : ∀ level ∈ new.entries, level.1 ≠ .nan) (hnew : ¬ Positive new) (side : Side)
    (book : OrderBook) :
    (replaceSide side new book).1 ≠ .ok ()
    ∧ ((replaceSide side new book).2 = book ↔ book.levels side = []) := by
  cases side with
  | bid =>
      have hrun := replaceLevels_refused setBidWhat hnumbers hnew book.bids
      have hbook : replaceSide .bid new book
          = (.error (.invalidArgument setBidWhat), { book with bids := OrderedMap.empty }) := by
        show (_, _) = _
        rw [hrun]
      rw [hbook]
      refine ⟨nofun, fun h => ?_, fun h => ?_⟩
      · -- the side has been cleared before the first level was refused
        rw [← h]
        rfl
      · have hbids : book.bids = OrderedMap.empty := OrderedMap.ext h
        show ({ book with bids := OrderedMap.empty } : OrderBook) = book
        rw [← hbids]
  | ask =>
      have hrun := replaceLevels_refused setAskWhat hnumbers hnew book.asks
      have hbook : replaceSide .ask new book
          = (.error (.invalidArgument setAskWhat), { book with asks := OrderedMap.empty }) := by
        show (_, _) = _
        rw [hrun]
      rw [hbook]
      refine ⟨nofun, fun h => ?_, fun h => ?_⟩
      · rw [← h]
        rfl
      · have hasks : book.asks = OrderedMap.empty := OrderedMap.ext h
        show ({ book with asks := OrderedMap.empty } : OrderBook) = book
        rw [← hasks]

/-- **When replacing a side is atomic**: the prices are positive, or the side
had nothing to lose. -/
theorem replace_atomic_iff {new : Levels Double.lt}
    (hnumbers : ∀ level ∈ new.entries, level.1 ≠ .nan) (side : Side) (book : OrderBook) :
    Atomic side new book
      ↔ (∀ level ∈ new.entries, level.1.gt (.finite 0) = true) ∨ book.levels side = [] := by
  by_cases hnew : Positive new
  · obtain ⟨hok, hlevels⟩ := replaceSide_positive hnew side book
    exact ⟨fun _ => Or.inl hnew, fun _ =>
      ⟨fun h => absurd hok h, fun _ => ⟨hlevels, fun s hs => replaceSide_other hs new book⟩⟩⟩
  · obtain ⟨hthrows, hiff⟩ := replaceSide_refused hnumbers hnew side book
    constructor
    · intro h
      exact Or.inr (hiff.mp (h.unchanged hthrows))
    · rintro (h | h)
      · exact absurd h hnew
      · exact ⟨fun _ => hiff.mpr h, fun hok => absurd hok hthrows⟩

/-- A positive level and one of volume zero. -/
def freshLevels : Levels Double.lt := OrderedMap.ofEntries [(.finite 99, 7), (.finite 98, 0)]

theorem freshLevels_atomic : Atomic .bid freshLevels (run [.setBid (.finite 100) 5] newBook) := by
  have hentries : freshLevels.entries = [(.finite 98, 0), (.finite 99, 7)] := by decide +kernel
  refine (replace_atomic_iff ?_ .bid _).mpr (Or.inl ?_)
  · intro level hlevel
    rw [hentries] at hlevel
    simp only [List.mem_cons, List.not_mem_nil, or_false] at hlevel
    rcases hlevel with rfl | rfl <;> exact nofun
  · rw [hentries]
    decide +kernel

/-- A replacement with a negative price throws and takes the bids with it. -/
theorem replaceBids_not_atomic :
    create "AAPL".toList = .ok newBook
    ∧ (replaceBids (OrderedMap.ofEntries [(.finite (-1), 3)])
          (run [.setBid (.finite 100) 5] newBook)).1 = .error (.invalidArgument setBidWhat)
    ∧ (run [.setBid (.finite 100) 5] newBook).levels .bid = [(.finite 100, 5)]
    ∧ (replaceBids (OrderedMap.ofEntries [(.finite (-1), 3)])
          (run [.setBid (.finite 100) 5] newBook)).2.levels .bid = []
    ∧ ¬ Atomic .bid (OrderedMap.ofEntries [(.finite (-1), 3)])
        (run [.setBid (.finite 100) 5] newBook) := by
  refine ⟨rfl, by decide +kernel, by decide +kernel, by decide +kernel, ?_⟩
  intro h
  have hsame := congrArg (fun book => book.levels .bid) (h.unchanged (by decide +kernel))
  exact absurd hsame (by decide +kernel)

end OrderBook

end FinCore

/-
  FinCore.Core.BookHistory
  ────────────────────────
  The order book against the history of its operations.

  The abstract side of a book is a function from prices to volumes, and an
  operation is an update of that function: `given` says which volume an
  operation gives to a price it concerns.  `lastVolume` looks for the last
  operation of a history that concerned a price.  One step lemma relates a
  mutation of a side to `given`, one induction a whole history to
  `lastVolume`; both sides of the book are instances.
-/
import FinCore.Core.OrderBook

namespace FinCore

open FinCore.Cxx

/-! ## §1. Operations on one side and what they give. -/

/-- An operation on one side of a book. -/
inductive LevelOp where
  | set (price : Price) (volume : Volume)
  | replace (levels : Levels Double.lt)
  | clear

namespace LevelOp

/-- The operation as the code performs it. -/
def apply {lt : Price → Price → Bool} [Comparator lt] (what : Str) :
    LevelOp → Action (Levels lt) Exn Unit
  | set price volume => setLevel what price volume
  | replace levels => replaceLevels what levels
  | clear => Action.modify (fun _ => OrderedMap.empty)

/-- A level of volume zero is no level. -/
def present (volume : Volume) : Option Volume := if volume = 0 then none else some volume

/-- The volume an operation gives to the price `p`: `none` when it does not
concern `p`, `some none` when it leaves `p` absent. -/
def given : LevelOp → Price → Option (Option Volume)
  | set price volume, p =>
      if price = p then some (if Double.le price (.finite 0) then none else present volume)
      else none
  | replace levels, p => some ((levels.value? p).bind present)
  | clear, _ => some none

/-- Prices are numbers, and a replacement has positive prices only. -/
def Admissible : LevelOp → Prop
  | set price _ => price ≠ .nan
  | replace levels => ∀ p v, levels.Holds p v → Double.gt p (.finite 0) = true
  | clear => True

/-- The volume the last operation concerning `p` gave to `p`, if it left `p`
present. -/
def lastVolume (ops : List LevelOp) (p : Price) : Option Volume :=
  (ops.reverse.findSome? (fun op => op.given p)).join

theorem lastVolume_snoc (ops : List LevelOp) (op : LevelOp) (p : Price) :
    lastVolume (ops ++ [op]) p = (op.given p).getD (lastVolume ops p) := by
  unfold lastVolume
  rw [List.reverse_append, List.reverse_singleton, List.singleton_append, List.findSome?_cons]
  cases op.given p with
  | none => rfl
  | some v => rfl

end LevelOp

/-! ## §2. One side shows a function from prices to volumes. -/

theorem ne_nan_of_positive {p : Price} (h : Double.gt p (.finite 0) = true) : p ≠ .nan := by
  intro hp
  rw [hp] at h
  exact absurd h (by decide)

/-- The levels are the positive prices to which `volume` gives a volume. -/
structure Shows {lt : Price → Price → Bool} (levels : Levels lt)
    (volume : Price → Option Volume) : Prop where
  holds_iff : ∀ p v, levels.Holds p v ↔ volume p = some v
  positive : ∀ p v, levels.Holds p v → Double.gt p (.finite 0) = true
  nonzero : ∀ p v, levels.Holds p v → v ≠ 0

/-- A comparator that decides between any two prices other than NaN. -/
class PriceOrder (lt : Price → Price → Bool) : Prop extends Comparator lt where
  total : ∀ {a b}, a ≠ Double.nan → b ≠ Double.nan → lt a b = true ∨ a = b ∨ lt b a = true

instance : PriceOrder Double.lt where
  total := Double.lt_total

instance : PriceOrder Double.gt where
  total := by
    intro a b ha hb
    rcases Double.lt_total hb ha with h | h | h
    · exact Or.inl h
    · exact Or.inr (Or.inl h.symm)
    · exact Or.inr (Or.inr h)

theorem Shows.empty {lt : Price → Price → Bool} :
    Shows (OrderedMap.empty : Levels lt) (fun _ => none) where
  holds_iff := by
    intro p v
    constructor
    · intro h
      exact absurd h (OrderedMap.not_holds_empty p v)
    · intro h
      cases h
  positive := fun p v h => absurd h (OrderedMap.not_holds_empty p v)
  nonzero := fun p v h => absurd h (OrderedMap.not_holds_empty p v)

section Side

variable {lt : Price → Price → Bool} [PriceOrder lt]

theorem Shows.compares {levels : Levels lt} {volume : Price → Option Volume}
    (h : Shows levels volume) {p : Price} (hp : p ≠ .nan) : levels.Compares p := by
  intro e he
  exact PriceOrder.total (ne_nan_of_positive (h.positive e.1 e.2 he)) hp

/-- A rejected price changes nothing, here and in the function shown. -/
theorem setLevel_rejected (what : Str) {price : Price} (volume : Volume)
    (h : Double.le price (.finite 0) = true) (levels : Levels lt) :
    setLevel what price volume levels = (.error (.invalidArgument what), levels) := by
  rw [setLevel, if_pos h]
  rfl

theorem setLevel_accepted (what : Str) {price : Price} (volume : Volume)
    (h : Double.le price (.finite 0) = false) (levels : Levels lt) :
    setLevel what price volume levels
      = (.ok (), if volume = 0 then levels.erase price else levels.assign price volume) := by
  unfold setLevel
  rw [if_neg (by rw [h]; decide)]
  split <;> rfl

theorem setLevel_ok_iff (what : Str) (price : Price) (volume : Volume) (levels : Levels lt) :
    (setLevel what price volume levels).1 = .ok () ↔ Double.le price (.finite 0) = false := by
  cases h : Double.le price (.finite 0) with
  | true =>
      rw [setLevel_rejected what volume h]
      simp
  | false =>
      rw [setLevel_accepted what volume h]
      simp

theorem setLevel_unchanged {what : Str} {price : Price} {volume : Volume} {levels : Levels lt}
    (h : (setLevel what price volume levels).1 ≠ .ok ()) :
    (setLevel what price volume levels).2 = levels := by
  have hle : Double.le price (.finite 0) = true := by
    by_contra hno
    exact h ((setLevel_ok_iff what price volume levels).mpr (by simpa using hno))
  rw [setLevel_rejected what volume hle]

omit [PriceOrder lt] in
/-- A rejected price shows no volume, and no level has a price like it. -/
theorem Shows.rejected {levels : Levels lt} {volume : Price → Option Volume}
    (h : Shows levels volume) {price : Price} (v : Volume) (hp : price ≠ .nan)
    (hpos : Double.le price (.finite 0) = true) :
    Shows levels (fun p => ((LevelOp.set price v).given p).getD (volume p)) := by
  have hzero : (Double.finite 0) ≠ .nan := by decide
  refine ⟨fun p w => ?_, h.positive, h.nonzero⟩
  rw [h.holds_iff]
  simp only [LevelOp.given, hpos, if_true]
  by_cases hpp : price = p
  · rw [if_pos hpp]
    constructor
    · intro hw
      have hgt := h.positive p w ((h.holds_iff p w).mpr hw)
      rw [← hpp] at hgt
      have hle := (Double.le_eq_false_iff hp hzero).mpr hgt
      rw [hpos] at hle
      cases hle
    · intro hw
      cases hw
  · rw [if_neg hpp]
    rfl

/-- Volume zero takes the level out. -/
theorem Shows.erase {levels : Levels lt} {volume : Price → Option Volume}
    (h : Shows levels volume) {price : Price} (hp : price ≠ .nan)
    (hpos : Double.le price (.finite 0) = false) :
    Shows (levels.erase price)
      (fun p => ((LevelOp.set price 0).given p).getD (volume p)) := by
  have hcmp := h.compares hp
  refine ⟨fun p w => ?_, fun p w hw => ?_, fun p w hw => ?_⟩
  · rw [OrderedMap.holds_erase hcmp, h.holds_iff]
    simp only [LevelOp.given, hpos, LevelOp.present, if_true]
    by_cases hpp : price = p
    · simp [hpp]
    · simp [hpp, Ne.symm hpp]
  · exact h.positive p w ((OrderedMap.holds_erase hcmp p w).mp hw).2
  · exact h.nonzero p w ((OrderedMap.holds_erase hcmp p w).mp hw).2

/-- Any other volume replaces that of the level. -/
theorem Shows.assign {levels : Levels lt} {volume : Price → Option Volume}
    (h : Shows levels volume) {price : Price} {v : Volume} (hv : v ≠ 0) (hp : price ≠ .nan)
    (hpos : Double.le price (.finite 0) = false) :
    Shows (levels.assign price v)
      (fun p => ((LevelOp.set price v).given p).getD (volume p)) := by
  have hcmp := h.compares hp
  have hgt := (Double.le_eq_false_iff hp (by decide)).mp hpos
  refine ⟨fun p w => ?_, fun p w hw => ?_, fun p w hw => ?_⟩
  · rw [OrderedMap.holds_assign hcmp, h.holds_iff]
    simp only [LevelOp.given, hpos, LevelOp.present, hv, if_false]
    by_cases hpp : price = p
    · simp [hpp, eq_comm]
    · simp [hpp, Ne.symm hpp]
  · rcases (OrderedMap.holds_assign hcmp v p w).mp hw with ⟨hpp, _⟩ | ⟨_, hold⟩
    · rw [hpp]
      exact hgt
    · exact h.positive p w hold
  · rcases (OrderedMap.holds_assign hcmp v p w).mp hw with ⟨_, hwv⟩ | ⟨_, hold⟩
    · rw [hwv]
      exact hv
    · exact h.nonzero p w hold

/-- Setting a level updates the function shown at that price. -/
theorem Shows.set {levels : Levels lt} {volume : Price → Option Volume} (h : Shows levels volume)
    (what : Str) {price : Price} (v : Volume) (hp : price ≠ .nan) :
    Shows (setLevel what price v levels).2
      (fun p => ((LevelOp.set price v).given p).getD (volume p)) := by
  by_cases hpos : Double.le price (.finite 0) = true
  · rw [setLevel_rejected what v hpos]
    exact h.rejected v hp hpos
  · rw [Bool.not_eq_true] at hpos
    rw [setLevel_accepted what v hpos]
    by_cases hv : v = 0
    · rw [if_pos hv, hv]
      exact h.erase hp hpos
    · rw [if_neg hv]
      exact h.assign hv hp hpos

/-- The volume a list of levels with distinct prices gives to `p`. -/
def listVolume (es : List (Price × Volume)) (volume : Price → Option Volume) (p : Price) :
    Option Volume :=
  match es.find? (fun e => decide (e.1 = p)) with
  | some e => LevelOp.present e.2
  | none => volume p

/-- Setting levels one after the other shows them all. -/
theorem Shows.setLevels (what : Str) {es : List (Price × Volume)}
    (hpos : ∀ e ∈ es, Double.gt e.1 (.finite 0) = true) (hnodup : (es.map Prod.fst).Nodup) :
    ∀ {levels : Levels lt} {volume : Price → Option Volume}, Shows levels volume →
      Shows (setLevels what es levels).2 (listVolume es volume) := by
  induction es with
  | nil =>
      intro levels volume h
      exact h
  | cons e es ih =>
      intro levels volume h
      obtain ⟨price, v⟩ := e
      have hprice := hpos (price, v) List.mem_cons_self
      have hne := ne_nan_of_positive hprice
      have hle : Double.le price (.finite 0) = false :=
        (Double.le_eq_false_iff hne (by decide)).mpr hprice
      obtain ⟨hfresh, hnodup'⟩ := List.nodup_cons.mp hnodup
      have hstep := h.set what v hne
      have hrest := ih (fun e he => hpos e (List.mem_cons_of_mem _ he)) hnodup' hstep
      have hrun : (FinCore.setLevels what ((price, v) :: es) levels).2
          = (FinCore.setLevels what es (setLevel what price v levels).2).2 := by
        rw [FinCore.setLevels, Action.bind_ok (setLevel_accepted what v hle levels),
          setLevel_accepted what v hle levels]
      have hfun : listVolume ((price, v) :: es) volume
          = listVolume es (fun p => ((LevelOp.set price v).given p).getD (volume p)) := by
        funext p
        unfold listVolume
        by_cases hpp : price = p
        · -- no later level has this price
          subst hpp
          have hnone : es.find? (fun e => decide (e.1 = price)) = none := by
            rw [List.find?_eq_none]
            intro f hf hfp
            exact hfresh (List.mem_map.mpr ⟨f, hf, by simpa using hfp⟩)
          simp [hnone, LevelOp.given, hle]
        · simp [hpp, LevelOp.given]
      rw [hrun, hfun]
      exact hrest

theorem positive_of_holds {levels : Levels Double.lt}
    (h : ∀ p v, levels.Holds p v → Double.gt p (.finite 0) = true) :
    ∀ e ∈ levels.entries, Double.gt e.1 (.finite 0) = true :=
  fun e he => h e.1 e.2 he

/-- **One operation updates the function shown by what it gives.** -/
theorem Shows.apply {levels : Levels lt} {volume : Price → Option Volume}
    (h : Shows levels volume) (what : Str) {op : LevelOp} (hop : op.Admissible) :
    Shows (op.apply what levels).2 (fun p => (op.given p).getD (volume p)) := by
  cases op with
  | set price v => exact h.set what v hop
  | replace new =>
      have hempty : Shows (OrderedMap.empty : Levels lt) (fun _ => none) := Shows.empty
      have hall := hempty.setLevels what (positive_of_holds hop) new.keys_nodup
      have hfun : listVolume new.entries (fun _ => none)
          = fun p => ((LevelOp.replace new).given p).getD (volume p) := by
        funext p
        show listVolume new.entries (fun _ => none) p = (new.value? p).bind LevelOp.present
        unfold listVolume OrderedMap.value?
        cases new.entries.find? (fun e => decide (e.1 = p)) with
        | none => rfl
        | some e => rfl
      rw [hfun] at hall
      exact hall
  | clear => exact Shows.empty

/-- The levels after a history that started from no levels. -/
def runLevels (what : Str) (ops : List LevelOp) : Levels lt :=
  ops.foldl (fun levels op => (op.apply what levels).2) OrderedMap.empty

/-- **A history shows, at every price, the last volume given to it.** -/
theorem shows_runLevels (what : Str) {ops : List LevelOp} (h : ∀ op ∈ ops, op.Admissible) :
    Shows (runLevels what ops : Levels lt) (LevelOp.lastVolume ops) := by
  induction ops using List.reverseRecOn with
  | nil => exact Shows.empty
  | append_singleton ops op ih =>
      have hops := ih (fun o ho => h o (List.mem_append_left _ ho))
      have hstep := hops.apply what (h op (List.mem_append_right _ (List.mem_singleton_self op)))
      have hrun : (runLevels what (ops ++ [op]) : Levels lt)
          = (op.apply what (runLevels what ops)).2 := by
        unfold runLevels
        rw [List.foldl_append]
        rfl
      have hfun : LevelOp.lastVolume (ops ++ [op])
          = fun p => (op.given p).getD (LevelOp.lastVolume ops p) := by
        funext p
        exact LevelOp.lastVolume_snoc ops op p
      rw [hrun, hfun]
      exact hstep

end Side

/-! ## §3. The book as a pair of histories. -/

inductive Side where
  | bid
  | ask
  deriving DecidableEq

/-- A call on an order book. -/
inductive BookOp where
  | setBid (price : Price) (volume : Volume)
  | setAsk (price : Price) (volume : Volume)
  | replaceBids (levels : Levels Double.lt)
  | replaceAsks (levels : Levels Double.lt)
  | clear

namespace BookOp

def apply : BookOp → Action OrderBook Exn Unit
  | setBid price volume => OrderBook.setBid price volume
  | setAsk price volume => OrderBook.setAsk price volume
  | replaceBids levels => OrderBook.replaceBids levels
  | replaceAsks levels => OrderBook.replaceAsks levels
  | clear => OrderBook.clear

/-- What a call is on one side: an operation, or nothing. -/
def onSide : Side → BookOp → Option LevelOp
  | .bid, setBid price volume => some (.set price volume)
  | .bid, replaceBids levels => some (.replace levels)
  | .ask, setAsk price volume => some (.set price volume)
  | .ask, replaceAsks levels => some (.replace levels)
  | _, clear => some .clear
  | _, _ => none

/-- Prices are numbers, and replacement maps have positive prices only. -/
def Admissible (op : BookOp) : Prop := ∀ side l, op.onSide side = some l → l.Admissible

/-- The volume the last operation on `side` that concerned `p` gave to `p`. -/
def lastVolume (side : Side) (ops : List BookOp) (p : Price) : Option Volume :=
  LevelOp.lastVolume (ops.filterMap (onSide side)) p

end BookOp

namespace OrderBook

/-- The state after a history of calls; a call that throws leaves its state to
the next one. -/
def run (ops : List BookOp) (book : OrderBook) : OrderBook :=
  ops.foldl (fun book op => (op.apply book).2) book

theorem apply_bids (op : BookOp) (book : OrderBook) :
    (op.apply book).2.bids =
      match op.onSide .bid with
      | some l => (l.apply setBidWhat book.bids).2
      | none => book.bids := by
  cases op <;> rfl

theorem apply_asks (op : BookOp) (book : OrderBook) :
    (op.apply book).2.asks =
      match op.onSide .ask with
      | some l => (l.apply setAskWhat book.asks).2
      | none => book.asks := by
  cases op <;> rfl

theorem run_snoc (ops : List BookOp) (op : BookOp) (book : OrderBook) :
    run (ops ++ [op]) book = (op.apply (run ops book)).2 := by
  unfold run
  rw [List.foldl_append]
  rfl

/-- The bid side sees the bid operations only. -/
theorem run_bids (ops : List BookOp) {book : OrderBook} (h : book.bids = OrderedMap.empty) :
    (run ops book).bids = runLevels setBidWhat (ops.filterMap (BookOp.onSide .bid)) := by
  induction ops using List.reverseRecOn with
  | nil => exact h
  | append_singleton ops op ih =>
      rw [run_snoc, apply_bids, ih, List.filterMap_append]
      cases hside : op.onSide .bid with
      | none => simp [hside]
      | some l => simp [hside, runLevels, List.foldl_append]

theorem run_asks (ops : List BookOp) {book : OrderBook} (h : book.asks = OrderedMap.empty) :
    (run ops book).asks = runLevels setAskWhat (ops.filterMap (BookOp.onSide .ask)) := by
  induction ops using List.reverseRecOn with
  | nil => exact h
  | append_singleton ops op ih =>
      rw [run_snoc, apply_asks, ih, List.filterMap_append]
      cases hside : op.onSide .ask with
      | none => simp [hside]
      | some l => simp [hside, runLevels, List.foldl_append]

theorem admissible_onSide {ops : List BookOp} (h : ∀ op ∈ ops, op.Admissible) (side : Side) :
    ∀ l ∈ ops.filterMap (BookOp.onSide side), l.Admissible := by
  intro l hl
  obtain ⟨op, hop, hside⟩ := List.mem_filterMap.mp hl
  exact h op hop side l hside

/-- The book shows the histories of its two sides: what is stored, that it is
well formed, the best prices and the depths. -/
structure Refines (ops : List BookOp) (book : OrderBook) : Prop where
  bids : ∀ p v, book.bids.Holds p v ↔ BookOp.lastVolume .bid ops p = some v
  asks : ∀ p v, book.asks.Holds p v ↔ BookOp.lastVolume .ask ops p = some v
  bids_valid : ∀ p v, book.bids.Holds p v → Double.gt p (.finite 0) = true ∧ v ≠ 0
  asks_valid : ∀ p v, book.asks.Holds p v → Double.gt p (.finite 0) = true ∧ v ≠ 0
  bestBid_none : book.bestBid = none ↔ ∀ p v, ¬ book.bids.Holds p v
  bestAsk_none : book.bestAsk = none ↔ ∀ p v, ¬ book.asks.Holds p v
  /-- The best bid is the greatest bid price. -/
  bestBid_max : ∀ p, book.bestBid = some p ↔
    (∃ v, book.bids.Holds p v) ∧ ∀ q w, book.bids.Holds q w → Double.le q p = true
  /-- The best ask is the least ask price. -/
  bestAsk_min : ∀ p, book.bestAsk = some p ↔
    (∃ v, book.asks.Holds p v) ∧ ∀ q w, book.asks.Holds q w → Double.le p q = true
  bidDepth : book.bidDepth = Set.ncard {p | ∃ v, book.bids.Holds p v}
  askDepth : book.askDepth = Set.ncard {p | ∃ v, book.asks.Holds p v}

/-- What the best price of a side is, in terms of `<=` on prices. -/
theorem best_eq_some_iff {lt : Price → Price → Bool} [PriceOrder lt] {levels : Levels lt}
    {volume : Price → Option Volume} (h : Shows levels volume) (le : Price → Price → Bool)
    (hle : ∀ {p q}, p ≠ Double.nan → q ≠ Double.nan → (le p q = true ↔ q = p ∨ lt p q = true))
    (p : Price) :
    levels.entries.head?.map Prod.fst = some p ↔
      (∃ v, levels.Holds p v) ∧ ∀ q w, levels.Holds q w → le p q = true := by
  rw [OrderedMap.head_eq_some_iff]
  constructor
  · intro ⟨⟨v, hv⟩, hmin⟩
    refine ⟨⟨v, hv⟩, fun q w hw => ?_⟩
    exact (hle (ne_nan_of_positive (h.positive p v hv))
      (ne_nan_of_positive (h.positive q w hw))).mpr (hmin q w hw)
  · intro ⟨⟨v, hv⟩, hmin⟩
    refine ⟨⟨v, hv⟩, fun q w hw => ?_⟩
    exact (hle (ne_nan_of_positive (h.positive p v hv))
      (ne_nan_of_positive (h.positive q w hw))).mp (hmin q w hw)

theorem refines_of_shows {ops : List BookOp} {book : OrderBook}
    (hb : Shows book.bids (BookOp.lastVolume .bid ops))
    (ha : Shows book.asks (BookOp.lastVolume .ask ops)) : Refines ops book where
  bids := hb.holds_iff
  asks := ha.holds_iff
  bids_valid := fun p v h => ⟨hb.positive p v h, hb.nonzero p v h⟩
  asks_valid := fun p v h => ⟨ha.positive p v h, ha.nonzero p v h⟩
  bestBid_none := OrderedMap.head_eq_none_iff
  bestAsk_none := OrderedMap.head_eq_none_iff
  bestBid_max := by
    refine best_eq_some_iff hb (fun p q => Double.le q p) ?_
    intro p q hp hq
    rw [Double.le_iff hq hp]
    show _ ↔ q = p ∨ Double.lt q p = true
    exact or_comm
  bestAsk_min := by
    refine best_eq_some_iff ha Double.le ?_
    intro p q hp hq
    rw [Double.le_iff hp hq, or_comm, eq_comm]
  bidDepth := book.bids.size_eq_ncard
  askDepth := book.asks.size_eq_ncard

/-- **The order book refines its operation history.**  From a new book, after
any calls, thrown ones included, each side holds at every price the volume its
last operation gave there; a set that throws changes nothing, and no operation
reaches the other side. -/
theorem run_refines (symbol : Symbol) {book₀ : OrderBook} (hnew : create symbol = .ok book₀)
    {ops : List BookOp} (hops : ∀ op ∈ ops, op.Admissible) :
    Refines ops (run ops book₀)
    ∧ (∀ book price volume, ((setBid price volume book).1 = .ok () ↔
          Double.le price (.finite 0) = false)
        ∧ ((setBid price volume book).1 ≠ .ok () → (setBid price volume book).2 = book)
        ∧ ((setAsk price volume book).1 = .ok () ↔ Double.le price (.finite 0) = false)
        ∧ ((setAsk price volume book).1 ≠ .ok () → (setAsk price volume book).2 = book))
    ∧ (∀ (op : BookOp) book, (op.onSide .bid = none → (op.apply book).2.bids = book.bids)
        ∧ (op.onSide .ask = none → (op.apply book).2.asks = book.asks)) := by
  have hempty : book₀.bids = OrderedMap.empty ∧ book₀.asks = OrderedMap.empty := by
    unfold create at hnew
    split at hnew
    · cases hnew
    · injection hnew with hnew
      rw [← hnew]
      exact ⟨rfl, rfl⟩
  -- each side starts empty and sees the operations on it alone
  refine ⟨refines_of_shows ?_ ?_, fun book price volume => ⟨?_, ?_, ?_, ?_⟩,
    fun op book => ⟨?_, ?_⟩⟩
  · rw [run_bids ops hempty.1]
    exact shows_runLevels setBidWhat (admissible_onSide hops .bid)
  · rw [run_asks ops hempty.2]
    exact shows_runLevels setAskWhat (admissible_onSide hops .ask)
  · exact setLevel_ok_iff setBidWhat price volume book.bids
  · intro h
    show ({ book with bids := _ } : OrderBook) = book
    rw [setLevel_unchanged h]
  · exact setLevel_ok_iff setAskWhat price volume book.asks
  · intro h
    show ({ book with asks := _ } : OrderBook) = book
    rw [setLevel_unchanged h]
  · intro h
    rw [apply_bids, h]
  · intro h
    rw [apply_asks, h]

/-- A bid, a rejected one, an ask, a replacement with an empty level, and the
ask's removal. -/
def sampleHistory : List BookOp :=
  [.setBid (.finite 100) 5, .setBid (.finite (-1)) 3, .setAsk (.finite 101) 2,
    .replaceBids (OrderedMap.ofEntries [(.finite 99, 7), (.finite 98, 0)]),
    .setAsk (.finite 101) 0]

theorem run_refines_sampleHistory :
    ∃ book₀, create "IBM".toList = .ok book₀
      ∧ Refines sampleHistory (run sampleHistory book₀)
      ∧ (run sampleHistory book₀).bestBid = some (.finite 99)
      ∧ (run sampleHistory book₀).bestAsk = none := by
  have hlevels : ∀ e ∈ (OrderedMap.ofEntries [(.finite 99, 7), (.finite 98, 0)] :
      Levels Double.lt).entries, Double.gt e.1 (.finite 0) = true := by decide +kernel
  refine ⟨{ symbol := "IBM".toList, symbol_ne := by decide }, rfl, ?_, by decide +kernel,
    by decide +kernel⟩
  refine (run_refines "IBM".toList rfl ?_).1
  intro op hop side l hl
  simp only [sampleHistory, List.mem_cons, List.not_mem_nil, or_false] at hop
  rcases hop with rfl | rfl | rfl | rfl | rfl <;> cases side <;> cases hl
  · exact Double.noConfusion
  · exact Double.noConfusion
  · exact Double.noConfusion
  · exact fun p v h => hlevels (p, v) h
  · exact Double.noConfusion

end OrderBook

end FinCore

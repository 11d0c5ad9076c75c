/-
  FinCore.Cli.BookTracking
  ────────────────────────
  The in-memory books follow the quotes.

  The log of the service calls says which quote a symbol's book was last made
  from: one that Redis gave, or one whose store returned.  `Tracks` says that
  the three members of the CLI agree with the log and with each other; a fetch
  preserves it (`fetchCall_tracks`), and so does a session
  (`session_books_track`).
-/
import FinCore.Cli.SessionTrace

namespace FinCore.Cli

open FinCore.Cxx

/-! ## §1. Usable quotes. -/

/-- The quote a call makes usable for a symbol. -/
def ServiceCall.usable? (symbol : Symbol) : ServiceCall → Option Quote
  | getCachedQuote s (.ok (some quote)) => if s = symbol then some quote else none
  | storeQuote s quote (.ok _) => if s = symbol then some quote else none
  | _ => none

/-- The most recent of them. -/
def lastUsable (symbol : Symbol) (log : List ServiceCall) : Option Quote :=
  (log.filterMap (ServiceCall.usable? symbol)).getLast?

theorem lastUsable_append (symbol : Symbol) (log calls : List ServiceCall) :
    lastUsable symbol (log ++ calls)
      = ((calls.filterMap (ServiceCall.usable? symbol)).getLast?).or (lastUsable symbol log) := by
  unfold lastUsable
  rw [List.filterMap_append, List.getLast?_append]

/-- The exception a call ended in. -/
def ServiceCall.error? : ServiceCall → Option Exn
  | getCachedQuote _ (.error e) => some e
  | getQuote _ (.error e) => some e
  | lastWasCached (.error e) => some e
  | redisIsConnected (.error e) => some e
  | storeQuote _ _ (.error e) => some e
  | updateOrderBook _ _ _ (.error e) => some e
  | persistQuote _ (.error e) => some e
  | persistSnapshot _ _ (.error e) => some e
  | _ => none

section Path

variable {durable : Bool} {symbol : Symbol} {rebuilt : Quote → OrderBook} {now : TimePoint}

theorem BookPath.usable {quote : Quote} {stored : Bool} {calls : List ServiceCall}
    {result : Except Exn Bool} (h : BookPath durable symbol rebuilt now quote stored calls result)
    (other : Symbol) : calls.filterMap (ServiceCall.usable? other) = [] := by
  cases h <;> rfl

theorem BookPath.error_from {quote : Quote} {stored : Bool} {calls : List ServiceCall}
    {e : Exn} (h : BookPath durable symbol rebuilt now quote stored calls (.error e)) :
    ∃ c ∈ calls, c.error? = some e := by
  cases h <;> simp [ServiceCall.error?, publishing]

variable {built : Option Quote} {calls : List ServiceCall} {result : Except Exn Bool}

/-- A fetch makes at most one quote usable: the one it builds the book from. -/
theorem FetchPath.usable (h : FetchPath durable symbol rebuilt now built calls result) :
    calls.filterMap (ServiceCall.usable? symbol) = built.toList := by
  cases h with
  | hit quote h =>
      simp only [List.filterMap_cons, h.usable symbol, ServiceCall.usable?, if_true]
      rfl
  | fetched quote cached stored h =>
      simp only [List.filterMap_cons, h.usable symbol, ServiceCall.usable?, if_true]
      rfl
  | storeThrew quote cached e => rfl
  | _ => rfl

/-- And none for any other symbol. -/
theorem FetchPath.usable_other (h : FetchPath durable symbol rebuilt now built calls result)
    {other : Symbol} (hne : symbol ≠ other) :
    calls.filterMap (ServiceCall.usable? other) = [] := by
  cases h with
  | hit quote h =>
      simp only [List.filterMap_cons, h.usable other, ServiceCall.usable?, if_neg hne]
  | fetched quote cached stored h =>
      simp only [List.filterMap_cons, h.usable other, ServiceCall.usable?, if_neg hne]
  | _ => rfl

/-- What a fetch throws, a service has thrown. -/
theorem FetchPath.error_from {e : Exn}
    (h : FetchPath durable symbol rebuilt now built calls (.error e)) :
    ∃ c ∈ calls, c.error? = some e := by
  cases h with
  | hit quote h =>
      obtain ⟨c, hc, herror⟩ := h.error_from
      exact ⟨c, List.mem_cons_of_mem _ hc, herror⟩
  | fetched quote cached stored h =>
      obtain ⟨c, hc, herror⟩ := h.error_from
      exact ⟨c, by simp [hc], herror⟩
  | _ => simp [ServiceCall.error?]

/-- A quote that is stored has just come from the API. -/
theorem FetchPath.stored_from (h : FetchPath durable symbol rebuilt now built calls result)
    {s : Symbol} {quote : Quote} {r : Except Exn Bool} (hmem : .storeQuote s quote r ∈ calls) :
    .getQuote s (.ok (some quote)) ∈ calls := by
  obtain ⟨rfl, hget, _⟩ := (h.cacheAside.storeQuote_iff s quote).mp ⟨r, hmem⟩
  exact hget

end Path

/-! ## §2. The invariant. -/

/-- The books, the set of symbols with data and the configured symbols agree
with the calls made so far. -/
structure Tracks {σ : Type} (cli : FinCoreCli σ) (s : Logged σ) : Prop where
  outside : ∀ symbol ∉ cli.symbols,
    s.2.books symbol = none ∧ lastUsable symbol s.1.2 = none
  book : ∀ symbol ∈ cli.symbols, ∃ new, OrderBook.create symbol = .ok new
    ∧ s.2.books symbol
      = some ((lastUsable symbol s.1.2).elim new (FinCoreCli.rebuilt new))
  withData : ∀ symbol, symbol ∈ s.2.booksWithData ↔ (lastUsable symbol s.1.2).isSome = true
  stored : ∀ {symbol quote r}, .storeQuote symbol quote r ∈ s.1.2 →
    .getQuote symbol (.ok (some quote)) ∈ s.1.2

section Tracks

variable {σ : Type} {cli : FinCoreCli σ}

theorem Tracks.configured_iff {s : Logged σ} (h : Tracks cli s) (symbol : Symbol) :
    FinCoreCli.isConfigured s.2 symbol = true ↔ symbol ∈ cli.symbols := by
  unfold FinCoreCli.isConfigured
  constructor
  · intro hbook
    by_contra hmem
    rw [(h.outside symbol hmem).1] at hbook
    cases hbook
  · intro hmem
    obtain ⟨new, _, hbook⟩ := h.book symbol hmem
    rw [hbook]
    rfl

theorem create_symbol {symbol : Symbol} {new : OrderBook}
    (h : OrderBook.create symbol = .ok new) :
    new.symbol = symbol ∧ new.bids = OrderedMap.empty ∧ new.asks = OrderedMap.empty := by
  unfold OrderBook.create at h
  split at h
  · cases h
  · obtain rfl := Except.ok.inj h
    exact ⟨rfl, rfl, rfl⟩

/-- A book rebuilt once or again carries the same symbol. -/
theorem elim_symbol (new : OrderBook) (quote : Option Quote) :
    (quote.elim new (FinCoreCli.rebuilt new)).symbol = new.symbol := by
  cases quote with
  | none => rfl
  | some quote => exact FinCoreCli.rebuilt_symbol new quote

theorem Tracks.idle {s t : Logged σ} (h : Tracks cli s) (hidle : Idle s t) : Tracks cli t := by
  obtain ⟨hmembers, checks, hchecks⟩ := hidle
  have hlast : ∀ symbol, lastUsable symbol t.1.2 = lastUsable symbol s.1.2 := by
    intro symbol
    have hnone : (checks.map ServiceCall.redisIsConnected).filterMap (ServiceCall.usable? symbol)
        = [] := by
      rw [List.filterMap_map]
      exact List.filterMap_eq_nil_iff.mpr (fun _ _ => rfl)
    rw [hchecks, lastUsable_append, hnone]
    rfl
  constructor
  · intro symbol hmem
    rw [hmembers.books, hlast]
    exact h.outside symbol hmem
  · intro symbol hmem
    rw [hmembers.books, hlast]
    exact h.book symbol hmem
  · intro symbol
    rw [hmembers.booksWithData, hlast]
    exact h.withData symbol
  · intro symbol quote r hmem
    rw [hchecks] at hmem ⊢
    simp only [List.mem_append, List.mem_map, reduceCtorEq, and_false, exists_false, or_false]
      at hmem ⊢
    exact h.stored hmem

theorem Tracks.cleared {s t : Logged σ} (h : Tracks cli s) (hcleared : Cleared s t) :
    Tracks cli t := by
  obtain ⟨hbooks, hdata, _, hworld⟩ := hcleared
  constructor
  · rw [hbooks, hworld]
    exact h.outside
  · rw [hbooks, hworld]
    exact h.book
  · rw [hdata, hworld]
    exact h.withData
  · rw [hworld]
    exact h.stored

/-- **A fetch preserves the invariant**, wherever it ends. -/
theorem fetchCall_tracks {fetch : FetchCall σ} (h : Tracks cli fetch.start) :
    Tracks cli (fetch.finish cli) := by
  obtain ⟨before, now, built, calls, hbook, hcalls, hpath, hrebuilds, _⟩ := cli.fetchCall_run fetch
  have hself : lastUsable fetch.symbol (fetch.finish cli).1.2
      = built.or (lastUsable fetch.symbol fetch.start.1.2) := by
    rw [hcalls, lastUsable_append, hpath.usable]
    cases built <;> rfl
  have hother : ∀ symbol, fetch.symbol ≠ symbol →
      lastUsable symbol (fetch.finish cli).1.2 = lastUsable symbol fetch.start.1.2 := by
    intro symbol hne
    rw [hcalls, lastUsable_append, hpath.usable_other hne]
    rfl
  have hconfigured : fetch.symbol ∈ cli.symbols := (h.configured_iff _).mp fetch.configured
  constructor
  · intro symbol hmem
    have hne : symbol ≠ fetch.symbol := fun heq => hmem (heq ▸ hconfigured)
    rw [hrebuilds.book_other hne, hother symbol (Ne.symm hne)]
    exact h.outside symbol hmem
  · intro symbol hmem
    obtain ⟨new, hnew, hnewBook⟩ := h.book symbol hmem
    refine ⟨new, hnew, ?_⟩
    by_cases heq : symbol = fetch.symbol
    · subst heq
      rw [hrebuilds.book_self, hself]
      cases built with
      | none => exact hnewBook
      | some quote =>
          -- the book is rebuilt from scratch; only its symbol is kept
          have hsame : before.symbol = new.symbol := by
            rw [hbook] at hnewBook
            rw [Option.some.inj hnewBook, elim_symbol]
          simp only [Option.elim_some, Option.some_or]
          rw [FinCoreCli.rebuilt_congr hsame]
    · rw [hrebuilds.book_other heq, hother symbol (Ne.symm heq)]
      exact hnewBook
  · intro symbol
    by_cases heq : symbol = fetch.symbol
    · subst heq
      rw [hrebuilds.mem_self, hself]
      cases built with
      | none =>
          rw [Option.none_or, ← h.withData fetch.symbol]
          simp
      | some quote => simp
    · rw [hrebuilds.mem_other heq, hother symbol (Ne.symm heq)]
      exact h.withData symbol
  · intro symbol quote r hmem
    rw [hcalls, List.mem_append] at hmem ⊢
    rcases hmem with hmem | hmem
    · exact Or.inl (h.stored hmem)
    · exact Or.inr (hpath.stored_from hmem)

/-- **The invariant holds along a trace.** -/
theorem Trace.tracks {s t : Logged σ} {events : List (Happening σ)} (h : Trace cli s events t) :
    Tracks cli s → Tracks cli t ∧ ∀ fetch, .fetch fetch ∈ events → Tracks cli fetch.start := by
  induction h with
  | idle hidle =>
      intro hs
      exact ⟨hs.idle hidle, fun fetch hmem => absurd hmem List.not_mem_nil⟩
  | fetch fetch =>
      intro hs
      refine ⟨fetchCall_tracks hs, fun fetch' hmem => ?_⟩
      obtain rfl := Happening.fetch.inj (List.mem_singleton.mp hmem)
      exact hs
  | reset hcleared =>
      intro hs
      refine ⟨hs.cleared hcleared, fun fetch hmem => ?_⟩
      cases List.mem_singleton.mp hmem
  | append _ _ ih ih' =>
      intro hs
      obtain ⟨ht, hfirst⟩ := ih hs
      obtain ⟨hu, hsecond⟩ := ih' ht
      refine ⟨hu, fun fetch hmem => ?_⟩
      rcases List.mem_append.mp hmem with hmem | hmem
      · exact hfirst fetch hmem
      · exact hsecond fetch hmem

end Tracks

/-! ## §3. The first state. -/

/-- Emplacing the books of symbols that are not empty. -/
theorem emplaceBooks_spec (symbols : List Symbol) :
    ∀ books : Symbol → Option OrderBook, (∀ symbol ∈ symbols, symbol ≠ []) →
      ∃ books', emplaceBooks symbols books = .ok books'
        ∧ ∀ symbol, books' symbol = (books symbol).or
          (if symbol ∈ symbols then (OrderBook.create symbol).toOption else none) := by
  induction symbols with
  | nil =>
      intro books _
      refine ⟨books, rfl, fun symbol => ?_⟩
      rw [if_neg List.not_mem_nil, Option.or_none]
  | cons first rest ih =>
      intro books hne
      have hrest : ∀ symbol ∈ rest, symbol ≠ [] :=
        fun symbol hmem => hne symbol (List.mem_cons_of_mem _ hmem)
      unfold emplaceBooks
      cases hfirst : books first with
      | some book =>
          -- a book that is there stays
          obtain ⟨books', hrun, hbooks'⟩ := ih books hrest
          refine ⟨books', hrun, fun symbol => ?_⟩
          rw [hbooks']
          by_cases heq : symbol = first
          · rw [heq, hfirst]
            rfl
          · simp only [List.mem_cons, heq, false_or]
      | none =>
          have hcreate : OrderBook.create first
              = .ok { symbol := first, symbol_ne := hne first List.mem_cons_self } :=
            dif_neg (hne first List.mem_cons_self)
          obtain ⟨books', hrun, hbooks'⟩ := ih (Function.update books first (some _)) hrest
          refine ⟨books', ?_, fun symbol => ?_⟩
          · simp only
            rw [hcreate]
            exact hrun
          · rw [hbooks']
            by_cases heq : symbol = first
            · subst heq
              rw [Function.update_self, hfirst, if_pos List.mem_cons_self, hcreate]
              rfl
            · rw [Function.update_of_ne heq]
              simp only [List.mem_cons, heq, false_or]

/-- **The constructor accepts symbols that are not empty**, and the invariant
holds at once. -/
theorem create_tracks {σ : Type} (services : CliServices σ) {symbols : List Str}
    (defaultPollSeconds : ℤ) (host : Host) (hne : ∀ symbol ∈ symbols, symbol ≠ []) :
    ∃ cli st, FinCoreCli.create services symbols defaultPollSeconds host = .ok (cli, st)
      ∧ cli.symbols = symbols.map normalizeSymbol ∧ ∀ w, Tracks cli ((w, []), st) := by
  have hnormalized : ∀ symbol ∈ symbols.map normalizeSymbol, symbol ≠ [] := by
    intro symbol hmem
    obtain ⟨raw, hraw, rfl⟩ := List.mem_map.mp hmem
    intro hnil
    exact hne raw hraw (List.map_eq_nil_iff.mp hnil)
  obtain ⟨books, hbooks, hspec⟩ := emplaceBooks_spec _ (fun _ => none) hnormalized
  have hcreate : FinCoreCli.create services symbols defaultPollSeconds host
      = .ok ({ services := services, symbols := symbols.map normalizeSymbol
               defaultPollSeconds := defaultPollSeconds, host := host }, { books := books }) := by
    unfold FinCoreCli.create
    simp only [hbooks]
    rfl
  refine ⟨_, _, hcreate, rfl, fun w => ?_⟩
  -- nothing has been fetched, so every book is new
  constructor
  · intro symbol hmem
    refine ⟨?_, rfl⟩
    show books symbol = none
    rw [hspec, if_neg hmem]
    rfl
  · intro symbol hmem
    have hnew : OrderBook.create symbol
        = .ok { symbol := symbol, symbol_ne := hnormalized symbol hmem } :=
      dif_neg (hnormalized symbol hmem)
    refine ⟨_, hnew, ?_⟩
    show books symbol = _
    rw [hspec, if_pos hmem, hnew]
    rfl
  · intro symbol
    simp [lastUsable]
  · intro symbol quote r hmem
    exact absurd hmem List.not_mem_nil

/-! ## §4. Sessions. -/

/-- What the members of the CLI and the command `book` show of the calls made so
far. -/
structure BooksTrack {σ : Type} (cli : FinCoreCli σ) (symbols : List Str) (s : Logged σ) :
    Prop where
  keys : ∀ symbol, FinCoreCli.isConfigured s.2 symbol = true ↔ symbol ∈ symbols.map normalizeSymbol
  lookup : ∀ symbol, cli.vectorFinds symbol = FinCoreCli.isConfigured s.2 symbol
  carries : ∀ symbol book, s.2.books symbol = some book → book.symbol = symbol
  empty : ∀ symbol book, s.2.books symbol = some book → symbol ∉ s.2.booksWithData →
    book.bids = OrderedMap.empty ∧ book.asks = OrderedMap.empty
  miss : ∀ arg, FinCoreCli.isConfigured s.2 (normalizeSymbol arg) = true →
    normalizeSymbol arg ∉ s.2.booksWithData →
    cli.logged.handleBook [arg] s = FinCoreCli.emit (.bookMiss (normalizeSymbol arg)) s
  shows : ∀ arg book, s.2.books (normalizeSymbol arg) = some book →
    normalizeSymbol arg ∈ s.2.booksWithData →
    ∃ now us t, cli.logged.handleBook [arg] s = (.ok (), t)
      ∧ t.2.events = s.2.events ++ [.snapshot (book.snapshot now 0), .snapshotTime us]
  unobtained : ∀ symbol ∉ s.2.booksWithData, lastUsable symbol s.1.2 = none
  current : ∀ symbol ∈ s.2.booksWithData, ∃ quote new, lastUsable symbol s.1.2 = some quote
    ∧ OrderBook.create symbol = .ok new
    ∧ s.2.books symbol = some (FinCoreCli.rebuilt new quote)
  /-- A quote that was stored is one the API gave. -/
  stored : ∀ symbol quote r, .storeQuote symbol quote r ∈ s.1.2 →
    .getQuote symbol (.ok (some quote)) ∈ s.1.2

section Sessions

variable {σ : Type} {cli : FinCoreCli σ}

/-- `book` of a configured symbol without data. -/
theorem handleBook_miss (cli : FinCoreCli σ) {arg : Str} {s : σ × CliState}
    (hconfigured : FinCoreCli.isConfigured s.2 (normalizeSymbol arg) = true)
    (hdata : normalizeSymbol arg ∉ s.2.booksWithData) :
    cli.handleBook [arg] s = FinCoreCli.emit (.bookMiss (normalizeSymbol arg)) s := by
  show (if FinCoreCli.isConfigured s.2 (normalizeSymbol arg) = false then _
    else if normalizeSymbol arg ∉ s.2.booksWithData then _ else _ : Action _ _ _) s = _
  rw [hconfigured, if_neg (by decide), if_pos hdata]

/-- `book` of a symbol with data: `at` finds the book. -/
theorem handleBook_shows (cli : FinCoreCli σ) {arg : Str} {book : OrderBook} {s : σ × CliState}
    (hbook : s.2.books (normalizeSymbol arg) = some book)
    (hdata : normalizeSymbol arg ∈ s.2.booksWithData) :
    ∃ now us t, cli.handleBook [arg] s = (.ok (), t)
      ∧ t.2.events = s.2.events ++ [.snapshot (book.snapshot now 0), .snapshotTime us] := by
  have hconfigured : FinCoreCli.isConfigured s.2 (normalizeSymbol arg) = true := by
    unfold FinCoreCli.isConfigured
    rw [hbook]
    rfl
  -- both refusals passed, the book is found by `at`
  have hrun : cli.handleBook [arg] s = (do
      let started ← FinCoreCli.readHost cli.host.steadyNow
      let now ← FinCoreCli.readHost cli.host.systemNow
      let finished ← FinCoreCli.readHost cli.host.steadyNow
      FinCoreCli.emit (.snapshot (book.snapshot now 0))
      FinCoreCli.emit (.snapshotTime (Int64.ofInt ((finished - started).tdiv 1000)))
      : Action (σ × CliState) Exn Unit) s := by
    show (if FinCoreCli.isConfigured s.2 (normalizeSymbol arg) = false then _
      else if normalizeSymbol arg ∉ s.2.booksWithData then _ else _ : Action _ _ _) s = _
    rw [hconfigured, if_neg (by decide), if_neg (not_not_intro hdata)]
    simp only [hbook]
  rw [hrun]
  refine ⟨cli.host.systemNow (s.2.readings + 1),
    Int64.ofInt ((cli.host.steadyNow (s.2.readings + 1 + 1)
      - cli.host.steadyNow s.2.readings).tdiv 1000), _, rfl, ?_⟩
  show (s.2.events ++ [_]) ++ [_] = _
  rw [List.append_assoc]
  rfl

theorem Tracks.booksTrack {symbols : List Str} {s : Logged σ} (h : Tracks cli s)
    (hsymbols : cli.symbols = symbols.map normalizeSymbol) : BooksTrack cli symbols s := by
  -- every book is what the last usable quote makes of a new one
  have hbookOf : ∀ symbol book, s.2.books symbol = some book →
      ∃ new, OrderBook.create symbol = .ok new
        ∧ book = (lastUsable symbol s.1.2).elim new (FinCoreCli.rebuilt new) := by
    intro symbol book hbook
    have hconfigured : FinCoreCli.isConfigured s.2 symbol = true := by
      unfold FinCoreCli.isConfigured
      rw [hbook]
      rfl
    obtain ⟨new, hnew, hnewBook⟩ := h.book symbol ((h.configured_iff symbol).mp hconfigured)
    rw [hbook] at hnewBook
    exact ⟨new, hnew, Option.some.inj hnewBook⟩
  have hunobtained : ∀ symbol ∉ s.2.booksWithData, lastUsable symbol s.1.2 = none := by
    intro symbol hdata
    rw [h.withData symbol] at hdata
    simpa using hdata
  exact
    { keys := by
        intro symbol
        rw [h.configured_iff, hsymbols]
      lookup := by
        intro symbol
        rw [Bool.eq_iff_iff, h.configured_iff]
        exact decide_eq_true_iff
      carries := by
        intro symbol book hbook
        obtain ⟨new, hnew, rfl⟩ := hbookOf symbol book hbook
        rw [elim_symbol]
        exact (create_symbol hnew).1
      empty := by
        intro symbol book hbook hdata
        obtain ⟨new, hnew, rfl⟩ := hbookOf symbol book hbook
        rw [hunobtained symbol hdata]
        exact (create_symbol hnew).2
      miss := fun arg hconfigured hdata => handleBook_miss cli.logged hconfigured hdata
      shows := fun arg book hbook hdata => handleBook_shows cli.logged hbook hdata
      unobtained := hunobtained
      current := by
        intro symbol hdata
        obtain ⟨quote, hquote⟩ := Option.isSome_iff_exists.mp ((h.withData symbol).mp hdata)
        have hmem : symbol ∈ cli.symbols := by
          by_contra hmem
          rw [(h.outside symbol hmem).2] at hquote
          cases hquote
        obtain ⟨new, hnew, hbook⟩ := h.book symbol hmem
        rw [hquote] at hbook
        exact ⟨quote, new, hquote, hnew, hbook⟩
      stored := fun symbol quote r hmem => h.stored hmem }

/-- **The in-memory books track the last usable quote**, after any lines and
whatever the services do.  `events` are what happened; every fetch among them
starts from such a state as well, and throws only what a service threw. -/
theorem session_books_track (services : CliServices σ) {symbols : List Str}
    (defaultPollSeconds : ℤ) (host : Host) (hne : ∀ symbol ∈ symbols, symbol ≠ []) :
    ∃ cli st, FinCoreCli.create services symbols defaultPollSeconds host = .ok (cli, st)
      ∧ ∀ (w : σ) (lines : List Str), ∃ events t,
        cli.logged.run lines ((w, []), st) = (.ok (), t)
        ∧ Trace cli ((w, []), st) events t
        ∧ BooksTrack cli symbols t
        ∧ ∀ fetch, .fetch fetch ∈ events → BooksTrack cli symbols fetch.start
          ∧ ∃ calls, (fetch.finish cli).1.2 = fetch.start.1.2 ++ calls
            ∧ ∀ e, fetch.result cli = .error e → ∃ c ∈ calls, c.error? = some e := by
  obtain ⟨cli, st, hcreate, hsymbols, htracks⟩ :=
    create_tracks services defaultPollSeconds host hne
  refine ⟨cli, st, hcreate, fun w lines => ?_⟩
  obtain ⟨events, htrace⟩ := cli.run_trace lines ((w, []), st)
  obtain ⟨ht, hstarts⟩ := htrace.tracks (htracks w)
  refine ⟨events, _, cli.logged.run_handled lines ((w, []), st), ?_, ?_, ?_⟩
  · rw [FinCoreCli.run_handled] at htrace
    exact htrace
  · rw [FinCoreCli.run_handled] at ht
    exact ht.booksTrack hsymbols
  · intro fetch hmem
    refine ⟨(hstarts fetch hmem).booksTrack hsymbols, ?_⟩
    -- what a fetch throws, one of its callbacks threw
    obtain ⟨_, _, _, calls, _, hcalls, hpath, _, _⟩ := cli.fetchCall_run fetch
    refine ⟨calls, hcalls, fun e he => ?_⟩
    rw [he] at hpath
    exact hpath.error_from

/-- One symbol twice, in two cases, beside another. -/
theorem session_books_track_repeated :
    ∃ cli st, FinCoreCli.create sampleServices ["ibm".toList, "AAPL".toList, "IBM".toList] 0
        sampleHost = .ok (cli, st)
      ∧ ∀ (w : Unit) (lines : List Str), ∃ events t,
        cli.logged.run lines ((w, []), st) = (.ok (), t)
        ∧ Trace cli ((w, []), st) events t
        ∧ BooksTrack cli ["ibm".toList, "AAPL".toList, "IBM".toList] t
        ∧ ∀ fetch, .fetch fetch ∈ events →
          BooksTrack cli ["ibm".toList, "AAPL".toList, "IBM".toList] fetch.start
          ∧ ∃ calls, (fetch.finish cli).1.2 = fetch.start.1.2 ++ calls
            ∧ ∀ e, fetch.result cli = .error e → ∃ c ∈ calls, c.error? = some e :=
  session_books_track sampleServices 0 sampleHost (by decide)

end Sessions

end FinCore.Cli

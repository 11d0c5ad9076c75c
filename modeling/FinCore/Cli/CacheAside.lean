/-
  FinCore.Cli.CacheAside
  ──────────────────────
  The cache-aside protocol of `fetch_symbol`.

  `CacheAside` says which services a fetch may and must call, and what it
  reports, in terms of the calls and their outcomes only.  Every path of a fetch
  obeys it (`FetchPath.cacheAside`); observed from outside, through services
  that log their calls, so does the code.
-/
import FinCore.Cli.FetchRun

namespace FinCore.Cli

open FinCore.Cxx

/-! ## §1. The protocol. -/

namespace ServiceCall

/-- The place of a call in a fetch. -/
def stage : ServiceCall → ℕ
  | getCachedQuote _ _ => 0
  | getQuote _ _ => 1
  | lastWasCached _ => 2
  | storeQuote _ _ _ => 3
  | updateOrderBook _ _ _ _ => 4
  | persistQuote _ _ => 5
  | persistSnapshot _ _ _ => 6
  | redisIsConnected _ => 7

/-- The call ended in an exception. -/
def threw : ServiceCall → Prop
  | getCachedQuote _ r => ∃ e, r = .error e
  | getQuote _ r => ∃ e, r = .error e
  | lastWasCached r => ∃ e, r = .error e
  | redisIsConnected r => ∃ e, r = .error e
  | storeQuote _ _ r => ∃ e, r = .error e
  | updateOrderBook _ _ _ r => ∃ e, r = .error e
  | persistQuote _ r => ∃ e, r = .error e
  | persistSnapshot _ _ r => ∃ e, r = .error e

end ServiceCall

section Protocol

variable (durable : Bool) (symbol : Symbol) (rebuilt : Quote → OrderBook) (now : TimePoint)
  (calls : List ServiceCall) (result : Except Exn Bool)

/-- One of the two caches or the API has given the quote. -/
def Obtained (quote : Quote) : Prop :=
  .getCachedQuote symbol (.ok (some quote)) ∈ calls ∨ .getQuote symbol (.ok (some quote)) ∈ calls

/-- No call before the given stage threw. -/
def NoThrowBefore (stage : ℕ) : Prop := ∀ c ∈ calls, c.stage < stage → ¬ c.threw

/-- The cache-aside protocol. -/
structure CacheAside : Prop where
  /-- No service is called twice, and the calls come in the order of the
  stages. -/
  ordered : (calls.map ServiceCall.stage).Pairwise (· < ·)
  readsCache : ∃ r, .getCachedQuote symbol r ∈ calls
  getQuote_iff : ∀ s, (∃ r, .getQuote s r ∈ calls) ↔
    s = symbol ∧ .getCachedQuote symbol (.ok none) ∈ calls
  lastWasCached_iff : (∃ r, .lastWasCached r ∈ calls) ↔
    ∃ found, .getQuote symbol (.ok found) ∈ calls
  storeQuote_iff : ∀ s quote, (∃ r, .storeQuote s quote r ∈ calls) ↔
    s = symbol ∧ .getQuote symbol (.ok (some quote)) ∈ calls
      ∧ ∃ cached, .lastWasCached (.ok cached) ∈ calls
  updateOrderBook_iff : ∀ s bids asks, (∃ r, .updateOrderBook s bids asks r ∈ calls) ↔
    s = symbol ∧ NoThrowBefore calls 4 ∧ ∃ quote, Obtained symbol calls quote
      ∧ bids = FinCoreCli.toAscending (rebuilt quote).bids
      ∧ asks = FinCoreCli.toAscending (rebuilt quote).asks
  persistQuote_iff : ∀ quote, (∃ r, .persistQuote quote r ∈ calls) ↔
    durable = true ∧ NoThrowBefore calls 5 ∧ Obtained symbol calls quote
  persistSnapshot_iff : ∀ snapshot source, (∃ r, .persistSnapshot snapshot source r ∈ calls) ↔
    durable = true ∧ NoThrowBefore calls 6 ∧ ∃ quote, Obtained symbol calls quote
      ∧ snapshot = (rebuilt quote).snapshot now 0 ∧ source = quote.source
  /-- Success: a quote, and every write that is enabled returned true; a quote
  that Redis had counts as written. -/
  result_true_iff : result = .ok true ↔
    (∃ quote, Obtained symbol calls quote)
    ∧ (.getCachedQuote symbol (.ok none) ∈ calls → ∃ q, .storeQuote symbol q (.ok true) ∈ calls)
    ∧ (∃ bids asks, .updateOrderBook symbol bids asks (.ok true) ∈ calls)
    ∧ (durable = true → (∃ q, .persistQuote q (.ok true) ∈ calls)
      ∧ ∃ snapshot source, .persistSnapshot snapshot source (.ok true) ∈ calls)
  /-- An exception of a service, and nothing else, is thrown on. -/
  result_error_iff : (∃ e, result = .error e) ↔ ∃ c ∈ calls, c.threw

end Protocol

/-! ## §2. Every path obeys it. -/

@[simp] theorem noThrowBefore_nil (n : ℕ) : NoThrowBefore [] n := by
  simp [NoThrowBefore]

@[simp] theorem noThrowBefore_cons (c : ServiceCall) (calls : List ServiceCall) (n : ℕ) :
    NoThrowBefore (c :: calls) n ↔ (c.stage < n → ¬ c.threw) ∧ NoThrowBefore calls n := by
  simp [NoThrowBefore]

section Book

variable {durable : Bool} {symbol : Symbol} {rebuilt : Quote → OrderBook} {now : TimePoint}
  {quote : Quote} {stored : Bool} {calls : List ServiceCall} {result : Except Exn Bool}
  (h : BookPath durable symbol rebuilt now quote stored calls result)

include h

/-- The writes of a book come after every read. -/
theorem BookPath.late {c : ServiceCall} (hc : c ∈ calls) : 4 ≤ c.stage := by
  cases h <;> simp only [List.mem_cons, List.not_mem_nil, or_false] at hc <;>
    rcases hc with rfl | rfl | rfl <;> simp [ServiceCall.stage, publishing]

/-- None of them is a read, or the write of the quote. -/
theorem BookPath.reads : (∀ s r, .getCachedQuote s r ∉ calls) ∧ (∀ s r, .getQuote s r ∉ calls)
    ∧ (∀ r, .lastWasCached r ∉ calls) ∧ (∀ s q r, .storeQuote s q r ∉ calls) := by
  have hearly : ∀ {c : ServiceCall}, c.stage < 4 → c ∉ calls := by
    intro c hc hmem
    have hlate := h.late hmem
    omega
  refine ⟨fun _ _ => hearly ?_, fun _ _ => hearly ?_, fun _ => hearly ?_, fun _ _ _ => hearly ?_⟩
    <;> simp [ServiceCall.stage]

theorem BookPath.ordered : (calls.map ServiceCall.stage).Pairwise (· < ·) := by
  cases h <;> simp [ServiceCall.stage, publishing]

theorem BookPath.noThrowBefore_four : NoThrowBefore calls 4 := by
  intro c hc hstage
  have hlate := h.late hc
  omega

theorem BookPath.update_iff (s : Symbol) (bids asks : Levels Double.lt) :
    (∃ r, .updateOrderBook s bids asks r ∈ calls) ↔
      s = symbol ∧ bids = FinCoreCli.toAscending (rebuilt quote).bids
        ∧ asks = FinCoreCli.toAscending (rebuilt quote).asks := by
  cases h <;> simp [publishing]

theorem BookPath.persistQuote_iff (q : Quote) :
    (∃ r, .persistQuote q r ∈ calls) ↔ durable = true ∧ NoThrowBefore calls 5 ∧ q = quote := by
  cases h <;> simp_all [publishing, ServiceCall.stage, ServiceCall.threw]

theorem BookPath.persistSnapshot_iff (snapshot : OrderBookSnapshot) (source : Str) :
    (∃ r, .persistSnapshot snapshot source r ∈ calls) ↔
      durable = true ∧ NoThrowBefore calls 6
        ∧ snapshot = (rebuilt quote).snapshot now 0 ∧ source = quote.source := by
  cases h <;> simp_all [publishing, ServiceCall.stage, ServiceCall.threw]

theorem BookPath.result_true_iff : result = .ok true ↔
    stored = true ∧ (∃ bids asks, .updateOrderBook symbol bids asks (.ok true) ∈ calls)
    ∧ (durable = true → (∃ q, .persistQuote q (.ok true) ∈ calls)
      ∧ ∃ snapshot source, .persistSnapshot snapshot source (.ok true) ∈ calls) := by
  cases h <;> simp_all [publishing, and_assoc]

theorem BookPath.result_error_iff : (∃ e, result = .error e) ↔ ∃ c ∈ calls, c.threw := by
  cases h <;> simp [publishing, ServiceCall.threw]

end Book

section Path

variable {durable : Bool} {symbol : Symbol} {rebuilt : Quote → OrderBook} {now : TimePoint}
  {built : Option Quote} {calls : List ServiceCall} {result : Except Exn Bool}
  (h : FetchPath durable symbol rebuilt now built calls result)

include h

/-- **Every path of a fetch is a cache-aside read.** -/
theorem FetchPath.cacheAside : CacheAside durable symbol rebuilt now calls result := by
  -- a stage before the book is before everything the book does
  have htail : ∀ {n : ℕ} {rest : List ServiceCall}, n < 4 → (∀ c ∈ rest, 4 ≤ c.stage) →
      ∀ m ∈ rest.map ServiceCall.stage, n < m := by
    intro n rest hn hrest m hm
    obtain ⟨c, hc, rfl⟩ := List.mem_map.mp hm
    exact hn.trans_le (hrest c hc)
  cases h with
  | hit quote hbook =>
      obtain ⟨hcached, hget, hflag, hstore⟩ := hbook.reads
      have hfour := hbook.noThrowBefore_four
      have hlate := fun c => hbook.late (c := c)
      exact
        { ordered := .cons (htail (by simp [ServiceCall.stage]) hlate) hbook.ordered
          readsCache := ⟨_, List.mem_cons_self⟩
          getQuote_iff := by simp [hcached, hget]
          lastWasCached_iff := by simp [hget, hflag]
          storeQuote_iff := by simp [hget, hflag, hstore]
          updateOrderBook_iff := by
            intro s bids asks
            simp [hbook.update_iff, hcached, hget, hfour, Obtained, ServiceCall.threw]
          persistQuote_iff := by
            intro q
            simp [hbook.persistQuote_iff, hcached, hget, Obtained, ServiceCall.threw]
          persistSnapshot_iff := by
            intro snapshot source
            simp [hbook.persistSnapshot_iff, hcached, hget, Obtained, ServiceCall.threw]
          result_true_iff := by
            simp [hbook.result_true_iff, hcached, hget, Obtained]
          result_error_iff := by
            simp [hbook.result_error_iff, ServiceCall.threw] }
  | fetched quote cached stored hbook =>
      obtain ⟨hcached, hget, hflag, hstore⟩ := hbook.reads
      have hfour := hbook.noThrowBefore_four
      have hlate := fun c => hbook.late (c := c)
      exact
        { ordered := by
            simp only [List.map_cons, ServiceCall.stage]
            refine .cons ?_ (.cons ?_ (.cons ?_ (.cons (htail (by decide) hlate) hbook.ordered)))
            · simpa using htail (by decide) hlate
            · simpa using htail (by decide) hlate
            · simpa using htail (by decide) hlate
          readsCache := ⟨_, List.mem_cons_self⟩
          getQuote_iff := by simp [hget]
          lastWasCached_iff := by simp [hflag]
          storeQuote_iff := by
            intro s q
            simp [hget, hstore]
          updateOrderBook_iff := by
            intro s bids asks
            simp [hbook.update_iff, hcached, hget, hfour, Obtained, ServiceCall.threw]
          persistQuote_iff := by
            intro q
            simp [hbook.persistQuote_iff, hcached, hget, Obtained, ServiceCall.threw]
          persistSnapshot_iff := by
            intro snapshot source
            simp [hbook.persistSnapshot_iff, hcached, hget, Obtained, ServiceCall.threw]
          result_true_iff := by
            simp [hbook.result_true_iff, hcached, hget, hstore, Obtained]
          result_error_iff := by
            simp [hbook.result_error_iff, ServiceCall.threw] }
  | _ => constructor <;> simp [ServiceCall.stage, Obtained, ServiceCall.threw]

end Path

/-! ## §3. The code, observed through its services. -/

section Logged

variable {σ : Type}

/-- Perform an action and log it with its outcome. -/
def logCall {α : Type} (event : Except Exn α → ServiceCall) (x : Action σ Exn α) :
    Action (σ × List ServiceCall) Exn α := fun s =>
  ((x s.1).1, ((x s.1).2, s.2 ++ [event (x s.1).1]))

/-- The services, logging their calls. -/
def CliServices.logged (services : CliServices σ) : CliServices (σ × List ServiceCall) where
  getQuote symbol := logCall (.getQuote symbol) (services.getQuote symbol)
  lastWasCached := logCall .lastWasCached services.lastWasCached
  redisIsConnected := logCall .redisIsConnected services.redisIsConnected
  getCachedQuote symbol := logCall (.getCachedQuote symbol) (services.getCachedQuote symbol)
  storeQuote symbol quote :=
    logCall (.storeQuote symbol quote) (services.storeQuote symbol quote)
  updateOrderBook symbol bids asks :=
    logCall (.updateOrderBook symbol bids asks) (services.updateOrderBook symbol bids asks)
  persistQuote :=
    services.persistQuote.map (fun f quote => logCall (.persistQuote quote) (f quote))
  persistSnapshot := services.persistSnapshot.map
    (fun f snapshot source => logCall (.persistSnapshot snapshot source) (f snapshot source))

theorem CliServices.logged_durable (services : CliServices σ) :
    services.logged.durable = services.durable := by
  unfold CliServices.durable CliServices.logged
  rw [Option.isSome_map, Option.isSome_map]

theorem logCall_log {α : Type} {event : Except Exn α → ServiceCall} {x : Action σ Exn α}
    {s s' : σ × List ServiceCall} {r : Except Exn α} (h : logCall event x s = (r, s')) :
    s'.2 = s.2 ++ [event r] := by
  unfold logCall at h
  rw [Prod.mk.injEq] at h
  obtain ⟨hr, rfl⟩ := h
  rw [hr]

theorem ServiceCall.Performed.log {services : CliServices σ} {c : ServiceCall}
    {s s' : σ × List ServiceCall} (h : c.Performed services.logged s s') : s'.2 = s.2 ++ [c] := by
  cases c with
  | getCachedQuote symbol r => exact logCall_log h
  | getQuote symbol r => exact logCall_log h
  | lastWasCached r => exact logCall_log h
  | redisIsConnected r => exact logCall_log h
  | storeQuote symbol quote r => exact logCall_log h
  | updateOrderBook symbol bids asks r => exact logCall_log h
  | persistQuote quote r =>
      obtain ⟨f, hf, hrun⟩ := h
      obtain ⟨g, _, rfl⟩ := Option.map_eq_some_iff.mp hf
      exact logCall_log hrun
  | persistSnapshot snapshot source r =>
      obtain ⟨f, hf, hrun⟩ := h
      obtain ⟨g, _, rfl⟩ := Option.map_eq_some_iff.mp hf
      exact logCall_log hrun

theorem Calls.log {services : CliServices σ} {s s' : σ × List ServiceCall}
    {calls : List ServiceCall} (h : Calls services.logged s calls s') : s'.2 = s.2 ++ calls := by
  induction h with
  | nil s => rw [List.append_nil]
  | cons hc _ ih => rw [ih, hc.log, List.append_assoc, List.singleton_append]

namespace FinCoreCli

/-- The CLI over logging services. -/
def logged (cli : FinCoreCli σ) : FinCoreCli (σ × List ServiceCall) where
  services := cli.services.logged
  symbols := cli.symbols
  defaultPollSeconds := cli.defaultPollSeconds
  host := cli.host

/-- **`fetch_symbol` obeys the cache-aside protocol on every path**, for any
behaviour of the services, with and without the durable callbacks; and it
records one measurement, a success exactly if it returns true. -/
theorem fetchSymbol_cacheAside (cli : FinCoreCli σ) (rawSymbol : Str)
    (printData printMetrics : Bool) (w : σ) (st : CliState) {before : OrderBook}
    (hbook : st.books (normalizeSymbol rawSymbol) = some before) :
    ∃ now calls m w' st' result,
      cli.logged.fetchSymbol rawSymbol printData printMetrics ((w, []), st)
        = (result, ((w', calls), st'))
      ∧ CacheAside cli.services.durable (normalizeSymbol rawSymbol) (rebuilt before) now calls result
      ∧ st'.stats = st.stats.record m ∧ m.symbol = normalizeSymbol rawSymbol
      ∧ (m.success = true ↔ result = .ok true) := by
  obtain ⟨now, built, calls, m, hcalls, hpath, _, hstats, hsymbol, hsuccess⟩ :=
    cli.logged.fetchSymbol_run rawSymbol printData printMetrics ((w, []), st) hbook
  have hlog : (cli.logged.fetchSymbol rawSymbol printData printMetrics ((w, []), st)).2.1.2
      = calls := hcalls.log
  have hdurable : cli.logged.services.durable = cli.services.durable :=
    cli.services.logged_durable
  rw [hdurable] at hpath
  refine ⟨now, calls, m, (cli.logged.fetchSymbol rawSymbol printData printMetrics
    ((w, []), st)).2.1.1, _, _, ?_, hpath.cacheAside, hstats, hsymbol, hsuccess⟩
  exact Prod.ext rfl (Prod.ext (Prod.ext rfl hlog) rfl)

end FinCoreCli

end Logged

/-- Services that have one quote in Redis and lose the connection on writing the
book. -/
def sampleServices : CliServices Unit where
  getQuote _ := throw (.runtimeError "offline".toList)
  lastWasCached := pure false
  redisIsConnected := pure true
  getCachedQuote symbol := pure (some { symbol := symbol, price := .finite 100, volume := 1000 })
  storeQuote _ _ := pure true
  updateOrderBook _ _ _ := throw (.redisError "Connection reset by peer".toList)

def sampleHost : Host := ⟨fun _ => 0, fun _ => 0, fun _ => {}⟩

/-- A CLI for one symbol. -/
def sampleCli {σ : Type} (services : CliServices σ) : FinCoreCli σ :=
  ⟨services, ["IBM".toList], 0, sampleHost⟩

def ibmBook : OrderBook := { symbol := "IBM".toList, symbol_ne := by decide }

def sampleState : CliState where
  books := fun symbol => if symbol = "IBM".toList then some ibmBook else none

theorem fetchSymbol_cacheAside_sample :
    ∃ now calls m w' st' result,
      (sampleCli sampleServices).logged.fetchSymbol "ibm".toList true true (((), []), sampleState)
        = (result, ((w', calls), st'))
      ∧ CacheAside false "IBM".toList (FinCoreCli.rebuilt ibmBook) now calls result
      ∧ st'.stats = sampleState.stats.record m ∧ m.symbol = "IBM".toList
      ∧ (m.success = true ↔ result = .ok true) := by
  have hbook : sampleState.books (normalizeSymbol "ibm".toList) = some ibmBook := by
    have hname : normalizeSymbol "ibm".toList = "IBM".toList := by decide
    show (if normalizeSymbol "ibm".toList = "IBM".toList then some ibmBook else none) = some ibmBook
    rw [if_pos hname]
  exact (sampleCli sampleServices).fetchSymbol_cacheAside "ibm".toList true true () sampleState hbook

end FinCore.Cli

/-
  FinCore.Cli.BatchFetch
  ──────────────────────
  Fetching all symbols, once and in cycles.

  `fetch_symbol` reports some failures by returning false and others by
  throwing, and `fetch_all` is only prepared for the first: an exception ends
  the batch and every later cycle.  The behaviour of the services is a script,
  one line for each fetch to come; the commands complete exactly if no line
  that is reached throws.
-/
import FinCore.Cli.CacheAside

namespace FinCore.Cli

open FinCore.Cxx

/-! ## §1. Scripted services. -/

/-- What each service does during one fetch. -/
structure Outcomes where
  getCachedQuote : Except Exn (Option Quote)
  getQuote : Except Exn (Option Quote)
  lastWasCached : Except Exn Bool
  storeQuote : Except Exn Bool
  updateOrderBook : Except Exn Bool
  persistQuote : Except Exn Bool
  persistSnapshot : Except Exn Bool

/-- The behaviour of the services from now on, and what they have been asked. -/
structure Script where
  /-- The outcomes of the n-th fetch. -/
  fetch : ℕ → Outcomes
  /-- The outcome of the n-th `redis_is_connected`. -/
  connected : ℕ → Except Exn Bool
  fetches : ℕ := 0
  checks : ℕ := 0
  /-- The symbols fetched so far. -/
  asked : List Symbol := []

namespace Script

/-- The outcomes of the fetch under way. -/
def current (w : Script) : Outcomes := w.fetch (w.fetches - 1)

/-- A fetch begins. -/
def begin (symbol : Symbol) (w : Script) : Script :=
  { w with fetches := w.fetches + 1, asked := w.asked ++ [symbol] }

def check (w : Script) : Script := { w with checks := w.checks + 1 }

/-- Answer from the script. -/
def answer {α : Type} (outcome : Outcomes → Except Exn α) : Action Script Exn α := fun w =>
  (outcome w.current, w)

/-- Services that follow the script; `durable` says whether the two optional
callbacks are set. -/
def services (durable : Bool) : CliServices Script where
  getCachedQuote symbol := fun w => ((w.fetch w.fetches).getCachedQuote, w.begin symbol)
  getQuote _ := answer Outcomes.getQuote
  lastWasCached := answer Outcomes.lastWasCached
  redisIsConnected := fun w => (w.connected w.checks, w.check)
  storeQuote _ _ := answer Outcomes.storeQuote
  updateOrderBook _ _ _ := answer Outcomes.updateOrderBook
  persistQuote := if durable then some fun _ => answer Outcomes.persistQuote else none
  persistSnapshot := if durable then some fun _ _ => answer Outcomes.persistSnapshot else none

end Script

/-- The CLI over scripted services. -/
def scriptedCli (durable : Bool) (symbols : List Symbol) (defaultPollSeconds : ℤ) (host : Host) :
    FinCoreCli Script :=
  ⟨Script.services durable, symbols, defaultPollSeconds, host⟩

/-! ## §2. What the outcomes of one fetch come to. -/

def threw {α : Type} : Except Exn α → Bool
  | .error _ => true
  | .ok _ => false

def returnedTrue : Except Exn Bool → Bool
  | .ok b => b
  | .error _ => false

namespace Outcomes

variable (durable : Bool) (o : Outcomes)

/-- A service throws that is called once there is a quote. -/
def bookThrows : Bool :=
  threw o.updateOrderBook || durable && (threw o.persistQuote || threw o.persistSnapshot)

/-- A service throws that the fetch reaches. -/
def throws : Bool :=
  match o.getCachedQuote, o.getQuote with
  | .error _, _ => true
  | .ok (some _), _ => o.bookThrows durable
  | .ok none, .error _ => true
  | .ok none, .ok none => threw o.lastWasCached
  | .ok none, .ok (some _) =>
      threw o.lastWasCached || threw o.storeQuote || o.bookThrows durable

/-- Every write of the book succeeds. -/
def bookWritten : Bool :=
  returnedTrue o.updateOrderBook
    && (!durable || returnedTrue o.persistQuote && returnedTrue o.persistSnapshot)

/-- There is a quote, and every write succeeds. -/
def succeeds : Bool :=
  match o.getCachedQuote, o.getQuote with
  | .ok (some _), _ => o.bookWritten durable
  | .ok none, .ok (some _) => returnedTrue o.storeQuote && o.bookWritten durable
  | _, _ => false

/-- What the fetch ends with. -/
def Ends (result : Except Exn Bool) : Prop :=
  (o.throws durable = true ∧ ∃ e, result = .error e)
    ∨ (o.throws durable = false ∧ result = .ok (o.succeeds durable))

end Outcomes

/-! ## §3. One fetch. -/

/-- The call ended as the outcomes say. -/
def ServiceCall.Agrees (o : Outcomes) : ServiceCall → Prop
  | getCachedQuote _ r => o.getCachedQuote = r
  | getQuote _ r => o.getQuote = r
  | lastWasCached r => o.lastWasCached = r
  | storeQuote _ _ r => o.storeQuote = r
  | updateOrderBook _ _ _ r => o.updateOrderBook = r
  | persistQuote _ r => o.persistQuote = r
  | persistSnapshot _ _ r => o.persistSnapshot = r
  | redisIsConnected _ => True

section Path

variable {durable : Bool} {symbol : Symbol} {rebuilt : Quote → OrderBook} {now : TimePoint}
  {quote : Quote} {stored : Bool} {built : Option Quote} {calls : List ServiceCall}
  {result : Except Exn Bool} {o : Outcomes} {w w' : Script}

theorem BookPath.ends (h : BookPath durable symbol rebuilt now quote stored calls result)
    (hagree : ∀ c ∈ calls, c.Agrees o) :
    (o.bookThrows durable = true ∧ ∃ e, result = .error e)
      ∨ (o.bookThrows durable = false ∧ result = .ok (stored && o.bookWritten durable)) := by
  cases h <;>
    simp_all [publishing, ServiceCall.Agrees, Outcomes.bookThrows, Outcomes.bookWritten, threw,
      returnedTrue, Bool.and_assoc]

/-- The outcomes decide what a fetch ends with. -/
theorem FetchPath.ends (h : FetchPath durable symbol rebuilt now built calls result)
    (hagree : ∀ c ∈ calls, c.Agrees o) : o.Ends durable result := by
  unfold Outcomes.Ends Outcomes.throws Outcomes.succeeds
  cases h with
  | hit quote hbook =>
      have hcached : o.getCachedQuote = .ok (some quote) := hagree _ List.mem_cons_self
      have hends := hbook.ends (fun c hc => hagree c (List.mem_cons_of_mem _ hc))
      rw [hcached]
      simpa using hends
  | fetched quote cached stored hbook =>
      have hends := hbook.ends (fun c hc => hagree c (by simp [hc]))
      simp only [List.mem_cons, forall_eq_or_imp, ServiceCall.Agrees] at hagree
      obtain ⟨hcached, hget, hflag, hstore, _⟩ := hagree
      rw [hcached, hget, hflag, hstore]
      simpa [threw, returnedTrue] using hends
  | flagThrew found e => cases found <;> simp_all [ServiceCall.Agrees, threw]
  | _ => simp_all [ServiceCall.Agrees, threw]

/-- A call of a fetch after the first. -/
theorem ServiceCall.Performed.scripted {c : ServiceCall}
    (h : c.Performed (Script.services durable) w w') (hfirst : c.stage ≠ 0) (hlast : c.stage ≠ 7) :
    w' = w ∧ c.Agrees w.current := by
  have hanswer : ∀ {α : Type} {outcome : Outcomes → Except Exn α} {r : Except Exn α},
      Script.answer outcome w = (r, w') → w' = w ∧ outcome w.current = r := by
    intro α outcome r hrun
    obtain ⟨hr, hw⟩ := Prod.mk.inj hrun
    exact ⟨hw.symm, hr⟩
  cases c with
  | getCachedQuote symbol r => exact absurd rfl hfirst
  | redisIsConnected r => exact absurd rfl hlast
  | getQuote symbol r => exact hanswer h
  | lastWasCached r => exact hanswer h
  | storeQuote symbol quote r => exact hanswer h
  | updateOrderBook symbol bids asks r => exact hanswer h
  | persistQuote quote r =>
      obtain ⟨f, hf, hrun⟩ := h
      obtain ⟨_, hf⟩ := Option.ite_none_right_eq_some.mp hf
      obtain rfl := Option.some.inj hf
      exact hanswer hrun
  | persistSnapshot snapshot source r =>
      obtain ⟨f, hf, hrun⟩ := h
      obtain ⟨_, hf⟩ := Option.ite_none_right_eq_some.mp hf
      obtain rfl := Option.some.inj hf
      exact hanswer hrun

theorem Calls.scripted (h : Calls (Script.services durable) w calls w')
    (hstages : ∀ c ∈ calls, c.stage ≠ 0 ∧ c.stage ≠ 7) :
    w' = w ∧ ∀ c ∈ calls, c.Agrees w.current := by
  induction h with
  | nil w => exact ⟨rfl, fun _ hmem => absurd hmem List.not_mem_nil⟩
  | cons hc _ ih =>
      obtain ⟨hfirst, hlast⟩ := hstages _ List.mem_cons_self
      obtain ⟨rfl, hagree⟩ := hc.scripted hfirst hlast
      obtain ⟨rfl, hrest⟩ := ih (fun c hmem => hstages c (List.mem_cons_of_mem _ hmem))
      refine ⟨rfl, ?_⟩
      intro c hmem
      rcases List.mem_cons.mp hmem with rfl | hmem
      · exact hagree
      · exact hrest c hmem

/-- A fetch reads Redis first and never asks for the connection. -/
theorem FetchPath.stages (h : FetchPath durable symbol rebuilt now built calls result) :
    ∃ r rest, calls = .getCachedQuote symbol r :: rest
      ∧ ∀ c ∈ rest, c.stage ≠ 0 ∧ c.stage ≠ 7 := by
  have hbook : ∀ {quote stored bookCalls result},
      BookPath durable symbol rebuilt now quote stored bookCalls result →
      ∀ c ∈ bookCalls, c.stage ≠ 0 ∧ c.stage ≠ 7 := by
    intro quote stored bookCalls result hb
    cases hb <;> simp [publishing, ServiceCall.stage]
  cases h with
  | hit quote hb => exact ⟨_, _, rfl, hbook hb⟩
  | fetched quote cached stored hb =>
      refine ⟨_, _, rfl, ?_⟩
      simp only [List.mem_cons, forall_eq_or_imp]
      exact ⟨by simp [ServiceCall.stage], by simp [ServiceCall.stage], by simp [ServiceCall.stage],
        hbook hb⟩
  | _ => exact ⟨_, _, rfl, by simp [ServiceCall.stage]⟩

/-- **A fetch takes the next line of the script and ends as the line says.** -/
theorem FetchPath.scripted (h : FetchPath durable symbol rebuilt now built calls result)
    (hcalls : Calls (Script.services durable) w calls w') :
    w' = w.begin symbol ∧ (w.fetch w.fetches).Ends durable result := by
  obtain ⟨r, rest, rfl, hstages⟩ := h.stages
  cases hcalls with
  | cons hc hrest =>
      obtain ⟨hr, rfl⟩ := Prod.mk.inj hc
      obtain ⟨rfl, hagree⟩ := hrest.scripted hstages
      refine ⟨rfl, h.ends ?_⟩
      intro c hmem
      rcases List.mem_cons.mp hmem with rfl | hmem
      · exact hr
      · exact hagree c hmem

end Path

/-! ## §4. The reports of a session. -/

/-- The line of a batch: successful, failed and total. -/
def Event.report? : Event → Option (ℕ × ℕ × ℕ)
  | batch successful failed total => some (successful, failed, total)
  | _ => none

def CliState.reports (st : CliState) : List (ℕ × ℕ × ℕ) := st.events.filterMap Event.report?

namespace FinCoreCli

section Silent

variable {σ α : Type}

/-- The action prints no batch report. -/
abbrev Silent (x : Action (FetchState σ) Exn α) : Prop :=
  Action.Within (Action.Same (fun s => s.1.2.reports)) x

theorem silent_call (x : Action σ Exn α) : Silent (call x) := fun _ => rfl

theorem silent_setMetrics (f : OperationMetrics → OperationMetrics) :
    Silent (setMetrics (σ := σ) f) := fun _ => rfl

theorem silent_readHost (read : ℕ → α) : Silent (onCli (σ := σ) (readHost read)) := fun _ => rfl

theorem emit_reports (event : Event) (h : event.report? = none) (s : σ × CliState) :
    (emit event s).2.2.reports = s.2.reports := by
  show (s.2.events ++ [event]).filterMap Event.report? = _
  rw [List.filterMap_append, List.filterMap_cons_none h, List.filterMap_nil, List.append_nil]
  rfl

theorem emitIf_reports (condition : Bool) (event : Event) (h : event.report? = none)
    (s : σ × CliState) : (emitIf condition event s).2.2.reports = s.2.reports := by
  cases condition with
  | true => exact emit_reports event h s
  | false => rfl

theorem silent_emit (event : Event) (h : event.report? = none) :
    Silent (onCli (σ := σ) (emit event)) :=
  fun s => emit_reports event h s.1

theorem silent_emitIf (condition : Bool) (event : Event) (h : event.report? = none) :
    Silent (onCli (σ := σ) (emitIf condition event)) :=
  fun s => emitIf_reports condition event h s.1

variable (cli : FinCoreCli σ)

theorem silent_elapsedUs (started : ℤ) : Silent (cli.elapsedUs started) := fun _ => rfl

theorem silent_recordMetrics (processBefore : ProcessSnapshot) (totalStarted : ℤ) :
    Silent (cli.recordMetrics processBefore totalStarted) := fun _ => rfl

theorem silent_readQuote (symbol : Symbol) : Silent (cli.readQuote symbol) := by
  unfold readQuote
  refine Action.Within.bind (silent_readHost _) (fun _ => ?_)
  refine Action.Within.bind (silent_call _) (fun cached => ?_)
  refine Action.Within.bind (cli.silent_elapsedUs _) (fun _ => ?_)
  refine Action.Within.bind (silent_setMetrics _) (fun _ => ?_)
  cases cached with
  | some quote => exact Action.Within.pure _
  | none =>
      refine Action.Within.bind (silent_readHost _) (fun _ => ?_)
      refine Action.Within.bind (silent_call _) (fun _ => ?_)
      refine Action.Within.bind (cli.silent_elapsedUs _) (fun _ => ?_)
      refine Action.Within.bind (silent_setMetrics _) (fun _ => ?_)
      refine Action.Within.bind (silent_call _) (fun _ => ?_)
      exact Action.Within.bind (silent_setMetrics _) (fun _ => Action.Within.pure _)

theorem silent_storeQuote (symbol : Symbol) (quote : Quote) :
    Silent (cli.storeQuote symbol quote) := by
  unfold storeQuote
  refine Action.Within.bind Action.Within.get (fun s => ?_)
  split
  · exact silent_setMetrics _
  · refine Action.Within.bind (silent_readHost _) (fun _ => ?_)
    refine Action.Within.bind (silent_call _) (fun _ => ?_)
    refine Action.Within.bind (silent_setMetrics _) (fun _ => ?_)
    refine Action.Within.bind (cli.silent_elapsedUs _) (fun _ => ?_)
    exact silent_setMetrics _

theorem silent_rebuildBook (symbol : Symbol) (quote : Quote) :
    Silent (cli.rebuildBook symbol quote) := by
  unfold rebuildBook
  refine Action.Within.bind Action.Within.get (fun s => ?_)
  cases s.1.2.books symbol with
  | none => exact Action.Within.throw _
  | some before =>
      refine Action.Within.bind (silent_readHost _) (fun _ => ?_)
      refine Action.Within.bind (fun _ => rfl) (fun _ => ?_)
      refine Action.Within.bind (Action.Within.ofExcept _) (fun _ => ?_)
      refine Action.Within.bind (cli.silent_elapsedUs _) (fun _ => ?_)
      refine Action.Within.bind (silent_setMetrics _) (fun _ => ?_)
      exact Action.Within.bind (fun _ => rfl) (fun _ => Action.Within.pure _)

theorem silent_publishBook (symbol : Symbol) (book : OrderBook) :
    Silent (cli.publishBook symbol book) := by
  unfold publishBook
  refine Action.Within.bind (silent_readHost _) (fun _ => ?_)
  refine Action.Within.bind (silent_call _) (fun _ => ?_)
  refine Action.Within.bind (silent_setMetrics _) (fun _ => ?_)
  refine Action.Within.bind (cli.silent_elapsedUs _) (fun _ => ?_)
  exact silent_setMetrics _

theorem silent_persist (quote : Quote) (snapshot : OrderBookSnapshot) :
    Silent (cli.persist quote snapshot) := by
  unfold persist
  split
  · refine Action.Within.bind (silent_call _) (fun _ => ?_)
    exact Action.Within.bind (silent_call _) (fun _ => Action.Within.pure _)
  · exact Action.Within.pure _

theorem silent_finishFetch (printData printMetrics : Bool) (processBefore : ProcessSnapshot)
    (totalStarted : ℤ) (quote : Quote) (snapshot : OrderBookSnapshot)
    (postgres : Option (Bool × Bool)) :
    Silent (cli.finishFetch printData printMetrics processBefore totalStarted quote snapshot
      postgres) := by
  unfold finishFetch
  refine Action.Within.bind (silent_setMetrics _) (fun _ => ?_)
  refine Action.Within.bind (cli.silent_recordMetrics _ _) (fun _ => ?_)
  refine Action.Within.bind Action.Within.get (fun s => ?_)
  refine Action.Within.bind (silent_emit _ rfl) (fun _ => ?_)
  refine Action.Within.bind (silent_emitIf _ _ rfl) (fun _ => ?_)
  refine Action.Within.bind (silent_emitIf _ _ rfl) (fun _ => ?_)
  exact Action.Within.bind (silent_emitIf _ _ rfl) (fun _ => Action.Within.pure _)

theorem silent_fetchBody (symbol : Symbol) (printData printMetrics : Bool)
    (processBefore : ProcessSnapshot) (totalStarted : ℤ) :
    Silent (cli.fetchBody symbol printData printMetrics processBefore totalStarted) := by
  unfold fetchBody
  refine Action.Within.bind (cli.silent_readQuote symbol) (fun found => ?_)
  cases found with
  | none =>
      refine Action.Within.bind (cli.silent_recordMetrics _ _) (fun _ => ?_)
      refine Action.Within.bind Action.Within.get (fun s => ?_)
      refine Action.Within.bind (silent_emit _ rfl) (fun _ => ?_)
      exact Action.Within.bind (silent_emitIf _ _ rfl) (fun _ => Action.Within.pure _)
  | some quote =>
      refine Action.Within.bind (cli.silent_storeQuote symbol quote) (fun _ => ?_)
      refine Action.Within.bind (cli.silent_rebuildBook symbol quote) (fun book => ?_)
      refine Action.Within.bind (cli.silent_publishBook symbol book) (fun _ => ?_)
      refine Action.Within.bind (silent_readHost _) (fun _ => ?_)
      refine Action.Within.bind (cli.silent_persist quote _) (fun _ => ?_)
      exact cli.silent_finishFetch _ _ _ _ _ _ _

/-- Fetching one symbol reports no batch. -/
theorem fetchSymbol_reports (rawSymbol : Str) (printData printMetrics : Bool) :
    Action.Within (Action.Same (fun s => s.2.reports))
      (cli.fetchSymbol rawSymbol printData printMetrics) := by
  unfold fetchSymbol
  refine Action.Within.bind Action.Within.get (fun s => ?_)
  split
  · exact Action.Within.throw _
  · refine Action.Within.bind (fun _ => rfl) (fun processBefore => ?_)
    refine Action.Within.bind (fun _ => rfl) (fun totalStarted => ?_)
    intro s
    have hbody : Silent (tryCatch
        (cli.fetchBody (normalizeSymbol rawSymbol) printData printMetrics processBefore totalStarted)
        (fun e => do
          cli.recordMetrics processBefore totalStarted
          throw e)) :=
      Action.Within.tryCatch (cli.silent_fetchBody _ _ _ _ _) (fun e =>
        Action.Within.bind (cli.silent_recordMetrics _ _) (fun _ => Action.Within.throw e))
    exact hbody (s, { symbol := normalizeSymbol rawSymbol })

end Silent

end FinCoreCli

/-! ## §5. What completing means. -/

section Batch

variable (durable : Bool) (symbols : List Symbol)

/-- No fetch of the next `n` lines from `base` on throws. -/
def QuietFrom (fetch : ℕ → Outcomes) (base n : ℕ) : Prop :=
  ∀ i < n, (fetch (base + i)).throws durable = false

def successesFrom (fetch : ℕ → Outcomes) (base n : ℕ) : ℕ :=
  (List.range n).countP (fun i => (fetch (base + i)).succeeds durable)

/-- The report of a batch of `n` fetches. -/
def reportFrom (fetch : ℕ → Outcomes) (base n : ℕ) : ℕ × ℕ × ℕ :=
  (successesFrom durable fetch base n, n - successesFrom durable fetch base n, n)

/-- Nothing that `count` cycles over the symbols call throws. -/
def Script.Clean (count : ℕ) (w : Script) : Prop :=
  ∀ cycle < count, threw (w.connected (w.checks + cycle)) = false
    ∧ QuietFrom durable w.fetch (w.fetches + cycle * symbols.length) symbols.length

/-- One operation has been recorded for each of the symbols, in order. -/
def Recorded (st st' : CliState) : Prop :=
  ∃ operations, st'.stats = st.stats.recordAll operations
    ∧ operations.map OperationMetrics.symbol = symbols

/-- `count` cycles over the symbols have been completed: each attempted every
symbol once in order and reported its successes and failures. -/
structure Completed (count : ℕ) (s s' : Script × CliState) : Prop where
  attempted : s'.1.asked = s.1.asked ++ (List.replicate count symbols).flatten
  reported : s'.2.reports = s.2.reports ++ (List.range count).map (fun cycle =>
    reportFrom durable s.1.fetch (s.1.fetches + cycle * symbols.length) symbols.length)
  recorded : Recorded (List.replicate count symbols).flatten s.2 s'.2

/-- The symbols are normalized and have a book each, as the constructor leaves
them. -/
def Configured (st : CliState) : Prop :=
  ∀ symbol ∈ symbols, normalizeSymbol symbol = symbol ∧ (st.books symbol).isSome = true

/-- The script after `count` completed cycles. -/
def Script.after (count : ℕ) (w : Script) : Script :=
  { w with
    fetches := w.fetches + count * symbols.length
    checks := w.checks + count
    asked := w.asked ++ (List.replicate count symbols).flatten }

/-- Completed cycles, and what the next one finds. -/
structure Cycled (count : ℕ) (s s' : Script × CliState) : Prop
    extends Completed durable symbols count s s' where
  script : s'.1 = s.1.after symbols count
  configured : Configured symbols s.2 → Configured symbols s'.2

variable {durable symbols}

theorem Recorded.append {symbols symbols' : List Symbol} {st st₁ st₂ : CliState}
    (h : Recorded symbols st st₁) (h' : Recorded symbols' st₁ st₂) :
    Recorded (symbols ++ symbols') st st₂ := by
  obtain ⟨operations, hstats, hsymbols⟩ := h
  obtain ⟨operations', hstats', hsymbols'⟩ := h'
  refine ⟨operations ++ operations', ?_, ?_⟩
  · rw [hstats', hstats]
    exact (List.foldl_append ..).symm
  · rw [List.map_append, hsymbols, hsymbols']

theorem Recorded.same {st st' : CliState} (h : st'.stats = st.stats) : Recorded [] st st' :=
  ⟨[], h, rfl⟩

theorem Script.clean_add (m n : ℕ) (w : Script) :
    w.Clean durable symbols (m + n)
      ↔ w.Clean durable symbols m ∧ (w.after symbols m).Clean durable symbols n := by
  have hbase : ∀ cycle, w.fetches + (m + cycle) * symbols.length
      = w.fetches + m * symbols.length + cycle * symbols.length := by
    intro cycle
    ring
  unfold Script.Clean Script.after
  constructor
  · intro h
    refine ⟨fun cycle hlt => h cycle (by omega), fun cycle hlt => ?_⟩
    have hlater := h (m + cycle) (by omega)
    rwa [hbase, ← add_assoc] at hlater
  · intro ⟨hfirst, hrest⟩ cycle hlt
    by_cases hm : cycle < m
    · exact hfirst cycle hm
    · obtain ⟨later, rfl⟩ := Nat.exists_eq_add_of_le (not_lt.mp hm)
      have hlater := hrest later (by omega)
      rwa [hbase, ← add_assoc]

/-- Cycles after cycles. -/
theorem Cycled.trans {m n : ℕ} {s s₁ s₂ : Script × CliState} (h : Cycled durable symbols m s s₁)
    (h' : Cycled durable symbols n s₁ s₂) : Cycled durable symbols (m + n) s s₂ where
  attempted := by
    rw [h'.attempted, h.attempted, List.replicate_add, List.flatten_append, List.append_assoc]
  reported := by
    rw [h'.reported, h.reported, List.append_assoc, List.range_add, List.map_append, List.map_map,
      h.script]
    congr 2
    apply List.map_congr_left
    intro cycle _
    show reportFrom durable s.1.fetch (s.1.fetches + m * symbols.length + cycle * symbols.length) _
      = reportFrom durable s.1.fetch (s.1.fetches + (m + cycle) * symbols.length) _
    congr 1
    ring
  recorded := by
    rw [List.replicate_add, List.flatten_append]
    exact h.recorded.append h'.recorded
  script := by
    rw [h'.script, h.script]
    unfold Script.after
    simp only [Script.mk.injEq, true_and]
    refine ⟨by ring, by ring, ?_⟩
    rw [List.replicate_add, List.flatten_append, List.append_assoc]
  configured := fun hconf => h'.configured (h.configured hconf)

/-- A step that fetches nothing. -/
theorem Cycled.zero {s s' : Script × CliState} (hscript : s'.1 = s.1)
    (hreports : s'.2.reports = s.2.reports) (hstats : s'.2.stats = s.2.stats)
    (hbooks : s'.2.books = s.2.books) : Cycled durable symbols 0 s s' where
  attempted := by rw [hscript, List.replicate_zero, List.flatten_nil, List.append_nil]
  reported := by rw [hreports, List.range_zero, List.map_nil, List.append_nil]
  recorded := Recorded.same hstats
  script := by
    rw [hscript]
    unfold Script.after
    rw [Nat.zero_mul, List.replicate_zero, List.flatten_nil, List.append_nil]
    rfl
  configured := by
    intro hconf symbol hmem
    rw [hbooks]
    exact hconf symbol hmem

/-! ## §6. Actions that run cycles. -/

/-- The action completes `count` cycles if nothing they call throws, and else
throws before the last of their reports. -/
def RunsCycles (durable : Bool) (symbols : List Symbol) (count : ℕ)
    (x : Action (Script × CliState) Exn Unit) : Prop :=
  ∀ s, Configured symbols s.2 →
    (s.1.Clean durable symbols count → ∃ s', x s = (.ok (), s') ∧ Cycled durable symbols count s s')
    ∧ (¬ s.1.Clean durable symbols count →
        ∃ e s', x s = (.error e, s') ∧ s'.2.reports.length < s.2.reports.length + count)

theorem RunsCycles.of_zero {x : Action (Script × CliState) Exn Unit}
    (h : ∀ s, ∃ s', x s = (.ok (), s') ∧ s'.1 = s.1 ∧ s'.2.reports = s.2.reports
      ∧ s'.2.stats = s.2.stats ∧ s'.2.books = s.2.books) :
    RunsCycles durable symbols 0 x := by
  intro s _
  obtain ⟨s', hrun, hscript, hreports, hstats, hbooks⟩ := h s
  refine ⟨fun _ => ⟨s', hrun, Cycled.zero hscript hreports hstats hbooks⟩, ?_⟩
  intro hclean
  exact absurd (fun cycle hlt => absurd hlt (Nat.not_lt_zero cycle)) hclean

theorem RunsCycles.bind {m n : ℕ} {x y : Action (Script × CliState) Exn Unit}
    (hx : RunsCycles durable symbols m x) (hy : RunsCycles durable symbols n y) :
    RunsCycles durable symbols (m + n) (x >>= fun _ => y) := by
  intro s hconf
  obtain ⟨hok, herror⟩ := hx s hconf
  rw [Script.clean_add]
  by_cases hfirst : s.1.Clean durable symbols m
  · obtain ⟨s₁, hrun, hcycled⟩ := hok hfirst
    obtain ⟨hok', herror'⟩ := hy s₁ (hcycled.configured hconf)
    rw [Action.bind_ok hrun]
    rw [← hcycled.script]
    constructor
    · intro ⟨_, hclean⟩
      obtain ⟨s₂, hrun', hcycled'⟩ := hok' hclean
      exact ⟨s₂, hrun', hcycled.trans hcycled'⟩
    · intro hnot
      -- the first part has reported its cycles, the second fewer than its own
      obtain ⟨e, s₂, hrun', hfewer⟩ := herror' (fun hclean => hnot ⟨hfirst, hclean⟩)
      refine ⟨e, s₂, hrun', ?_⟩
      rw [hcycled.reported, List.length_append, List.length_map, List.length_range] at hfewer
      omega
  · obtain ⟨e, s₁, hrun, hfewer⟩ := herror hfirst
    rw [Action.bind_error hrun]
    refine ⟨fun hclean => absurd hclean.1 hfirst, fun _ => ⟨e, s₁, rfl, ?_⟩⟩
    omega

/-- **Completing is the same as nothing throwing.** -/
theorem RunsCycles.completed_iff {count : ℕ} {x : Action (Script × CliState) Exn Unit}
    (h : RunsCycles durable symbols count x) {s : Script × CliState}
    (hconf : Configured symbols s.2) :
    Completed durable symbols count s (x s).2 ↔ s.1.Clean durable symbols count := by
  obtain ⟨hok, herror⟩ := h s hconf
  constructor
  · intro hcompleted
    by_contra hnot
    obtain ⟨e, s', hrun, hfewer⟩ := herror hnot
    rw [hrun] at hcompleted
    rw [hcompleted.reported, List.length_append, List.length_map, List.length_range] at hfewer
    omega
  · intro hclean
    obtain ⟨s', hrun, hcycled⟩ := hok hclean
    rw [hrun]
    exact hcycled.toCompleted

end Batch

/-! ## §7. The batch. -/

section Commands

variable (durable : Bool) (symbols : List Symbol) (defaultPollSeconds : ℤ) (host : Host)

/-- What fetching `fetched` does, whatever comes of it. -/
structure Fetched (fetched : List Symbol) (s s' : Script × CliState) : Prop where
  script : s'.1 = { s.1 with
    fetches := s.1.fetches + fetched.length, asked := s.1.asked ++ fetched }
  recorded : Recorded fetched s.2 s'.2
  reports : s'.2.reports = s.2.reports
  books : ∀ symbol, (s.2.books symbol).isSome = true → (s'.2.books symbol).isSome = true

theorem Fetched.configured {fetched : List Symbol} {s s' : Script × CliState}
    (h : Fetched fetched s s') {symbols : List Symbol} (hconf : Configured symbols s.2) :
    Configured symbols s'.2 := by
  intro symbol hmem
  obtain ⟨hname, hbook⟩ := hconf symbol hmem
  exact ⟨hname, h.books symbol hbook⟩

theorem Fetched.cons {symbol : Symbol} {rest : List Symbol} {s s₁ s₂ : Script × CliState}
    (h : Fetched [symbol] s s₁) (h' : Fetched rest s₁ s₂) : Fetched (symbol :: rest) s s₂ where
  script := by
    rw [h'.script, h.script]
    simp only [List.length_cons, List.length_nil, List.append_assoc, List.singleton_append,
      Script.mk.injEq, true_and, and_true]
    omega
  recorded := h.recorded.append h'.recorded
  reports := h'.reports.trans h.reports
  books := fun symbol hbook => h'.books symbol (h.books symbol hbook)

/-- One fetch of the batch. -/
theorem fetchSymbol_scripted {symbol : Symbol} {s : Script × CliState}
    (hname : normalizeSymbol symbol = symbol) (hbook : (s.2.books symbol).isSome = true)
    (printData printMetrics : Bool) :
    ∃ r s', (scriptedCli durable symbols defaultPollSeconds host).fetchSymbol symbol printData
        printMetrics s = (r, s')
      ∧ (s.1.fetch s.1.fetches).Ends durable r ∧ Fetched [symbol] s s' := by
  obtain ⟨before, hbefore⟩ := Option.isSome_iff_exists.mp hbook
  have hbefore' : s.2.books (normalizeSymbol symbol) = some before := by
    rw [hname]
    exact hbefore
  set cli := scriptedCli durable symbols defaultPollSeconds host with hcli
  obtain ⟨now, built, calls, m, hcalls, hpath, hrebuilds, hstats, hsymbol, _⟩ :=
    cli.fetchSymbol_run symbol printData printMetrics s hbefore'
  have hdurable : cli.services.durable = durable := by
    cases durable <;> rfl
  have hreports := cli.fetchSymbol_reports symbol printData printMetrics s
  rcases hrun : cli.fetchSymbol symbol printData printMetrics s with ⟨r, s'⟩
  rw [hrun] at hcalls hpath hrebuilds hstats hreports
  rw [hdurable] at hpath
  obtain ⟨hscript, hends⟩ := hpath.scripted hcalls
  rw [hname] at hscript hsymbol
  refine ⟨r, s', rfl, hends, hscript, ⟨[m], hstats, by rw [List.map_singleton, hsymbol]⟩,
    hreports, ?_⟩
  -- a fetch writes at most the book of its own symbol
  intro other hother
  rw [hrebuilds.books]
  cases built with
  | none => exact hother
  | some quote =>
      show (Function.update s.2.books (normalizeSymbol symbol) _ other).isSome = true
      by_cases heq : other = normalizeSymbol symbol
      · subst heq
        rw [Function.update_self]
        rfl
      · rw [Function.update_of_ne heq]
        exact hother

theorem quietFrom_succ (fetch : ℕ → Outcomes) (base n : ℕ) :
    QuietFrom durable fetch base (n + 1)
      ↔ (fetch base).throws durable = false ∧ QuietFrom durable fetch (base + 1) n := by
  unfold QuietFrom
  constructor
  · intro h
    refine ⟨h 0 (by omega), fun i hlt => ?_⟩
    rw [add_assoc, add_comm 1 i]
    exact h (i + 1) (by omega)
  · intro ⟨hfirst, hrest⟩ i hlt
    cases i with
    | zero => exact hfirst
    | succ i =>
        rw [add_comm i 1, ← add_assoc]
        exact hrest i (by omega)

theorem successesFrom_succ (fetch : ℕ → Outcomes) (base n : ℕ) :
    successesFrom durable fetch base (n + 1)
      = (if (fetch base).succeeds durable then 1 else 0)
        + successesFrom durable fetch (base + 1) n := by
  unfold successesFrom
  rw [List.range_succ_eq_map, List.countP_cons, List.countP_map, add_comm]
  congr 1
  apply List.countP_congr
  intro i _
  show (fetch (base + (i + 1))).succeeds durable = true ↔ _
  rw [add_comm i 1, ← add_assoc]

/-- The loop of `fetch_all`, by recursion on the symbols left. -/
theorem fetchEach_scripted (printData printMetrics : Bool) (rest : List Symbol) (successes : ℕ)
    (s : Script × CliState) (hconf : Configured rest s.2) :
    (QuietFrom durable s.1.fetch s.1.fetches rest.length →
      ∃ s', (scriptedCli durable symbols defaultPollSeconds host).fetchEach printData printMetrics
          rest successes s
        = (.ok (successes + successesFrom durable s.1.fetch s.1.fetches rest.length), s')
        ∧ Fetched rest s s')
    ∧ (¬ QuietFrom durable s.1.fetch s.1.fetches rest.length →
      ∃ e s', (scriptedCli durable symbols defaultPollSeconds host).fetchEach printData printMetrics
          rest successes s = (.error e, s') ∧ s'.2.reports = s.2.reports) := by
  induction rest generalizing successes s with
  | nil =>
      refine ⟨fun _ => ⟨s, rfl, ⟨?_, Recorded.same rfl, rfl, fun _ h => h⟩⟩, ?_⟩
      · rw [List.append_nil]
        rfl
      · intro hnot
        exact absurd (fun i hlt => absurd hlt (Nat.not_lt_zero i)) hnot
  | cons symbol rest ih =>
      obtain ⟨hname, hbook⟩ := hconf symbol List.mem_cons_self
      obtain ⟨r, s₁, hrun, hends, hfetched⟩ :=
        fetchSymbol_scripted durable symbols defaultPollSeconds host hname hbook printData
          printMetrics
      have hconf₁ : Configured rest s₁.2 :=
        hfetched.configured (fun other hmem => hconf other (List.mem_cons_of_mem _ hmem))
      rw [List.length_cons, quietFrom_succ, successesFrom_succ]
      unfold FinCoreCli.fetchEach
      -- a fetch that throws ends the loop; a quiet one counts if it succeeded
      rcases hends with ⟨hthrows, e, rfl⟩ | ⟨hquiet, rfl⟩
      · rw [Action.bind_error hrun, hthrows]
        exact ⟨fun h => absurd h.1 (by simp), fun _ => ⟨e, s₁, rfl, hfetched.reports⟩⟩
      · rw [Action.bind_ok hrun]
        obtain ⟨hok, herror⟩ := ih
          (if (s.1.fetch s.1.fetches).succeeds durable then successes + 1 else successes) s₁ hconf₁
        have hfetch : s₁.1.fetch = s.1.fetch := by rw [hfetched.script]
        have hfetches : s₁.1.fetches = s.1.fetches + 1 := by rw [hfetched.script]; rfl
        rw [hfetch, hfetches] at hok herror
        constructor
        · intro hclean
          obtain ⟨s₂, hrest, hfetched'⟩ := hok hclean.2
          refine ⟨s₂, ?_, hfetched.cons hfetched'⟩
          rw [hrest]
          congr 2
          split <;> omega
        · intro hnot
          obtain ⟨e, s₂, hrest, hreports⟩ := herror (fun h => hnot ⟨hquiet, h⟩)
          exact ⟨e, s₂, hrest, hreports.trans hfetched.reports⟩

theorem Script.clean_one (w : Script) :
    w.Clean durable symbols 1 ↔ threw (w.connected w.checks) = false
      ∧ QuietFrom durable w.fetch w.fetches symbols.length := by
  unfold Script.Clean
  constructor
  · intro h
    simpa using h 0 (by omega)
  · intro h cycle hlt
    obtain rfl : cycle = 0 := by omega
    simpa using h

/-- Printing anything but a batch report. -/
theorem emit_runs (event : Event) (h : event.report? = none) :
    RunsCycles durable symbols 0 (FinCoreCli.emit event) :=
  RunsCycles.of_zero (fun s =>
    ⟨_, rfl, rfl, FinCoreCli.emit_reports event h s, rfl, rfl⟩)

theorem emitIf_runs (condition : Bool) (event : Event) (h : event.report? = none) :
    RunsCycles durable symbols 0 (FinCoreCli.emitIf condition event) := by
  cases condition with
  | true => exact emit_runs durable symbols event h
  | false => exact RunsCycles.of_zero (fun s => ⟨s, rfl, rfl, rfl, rfl, rfl⟩)

theorem printSummary_runs : RunsCycles durable symbols 0 FinCoreCli.printSummary :=
  RunsCycles.of_zero (fun s =>
    ⟨_, rfl, rfl, FinCoreCli.emit_reports (.summary s.2.stats) rfl s, rfl, rfl⟩)

/-- The warning, if any, changes nothing but the output. -/
theorem warning_run (connected : Bool) (s : Script × CliState) :
    ∃ s', FinCoreCli.emitIf (!connected) .redisDisconnected s = (.ok (), s') ∧ s'.1 = s.1
      ∧ s'.2.reports = s.2.reports ∧ s'.2.stats = s.2.stats ∧ s'.2.books = s.2.books := by
  cases connected with
  | true => exact ⟨s, rfl, rfl, rfl, rfl, rfl⟩
  | false => exact ⟨_, rfl, rfl, FinCoreCli.emit_reports _ rfl s, rfl, rfl⟩

/-- The symbols have been fetched and the batch is reported. -/
theorem Fetched.reported {s s₁ s₂ : Script × CliState} (h : Fetched symbols s₁ s₂)
    (hscript : s₁.1 = s.1.check) (hreports : s₁.2.reports = s.2.reports)
    (hstats : s₁.2.stats = s.2.stats) (hconf : Configured symbols s₁.2) :
    Cycled durable symbols 1 s (s₂.1, { s₂.2 with events := s₂.2.events ++
      [.batch (successesFrom durable s.1.fetch s.1.fetches symbols.length)
        (symbols.length - successesFrom durable s.1.fetch s.1.fetches symbols.length)
        symbols.length] }) := by
  have hworld := h.script
  rw [hscript] at hworld
  have honce : (List.replicate 1 symbols).flatten = symbols := by simp
  refine ⟨⟨?_, ?_, ?_⟩, ?_, ?_⟩
  · show s₂.1.asked = _
    rw [hworld, honce]
    rfl
  · -- the report of the batch comes last
    show (s₂.2.events ++ [_]).filterMap Event.report? = _
    rw [List.filterMap_append]
    change s₂.2.reports ++ _ = _
    rw [h.reports, hreports]
    simp [Event.report?, reportFrom]
  · obtain ⟨operations, hrecorded, hsymbols⟩ := h.recorded
    rw [hstats] at hrecorded
    rw [honce]
    exact ⟨operations, hrecorded, hsymbols⟩
  · show s₂.1 = _
    rw [hworld, Script.after, honce, Nat.one_mul]
    rfl
  · exact fun _ => h.configured hconf

/-- **`fetch_all` is one cycle.** -/
theorem fetchAll_runs (printData printMetrics : Bool) :
    RunsCycles durable symbols 1
      ((scriptedCli durable symbols defaultPollSeconds host).fetchAll printData printMetrics) := by
  intro s hconf
  set cli := scriptedCli durable symbols defaultPollSeconds host with hcli
  have hall : cli.symbols = symbols := rfl
  rw [Script.clean_one]
  unfold FinCoreCli.fetchAll
  have hcheck : FinCoreCli.callOutside cli.services.redisIsConnected s
      = (s.1.connected s.1.checks, (s.1.check, s.2)) := rfl
  cases hconnected : s.1.connected s.1.checks with
  | error e =>
      -- the connection check threw: no symbol was asked for
      rw [hconnected] at hcheck
      rw [Action.bind_error hcheck]
      refine ⟨fun h => absurd h.1 (by simp [threw]), fun _ => ⟨e, _, rfl, ?_⟩⟩
      exact Nat.lt_succ_self _
  | ok connected =>
      rw [hconnected] at hcheck
      rw [Action.bind_ok hcheck]
      obtain ⟨s₁, hwarn, hscript, hreports, hstats, hbooks⟩ :=
        warning_run connected (s.1.check, s.2)
      rw [Action.bind_ok hwarn]
      have hconf₁ : Configured symbols s₁.2 := by
        intro symbol hmem
        rw [hbooks]
        exact hconf symbol hmem
      obtain ⟨hok, herror⟩ := fetchEach_scripted durable symbols defaultPollSeconds host printData
        printMetrics symbols 0 s₁ hconf₁
      rw [← hcli, hscript] at hok herror
      constructor
      · intro hclean
        obtain ⟨s₂, hrun, hfetched⟩ := hok hclean.2
        rw [hall, Action.bind_ok hrun, Nat.zero_add]
        exact ⟨_, rfl, hfetched.reported durable symbols hscript hreports hstats hconf₁⟩
      · intro hnot
        -- a symbol's fetch threw, and no batch line was printed
        obtain ⟨e, s₂, hrun, hsame⟩ := herror (fun h => hnot ⟨rfl, h⟩)
        refine ⟨e, s₂, ?_, ?_⟩
        · exact Action.bind_error hrun
        · rw [hsame, hreports]
          exact Nat.lt_succ_self _

theorem watchLoop_runs (count intervalMs remaining : ℕ) :
    RunsCycles durable symbols remaining
      ((scriptedCli durable symbols defaultPollSeconds host).watchLoop "ALL".toList count intervalMs
        remaining) := by
  induction remaining with
  | zero => exact RunsCycles.of_zero (fun s => ⟨s, rfl, rfl, rfl, rfl, rfl⟩)
  | succ remaining ih =>
      have hcycle := (emit_runs durable symbols (.watch (count - (remaining + 1) + 1) count) rfl).bind
        ((fetchAll_runs durable symbols defaultPollSeconds host false false).bind
          ((emitIf_runs durable symbols
            (count - (remaining + 1) + 1 < count && 0 < intervalMs) (.slept intervalMs) rfl).bind ih))
      rw [show 0 + (1 + (0 + remaining)) = remaining + 1 by omega] at hcycle
      exact hcycle

theorem pollLoop_runs (count seconds remaining : ℕ) :
    RunsCycles durable symbols remaining
      ((scriptedCli durable symbols defaultPollSeconds host).pollLoop count seconds remaining) := by
  induction remaining with
  | zero => exact RunsCycles.of_zero (fun s => ⟨s, rfl, rfl, rfl, rfl, rfl⟩)
  | succ remaining ih =>
      have hcycle := (emit_runs durable symbols (.cycle (count - (remaining + 1) + 1) count) rfl).bind
        ((fetchAll_runs durable symbols defaultPollSeconds host true false).bind
          ((emitIf_runs durable symbols (count - (remaining + 1) + 1 < count && 0 < seconds)
            (.sleeping seconds) rfl).bind
            ((emitIf_runs durable symbols (count - (remaining + 1) + 1 < count && 0 < seconds)
              (.slept (seconds * 1000)) rfl).bind ih)))
      rw [show 0 + (1 + (0 + (0 + remaining))) = remaining + 1 by omega] at hcycle
      exact hcycle

/-! ## §8. The commands. -/

/-- A command line, by its first word. -/
inductive BatchCommand where
  | fetch (args : FinCoreCli.Args)
  | watch (args : FinCoreCli.Args)
  | poll (args : FinCoreCli.Args)

def BatchCommand.handle {σ : Type} (cli : FinCoreCli σ) :
    BatchCommand → Action (σ × CliState) Exn Unit
  | fetch args => cli.handleFetch args
  | watch args => cli.handleWatch args
  | poll args => cli.handlePoll args

/-- The command asks for so many cycles over all symbols. -/
inductive BatchCommand.Asks : BatchCommand → ℕ → Prop where
  | fetchAll {target : Str} : normalizeSymbol target = "ALL".toList → Asks (.fetch [target]) 1
  | watchAll {target : Str} : normalizeSymbol target = "ALL".toList → Asks (.watch [target]) 10
  | watchAllCount {target text : Str} {count : ℕ} : normalizeSymbol target = "ALL".toList →
      FinCoreCli.parseNumber text "COUNT".toList 1 100000 = .ok count →
      Asks (.watch [target, text]) count
  | watchAllEvery {target text every : Str} {count intervalMs : ℕ} :
      normalizeSymbol target = "ALL".toList →
      FinCoreCli.parseNumber text "COUNT".toList 1 100000 = .ok count →
      FinCoreCli.parseNumber every "INTERVAL_MS".toList 0 3600000 = .ok intervalMs →
      Asks (.watch [target, text, every]) count
  | poll : Asks (.poll []) 1
  | pollCount {text : Str} {count : ℕ} :
      FinCoreCli.parseNumber text "COUNT".toList 1 100000 = .ok count → Asks (.poll [text]) count
  | pollEvery {text every : Str} {count seconds : ℕ} :
      FinCoreCli.parseNumber text "COUNT".toList 1 100000 = .ok count →
      FinCoreCli.parseNumber every "SECONDS".toList 0 86400 = .ok seconds →
      Asks (.poll [text, every]) count

/-- `watch all` once its arguments are read. -/
theorem watchAll_runs (count intervalMs : ℕ) :
    RunsCycles durable symbols count (do
      FinCoreCli.emit (.watching "ALL".toList count intervalMs)
      (scriptedCli durable symbols defaultPollSeconds host).watchLoop "ALL".toList count intervalMs
        count
      FinCoreCli.printSummary) := by
  have hrun := (emit_runs durable symbols (.watching "ALL".toList count intervalMs) rfl).bind
    ((watchLoop_runs durable symbols defaultPollSeconds host count intervalMs count).bind
      (printSummary_runs durable symbols))
  rw [show 0 + (count + 0) = count by omega] at hrun
  exact hrun

theorem poll_runs (count seconds : ℕ) :
    RunsCycles durable symbols count (do
      (scriptedCli durable symbols defaultPollSeconds host).pollLoop count seconds count
      FinCoreCli.printSummary) :=
  (pollLoop_runs durable symbols defaultPollSeconds host count seconds count).bind
    (printSummary_runs durable symbols)

theorem BatchCommand.Asks.runs {command : BatchCommand} {count : ℕ} (h : command.Asks count) :
    RunsCycles durable symbols count
      (command.handle (scriptedCli durable symbols defaultPollSeconds host)) := by
  set cli := scriptedCli durable symbols defaultPollSeconds host with hcli
  -- the check that the target is configured is not made for all symbols
  have hwatch : ∀ {target : Str} {count intervalMs : ℕ}, normalizeSymbol target = "ALL".toList →
      RunsCycles durable symbols count (do
        let s ← Action.get
        if normalizeSymbol target ≠ "ALL".toList
            ∧ FinCoreCli.isConfigured s.2 (normalizeSymbol target) = false then
          throw (FinCoreCli.notConfigured (normalizeSymbol target))
        else do
          FinCoreCli.emit (.watching (normalizeSymbol target) count intervalMs)
          cli.watchLoop (normalizeSymbol target) count intervalMs count
          FinCoreCli.printSummary) := by
    intro target count intervalMs htarget s
    have hrun := watchAll_runs durable symbols defaultPollSeconds host count intervalMs s
    rw [Action.bind_ok (Action.get_run s), if_neg (fun h => h.1 htarget), htarget]
    exact hrun
  cases h with
  | fetchAll htarget =>
      show RunsCycles durable symbols 1 (if _ then _ else _)
      rw [if_pos htarget]
      exact fetchAll_runs durable symbols defaultPollSeconds host true true
  | watchAll htarget => exact hwatch htarget
  | watchAllCount htarget hcount =>
      unfold BatchCommand.handle FinCoreCli.handleWatch
      simp only [hcount]
      exact hwatch htarget
  | watchAllEvery htarget hcount hevery =>
      unfold BatchCommand.handle FinCoreCli.handleWatch
      simp only [hcount, hevery]
      exact hwatch htarget
  | poll => exact poll_runs durable symbols defaultPollSeconds host 1 _
  | pollCount hcount =>
      unfold BatchCommand.handle FinCoreCli.handlePoll
      simp only [hcount]
      exact poll_runs durable symbols defaultPollSeconds host _ _
  | pollEvery hcount hevery =>
      unfold BatchCommand.handle FinCoreCli.handlePoll
      simp only [hcount, hevery]
      exact poll_runs durable symbols defaultPollSeconds host _ _

/-- **Every configured symbol is attempted and reported in every cycle exactly
if nothing the cycles call throws.** -/
theorem BatchCommand.batch_completed_iff {command : BatchCommand} {count : ℕ}
    (hasks : command.Asks count) {s : Script × CliState} (hconf : Configured symbols s.2) :
    Completed durable symbols count s
        (command.handle (scriptedCli durable symbols defaultPollSeconds host) s).2
      ↔ s.1.Clean durable symbols count :=
  (hasks.runs durable symbols defaultPollSeconds host).completed_iff hconf

end Commands

/-- Every symbol has its book once they have been emplaced. -/
theorem emplaceBooks_isSome (symbols : List Symbol) {books books' : Symbol → Option OrderBook}
    (h : emplaceBooks symbols books = .ok books') :
    (∀ symbol, (books symbol).isSome = true → (books' symbol).isSome = true)
    ∧ ∀ symbol ∈ symbols, (books' symbol).isSome = true := by
  induction symbols generalizing books with
  | nil =>
      obtain rfl := Except.ok.inj h
      exact ⟨fun _ hbook => hbook, fun _ hmem => absurd hmem List.not_mem_nil⟩
  | cons first rest ih =>
      unfold emplaceBooks at h
      cases hfirst : books first with
      | some book =>
          rw [hfirst] at h
          -- the symbol has a book, which is kept
          obtain ⟨hkeep, hrest⟩ := ih h
          refine ⟨hkeep, ?_⟩
          intro symbol hmem
          rcases List.mem_cons.mp hmem with rfl | hmem
          · exact hkeep symbol (by rw [hfirst]; rfl)
          · exact hrest symbol hmem
      | none =>
          rw [hfirst] at h
          obtain ⟨book, _, h⟩ := Action.except_bind_eq_ok.mp h
          obtain ⟨hkeep, hrest⟩ := ih h
          -- the new book is not removed by the symbols after it
          have hself : (books' first).isSome = true := by
            apply hkeep
            rw [Function.update_self]
            rfl
          refine ⟨?_, ?_⟩
          · intro symbol hbook
            by_cases heq : symbol = first
            · rw [heq]
              exact hself
            · apply hkeep
              rw [Function.update_of_ne heq]
              exact hbook
          · intro symbol hmem
            rcases List.mem_cons.mp hmem with rfl | hmem
            · exact hself
            · exact hrest symbol hmem

/-- The constructor leaves every symbol configured. -/
theorem create_configured {σ : Type} {services : CliServices σ} {symbols : List Str}
    {defaultPollSeconds : ℤ} {host : Host} {cli : FinCoreCli σ} {st : CliState}
    (h : FinCoreCli.create services symbols defaultPollSeconds host = .ok (cli, st)) :
    Configured cli.symbols st := by
  obtain ⟨books, hbooks, h⟩ := Action.except_bind_eq_ok.mp h
  obtain ⟨rfl, rfl⟩ := Prod.mk.inj (Except.ok.inj h)
  intro symbol hmem
  refine ⟨?_, (emplaceBooks_isSome _ hbooks).2 symbol hmem⟩
  obtain ⟨raw, _, rfl⟩ := List.mem_map.mp hmem
  exact toUpper_idem raw

/-! ## §9. Two symbols, with PostgreSQL. -/

/-- Redis has the quote, and every write succeeds. -/
def smoothOutcomes : Outcomes where
  getCachedQuote := .ok (some { symbol := "IBM".toList, price := .finite 100, volume := 1000 })
  getQuote := .ok none
  lastWasCached := .ok false
  storeQuote := .ok true
  updateOrderBook := .ok true
  persistQuote := .ok true
  persistSnapshot := .ok true

def smoothScript : Script := { fetch := fun _ => smoothOutcomes, connected := fun _ => .ok true }

/-- `poll 2` over two symbols completes two cycles. -/
theorem batch_completed_iff_pollTwice :
    ∃ cli st, FinCoreCli.create (Script.services true) ["ibm".toList, "aapl".toList] 0 sampleHost
        = .ok (cli, st)
      ∧ Completed true cli.symbols 2 (smoothScript, st)
          ((BatchCommand.poll ["2".toList]).handle cli (smoothScript, st)).2 := by
  obtain ⟨st, hcreate⟩ : ∃ st, FinCoreCli.create (Script.services true)
      ["ibm".toList, "aapl".toList] 0 sampleHost
        = .ok (scriptedCli true ["IBM".toList, "AAPL".toList] 0 sampleHost, st) := ⟨_, rfl⟩
  have hasks : (BatchCommand.poll ["2".toList]).Asks 2 := .pollCount (by decide +kernel)
  have hclean : smoothScript.Clean true ["IBM".toList, "AAPL".toList] 2 :=
    fun cycle _ => ⟨rfl, fun i _ => rfl⟩
  refine ⟨_, st, hcreate, ?_⟩
  exact (BatchCommand.batch_completed_iff true _ 0 sampleHost hasks
    (create_configured hcreate)).mpr hclean

/-- PostgreSQL refuses the first quote. -/
def refusedScript : Script where
  fetch := fun n =>
    if n = 0 then
      { smoothOutcomes with
        persistQuote :=
          .error (.databaseError "relation \"quotes\" does not exist".toList "42P01".toList) }
    else smoothOutcomes
  connected := fun _ => .ok true

/-- Then the second symbol is not attempted, and nothing is reported. -/
theorem fetchAll_stops_at_refused :
    ∃ cli st, FinCoreCli.create (Script.services true) ["ibm".toList, "aapl".toList] 0 sampleHost
        = .ok (cli, st)
      ∧ ((BatchCommand.fetch ["all".toList]).handle cli (refusedScript, st)).2.1.asked
          = ["IBM".toList]
      ∧ ((BatchCommand.fetch ["all".toList]).handle cli (refusedScript, st)).2.2.reports = []
      ∧ ¬ Completed true cli.symbols 1 (refusedScript, st)
          ((BatchCommand.fetch ["all".toList]).handle cli (refusedScript, st)).2 := by
  refine ⟨scriptedCli true ["IBM".toList, "AAPL".toList] 0 sampleHost, _, rfl, ?_⟩
  refine ⟨by decide +kernel, by decide +kernel, fun hcompleted => ?_⟩
  exact absurd hcompleted.attempted (by decide +kernel)

end FinCore.Cli

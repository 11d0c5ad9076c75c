/-
  FinCore.Cli.OutputIndependence
  ──────────────────────────────
  Nothing the CLI does depends on what it has printed.

  `PrintsMore` relates two runs that stand at the same point, one of which has
  printed more on the way.  Every action of the CLI is in lockstep with itself
  along it, up to the handling of a line (`runLine_lockstep`).
-/
import FinCore.Cli.SessionTrace
import FinCore.Cxx.Lockstep

namespace FinCore.Cli

open FinCore.Cxx

variable {σ : Type}

/-! ## §1. Two runs. -/

/-- The second run stands where the first does; what the first has printed, the
second has printed too, with more in between. -/
structure PrintsMore (s t : σ × CliState) : Prop where
  world : t.1 = s.1
  members : FinCoreCli.SameMembers s.2 t.2
  readings : t.2.readings = s.2.readings
  events : s.2.events.Sublist t.2.events

/-- The same in the middle of a fetch. -/
structure FetchPrintsMore (s t : FinCoreCli.FetchState σ) : Prop where
  cli : PrintsMore s.1 t.1
  metrics : t.2 = s.2

namespace PrintsMore

theorem refl (s : σ × CliState) : PrintsMore s s :=
  ⟨rfl, ⟨rfl, rfl, rfl⟩, rfl, List.Sublist.refl _⟩

theorem trans {s t u : σ × CliState} (h : PrintsMore s t) (h' : PrintsMore t u) :
    PrintsMore s u where
  world := h'.world.trans h.world
  members :=
    ⟨h'.members.books.trans h.members.books, h'.members.booksWithData.trans h.members.booksWithData,
      h'.members.stats.trans h.members.stats⟩
  readings := h'.readings.trans h.readings
  events := h.events.trans h'.events

/-- Printing changes nothing else. -/
theorem printed (s : σ × CliState) (events : List Event) :
    PrintsMore s (s.1, { s.2 with events := s.2.events ++ events }) :=
  ⟨rfl, ⟨rfl, rfl, rfl⟩, rfl, List.sublist_append_left _ _⟩

/-- A change of the members that depends on the members only, and prints
nothing. -/
theorem change {s t : σ × CliState} (h : PrintsMore s t) {f : CliState → CliState}
    (hmembers : FinCoreCli.SameMembers (f s.2) (f t.2))
    (hreadings : ∀ st, (f st).readings = st.readings) (hevents : ∀ st, (f st).events = st.events) :
    PrintsMore (s.1, f s.2) (t.1, f t.2) := by
  refine ⟨h.world, hmembers, ?_, ?_⟩
  · show (f t.2).readings = (f s.2).readings
    rw [hreadings, hreadings, h.readings]
  · show (f s.2).events.Sublist (f t.2).events
    rw [hevents, hevents]
    exact h.events

theorem isConfigured {s t : σ × CliState} (h : PrintsMore s t) (symbol : Symbol) :
    FinCoreCli.isConfigured t.2 symbol = FinCoreCli.isConfigured s.2 symbol := by
  unfold FinCoreCli.isConfigured
  rw [h.members.books]

end PrintsMore

namespace FinCoreCli

/-! ## §2. The steps of a fetch. -/

section Steps

variable {α : Type}

theorem emit_lockstep (event : Event) :
    Action.Lockstep PrintsMore (emit event : Action (σ × CliState) Exn Unit) (emit event) := by
  refine Action.Lockstep.modify (fun s t hst => ⟨hst.world, ?_, hst.readings, ?_⟩)
  · exact ⟨hst.members.books, hst.members.booksWithData, hst.members.stats⟩
  · exact hst.events.append (List.Sublist.refl [event])

theorem emitIf_lockstep (condition : Bool) (event : Event) :
    Action.Lockstep PrintsMore (emitIf condition event : Action (σ × CliState) Exn Unit)
      (emitIf condition event) :=
  Action.Lockstep.ite (fun _ => emit_lockstep event) (fun _ => Action.Lockstep.pure ())

/-- Both runs have read the host as often. -/
theorem readHost_lockstep (read : ℕ → α) :
    Action.Lockstep PrintsMore (readHost read : Action (σ × CliState) Exn α) (readHost read) := by
  refine Action.Lockstep.ofState (fun s t hst => ?_) (fun s t hst => ?_)
  · show read s.2.readings = read t.2.readings
    rw [hst.readings]
  · refine ⟨hst.world, ?_, congrArg (· + 1) hst.readings, hst.events⟩
    exact ⟨hst.members.books, hst.members.booksWithData, hst.members.stats⟩

/-- A service sees the same world, and leaves the same. -/
theorem callOutside_lockstep (x : Action σ Exn α) :
    Action.Lockstep PrintsMore (callOutside x) (callOutside x) := by
  refine (Action.Lockstep.self x).zoom (fun s t hst => hst.world.symm) ?_
  rintro s t w _ hst rfl
  exact ⟨rfl, hst.members, hst.readings, hst.events⟩

theorem call_lockstep (x : Action σ Exn α) :
    Action.Lockstep FetchPrintsMore (call x) (call x) := by
  refine (Action.Lockstep.self x).zoom (fun s t hst => hst.cli.world.symm) ?_
  rintro s t w _ hst rfl
  exact ⟨⟨rfl, hst.cli.members, hst.cli.readings, hst.cli.events⟩, hst.metrics⟩

theorem onCli_lockstep {x : Action (σ × CliState) Exn α}
    (h : Action.Lockstep PrintsMore x x) :
    Action.Lockstep FetchPrintsMore (onCli x) (onCli x) := by
  refine h.zoom (fun s t hst => hst.cli) ?_
  intro s t a b hst hab
  exact ⟨hab, hst.metrics⟩

theorem setMetrics_lockstep (f : OperationMetrics → OperationMetrics) :
    Action.Lockstep FetchPrintsMore (setMetrics f : Action (FetchState σ) Exn Unit)
      (setMetrics f) :=
  Action.Lockstep.modify (fun _ _ hst => ⟨hst.cli, congrArg f hst.metrics⟩)

theorem withLocal_lockstep (start : OperationMetrics) {x : Action (FetchState σ) Exn α}
    (h : Action.Lockstep FetchPrintsMore x x) :
    Action.Lockstep PrintsMore (withLocal start x) (withLocal start x) := by
  intro s t hst
  obtain ⟨hout, hnext⟩ := h (s, start) (t, start) ⟨hst, rfl⟩
  exact ⟨hout, hnext.cli⟩

theorem modifyCli_lockstep {f : CliState → CliState}
    (hmembers : ∀ st st', SameMembers st st' → SameMembers (f st) (f st'))
    (hreadings : ∀ st, (f st).readings = st.readings) (hevents : ∀ st, (f st).events = st.events) :
    Action.Lockstep FetchPrintsMore (modifyCli f : Action (FetchState σ) Exn Unit) (modifyCli f) :=
  Action.Lockstep.modify (fun _ _ hst =>
    ⟨hst.cli.change (hmembers _ _ hst.cli.members) hreadings hevents, hst.metrics⟩)

end Steps

/-! ## §3. Fetching. -/

variable (cli : FinCoreCli σ)

theorem startClock_lockstep :
    Action.Lockstep FetchPrintsMore cli.startClock cli.startClock :=
  onCli_lockstep (readHost_lockstep _)

theorem elapsedUs_lockstep (started : ℤ) :
    Action.Lockstep FetchPrintsMore (cli.elapsedUs started) (cli.elapsedUs started) :=
  (onCli_lockstep (readHost_lockstep _)).bind (fun _ => Action.Lockstep.pure _)

theorem readQuote_lockstep (symbol : Symbol) :
    Action.Lockstep FetchPrintsMore (cli.readQuote symbol) (cli.readQuote symbol) := by
  unfold readQuote
  refine cli.startClock_lockstep.bind (fun started => ?_)
  refine (call_lockstep _).bind (fun cached => ?_)
  refine (cli.elapsedUs_lockstep started).bind (fun us => ?_)
  refine (setMetrics_lockstep _).bind (fun _ => ?_)
  cases cached with
  | some quote => exact Action.Lockstep.pure (some quote)
  | none =>
      refine cli.startClock_lockstep.bind (fun apiStarted => ?_)
      refine (call_lockstep _).bind (fun fetched => ?_)
      refine (cli.elapsedUs_lockstep apiStarted).bind (fun apiUs => ?_)
      refine (setMetrics_lockstep _).bind (fun _ => ?_)
      refine (call_lockstep _).bind (fun apiCached => ?_)
      exact (setMetrics_lockstep _).bind (fun _ => Action.Lockstep.pure fetched)

/-- Both runs record the same metrics. -/
theorem recordMetrics_lockstep (processBefore : ProcessSnapshot) (totalStarted : ℤ) :
    Action.Lockstep FetchPrintsMore (cli.recordMetrics processBefore totalStarted)
      (cli.recordMetrics processBefore totalStarted) := by
  unfold recordMetrics
  refine (cli.elapsedUs_lockstep totalStarted).bind (fun us => ?_)
  refine (onCli_lockstep (readHost_lockstep _)).bind (fun after => ?_)
  refine (setMetrics_lockstep _).bind (fun _ => ?_)
  refine Action.Lockstep.get (fun s t hst => ?_)
  rw [hst.metrics]
  refine modifyCli_lockstep (fun st st' hsame => ?_) (fun _ => rfl) (fun _ => rfl)
  exact ⟨hsame.books, hsame.booksWithData, congrArg (fun stats => stats.record s.2) hsame.stats⟩

theorem storeQuote_lockstep (symbol : Symbol) (quote : Quote) :
    Action.Lockstep FetchPrintsMore (cli.storeQuote symbol quote)
      (cli.storeQuote symbol quote) := by
  unfold storeQuote
  refine Action.Lockstep.get (fun s t hst => ?_)
  rw [hst.metrics]
  refine Action.Lockstep.ite (fun _ => setMetrics_lockstep _) (fun _ => ?_)
  refine cli.startClock_lockstep.bind (fun started => ?_)
  refine (call_lockstep _).bind (fun stored => ?_)
  refine (setMetrics_lockstep _).bind (fun _ => ?_)
  exact (cli.elapsedUs_lockstep started).bind (fun us => setMetrics_lockstep _)

/-- Both runs rebuild the same book. -/
theorem rebuildBook_lockstep (symbol : Symbol) (quote : Quote) :
    Action.Lockstep FetchPrintsMore (cli.rebuildBook symbol quote)
      (cli.rebuildBook symbol quote) := by
  unfold rebuildBook
  refine Action.Lockstep.get (fun s t hst => ?_)
  rw [hst.cli.members.books]
  cases s.1.2.books symbol with
  | none => exact Action.Lockstep.throw outOfRangeAt
  | some before =>
      refine cli.startClock_lockstep.bind (fun started => ?_)
      refine Action.Lockstep.bind (modifyCli_lockstep (fun st st' hsame => ?_) (fun _ => rfl)
        (fun _ => rfl)) (fun _ => ?_)
      · exact ⟨congrArg (Function.update · symbol _) hsame.books, hsame.booksWithData, hsame.stats⟩
      refine (Action.Lockstep.ofExcept _).bind (fun _ => ?_)
      refine (cli.elapsedUs_lockstep started).bind (fun us => ?_)
      refine (setMetrics_lockstep _).bind (fun _ => ?_)
      refine Action.Lockstep.bind (modifyCli_lockstep (fun st st' hsame => ?_) (fun _ => rfl)
        (fun _ => rfl)) (fun _ => Action.Lockstep.pure _)
      exact ⟨hsame.books, congrArg (insert symbol) hsame.booksWithData, hsame.stats⟩

theorem publishBook_lockstep (symbol : Symbol) (book : OrderBook) :
    Action.Lockstep FetchPrintsMore (cli.publishBook symbol book)
      (cli.publishBook symbol book) := by
  unfold publishBook
  refine cli.startClock_lockstep.bind (fun started => ?_)
  refine (call_lockstep _).bind (fun stored => ?_)
  refine (setMetrics_lockstep _).bind (fun _ => ?_)
  exact (cli.elapsedUs_lockstep started).bind (fun us => setMetrics_lockstep _)

theorem persist_lockstep (quote : Quote) (snapshot : OrderBookSnapshot) :
    Action.Lockstep FetchPrintsMore (cli.persist quote snapshot) (cli.persist quote snapshot) := by
  unfold persist
  split
  · refine (call_lockstep _).bind (fun quoteStored => ?_)
    exact (call_lockstep _).bind (fun snapshotStored => Action.Lockstep.pure _)
  · exact Action.Lockstep.pure none

theorem finishFetch_lockstep (printData printMetrics : Bool) (processBefore : ProcessSnapshot)
    (totalStarted : ℤ) (quote : Quote) (snapshot : OrderBookSnapshot)
    (postgres : Option (Bool × Bool)) :
    Action.Lockstep FetchPrintsMore
      (cli.finishFetch printData printMetrics processBefore totalStarted quote snapshot postgres)
      (cli.finishFetch printData printMetrics processBefore totalStarted quote snapshot
        postgres) := by
  unfold finishFetch
  refine (setMetrics_lockstep _).bind (fun _ => ?_)
  refine (cli.recordMetrics_lockstep processBefore totalStarted).bind (fun _ => ?_)
  refine Action.Lockstep.get (fun s t hst => ?_)
  rw [hst.metrics]
  refine (onCli_lockstep (emit_lockstep _)).bind (fun _ => ?_)
  refine (onCli_lockstep (emitIf_lockstep _ _)).bind (fun _ => ?_)
  refine (onCli_lockstep (emitIf_lockstep _ _)).bind (fun _ => ?_)
  exact (onCli_lockstep (emitIf_lockstep _ _)).bind (fun _ => Action.Lockstep.pure _)

theorem useQuote_lockstep (symbol : Symbol) (printData printMetrics : Bool)
    (processBefore : ProcessSnapshot) (totalStarted : ℤ) (quote : Quote) :
    Action.Lockstep FetchPrintsMore
      (cli.useQuote symbol printData printMetrics processBefore totalStarted quote)
      (cli.useQuote symbol printData printMetrics processBefore totalStarted quote) := by
  unfold useQuote
  refine (cli.storeQuote_lockstep symbol quote).bind (fun _ => ?_)
  refine (cli.rebuildBook_lockstep symbol quote).bind (fun book => ?_)
  refine (cli.publishBook_lockstep symbol book).bind (fun _ => ?_)
  refine (onCli_lockstep (readHost_lockstep _)).bind (fun now => ?_)
  refine (cli.persist_lockstep quote _).bind (fun postgres => ?_)
  exact cli.finishFetch_lockstep _ _ _ _ _ _ postgres

theorem fetchBody_lockstep (symbol : Symbol) (printData printMetrics : Bool)
    (processBefore : ProcessSnapshot) (totalStarted : ℤ) :
    Action.Lockstep FetchPrintsMore
      (cli.fetchBody symbol printData printMetrics processBefore totalStarted)
      (cli.fetchBody symbol printData printMetrics processBefore totalStarted) := by
  unfold fetchBody
  refine (cli.readQuote_lockstep symbol).bind (fun found => ?_)
  cases found with
  | some quote => exact cli.useQuote_lockstep _ _ _ _ _ quote
  | none =>
      refine (cli.recordMetrics_lockstep processBefore totalStarted).bind (fun _ => ?_)
      refine Action.Lockstep.get (fun s t hst => ?_)
      rw [hst.metrics]
      refine (onCli_lockstep (emit_lockstep _)).bind (fun _ => ?_)
      exact (onCli_lockstep (emitIf_lockstep _ _)).bind (fun _ => Action.Lockstep.pure false)

theorem fetchSymbol_lockstep (rawSymbol : Str) (printData printMetrics : Bool) :
    Action.Lockstep PrintsMore (cli.fetchSymbol rawSymbol printData printMetrics)
      (cli.fetchSymbol rawSymbol printData printMetrics) := by
  unfold fetchSymbol
  refine Action.Lockstep.get (fun s t hst => ?_)
  rw [hst.isConfigured]
  refine Action.Lockstep.ite (fun _ => Action.Lockstep.throw _) (fun _ => ?_)
  refine (readHost_lockstep _).bind (fun processBefore => ?_)
  refine (readHost_lockstep _).bind (fun totalStarted => ?_)
  refine withLocal_lockstep _ (Action.Lockstep.tryCatch ?_ (fun e => ?_))
  · exact cli.fetchBody_lockstep _ _ _ processBefore totalStarted
  · exact (cli.recordMetrics_lockstep processBefore totalStarted).bind
      (fun _ => Action.Lockstep.throw e)

/-! ## §4. Fetching all symbols, and again. -/

theorem fetchEach_lockstep (printData printMetrics : Bool) (symbols : List Symbol) :
    ∀ successes, Action.Lockstep PrintsMore
      (cli.fetchEach printData printMetrics symbols successes)
      (cli.fetchEach printData printMetrics symbols successes) := by
  induction symbols with
  | nil => exact fun successes => Action.Lockstep.pure successes
  | cons symbol rest ih =>
      intro successes
      unfold fetchEach
      exact (cli.fetchSymbol_lockstep symbol printData printMetrics).bind (fun success => ih _)

theorem fetchAll_lockstep (printData printMetrics : Bool) :
    Action.Lockstep PrintsMore (cli.fetchAll printData printMetrics)
      (cli.fetchAll printData printMetrics) := by
  unfold fetchAll
  refine (callOutside_lockstep _).bind (fun connected => ?_)
  refine (emitIf_lockstep _ _).bind (fun _ => ?_)
  exact (cli.fetchEach_lockstep printData printMetrics cli.symbols 0).bind
    (fun successes => emit_lockstep _)

theorem watchOnce_lockstep (target : Symbol) :
    Action.Lockstep PrintsMore (cli.watchOnce target) (cli.watchOnce target) := by
  unfold watchOnce
  refine Action.Lockstep.ite (fun _ => cli.fetchAll_lockstep false false) (fun _ => ?_)
  exact (cli.fetchSymbol_lockstep target false true).bind (fun _ => Action.Lockstep.pure ())

theorem watchLoop_lockstep (target : Symbol) (count intervalMs remaining : ℕ) :
    Action.Lockstep PrintsMore (cli.watchLoop target count intervalMs remaining)
      (cli.watchLoop target count intervalMs remaining) := by
  induction remaining with
  | zero => exact Action.Lockstep.pure ()
  | succ remaining ih =>
      unfold watchLoop
      refine (emit_lockstep _).bind (fun _ => ?_)
      refine (cli.watchOnce_lockstep target).bind (fun _ => ?_)
      exact (emitIf_lockstep _ _).bind (fun _ => ih)

theorem pollLoop_lockstep (count seconds remaining : ℕ) :
    Action.Lockstep PrintsMore (cli.pollLoop count seconds remaining)
      (cli.pollLoop count seconds remaining) := by
  induction remaining with
  | zero => exact Action.Lockstep.pure ()
  | succ remaining ih =>
      unfold pollLoop
      refine (emit_lockstep _).bind (fun _ => ?_)
      refine (cli.fetchAll_lockstep true false).bind (fun _ => ?_)
      refine (emitIf_lockstep _ _).bind (fun _ => ?_)
      exact (emitIf_lockstep _ _).bind (fun _ => ih)

theorem printSummary_lockstep :
    Action.Lockstep PrintsMore (printSummary : Action (σ × CliState) Exn Unit) printSummary := by
  unfold printSummary
  refine Action.Lockstep.get (fun s t hst => ?_)
  rw [hst.members.stats]
  exact emit_lockstep _

/-! ## §5. The commands. -/

theorem handleSymbols_lockstep (args : Args) :
    Action.Lockstep PrintsMore (cli.handleSymbols args) (cli.handleSymbols args) :=
  Action.Lockstep.ite (fun _ => Action.Lockstep.throw _) (fun _ => emit_lockstep _)

theorem handleFetch_lockstep (args : Args) :
    Action.Lockstep PrintsMore (cli.handleFetch args) (cli.handleFetch args) := by
  unfold handleFetch
  split
  next arg =>
    refine Action.Lockstep.ite (fun _ => cli.fetchAll_lockstep true true) (fun _ => ?_)
    exact (cli.fetchSymbol_lockstep _ true true).bind (fun _ => Action.Lockstep.pure ())
  next => exact Action.Lockstep.throw _

theorem handleBook_lockstep (args : Args) :
    Action.Lockstep PrintsMore (cli.handleBook args) (cli.handleBook args) := by
  unfold handleBook
  split
  next arg =>
    refine Action.Lockstep.get (fun s t hst => ?_)
    rw [hst.isConfigured, hst.members.books, hst.members.booksWithData]
    refine Action.Lockstep.ite (fun _ => Action.Lockstep.throw _) (fun _ => ?_)
    refine Action.Lockstep.ite (fun _ => emit_lockstep _) (fun _ => ?_)
    refine (readHost_lockstep _).bind (fun started => ?_)
    cases s.2.books (normalizeSymbol arg) with
    | none => exact Action.Lockstep.throw outOfRangeAt
    | some book =>
        refine (readHost_lockstep _).bind (fun now => ?_)
        refine (readHost_lockstep _).bind (fun finished => ?_)
        exact (emit_lockstep _).bind (fun _ => emit_lockstep _)
  next => exact Action.Lockstep.throw _

theorem handleLookup_lockstep (args : Args) :
    Action.Lockstep PrintsMore (cli.handleLookup args) (cli.handleLookup args) := by
  unfold handleLookup
  split
  · exact Action.Lockstep.throw _
  · exact Action.Lockstep.throw _
  next first rest _ =>
    extract_lets symbol benchmark
    have hbenchmark : ∀ count, Action.Lockstep PrintsMore (benchmark count) (benchmark count) := by
      intro count
      refine Action.Lockstep.get (fun s t hst => ?_)
      rw [hst.isConfigured]
      refine Action.Lockstep.ite (fun _ => Action.Lockstep.throw _) (fun _ => ?_)
      refine (readHost_lockstep _).bind (fun processBefore => ?_)
      refine (readHost_lockstep _).bind (fun benchmarkStarted => ?_)
      refine (readHost_lockstep _).bind (fun vectorStarted => ?_)
      refine (readHost_lockstep _).bind (fun vectorFinished => ?_)
      refine (readHost_lockstep _).bind (fun mapStarted => ?_)
      refine (readHost_lockstep _).bind (fun mapFinished => ?_)
      refine (readHost_lockstep _).bind (fun benchmarkFinished => ?_)
      exact (readHost_lockstep _).bind (fun processAfter => emit_lockstep _)
    split
    · exact (Action.Lockstep.ofExcept _).bind hbenchmark
    · exact hbenchmark 1000000

theorem handleWatch_lockstep (args : Args) :
    Action.Lockstep PrintsMore (cli.handleWatch args) (cli.handleWatch args) := by
  unfold handleWatch
  split
  · exact Action.Lockstep.throw _
  · exact Action.Lockstep.throw _
  next first rest _ =>
    extract_lets target every
    have hevery : ∀ count, Action.Lockstep PrintsMore (every count) (every count) := by
      intro count
      dsimp -zeta -zetaHave only [every]
      extract_lets watch
      have hwatch : ∀ intervalMs, Action.Lockstep PrintsMore (watch intervalMs)
          (watch intervalMs) := by
        intro intervalMs
        refine Action.Lockstep.get (fun s t hst => ?_)
        rw [hst.isConfigured]
        refine Action.Lockstep.ite (fun _ => Action.Lockstep.throw _) (fun _ => ?_)
        refine (emit_lockstep _).bind (fun _ => ?_)
        exact (cli.watchLoop_lockstep target count intervalMs count).bind
          (fun _ => printSummary_lockstep)
      split
      · exact (Action.Lockstep.ofExcept _).bind hwatch
      · exact hwatch 1000
    split
    · exact (Action.Lockstep.ofExcept _).bind hevery
    · exact hevery 10

theorem handlePoll_lockstep (args : Args) :
    Action.Lockstep PrintsMore (cli.handlePoll args) (cli.handlePoll args) := by
  unfold handlePoll
  split
  · exact Action.Lockstep.throw _
  · extract_lets every
    have hevery : ∀ count, Action.Lockstep PrintsMore (every count) (every count) := by
      intro count
      dsimp -zeta -zetaHave only [every]
      extract_lets poll
      have hpoll : ∀ seconds, Action.Lockstep PrintsMore (poll seconds) (poll seconds) :=
        fun seconds => (cli.pollLoop_lockstep count seconds count).bind
          (fun _ => printSummary_lockstep)
      split
      · exact (Action.Lockstep.ofExcept _).bind hpoll
      · exact hpoll _
    split
    · exact (Action.Lockstep.ofExcept _).bind hevery
    · exact hevery 1

theorem handleRedis_lockstep (args : Args) :
    Action.Lockstep PrintsMore (cli.handleRedis args) (cli.handleRedis args) := by
  unfold handleRedis
  split
  · refine Action.Lockstep.ite (fun _ => Action.Lockstep.throw _) (fun _ => ?_)
    exact (callOutside_lockstep _).bind (fun connected => emit_lockstep _)
  · exact Action.Lockstep.throw _

theorem handleStats_lockstep (args : Args) :
    Action.Lockstep PrintsMore (handleStats args : Action (σ × CliState) Exn Unit)
      (handleStats args) := by
  unfold handleStats
  split
  next => exact printSummary_lockstep
  next arg =>
    refine Action.Lockstep.ite (fun _ => ?_) (fun _ => ?_)
    · unfold printLast
      refine Action.Lockstep.get (fun s t hst => ?_)
      rw [hst.members.stats]
      exact emit_lockstep _
    refine Action.Lockstep.ite (fun _ => ?_) (fun _ => Action.Lockstep.throw _)
    unfold resetStats
    refine (Action.Lockstep.modify (fun s t hst => ?_)).bind (fun _ => emit_lockstep _)
    refine hst.change (f := fun st => { st with stats := st.stats.reset }) ?_ (fun _ => rfl)
      (fun _ => rfl)
    exact ⟨hst.members.books, hst.members.booksWithData,
      congrArg SessionStats.reset hst.members.stats⟩
  next => exact Action.Lockstep.throw _

/-! ## §6. A line. -/

theorem runCommand_lockstep (command : Str) (args : Args) :
    Action.Lockstep PrintsMore (cli.runCommand command args) (cli.runCommand command args) := by
  unfold runCommand
  refine Action.Lockstep.ite (fun _ => emit_lockstep _) (fun _ => ?_)
  refine Action.Lockstep.ite (fun _ => cli.handleSymbols_lockstep args) (fun _ => ?_)
  refine Action.Lockstep.ite (fun _ => cli.handleFetch_lockstep args) (fun _ => ?_)
  refine Action.Lockstep.ite (fun _ => cli.handleBook_lockstep args) (fun _ => ?_)
  refine Action.Lockstep.ite (fun _ => cli.handleLookup_lockstep args) (fun _ => ?_)
  refine Action.Lockstep.ite (fun _ => cli.handleWatch_lockstep args) (fun _ => ?_)
  refine Action.Lockstep.ite (fun _ => cli.handlePoll_lockstep args) (fun _ => ?_)
  refine Action.Lockstep.ite (fun _ => cli.handleRedis_lockstep args) (fun _ => ?_)
  refine Action.Lockstep.ite (fun _ => handleStats_lockstep args) (fun _ => ?_)
  exact Action.Lockstep.ite (fun _ => emit_lockstep _) (fun _ => emit_lockstep _)

/-- **What a line does does not depend on what has been printed.** -/
theorem runLine_lockstep (line : Str) :
    Action.Lockstep PrintsMore (cli.runLine line) (cli.runLine line) := by
  unfold runLine handleLine
  refine Action.Lockstep.tryCatch ?_ (fun e => ?_)
  · split
    · exact Action.Lockstep.pure true
    next first args _ =>
      exact (cli.runCommand_lockstep (commandName first) args).bind
        (fun _ => Action.Lockstep.pure _)
  · exact (emit_lockstep _).bind (fun _ => Action.Lockstep.pure true)

end FinCoreCli

end FinCore.Cli

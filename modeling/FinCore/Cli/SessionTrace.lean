/-
  FinCore.Cli.SessionTrace
  ────────────────────────
  What happens to the members of the CLI during a session.

  Whatever line is typed, books and statistics change in two ways only: by a
  `fetch_symbol` for a configured symbol, and by `stats reset`.  A trace is the
  sequence of these, over services that log their calls.  Every line leaves a
  trace (`runLine_steps`, `runLine_reset`), and so does every session
  (`run_trace`); invariants of a session are proved along its trace.
-/
import FinCore.Cli.CacheAside
import FinCore.Cli.CommandLoop

namespace FinCore.Cli

open FinCore.Cxx

/-! ## §1. Happenings. -/

/-- The CLI and the world, with the calls that have been made. -/
abbrev Logged (σ : Type) := (σ × List ServiceCall) × CliState

/-- A call of `fetch_symbol` for a configured symbol. -/
structure FetchCall (σ : Type) where
  start : Logged σ
  rawSymbol : Str
  printData : Bool
  printMetrics : Bool
  configured : FinCoreCli.isConfigured start.2 (normalizeSymbol rawSymbol) = true

namespace FetchCall

variable {σ : Type} (cli : FinCoreCli σ) (fetch : FetchCall σ)

def symbol : Symbol := normalizeSymbol fetch.rawSymbol

/-- What it returns or throws. -/
def result : Except Exn Bool :=
  (cli.logged.fetchSymbol fetch.rawSymbol fetch.printData fetch.printMetrics fetch.start).1

def finish : Logged σ :=
  (cli.logged.fetchSymbol fetch.rawSymbol fetch.printData fetch.printMetrics fetch.start).2

/-- The metrics it ends with. -/
def metrics : OperationMetrics :=
  cli.logged.fetchMetrics fetch.rawSymbol fetch.printData fetch.printMetrics fetch.start

end FetchCall

inductive Happening (σ : Type) where
  | fetch (fetch : FetchCall σ)
  | reset

/-- Nothing but output, readings of the host and checks of the connection. -/
structure Idle {σ : Type} (s t : Logged σ) : Prop where
  members : FinCoreCli.SameMembers s.2 t.2
  calls : ∃ checks : List (Except Exn Bool), t.1.2 = s.1.2 ++ checks.map .redisIsConnected

/-- `stats reset`. -/
structure Cleared {σ : Type} (s t : Logged σ) : Prop where
  books : t.2.books = s.2.books
  booksWithData : t.2.booksWithData = s.2.booksWithData
  stats : t.2.stats = {}
  world : t.1 = s.1

/-- What happened between two states, in order. -/
inductive Trace {σ : Type} (cli : FinCoreCli σ) :
    Logged σ → List (Happening σ) → Logged σ → Prop where
  | idle {s t : Logged σ} : Idle s t → Trace cli s [] t
  | fetch (fetch : FetchCall σ) : Trace cli fetch.start [.fetch fetch] (fetch.finish cli)
  | reset {s t : Logged σ} : Cleared s t → Trace cli s [.reset] t
  | append {s t u : Logged σ} {events events' : List (Happening σ)} :
      Trace cli s events t → Trace cli t events' u → Trace cli s (events ++ events') u

/-- Only fetches happened. -/
def Steps {σ : Type} (cli : FinCoreCli σ) (s t : Logged σ) : Prop :=
  ∃ fetches : List (FetchCall σ), Trace cli s (fetches.map .fetch) t

section Idle

variable {σ : Type}

theorem Idle.refl (s : Logged σ) : Idle s s :=
  ⟨⟨rfl, rfl, rfl⟩, [], (List.append_nil _).symm⟩

/-- Nothing is called. -/
theorem Idle.of_members {s t : Logged σ} (h : FinCoreCli.SameMembers s.2 t.2) (hworld : t.1 = s.1) :
    Idle s t :=
  ⟨h, [], by rw [hworld, List.map_nil, List.append_nil]⟩

theorem Idle.steps {cli : FinCoreCli σ} {s t : Logged σ} (h : Idle s t) : Steps cli s t :=
  ⟨[], .idle h⟩

instance (cli : FinCoreCli σ) : IsPreorder (Logged σ) (Steps cli) where
  refl s := (Idle.refl s).steps
  trans := by
    rintro s t u ⟨fetches, h⟩ ⟨fetches', h'⟩
    refine ⟨fetches ++ fetches', ?_⟩
    rw [List.map_append]
    exact h.append h'

end Idle

namespace FinCoreCli

variable {σ : Type} (cli : FinCoreCli σ)

/-! ## §2. Fetching. -/

/-- What a fetch of a session does: its path, its calls and the change of the
members. -/
theorem fetchCall_run (fetch : FetchCall σ) :
    ∃ before now built calls, fetch.start.2.books fetch.symbol = some before
      ∧ (fetch.finish cli).1.2 = fetch.start.1.2 ++ calls
      ∧ FetchPath cli.services.durable fetch.symbol (rebuilt before) now built calls
          (fetch.result cli)
      ∧ Rebuilds fetch.symbol before built fetch.start.2 (fetch.finish cli).2
      ∧ (fetch.finish cli).2.stats = fetch.start.2.stats.record (fetch.metrics cli) := by
  obtain ⟨before, hbook⟩ := Option.isSome_iff_exists.mp fetch.configured
  -- what the call is defined by is one run of the `try` block
  obtain ⟨now, built, calls, result, s', htry, hcalls, hpath, hrebuilds, hstats, _, _⟩ :=
    cli.logged.fetchTry_steps (normalizeSymbol fetch.rawSymbol) fetch.printData fetch.printMetrics
      fetch.start hbook
  have hrun := cli.logged.fetchSymbol_eq fetch.rawSymbol fetch.printData fetch.printMetrics
    fetch.start fetch.configured
  have hresult : fetch.result cli = result := by
    rw [FetchCall.result, hrun, htry]
  have hfinish : fetch.finish cli = s'.1 := by
    rw [FetchCall.finish, hrun, htry]
  have hmetrics : fetch.metrics cli = s'.2 := by
    rw [FetchCall.metrics, fetchMetrics, htry]
  have hdurable : cli.logged.services.durable = cli.services.durable := cli.services.logged_durable
  rw [hdurable] at hpath
  rw [hresult, hfinish, hmetrics]
  exact ⟨before, now, built, calls, hbook, hcalls.log, hpath, hrebuilds, hstats⟩

theorem emit_steps (event : Event) :
    Action.Within (Steps cli) (emit event : Action (Logged σ) Exn Unit) := by
  intro s
  have hidle : Idle s (emit event s : Except Exn Unit × Logged σ).2 :=
    Idle.of_members ⟨rfl, rfl, rfl⟩ rfl
  exact hidle.steps

theorem emitIf_steps (condition : Bool) (event : Event) :
    Action.Within (Steps cli) (emitIf condition event : Action (Logged σ) Exn Unit) := by
  cases condition with
  | true => exact cli.emit_steps event
  | false => exact Action.Within.pure ()

theorem readHost_steps {α : Type} (read : ℕ → α) :
    Action.Within (Steps cli) (readHost read : Action (Logged σ) Exn α) := by
  intro s
  have hidle : Idle s (readHost read s : Except Exn α × Logged σ).2 :=
    Idle.of_members ⟨rfl, rfl, rfl⟩ rfl
  exact hidle.steps

theorem isConnected_steps :
    Action.Within (Steps cli) (callOutside cli.logged.services.redisIsConnected) := by
  intro s
  refine Idle.steps ⟨⟨rfl, rfl, rfl⟩, [(cli.services.redisIsConnected s.1.1).1], ?_⟩
  rfl

theorem fetchSymbol_steps (rawSymbol : Str) (printData printMetrics : Bool) :
    Action.Within (Steps cli) (cli.logged.fetchSymbol rawSymbol printData printMetrics) := by
  intro s
  by_cases hconfigured : isConfigured s.2 (normalizeSymbol rawSymbol) = true
  · exact ⟨[⟨s, rawSymbol, printData, printMetrics, hconfigured⟩],
      Trace.fetch ⟨s, rawSymbol, printData, printMetrics, hconfigured⟩⟩
  · have hbook : s.2.books (normalizeSymbol rawSymbol) = none := by
      unfold isConfigured at hconfigured
      simpa using hconfigured
    rw [cli.logged.fetchSymbol_refused rawSymbol printData printMetrics s hbook]
    exact refl_of (Steps cli) s

theorem fetchEach_steps (printData printMetrics : Bool) (symbols : List Symbol) :
    ∀ successes, Action.Within (Steps cli)
      (cli.logged.fetchEach printData printMetrics symbols successes) := by
  induction symbols with
  | nil => exact fun successes => Action.Within.pure successes
  | cons symbol rest ih =>
      intro successes
      unfold fetchEach
      exact (cli.fetchSymbol_steps symbol printData printMetrics).bind (fun success => ih _)

theorem fetchAll_steps (printData printMetrics : Bool) :
    Action.Within (Steps cli) (cli.logged.fetchAll printData printMetrics) := by
  unfold fetchAll
  refine cli.isConnected_steps.bind (fun connected => ?_)
  refine (cli.emitIf_steps _ _).bind (fun _ => ?_)
  refine (cli.fetchEach_steps printData printMetrics _ 0).bind (fun successes => ?_)
  exact cli.emit_steps _

theorem watchOnce_steps (target : Symbol) :
    Action.Within (Steps cli) (cli.logged.watchOnce target) := by
  unfold watchOnce
  split
  · exact cli.fetchAll_steps false false
  · exact (cli.fetchSymbol_steps target false true).bind (fun _ => Action.Within.pure ())

theorem watchLoop_steps (target : Symbol) (count intervalMs remaining : ℕ) :
    Action.Within (Steps cli) (cli.logged.watchLoop target count intervalMs remaining) := by
  induction remaining with
  | zero => exact Action.Within.pure ()
  | succ remaining ih =>
      unfold watchLoop
      refine (cli.emit_steps _).bind (fun _ => ?_)
      refine (cli.watchOnce_steps target).bind (fun _ => ?_)
      exact (cli.emitIf_steps _ _).bind (fun _ => ih)

theorem pollLoop_steps (count seconds remaining : ℕ) :
    Action.Within (Steps cli) (cli.logged.pollLoop count seconds remaining) := by
  induction remaining with
  | zero => exact Action.Within.pure ()
  | succ remaining ih =>
      unfold pollLoop
      refine (cli.emit_steps _).bind (fun _ => ?_)
      refine (cli.fetchAll_steps true false).bind (fun _ => ?_)
      refine (cli.emitIf_steps _ _).bind (fun _ => ?_)
      exact (cli.emitIf_steps _ _).bind (fun _ => ih)

/-! ## §3. Commands. -/

theorem get_steps {α : Type} {f : Logged σ → Action (Logged σ) Exn α}
    (h : ∀ s, Action.Within (Steps cli) (f s)) : Action.Within (Steps cli) (Action.get >>= f) :=
  Action.Within.get.bind h

theorem printSummary_steps :
    Action.Within (Steps cli) (printSummary : Action (Logged σ) Exn Unit) :=
  cli.get_steps (fun _ => cli.emit_steps _)

theorem throw_steps {α : Type} (e : Exn) :
    Action.Within (Steps cli) (throw e : Action (Logged σ) Exn α) :=
  Action.Within.throw e

theorem handleSymbols_steps (args : Args) :
    Action.Within (Steps cli) (cli.logged.handleSymbols args) := by
  unfold handleSymbols
  split
  · exact cli.throw_steps _
  · exact cli.emit_steps _

theorem handleFetch_steps (args : Args) :
    Action.Within (Steps cli) (cli.logged.handleFetch args) := by
  unfold handleFetch
  split
  · simp only
    split
    · exact cli.fetchAll_steps true true
    · exact (cli.fetchSymbol_steps _ true true).bind (fun _ => Action.Within.pure ())
  · exact cli.throw_steps _

theorem handleBook_steps (args : Args) :
    Action.Within (Steps cli) (cli.logged.handleBook args) := by
  unfold handleBook
  split
  · refine cli.get_steps (fun s => ?_)
    split
    · exact cli.throw_steps _
    split
    · exact cli.emit_steps _
    refine (cli.readHost_steps _).bind (fun started => ?_)
    split
    · exact cli.throw_steps _
    refine (cli.readHost_steps _).bind (fun now => ?_)
    refine (cli.readHost_steps _).bind (fun finished => ?_)
    exact (cli.emit_steps _).bind (fun _ => cli.emit_steps _)
  · exact cli.throw_steps _

/-- A number among the arguments, or its default. -/
theorem argument_steps {α : Type} (r : Except Exn α) :
    Action.Within (Steps cli) (Action.ofExcept r : Action (Logged σ) Exn α) :=
  Action.Within.ofExcept r

theorem handleLookup_steps (args : Args) :
    Action.Within (Steps cli) (cli.logged.handleLookup args) := by
  unfold handleLookup
  split
  · exact cli.throw_steps _
  · exact cli.throw_steps _
  next first rest _ =>
    extract_lets symbol benchmark
    have hbenchmark : ∀ count, Action.Within (Steps cli) (benchmark count) := by
      intro count
      refine cli.get_steps (fun s => ?_)
      split
      · exact cli.throw_steps _
      -- eight readings of the host around the two lookups
      refine (cli.readHost_steps _).bind (fun processBefore => ?_)
      refine (cli.readHost_steps _).bind (fun benchmarkStarted => ?_)
      refine (cli.readHost_steps _).bind (fun vectorStarted => ?_)
      refine (cli.readHost_steps _).bind (fun vectorFinished => ?_)
      refine (cli.readHost_steps _).bind (fun mapStarted => ?_)
      refine (cli.readHost_steps _).bind (fun mapFinished => ?_)
      refine (cli.readHost_steps _).bind (fun benchmarkFinished => ?_)
      refine (cli.readHost_steps _).bind (fun processAfter => ?_)
      exact cli.emit_steps _
    split
    · exact (cli.argument_steps _).bind hbenchmark
    · exact hbenchmark 1000000

theorem handleWatch_steps (args : Args) :
    Action.Within (Steps cli) (cli.logged.handleWatch args) := by
  unfold handleWatch
  split
  · exact cli.throw_steps _
  · exact cli.throw_steps _
  next first rest _ =>
    extract_lets target every
    have hevery : ∀ count, Action.Within (Steps cli) (every count) := by
      intro count
      -- what follows both numbers is the same whether they were given or not
      have hwatch : ∀ intervalMs, Action.Within (Steps cli) (do
          let s ← Action.get
          if target ≠ "ALL".toList ∧ isConfigured s.2 target = false then
            throw (notConfigured target)
          else do
            emit (.watching target count intervalMs)
            cli.logged.watchLoop target count intervalMs count
            printSummary) := by
        intro intervalMs
        refine cli.get_steps (fun s => ?_)
        split
        · exact cli.throw_steps _
        refine (cli.emit_steps _).bind (fun _ => ?_)
        exact (cli.watchLoop_steps target count intervalMs count).bind
          (fun _ => cli.printSummary_steps)
      dsimp only [every]
      split
      · exact (cli.argument_steps _).bind hwatch
      · exact hwatch 1000
    split
    · exact (cli.argument_steps _).bind hevery
    · exact hevery 10

theorem handlePoll_steps (args : Args) :
    Action.Within (Steps cli) (cli.logged.handlePoll args) := by
  unfold handlePoll
  split
  · exact cli.throw_steps _
  · extract_lets every
    have hevery : ∀ count, Action.Within (Steps cli) (every count) := by
      intro count
      have hpoll : ∀ seconds, Action.Within (Steps cli) (do
          cli.logged.pollLoop count seconds count
          printSummary) :=
        fun seconds => (cli.pollLoop_steps count seconds count).bind
          (fun _ => cli.printSummary_steps)
      dsimp only [every]
      split
      · exact (cli.argument_steps _).bind hpoll
      · exact hpoll _
    split
    · exact (cli.argument_steps _).bind hevery
    · exact hevery 1

theorem handleRedis_steps (args : Args) :
    Action.Within (Steps cli) (cli.logged.handleRedis args) := by
  unfold handleRedis
  split
  · split
    · exact cli.throw_steps _
    · exact cli.isConnected_steps.bind (fun connected => cli.emit_steps _)
  · exact cli.throw_steps _

/-- The words after `stats` that clear the statistics. -/
def clears : Args → Bool
  | [arg] => normalizeSymbol arg = "RESET".toList
  | _ => false

theorem handleStats_steps {args : Args} (h : clears args = false) :
    Action.Within (Steps cli) (handleStats args : Action (Logged σ) Exn Unit) := by
  unfold handleStats
  split
  · exact cli.printSummary_steps
  next arg =>
    have hreset : normalizeSymbol arg ≠ "RESET".toList := by
      unfold clears at h
      simpa using h
    simp only
    split
    · exact cli.get_steps (fun s => cli.emit_steps _)
    · exact cli.throw_steps _
  · exact cli.throw_steps _

/-- **`stats reset` clears the statistics and nothing else.** -/
theorem handleStats_cleared {args : Args} (h : clears args = true) (s : Logged σ) :
    ∃ t, handleStats args s = (.ok (), t) ∧ Cleared s t := by
  unfold clears at h
  split at h
  next arg =>
    have hreset : normalizeSymbol arg = "RESET".toList := by simpa using h
    have hlast : normalizeSymbol arg ≠ "LAST".toList := by
      rw [hreset]
      decide
    unfold handleStats
    simp only [if_neg hlast, if_pos hreset]
    exact ⟨_, rfl, rfl, rfl, rfl, rfl⟩
  · cases h

/-! ## §4. Lines. -/

/-- `stats reset`, in any case and with any white space. -/
def isReset (line : Str) : Bool :=
  match tokenize line with
  | [] => false
  | first :: args => commandName first = "stats".toList && clears args

/-- A line that ends the loop. -/
def endsLoop (line : Str) : Bool :=
  match tokenize line with
  | [] => false
  | first :: _ => isExit (commandName first)

theorem runCommand_steps {command : Str} {args : Args}
    (h : (command = "stats".toList && clears args) = false) :
    Action.Within (Steps cli) (cli.logged.runCommand command args) := by
  unfold runCommand
  refine Action.Within.ite (fun _ => cli.emit_steps _) (fun _ => ?_)
  refine Action.Within.ite (fun _ => cli.handleSymbols_steps args) (fun _ => ?_)
  refine Action.Within.ite (fun _ => cli.handleFetch_steps args) (fun _ => ?_)
  refine Action.Within.ite (fun _ => cli.handleBook_steps args) (fun _ => ?_)
  refine Action.Within.ite (fun _ => cli.handleLookup_steps args) (fun _ => ?_)
  refine Action.Within.ite (fun _ => cli.handleWatch_steps args) (fun _ => ?_)
  refine Action.Within.ite (fun _ => cli.handlePoll_steps args) (fun _ => ?_)
  refine Action.Within.ite (fun _ => cli.handleRedis_steps args) (fun _ => ?_)
  refine Action.Within.ite (fun hstats => ?_) (fun _ => ?_)
  · -- of the statistics only the words that clear them are left out
    rw [decide_eq_true hstats, Bool.true_and] at h
    exact cli.handleStats_steps h
  · exact Action.Within.ite (fun _ => cli.emit_steps _) (fun _ => cli.emit_steps _)

/-- A line that does not reset the statistics makes fetches, if anything. -/
theorem runLine_steps {line : Str} (h : isReset line = false) :
    Action.Within (Steps cli) (cli.logged.runLine line) := by
  unfold runLine
  refine Action.Within.tryCatch ?_ (fun e => ?_)
  · unfold isReset at h
    unfold handleLine
    cases htokens : tokenize line with
    | nil => exact Action.Within.pure true
    | cons first args =>
        rw [htokens] at h
        exact (cli.runCommand_steps h).bind (fun _ => Action.Within.pure _)
  · exact (cli.emit_steps _).bind (fun _ => Action.Within.pure true)

theorem runLine_reset {line : Str} (h : isReset line = true) (s : Logged σ) :
    Cleared s (cli.logged.runLine line s).2 := by
  unfold isReset at h
  cases htokens : tokenize line with
  | nil =>
      rw [htokens] at h
      cases h
  | cons first args =>
      rw [htokens] at h
      simp only [Bool.and_eq_true, decide_eq_true_eq] at h
      obtain ⟨hcommand, hclears⟩ := h
      obtain ⟨t, hrun, hcleared⟩ := handleStats_cleared hclears s
      have hstats : cli.logged.runCommand (commandName first) args s = (.ok (), t) := by
        rw [hcommand]
        exact hrun
      have hline : cli.logged.handleLine line s = (.ok (!isExit (commandName first)), t) := by
        unfold handleLine
        simp only [htokens]
        rw [Action.bind_ok hstats]
        rfl
      unfold runLine
      rw [Action.tryCatch_ok hline]
      exact hcleared

/-- `exit` and `quit` end the loop; nothing else does, exceptions included. -/
theorem runLine_result (cli : FinCoreCli σ) (line : Str) (s : σ × CliState) :
    (cli.runLine line s).1 = .ok (!endsLoop line) := by
  unfold runLine endsLoop
  cases htokens : tokenize line with
  | nil =>
      have hline : cli.handleLine line s = (.ok true, s) := by
        unfold handleLine
        simp only [htokens]
        rfl
      rw [Action.tryCatch_ok hline]
      rfl
  | cons first args =>
      have hsplit : cli.handleLine line = (do
          cli.runCommand (commandName first) args
          return !isExit (commandName first)) := by
        unfold handleLine
        simp only [htokens]
      rcases hrun : cli.runCommand (commandName first) args s with ⟨r, t⟩
      cases r with
      | ok _ =>
          have hline : cli.handleLine line s = (.ok (!isExit (commandName first)), t) := by
            rw [hsplit, Action.bind_ok hrun]
            rfl
          rw [Action.tryCatch_ok hline]
      | error e =>
          have hline : cli.handleLine line s = (.error e, t) := by
            rw [hsplit, Action.bind_error hrun]
          -- the two words that end the loop cannot throw
          have hstays : isExit (commandName first) = false := by
            by_contra hexit
            unfold isExit at hexit
            rw [Bool.not_eq_false, decide_eq_true_eq] at hexit
            rcases hexit with hword | hword <;> rw [hword] at hrun <;> cases hrun
          rw [Action.tryCatch_error hline]
          simp only [hstays]
          rfl

/-! ## §5. Sessions. -/

/-- The lines that are read before the loop ends. -/
def processed : List Str → List Str
  | [] => []
  | line :: rest => if endsLoop line then [line] else line :: processed rest

/-- The state after some lines, one after the other. -/
def handled (cli : FinCoreCli σ) (lines : List Str) (s : σ × CliState) : σ × CliState :=
  lines.foldl (fun s line => (cli.runLine line s).2) s

theorem handled_append (cli : FinCoreCli σ) (lines lines' : List Str) (s : σ × CliState) :
    cli.handled (lines ++ lines') s = cli.handled lines' (cli.handled lines s) :=
  List.foldl_append

/-- **A session never fails**; it handles its lines up to the first that ends
the loop. -/
theorem run_handled (cli : FinCoreCli σ) (lines : List Str) :
    ∀ s : σ × CliState, cli.run lines s = (.ok (), cli.handled (processed lines) s) := by
  induction lines with
  | nil => exact fun s => rfl
  | cons line rest ih =>
      intro s
      have hline : cli.runLine line s = (.ok (!endsLoop line), (cli.runLine line s).2) :=
        Prod.ext (cli.runLine_result line s) rfl
      unfold run processed
      rw [Action.bind_ok hline]
      cases endsLoop line with
      | true => rfl
      | false =>
          show cli.run rest _ = _
          rw [ih]
          rfl

/-- Lines that do not reset the statistics make fetches only. -/
theorem handled_steps {lines : List Str} (h : ∀ line ∈ lines, isReset line = false) :
    ∀ s, Steps cli s (cli.logged.handled lines s) := by
  induction lines with
  | nil => exact fun s => refl_of (Steps cli) s
  | cons line rest ih =>
      intro s
      have hfirst := cli.runLine_steps (h line List.mem_cons_self) s
      have hrest := ih (fun line' hmem => h line' (List.mem_cons_of_mem _ hmem))
        (cli.logged.runLine line s).2
      exact trans_of (Steps cli) hfirst hrest

/-- **Every line of a session leaves a trace.** -/
theorem handled_trace (lines : List Str) :
    ∀ s, ∃ events, Trace cli s events (cli.logged.handled lines s) := by
  induction lines with
  | nil => exact fun s => ⟨[], .idle (Idle.refl s)⟩
  | cons line rest ih =>
      intro s
      obtain ⟨events', hrest⟩ := ih (cli.logged.runLine line s).2
      cases hreset : isReset line with
      | true => exact ⟨_, (Trace.reset (cli.runLine_reset hreset s)).append hrest⟩
      | false =>
          obtain ⟨fetches, hline⟩ := cli.runLine_steps hreset s
          exact ⟨_, hline.append hrest⟩

theorem run_trace (lines : List Str) (s : Logged σ) :
    ∃ events, Trace cli s events (cli.logged.run lines s).2 := by
  rw [run_handled]
  exact cli.handled_trace _ s

end FinCoreCli

end FinCore.Cli

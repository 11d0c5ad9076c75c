/-
  FinCore.Cli.OperationStages
  ───────────────────────────
  How far the metrics of a fetch get.

  The optional durations are filled in one after the other, and a service that
  throws leaves the rest empty.  A stage says which are there; each part of a
  fetch leads from one stage to the next, and every stage at which a fetch can
  end is settled (`fetchTry_settled`).
-/
import FinCore.Cli.FetchRun

namespace FinCore.Cli

open FinCore.Cxx

/-! ## §1. Stages. -/

/-- Which measurements have been taken, and whether Redis had the quote. -/
structure Stage where
  read : Bool := false
  hit : Bool := false
  api : Bool := false
  quote : Bool := false
  build : Bool := false
  book : Bool := false
  deriving DecidableEq

def OperationMetrics.stage (m : OperationMetrics) : Stage where
  read := m.redisReadUs.isSome
  hit := m.redisCacheHit
  api := m.apiUs.isSome
  quote := m.redisQuoteUs.isSome
  build := m.bookBuildUs.isSome
  book := m.redisBookUs.isSome

/-- What holds among the measurements of a fetch that has ended. -/
structure Stage.Settled (stage : Stage) : Prop where
  hit_read : stage.hit = true → stage.read = true
  api_read : stage.api = true → stage.read = true ∧ stage.hit = false
  quote_api : stage.quote = true → stage.api = true
  build_eq : stage.build = (stage.hit || stage.quote)
  book_build : stage.book = true → stage.build = true

instance (stage : Stage) : Decidable stage.Settled :=
  decidable_of_iff ((stage.hit = true → stage.read = true)
      ∧ (stage.api = true → stage.read = true ∧ stage.hit = false)
      ∧ (stage.quote = true → stage.api = true)
      ∧ stage.build = (stage.hit || stage.quote)
      ∧ (stage.book = true → stage.build = true))
    ⟨fun ⟨h₁, h₂, h₃, h₄, h₅⟩ => ⟨h₁, h₂, h₃, h₄, h₅⟩,
      fun ⟨h₁, h₂, h₃, h₄, h₅⟩ => ⟨h₁, h₂, h₃, h₄, h₅⟩⟩

namespace Stage

def missed : Stage := { read := true }

def asked : Stage := { read := true, api := true }

def cached : Stage := { read := true, hit := true }

/-- Once there is a quote and it is in Redis: read from there, or stored. -/
def held (hit : Bool) : Stage :=
  if hit then cached else { read := true, api := true, quote := true }

def built (hit : Bool) : Stage := { held hit with build := true }

def published (hit : Bool) : Stage := { held hit with build := true, book := true }

end Stage

/-- The metrics of a fetch that has ended; success means a written book. -/
structure OperationMetrics.Settled (m : OperationMetrics) : Prop where
  stage : m.stage.Settled
  success : m.success = true → m.redisBookUs.isSome = true ∧ m.redisBookStored = true

namespace FinCoreCli

variable {σ α : Type}

/-! ## §2. From stage to stage. -/

/-- The symbol has a book, the metrics have come to `stage` and do not claim
success. -/
structure At (symbol : Symbol) (stage : Stage) (s : FetchState σ) : Prop where
  book : (s.1.2.books symbol).isSome = true
  stage_eq : s.2.stage = stage
  success : s.2.success = false

def Ends (s : FetchState σ) : Prop := s.2.Settled

section Rules

variable {symbol : Symbol} {stage stage' : Stage} {s : FetchState σ}

theorem At.ends (h : At symbol stage s) (hstage : stage.Settled) : Ends s where
  stage := h.stage_eq ▸ hstage
  success := by
    intro hsuccess
    rw [h.success] at hsuccess
    cases hsuccess

theorem At.quiet {x : Action (FetchState σ) Exn α} (h : Quiet x) (E : FetchState σ → Prop) :
    Action.Meets (At symbol stage) x (fun _ => At symbol stage) E := by
  intro s hs
  obtain ⟨a, s', hrun, _, hmetrics, hmembers⟩ := h s
  rw [hrun]
  refine ⟨?_, ?_, ?_⟩
  · rw [hmembers.books]
    exact hs.book
  · rw [hmetrics]
    exact hs.stage_eq
  · rw [hmetrics]
    exact hs.success

/-- A service may throw; then the fetch ends where it is. -/
theorem At.call (x : Action σ Exn α) (hstage : stage.Settled) :
    Action.Meets (At symbol stage) (FinCoreCli.call x) (fun _ => At symbol stage) Ends := by
  intro s hs
  rcases hrun : x s.1.1 with ⟨r, w'⟩
  have hcall : FinCoreCli.call x s = (r, ((w', s.1.2), s.2)) := by
    unfold FinCoreCli.call Action.zoom
    rw [hrun]
  have hafter : At symbol stage ((w', s.1.2), s.2) := ⟨hs.book, hs.stage_eq, hs.success⟩
  rw [hcall]
  cases r with
  | ok a => exact hafter
  | error e => exact hafter.ends hstage

theorem At.set {f : OperationMetrics → OperationMetrics} (g : Stage → Stage)
    (E : FetchState σ → Prop) (h : ∀ m, (f m).stage = g m.stage)
    (hsuccess : ∀ m, (f m).success = m.success) :
    Action.Meets (At (σ := σ) symbol stage) (setMetrics f) (fun _ => At symbol (g stage)) E :=
  Action.Meets.modify (fun s hs =>
    ⟨hs.book, by rw [h, hs.stage_eq], by rw [hsuccess]; exact hs.success⟩)

theorem Ends.quiet {x : Action (FetchState σ) Exn α} (h : Quiet x) (E : FetchState σ → Prop) :
    Action.Meets Ends x (fun _ => Ends) E := by
  intro s hs
  obtain ⟨a, s', hrun, _, hmetrics, _⟩ := h s
  rw [hrun]
  show s'.2.Settled
  rw [hmetrics]
  exact hs

end Rules

variable (cli : FinCoreCli σ)

/-! ## §3. The parts of a fetch. -/

theorem readQuote_meets (symbol : Symbol) :
    Action.Meets (At symbol {}) (cli.readQuote symbol)
      (fun found s => At symbol .asked s ∨ found.isSome = true ∧ At symbol .cached s) Ends := by
  unfold readQuote
  refine Action.Meets.bind (At.quiet cli.quiet_startClock _) (fun _ => ?_)
  refine Action.Meets.bind (At.call _ (by decide)) (fun cached => ?_)
  refine Action.Meets.bind (At.quiet (cli.quiet_elapsedUs _) _) (fun _ => ?_)
  refine Action.Meets.bind
    (At.set (fun g => { g with read := true, hit := cached.isSome }) _ (fun _ => rfl) (fun _ => rfl))
    (fun _ => ?_)
  cases cached with
  | some quote => exact Action.Meets.pure _ (fun s hs => Or.inr ⟨rfl, hs⟩)
  | none =>
      refine Action.Meets.bind (At.quiet cli.quiet_startClock _) (fun _ => ?_)
      refine Action.Meets.bind (At.call _ (by decide)) (fun found => ?_)
      refine Action.Meets.bind (At.quiet (cli.quiet_elapsedUs _) _) (fun _ => ?_)
      refine Action.Meets.bind
        (At.set (fun g => { g with api := true }) _ (fun _ => rfl) (fun _ => rfl)) (fun _ => ?_)
      refine Action.Meets.bind (At.call _ (by decide)) (fun flag => ?_)
      refine Action.Meets.bind (At.set id _ (fun _ => rfl) (fun _ => rfl)) (fun _ => ?_)
      exact Action.Meets.pure _ (fun s hs => Or.inl hs)

/-- Storing begins where reading has ended, and leads to the one stage with the
quote in Redis or the other. -/
theorem storeQuote_meets (symbol : Symbol) (quote : Quote) :
    Action.Meets (fun s => At symbol .asked s ∨ At symbol .cached s) (cli.storeQuote symbol quote)
      (fun _ s => ∃ hit, At symbol (.held hit) s) Ends := by
  unfold storeQuote
  refine Action.Meets.get (fun s hs => ?_)
  have hstage : s.2.redisCacheHit = s.2.stage.hit := rfl
  rcases hs with hs | hs
  · rw [hstage, hs.stage_eq, if_neg (by decide)]
    have hfrom : ∀ t, t = s → At symbol .asked t := by
      rintro t rfl
      exact hs
    refine Action.Meets.mono (Q := fun _ => At symbol (.held false)) (E := Ends)
      (P := At symbol .asked) ?_ hfrom (fun _ t ht => ⟨false, ht⟩) (fun _ => id)
    refine Action.Meets.bind (At.quiet cli.quiet_startClock _) (fun _ => ?_)
    refine Action.Meets.bind (At.call _ (by decide)) (fun stored => ?_)
    refine Action.Meets.bind (At.set id _ (fun _ => rfl) (fun _ => rfl)) (fun _ => ?_)
    refine Action.Meets.bind (At.quiet (cli.quiet_elapsedUs _) _) (fun _ => ?_)
    exact At.set (fun g => { g with quote := true }) _ (fun _ => rfl) (fun _ => rfl)
  · rw [hstage, hs.stage_eq, if_pos (by decide)]
    rintro t rfl
    exact ⟨true, hs.book, hs.stage_eq, hs.success⟩

theorem rebuildBook_meets (symbol : Symbol) (quote : Quote) (hit : Bool) :
    Action.Meets (At symbol (.held hit)) (cli.rebuildBook symbol quote)
      (fun _ => At symbol (.built hit)) Ends := by
  intro s hs
  obtain ⟨before, hbefore⟩ := Option.isSome_iff_exists.mp hs.book
  have hpopulate := populateBookFromQuote_ok quote before
  unfold rebuildBook
  rw [Action.bind_ok (Action.get_run s)]
  simp only [hbefore]
  rcases hrun : populateBookFromQuote quote before with ⟨result, book⟩
  rw [hrun] at hpopulate
  simp only at hpopulate
  subst hpopulate
  refine ⟨?_, ?_, hs.success⟩
  · show (Function.update s.1.2.books symbol (some book) symbol).isSome = true
    rw [Function.update_self]
    rfl
  · show ({ s.2.stage with build := true } : Stage) = _
    rw [hs.stage_eq]
    rfl

theorem publishBook_meets (symbol : Symbol) (book : OrderBook) (hit : Bool) :
    Action.Meets (At symbol (.built hit)) (cli.publishBook symbol book)
      (fun _ => At symbol (.published hit)) Ends := by
  have hsettled : (Stage.built hit).Settled := by cases hit <;> decide
  unfold publishBook
  refine Action.Meets.bind (At.quiet cli.quiet_startClock _) (fun _ => ?_)
  refine Action.Meets.bind (At.call _ hsettled) (fun stored => ?_)
  refine Action.Meets.bind (At.set id _ (fun _ => rfl) (fun _ => rfl)) (fun _ => ?_)
  refine Action.Meets.bind (At.quiet (cli.quiet_elapsedUs _) _) (fun _ => ?_)
  exact At.set (fun g => { g with book := true }) _ (fun _ => rfl) (fun _ => rfl)

theorem persist_meets (symbol : Symbol) (quote : Quote) (snapshot : OrderBookSnapshot)
    {stage : Stage} (hstage : stage.Settled) :
    Action.Meets (At symbol stage) (cli.persist quote snapshot) (fun _ => At symbol stage)
      Ends := by
  unfold persist
  split
  · refine Action.Meets.bind (At.call _ hstage) (fun _ => ?_)
    refine Action.Meets.bind (At.call _ hstage) (fun _ => ?_)
    exact Action.Meets.pure _ (fun _ => id)
  · exact Action.Meets.pure _ (fun _ => id)

/-- Recording only completes the duration and the usage. -/
theorem recordMetrics_meets (processBefore : ProcessSnapshot) (totalStarted : ℤ)
    (E : FetchState σ → Prop) :
    Action.Meets Ends (cli.recordMetrics processBefore totalStarted) (fun _ => Ends) E := by
  intro s hs
  show Ends _
  exact ⟨⟨hs.stage.hit_read, hs.stage.api_read, hs.stage.quote_api, hs.stage.build_eq,
    hs.stage.book_build⟩, hs.success⟩

/-- Success is only claimed once the book has been written. -/
theorem finishFetch_meets (symbol : Symbol) (printData printMetrics : Bool)
    (processBefore : ProcessSnapshot) (totalStarted : ℤ) (quote : Quote)
    (snapshot : OrderBookSnapshot) (postgres : Option (Bool × Bool)) (hit : Bool) :
    Action.Meets (At symbol (.published hit))
      (cli.finishFetch printData printMetrics processBefore totalStarted quote snapshot postgres)
      (fun _ => Ends) Ends := by
  have hsettled : (Stage.published hit).Settled := by cases hit <;> decide
  unfold finishFetch
  rcases postgres.getD (true, true) with ⟨quoteStored, snapshotStored⟩
  have hset : Action.Meets (At (σ := σ) symbol (.published hit))
      (setMetrics (fun m => { m with
        success := m.redisQuoteStored && m.redisBookStored && quoteStored && snapshotStored }))
      (fun _ => Ends) Ends := by
    refine Action.Meets.modify (fun s hs => ⟨?_, ?_⟩)
    · show s.2.stage.Settled
      rw [hs.stage_eq]
      exact hsettled
    · -- success includes that the book has been stored
      intro hsuccess
      change (s.2.redisQuoteStored && s.2.redisBookStored && quoteStored && snapshotStored) = true
        at hsuccess
      rw [Bool.and_eq_true, Bool.and_eq_true, Bool.and_eq_true] at hsuccess
      refine ⟨?_, hsuccess.1.1.2⟩
      show s.2.stage.book = true
      rw [hs.stage_eq]
      rfl
  refine Action.Meets.bind hset (fun _ => ?_)
  refine Action.Meets.bind (cli.recordMetrics_meets _ _ _) (fun _ => ?_)
  refine Action.Meets.get (fun s hs => ?_)
  refine Action.Meets.mono (P := Ends) (Q := fun _ => Ends) (E := Ends) ?_
    (by rintro t rfl; exact hs) (fun _ _ => id) (fun _ => id)
  refine Action.Meets.bind (Ends.quiet (quiet_emit _) _) (fun _ => ?_)
  refine Action.Meets.bind (Ends.quiet (quiet_emitIf _ _) _) (fun _ => ?_)
  refine Action.Meets.bind (Ends.quiet (quiet_emitIf _ _) _) (fun _ => ?_)
  refine Action.Meets.bind (Ends.quiet (quiet_emitIf _ _) _) (fun _ => ?_)
  exact Action.Meets.pure _ (fun _ => id)

theorem useQuote_meets (symbol : Symbol) (printData printMetrics : Bool)
    (processBefore : ProcessSnapshot) (totalStarted : ℤ) (quote : Quote) :
    Action.Meets (fun s => At symbol .asked s ∨ At symbol .cached s)
      (cli.useQuote symbol printData printMetrics processBefore totalStarted quote)
      (fun _ => Ends) Ends := by
  unfold useQuote
  refine Action.Meets.bind (cli.storeQuote_meets symbol quote) (fun _ => ?_)
  -- from here on one argument serves both ways the quote came to Redis
  rintro s ⟨hit, hs⟩
  have hsettled : (Stage.published hit).Settled := by cases hit <;> decide
  refine Action.Meets.bind (cli.rebuildBook_meets symbol quote hit) (fun book => ?_) s hs
  refine Action.Meets.bind (cli.publishBook_meets symbol book hit) (fun _ => ?_)
  refine Action.Meets.bind (At.quiet (quiet_readHost _) _) (fun now => ?_)
  refine Action.Meets.bind (cli.persist_meets symbol quote _ hsettled) (fun postgres => ?_)
  exact cli.finishFetch_meets symbol _ _ _ _ _ _ _ hit

theorem fetchBody_meets (symbol : Symbol) (printData printMetrics : Bool)
    (processBefore : ProcessSnapshot) (totalStarted : ℤ) :
    Action.Meets (At symbol {})
      (cli.fetchBody symbol printData printMetrics processBefore totalStarted)
      (fun _ => Ends) Ends := by
  unfold fetchBody
  refine Action.Meets.bind (cli.readQuote_meets symbol) (fun found => ?_)
  cases found with
  | none =>
      -- no quote: what the reading has settled is recorded
      refine Action.Meets.mono (P := Ends) (Q := fun _ => Ends) (E := Ends) ?_ ?_
        (fun _ _ => id) (fun _ => id)
      · refine Action.Meets.bind (cli.recordMetrics_meets _ _ _) (fun _ => ?_)
        refine Action.Meets.get (fun s hs => ?_)
        refine Action.Meets.mono (P := Ends) (Q := fun _ => Ends) (E := Ends) ?_
          (by rintro t rfl; exact hs) (fun _ _ => id) (fun _ => id)
        refine Action.Meets.bind (Ends.quiet (quiet_emit _) _) (fun _ => ?_)
        refine Action.Meets.bind (Ends.quiet (quiet_emitIf _ _) _) (fun _ => ?_)
        exact Action.Meets.pure _ (fun _ => id)
      · rintro s (hs | ⟨h, _⟩)
        · exact hs.ends (by decide)
        · cases h
  | some quote =>
      refine Action.Meets.mono
        (cli.useQuote_meets symbol printData printMetrics processBefore totalStarted quote)
        ?_ (fun _ _ => id) (fun _ => id)
      rintro s (hs | ⟨_, hs⟩)
      · exact Or.inl hs
      · exact Or.inr hs

/-- **The metrics of every fetch of a configured symbol are settled**, wherever
it ends. -/
theorem fetchMetrics_settled (rawSymbol : Str) (printData printMetrics : Bool) (s : σ × CliState)
    (hbook : (s.2.books (normalizeSymbol rawSymbol)).isSome = true) :
    (cli.fetchMetrics rawSymbol printData printMetrics s).Settled := by
  have hstart : At (normalizeSymbol rawSymbol) {} (fetchStart (normalizeSymbol rawSymbol) s) :=
    ⟨hbook, rfl, rfl⟩
  have hbody := cli.fetchBody_meets (normalizeSymbol rawSymbol) printData printMetrics
    (cli.host.processSnapshot s.2.readings) (cli.host.steadyNow (s.2.readings + 1)) _ hstart
  unfold fetchMetrics fetchTry fetchBlock
  rcases hrun : cli.fetchBody (normalizeSymbol rawSymbol) printData printMetrics
    (cli.host.processSnapshot s.2.readings) (cli.host.steadyNow (s.2.readings + 1))
    (fetchStart (normalizeSymbol rawSymbol) s) with ⟨r, s₁⟩
  rw [hrun] at hbody
  cases r with
  | ok b =>
      rw [Action.tryCatch_ok hrun]
      exact hbody
  | error e =>
      rw [Action.tryCatch_error hrun]
      exact cli.recordMetrics_meets _ _ Ends s₁ hbody

end FinCoreCli

end FinCore.Cli

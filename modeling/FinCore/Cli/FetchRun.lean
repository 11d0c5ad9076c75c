/-
  FinCore.Cli.FetchRun
  ────────────────────
  What one `fetch_symbol` does: which services it calls, in which order, and
  what it leaves in the CLI.

  A `FetchPath` is a sequence of service calls with their outcomes and the
  result that goes with it; it does not mention the CLI.  `fetchSymbol_run`
  takes every fetch apart into such a path, whose calls it really made, and the
  change of the CLI's members.  Nothing below unfolds `fetch_symbol` again.
-/
import FinCore.Cli.RebuiltBook

namespace FinCore.Cli

open FinCore.Cxx

/-! ## §1. Service calls. -/

/-- A call of a service with its outcome. -/
inductive ServiceCall where
  | getCachedQuote (symbol : Symbol) (result : Except Exn (Option Quote))
  | getQuote (symbol : Symbol) (result : Except Exn (Option Quote))
  | lastWasCached (result : Except Exn Bool)
  | redisIsConnected (result : Except Exn Bool)
  | storeQuote (symbol : Symbol) (quote : Quote) (result : Except Exn Bool)
  | updateOrderBook (symbol : Symbol) (bids asks : Levels Double.lt) (result : Except Exn Bool)
  | persistQuote (quote : Quote) (result : Except Exn Bool)
  | persistSnapshot (snapshot : OrderBookSnapshot) (source : Str) (result : Except Exn Bool)

section Calls

variable {σ : Type} (services : CliServices σ)

/-- The call takes the world from `w` to `w'`. -/
def ServiceCall.Performed : ServiceCall → σ → σ → Prop
  | getCachedQuote symbol result, w, w' => services.getCachedQuote symbol w = (result, w')
  | getQuote symbol result, w, w' => services.getQuote symbol w = (result, w')
  | lastWasCached result, w, w' => services.lastWasCached w = (result, w')
  | redisIsConnected result, w, w' => services.redisIsConnected w = (result, w')
  | storeQuote symbol quote result, w, w' => services.storeQuote symbol quote w = (result, w')
  | updateOrderBook symbol bids asks result, w, w' =>
      services.updateOrderBook symbol bids asks w = (result, w')
  | persistQuote quote result, w, w' =>
      ∃ f, services.persistQuote = some f ∧ f quote w = (result, w')
  | persistSnapshot snapshot source result, w, w' =>
      ∃ f, services.persistSnapshot = some f ∧ f snapshot source w = (result, w')

/-- The calls are made one after the other. -/
inductive Calls : σ → List ServiceCall → σ → Prop where
  | nil (w : σ) : Calls w [] w
  | cons {c : ServiceCall} {rest : List ServiceCall} {w w₁ w₂ : σ} :
      c.Performed services w w₁ → Calls w₁ rest w₂ → Calls w (c :: rest) w₂

variable {services}

theorem Calls.single {c : ServiceCall} {w w' : σ} (h : c.Performed services w w') :
    Calls services w [c] w' :=
  .cons h (.nil w')

theorem Calls.append {calls calls' : List ServiceCall} {w w₁ w₂ : σ}
    (h : Calls services w calls w₁) (h' : Calls services w₁ calls' w₂) :
    Calls services w (calls ++ calls') w₂ := by
  induction h with
  | nil _ => exact h'
  | cons hc _ ih => exact .cons hc (ih h')

end Calls

/-! ## §2. Paths. -/

section Paths

variable (durable : Bool) (symbol : Symbol) (rebuilt : Quote → OrderBook) (now : TimePoint)

/-- The levels of the rebuilt book are sent to Redis. -/
def publishing (quote : Quote) (result : Except Exn Bool) : ServiceCall :=
  .updateOrderBook symbol (FinCoreCli.toAscending (rebuilt quote).bids)
    (FinCoreCli.toAscending (rebuilt quote).asks) result

/-- The rest of a fetch once the book has been rebuilt from `quote`. -/
inductive BookPath (quote : Quote) (quoteStored : Bool) :
    List ServiceCall → Except Exn Bool → Prop where
  | updateThrew (e : Exn) :
      BookPath quote quoteStored [publishing symbol rebuilt quote (.error e)] (.error e)
  | redisOnly (updated : Bool) : durable = false →
      BookPath quote quoteStored [publishing symbol rebuilt quote (.ok updated)]
        (.ok (quoteStored && updated))
  | quoteThrew (updated : Bool) (e : Exn) : durable = true →
      BookPath quote quoteStored
        [publishing symbol rebuilt quote (.ok updated), .persistQuote quote (.error e)] (.error e)
  | snapshotThrew (updated persisted : Bool) (e : Exn) : durable = true →
      BookPath quote quoteStored
        [publishing symbol rebuilt quote (.ok updated), .persistQuote quote (.ok persisted),
          .persistSnapshot ((rebuilt quote).snapshot now 0) quote.source (.error e)] (.error e)
  | persisted (updated persisted persisted' : Bool) : durable = true →
      BookPath quote quoteStored
        [publishing symbol rebuilt quote (.ok updated), .persistQuote quote (.ok persisted),
          .persistSnapshot ((rebuilt quote).snapshot now 0) quote.source (.ok persisted')]
        (.ok (quoteStored && updated && persisted && persisted'))

/-- A whole fetch, with the quote its book was rebuilt from, if it was. -/
inductive FetchPath : Option Quote → List ServiceCall → Except Exn Bool → Prop where
  | cachedThrew (e : Exn) : FetchPath none [.getCachedQuote symbol (.error e)] (.error e)
  | fetchThrew (e : Exn) :
      FetchPath none [.getCachedQuote symbol (.ok none), .getQuote symbol (.error e)] (.error e)
  | flagThrew (found : Option Quote) (e : Exn) :
      FetchPath none [.getCachedQuote symbol (.ok none), .getQuote symbol (.ok found),
        .lastWasCached (.error e)] (.error e)
  | missed (cached : Bool) :
      FetchPath none [.getCachedQuote symbol (.ok none), .getQuote symbol (.ok none),
        .lastWasCached (.ok cached)] (.ok false)
  | storeThrew (quote : Quote) (cached : Bool) (e : Exn) :
      FetchPath none [.getCachedQuote symbol (.ok none), .getQuote symbol (.ok (some quote)),
        .lastWasCached (.ok cached), .storeQuote symbol quote (.error e)] (.error e)
  | hit (quote : Quote) {calls : List ServiceCall} {result : Except Exn Bool} :
      BookPath durable symbol rebuilt now quote true calls result →
      FetchPath (some quote) (.getCachedQuote symbol (.ok (some quote)) :: calls) result
  | fetched (quote : Quote) (cached stored : Bool) {calls : List ServiceCall}
      {result : Except Exn Bool} :
      BookPath durable symbol rebuilt now quote stored calls result →
      FetchPath (some quote)
        (.getCachedQuote symbol (.ok none) :: .getQuote symbol (.ok (some quote))
          :: .lastWasCached (.ok cached) :: .storeQuote symbol quote (.ok stored) :: calls) result

end Paths

/-! ## §3. The service calls of an action. -/

/-- Both optional callbacks are set. -/
def CliServices.durable {σ : Type} (services : CliServices σ) : Bool :=
  services.persistQuote.isSome && services.persistSnapshot.isSome

namespace FinCoreCli

variable {σ α β : Type} {services : CliServices σ} {s : FetchState σ}

/-- From `s`, the action makes service calls that `Q` relates to its result and
to the state it leaves. -/
def Leads (services : CliServices σ) (x : Action (FetchState σ) Exn α) (s : FetchState σ)
    (Q : List ServiceCall → Except Exn α → FetchState σ → Prop) : Prop :=
  ∃ calls, Calls services s.1.1 calls (x s).2.1.1 ∧ Q calls (x s).1 (x s).2

theorem Leads.pure {a : α} {Q : List ServiceCall → Except Exn α → FetchState σ → Prop}
    (h : Q [] (.ok a) s) : Leads services (Pure.pure a) s Q :=
  ⟨[], .nil _, h⟩

theorem Leads.bind {x : Action (FetchState σ) Exn α} {f : α → Action (FetchState σ) Exn β}
    {Q : List ServiceCall → Except Exn α → FetchState σ → Prop}
    {Q' : List ServiceCall → Except Exn β → FetchState σ → Prop}
    (hx : Leads services x s Q)
    (hok : ∀ calls a s', Q calls (.ok a) s' →
      Leads services (f a) s' (fun calls' r s'' => Q' (calls ++ calls') r s''))
    (herror : ∀ calls e s', Q calls (.error e) s' → Q' calls (.error e) s') :
    Leads services (x >>= f) s Q' := by
  obtain ⟨calls, hcalls, hq⟩ := hx
  rcases hrun : x s with ⟨r, s'⟩
  rw [hrun] at hcalls hq
  unfold Leads
  cases r with
  | error e =>
      rw [Action.bind_error hrun]
      exact ⟨calls, hcalls, herror calls e s' hq⟩
  | ok a =>
      rw [Action.bind_ok hrun]
      obtain ⟨calls', hcalls', hq'⟩ := hok calls a s' hq
      exact ⟨calls ++ calls', hcalls.append hcalls', hq'⟩

/-- The members that stay, whatever is read, called and printed. -/
structure SameMembers (st st' : CliState) : Prop where
  books : st'.books = st.books
  booksWithData : st'.booksWithData = st.booksWithData
  stats : st'.stats = st.stats

/-- A step that returns and calls nothing: a reading of the host or an
output. -/
def Quiet (x : Action (FetchState σ) Exn α) : Prop :=
  ∀ s, ∃ a s', x s = (.ok a, s') ∧ s'.1.1 = s.1.1 ∧ s'.2 = s.2 ∧ SameMembers s.1.2 s'.1.2

/-- A step that is known to return and calls nothing. -/
theorem Leads.step {x : Action (FetchState σ) Exn α} {f : α → Action (FetchState σ) Exn β}
    {Q : List ServiceCall → Except Exn β → FetchState σ → Prop} {a : α} {s' : FetchState σ}
    (hrun : x s = (.ok a, s')) (hworld : s'.1.1 = s.1.1) (hf : Leads services (f a) s' Q) :
    Leads services (x >>= f) s Q := by
  obtain ⟨calls, hcalls, hq⟩ := hf
  unfold Leads
  rw [Action.bind_ok hrun, ← hworld]
  exact ⟨calls, hcalls, hq⟩

theorem Leads.quiet {x : Action (FetchState σ) Exn α} {f : α → Action (FetchState σ) Exn β}
    {Q : List ServiceCall → Except Exn β → FetchState σ → Prop} (hx : Quiet x)
    (hf : ∀ a s', s'.2 = s.2 → SameMembers s.1.2 s'.1.2 → Leads services (f a) s' Q) :
    Leads services (x >>= f) s Q := by
  obtain ⟨a, s', hrun, hworld, hmetrics, hmembers⟩ := hx s
  exact Leads.step hrun hworld (hf a s' hmetrics hmembers)

theorem Leads.set {g : OperationMetrics → OperationMetrics}
    {f : Unit → Action (FetchState σ) Exn β}
    {Q : List ServiceCall → Except Exn β → FetchState σ → Prop}
    (hf : Leads services (f ()) (s.1, g s.2) Q) : Leads services (setMetrics g >>= f) s Q :=
  hf

theorem Leads.setLast {g : OperationMetrics → OperationMetrics}
    {Q : List ServiceCall → Except Exn Unit → FetchState σ → Prop}
    (h : Q [] (.ok ()) (s.1, g s.2)) : Leads services (setMetrics g) s Q :=
  ⟨[], .nil _, h⟩

theorem Leads.get {f : FetchState σ → Action (FetchState σ) Exn β}
    {Q : List ServiceCall → Except Exn β → FetchState σ → Prop}
    (hf : Leads services (f s) s Q) : Leads services (Action.get >>= f) s Q :=
  hf

/-- A service call, and what comes after it if it returns. -/
theorem Leads.call {x : Action σ Exn α} {c : Except Exn α → ServiceCall}
    {f : α → Action (FetchState σ) Exn β}
    {Q : List ServiceCall → Except Exn β → FetchState σ → Prop}
    (hc : ∀ r w', x s.1.1 = (r, w') → (c r).Performed services s.1.1 w')
    (hok : ∀ a w', x s.1.1 = (.ok a, w') →
      Leads services (f a) ((w', s.1.2), s.2) (fun calls r s' => Q (c (.ok a) :: calls) r s'))
    (herror : ∀ e w', x s.1.1 = (.error e, w') → Q [c (.error e)] (.error e) ((w', s.1.2), s.2)) :
    Leads services (FinCoreCli.call x >>= f) s Q := by
  rcases hrun : x s.1.1 with ⟨r, w'⟩
  have hcall : FinCoreCli.call x s = (r, ((w', s.1.2), s.2)) := by
    unfold FinCoreCli.call Action.zoom
    rw [hrun]
  have hperformed := hc r w' hrun
  unfold Leads
  cases r with
  | error e =>
      rw [Action.bind_error hcall]
      exact ⟨[c (.error e)], Calls.single hperformed, herror e w' hrun⟩
  | ok a =>
      rw [Action.bind_ok hcall]
      obtain ⟨calls, hcalls, hq⟩ := hok a w' hrun
      exact ⟨c (.ok a) :: calls, .cons hperformed hcalls, hq⟩

variable (cli : FinCoreCli σ)

theorem quiet_readHost (read : ℕ → α) : Quiet (onCli (σ := σ) (readHost read)) :=
  fun _ => ⟨_, _, rfl, rfl, rfl, rfl, rfl, rfl⟩

theorem quiet_emit (event : Event) : Quiet (onCli (σ := σ) (emit event)) :=
  fun _ => ⟨_, _, rfl, rfl, rfl, rfl, rfl, rfl⟩

theorem quiet_emitIf (condition : Bool) (event : Event) :
    Quiet (onCli (σ := σ) (emitIf condition event)) := by
  cases condition with
  | true => exact quiet_emit event
  | false => exact fun _ => ⟨_, _, rfl, rfl, rfl, rfl, rfl, rfl⟩

theorem quiet_startClock : Quiet cli.startClock := quiet_readHost _

theorem quiet_elapsedUs (started : ℤ) : Quiet (cli.elapsedUs started) :=
  fun _ => ⟨_, _, rfl, rfl, rfl, rfl, rfl, rfl⟩

/-- The members stay, and so do the symbol and the success flag of the
metrics. -/
structure Untouched (s s' : FetchState σ) : Prop where
  members : SameMembers s.1.2 s'.1.2
  symbol : s'.2.symbol = s.2.symbol
  success : s'.2.success = s.2.success

instance : IsPreorder (FetchState σ) Untouched where
  refl _ := ⟨⟨rfl, rfl, rfl⟩, rfl, rfl⟩
  trans _ _ _ h h' :=
    ⟨⟨h'.members.books.trans h.members.books,
        h'.members.booksWithData.trans h.members.booksWithData,
        h'.members.stats.trans h.members.stats⟩,
      h'.symbol.trans h.symbol, h'.success.trans h.success⟩

theorem Quiet.untouched {x : Action (FetchState σ) Exn α} (h : Quiet x) :
    Action.Within Untouched x := by
  intro s
  obtain ⟨a, s', hrun, _, hmetrics, hmembers⟩ := h s
  rw [hrun]
  exact ⟨hmembers, by rw [hmetrics], by rw [hmetrics]⟩

theorem call_untouched (x : Action σ Exn α) : Action.Within Untouched (call x) :=
  fun _ => ⟨⟨rfl, rfl, rfl⟩, rfl, rfl⟩

theorem setMetrics_untouched {g : OperationMetrics → OperationMetrics}
    (h : ∀ m, (g m).symbol = m.symbol ∧ (g m).success = m.success) :
    Action.Within Untouched (setMetrics (σ := σ) g) :=
  fun s => ⟨⟨rfl, rfl, rfl⟩, (h s.2).1, (h s.2).2⟩

/-- What an action leaves untouched, beside what it does. -/
theorem Leads.frame {x : Action (FetchState σ) Exn α}
    {R : FetchState σ → FetchState σ → Prop}
    {Q : List ServiceCall → Except Exn α → FetchState σ → Prop} (h : Leads services x s Q)
    (hx : Action.Within R x) : Leads services x s (fun calls r s' => Q calls r s' ∧ R s s') := by
  obtain ⟨calls, hcalls, hq⟩ := h
  exact ⟨calls, hcalls, hq, hx s⟩

/-! ## §4. The stages of a fetch. -/

/-- Reading a quote: whether Redis had it, the calls and the result. -/
inductive ReadPath (symbol : Symbol) :
    Bool → List ServiceCall → Except Exn (Option Quote) → Prop where
  | cachedThrew (e : Exn) : ReadPath symbol false [.getCachedQuote symbol (.error e)] (.error e)
  | hit (quote : Quote) :
      ReadPath symbol true [.getCachedQuote symbol (.ok (some quote))] (.ok (some quote))
  | fetchThrew (e : Exn) : ReadPath symbol false
      [.getCachedQuote symbol (.ok none), .getQuote symbol (.error e)] (.error e)
  | flagThrew (found : Option Quote) (e : Exn) : ReadPath symbol false
      [.getCachedQuote symbol (.ok none), .getQuote symbol (.ok found),
        .lastWasCached (.error e)] (.error e)
  | fetched (found : Option Quote) (cached : Bool) : ReadPath symbol false
      [.getCachedQuote symbol (.ok none), .getQuote symbol (.ok found),
        .lastWasCached (.ok cached)] (.ok found)

theorem readQuote_leads (symbol : Symbol) (s : FetchState σ) :
    Leads cli.services (cli.readQuote symbol) s (fun calls r s' =>
      ∃ hit, ReadPath symbol hit calls r ∧ ((∃ found, r = .ok found) → s'.2.redisCacheHit = hit)) := by
  unfold readQuote
  refine Leads.quiet cli.quiet_startClock (fun _ s₁ _ _ => ?_)
  refine Leads.call (c := .getCachedQuote symbol) (fun _ _ h => h) ?_ ?_
  · intro cached w₁ _
    refine Leads.quiet (cli.quiet_elapsedUs _) (fun _ s₂ _ _ => ?_)
    refine Leads.set ?_
    cases cached with
    | some quote => exact Leads.pure ⟨true, .hit quote, fun _ => rfl⟩
    | none =>
        refine Leads.quiet cli.quiet_startClock (fun _ s₃ hs₃ _ => ?_)
        refine Leads.call (c := .getQuote symbol) (fun _ _ h => h) ?_ ?_
        · intro found w₂ _
          refine Leads.quiet (cli.quiet_elapsedUs _) (fun _ s₄ hs₄ _ => ?_)
          refine Leads.set ?_
          refine Leads.call (c := .lastWasCached) (fun _ _ h => h) ?_ ?_
          · intro flag w₃ _
            refine Leads.set (Leads.pure ⟨false, .fetched found flag, fun _ => ?_⟩)
            -- the metrics were set when Redis answered, and kept since
            show s₄.2.redisCacheHit = false
            rw [hs₄]
            show s₃.2.redisCacheHit = false
            rw [hs₃]
            rfl
          · exact fun e _ _ => ⟨false, .flagThrew found e, fun ⟨_, h⟩ => nomatch h⟩
        · exact fun e _ _ => ⟨false, .fetchThrew e, fun ⟨_, h⟩ => nomatch h⟩
  · exact fun e _ _ => ⟨false, .cachedThrew e, fun ⟨_, h⟩ => nomatch h⟩

theorem storeQuote_leads (symbol : Symbol) (quote : Quote) (s : FetchState σ) :
    Leads cli.services (cli.storeQuote symbol quote) s (fun calls r s' =>
      (∃ stored, r = .ok () ∧ s'.2.redisQuoteStored = stored
        ∧ ((s.2.redisCacheHit = true ∧ stored = true ∧ calls = [])
          ∨ (s.2.redisCacheHit = false ∧ calls = [.storeQuote symbol quote (.ok stored)])))
      ∨ (∃ e, r = .error e ∧ s.2.redisCacheHit = false
        ∧ calls = [.storeQuote symbol quote (.error e)])) := by
  unfold storeQuote
  refine Leads.get ?_
  cases hhit : s.2.redisCacheHit with
  | true =>
      rw [if_pos rfl]
      refine Leads.setLast ?_
      exact Or.inl ⟨true, rfl, rfl, Or.inl ⟨rfl, rfl, rfl⟩⟩
  | false =>
      rw [if_neg Bool.false_ne_true]
      refine Leads.quiet cli.quiet_startClock (fun _ s₁ _ _ => ?_)
      refine Leads.call (c := .storeQuote symbol quote) (fun _ _ h => h) ?_ ?_
      · intro stored w₁ _
        refine Leads.set (Leads.quiet (cli.quiet_elapsedUs _) (fun _ s₂ hs₂ _ => ?_))
        refine Leads.setLast (Or.inl ⟨stored, rfl, ?_, Or.inr ⟨rfl, rfl⟩⟩)
        show s₂.2.redisQuoteStored = stored
        rw [hs₂]
      · intro e w₁ _
        exact Or.inr ⟨e, rfl, rfl, rfl⟩

theorem publishBook_leads (symbol : Symbol) (book : OrderBook) (s : FetchState σ) :
    Leads cli.services (cli.publishBook symbol book) s (fun calls r s' =>
      (∃ updated, r = .ok () ∧ s'.2.redisBookStored = updated
        ∧ s'.2.redisQuoteStored = s.2.redisQuoteStored
        ∧ calls = [.updateOrderBook symbol (toAscending book.bids) (toAscending book.asks)
            (.ok updated)])
      ∨ (∃ e, r = .error e
        ∧ calls = [.updateOrderBook symbol (toAscending book.bids) (toAscending book.asks)
            (.error e)])) := by
  unfold publishBook
  refine Leads.quiet cli.quiet_startClock (fun _ s₁ hs₁ _ => ?_)
  refine Leads.call (c := .updateOrderBook symbol (toAscending book.bids) (toAscending book.asks))
    (fun _ _ h => h) ?_ ?_
  · intro updated w₁ _
    refine Leads.set (Leads.quiet (cli.quiet_elapsedUs _) (fun _ s₂ hs₂ _ => ?_))
    refine Leads.setLast (Or.inl ⟨updated, rfl, ?_, ?_, rfl⟩)
    · show s₂.2.redisBookStored = updated
      rw [hs₂]
    · show s₂.2.redisQuoteStored = s.2.redisQuoteStored
      rw [hs₂, ← hs₁]
  · exact fun e _ _ => Or.inr ⟨e, rfl, rfl⟩

theorem persist_leads (quote : Quote) (snapshot : OrderBookSnapshot) (s : FetchState σ) :
    Leads cli.services (cli.persist quote snapshot) s (fun calls r s' =>
      (cli.services.durable = false ∧ r = .ok none ∧ s'.2 = s.2 ∧ calls = [])
      ∨ (cli.services.durable = true
        ∧ ((∃ e, r = .error e ∧ calls = [.persistQuote quote (.error e)])
          ∨ (∃ p e, r = .error e ∧ calls = [.persistQuote quote (.ok p),
              .persistSnapshot snapshot quote.source (.error e)])
          ∨ (∃ p p', r = .ok (some (p, p')) ∧ s'.2 = s.2 ∧ calls = [.persistQuote quote (.ok p),
              .persistSnapshot snapshot quote.source (.ok p')])))) := by
  unfold persist CliServices.durable
  -- one callback that is missing switches both writes off
  cases hquote : cli.services.persistQuote with
  | none => exact Leads.pure (Or.inl ⟨rfl, rfl, rfl, rfl⟩)
  | some persistQuote =>
      cases hsnapshot : cli.services.persistSnapshot with
      | none => exact Leads.pure (Or.inl ⟨rfl, rfl, rfl, rfl⟩)
      | some persistSnapshot =>
          refine Leads.call (c := .persistQuote quote) (fun _ _ h => ⟨_, hquote, h⟩) ?_ ?_
          · intro p w₁ _
            refine Leads.call (c := .persistSnapshot snapshot quote.source)
              (fun _ _ h => ⟨_, hsnapshot, h⟩) ?_ ?_
            · intro p' w₂ _
              exact Leads.pure (Or.inr ⟨rfl, Or.inr (Or.inr ⟨p, p', rfl, rfl, rfl⟩)⟩)
            · exact fun e _ _ => Or.inr ⟨rfl, Or.inr (Or.inl ⟨p, e, rfl, rfl⟩)⟩
          · exact fun e _ _ => Or.inr ⟨rfl, Or.inl ⟨e, rfl, rfl⟩⟩

/-! ## §5. What the stages leave untouched. -/

theorem readQuote_untouched (symbol : Symbol) : Action.Within Untouched (cli.readQuote symbol) := by
  unfold readQuote
  refine Action.Within.bind cli.quiet_startClock.untouched (fun _ => ?_)
  refine Action.Within.bind (call_untouched _) (fun cached => ?_)
  refine Action.Within.bind (cli.quiet_elapsedUs _).untouched (fun _ => ?_)
  refine Action.Within.bind (setMetrics_untouched (fun _ => ⟨rfl, rfl⟩)) (fun _ => ?_)
  cases cached with
  | some quote => exact Action.Within.pure _
  | none =>
      refine Action.Within.bind cli.quiet_startClock.untouched (fun _ => ?_)
      refine Action.Within.bind (call_untouched _) (fun _ => ?_)
      refine Action.Within.bind (cli.quiet_elapsedUs _).untouched (fun _ => ?_)
      refine Action.Within.bind (setMetrics_untouched (fun _ => ⟨rfl, rfl⟩)) (fun _ => ?_)
      refine Action.Within.bind (call_untouched _) (fun _ => ?_)
      refine Action.Within.bind (setMetrics_untouched (fun _ => ⟨rfl, rfl⟩)) (fun _ => ?_)
      exact Action.Within.pure _

theorem storeQuote_untouched (symbol : Symbol) (quote : Quote) :
    Action.Within Untouched (cli.storeQuote symbol quote) := by
  unfold storeQuote
  refine Action.Within.bind Action.Within.get (fun s => ?_)
  cases s.2.redisCacheHit with
  | true =>
      rw [if_pos rfl]
      exact setMetrics_untouched (fun _ => ⟨rfl, rfl⟩)
  | false =>
      refine Action.Within.bind cli.quiet_startClock.untouched (fun _ => ?_)
      refine Action.Within.bind (call_untouched _) (fun _ => ?_)
      refine Action.Within.bind (setMetrics_untouched (fun _ => ⟨rfl, rfl⟩)) (fun _ => ?_)
      refine Action.Within.bind (cli.quiet_elapsedUs _).untouched (fun _ => ?_)
      exact setMetrics_untouched (fun _ => ⟨rfl, rfl⟩)

theorem publishBook_untouched (symbol : Symbol) (book : OrderBook) :
    Action.Within Untouched (cli.publishBook symbol book) := by
  unfold publishBook
  refine Action.Within.bind cli.quiet_startClock.untouched (fun _ => ?_)
  refine Action.Within.bind (call_untouched _) (fun _ => ?_)
  refine Action.Within.bind (setMetrics_untouched (fun _ => ⟨rfl, rfl⟩)) (fun _ => ?_)
  refine Action.Within.bind (cli.quiet_elapsedUs _).untouched (fun _ => ?_)
  exact setMetrics_untouched (fun _ => ⟨rfl, rfl⟩)

theorem persist_untouched (quote : Quote) (snapshot : OrderBookSnapshot) :
    Action.Within Untouched (cli.persist quote snapshot) := by
  unfold persist
  cases cli.services.persistQuote with
  | none => exact Action.Within.pure _
  | some persistQuote =>
      cases cli.services.persistSnapshot with
      | none => exact Action.Within.pure _
      | some persistSnapshot =>
          refine Action.Within.bind (call_untouched _) (fun _ => ?_)
          exact Action.Within.bind (call_untouched _) (fun _ => Action.Within.pure _)

/-! ## §6. Rebuilding and recording. -/

theorem rebuildBook_run {symbol : Symbol} (quote : Quote) {before : OrderBook} {s : FetchState σ}
    (h : s.1.2.books symbol = some before) :
    ∃ s', cli.rebuildBook symbol quote s = (.ok (rebuilt before quote), s') ∧ s'.1.1 = s.1.1
      ∧ s'.1.2.books = Function.update s.1.2.books symbol (some (rebuilt before quote))
      ∧ s'.1.2.booksWithData = insert symbol s.1.2.booksWithData
      ∧ s'.1.2.stats = s.1.2.stats
      ∧ s'.2 = { s.2 with bookBuildUs := s'.2.bookBuildUs } := by
  have hpopulate := populateBookFromQuote_ok quote before
  unfold rebuildBook
  rw [Action.bind_ok (Action.get_run s)]
  simp only [h]
  rcases hrun : populateBookFromQuote quote before with ⟨result, book⟩
  have hbook : rebuilt before quote = book := by
    rw [rebuilt, hrun]
  rw [hrun] at hpopulate
  simp only at hpopulate
  subst hpopulate
  rw [hbook]
  exact ⟨_, rfl, rfl, rfl, rfl, rfl, rfl⟩

theorem recordMetrics_run (processBefore : ProcessSnapshot) (totalStarted : ℤ)
    (s : FetchState σ) :
    ∃ s', cli.recordMetrics processBefore totalStarted s = (.ok (), s') ∧ s'.1.1 = s.1.1
      ∧ s'.1.2.books = s.1.2.books ∧ s'.1.2.booksWithData = s.1.2.booksWithData
      ∧ s'.1.2.stats = s.1.2.stats.record s'.2
      ∧ s'.2.symbol = s.2.symbol ∧ s'.2.success = s.2.success :=
  ⟨_, rfl, rfl, rfl, rfl, rfl, rfl, rfl⟩

/-! ## §7. A whole fetch. -/

/-- How a fetch has ended: it has recorded its metrics and returned their
verdict, or it has thrown and recorded nothing yet. -/
def Ended (s : FetchState σ) : Except Exn Bool → FetchState σ → Prop
  | .ok b, s' => s'.1.2.stats = s.1.2.stats.record s'.2 ∧ s'.2.symbol = s.2.symbol
      ∧ s'.2.success = b
  | .error _, s' => s'.1.2.stats = s.1.2.stats ∧ s'.2.symbol = s.2.symbol
      ∧ s'.2.success = s.2.success

/-- An end is seen from any earlier state that agrees on the statistics, the
symbol and the verdict. -/
theorem Ended.of_same {s s₁ s' : FetchState σ} {r : Except Exn Bool} (h : Ended s₁ r s')
    (hstats : s₁.1.2.stats = s.1.2.stats) (hsymbol : s₁.2.symbol = s.2.symbol)
    (hsuccess : s₁.2.success = s.2.success) : Ended s r s' := by
  cases r with
  | ok b => exact ⟨by rw [h.1, hstats], h.2.1.trans hsymbol, h.2.2⟩
  | error e => exact ⟨h.1.trans hstats, h.2.1.trans hsymbol, h.2.2.trans hsuccess⟩

theorem Ended.of_untouched {s s₁ s' : FetchState σ} {r : Except Exn Bool} (h : Ended s₁ r s')
    (hsame : Untouched s s₁) : Ended s r s' :=
  h.of_same hsame.members.stats hsame.symbol hsame.success

theorem finishFetch_leads (printData printMetrics : Bool) (processBefore : ProcessSnapshot)
    (totalStarted : ℤ) (quote : Quote) (snapshot : OrderBookSnapshot)
    (postgres : Option (Bool × Bool)) (s : FetchState σ) :
    Leads cli.services
      (cli.finishFetch printData printMetrics processBefore totalStarted quote snapshot postgres) s
      (fun calls r s' => calls = []
        ∧ r = .ok (s.2.redisQuoteStored && s.2.redisBookStored && (postgres.getD (true, true)).1
            && (postgres.getD (true, true)).2)
        ∧ s'.1.2.books = s.1.2.books ∧ s'.1.2.booksWithData = s.1.2.booksWithData
        ∧ Ended s r s') := by
  unfold finishFetch
  refine Leads.set ?_
  obtain ⟨s₁, hrun, hworld, hbooks, hdata, hstats, hsymbol, hsuccess⟩ :=
    cli.recordMetrics_run processBefore totalStarted (s.1, { s.2 with
      success := s.2.redisQuoteStored && s.2.redisBookStored && (postgres.getD (true, true)).1
        && (postgres.getD (true, true)).2 })
  refine Leads.step hrun hworld (Leads.get ?_)
  refine Leads.quiet (quiet_emit _) (fun _ s₂ hs₂ hm₂ => ?_)
  refine Leads.quiet (quiet_emitIf _ _) (fun _ s₃ hs₃ hm₃ => ?_)
  refine Leads.quiet (quiet_emitIf _ _) (fun _ s₄ hs₄ hm₄ => ?_)
  refine Leads.quiet (quiet_emitIf _ _) (fun _ s₅ hs₅ hm₅ => ?_)
  -- the prints change neither the metrics nor the members
  have hmetrics : s₅.2 = s₁.2 := by rw [hs₅, hs₄, hs₃, hs₂]
  refine Leads.pure ⟨rfl, by rw [hsuccess], ?_, ?_, ?_, ?_, ?_⟩
  · rw [hm₅.books, hm₄.books, hm₃.books, hm₂.books, hbooks]
  · rw [hm₅.booksWithData, hm₄.booksWithData, hm₃.booksWithData, hm₂.booksWithData, hdata]
  · rw [hm₅.stats, hm₄.stats, hm₃.stats, hm₂.stats, hmetrics, hstats]
  · rw [hmetrics, hsymbol]
  · rw [hmetrics]

/-- What has become of the members other than the statistics: `built` is the
quote the symbol's book was rebuilt from. -/
structure Rebuilds (symbol : Symbol) (before : OrderBook) (built : Option Quote)
    (st st' : CliState) : Prop where
  books : st'.books = built.elim st.books
    (fun quote => Function.update st.books symbol (some (rebuilt before quote)))
  booksWithData : st'.booksWithData = built.elim st.booksWithData
    (fun _ => insert symbol st.booksWithData)

theorem Rebuilds.of_same {symbol : Symbol} {before : OrderBook} {built : Option Quote}
    {st st₁ st' : CliState} (h : SameMembers st st₁) (h' : Rebuilds symbol before built st₁ st') :
    Rebuilds symbol before built st st' := by
  obtain ⟨hbooks, hdata⟩ := h'
  rw [h.books] at hbooks
  rw [h.booksWithData] at hdata
  exact ⟨hbooks, hdata⟩

section Rebuilds

variable {symbol other : Symbol} {before : OrderBook} {built : Option Quote} {st st' : CliState}
  (h : Rebuilds symbol before built st st')

include h

theorem Rebuilds.book_self : st'.books symbol
    = built.elim (st.books symbol) (fun quote => some (rebuilt before quote)) := by
  rw [h.books]
  cases built with
  | none => rfl
  | some quote => exact Function.update_self symbol _ st.books

theorem Rebuilds.book_other (hne : other ≠ symbol) : st'.books other = st.books other := by
  rw [h.books]
  cases built with
  | none => rfl
  | some quote => exact Function.update_of_ne hne _ st.books

theorem Rebuilds.mem_self :
    symbol ∈ st'.booksWithData ↔ built.isSome = true ∨ symbol ∈ st.booksWithData := by
  rw [h.booksWithData]
  cases built with
  | none => simp
  | some quote => simp

theorem Rebuilds.mem_other (hne : other ≠ symbol) :
    other ∈ st'.booksWithData ↔ other ∈ st.booksWithData := by
  rw [h.booksWithData]
  cases built with
  | none => rfl
  | some quote => exact Finset.mem_insert.trans (or_iff_right hne)

end Rebuilds

/-- What leaves the members and the verdict alone has ended, if it threw. -/
theorem Ended.of_thrown {s s' : FetchState σ} (e : Exn) (h : Untouched s s') :
    Ended s (.error e) s' :=
  ⟨h.members.stats, h.symbol, h.success⟩

/-- A fetch from the published book on. -/
theorem persistBook_leads (symbol : Symbol) (book : Quote → OrderBook)
    (printData printMetrics : Bool) (processBefore : ProcessSnapshot) (totalStarted : ℤ)
    (quote : Quote) (s : FetchState σ) :
    Leads cli.services (do
        let now ← onCli (readHost cli.host.systemNow)
        let postgres ← cli.persist quote ((book quote).snapshot now 0)
        cli.finishFetch printData printMetrics processBefore totalStarted quote
          ((book quote).snapshot now 0) postgres) s
      (fun calls r s' =>
        (∃ now, BookPath cli.services.durable symbol book now quote s.2.redisQuoteStored
          (publishing symbol book quote (.ok s.2.redisBookStored) :: calls) r)
          ∧ s'.1.2.books = s.1.2.books ∧ s'.1.2.booksWithData = s.1.2.booksWithData
          ∧ Ended s r s') := by
  refine Leads.quiet (quiet_readHost _) (fun now s₁ hs₁ hm₁ => ?_)
  have hsame₁ : Untouched s s₁ := ⟨hm₁, by rw [hs₁], by rw [hs₁]⟩
  refine Leads.bind ((cli.persist_leads quote ((book quote).snapshot now 0) s₁).frame
    (cli.persist_untouched quote _)) ?_ ?_
  · intro persistCalls postgres s₂ ⟨hpersist, hsame₂⟩
    have hsame : Untouched s s₂ := trans_of Untouched hsame₁ hsame₂
    obtain ⟨calls, hcalls, hnil, hresult, hbooks, hdata, hended⟩ :=
      cli.finishFetch_leads printData printMetrics processBefore totalStarted quote
        ((book quote).snapshot now 0) postgres s₂
    refine ⟨calls, hcalls, ⟨now, ?_⟩, hbooks.trans hsame.members.books,
      hdata.trans hsame.members.booksWithData, hended.of_untouched hsame⟩
    rw [hnil, List.append_nil, hresult]
    -- the durable calls leave the two flags that Redis has set
    rcases hpersist with ⟨hdurable, hpostgres, hs₂, hpersistCalls⟩
      | ⟨hdurable, ⟨e, h, _⟩ | ⟨p, e, h, _⟩ | ⟨p, p', hpostgres, hs₂, hpersistCalls⟩⟩
    · obtain rfl := Except.ok.inj hpostgres
      rw [hs₂, hs₁, hpersistCalls]
      simp only [Option.getD_none, Bool.and_true]
      exact .redisOnly s.2.redisBookStored hdurable
    · cases h
    · cases h
    · obtain rfl := Except.ok.inj hpostgres
      rw [hs₂, hs₁, hpersistCalls]
      exact .persisted s.2.redisBookStored p p' hdurable
  · intro persistCalls e s₂ ⟨hpersist, hsame₂⟩
    have hsame : Untouched s s₂ := trans_of Untouched hsame₁ hsame₂
    refine ⟨⟨now, ?_⟩, hsame.members.books, hsame.members.booksWithData, .of_thrown e hsame⟩
    rcases hpersist with ⟨_, h, _⟩
      | ⟨hdurable, ⟨e', h, hpersistCalls⟩ | ⟨p, e', h, hpersistCalls⟩ | ⟨_, _, h, _⟩⟩
    · cases h
    · obtain rfl := Except.error.inj h
      rw [hpersistCalls]
      exact .quoteThrew s.2.redisBookStored e hdurable
    · obtain rfl := Except.error.inj h
      rw [hpersistCalls]
      exact .snapshotThrew s.2.redisBookStored p e hdurable
    · cases h

/-- A fetch from the rebuilt book on. -/
theorem writeBook_leads (symbol : Symbol) (book : Quote → OrderBook) (printData printMetrics : Bool)
    (processBefore : ProcessSnapshot) (totalStarted : ℤ) (quote : Quote) (s : FetchState σ) :
    Leads cli.services (do
        cli.publishBook symbol (book quote)
        let now ← onCli (readHost cli.host.systemNow)
        let postgres ← cli.persist quote ((book quote).snapshot now 0)
        cli.finishFetch printData printMetrics processBefore totalStarted quote
          ((book quote).snapshot now 0) postgres) s
      (fun calls r s' =>
        (∃ now, BookPath cli.services.durable symbol book now quote s.2.redisQuoteStored calls r)
          ∧ s'.1.2.books = s.1.2.books ∧ s'.1.2.booksWithData = s.1.2.booksWithData
          ∧ Ended s r s') := by
  refine Leads.bind ((cli.publishBook_leads symbol (book quote) s).frame
    (cli.publishBook_untouched symbol _)) ?_ ?_
  · intro publishCalls _ s₁ ⟨hpublish, hsame₁⟩
    rcases hpublish with ⟨updated, _, hupdated, hquoteStored, hpublishCalls⟩ | ⟨e, h, _⟩
    · obtain ⟨calls, hcalls, ⟨now, hpath⟩, hbooks, hdata, hended⟩ :=
        cli.persistBook_leads symbol book printData printMetrics processBefore totalStarted quote s₁
      rw [hquoteStored, hupdated] at hpath
      refine ⟨calls, hcalls, ⟨now, ?_⟩, hbooks.trans hsame₁.members.books,
        hdata.trans hsame₁.members.booksWithData, hended.of_untouched hsame₁⟩
      rw [hpublishCalls]
      exact hpath
    · cases h
  · intro publishCalls e s₁ ⟨hpublish, hsame₁⟩
    rcases hpublish with ⟨_, h, _⟩ | ⟨e', h, hpublishCalls⟩
    · cases h
    · -- the callback threw: neither snapshot nor writes follow
      obtain rfl := Except.error.inj h
      refine ⟨⟨0, ?_⟩, hsame₁.members.books, hsame₁.members.booksWithData, .of_thrown e hsame₁⟩
      rw [hpublishCalls]
      exact .updateThrew e

/-- What a fetch does with a quote. -/
theorem useQuote_leads (symbol : Symbol) (printData printMetrics : Bool)
    (processBefore : ProcessSnapshot) (totalStarted : ℤ) (quote : Quote) {before : OrderBook}
    {s : FetchState σ} (hbook : s.1.2.books symbol = some before) :
    Leads cli.services
      (cli.useQuote symbol printData printMetrics processBefore totalStarted quote) s
      (fun calls r s' =>
        (∃ e, r = .error e ∧ s.2.redisCacheHit = false
          ∧ calls = [.storeQuote symbol quote (.error e)]
          ∧ Rebuilds symbol before none s.1.2 s'.1.2 ∧ Ended s r s')
        ∨ ∃ stored storeCalls bookCalls now, calls = storeCalls ++ bookCalls
          ∧ ((s.2.redisCacheHit = true ∧ stored = true ∧ storeCalls = [])
            ∨ (s.2.redisCacheHit = false
              ∧ storeCalls = [.storeQuote symbol quote (.ok stored)]))
          ∧ BookPath cli.services.durable symbol (rebuilt before) now quote stored bookCalls r
          ∧ Rebuilds symbol before (some quote) s.1.2 s'.1.2 ∧ Ended s r s') := by
  unfold useQuote
  refine Leads.bind ((cli.storeQuote_leads symbol quote s).frame
    (cli.storeQuote_untouched symbol quote)) ?_ ?_
  · intro storeCalls _ s₁ ⟨hstore, hsame₁⟩
    rcases hstore with ⟨stored, _, hstored, hstoreCalls⟩ | ⟨e, h, _⟩
    swap
    · cases h
    have hbook₁ : s₁.1.2.books symbol = some before := by
      rw [hsame₁.members.books, hbook]
    -- the quote is stored, or was found in Redis: the book follows
    obtain ⟨s₂, hrun₂, hworld₂, hbooks₂, hdata₂, hstats₂, hmetrics₂⟩ :=
      cli.rebuildBook_run quote hbook₁
    obtain ⟨bookCalls, hcalls, ⟨now, hpath⟩, hbooks, hdata, hended⟩ :=
      cli.writeBook_leads symbol (rebuilt before) printData printMetrics processBefore totalStarted
        quote s₂
    have hquoteStored₂ : s₂.2.redisQuoteStored = stored := by
      rw [hmetrics₂]
      exact hstored
    rw [hquoteStored₂] at hpath
    refine Leads.step hrun₂ hworld₂ ⟨bookCalls, hcalls, Or.inr ⟨stored, storeCalls, bookCalls, now,
      rfl, hstoreCalls, hpath, ⟨?_, ?_⟩, ?_⟩⟩
    · refine hbooks.trans ?_
      rw [hbooks₂, hsame₁.members.books]
      rfl
    · refine hdata.trans ?_
      rw [hdata₂, hsame₁.members.booksWithData]
      rfl
    · -- the statistics, the symbol and the verdict are older than the book
      have hstats : s₂.1.2.stats = s.1.2.stats := hstats₂.trans hsame₁.members.stats
      have hsymbol : s₂.2.symbol = s.2.symbol := by
        rw [hmetrics₂]
        exact hsame₁.symbol
      have hsuccess : s₂.2.success = s.2.success := by
        rw [hmetrics₂]
        exact hsame₁.success
      exact hended.of_same hstats hsymbol hsuccess
  · intro storeCalls e s₁ ⟨hstore, hsame₁⟩
    rcases hstore with ⟨_, h, _⟩ | ⟨e', h, hhit, hstoreCalls⟩
    · cases h
    · obtain rfl := Except.error.inj h
      exact Or.inl ⟨e, rfl, hhit, hstoreCalls, ⟨hsame₁.members.books, hsame₁.members.booksWithData⟩,
        .of_thrown e hsame₁⟩

/-- A fetch that found no quote ends with its metrics. -/
theorem missFetch_leads (symbol : Symbol) (printMetrics : Bool) (processBefore : ProcessSnapshot)
    (totalStarted : ℤ) {s : FetchState σ} (hfresh : s.2.success = false) :
    Leads cli.services (do
        cli.recordMetrics processBefore totalStarted
        let s ← Action.get
        onCli (emit (.miss symbol))
        onCli (emitIf printMetrics (.operationMetrics s.2))
        return false) s
      (fun calls r s' => calls = [] ∧ r = .ok false ∧ s'.1.2.books = s.1.2.books
        ∧ s'.1.2.booksWithData = s.1.2.booksWithData ∧ Ended s r s') := by
  obtain ⟨s₁, hrun, hworld, hbooks, hdata, hstats, hsymbol, hsuccess⟩ :=
    cli.recordMetrics_run processBefore totalStarted s
  refine Leads.step hrun hworld (Leads.get ?_)
  refine Leads.quiet (quiet_emit _) (fun _ s₂ hs₂ hm₂ => ?_)
  refine Leads.quiet (quiet_emitIf _ _) (fun _ s₃ hs₃ hm₃ => ?_)
  have hmetrics : s₃.2 = s₁.2 := by rw [hs₃, hs₂]
  refine Leads.pure ⟨rfl, rfl, ?_, ?_, ?_, ?_, ?_⟩
  · rw [hm₃.books, hm₂.books, hbooks]
  · rw [hm₃.booksWithData, hm₂.booksWithData, hdata]
  · rw [hm₃.stats, hm₂.stats, hmetrics, hstats]
  · rw [hmetrics, hsymbol]
  · rw [hmetrics, hsuccess, hfresh]

theorem fetchBody_leads (symbol : Symbol) (printData printMetrics : Bool)
    (processBefore : ProcessSnapshot) (totalStarted : ℤ) {before : OrderBook} {s : FetchState σ}
    (hbook : s.1.2.books symbol = some before) (hfresh : s.2.success = false) :
    Leads cli.services (cli.fetchBody symbol printData printMetrics processBefore totalStarted) s
      (fun calls r s' => ∃ now built,
        FetchPath cli.services.durable symbol (rebuilt before) now built calls r
        ∧ Rebuilds symbol before built s.1.2 s'.1.2 ∧ Ended s r s') := by
  unfold fetchBody
  refine Leads.bind ((cli.readQuote_leads symbol s).frame (cli.readQuote_untouched symbol)) ?_ ?_
  · intro readCalls found s₁ ⟨⟨hit, hread, hhit⟩, hsame₁⟩
    have hhit₁ := hhit ⟨found, rfl⟩
    cases found with
    | none =>
        obtain ⟨calls, hcalls, hnil, hresult, hbooks, hdata, hended⟩ :=
          cli.missFetch_leads symbol printMetrics processBefore totalStarted
            (hsame₁.success.trans hfresh)
        refine ⟨calls, hcalls, 0, none, ?_, ⟨hbooks.trans hsame₁.members.books,
          hdata.trans hsame₁.members.booksWithData⟩, hended.of_untouched hsame₁⟩
        rw [hnil, List.append_nil, hresult]
        cases hread with
        | fetched _ cached => exact .missed cached
    | some quote =>
        have hbook₁ : s₁.1.2.books symbol = some before := by
          rw [hsame₁.members.books, hbook]
        obtain ⟨calls, hcalls, huse⟩ := cli.useQuote_leads symbol printData printMetrics
          processBefore totalStarted quote hbook₁
        refine ⟨calls, hcalls, ?_⟩
        -- either the store threw, or the book follows
        rcases huse with ⟨e, hr, hmiss, hstoreCalls, hrebuilds, hended⟩
          | ⟨stored, storeCalls, bookCalls, now, hstages, hstore, hpath, hrebuilds, hended⟩
        · refine ⟨0, none, ?_, hrebuilds.of_same hsame₁.members, hended.of_untouched hsame₁⟩
          rw [hr, hstoreCalls]
          cases hread with
          | hit _ =>
              -- a hit stores nothing, so nothing threw
              rw [hhit₁] at hmiss
              cases hmiss
          | fetched _ cached => exact .storeThrew quote cached e
        · refine ⟨now, some quote, ?_, hrebuilds.of_same hsame₁.members,
            hended.of_untouched hsame₁⟩
          rw [hstages]
          rcases hstore with ⟨hcached, rfl, rfl⟩ | ⟨hcached, rfl⟩ <;> rw [hhit₁] at hcached <;>
            subst hcached
          · cases hread with
            | hit _ => exact .hit quote hpath
          · cases hread with
            | fetched _ cached => exact .fetched quote cached stored hpath
  · intro readCalls e s₁ ⟨⟨hit, hread, _⟩, hsame₁⟩
    -- reading the quote threw
    refine ⟨0, none, ?_, ⟨hsame₁.members.books, hsame₁.members.booksWithData⟩,
      hsame₁.members.stats, hsame₁.symbol, hsame₁.success⟩
    cases hread with
    | cachedThrew e => exact .cachedThrew e
    | fetchThrew e => exact .fetchThrew e
    | flagThrew found e => exact .flagThrew found e

/-- Where the `try` block begins: the host has been read twice, and the metrics
know their symbol. -/
def fetchStart (symbol : Symbol) (s : σ × CliState) : FetchState σ :=
  ((s.1, { s.2 with readings := s.2.readings + 1 + 1 }), { symbol := symbol })

/-- The body of the `try` block, with the host's first two readings. -/
def fetchBlock (symbol : Symbol) (printData printMetrics : Bool) (s : σ × CliState) :
    Action (FetchState σ) Exn Bool :=
  cli.fetchBody symbol printData printMetrics (cli.host.processSnapshot s.2.readings)
    (cli.host.steadyNow (s.2.readings + 1))

/-- The `try` block and its handler. -/
def fetchTry (symbol : Symbol) (printData printMetrics : Bool) (s : σ × CliState) :
    Except Exn Bool × FetchState σ :=
  tryCatch (cli.fetchBlock symbol printData printMetrics s)
    (fun e => do
      cli.recordMetrics (cli.host.processSnapshot s.2.readings)
        (cli.host.steadyNow (s.2.readings + 1))
      throw e)
    (fetchStart symbol s)

/-- The metrics of a fetch when it returns or throws. -/
def fetchMetrics (rawSymbol : Str) (printData printMetrics : Bool) (s : σ × CliState) :
    OperationMetrics :=
  (cli.fetchTry (normalizeSymbol rawSymbol) printData printMetrics s).2.2

theorem fetchSymbol_eq (rawSymbol : Str) (printData printMetrics : Bool) (s : σ × CliState)
    (hbook : (s.2.books (normalizeSymbol rawSymbol)).isSome = true) :
    cli.fetchSymbol rawSymbol printData printMetrics s
      = ((cli.fetchTry (normalizeSymbol rawSymbol) printData printMetrics s).1,
          (cli.fetchTry (normalizeSymbol rawSymbol) printData printMetrics s).2.1) := by
  have hconfigured : isConfigured s.2 (normalizeSymbol rawSymbol) = true := hbook
  unfold fetchSymbol
  rw [Action.bind_ok (Action.get_run s), hconfigured]
  rfl

/-- What the `try` block does, with the metrics it ends with. -/
theorem fetchTry_steps (symbol : Symbol) (printData printMetrics : Bool) {before : OrderBook}
    (s : σ × CliState) (hbook : s.2.books symbol = some before) :
    ∃ now built calls result s',
      cli.fetchTry symbol printData printMetrics s = (result, s')
      ∧ Calls cli.services s.1 calls s'.1.1
      ∧ FetchPath cli.services.durable symbol (rebuilt before) now built calls result
      ∧ Rebuilds symbol before built s.2 s'.1.2
      ∧ s'.1.2.stats = s.2.stats.record s'.2 ∧ s'.2.symbol = symbol
      ∧ (s'.2.success = true ↔ result = .ok true) := by
  obtain ⟨calls, hcalls, now, built, hpath, hrebuilds, hended⟩ :=
    cli.fetchBody_leads symbol printData printMetrics (cli.host.processSnapshot s.2.readings)
      (cli.host.steadyNow (s.2.readings + 1)) (s := fetchStart symbol s) hbook rfl
  unfold fetchTry fetchBlock
  rcases hbody : cli.fetchBody symbol printData printMetrics
    (cli.host.processSnapshot s.2.readings) (cli.host.steadyNow (s.2.readings + 1))
    (fetchStart symbol s) with ⟨r, s₁⟩
  rw [hbody] at hcalls hpath hrebuilds hended
  cases r with
  | ok b =>
      -- the body has recorded its metrics
      obtain ⟨hstats, hname, hsuccess⟩ := hended
      refine ⟨now, built, calls, _, _, Action.tryCatch_ok hbody, hcalls, hpath,
        ⟨hrebuilds.books, hrebuilds.booksWithData⟩, hstats, hname, ?_⟩
      rw [hsuccess, Except.ok.injEq]
  | error e =>
      obtain ⟨hstats, hname, hsuccess⟩ := hended
      -- the handler records them and throws again
      obtain ⟨s₂, hrun₂, hworld₂, hbooks₂, hdata₂, hstats₂, hsymbol₂, hsuccess₂⟩ :=
        cli.recordMetrics_run (cli.host.processSnapshot s.2.readings)
          (cli.host.steadyNow (s.2.readings + 1)) s₁
      refine ⟨now, built, calls, _, s₂, (Action.tryCatch_error hbody).trans (Action.bind_ok hrun₂),
        hworld₂ ▸ hcalls, hpath,
        ⟨hbooks₂.trans hrebuilds.books, hdata₂.trans hrebuilds.booksWithData⟩,
        hstats₂.trans (by rw [hstats]; rfl), hsymbol₂.trans hname, ?_⟩
      rw [hsuccess₂, hsuccess]
      exact ⟨nofun, nofun⟩

/-- **What a `fetch_symbol` of a configured symbol does**, for any behaviour of
the services. -/
theorem fetchSymbol_run (rawSymbol : Str) (printData printMetrics : Bool) {before : OrderBook}
    (s : σ × CliState) (hbook : s.2.books (normalizeSymbol rawSymbol) = some before) :
    ∃ now built calls m,
      Calls cli.services s.1 calls (cli.fetchSymbol rawSymbol printData printMetrics s).2.1
      ∧ FetchPath cli.services.durable (normalizeSymbol rawSymbol) (rebuilt before) now built calls
          (cli.fetchSymbol rawSymbol printData printMetrics s).1
      ∧ Rebuilds (normalizeSymbol rawSymbol) before built s.2
          (cli.fetchSymbol rawSymbol printData printMetrics s).2.2
      ∧ (cli.fetchSymbol rawSymbol printData printMetrics s).2.2.stats = s.2.stats.record m
      ∧ m.symbol = normalizeSymbol rawSymbol
      ∧ (m.success = true ↔ (cli.fetchSymbol rawSymbol printData printMetrics s).1 = .ok true) := by
  obtain ⟨now, built, calls, result, s', htry, hcalls, hpath, hrebuilds, hstats, hname, hsuccess⟩ :=
    cli.fetchTry_steps (normalizeSymbol rawSymbol) printData printMetrics s hbook
  rw [cli.fetchSymbol_eq rawSymbol printData printMetrics s (by rw [hbook]; rfl), htry]
  exact ⟨now, built, calls, s'.2, hcalls, hpath, hrebuilds, hstats, hname, hsuccess⟩

/-- A symbol without a book is refused before anything happens. -/
theorem fetchSymbol_refused (rawSymbol : Str) (printData printMetrics : Bool) (s : σ × CliState)
    (hbook : s.2.books (normalizeSymbol rawSymbol) = none) :
    cli.fetchSymbol rawSymbol printData printMetrics s
      = (.error (notConfigured (normalizeSymbol rawSymbol)), s) := by
  have hconfigured : isConfigured s.2 (normalizeSymbol rawSymbol) = false := by
    rw [isConfigured, hbook]
    rfl
  unfold fetchSymbol
  rw [Action.bind_ok (Action.get_run s), hconfigured]
  rfl

end FinCoreCli

end FinCore.Cli

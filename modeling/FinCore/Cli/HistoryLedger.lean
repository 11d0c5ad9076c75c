/-
  FinCore.Cli.HistoryLedger
  ─────────────────────────
  Responses received and history entries appended over a run of fetches.

  A fetch that finds nothing in Redis stores what the client returns, and the
  client may return a quote it has returned before: then the same response is
  appended again.  `fetch_effect` says what one fetch can do to the ledger,
  `quoteHistory_once_iff` when a run appends no response twice.
-/
import FinCore.Cli.Staleness
import FinCore.Storage.QuoteHistory

namespace FinCore.Cli

open FinCore.Cxx FinCore.Api FinCore.Redis FinCore.Storage
open FinCore.Storage.RedisClient (quoteHistoryKey historyEntry historyKeys Holds
  getQuote_keepsHistory bookKey_not_history)

/-! ## §1. What is counted. -/

/-- The response is for the symbol and stands for a quote. -/
def Response.isQuote (d : Deployment) (symbol : Symbol) (response : Response) : Bool :=
  response.symbol = symbol && (d.client.acceptResponse symbol response.text).isSome

/-- The successful responses for the symbol. -/
def successes (d : Deployment) (symbol : Symbol) (market : Market) : ℕ :=
  market.received.countP (Response.isQuote d symbol)

namespace Deployment

variable (d : Deployment)

/-- The store of the call, which starts at `w`, reaches the history. -/
def reachesHistory (w : RedisWorld) : ServiceCall → Bool
  | .storeQuote symbol quote _ => d.redis.appends symbol quote w
  | _ => false

/-- The entries that a fetch appends to a history. -/
def entries (fetch : Fetch) (s : RunState) : ℕ :=
  (d.fetch fetch s).1.2.countP (d.reachesHistory (fetch.storeStart s))

/-- The entries that a fetch appends to the history of the symbol. -/
def appended (symbol : Symbol) (fetch : Fetch) (s : RunState) : ℕ :=
  if fetch.symbol = symbol then d.entries fetch s else 0

/-- The entries that a run appends to the history of the symbol. -/
def appends (symbol : Symbol) : List Fetch → RunState → ℕ
  | [], _ => 0
  | fetch :: rest, s => d.appended symbol fetch s + appends symbol rest (d.fetch fetch s)

/-- How often the newest response for the symbol has been appended, after a
fetch; `n` times before it. -/
def copiesAfter (symbol : Symbol) (fetch : Fetch) (s : RunState) (n : ℕ) : ℕ :=
  (if successes d symbol (d.fetch fetch s).1.1.outside = successes d symbol s.1.1.outside then n
    else 0)
    + d.appended symbol fetch s

/-- The same, after a run. -/
def copies (symbol : Symbol) : List Fetch → RunState → ℕ → ℕ
  | [], _, n => n
  | fetch :: rest, s, n =>
      copies symbol rest (d.fetch fetch s) (d.copiesAfter symbol fetch s n)

theorem appends_snoc (symbol : Symbol) (pre : List Fetch) (fetch : Fetch) (s : RunState) :
    d.appends symbol (pre ++ [fetch]) s
      = d.appends symbol pre s + d.appended symbol fetch (d.run pre s) := by
  induction pre generalizing s with
  | nil =>
      show d.appended symbol fetch s + 0 = 0 + d.appended symbol fetch s
      omega
  | cons first rest ih =>
      show d.appended symbol first s + d.appends symbol (rest ++ [fetch]) (d.fetch first s)
        = d.appended symbol first s + d.appends symbol rest (d.fetch first s)
          + d.appended symbol fetch (d.run rest (d.fetch first s))
      rw [ih, Nat.add_assoc]

theorem copies_snoc (symbol : Symbol) (pre : List Fetch) (fetch : Fetch) (s : RunState) (n : ℕ) :
    d.copies symbol (pre ++ [fetch]) s n
      = d.copiesAfter symbol fetch (d.run pre s) (d.copies symbol pre s n) := by
  induction pre generalizing s n with
  | nil => rfl
  | cons first rest ih => exact ih (d.fetch first s) (d.copiesAfter symbol first s n)

end Deployment

/-- The fetch finds nothing in Redis and the client still holds the quote. -/
structure Reuses (d : Deployment) (fetch : Fetch) (s : RunState) (quote : Quote) : Prop where
  named : fetch.symbol ≠ []
  configured : s.2.books fetch.symbol ≠ none
  missed : (RedisClient.getQuote fetch.symbol (fetch.arrive s.1.1).redis).1 = .ok none
  held : ∃ entry, s.1.1.client.cache fetch.symbol = some entry
    ∧ fetch.time - entry.fetchedAt < d.client.comparedTtlNs ∧ entry.quote = quote

/-! ## §2. What each service does to the ledger. -/

section Steps

variable {d : Deployment}

/-- Only the client's own request touches the client and the market. -/
theorem quiet_keeps {c : ServiceCall} {w w' : World Market} (hquiet : c.stage ≠ 1)
    (hc : c.Performed d.services w w') : w'.client = w.client ∧ w'.outside = w.outside := by
  have hredis : ∀ {A : Type} {x : Action RedisWorld Exn A} {r : Except Exn A},
      Backends.onRedis x w = (r, w') → w'.client = w.client ∧ w'.outside = w.outside := by
    intro A x r hrun
    obtain ⟨_, rfl⟩ := Prod.mk.inj hrun
    exact ⟨rfl, rfl⟩
  cases c with
  | getQuote symbol r => exact absurd rfl hquiet
  | getCachedQuote symbol r => exact hredis hc
  | storeQuote symbol quote r => exact hredis hc
  | redisIsConnected r => exact hredis hc
  | updateOrderBook symbol bids asks r => exact hredis hc
  | lastWasCached r =>
      obtain ⟨_, rfl⟩ := Prod.mk.inj hc
      exact ⟨rfl, rfl⟩
  | persistQuote quote r => exact (durable_keeps (Or.inl rfl) hc).2
  | persistSnapshot snapshot source r => exact (durable_keeps (Or.inr rfl) hc).2

theorem calls_keep {calls : List ServiceCall} {w w' : World Market}
    (hquiet : ∀ c ∈ calls, c.stage ≠ 1) (hcalls : Calls d.services w calls w') :
    w'.client = w.client ∧ w'.outside = w.outside := by
  induction hcalls with
  | nil w => exact ⟨rfl, rfl⟩
  | cons hc _ ih =>
      obtain ⟨hclient, houtside⟩ := quiet_keeps (hquiet _ List.mem_cons_self) hc
      obtain ⟨hclient', houtside'⟩ := ih (fun c hmem => hquiet c (List.mem_cons_of_mem _ hmem))
      exact ⟨hclient'.trans hclient, houtside'.trans houtside⟩

/-- Only the store of a quote touches a history. -/
theorem quiet_history {c : ServiceCall} {w w' : World Market} (hquiet : c.stage ≠ 3)
    (hc : c.Performed d.services w w') (symbol : Symbol) :
    w'.redis.keys (quoteHistoryKey symbol) = w.redis.keys (quoteHistoryKey symbol) := by
  have hredis : ∀ {A : Type} {x : Action RedisWorld Exn A} {r : Except Exn A},
      RedisWorld.Keeps historyKeys x → Backends.onRedis x w = (r, w') →
      w'.redis.keys (quoteHistoryKey symbol) = w.redis.keys (quoteHistoryKey symbol) := by
    intro A x r hx hrun
    obtain ⟨_, rfl⟩ := Prod.mk.inj hrun
    exact (hx w.redis).2 _ ⟨symbol, rfl⟩
  have hsame : w'.redis = w.redis →
      w'.redis.keys (quoteHistoryKey symbol) = w.redis.keys (quoteHistoryKey symbol) := by
    intro h
    rw [h]
  -- one case for each callback; no key of theirs is a history key
  cases c with
  | storeQuote symbol quote r => exact absurd rfl hquiet
  | getCachedQuote symbol r => exact hredis (getQuote_keepsHistory symbol) hc
  | redisIsConnected r => exact hredis (RedisClient.isConnected_keeps _) hc
  | updateOrderBook symbol bids asks r =>
      exact hredis (RedisClient.updateOrderBook_keeps bookKey_not_history d.bookClock symbol bids
        asks) hc
  | getQuote symbol r =>
      obtain ⟨_, rfl⟩ := Prod.mk.inj hc
      rfl
  | lastWasCached r =>
      obtain ⟨_, rfl⟩ := Prod.mk.inj hc
      rfl
  | persistQuote quote r => exact hsame (durable_keeps (Or.inl rfl) hc).1
  | persistSnapshot snapshot source r => exact hsame (durable_keeps (Or.inr rfl) hc).1

theorem calls_history {calls : List ServiceCall} {w w' : World Market}
    (hquiet : ∀ c ∈ calls, c.stage ≠ 3) (hcalls : Calls d.services w calls w')
    (symbol : Symbol) :
    w'.redis.keys (quoteHistoryKey symbol) = w.redis.keys (quoteHistoryKey symbol) := by
  induction hcalls with
  | nil w => rfl
  | cons hc _ ih =>
      have hrest := ih (fun c hmem => hquiet c (List.mem_cons_of_mem _ hmem))
      exact hrest.trans (quiet_history (hquiet _ List.mem_cons_self) hc symbol)

/-- What the client answers, and what that adds to the ledger. -/
inductive Answer (d : Deployment) (symbol : Symbol) (market : Market) (state : ClientState) :
    Except Exn (Option Quote) × (Market × ClientState) → Prop where
  | reused (entry : CacheEntry) (state' : ClientState) : symbol ≠ [] →
      state.cache symbol = some entry → market.now - entry.fetchedAt < d.client.comparedTtlNs →
      state'.cache = state.cache →
      Answer d symbol market state (.ok (some entry.quote), (market, state'))
  | unanswered (r : Except Exn (Option Quote)) (market' : Market) (state' : ClientState) :
      (symbol ≠ [] → ∀ entry, state.cache symbol = some entry →
        ¬ market.now - entry.fetchedAt < d.client.comparedTtlNs) →
      (∀ quote, r ≠ .ok (some quote)) → state'.cache = state.cache →
      (∀ other, successes d other market' = successes d other market) →
      Answer d symbol market state (r, (market', state'))
  | answered (quote : Quote) (market' : Market) (state' : ClientState) :
      (∀ entry, state.cache symbol = some entry →
        ¬ market.now - entry.fetchedAt < d.client.comparedTtlNs) →
      (∀ other, symbol ≠ other → state'.cache other = state.cache other) →
      (∀ other, successes d other market'
        = successes d other market + if symbol = other then 1 else 0) →
      Answer d symbol market state (.ok (some quote), (market', state'))

/-- A response that is received counts if it stands for a quote. -/
theorem successes_received (market : Market) (symbol : Symbol) (text : Str) (other : Symbol) :
    successes d other
        { market with received := market.received ++ [⟨symbol, text, market.now⟩] }
      = successes d other market
        + if symbol = other ∧ (d.client.acceptResponse other text).isSome = true then 1 else 0 := by
  unfold successes
  rw [List.countP_append, List.countP_singleton]
  congr 1
  unfold Response.isQuote
  simp only [Bool.and_eq_true, decide_eq_true_eq]

/-- A request to the API, with no live entry in the client. -/
theorem getQuoteFresh_answer {symbol : Symbol} (hne : symbol ≠ []) (market : Market)
    (state : ClientState) (hold : ∀ entry, state.cache symbol = some entry →
      ¬ market.now - entry.fetchedAt < d.client.comparedTtlNs) :
    Answer d symbol market state (d.client.getQuoteFresh symbol (market, state)) := by
  have hfetch : d.client.fetch symbol market = Market.request symbol market := rfl
  unfold Market.request at hfetch
  cases hanswer : market.answer symbol with
  | error e =>
      rw [hanswer] at hfetch
      -- a request that throws changes nothing
      rw [d.client.getQuoteFresh_throw hne hfetch]
      exact .unanswered _ _ _ (fun _ => hold) (fun _ h => by cases h) rfl (fun _ => rfl)
  | ok text =>
      rw [hanswer] at hfetch
      cases haccept : d.client.acceptResponse symbol text with
      | none =>
          rw [d.client.getQuoteFresh_none hne hfetch haccept]
          -- a response without a quote is received, and no success
          refine .unanswered _ _ _ (fun _ => hold) (fun _ h => by cases h) rfl ?_
          intro other
          rw [successes_received, if_neg]
          · rfl
          · rintro ⟨rfl, hsome⟩
            rw [haccept] at hsome
            cases hsome
      | some quote =>
          rw [d.client.getQuoteFresh_some hne hfetch haccept]
          refine .answered quote _ _ hold ?_ ?_
          · intro other hother
            exact Function.update_of_ne (Ne.symm hother) _ _
          · intro other
            refine (successes_received market symbol text other).trans ?_
            by_cases hother : symbol = other
            · subst hother
              rw [if_pos ⟨rfl, by rw [haccept]; rfl⟩, if_pos rfl]
            · rw [if_neg (fun h => hother h.1), if_neg hother]

theorem getQuote_answer (symbol : Symbol) (market : Market) (state : ClientState) :
    Answer d symbol market state (d.client.getQuote symbol (market, state)) := by
  by_cases hne : symbol = []
  · subst hne
    rw [d.client.getQuote_empty]
    exact .unanswered _ _ _ (fun h => absurd rfl h) (fun _ h => by cases h) rfl (fun _ => rfl)
  · cases hentry : state.cache symbol with
    | none =>
        rw [d.client.getQuote_absent hne hentry]
        refine getQuoteFresh_answer hne market state ?_
        intro entry h
        rw [hentry] at h
        cases h
    | some entry =>
        by_cases hage : market.now - entry.fetchedAt < d.client.comparedTtlNs
        · rw [d.client.getQuote_hit hne hentry hage]
          exact .reused entry _ hne hentry hage rfl
        · rw [d.client.getQuote_expired hne hentry hage]
          refine getQuoteFresh_answer hne market state ?_
          intro other h
          rw [hentry] at h
          rw [← Option.some.inj h]
          exact hage

/-- A request of the CLI is a request to the client. -/
theorem getQuote_performed {symbol : Symbol} {r : Except Exn (Option Quote)} {w w' : World Market}
    (hrun : d.services.getQuote symbol w = (r, w')) :
    Answer d symbol w.outside w.client (r, (w'.outside, w'.client)) ∧ w'.redis = w.redis := by
  have hanswer : Answer d symbol w.outside w.client
      (d.client.getQuote symbol (w.outside, w.client)) := getQuote_answer symbol w.outside w.client
  rcases hclient : d.client.getQuote symbol (w.outside, w.client) with ⟨r', market, state⟩
  have hworld : d.services.getQuote symbol w
      = (r', { w with outside := market, client := state }) := by
    show Backends.onAvClient (d.client.getQuote symbol) w = _
    unfold Backends.onAvClient Action.zoom
    rw [hclient]
  rw [hworld] at hrun
  obtain ⟨rfl, rfl⟩ := Prod.mk.inj hrun
  rw [hclient] at hanswer
  exact ⟨hanswer, rfl⟩

end Steps

/-! ## §3. A fetch. -/

/-- What a fetch does to the ledger. -/
inductive Effect (d : Deployment) (fetch : Fetch) (s : RunState) : Prop where
  | quiet : (∀ quote, ¬ Reuses d fetch s quote) →
      (d.fetch fetch s).1.1.client.cache = s.1.1.client.cache →
      (∀ symbol, successes d symbol (d.fetch fetch s).1.1.outside
        = successes d symbol s.1.1.outside) →
      d.entries fetch s = 0 → Effect d fetch s
  | answered : (∀ quote, ¬ Reuses d fetch s quote) →
      (∀ symbol, fetch.symbol ≠ symbol →
        (d.fetch fetch s).1.1.client.cache symbol = s.1.1.client.cache symbol) →
      (∀ symbol, successes d symbol (d.fetch fetch s).1.1.outside
        = successes d symbol s.1.1.outside + if fetch.symbol = symbol then 1 else 0) →
      d.entries fetch s ≤ 1 → Effect d fetch s
  | reused (quote : Quote) : Reuses d fetch s quote →
      (d.fetch fetch s).1.1.client.cache = s.1.1.client.cache →
      (∀ symbol, successes d symbol (d.fetch fetch s).1.1.outside
        = successes d symbol s.1.1.outside) →
      d.entries fetch s
        = (if d.redis.appends fetch.symbol quote (fetch.storeStart s) = true then 1 else 0) →
      Effect d fetch s

section Fetch

variable {d : Deployment} {fetch : Fetch} {s : RunState}

theorem getCachedQuote_performed {symbol : Symbol} {r : Except Exn (Option Quote)}
    {w w' : World Market} (hrun : d.services.getCachedQuote symbol w = (r, w')) :
    (RedisClient.getQuote symbol w.redis).1 = r
      ∧ w'.redis = (RedisClient.getQuote symbol w.redis).2
      ∧ w'.client = w.client ∧ w'.outside = w.outside := by
  obtain ⟨hr, rfl⟩ := Prod.mk.inj hrun
  exact ⟨hr, rfl, rfl, rfl⟩

/-- The entries that follow from what the client answered. -/
def entriesOf (d : Deployment) (fetch : Fetch) (s : RunState) : Except Exn (Option Quote) → ℕ
  | .ok (some quote) =>
      if d.redis.appends fetch.symbol quote (fetch.storeStart s) = true then 1 else 0
  | _ => 0

/-- A fetch that asked the client. -/
theorem Answer.effect {r : Except Exn (Option Quote)} {w₂ : World Market}
    (h : Answer d fetch.symbol (fetch.arrive s.1.1).outside s.1.1.client
      (r, (w₂.outside, w₂.client)))
    (hconfigured : s.2.books fetch.symbol ≠ none)
    (hmissed : (RedisClient.getQuote fetch.symbol (fetch.arrive s.1.1).redis).1 = .ok none)
    (hclient : (d.fetch fetch s).1.1.client = w₂.client)
    (houtside : (d.fetch fetch s).1.1.outside = w₂.outside)
    (hentries : d.entries fetch s = entriesOf d fetch s r) : Effect d fetch s := by
  generalize hresult : (r, (w₂.outside, w₂.client)) = result at h
  cases h with
  | reused entry state' hne hentry hlive hcache =>
      obtain ⟨rfl, hmarket, hstate⟩ := by simpa only [Prod.mk.injEq] using hresult
      -- the client still holds the response: a cached answer
      refine .reused entry.quote ⟨hne, hconfigured, hmissed, entry, hentry, hlive, rfl⟩ ?_ ?_
        hentries
      · rw [hclient, hstate, hcache]
      · intro symbol
        rw [houtside, hmarket]
        rfl
  | unanswered r' market' state' hold hnone hcache hsame =>
      obtain ⟨rfl, hmarket, hstate⟩ := by simpa only [Prod.mk.injEq] using hresult
      refine .quiet ?_ ?_ ?_ ?_
      · rintro quote ⟨hne, _, _, entry, hentry, hlive, _⟩
        exact hold hne entry hentry hlive
      · rw [hclient, hstate, hcache]
      · intro symbol
        rw [houtside, hmarket, hsame]
        rfl
      · rw [hentries]
        unfold entriesOf
        split
        next quote => exact absurd rfl (hnone quote)
        next => rfl
  | answered quote market' state' hold hcache hcount =>
      obtain ⟨rfl, hmarket, hstate⟩ := by simpa only [Prod.mk.injEq] using hresult
      refine .answered ?_ ?_ ?_ ?_
      · rintro other ⟨_, _, _, entry, hentry, hlive, _⟩
        exact hold entry hentry hlive
      · intro symbol hother
        rw [hclient, hstate, hcache symbol hother]
      · intro symbol
        rw [houtside, hmarket, hcount]
        rfl
      · rw [hentries]
        show (if _ then 1 else 0) ≤ 1
        split <;> omega

theorem reachesHistory_of_stage {c : ServiceCall} (h : c.stage ≠ 3) (w : RedisWorld) :
    d.reachesHistory w c = false := by
  cases c with
  | storeQuote symbol quote r => exact absurd rfl h
  | _ => rfl

/-- Calls that store no quote append nothing. -/
theorem countP_of_stage {calls : List ServiceCall} (h : ∀ c ∈ calls, c.stage ≠ 3)
    (w : RedisWorld) : calls.countP (d.reachesHistory w) = 0 := by
  rw [List.countP_eq_zero]
  intro c hc hreaches
  rw [reachesHistory_of_stage (h c hc)] at hreaches
  cases hreaches

/-- A fetch that asked the client, call by call: what follows its answer are
quiet calls. -/
theorem asked_effect {calls : List ServiceCall} {r : Except Exn (Option Quote)}
    {rest : List ServiceCall} {w' : World Market}
    (hcalls : Calls d.services (fetch.arrive s.1.1) calls w')
    (hshape : calls = .getCachedQuote fetch.symbol (.ok none) :: .getQuote fetch.symbol r :: rest)
    (hfinal : (d.fetch fetch s).1 = (w', calls))
    (hconfigured : s.2.books fetch.symbol ≠ none) (hquiet : ∀ c ∈ rest, c.stage ≠ 1)
    (hentries : rest.countP (d.reachesHistory (fetch.storeStart s)) = entriesOf d fetch s r) :
    Effect d fetch s := by
  rw [hshape] at hcalls
  obtain ⟨w₁, hcached, hcalls⟩ := hcalls.cons_inv
  obtain ⟨w₂, hget, hcalls⟩ := hcalls.cons_inv
  -- the answer came from the world after the miss, which is the fetch's own start
  obtain ⟨hmissed, hredis, hclient, houtside⟩ := getCachedQuote_performed hcached
  obtain ⟨hanswer, _⟩ := getQuote_performed hget
  obtain ⟨hclient', houtside'⟩ := calls_keep hquiet hcalls
  rw [hclient, houtside] at hanswer
  refine hanswer.effect hconfigured hmissed ?_ ?_ ?_
  · rw [hfinal]
    exact hclient'
  · rw [hfinal]
    exact houtside'
  · unfold Deployment.entries
    rw [hfinal, hshape, List.countP_cons_of_neg Bool.false_ne_true,
      List.countP_cons_of_neg Bool.false_ne_true]
    exact hentries

/-- A fetch that did not find Redis empty asks for nothing and stores nothing. -/
theorem found_effect {calls : List ServiceCall} {r : Except Exn (Option Quote)}
    {rest : List ServiceCall} {w' : World Market}
    (hcalls : Calls d.services (fetch.arrive s.1.1) calls w')
    (hshape : calls = .getCachedQuote fetch.symbol r :: rest) (hr : r ≠ .ok none)
    (hfinal : (d.fetch fetch s).1 = (w', calls))
    (hrest : ∀ c ∈ rest, c.stage ≠ 1 ∧ c.stage ≠ 3) : Effect d fetch s := by
  have hstages : ∀ c ∈ calls, c.stage ≠ 1 ∧ c.stage ≠ 3 := by
    rw [hshape, List.forall_mem_cons]
    exact ⟨⟨nofun, nofun⟩, hrest⟩
  obtain ⟨hclient, houtside⟩ := calls_keep (fun c hc => (hstages c hc).1) hcalls
  rw [hshape] at hcalls
  obtain ⟨w₁, hcached, _⟩ := hcalls.cons_inv
  -- the client was not asked, and no store was tried
  refine .quiet ?_ ?_ ?_ ?_
  · intro quote h
    exact hr ((getCachedQuote_performed hcached).1.symm.trans h.missed)
  · rw [hfinal, hclient]
    rfl
  · intro symbol
    rw [hfinal, houtside]
    rfl
  · unfold Deployment.entries
    rw [hfinal]
    exact countP_of_stage (fun c hc => (hstages c hc).2) _

/-- The store of a quote decides the entries; the calls from the book on append
none. -/
theorem countP_storeQuote {quote : Quote} {stored : Except Exn Bool} {rest : List ServiceCall}
    (hrest : ∀ c ∈ rest, 4 ≤ c.stage) :
    (.storeQuote fetch.symbol quote stored :: rest : List ServiceCall).countP
      (d.reachesHistory (fetch.storeStart s)) = entriesOf d fetch s (.ok (some quote)) := by
  rw [List.countP_cons, countP_of_stage, Nat.zero_add]
  · rfl
  · intro c hc
    have hstage := hrest c hc
    omega

/-- A fetch of a configured symbol, path by path. -/
theorem FetchPath.effect {durable : Bool} {rebuilt : Quote → OrderBook} {now : TimePoint}
    {built : Option Quote} {calls : List ServiceCall} {result : Except Exn Bool}
    {w' : World Market}
    (hpath : FetchPath durable fetch.symbol rebuilt now built calls result)
    (hcalls : Calls d.services (fetch.arrive s.1.1) calls w')
    (hfinal : (d.fetch fetch s).1 = (w', calls)) (hconfigured : s.2.books fetch.symbol ≠ none) :
    Effect d fetch s := by
  cases hpath with
  | cachedThrew e => exact found_effect hcalls rfl nofun hfinal (List.forall_mem_nil _)
  | hit quote hb =>
      refine found_effect hcalls rfl nofun hfinal ?_
      intro c hc
      have hstage := hb.late hc
      exact ⟨by omega, by omega⟩
  | fetchThrew e => exact asked_effect hcalls rfl hfinal hconfigured (List.forall_mem_nil _) rfl
  | flagThrew found e =>
      -- the flag is read without fail
      obtain ⟨_, _, hrest⟩ := hcalls.cons_inv
      obtain ⟨_, _, hrest⟩ := hrest.cons_inv
      obtain ⟨_, hflag, _⟩ := hrest.cons_inv
      cases (Prod.mk.inj hflag).1
  | missed cached =>
      refine asked_effect hcalls rfl hfinal hconfigured ?_ rfl
      intro c hc
      rw [List.mem_singleton.mp hc]
      nofun
  | storeThrew quote cached e =>
      refine asked_effect hcalls rfl hfinal hconfigured ?_
        (countP_storeQuote (List.forall_mem_nil _))
      intro c hc
      simp only [List.mem_cons, List.not_mem_nil, or_false] at hc
      rcases hc with rfl | rfl
      · nofun
      · nofun
  | fetched quote cached stored hb =>
      refine asked_effect hcalls rfl hfinal hconfigured ?_
        (countP_storeQuote (fun c hc => hb.late hc))
      intro c hc
      simp only [List.mem_cons] at hc
      rcases hc with rfl | rfl | hc
      · nofun
      · nofun
      · have hstage := hb.late hc
        omega

/-- The calls of a fetch, if its symbol has a book. -/
theorem fetch_calls (d : Deployment) (fetch : Fetch) (s : RunState) :
    (s.2.books fetch.symbol = none ∧ d.fetch fetch s = ((fetch.arrive s.1.1, []), s.2))
    ∨ (s.2.books fetch.symbol ≠ none
      ∧ Calls d.services (fetch.arrive s.1.1) (d.fetch fetch s).1.2 (d.fetch fetch s).1.1
      ∧ ∃ durable rebuilt now built result,
        FetchPath durable fetch.symbol rebuilt now built (d.fetch fetch s).1.2 result) := by
  cases hbook : s.2.books fetch.symbol with
  | none =>
      refine Or.inl ⟨rfl, ?_⟩
      exact congrArg Prod.snd (d.cli.logged.fetchSymbol_refused fetch.rawSymbol fetch.printData
        fetch.printMetrics ((fetch.arrive s.1.1, []), s.2) hbook)
  | some before =>
      obtain ⟨now, built, calls, m, hcalls, hpath, _⟩ :=
        d.cli.logged.fetchSymbol_run fetch.rawSymbol fetch.printData fetch.printMetrics
          ((fetch.arrive s.1.1, []), s.2) hbook
      have hlog : (d.fetch fetch s).1.2 = calls := hcalls.log
      rw [hlog]
      exact Or.inr ⟨nofun, hcalls.unlog, _, _, now, built, _, hpath⟩

/-- **What one fetch does**: it appends nothing; or it appends at most one
entry, for a response it received; or it appends what the client still held. -/
theorem fetch_effect (d : Deployment) (fetch : Fetch) (s : RunState) : Effect d fetch s := by
  rcases fetch_calls d fetch s with ⟨hbook, hrun⟩ | ⟨hbook, hcalls, _, _, _, _, _, hpath⟩
  · refine .quiet ?_ ?_ ?_ ?_
    · intro quote h
      exact h.configured hbook
    · rw [hrun]
      rfl
    · intro symbol
      rw [hrun]
      rfl
    · unfold Deployment.entries
      rw [hrun]
      rfl
  · exact hpath.effect hcalls rfl hbook

/-! ## §4. The lists. -/

/-- A fetch stores what the client answered, or stores nothing. -/
theorem FetchPath.stores {durable : Bool} {symbol : Symbol} {rebuilt : Quote → OrderBook}
    {now : TimePoint} {built : Option Quote} {calls : List ServiceCall} {result : Except Exn Bool}
    (h : FetchPath durable symbol rebuilt now built calls result) :
    (∀ c ∈ calls, c.stage ≠ 3)
    ∨ ∃ quote flag stored rest,
      calls = .getCachedQuote symbol (.ok none) :: .getQuote symbol (.ok (some quote))
        :: .lastWasCached flag :: .storeQuote symbol quote stored :: rest
      ∧ ∀ c ∈ rest, c.stage ≠ 3 := by
  have hlate : ∀ {rest : List ServiceCall}, (∀ c ∈ rest, 4 ≤ c.stage) →
      ∀ c ∈ rest, c.stage ≠ 3 := by
    intro rest hrest c hc
    have hstage := hrest c hc
    omega
  cases h with
  | storeThrew quote cached e => exact Or.inr ⟨quote, _, _, [], rfl, List.forall_mem_nil _⟩
  | fetched quote cached stored hb =>
      -- the one path with a store that returns
      exact Or.inr ⟨quote, _, _, _, rfl, hlate (fun c hc => hb.late hc)⟩
  | hit quote hb =>
      refine Or.inl ?_
      rw [List.forall_mem_cons]
      exact ⟨nofun, hlate (fun c hc => hb.late hc)⟩
  | _ => simp [ServiceCall.stage]

/-- The store of a fetch starts where its name says. -/
theorem store_starts {calls rest : List ServiceCall} {cached found : Except Exn (Option Quote)}
    {flag stored : Except Exn Bool} {quote : Quote} {w' : World Market}
    (hcalls : Calls d.services (fetch.arrive s.1.1) calls w')
    (hshape : calls = .getCachedQuote fetch.symbol cached :: .getQuote fetch.symbol found
      :: .lastWasCached flag :: .storeQuote fetch.symbol quote stored :: rest) :
    ∃ w, w.redis = (d.redis.storeQuote fetch.symbol quote (fetch.storeStart s)).2
      ∧ Calls d.services w rest w' := by
  rw [hshape] at hcalls
  obtain ⟨w₁, hcached, hcalls⟩ := hcalls.cons_inv
  obtain ⟨w₂, hfound, hcalls⟩ := hcalls.cons_inv
  obtain ⟨w₃, hflag, hcalls⟩ := hcalls.cons_inv
  obtain ⟨w₄, hstored, hcalls⟩ := hcalls.cons_inv
  obtain ⟨_, rfl⟩ := Prod.mk.inj hcached
  obtain ⟨_, rfl⟩ := Prod.mk.inj hfound
  obtain ⟨_, rfl⟩ := Prod.mk.inj hflag
  obtain ⟨_, rfl⟩ := Prod.mk.inj hstored
  exact ⟨_, rfl, hcalls⟩

/-- The entries of a fetch that stores. -/
theorem entries_of_store {rest : List ServiceCall} {cached found : Except Exn (Option Quote)}
    {flag stored : Except Exn Bool} {quote : Quote}
    (hshape : (d.fetch fetch s).1.2 = .getCachedQuote fetch.symbol cached
      :: .getQuote fetch.symbol found :: .lastWasCached flag
      :: .storeQuote fetch.symbol quote stored :: rest)
    (hrest : ∀ c ∈ rest, c.stage ≠ 3) :
    d.entries fetch s
      = if d.redis.appends fetch.symbol quote (fetch.storeStart s) = true then 1 else 0 := by
  unfold Deployment.entries
  rw [hshape, List.countP_cons_of_neg Bool.false_ne_true,
    List.countP_cons_of_neg Bool.false_ne_true, List.countP_cons_of_neg Bool.false_ne_true,
    List.countP_cons, countP_of_stage hrest, Nat.zero_add]
  rfl

/-- **What a fetch does to a history list is what the ledger counts.** -/
theorem fetch_history (d : Deployment) (fetch : Fetch) {s : RunState} {symbol : Symbol}
    {items : List Str} (h : Holds (quoteHistoryKey symbol) items s.1.1.redis) :
    ∃ items', Holds (quoteHistoryKey symbol) items' (d.fetch fetch s).1.1.redis
      ∧ ((d.appended symbol fetch s = 0 ∧ items' = items)
        ∨ (d.appended symbol fetch s = 1
          ∧ ∃ quote kept, kept <+: items ∧ items' = historyEntry quote :: kept)) := by
  have hquiet : d.entries fetch s = 0 →
      (d.fetch fetch s).1.1.redis.keys (quoteHistoryKey symbol)
        = s.1.1.redis.keys (quoteHistoryKey symbol) →
      ∃ items', Holds (quoteHistoryKey symbol) items' (d.fetch fetch s).1.1.redis
        ∧ ((d.appended symbol fetch s = 0 ∧ items' = items)
          ∨ (d.appended symbol fetch s = 1
            ∧ ∃ quote kept, kept <+: items ∧ items' = historyEntry quote :: kept)) := by
    intro hnone hsame
    refine ⟨items, ListAt.congr h hsame, Or.inl ⟨?_, rfl⟩⟩
    unfold Deployment.appended
    rw [hnone, ite_self]
  -- a fetch that is refused or stores nothing leaves the list alone
  rcases fetch_calls d fetch s with ⟨_, hrun⟩ | ⟨_, hcalls, _, _, _, _, _, hpath⟩
  · refine hquiet ?_ ?_
    · unfold Deployment.entries
      rw [hrun]
      rfl
    · rw [hrun]
      rfl
  · rcases hpath.stores with hstages | ⟨quote, flag, stored, rest, hshape, hrest⟩
    · refine hquiet (countP_of_stage hstages _) ?_
      exact calls_history hstages hcalls symbol
    · obtain ⟨w, hstored, hlate⟩ := store_starts hcalls hshape
      have hkeys := calls_history hrest hlate symbol
      rw [hstored] at hkeys
      have hstart : Holds (quoteHistoryKey symbol) items (fetch.storeStart s) :=
        ListAt.congr h ((getQuote_keepsHistory fetch.symbol (fetch.arrive s.1.1).redis).2 _
          ⟨symbol, rfl⟩)
      unfold Deployment.appended
      rw [entries_of_store hshape hrest]
      -- the store of another symbol writes another list
      by_cases hsymbol : fetch.symbol = symbol
      · subst hsymbol
        obtain ⟨kept, hkept, hlist⟩ := d.redis.storeQuote_history quote hstart
        rw [if_pos rfl]
        refine ⟨_, ListAt.congr hlist hkeys, ?_⟩
        split
        · exact Or.inr ⟨rfl, quote, kept, hkept, rfl⟩
        · exact Or.inl ⟨rfl, rfl⟩
      · have hother := (d.redis.storeQuote_keepsHistory fetch.symbol quote (fetch.storeStart s)).2
          (quoteHistoryKey symbol)
          ⟨⟨symbol, rfl⟩, fun heq => hsymbol (RedisClient.quoteHistoryKey_inj heq).symm⟩
        rw [if_neg hsymbol]
        exact ⟨items, ListAt.congr hstart (hkeys.trans hother), Or.inl ⟨rfl, rfl⟩⟩

end Fetch

/-! ## §5. Runs. -/

/-- The fetch appends a response again: its newest response is in the history,
Redis has no usable quote, the client still holds the response, and the store
reaches the history.  `n` is how often the response has been appended. -/
structure Repeats (d : Deployment) (fetch : Fetch) (s : RunState) (n : ℕ) : Prop where
  copied : 0 < n
  reused : ∃ quote, Reuses d fetch s quote
    ∧ d.redis.appends fetch.symbol quote (fetch.storeStart s) = true

/-- No fetch of the run appends a response again. -/
def NeverRepeats (d : Deployment) (fetches : List Fetch) (s₀ : RunState) : Prop :=
  ∀ pre fetch, pre ++ [fetch] <+: fetches →
    ¬ Repeats d fetch (d.run pre s₀) (d.copies fetch.symbol pre s₀ 0)

section Run

variable {d : Deployment}

/-- There is one quote to reuse. -/
theorem Reuses.unique {fetch : Fetch} {s : RunState} {quote quote' : Quote}
    (h : Reuses d fetch s quote) (h' : Reuses d fetch s quote') : quote = quote' := by
  obtain ⟨entry, hentry, _, rfl⟩ := h.held
  obtain ⟨entry', hentry', _, rfl⟩ := h'.held
  rw [hentry] at hentry'
  rw [Option.some.inj hentry']

/-- One fetch: a second copy is the work of a repeat. -/
theorem copiesAfter_le_one_iff (symbol : Symbol) (fetch : Fetch) (s : RunState) {n : ℕ}
    (hn : n ≤ 1) :
    d.copiesAfter symbol fetch s n ≤ 1 ↔ ¬ (fetch.symbol = symbol ∧ Repeats d fetch s n) := by
  unfold Deployment.copiesAfter Deployment.appended
  cases fetch_effect d fetch s with
  | quiet hno _ hsame hnone =>
      rw [if_pos (hsame symbol), hnone]
      constructor
      · rintro _ ⟨_, _, quote, hreuses, _⟩
        exact hno quote hreuses
      · intro _
        split <;> omega
  | answered hno _ hcount hone =>
      -- a new response starts the count again
      rw [hcount symbol]
      constructor
      · rintro _ ⟨_, _, quote, hreuses, _⟩
        exact hno quote hreuses
      · intro _
        by_cases hsymbol : fetch.symbol = symbol
        · rw [if_pos hsymbol, if_pos hsymbol, if_neg (by omega)]
          omega
        · rw [if_neg hsymbol, if_neg hsymbol]
          split <;> omega
  | reused quote hreuses _ hsame hentries =>
      rw [if_pos (hsame symbol), hentries]
      constructor
      · rintro hle ⟨hsymbol, hcopied, quote', hreuses', happends⟩
        rw [if_pos hsymbol, hreuses.unique hreuses', if_pos happends] at hle
        omega
      · intro hno
        by_cases hsymbol : fetch.symbol = symbol
        · rw [if_pos hsymbol]
          split
          next happends =>
            have hzero : ¬ 0 < n := fun hcopied => hno ⟨hsymbol, hcopied, quote, hreuses, happends⟩
            omega
          next => omega
        · rw [if_neg hsymbol]
          omega

/-- **A run keeps to one copy of each response exactly if no fetch repeats.** -/
theorem copies_le_one_iff (s₀ : RunState) (fetches : List Fetch) :
    NeverRepeats d fetches s₀
      ↔ ∀ pre, pre <+: fetches → ∀ symbol, d.copies symbol pre s₀ 0 ≤ 1 := by
  constructor
  · intro hno pre
    -- up to here at most one copy, so a second comes from this fetch alone
    induction pre using List.reverseRecOn with
    | nil =>
        intro _ symbol
        show 0 ≤ 1
        omega
    | append_singleton pre fetch ih =>
        intro hpre symbol
        have hbefore := ih ((List.prefix_append pre [fetch]).trans hpre) symbol
        rw [d.copies_snoc, copiesAfter_le_one_iff symbol fetch _ hbefore]
        rintro ⟨rfl, hrepeats⟩
        exact hno pre fetch hpre hrepeats
  · intro hone pre fetch hpre hrepeats
    have hbefore := hone pre ((List.prefix_append pre [fetch]).trans hpre) fetch.symbol
    have hafter := hone (pre ++ [fetch]) hpre fetch.symbol
    rw [d.copies_snoc, copiesAfter_le_one_iff fetch.symbol fetch _ hbefore] at hafter
    exact hafter ⟨rfl, hrepeats⟩

/-- The ledger of a symbol: a quote that the client holds was received, and of
the responses received one is not in the history as long as the newest is
not. -/
structure Balanced (d : Deployment) (symbol : Symbol) (s : RunState) (appends copies : ℕ) :
    Prop where
  cached : s.1.1.client.cache symbol ≠ none → 0 < successes d symbol s.1.1.outside
  counted : appends ≤ successes d symbol s.1.1.outside
  pending : copies = 0 → 0 < successes d symbol s.1.1.outside →
    appends < successes d symbol s.1.1.outside

/-- Without a new response an entry is due only as long as the newest response
has none. -/
theorem Balanced.unanswered {symbol : Symbol} {s s' : RunState} {appends copies n : ℕ}
    (h : Balanced d symbol s appends copies)
    (hcache : s'.1.1.client.cache symbol = s.1.1.client.cache symbol)
    (hsame : successes d symbol s'.1.1.outside = successes d symbol s.1.1.outside) (hone : n ≤ 1)
    (hdue : n = 1 → copies = 0 ∧ s.1.1.client.cache symbol ≠ none) :
    Balanced d symbol s' (appends + n) (copies + n) := by
  obtain ⟨hcached, hcounted, hpending⟩ := h
  refine ⟨?_, ?_, ?_⟩
  · rw [hcache, hsame]
    exact hcached
  · rw [hsame]
    by_cases hentry : n = 1
    · obtain ⟨hzero, hheld⟩ := hdue hentry
      have hlt := hpending hzero (hcached hheld)
      omega
    · omega
  · rw [hsame]
    intro hzero hpositive
    have hlt := hpending (by omega) hpositive
    omega

/-- A new response, stored at most once. -/
theorem Balanced.answered {symbol : Symbol} {s s' : RunState} {appends copies n : ℕ}
    (h : Balanced d symbol s appends copies)
    (hcount : successes d symbol s'.1.1.outside = successes d symbol s.1.1.outside + 1)
    (hone : n ≤ 1) : Balanced d symbol s' (appends + n) (0 + n) := by
  have hcounted := h.counted
  refine ⟨fun _ => ?_, ?_, fun hzero _ => ?_⟩
  · omega
  · omega
  · omega

/-- A fetch that does not repeat keeps the balance. -/
theorem Balanced.fetch {symbol : Symbol} {s : RunState} {appends copies : ℕ}
    (h : Balanced d symbol s appends copies) (fetch : Fetch)
    (hno : fetch.symbol = symbol → ¬ Repeats d fetch s copies) :
    Balanced d symbol (d.fetch fetch s) (appends + d.appended symbol fetch s)
      (d.copiesAfter symbol fetch s copies) := by
  unfold Deployment.copiesAfter Deployment.appended
  cases fetch_effect d fetch s with
  | quiet _ hcache hsame hnone =>
      -- no response and no entry: nothing moves
      rw [if_pos (hsame symbol), hnone, ite_self]
      exact h.unanswered (by rw [hcache]) (hsame symbol) (by omega) (fun hentry => by omega)
  | answered _ hcache hcount hone =>
      have hsuccesses := hcount symbol
      by_cases hsymbol : fetch.symbol = symbol
      · rw [if_pos hsymbol] at hsuccesses
        rw [if_pos hsymbol, if_neg (by omega)]
        exact h.answered hsuccesses hone
      · -- the response is for another symbol
        rw [if_neg hsymbol, Nat.add_zero] at hsuccesses
        rw [if_pos hsuccesses, if_neg hsymbol]
        exact h.unanswered (hcache symbol hsymbol) hsuccesses (by omega) (fun hentry => by omega)
  | reused quote hreuses hcache hsame hentries =>
      rw [if_pos (hsame symbol), hentries]
      refine h.unanswered (by rw [hcache]) (hsame symbol) (by split_ifs <;> omega) ?_
      intro hentry
      by_cases hsymbol : fetch.symbol = symbol
      · rw [if_pos hsymbol] at hentry
        -- the response was not in the history yet
        have happends : d.redis.appends fetch.symbol quote (fetch.storeStart s) = true := by
          by_contra hskips
          rw [if_neg hskips] at hentry
          omega
        have hzero : ¬ 0 < copies := fun hcopied => hno hsymbol ⟨hcopied, quote, hreuses, happends⟩
        obtain ⟨entry, hheld, _⟩ := hreuses.held
        rw [hsymbol] at hheld
        refine ⟨by omega, ?_⟩
        rw [hheld]
        exact Option.some_ne_none entry
      · rw [if_neg hsymbol] at hentry
        omega

/-- A run that never repeats stays balanced. -/
theorem run_balanced {s₀ : RunState} {fetches : List Fetch}
    (hclient : ∀ symbol, s₀.1.1.client.cache symbol = none) (hno : NeverRepeats d fetches s₀)
    (symbol : Symbol) :
    ∀ pre, pre <+: fetches →
      Balanced d symbol (d.run pre s₀) (d.appends symbol pre s₀) (d.copies symbol pre s₀ 0) := by
  intro pre
  induction pre using List.reverseRecOn with
  | nil =>
      intro _
      refine ⟨?_, Nat.zero_le _, fun _ hpositive => hpositive⟩
      intro hheld
      exact absurd (hclient symbol) hheld
  | append_singleton pre fetch ih =>
      intro hpre
      have hbefore := ih ((List.prefix_append pre [fetch]).trans hpre)
      rw [d.run_snoc, d.appends_snoc, d.copies_snoc]
      refine hbefore.fetch fetch ?_
      rintro rfl
      exact hno pre fetch hpre

/-- The list under the key has no more entries than the ledger. -/
theorem run_history (d : Deployment) (fetches : List Fetch) {s₀ : RunState} {symbol : Symbol}
    (h : Holds (quoteHistoryKey symbol) [] s₀.1.1.redis) :
    ∃ items, Holds (quoteHistoryKey symbol) items (d.run fetches s₀).1.1.redis
      ∧ items.length ≤ d.appends symbol fetches s₀ := by
  induction fetches using List.reverseRecOn with
  | nil => exact ⟨[], h, Nat.le_refl 0⟩
  | append_singleton pre fetch ih =>
      obtain ⟨items, hitems, hlength⟩ := ih
      rw [d.run_snoc, d.appends_snoc]
      obtain ⟨items', hitems', ⟨hnone, rfl⟩ | ⟨hone, quote, kept, hkept, rfl⟩⟩ :=
        fetch_history d fetch hitems
      · refine ⟨items', hitems', ?_⟩
        omega
      · refine ⟨_, hitems', ?_⟩
        have hshorter := hkept.length_le
        rw [List.length_cons]
        omega

/-- **The list never outgrows the responses**, if no fetch repeats one. -/
theorem history_length_le {s₀ : RunState} {fetches : List Fetch} {symbol : Symbol}
    (hclient : ∀ symbol, s₀.1.1.client.cache symbol = none)
    (h : Holds (quoteHistoryKey symbol) [] s₀.1.1.redis) (hno : NeverRepeats d fetches s₀) :
    ∃ items, Holds (quoteHistoryKey symbol) items (d.run fetches s₀).1.1.redis
      ∧ items.length ≤ successes d symbol (d.run fetches s₀).1.1.outside := by
  obtain ⟨items, hitems, hlength⟩ := run_history d fetches h
  have hcounted := (run_balanced hclient hno symbol fetches List.prefix_rfl).counted
  exact ⟨items, hitems, hlength.trans hcounted⟩

/-- **When the history has no duplicates.**  In a run from a new client each
response is appended at most once exactly if no fetch repeats one; and then
there are never more entries than successful responses. -/
theorem quoteHistory_once_iff (d : Deployment) (s₀ : RunState)
    (hclient : ∀ symbol, s₀.1.1.client.cache symbol = none) (fetches : List Fetch) :
    (NeverRepeats d fetches s₀
      ↔ ∀ pre, pre <+: fetches → ∀ symbol, d.copies symbol pre s₀ 0 ≤ 1)
    ∧ (NeverRepeats d fetches s₀ → ∀ pre, pre <+: fetches → ∀ symbol,
      d.appends symbol pre s₀ ≤ successes d symbol (d.run pre s₀).1.1.outside) := by
  refine ⟨copies_le_one_iff s₀ fetches, ?_⟩
  intro hno pre hpre symbol
  exact (run_balanced hclient hno symbol pre hpre).counted

/-- The second of two fetches of IBM finds the quote of the first in Redis. -/
theorem quoteHistory_once_iff_ibm :
    (∀ pre, pre <+: [ibmFetch 0, ibmFetch 30] → ∀ symbol,
      sampleDeployment.copies symbol pre sampleRun 0 ≤ 1)
    ∧ sampleDeployment.appends "IBM".toList [ibmFetch 0, ibmFetch 30] sampleRun
      ≤ successes sampleDeployment "IBM".toList
        (sampleDeployment.run [ibmFetch 0, ibmFetch 30] sampleRun).1.1.outside := by
  have hno : NeverRepeats sampleDeployment [ibmFetch 0, ibmFetch 30] sampleRun := by
    intro pre fetch hpre hrepeats
    rcases pre with _ | ⟨first, _ | ⟨second, rest⟩⟩
    · exact absurd hrepeats.copied (Nat.lt_irrefl 0)
    · obtain ⟨rfl, hrest⟩ := List.cons_prefix_cons.mp hpre
      obtain ⟨rfl, _⟩ := List.cons_prefix_cons.mp hrest
      -- the second fetch would have to miss in Redis, where the entry still lives
      obtain ⟨_, hreuses, _⟩ := hrepeats.reused
      have hfound : ((RedisClient.getQuote (ibmFetch 30).symbol ((ibmFetch 30).arrive
          (sampleDeployment.run [ibmFetch 0] sampleRun).1.1).redis).1.toOption.bind id).isSome
          = true := by
        decide +kernel
      rw [hreuses.missed] at hfound
      cases hfound
    · have hlength := hpre.length_le
      simp at hlength
  obtain ⟨hiff, hledger⟩ := quoteHistory_once_iff sampleDeployment sampleRun (fun _ => rfl)
    [ibmFetch 0, ibmFetch 30]
  exact ⟨hiff.mp hno, hledger hno _ List.prefix_rfl _⟩

/-- Redis has dropped the quote, the client has not: the same response is
appended again. -/
theorem quoteHistory_repeated :
    sampleDeployment.appends "IBM".toList [ibmFetch 0, ibmFetch 61] sampleRun = 2
    ∧ successes sampleDeployment "IBM".toList
      (sampleDeployment.run [ibmFetch 0, ibmFetch 61] sampleRun).1.1.outside = 1
    ∧ sampleDeployment.copies "IBM".toList [ibmFetch 0, ibmFetch 61] sampleRun 0 = 2 := by
  decide +kernel

end Run

end FinCore.Cli

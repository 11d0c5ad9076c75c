/-
  FinCore.Cli.Staleness
  ─────────────────────
  How old a quote can be when `fetch_symbol` builds a book from it.

  A quote passes two caches: the client's own, for `cache_ttl`, and then Redis,
  for `quote_ttl` from the moment it is stored there.  The invariant of a run
  gives every client entry the response it was parsed from, and every quote in
  Redis the response and the instant of its store; the two lifetimes add up.
-/
import FinCore.Api.CacheHistory
import FinCore.Cli.CacheAside
import FinCore.Storage.QuoteTtl

namespace FinCore.Cli

open FinCore.Cxx FinCore.Api FinCore.Redis FinCore.Storage
open FinCore.Storage.RedisClient (quoteKeys quoteFields decodeQuote)

/-! ## §1. The outside and the deployment. -/

/-- A response of the API, and the instant of the steady clock at which it was
received. -/
structure Response where
  symbol : Symbol
  text : Str
  receivedAt : ℤ

/-- What is outside the process: the clock, what the API answers at this
instant, and the responses it has given so far. -/
structure Market where
  now : ℤ
  answer : Symbol → Except Exn Str
  received : List Response := []

/-- Ask the API. -/
def Market.request (symbol : Symbol) : Action Market Exn Str := fun market =>
  match market.answer symbol with
  | .error e => (.error e, market)
  | .ok text =>
      (.ok text, { market with received := market.received ++ [⟨symbol, text, market.now⟩] })

/-- Everything a CLI is built from. -/
structure Deployment where
  settings : Settings
  redis : RedisClient
  postgres : Bool
  platform : Platform
  /-- The wall clock at an instant of the steady clock. -/
  wallClock : ℤ → Domain.Timestamp
  bookClock : RedisWorld → TimePoint
  symbols : List Symbol
  defaultPollSeconds : ℤ
  host : Host

namespace Deployment

variable (d : Deployment)

def client : AlphaVantageClient Market where
  apiKey := d.settings.apiKey
  cacheTtl := d.settings.cacheTtl
  fetchFunction := some Market.request
  transport := fun _ market => (.initFailed, market)
  steadyNow := fun market => (market.now, market)
  mktime := d.settings.mktime
  apiKey_ne := d.settings.apiKey_ne

def backends : Backends Market where
  avClient := d.client
  redis := d.redis
  postgres := d.postgres
  platform := d.platform
  systemNow := fun market => (d.wallClock market.now, market)
  bookClock := d.bookClock

def services : CliServices (World Market) := d.backends.makeCliServices

def cli : FinCoreCli (World Market) where
  services := d.services
  symbols := d.symbols
  defaultPollSeconds := d.defaultPollSeconds
  host := d.host

end Deployment

/-! ## §2. Runs of fetches. -/

/-- A `fetch_symbol` at one instant, and what the API would answer then. -/
structure Fetch where
  rawSymbol : Str
  time : ℤ
  answer : Symbol → Except Exn Str
  printData : Bool := false
  printMetrics : Bool := false

/-- The state between two fetches, with the service calls of the last one. -/
abbrev RunState := (World Market × List ServiceCall) × CliState

namespace Fetch

def symbol (fetch : Fetch) : Symbol := normalizeSymbol fetch.rawSymbol

/-- The clocks move on to the instant of the fetch. -/
def arrive (fetch : Fetch) (w : World Market) : World Market :=
  { w with
    outside := { w.outside with now := fetch.time, answer := fetch.answer }
    redis := { w.redis with now := fetch.time } }

end Fetch

namespace Deployment

variable (d : Deployment)

/-- The state after a fetch, whatever it returns or throws. -/
def fetch (fetch : Fetch) (s : RunState) : RunState :=
  (d.cli.logged.fetchSymbol fetch.rawSymbol fetch.printData fetch.printMetrics
    ((fetch.arrive s.1.1, []), s.2)).2

def run (fetches : List Fetch) (s : RunState) : RunState :=
  fetches.foldl (fun s fetch => d.fetch fetch s) s

theorem run_snoc (fetches : List Fetch) (fetch : Fetch) (s : RunState) :
    d.run (fetches ++ [fetch]) s = d.fetch fetch (d.run fetches s) := by
  unfold run
  rw [List.foldl_append]
  rfl

end Deployment

/-- The four commands of a `store_quote` that starts here fail at the first or
run to the end. -/
def StoreCompletes (w : RedisWorld) : Prop :=
  w.faults w.issued = none → ∀ k < 4, w.faults (w.issued + k) = none

/-- Where the `store_quote` of a fetch starts: Redis has been read. -/
def Fetch.storeStart (fetch : Fetch) (s : RunState) : RedisWorld :=
  (RedisClient.getQuote fetch.symbol (fetch.arrive s.1.1).redis).2

/-- The start of a run: a new client, and no quote in Redis, whose commands take
no time. -/
structure Started (s : RunState) : Prop where
  client : s.1.1.client = {}
  received : s.1.1.outside.received = []
  quotes : ∀ symbol, s.1.1.redis.keys (RedisClient.quoteKey symbol) = none
  instant : ∀ n, s.1.1.redis.delays n = 0

/-! ## §3. Where quotes come from. -/

section Provenance

variable (d : Deployment)

/-- The response is for the symbol and says this quote. -/
def Response.Says (response : Response) (symbol : Symbol) (quote : Quote) : Prop :=
  response.symbol = symbol ∧ d.client.acceptResponse symbol response.text = some quote

/-- The response was received less than `age` before `t`, or at `t`. -/
def Response.Within (response : Response) (age t : ℤ) : Prop :=
  t - age < response.receivedAt ∨ response.receivedAt = t

/-- A quote fit to be stored in Redis at `t`. -/
def Young (received : List Response) (t : ℤ) (symbol : Symbol) (quote : Quote) : Prop :=
  ∃ response ∈ received, response.Says d symbol quote ∧ response.Within d.client.cacheTtlNs t

/-- A quote that a fetch at `t` may use: as the API said it, or as Redis
renders that. -/
def Fresh (received : List Response) (t : ℤ) (symbol : Symbol) (quote : Quote) : Prop :=
  ∃ response ∈ received, ∃ said, response.Says d symbol said
    ∧ (quote = said ∨ quote = decodeQuote symbol (quoteFields said))
    ∧ response.Within (d.client.cacheTtlNs + d.redis.quoteTtlNs) t

/-- A hash stored at some instant from a quote that was young then. -/
def StoredYoung (received : List Response) (symbol : Symbol) (entry : Entry) : Prop :=
  ∃ storedAt quote old, Young d received storedAt symbol quote
    ∧ entry = ⟨.hash (setFields old (quoteFields quote)), some (storedAt + d.redis.quoteTtlNs)⟩

/-- What an observer of a run knows of the two caches. -/
structure Provenance (w : World Market) : Prop where
  /-- Every client entry is what a response said when it was received. -/
  client : ∀ symbol entry, w.client.cache symbol = some entry →
    ∃ response ∈ w.outside.received, response.Says d symbol entry.quote
      ∧ response.receivedAt = entry.fetchedAt
  redis : ∀ symbol entry, w.redis.keys (RedisClient.quoteKey symbol) = some entry →
    StoredYoung d w.outside.received symbol entry
  instant : ∀ n, w.redis.delays n = 0

variable {d}

theorem Young.mono {received received' : List Response} {t : ℤ} {symbol : Symbol} {quote : Quote}
    (h : Young d received t symbol quote) (hsub : received ⊆ received') :
    Young d received' t symbol quote := by
  obtain ⟨response, hmem, hsays, hwithin⟩ := h
  exact ⟨response, hsub hmem, hsays, hwithin⟩

theorem Fresh.mono {received received' : List Response} {t : ℤ} {symbol : Symbol} {quote : Quote}
    (h : Fresh d received t symbol quote) (hsub : received ⊆ received') :
    Fresh d received' t symbol quote := by
  obtain ⟨response, hmem, hrest⟩ := h
  exact ⟨response, hsub hmem, hrest⟩

theorem StoredYoung.mono {received received' : List Response} {symbol : Symbol} {entry : Entry}
    (h : StoredYoung d received symbol entry) (hsub : received ⊆ received') :
    StoredYoung d received' symbol entry := by
  obtain ⟨storedAt, quote, old, hyoung, hentry⟩ := h
  exact ⟨storedAt, quote, old, hyoung.mono hsub, hentry⟩

/-- What the client returns may be used at once. -/
theorem Young.fresh {received : List Response} {t : ℤ} {symbol : Symbol} {quote : Quote}
    (h : Young d received t symbol quote) : Fresh d received t symbol quote := by
  obtain ⟨response, hmem, hsays, hwithin⟩ := h
  have hpos : 0 < d.redis.quoteTtlNs := Int.mul_pos d.redis.quoteTtl_pos (by decide)
  refine ⟨response, hmem, quote, hsays, Or.inl rfl, ?_⟩
  rcases hwithin with hlt | heq
  · left
    omega
  · exact Or.inr heq

/-- What Redis still has may be used: it was young when it was stored, less
than a `quote_ttl` ago. -/
theorem StoredYoung.fresh (hA : 0 ≤ d.settings.cacheTtl) {received : List Response} {t : ℤ}
    {symbol : Symbol} {fields : List (Str × Str)} {expireAt : Option ℤ}
    (h : StoredYoung d received symbol ⟨.hash fields, expireAt⟩)
    (hlive : Entry.liveAt t ⟨.hash fields, expireAt⟩ = true) :
    Fresh d received t symbol (decodeQuote symbol fields) := by
  obtain ⟨storedAt, said, old, ⟨response, hmem, hsays, hwithin⟩, hentry⟩ := h
  obtain ⟨hfields, hexpire⟩ := Entry.mk.inj hentry
  obtain rfl := Value.hash.inj hfields
  subst hexpire
  have hnow : t < storedAt + d.redis.quoteTtlNs := of_decide_eq_true hlive
  have hage : 0 ≤ d.client.cacheTtlNs := Int.mul_nonneg hA (by decide)
  refine ⟨response, hmem, said, hsays, Or.inr (RedisClient.decodeQuote_setFields _ _ _), ?_⟩
  left
  rcases hwithin with hlt | heq
  · omega
  · omega

end Provenance

/-! ## §4. What each service does to the caches. -/

section Steps

variable {d : Deployment}

/-- The world at the instant `t`. -/
structure At (t : ℤ) (w : World Market) : Prop where
  outside : w.outside.now = t
  redis : w.redis.now = t

/-- A call at `t`: the invariant holds again, and nothing received is lost. -/
structure Sound (d : Deployment) (t : ℤ) (w w' : World Market) : Prop where
  provenance : Provenance d w'
  now : At t w'
  received : w.outside.received ⊆ w'.outside.received
  faults : w'.redis.faults = w.redis.faults

/-- Commands take no time. -/
theorem Provenance.arrive {w : World Market} (h : Provenance d w) :
    w.redis.arrive.now = w.redis.now := by
  show w.redis.now + w.redis.delays w.redis.issued = w.redis.now
  rw [h.instant]
  omega

/-- The invariant survives whatever touches no quote and no client entry. -/
theorem Provenance.frame {t : ℤ} {w w' : World Market} (h : Provenance d w) (hnow : At t w)
    (hclient : w'.client.cache = w.client.cache) (houtside : w'.outside = w.outside)
    (hframe : RedisWorld.Frame quoteKeys w.redis w'.redis) : Sound d t w w' where
  provenance :=
    { client := by
        rw [hclient, houtside]
        exact h.client
      redis := by
        intro symbol entry hentry
        rw [hframe.2 _ ⟨symbol, rfl⟩] at hentry
        rw [houtside]
        exact h.redis symbol entry hentry
      instant := by
        rw [hframe.1.delays_eq]
        exact h.instant }
  now := ⟨by rw [houtside, hnow.outside], by rw [hframe.1.instant h.instant, hnow.redis]⟩
  received := by
    rw [houtside]
    exact List.Subset.refl _
  faults := hframe.1.faults_eq

/-- Reading Redis. -/
theorem getCachedQuote_sound (hA : 0 ≤ d.settings.cacheTtl) {t : ℤ} {symbol : Symbol}
    {r : Except Exn (Option Quote)} {w w' : World Market} (h : Provenance d w) (hnow : At t w)
    (hrun : d.services.getCachedQuote symbol w = (r, w')) :
    Sound d t w w' ∧ w'.redis = (RedisClient.getQuote symbol w.redis).2
      ∧ ∀ quote, r = .ok (some quote) → Fresh d w.outside.received t symbol quote := by
  obtain ⟨hr, rfl⟩ := Prod.mk.inj hrun
  obtain ⟨hlater, hkeep⟩ := RedisClient.getQuote_keeps symbol w.redis
  refine ⟨⟨⟨h.client, ?_, ?_⟩, ⟨hnow.outside, ?_⟩, List.Subset.refl _, hlater.faults_eq⟩, rfl, ?_⟩
  · intro other entry hentry
    by_cases hother : other = symbol
    · subst hother
      -- what is left under the key was there before
      rcases RedisClient.getQuote_own other w.redis with hkeys | hkeys
      · exact h.redis other entry (hkeys.symm.trans hentry)
      · exact h.redis other entry (lookup_eq_some.mp (hkeys.symm.trans hentry)).1
    · have hne : RedisClient.quoteKey other ∈ quoteKeys \ {RedisClient.quoteKey symbol} :=
        ⟨⟨other, rfl⟩, fun hkey => hother (RedisClient.quoteKey_inj hkey)⟩
      exact h.redis other entry ((hkeep _ hne).symm.trans hentry)
  · intro n
    show (RedisClient.getQuote symbol w.redis).2.delays n = 0
    rw [hlater.delays_eq]
    exact h.instant n
  · exact (hlater.instant h.instant).trans hnow.redis
  · intro quote hquote
    have hget : RedisClient.getQuote symbol w.redis
        = (.ok (some quote), (RedisClient.getQuote symbol w.redis).2) :=
      Prod.ext (hr.trans hquote) rfl
    obtain ⟨fields, expireAt, hfound, rfl⟩ := RedisClient.getQuote_eq_some hget
    obtain ⟨hkey, hlive⟩ := lookup_eq_some.mp hfound
    rw [h.arrive, hnow.redis] at hlive
    exact (h.redis symbol _ hkey).fresh hA hlive

/-- What a request to the client comes to. -/
inductive ClientStep (d : Deployment) (symbol : Symbol) (market : Market) (state : ClientState) :
    Except Exn (Option Quote) × (Market × ClientState) → Prop where
  | hit (entry : CacheEntry) : state.cache symbol = some entry →
      market.now - entry.fetchedAt < d.client.comparedTtlNs →
      ClientStep d symbol market state
        (.ok (some entry.quote), (market, { state with lastWasCached := true }))
  | failed (r : Except Exn (Option Quote)) (market' : Market) :
      (∀ quote, r ≠ .ok (some quote)) → market'.now = market.now →
      market.received ⊆ market'.received →
      ClientStep d symbol market state (r, (market', { state with lastWasCached := false }))
  | fetched (text : Str) (quote : Quote) : d.client.acceptResponse symbol text = some quote →
      ClientStep d symbol market state
        (.ok (some quote),
          ({ market with received := market.received ++ [⟨symbol, text, market.now⟩] },
            ClientState.store symbol ⟨quote, market.now⟩ { state with lastWasCached := false }))

theorem getQuoteFresh_step {symbol : Symbol} (hne : symbol ≠ []) (market : Market)
    (state : ClientState) :
    ClientStep d symbol market state (d.client.getQuoteFresh symbol (market, state)) := by
  have hfetch : d.client.fetch symbol market = Market.request symbol market := rfl
  unfold Market.request at hfetch
  cases hanswer : market.answer symbol with
  | error e =>
      rw [hanswer] at hfetch
      rw [d.client.getQuoteFresh_throw hne hfetch]
      exact .failed (.error e) market (fun _ h => by cases h) rfl (List.Subset.refl _)
  | ok text =>
      rw [hanswer] at hfetch
      cases haccept : d.client.acceptResponse symbol text with
      | none =>
          rw [d.client.getQuoteFresh_none hne hfetch haccept]
          exact .failed (.ok none) _ (fun _ h => by cases h) rfl (List.subset_append_left _ _)
      | some quote =>
          rw [d.client.getQuoteFresh_some hne hfetch haccept]
          exact .fetched text quote haccept

theorem getQuote_step (symbol : Symbol) (market : Market) (state : ClientState) :
    ClientStep d symbol market state (d.client.getQuote symbol (market, state)) := by
  by_cases hne : symbol = []
  · subst hne
    rw [d.client.getQuote_empty]
    exact .failed (.ok none) market (fun _ h => by cases h) rfl (List.Subset.refl _)
  · cases hentry : state.cache symbol with
    | none =>
        rw [d.client.getQuote_absent hne hentry]
        exact getQuoteFresh_step hne market state
    | some entry =>
        by_cases hage : market.now - entry.fetchedAt < d.client.comparedTtlNs
        · rw [d.client.getQuote_hit hne hentry hage]
          exact .hit entry hentry hage
        · rw [d.client.getQuote_expired hne hentry hage]
          exact getQuoteFresh_step hne market state

/-- A response that is a quote becomes the entry of its symbol. -/
theorem Provenance.answered {symbol : Symbol} {text : Str} {quote : Quote} {w : World Market}
    (h : Provenance d w) (haccept : d.client.acceptResponse symbol text = some quote) :
    Provenance d { w with
      outside := { w.outside with
        received := w.outside.received ++ [⟨symbol, text, w.outside.now⟩] }
      client := ClientState.store symbol ⟨quote, w.outside.now⟩
        { w.client with lastWasCached := false } } := by
  have hsub : w.outside.received ⊆ w.outside.received ++ [⟨symbol, text, w.outside.now⟩] :=
    List.subset_append_left _ _
  refine ⟨?_, ?_, h.instant⟩
  · intro other entry hentry
    change Function.update w.client.cache symbol (some ⟨quote, w.outside.now⟩) other
      = some entry at hentry
    by_cases hother : other = symbol
    · subst hother
      rw [Function.update_self] at hentry
      obtain rfl := Option.some.inj hentry
      -- the new entry is the response just received
      exact ⟨_, List.mem_append_right _ (List.mem_singleton_self _), ⟨rfl, haccept⟩, rfl⟩
    · rw [Function.update_of_ne hother] at hentry
      obtain ⟨response, hmem, hrest⟩ := h.client other entry hentry
      exact ⟨response, hsub hmem, hrest⟩
  · intro other entry hentry
    exact (h.redis other entry hentry).mono hsub

/-- Asking the client, which asks the API if it has to. -/
theorem getQuote_sound (hA : 0 ≤ d.settings.cacheTtl) {t : ℤ} {symbol : Symbol}
    {r : Except Exn (Option Quote)} {w w' : World Market} (h : Provenance d w) (hnow : At t w)
    (hrun : d.services.getQuote symbol w = (r, w')) :
    Sound d t w w' ∧ w'.redis = w.redis
      ∧ ∀ quote, r = .ok (some quote) → Young d w'.outside.received t symbol quote := by
  have hstep : ClientStep d symbol w.outside w.client
      (d.client.getQuote symbol (w.outside, w.client)) := getQuote_step symbol w.outside w.client
  rcases hclient : d.client.getQuote symbol (w.outside, w.client) with ⟨r', market, state⟩
  have hworld : d.services.getQuote symbol w
      = (r', { w with outside := market, client := state }) := by
    show Backends.onAvClient (d.client.getQuote symbol) w = _
    unfold Backends.onAvClient Action.zoom
    rw [hclient]
  rw [hworld] at hrun
  obtain ⟨rfl, rfl⟩ := Prod.mk.inj hrun
  rw [hclient] at hstep
  cases hstep with
  | hit entry hentry hage =>
      refine ⟨⟨⟨h.client, h.redis, h.instant⟩, ⟨hnow.outside, hnow.redis⟩, List.Subset.refl _, rfl⟩,
        rfl, ?_⟩
      intro quote hquote
      obtain rfl := Option.some.inj (Except.ok.inj hquote)
      obtain ⟨response, hmem, hsays, hat⟩ := h.client symbol entry hentry
      -- the entry is served because it is younger than the cache TTL
      rw [hnow.outside] at hage
      have hlifetime : d.client.comparedTtlNs ≤ d.client.cacheTtlNs :=
        AlphaVantageClient.comparedTtlNs_le hA
      refine ⟨response, hmem, hsays, Or.inl ?_⟩
      omega
  | failed _ _ hfail hclock hsub =>
      -- nothing is stored; what was received may have grown
      refine ⟨⟨⟨?_, ?_, h.instant⟩, ⟨hclock.trans hnow.outside, hnow.redis⟩, hsub, rfl⟩, rfl, ?_⟩
      · intro other entry hentry
        obtain ⟨response, hmem, hrest⟩ := h.client other entry hentry
        exact ⟨response, hsub hmem, hrest⟩
      · intro other entry hentry
        exact (h.redis other entry hentry).mono hsub
      · intro quote hquote
        exact absurd hquote (hfail quote)
  | fetched text quote haccept =>
      -- the quote is the newest response
      have hlast : (⟨symbol, text, w.outside.now⟩ : Response)
          ∈ w.outside.received ++ [⟨symbol, text, w.outside.now⟩] :=
        List.mem_append_right _ (List.mem_singleton_self _)
      refine ⟨⟨h.answered haccept, ⟨hnow.outside, hnow.redis⟩, List.subset_append_left _ _, rfl⟩,
        rfl, ?_⟩
      intro said hsaid
      obtain rfl := Option.some.inj (Except.ok.inj hsaid)
      exact ⟨_, hlast, ⟨rfl, haccept⟩, Or.inr hnow.outside⟩

/-- Storing a young quote, all four commands or none. -/
theorem storeQuote_sound {t : ℤ} {symbol : Symbol} {quote : Quote} {r : Except Exn Bool}
    {w w' : World Market} (h : Provenance d w) (hnow : At t w)
    (hyoung : Young d w.outside.received t symbol quote) (hwhole : StoreCompletes w.redis)
    (hrun : d.services.storeQuote symbol quote w = (r, w')) : Sound d t w w' := by
  obtain ⟨_, rfl⟩ := Prod.mk.inj hrun
  show Sound d t w { w with redis := (d.redis.storeQuote symbol quote w.redis).2 }
  obtain ⟨hlater, hkeep⟩ := d.redis.storeQuote_keeps symbol quote w.redis
  have hsame : (d.redis.storeQuote symbol quote w.redis).2.now = t :=
    (hlater.instant h.instant).trans hnow.redis
  have hhash : ∀ entry,
      lookup w.redis.arrive.now w.redis.keys (RedisClient.quoteKey symbol) = some entry →
      ∃ fields, entry.value = .hash fields := by
    intro entry hentry
    obtain ⟨_, _, _, _, rfl⟩ := h.redis symbol entry (lookup_eq_some.mp hentry).1
    exact ⟨_, rfl⟩
  refine ⟨⟨h.client, ?_, ?_⟩, ⟨hnow.outside, hsame⟩, List.Subset.refl _, hlater.faults_eq⟩
  · intro other entry hentry
    -- only the key of the stored symbol is written
    by_cases hother : other = symbol
    · subst hother
      rcases d.redis.storeQuote_own other quote w.redis hhash with
        ⟨_, hkeys⟩ | ⟨hset, old, ⟨hexp, _⟩ | ⟨_, storedAt, hge, hle, hkeys⟩⟩
      · exact h.redis other entry (hkeys.symm.trans hentry)
      · -- a hash that is written has its expiry set, too
        exact absurd (hwhole hset 1 (by decide)) hexp
      · -- the expiry counts from the instant of the fetch
        have hat : storedAt = t := by
          rw [h.arrive, hnow.redis] at hge
          rw [hsame] at hle
          omega
        subst hat
        obtain ⟨stored, hstored, rfl⟩ := Option.map_eq_some_iff.mp (hkeys.symm.trans hentry)
        obtain rfl := Option.some.inj (Option.filter_eq_some_iff.mp hstored).1
        exact ⟨storedAt, quote, old, hyoung, rfl⟩
    · have hne : RedisClient.quoteKey other ∈ quoteKeys \ {RedisClient.quoteKey symbol} :=
        ⟨⟨other, rfl⟩, fun hkey => hother (RedisClient.quoteKey_inj hkey)⟩
      exact h.redis other entry ((hkeep _ hne).symm.trans hentry)
  · intro n
    show (d.redis.storeQuote symbol quote w.redis).2.delays n = 0
    rw [hlater.delays_eq]
    exact h.instant n

theorem Sound.trans {t : ℤ} {w w₁ w₂ : World Market} (h : Sound d t w w₁) (h' : Sound d t w₁ w₂) :
    Sound d t w w₂ :=
  ⟨h'.provenance, h'.now, List.Subset.trans h.received h'.received, h'.faults.trans h.faults⟩

/-- The PostgreSQL callbacks read the wall clock and write to the session. -/
theorem domainTimestamp_outside (value : TimePoint) :
    Action.Within (Action.Same Prod.fst) (onClock (domainTimestamp d.backends.systemNow value)) := by
  intro s
  unfold domainTimestamp
  split <;> rfl

theorem onPostgres_outside {α : Type} (x : Action PgSession Exn α) :
    Action.Within (Action.Same Prod.fst) (onPostgres (σ := Market) x) :=
  fun _ => rfl

/-- The durable calls touch nothing but PostgreSQL. -/
theorem durable_keeps {c : ServiceCall} {w w' : World Market} (hdurable : c.stage = 5 ∨ c.stage = 6)
    (hc : c.Performed d.services w w') :
    w'.redis = w.redis ∧ w'.client = w.client ∧ w'.outside = w.outside := by
  have hframe : ∀ {x : Action (Market × PgSession) Exn Bool} {r : Except Exn Bool},
      Action.Within (Action.Same Prod.fst) x → Backends.onDurable x w = (r, w') →
      w'.redis = w.redis ∧ w'.client = w.client ∧ w'.outside = w.outside := by
    intro x r hx hrun
    obtain ⟨_, rfl⟩ := Prod.mk.inj hrun
    exact ⟨rfl, rfl, hx (w.outside, w.postgres)⟩
  -- both convert their argument on the clock and insert it
  cases c with
  | persistQuote quote r =>
      obtain ⟨f, hf, hrun⟩ := hc
      obtain ⟨_, hf⟩ := Option.ite_none_right_eq_some.mp hf
      obtain rfl := Option.some.inj hf
      refine hframe ?_ hrun
      refine Action.Within.bind (domainTimestamp_outside _) (fun _ => ?_)
      refine Action.Within.bind (Action.Within.ofExcept _) (fun _ => ?_)
      exact Action.Within.bind (onPostgres_outside _) (fun _ => Action.Within.pure _)
  | persistSnapshot snapshot source r =>
      obtain ⟨f, hf, hrun⟩ := hc
      obtain ⟨_, hf⟩ := Option.ite_none_right_eq_some.mp hf
      obtain rfl := Option.some.inj hf
      refine hframe ?_ hrun
      refine Action.Within.bind (domainTimestamp_outside _) (fun _ => ?_)
      refine Action.Within.bind (Action.Within.ofExcept _) (fun _ => ?_)
      exact Action.Within.bind (onPostgres_outside _) (fun _ => Action.Within.pure _)
  | _ => simp [ServiceCall.stage] at hdurable

/-- The flag, and every call from the order book on, touches neither cache. -/
theorem quiet_sound {t : ℤ} {c : ServiceCall} {w w' : World Market} (h : Provenance d w)
    (hnow : At t w) (hquiet : c.stage = 2 ∨ 4 ≤ c.stage) (hc : c.Performed d.services w w') :
    Sound d t w w' := by
  have hredis : ∀ {x : Action RedisWorld Exn Bool} {r : Except Exn Bool},
      RedisWorld.Keeps quoteKeys x → Backends.onRedis x w = (r, w') → Sound d t w w' := by
    intro x r hx hrun
    obtain ⟨_, rfl⟩ := Prod.mk.inj hrun
    exact h.frame hnow rfl rfl (hx w.redis)
  have hdurable : c.stage = 5 ∨ c.stage = 6 → Sound d t w w' := by
    intro hstage
    obtain ⟨hredis, hclient, houtside⟩ := durable_keeps hstage hc
    refine h.frame hnow (congrArg ClientState.cache hclient) houtside ?_
    rw [hredis]
    exact refl_of _ _
  -- of the calls in a fetch three are neither quiet nor durable
  cases c with
  | getCachedQuote symbol r => simp [ServiceCall.stage] at hquiet
  | getQuote symbol r => simp [ServiceCall.stage] at hquiet
  | storeQuote symbol quote r => simp [ServiceCall.stage] at hquiet
  | lastWasCached r =>
      obtain ⟨_, rfl⟩ := Prod.mk.inj hc
      exact h.frame hnow rfl rfl (refl_of _ _)
  | redisIsConnected r => exact hredis (RedisClient.isConnected_keeps _) hc
  | updateOrderBook symbol bids asks r =>
      exact hredis (RedisClient.updateOrderBook_keeps RedisClient.bookKey_not_quote d.bookClock
        symbol bids asks) hc
  | persistQuote quote r => exact hdurable (Or.inl rfl)
  | persistSnapshot snapshot source r => exact hdurable (Or.inr rfl)

theorem calls_sound {t : ℤ} {calls : List ServiceCall} {w w' : World Market}
    (h : Provenance d w) (hnow : At t w) (hquiet : ∀ c ∈ calls, c.stage = 2 ∨ 4 ≤ c.stage)
    (hcalls : Calls d.services w calls w') : Sound d t w w' := by
  induction hcalls with
  | nil w => exact h.frame hnow rfl rfl (refl_of _ _)
  | cons hc _ ih =>
      have hfirst := quiet_sound h hnow (hquiet _ List.mem_cons_self) hc
      have hrest := ih hfirst.provenance hfirst.now
        (fun c hmem => hquiet c (List.mem_cons_of_mem _ hmem))
      exact hfirst.trans hrest

end Steps

/-! ## §5. A fetch. -/

section Fetch

variable {d : Deployment}

/-- The calls are those of a fetch that built a book for the symbol from the
quote: the quote was obtained, and the book was sent to Redis. -/
def BuiltFrom (symbol : Symbol) (calls : List ServiceCall) (quote : Quote) : Prop :=
  Obtained symbol calls quote ∧ ∃ bids asks r, .updateOrderBook symbol bids asks r ∈ calls

theorem FetchPath.builtFrom_iff {durable : Bool} {symbol : Symbol} {rebuilt : Quote → OrderBook}
    {now : TimePoint} {built : Option Quote} {calls : List ServiceCall}
    {result : Except Exn Bool} (h : FetchPath durable symbol rebuilt now built calls result)
    (quote : Quote) : BuiltFrom symbol calls quote ↔ built = some quote := by
  have hsent : ∀ {quote stored bookCalls result},
      BookPath durable symbol rebuilt now quote stored bookCalls result →
      ∃ bids asks r, .updateOrderBook symbol bids asks r ∈ bookCalls := by
    intro quote stored bookCalls result hbook
    obtain ⟨r, hr⟩ := (hbook.update_iff symbol _ _).mpr ⟨rfl, rfl, rfl⟩
    exact ⟨_, _, r, hr⟩
  -- a quote is obtained once, in Redis or from the client
  cases h with
  | hit found hbook =>
      obtain ⟨hcached, hget, _, _⟩ := hbook.reads
      obtain ⟨bids, asks, r, hr⟩ := hsent hbook
      rw [Option.some.injEq]
      constructor
      · intro hbuilt
        simpa [Obtained, hcached, hget, eq_comm] using hbuilt.1
      · intro hfound
        subst hfound
        exact ⟨Or.inl List.mem_cons_self, bids, asks, r, List.mem_cons_of_mem _ hr⟩
  | fetched found cached stored hbook =>
      obtain ⟨hcached, hget, _, _⟩ := hbook.reads
      obtain ⟨bids, asks, r, hr⟩ := hsent hbook
      rw [Option.some.injEq]
      constructor
      · intro hbuilt
        simpa [Obtained, hcached, hget, eq_comm] using hbuilt.1
      · intro hfound
        subst hfound
        exact ⟨Or.inr (by simp), bids, asks, r, by simp [hr]⟩
  | _ => simp [BuiltFrom, Obtained]

theorem Calls.cons_inv {σ : Type} {services : CliServices σ} {c : ServiceCall}
    {rest : List ServiceCall} {w w' : σ} (h : Calls services w (c :: rest) w') :
    ∃ w₁, c.Performed services w w₁ ∧ Calls services w₁ rest w' := by
  cases h with
  | cons hc hrest => exact ⟨_, hc, hrest⟩

section Path

variable {t : ℤ} {symbol : Symbol} {w w₁ w₂ w₃ w₄ : World Market}

/-- Both caches are asked. -/
theorem ask_sound (hA : 0 ≤ d.settings.cacheTtl) (h : Provenance d w) (hnow : At t w)
    {r r' : Except Exn (Option Quote)}
    (hcached : (ServiceCall.getCachedQuote symbol r).Performed d.services w w₁)
    (hget : (ServiceCall.getQuote symbol r').Performed d.services w₁ w₂) :
    Sound d t w w₂ ∧ w₂.redis = (RedisClient.getQuote symbol w.redis).2
      ∧ ∀ quote, r' = .ok (some quote) → Young d w₂.outside.received t symbol quote := by
  obtain ⟨hs₁, hredis₁, _⟩ := getCachedQuote_sound hA h hnow hcached
  obtain ⟨hs₂, hredis₂, hyoung⟩ := getQuote_sound hA hs₁.provenance hs₁.now hget
  exact ⟨hs₁.trans hs₂, hredis₂.trans hredis₁, hyoung⟩

theorem lastWasCached_eq {r : Except Exn Bool}
    (hflag : (ServiceCall.lastWasCached r).Performed d.services w w₁) : w₁ = w := by
  obtain ⟨_, rfl⟩ := Prod.mk.inj hflag
  rfl

/-- A fetch that has asked both caches, and what is left of its calls. -/
theorem asked_sound (hA : 0 ≤ d.settings.cacheTtl) (h : Provenance d w) (hnow : At t w)
    {r r' : Except Exn (Option Quote)} {flag : Except Exn Bool} {rest : List ServiceCall}
    (hcalls : Calls d.services w
      (.getCachedQuote symbol r :: .getQuote symbol r' :: .lastWasCached flag :: rest) w₄) :
    ∃ w₂, (Sound d t w w₂ ∧ w₂.redis = (RedisClient.getQuote symbol w.redis).2
        ∧ ∀ quote, r' = .ok (some quote) → Young d w₂.outside.received t symbol quote)
      ∧ Calls d.services w₂ rest w₄ := by
  obtain ⟨w₁, hcached, hrest⟩ := hcalls.cons_inv
  obtain ⟨w₂, hget, hrest⟩ := hrest.cons_inv
  obtain ⟨w₃, hflag, hrest⟩ := hrest.cons_inv
  -- the flag is read without a trace
  rw [lastWasCached_eq hflag] at hrest
  exact ⟨w₂, ask_sound hA h hnow hcached hget, hrest⟩

/-- A fetch that has stored what the client returned, and what is left of its
calls. -/
theorem refill_sound (hA : 0 ≤ d.settings.cacheTtl) (h : Provenance d w) (hnow : At t w)
    (hwhole : StoreCompletes (RedisClient.getQuote symbol w.redis).2)
    {r : Except Exn (Option Quote)} {quote : Quote} {flag stored : Except Exn Bool}
    {rest : List ServiceCall}
    (hcalls : Calls d.services w (.getCachedQuote symbol r :: .getQuote symbol (.ok (some quote))
      :: .lastWasCached flag :: .storeQuote symbol quote stored :: rest) w₄) :
    ∃ w₃, Sound d t w w₃ ∧ Young d w₃.outside.received t symbol quote
      ∧ Calls d.services w₃ rest w₄ := by
  obtain ⟨w₂, ⟨hs₂, hredis, hyoung⟩, hrest⟩ := asked_sound hA h hnow hcalls
  obtain ⟨w₃, hstore, hrest⟩ := hrest.cons_inv
  have hs₃ := storeQuote_sound hs₂.provenance hs₂.now (hyoung quote rfl)
    (by rw [hredis]; exact hwhole) hstore
  exact ⟨w₃, hs₂.trans hs₃, (hyoung quote rfl).mono hs₃.received, hrest⟩

/-- **A fetch at one instant keeps the invariant and builds from a fresh
quote.** -/
theorem FetchPath.sound (hA : 0 ≤ d.settings.cacheTtl) {durable : Bool}
    {rebuilt : Quote → OrderBook} {now : TimePoint} {built : Option Quote}
    {calls : List ServiceCall} {result : Except Exn Bool} {w' : World Market}
    (hpath : FetchPath durable symbol rebuilt now built calls result) (h : Provenance d w)
    (hnow : At t w) (hwhole : StoreCompletes (RedisClient.getQuote symbol w.redis).2)
    (hcalls : Calls d.services w calls w') :
    Sound d t w w' ∧ ∀ quote, built = some quote →
      Fresh d w'.outside.received t symbol quote := by
  have hnone : ∀ {received : List Response} (quote : Quote), none = some quote →
      Fresh d received t symbol quote := by
    intro received quote hbuilt
    cases hbuilt
  -- the calls from the book on
  have hbook : ∀ {quote stored bookCalls result w₀}, BookPath durable symbol rebuilt now quote
      stored bookCalls result → Sound d t w w₀ → Calls d.services w₀ bookCalls w' →
      Sound d t w₀ w' := by
    intro quote stored bookCalls result w₀ hb hs hrest
    exact calls_sound hs.provenance hs.now (fun c hc => Or.inr (hb.late hc)) hrest
  cases hpath with
  | cachedThrew e =>
      obtain ⟨w₁, hcached, hrest⟩ := hcalls.cons_inv
      cases hrest
      exact ⟨(getCachedQuote_sound hA h hnow hcached).1, hnone⟩
  | fetchThrew e =>
      obtain ⟨w₁, hcached, hrest⟩ := hcalls.cons_inv
      obtain ⟨w₂, hget, hrest⟩ := hrest.cons_inv
      cases hrest
      exact ⟨(ask_sound hA h hnow hcached hget).1, hnone⟩
  | flagThrew found e =>
      obtain ⟨w₂, ⟨hs, _, _⟩, hrest⟩ := asked_sound hA h hnow hcalls
      cases hrest
      exact ⟨hs, hnone⟩
  | missed cached =>
      obtain ⟨w₂, ⟨hs, _, _⟩, hrest⟩ := asked_sound hA h hnow hcalls
      cases hrest
      exact ⟨hs, hnone⟩
  | storeThrew quote cached e =>
      obtain ⟨w₃, hs, _, hrest⟩ := refill_sound hA h hnow hwhole hcalls
      cases hrest
      exact ⟨hs, hnone⟩
  | hit quote hb =>
      obtain ⟨w₁, hcached, hrest⟩ := hcalls.cons_inv
      obtain ⟨hs₁, _, hfresh⟩ := getCachedQuote_sound hA h hnow hcached
      have hs := hs₁.trans (hbook hb hs₁ hrest)
      refine ⟨hs, ?_⟩
      intro _ hbuilt
      obtain rfl := Option.some.inj hbuilt
      exact (hfresh quote rfl).mono hs.received
  | fetched quote cached stored hb =>
      obtain ⟨w₃, hs₃, hyoung, hrest⟩ := refill_sound hA h hnow hwhole hcalls
      have hlast := hbook hb hs₃ hrest
      refine ⟨hs₃.trans hlast, ?_⟩
      intro _ hbuilt
      obtain rfl := Option.some.inj hbuilt
      exact hyoung.fresh.mono hlast.received

end Path

/-! ## §6. Runs. -/

theorem logCall_unlog {σ α : Type} {event : Except Exn α → ServiceCall} {x : Action σ Exn α}
    {s s' : σ × List ServiceCall} {r : Except Exn α} (h : logCall event x s = (r, s')) :
    x s.1 = (r, s'.1) := by
  obtain ⟨hr, rfl⟩ := Prod.mk.inj h
  exact Prod.ext hr rfl

/-- A logging service does what the service does. -/
theorem ServiceCall.Performed.unlog {σ : Type} {services : CliServices σ} {c : ServiceCall}
    {s s' : σ × List ServiceCall} (h : c.Performed services.logged s s') :
    c.Performed services s.1 s'.1 := by
  cases c with
  | getCachedQuote symbol r => exact logCall_unlog h
  | getQuote symbol r => exact logCall_unlog h
  | lastWasCached r => exact logCall_unlog h
  | redisIsConnected r => exact logCall_unlog h
  | storeQuote symbol quote r => exact logCall_unlog h
  | updateOrderBook symbol bids asks r => exact logCall_unlog h
  | persistQuote quote r =>
      obtain ⟨f, hf, hrun⟩ := h
      obtain ⟨g, hg, rfl⟩ := Option.map_eq_some_iff.mp hf
      exact ⟨g, hg, logCall_unlog hrun⟩
  | persistSnapshot snapshot source r =>
      obtain ⟨f, hf, hrun⟩ := h
      obtain ⟨g, hg, rfl⟩ := Option.map_eq_some_iff.mp hf
      exact ⟨g, hg, logCall_unlog hrun⟩

theorem Calls.unlog {σ : Type} {services : CliServices σ} {s s' : σ × List ServiceCall}
    {calls : List ServiceCall} (h : Calls services.logged s calls s') :
    Calls services s.1 calls s'.1 := by
  induction h with
  | nil s => exact .nil s.1
  | cons hc _ ih => exact .cons hc.unlog ih

/-- What a fetch does to the books: the one of its symbol may have been rebuilt
from a quote the fetch obtained. -/
def Rebuilt (fetch : Fetch) (s s' : RunState) : Prop :=
  s'.2.books = s.2.books ∨ ∃ before quote, s.2.books fetch.symbol = some before
    ∧ s'.2.books
      = Function.update s.2.books fetch.symbol (some (FinCoreCli.rebuilt before quote))
    ∧ BuiltFrom fetch.symbol s'.1.2 quote

theorem Provenance.arriveAt {w : World Market} (h : Provenance d w) (fetch : Fetch) :
    Provenance d (fetch.arrive w) :=
  ⟨h.client, h.redis, h.instant⟩

/-- One fetch of a run. -/
theorem fetch_sound (hA : 0 ≤ d.settings.cacheTtl) (fetch : Fetch) {s : RunState}
    (h : Provenance d s.1.1) (hwhole : StoreCompletes (fetch.storeStart s)) :
    Sound d fetch.time (fetch.arrive s.1.1) (d.fetch fetch s).1.1
    ∧ Rebuilt fetch s (d.fetch fetch s)
    ∧ ∀ quote, BuiltFrom fetch.symbol (d.fetch fetch s).1.2 quote →
        Fresh d (d.fetch fetch s).1.1.outside.received fetch.time fetch.symbol quote := by
  have hnow : At fetch.time (fetch.arrive s.1.1) := ⟨rfl, rfl⟩
  have harrive := h.arriveAt fetch
  cases hbook : s.2.books fetch.symbol with
  | none =>
      -- without a book the fetch is refused before any call
      have hrun : d.fetch fetch s = ((fetch.arrive s.1.1, []), s.2) :=
        congrArg Prod.snd (d.cli.logged.fetchSymbol_refused fetch.rawSymbol fetch.printData
          fetch.printMetrics ((fetch.arrive s.1.1, []), s.2) hbook)
      rw [hrun]
      refine ⟨harrive.frame hnow rfl rfl (refl_of _ _), Or.inl rfl, ?_⟩
      intro quote hbuilt
      obtain ⟨_, _, _, _, hmem⟩ := hbuilt
      cases hmem
  | some before =>
      obtain ⟨now, built, calls, m, hcalls, hpath, hrebuilds, _⟩ :=
        d.cli.logged.fetchSymbol_run fetch.rawSymbol fetch.printData fetch.printMetrics
          ((fetch.arrive s.1.1, []), s.2) hbook
      have hlog : (d.fetch fetch s).1.2 = calls := hcalls.log
      have hunlogged : Calls d.services (fetch.arrive s.1.1) calls (d.fetch fetch s).1.1 :=
        hcalls.unlog
      obtain ⟨hs, hfresh⟩ := hpath.sound hA harrive hnow hwhole hunlogged
      refine ⟨hs, ?_, ?_⟩
      · cases built with
        | none => exact Or.inl hrebuilds.books
        | some quote =>
            refine Or.inr ⟨before, quote, hbook, hrebuilds.books, ?_⟩
            rw [hlog]
            exact (hpath.builtFrom_iff quote).mpr rfl
      · intro quote hbuilt
        rw [hlog] at hbuilt
        exact hfresh quote ((hpath.builtFrom_iff quote).mp hbuilt)

/-- Every `store_quote` of the run that executes at all executes completely. -/
def StoresComplete (d : Deployment) (fetches : List Fetch) (s₀ : RunState) : Prop :=
  ∀ pre fetch, pre ++ [fetch] <+: fetches → StoreCompletes (fetch.storeStart (d.run pre s₀))

theorem Started.provenance {s₀ : RunState} (h : Started s₀) : Provenance d s₀.1.1 where
  client := by
    intro symbol entry hentry
    rw [h.client] at hentry
    cases hentry
  redis := by
    intro symbol entry hentry
    rw [h.quotes] at hentry
    cases hentry
  instant := h.instant

theorem run_provenance (hA : 0 ≤ d.settings.cacheTtl) {s₀ : RunState} (hstart : Started s₀)
    {fetches : List Fetch} (hwhole : StoresComplete d fetches s₀) :
    ∀ pre, pre <+: fetches → Provenance d (d.run pre s₀).1.1 := by
  intro pre
  induction pre using List.reverseRecOn with
  | nil => exact fun _ => hstart.provenance
  | append_singleton pre fetch ih =>
      intro hpre
      have hbefore := ih ((List.prefix_append pre [fetch]).trans hpre)
      rw [d.run_snoc]
      exact (fetch_sound hA fetch hbefore (hwhole pre fetch hpre)).1.provenance

/-- **Bounded staleness.**  A fetch changes no book but its symbol's, which it
rebuilds from a quote it obtained; and each such quote came from a response
received less than `cache_ttl + quote_ttl` before the fetch, or during it. -/
theorem bounded_staleness (d : Deployment) (hA : 0 ≤ d.settings.cacheTtl) (s₀ : RunState)
    (hstart : Started s₀) (fetches : List Fetch) (hwhole : StoresComplete d fetches s₀)
    (pre : List Fetch) (fetch : Fetch) (hpre : pre ++ [fetch] <+: fetches) :
    Rebuilt fetch (d.run pre s₀) (d.run (pre ++ [fetch]) s₀)
    ∧ ∀ quote, BuiltFrom fetch.symbol (d.run (pre ++ [fetch]) s₀).1.2 quote →
        Fresh d (d.run (pre ++ [fetch]) s₀).1.1.outside.received fetch.time fetch.symbol quote := by
  have hbefore := run_provenance hA hstart hwhole pre ((List.prefix_append pre [fetch]).trans hpre)
  rw [d.run_snoc]
  exact (fetch_sound hA fetch hbefore (hwhole pre fetch hpre)).2

/-- Where no command fails, every store runs to its end. -/
theorem storesComplete_of_noFaults (d : Deployment) (hA : 0 ≤ d.settings.cacheTtl) {s₀ : RunState}
    (hstart : Started s₀) (hfaults : ∀ n, s₀.1.1.redis.faults n = none) (fetches : List Fetch) :
    StoresComplete d fetches s₀ := by
  have hwhole : ∀ {s : RunState} (fetch : Fetch), (∀ n, s.1.1.redis.faults n = none) →
      StoreCompletes (fetch.storeStart s) := by
    intro s fetch hs _ k _
    unfold Fetch.storeStart
    rw [(RedisClient.getQuote_keeps fetch.symbol (fetch.arrive s.1.1).redis).1.faults_eq]
    exact hs _
  have hrun : ∀ pre, Provenance d (d.run pre s₀).1.1
      ∧ ∀ n, (d.run pre s₀).1.1.redis.faults n = none := by
    intro pre
    induction pre using List.reverseRecOn with
    | nil => exact ⟨hstart.provenance, hfaults⟩
    | append_singleton pre fetch ih =>
        obtain ⟨hbefore, hnone⟩ := ih
        obtain ⟨hs, _⟩ := fetch_sound hA fetch hbefore (hwhole fetch hnone)
        rw [d.run_snoc]
        refine ⟨hs.provenance, fun n => ?_⟩
        rw [hs.faults]
        exact hnone n
  intro pre fetch _
  exact hwhole fetch (hrun pre).2

end Fetch

/-- One hour in the client and one minute in Redis. -/
def sampleDeployment : Deployment where
  settings :=
    { apiKey := "demo".toList, cacheTtl := 3600, mktime := fun _ => 0, apiKey_ne := by decide }
  redis := RedisClient.oneMinute
  postgres := false
  platform := ⟨fun _ => none, some, fun _ => none⟩
  wallClock := fun _ => 0
  bookClock := fun _ => 0
  symbols := ["IBM".toList]
  defaultPollSeconds := 0
  host := sampleHost

def ibmResponse : Str :=
  ("\"02. open\": \"99\", \"03. high\": \"101\", \"04. low\": \"98.5\", "
    ++ "\"05. price\": \"100.25\", \"06. volume\": \"1000\"").toList

/-- A fetch of IBM, which the API would answer. -/
def ibmFetch (seconds : ℤ) : Fetch where
  rawSymbol := "ibm".toList
  time := seconds * 10 ^ 9
  answer := fun _ => .ok ibmResponse

def sampleRun : RunState :=
  (({ outside := { now := 0, answer := fun _ => .ok [] }
      redis := RedisClient.emptyWorld []
      postgres := ⟨fun _ => [], .idle, true, [], fun _ => .sent⟩ }, []), sampleState)

/-- Half a minute after a first fetch, the book is built from what Redis has. -/
theorem bounded_staleness_ibm :
    (sampleDeployment.run [ibmFetch 0, ibmFetch 30] sampleRun).1.2.map ServiceCall.stage = [0, 4]
    ∧ Rebuilt (ibmFetch 30) (sampleDeployment.run [ibmFetch 0] sampleRun)
        (sampleDeployment.run [ibmFetch 0, ibmFetch 30] sampleRun)
    ∧ ∀ quote, BuiltFrom (ibmFetch 30).symbol
          (sampleDeployment.run [ibmFetch 0, ibmFetch 30] sampleRun).1.2 quote →
        Fresh sampleDeployment
          (sampleDeployment.run [ibmFetch 0, ibmFetch 30] sampleRun).1.1.outside.received
          (ibmFetch 30).time (ibmFetch 30).symbol quote := by
  have hA : 0 ≤ sampleDeployment.settings.cacheTtl := by decide
  have hstart : Started sampleRun := ⟨rfl, rfl, fun _ => rfl, fun _ => rfl⟩
  have hwhole : StoresComplete sampleDeployment [ibmFetch 0, ibmFetch 30] sampleRun :=
    storesComplete_of_noFaults sampleDeployment hA hstart (fun _ => rfl) _
  refine ⟨by decide +kernel, ?_⟩
  exact bounded_staleness sampleDeployment hA sampleRun hstart [ibmFetch 0, ibmFetch 30] hwhole
    [ibmFetch 0] (ibmFetch 30) List.prefix_rfl

end FinCore.Cli

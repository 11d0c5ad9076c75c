/-
  FinCore.Api.AlphaVantageClient
  ──────────────────────────────
  The Alpha Vantage client: a per-symbol cache in front of an HTTP fetch.

  The world outside the client (the network, the steady clock) is a state `σ`
  that the client's fetcher and clock act on; the client's own state is its
  cache and the flag of its last request.
-/
import FinCore.Api.QuoteParser
import FinCore.Cxx.Action

namespace FinCore.Api

open FinCore.Cxx

/-! ## §1. The client and its state. -/

/-- What a libcurl transfer ends with. -/
inductive CurlOutcome where
  /-- `curl_easy_init` returned null. -/
  | initFailed
  /-- `res == CURLE_OK`, the HTTP code and the body received. -/
  | performed (transferred : Bool) (httpCode : ℕ) (body : Str)

/-- A cached quote and the steady-clock instant, in nanoseconds, at which its
fetch succeeded. -/
structure CacheEntry where
  quote : Quote
  fetchedAt : ℤ

structure ClientState where
  cache : Symbol → Option CacheEntry := fun _ => none
  lastWasCached : Bool := false

/-- `cache_[symbol] = entry`. -/
def ClientState.store (symbol : Symbol) (entry : CacheEntry) (state : ClientState) : ClientState :=
  { state with cache := Function.update state.cache symbol (some entry) }

/-- The constants of a client and the outside it acts on.  The constructor
refuses an empty API key. -/
structure AlphaVantageClient (σ : Type) where
  apiKey : Str
  /-- In seconds. -/
  cacheTtl : ℤ
  fetchFunction : Option (Symbol → Action σ Exn Str)
  transport : Str → σ → CurlOutcome × σ
  steadyNow : σ → ℤ × σ
  mktime : ℤ → Int64
  apiKey_ne : apiKey ≠ []

namespace AlphaVantageClient

variable {σ : Type}

/-- The lifetime of a cache entry in nanoseconds. -/
def cacheTtlNs (client : AlphaVantageClient σ) : ℤ := client.cacheTtl * 10 ^ 9

/-- The lifetime as it is compared with an age: converted to the clock's
nanoseconds, which an `int64` counts. -/
def comparedTtlNs (client : AlphaVantageClient σ) : ℤ := (Int64.ofInt client.cacheTtlNs).toInt

/-- Up to 292 years the conversion is exact. -/
theorem comparedTtlNs_eq {client : AlphaVantageClient σ} (hlow : -2 ^ 63 ≤ client.cacheTtlNs)
    (hhigh : client.cacheTtlNs < 2 ^ 63) : client.comparedTtlNs = client.cacheTtlNs :=
  Int64.toInt_ofInt_of_le hlow hhigh

/-- An overflow can only shorten a lifetime. -/
theorem comparedTtlNs_le {client : AlphaVantageClient σ} (h : 0 ≤ client.cacheTtl) :
    client.comparedTtlNs ≤ client.cacheTtlNs := by
  have hnonneg : 0 ≤ client.cacheTtlNs := Int.mul_nonneg h (by decide)
  have hwrap : client.comparedTtlNs = Int.bmod client.cacheTtlNs (2 ^ 64) := Int64.toInt_ofInt
  rw [hwrap, Int.bmod_def]
  split
  · omega
  · omega

/-! ## §2. Network. -/

/-- The texts by which a body of an HTTP 200 answer reports an API error. -/
def errorMarks : List Str :=
  ["Error Message".toList, "\"Note\"".toList, "\"Information\"".toList]

/-- The body of a successful answer, the empty string for everything else. -/
def responseText : CurlOutcome → Str
  | .initFailed => []
  | .performed transferred httpCode body =>
      if transferred = false then []
      else if httpCode ≠ 200 then []
      else if errorMarks.any (fun mark => (afterFirst mark body).isSome) then []
      else body

def queryUrl (client : AlphaVantageClient σ) (symbol : Symbol) : Str :=
  "https://www.alphavantage.co/query".toList ++ "?function=GLOBAL_QUOTE".toList
    ++ "&symbol=".toList ++ symbol ++ "&apikey=".toList ++ client.apiKey

def fetchJson (client : AlphaVantageClient σ) (symbol : Symbol) : Action σ Exn Str := do
  let outcome ← Action.ofState (client.transport (client.queryUrl symbol))
  return responseText outcome

/-- The fetch function if one was given, else the network. -/
def fetch (client : AlphaVantageClient σ) (symbol : Symbol) : Action σ Exn Str :=
  match client.fetchFunction with
  | some fetchFunction => fetchFunction symbol
  | none => client.fetchJson symbol

/-! ## §3. The two requests. -/

/-- Act on the outside. -/
def onOutside {α : Type} (x : Action σ Exn α) : Action (σ × ClientState) Exn α :=
  Action.zoom Prod.fst (fun outside s => (outside, s.2)) x

def setLastWasCached (cached : Bool) : Action (σ × ClientState) Exn Unit :=
  Action.modify (fun s => (s.1, { s.2 with lastWasCached := cached }))

/-- The quote a response stands for: none if it is empty or does not parse. -/
def acceptResponse (client : AlphaVantageClient σ) (symbol : Symbol) (json : Str) : Option Quote :=
  if json = [] then none else parseQuote client.mktime json symbol

/-- `get_quote_fresh`. -/
def getQuoteFresh (client : AlphaVantageClient σ) (symbol : Symbol) :
    Action (σ × ClientState) Exn (Option Quote) := do
  setLastWasCached false
  if symbol = [] then return none
  else do
    let json ← onOutside (client.fetch symbol)
    match client.acceptResponse symbol json with
    | none => return none
    | some quote => do
        let now ← onOutside (Action.ofState client.steadyNow)
        -- only a quote that parsed enters the cache
        Action.modify (fun s => (s.1, ClientState.store symbol ⟨quote, now⟩ s.2))
        return some quote

/-- `get_quote`. -/
def getQuote (client : AlphaVantageClient σ) (symbol : Symbol) :
    Action (σ × ClientState) Exn (Option Quote) := do
  setLastWasCached false
  if symbol = [] then return none
  else do
    let s ← Action.get
    match s.2.cache symbol with
    | some entry => do
        let now ← onOutside (Action.ofState client.steadyNow)
        -- an entry as old as its TTL is stale
        if now - entry.fetchedAt < client.comparedTtlNs then do
          setLastWasCached true
          return some entry.quote
        else client.getQuoteFresh symbol
    | none => client.getQuoteFresh symbol

/-! ## §4. What the requests do. -/

/-- The empty symbol is refused. -/
theorem getQuote_empty (client : AlphaVantageClient σ) (w : σ) (st : ClientState) :
    client.getQuote [] (w, st) = (.ok none, (w, { st with lastWasCached := false })) := rfl

/-- A fetch that throws lets its exception through and stores nothing. -/
theorem getQuoteFresh_throw (client : AlphaVantageClient σ) {symbol : Symbol} {w w' : σ} {e : Exn}
    (hne : symbol ≠ []) (h : client.fetch symbol w = (.error e, w')) (st : ClientState) :
    client.getQuoteFresh symbol (w, st)
      = (.error e, (w', { st with lastWasCached := false })) := by
  simp only [getQuoteFresh, Action.bind_run, setLastWasCached, Action.modify_run, if_neg hne,
    onOutside, Action.zoom, h]

/-- An unusable response stores nothing. -/
theorem getQuoteFresh_none (client : AlphaVantageClient σ) {symbol : Symbol} {w w' : σ}
    {json : Str} (hne : symbol ≠ []) (h : client.fetch symbol w = (.ok json, w'))
    (hq : client.acceptResponse symbol json = none) (st : ClientState) :
    client.getQuoteFresh symbol (w, st)
      = (.ok none, (w', { st with lastWasCached := false })) := by
  simp only [getQuoteFresh, Action.bind_run, setLastWasCached, Action.modify_run, if_neg hne,
    onOutside, Action.zoom, h, hq, Action.pure_run]

/-- A usable response is stored with the time at which it has been parsed. -/
theorem getQuoteFresh_some (client : AlphaVantageClient σ) {symbol : Symbol} {w w' : σ}
    {json : Str} {q : Quote} (hne : symbol ≠ []) (h : client.fetch symbol w = (.ok json, w'))
    (hq : client.acceptResponse symbol json = some q) (st : ClientState) :
    client.getQuoteFresh symbol (w, st)
      = (.ok (some q), ((client.steadyNow w').2,
          ClientState.store symbol ⟨q, (client.steadyNow w').1⟩
            { st with lastWasCached := false })) := by
  simp only [getQuoteFresh, Action.bind_run, setLastWasCached, Action.modify_run, if_neg hne,
    onOutside, Action.zoom, h, hq, Action.pure_run, Action.ofState_run]

/-- A fresh entry answers the request. -/
theorem getQuote_hit (client : AlphaVantageClient σ) {symbol : Symbol} {w : σ} {st : ClientState}
    {entry : CacheEntry} (hne : symbol ≠ []) (hentry : st.cache symbol = some entry)
    (hage : (client.steadyNow w).1 - entry.fetchedAt < client.comparedTtlNs) :
    client.getQuote symbol (w, st)
      = (.ok (some entry.quote), ((client.steadyNow w).2, { st with lastWasCached := true })) := by
  simp only [getQuote, Action.bind_run, setLastWasCached, Action.modify_run, if_neg hne,
    Action.get_run, hentry, onOutside, Action.zoom, Action.ofState_run, hage, if_true,
    Action.pure_run]

/-- An expired entry is fetched again, after the clock has been read. -/
theorem getQuote_expired (client : AlphaVantageClient σ) {symbol : Symbol} {w : σ}
    {st : ClientState} {entry : CacheEntry} (hne : symbol ≠ [])
    (hentry : st.cache symbol = some entry)
    (hage : ¬ (client.steadyNow w).1 - entry.fetchedAt < client.comparedTtlNs) :
    client.getQuote symbol (w, st) = client.getQuoteFresh symbol ((client.steadyNow w).2, st) := by
  simp only [getQuote, getQuoteFresh, Action.bind_run, setLastWasCached, Action.modify_run,
    if_neg hne, Action.get_run, hentry, onOutside, Action.zoom, Action.ofState_run, hage, if_false]

theorem getQuote_absent (client : AlphaVantageClient σ) {symbol : Symbol} {w : σ}
    {st : ClientState} (hne : symbol ≠ []) (hentry : st.cache symbol = none) :
    client.getQuote symbol (w, st) = client.getQuoteFresh symbol (w, st) := by
  simp only [getQuote, getQuoteFresh, Action.bind_run, setLastWasCached, Action.modify_run,
    if_neg hne, Action.get_run, hentry]

end AlphaVantageClient

end FinCore.Api

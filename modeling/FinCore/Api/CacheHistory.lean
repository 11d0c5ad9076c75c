/-
  FinCore.Api.CacheHistory
  ────────────────────────
  The client's cache against the history of its requests.

  A run is a list of calls at non-decreasing times, each with the answer its
  fetch would get: any text, or an exception.  What an observer of a run sees
  is, for each call, its result, the fetches it made and the cache flag.  The
  cache entry of a symbol is the last successful fetch of that symbol in this
  history (`stateAfter_cache`), and everything about the answers follows.
-/
import FinCore.Api.AlphaVantageClient

namespace FinCore.Api

open FinCore.Cxx

/-! ## §1. Calls and what is observed of them. -/

/-- The outside during one call. -/
structure Exchange where
  /-- The steady clock, in nanoseconds. -/
  now : ℤ
  response : Except Exn Str
  answeredAt : ℤ
  fetched : List Symbol := []

/-- The parameters a client is built with, and the process's `mktime`. -/
structure Settings where
  apiKey : Str
  cacheTtl : ℤ
  mktime : ℤ → Int64
  apiKey_ne : apiKey ≠ []

/-- The client whose fetches get the scripted answer. -/
def Settings.client (settings : Settings) : AlphaVantageClient Exchange where
  apiKey := settings.apiKey
  cacheTtl := settings.cacheTtl
  fetchFunction := some fun symbol x =>
    (x.response, { x with now := x.answeredAt, fetched := x.fetched ++ [symbol] })
  transport := fun _ x => (.initFailed, x)
  steadyNow := fun x => (x.now, x)
  mktime := settings.mktime
  apiKey_ne := settings.apiKey_ne

/-- A request: to `get_quote_fresh` (`bypass`) or `get_quote`, the time at
which it is made, and the answer a fetch gets and when. -/
structure Call where
  bypass : Bool
  symbol : Symbol
  askedAt : ℤ
  response : Except Exn Str
  answeredAt : ℤ

/-- What is observed of a call. -/
structure Reply where
  result : Except Exn (Option Quote)
  fetched : List Symbol
  lastWasCached : Bool

namespace Call

/-- The outside when a call starts, and once its fetch has been answered. -/
def asked (call : Call) : Exchange :=
  { now := call.askedAt, response := call.response, answeredAt := call.answeredAt }

def answered (call : Call) : Exchange :=
  { now := call.answeredAt, response := call.response, answeredAt := call.answeredAt
    fetched := [call.symbol] }

variable (settings : Settings)

/-- The call as the client performs it. -/
def perform (call : Call) (state : ClientState) : Reply × ClientState :=
  let request := if call.bypass then settings.client.getQuoteFresh else settings.client.getQuote
  let (result, outside, state') := request call.symbol (call.asked, state)
  ({ result := result, fetched := outside.fetched, lastWasCached := state'.lastWasCached }, state')

/-- The quote the call's response stands for. -/
def accepted (call : Call) : Option Quote :=
  match call.response with
  | .ok json => settings.client.acceptResponse call.symbol json
  | .error _ => none

/-- The reply of a call that fetches. -/
def fetchReply (call : Call) : Reply where
  result := call.response.map (settings.client.acceptResponse call.symbol)
  fetched := [call.symbol]
  lastWasCached := false

/-- The state after a call that fetches. -/
def fetchState (call : Call) (state : ClientState) : ClientState :=
  match call.accepted settings with
  | some q =>
      ClientState.store call.symbol ⟨q, call.answeredAt⟩ { state with lastWasCached := false }
  | none => { state with lastWasCached := false }

/-- The entry that answers a call without a fetch. -/
def freshEntry (call : Call) (state : ClientState) : Option CacheEntry :=
  if call.bypass then none
  else (state.cache call.symbol).filter
    (fun entry => decide (call.askedAt - entry.fetchedAt < settings.client.comparedTtlNs))

/-! ## §2. What one call does. -/

theorem fetch_scripted (call : Call) :
    settings.client.fetch call.symbol call.asked = (call.response, call.answered) := rfl

theorem steadyNow_scripted (x : Exchange) : settings.client.steadyNow x = (x.now, x) := rfl

theorem getQuoteFresh_scripted (call : Call) (state : ClientState) (hne : call.symbol ≠ []) :
    settings.client.getQuoteFresh call.symbol (call.asked, state)
      = ((call.fetchReply settings).result, (call.answered, call.fetchState settings state)) := by
  have hfetch := fetch_scripted settings call
  unfold fetchReply fetchState accepted
  cases hresp : call.response with
  | error e =>
      rw [hresp] at hfetch
      exact settings.client.getQuoteFresh_throw hne hfetch state
  | ok json =>
      rw [hresp] at hfetch
      simp only [Except.map]
      cases hq : settings.client.acceptResponse call.symbol json with
      | none => exact settings.client.getQuoteFresh_none hne hfetch hq state
      | some q =>
          rw [settings.client.getQuoteFresh_some hne hfetch hq state, steadyNow_scripted]
          rfl

theorem perform_empty (call : Call) (state : ClientState) (h : call.symbol = []) :
    call.perform settings state
      = (⟨.ok none, [], false⟩, { state with lastWasCached := false }) := by
  unfold perform
  rw [h]
  cases call.bypass <;> rfl

theorem perform_hit (call : Call) (state : ClientState) {entry : CacheEntry}
    (hne : call.symbol ≠ []) (h : call.freshEntry settings state = some entry) :
    call.perform settings state
      = (⟨.ok (some entry.quote), [], true⟩, { state with lastWasCached := true }) := by
  unfold freshEntry at h
  cases hb : call.bypass with
  | true => simp [hb] at h
  | false =>
      rw [hb, if_neg (by decide), Option.filter_eq_some_iff] at h
      have hage : (settings.client.steadyNow call.asked).1 - entry.fetchedAt
          < settings.client.comparedTtlNs := of_decide_eq_true h.2
      unfold perform
      simp only [hb, Bool.false_eq_true, if_false]
      rw [settings.client.getQuote_hit hne h.1 hage]
      rfl

theorem perform_fetch (call : Call) (state : ClientState) (hne : call.symbol ≠ [])
    (h : call.freshEntry settings state = none) :
    call.perform settings state
      = (call.fetchReply settings, call.fetchState settings state) := by
  have hrun := call.getQuoteFresh_scripted settings state hne
  have hlast : (call.fetchState settings state).lastWasCached = false := by
    unfold fetchState
    cases call.accepted settings <;> rfl
  -- whichever way the call takes, it ends in `get_quote_fresh`
  have hrequest : (if call.bypass then settings.client.getQuoteFresh
        else settings.client.getQuote) call.symbol (call.asked, state)
      = ((call.fetchReply settings).result, (call.answered, call.fetchState settings state)) := by
    cases hb : call.bypass with
    | true => exact hrun
    | false =>
        rw [← hrun]
        cases hentry : state.cache call.symbol with
        | none => exact settings.client.getQuote_absent hne hentry
        | some entry =>
            refine settings.client.getQuote_expired hne hentry ?_
            intro hage
            have hsome : call.freshEntry settings state = some entry := by
              unfold freshEntry
              rw [hb, if_neg (by decide), hentry, Option.filter_some, if_pos]
              exact decide_eq_true hage
            rw [h] at hsome
            cases hsome
  unfold perform
  simp only [hrequest, hlast]
  rfl

/-- Either the symbol is empty, or an entry answers, or the call fetches. -/
theorem perform_cases (call : Call) (state : ClientState) :
    (call.symbol = [] ∧ call.perform settings state
        = (⟨.ok none, [], false⟩, { state with lastWasCached := false }))
    ∨ (∃ entry, call.symbol ≠ [] ∧ call.freshEntry settings state = some entry
        ∧ call.perform settings state
          = (⟨.ok (some entry.quote), [], true⟩, { state with lastWasCached := true }))
    ∨ (call.symbol ≠ [] ∧ call.freshEntry settings state = none
        ∧ call.perform settings state
          = (call.fetchReply settings, call.fetchState settings state)) := by
  by_cases hne : call.symbol = []
  · exact Or.inl ⟨hne, call.perform_empty settings state hne⟩
  · cases h : call.freshEntry settings state with
    | some entry =>
        exact Or.inr (Or.inl ⟨entry, hne, rfl, call.perform_hit settings state hne h⟩)
    | none => exact Or.inr (Or.inr ⟨hne, rfl, call.perform_fetch settings state hne h⟩)

end Call

/-! ## §3. Histories. -/

/-- Calls with what was observed of them, oldest first. -/
abbrev History := List (Call × Reply)

section Run

variable (settings : Settings)

/-- What the fetcher's answer to a call is worth: the quote of a text that is not
empty and parses. -/
def Call.success (call : Call) : Option Quote :=
  match call.response with
  | .ok json => if json = [] then none else parseQuote settings.mktime json call.symbol
  | .error _ => none

/-- The entry a call is worth for `symbol`: it fetched that symbol and got a
quote. -/
def successOf (symbol : Symbol) (event : Call × Reply) : Option CacheEntry :=
  if event.1.symbol = symbol ∧ event.2.fetched ≠ [] then
    (event.1.success settings).map (fun q => ⟨q, event.1.answeredAt⟩)
  else none

/-- The most recent successful fetch of `symbol`, with its quote and time. -/
def lastSuccess (history : History) (symbol : Symbol) : Option CacheEntry :=
  history.reverse.findSome? (successOf settings symbol)

theorem lastSuccess_snoc (history : History) (event : Call × Reply) (symbol : Symbol) :
    lastSuccess settings (history ++ [event]) symbol
      = (successOf settings symbol event).or (lastSuccess settings history symbol) := by
  unfold lastSuccess
  rw [List.reverse_append, List.reverse_singleton, List.singleton_append, List.findSome?_cons]
  cases successOf settings symbol event <;> rfl

/-- The client accepts what is worth a quote. -/
theorem Call.accepted_eq (call : Call) : call.accepted settings = call.success settings := rfl

/-- One more call. -/
def extend (run : History × ClientState) (call : Call) : History × ClientState :=
  let (reply, state) := call.perform settings run.2
  (run.1 ++ [(call, reply)], state)

/-- The run of a new client over the calls. -/
def runCalls (calls : List Call) : History × ClientState :=
  calls.foldl (extend settings) ([], {})

def historyOf (calls : List Call) : History := (runCalls settings calls).1

def stateAfter (calls : List Call) : ClientState := (runCalls settings calls).2

/-- What is observed of `call` after the calls before it. -/
def replyAfter (calls : List Call) (call : Call) : Reply :=
  (call.perform settings (stateAfter settings calls)).1

theorem historyOf_snoc (calls : List Call) (call : Call) :
    historyOf settings (calls ++ [call])
      = historyOf settings calls ++ [(call, replyAfter settings calls call)] := by
  unfold historyOf runCalls
  rw [List.foldl_append]
  rfl

theorem stateAfter_snoc (calls : List Call) (call : Call) :
    stateAfter settings (calls ++ [call])
      = (call.perform settings (stateAfter settings calls)).2 := by
  unfold stateAfter runCalls
  rw [List.foldl_append]
  rfl

theorem successOf_fetchReply (call : Call) (symbol : Symbol) :
    successOf settings symbol (call, call.fetchReply settings)
      = if call.symbol = symbol then
          (call.accepted settings).map (fun q => ⟨q, call.answeredAt⟩)
        else none := by
  have hfetched : (call.fetchReply settings).fetched ≠ [] := List.cons_ne_nil _ _
  unfold successOf
  rw [call.accepted_eq]
  by_cases hs : call.symbol = symbol
  · rw [if_pos ⟨hs, hfetched⟩, if_pos hs]
  · rw [if_neg (fun h => hs h.1), if_neg hs]

/-- A call that fetches returns what the answer is worth, and throws what the
fetcher has thrown. -/
theorem fetchReply_result (call : Call) :
    (call.fetchReply settings).result = call.response.map (fun _ => call.success settings) := by
  unfold Call.fetchReply Call.success
  cases call.response <;> rfl

/-- One call changes the cache by its success, if it is one. -/
theorem perform_cache (call : Call) (state : ClientState) (symbol : Symbol) :
    (call.perform settings state).2.cache symbol
      = (successOf settings symbol (call, (call.perform settings state).1)).or
          (state.cache symbol) := by
  rcases call.perform_cases settings state with ⟨_, h⟩ | ⟨entry, _, _, h⟩ | ⟨_, _, h⟩
  · rw [h]
    simp [successOf]
  · rw [h]
    simp [successOf]
  · rw [h]
    rw [successOf_fetchReply]
    unfold Call.fetchState
    by_cases hs : call.symbol = symbol
    · rw [if_pos hs]
      cases call.accepted settings with
      | none => rfl
      | some q => simp [ClientState.store, hs]
    · rw [if_neg hs]
      cases call.accepted settings with
      | none => rfl
      | some q => simp [ClientState.store, Function.update_of_ne (Ne.symm hs)]

/-- **Each cache entry is the latest successful fetch of its symbol, with its
own time.** -/
theorem stateAfter_cache (calls : List Call) (symbol : Symbol) :
    (stateAfter settings calls).cache symbol
      = lastSuccess settings (historyOf settings calls) symbol := by
  induction calls using List.reverseRecOn with
  | nil => rfl
  | append_singleton calls call ih =>
      rw [stateAfter_snoc, historyOf_snoc, lastSuccess_snoc, perform_cache, ih]
      rfl

theorem freshEntry_eq (calls : List Call) (call : Call) (hb : call.bypass = false) :
    call.freshEntry settings (stateAfter settings calls)
      = (lastSuccess settings (historyOf settings calls) call.symbol).filter
          (fun entry =>
            decide (call.askedAt - entry.fetchedAt < settings.client.comparedTtlNs)) := by
  unfold Call.freshEntry
  rw [hb, if_neg (by decide), stateAfter_cache]

/-- A call's reply depends on the entry of its own symbol only. -/
theorem perform_congr (call : Call) {s t : ClientState}
    (h : s.cache call.symbol = t.cache call.symbol) :
    (call.perform settings s).1 = (call.perform settings t).1 := by
  have hfresh : call.freshEntry settings s = call.freshEntry settings t := by
    unfold Call.freshEntry
    rw [h]
  rcases call.perform_cases settings s with ⟨he, hs⟩ | ⟨entry, hne, hf, hs⟩ | ⟨hne, hf, hs⟩
  · rw [hs, call.perform_empty settings t he]
  · rw [hs, call.perform_hit settings t hne (hfresh ▸ hf)]
  · rw [hs, call.perform_fetch settings t hne (hfresh ▸ hf)]

/-- Calls for other symbols leave an entry alone. -/
theorem stateAfter_filter (calls : List Call) (symbol : Symbol) :
    (stateAfter settings calls).cache symbol
      = (stateAfter settings (calls.filter (fun c => decide (c.symbol = symbol)))).cache symbol := by
  induction calls using List.reverseRecOn with
  | nil => rfl
  | append_singleton calls call ih =>
      rw [stateAfter_snoc, perform_cache, List.filter_append]
      by_cases hs : call.symbol = symbol
      · have hkeep : [call].filter (fun c => decide (c.symbol = symbol)) = [call] := by
          simp [hs]
        subst hs
        rw [hkeep, stateAfter_snoc, perform_cache, ← ih, perform_congr settings call ih]
      · have hdrop : [call].filter (fun c => decide (c.symbol = symbol)) = [] := by
          simp [hs]
        have hnone : successOf settings symbol (call,
            (call.perform settings (stateAfter settings calls)).1) = none := by
          unfold successOf
          rw [if_neg (fun h => hs h.1)]
        rw [hdrop, List.append_nil, hnone, Option.none_or, ih]

/-- Calls do not go back in time, and an answer does not come before its
question. -/
structure Ordered (calls : List Call) : Prop where
  answered : ∀ c ∈ calls, c.askedAt ≤ c.answeredAt
  pairwise : calls.Pairwise (fun c d => c.answeredAt ≤ d.askedAt)

theorem successOf_fetchedAt {symbol : Symbol} {event : Call × Reply} {entry : CacheEntry}
    (h : successOf settings symbol event = some entry) : entry.fetchedAt = event.1.answeredAt := by
  unfold successOf at h
  split at h
  · obtain ⟨q, -, rfl⟩ := Option.map_eq_some_iff.mp h
    rfl
  · cases h

/-- A call that has fetched replies with the answer it got. -/
theorem reply_of_fetched (calls : List Call) {call : Call}
    (h : (replyAfter settings calls call).fetched ≠ []) :
    replyAfter settings calls call = call.fetchReply settings := by
  unfold replyAfter at h ⊢
  rcases call.perform_cases settings (stateAfter settings calls) with
    ⟨_, hs⟩ | ⟨entry, _, _, hs⟩ | ⟨_, _, hs⟩
  · rw [hs] at h
    exact absurd rfl h
  · rw [hs] at h
    exact absurd rfl h
  · rw [hs]

/-- After a success, the last success is at least as late. -/
theorem lastSuccess_ge (pre mid : List Call) (first : Call)
    (hord : Ordered (pre ++ first :: mid)) {q : Quote}
    (hfetched : (replyAfter settings pre first).fetched ≠ [])
    (hquote : first.success settings = some q) :
    ∃ entry,
      lastSuccess settings (historyOf settings (pre ++ first :: mid)) first.symbol = some entry
      ∧ first.answeredAt ≤ entry.fetchedAt := by
  induction mid using List.reverseRecOn with
  | nil =>
      have hsuccess : successOf settings first.symbol (first, replyAfter settings pre first)
          = some ⟨q, first.answeredAt⟩ := by
        unfold successOf
        rw [if_pos ⟨rfl, hfetched⟩, hquote]
        rfl
      refine ⟨⟨q, first.answeredAt⟩, ?_, le_refl _⟩
      rw [historyOf_snoc, lastSuccess_snoc, hsuccess]
      rfl
  | append_singleton mid call ih =>
      -- one more call is a later success, or none
      have hassoc : pre ++ first :: (mid ++ [call]) = (pre ++ first :: mid) ++ [call] := by simp
      rw [hassoc] at hord ⊢
      have hpair := List.pairwise_append.mp hord.pairwise
      obtain ⟨entry, hentry, hle⟩ := ih
        ⟨fun c hc => hord.answered c (List.mem_append_left _ hc), hpair.1⟩
      rw [historyOf_snoc, lastSuccess_snoc]
      cases hs : successOf settings first.symbol
          (call, replyAfter settings (pre ++ first :: mid) call) with
      | none => exact ⟨entry, by rw [Option.none_or, hentry], hle⟩
      | some entry' =>
          refine ⟨entry', rfl, ?_⟩
          have hfirst : first.answeredAt ≤ call.askedAt :=
            hpair.2.2 first (by simp) call (List.mem_singleton_self call)
          have hcall := hord.answered call (by simp)
          rw [successOf_fetchedAt settings hs]
          exact hfirst.trans hcall

/-! ## §4. Coherence. -/

/-- A call that is answered from the cache. -/
def Reply.FromCache (reply : Reply) : Prop := reply.fetched = [] ∧ reply.lastWasCached = true

/-- What is promised of a call after any calls before it, for entries that live
for `lifetime` nanoseconds. -/
structure Coherent (lifetime : ℤ) (calls : List Call) (call : Call) : Prop where
  /-- `get_quote` answers from the cache exactly while the last success is
  younger than the lifetime, … -/
  hit_iff : call.bypass = false → call.symbol ≠ [] →
    ((replyAfter settings calls call).FromCache ↔
      ∃ entry, lastSuccess settings (historyOf settings calls) call.symbol = some entry
        ∧ call.askedAt - entry.fetchedAt < lifetime)
  /-- … then with the quote of that success … -/
  hit_quote : call.bypass = false → call.symbol ≠ [] →
    (replyAfter settings calls call).FromCache →
    ∃ entry, lastSuccess settings (historyOf settings calls) call.symbol = some entry
      ∧ (replyAfter settings calls call).result = .ok (some entry.quote)
  /-- … and fetches exactly once otherwise. -/
  miss : call.bypass = false → call.symbol ≠ [] →
    ¬ (replyAfter settings calls call).FromCache →
    (replyAfter settings calls call).fetched = [call.symbol]
      ∧ (replyAfter settings calls call).lastWasCached = false
  bypass : call.bypass = true → call.symbol ≠ [] →
    (replyAfter settings calls call).fetched = [call.symbol]
      ∧ (replyAfter settings calls call).lastWasCached = false
  /-- What has been fetched is returned: the quote of a text that parses, nothing
  for another text, and the fetcher's exception. -/
  answer : (replyAfter settings calls call).fetched ≠ [] →
    (replyAfter settings calls call).result = call.response.map (fun _ => call.success settings)
  /-- A call that does not fetch, or whose fetch fails or throws, leaves every
  entry as it was. -/
  failed : (replyAfter settings calls call).fetched = [] ∨ call.success settings = none →
    (stateAfter settings (calls ++ [call])).cache = (stateAfter settings calls).cache
  /-- Calls for other symbols do not matter to the reply. -/
  independent : replyAfter settings calls call
    = replyAfter settings (calls.filter (fun c => decide (c.symbol = call.symbol))) call
  /-- A fetch by `get_quote` is at least a lifetime after a successful one. -/
  spaced : ∀ pre first mid q, calls = pre ++ first :: mid → Ordered (calls ++ [call]) →
    first.bypass = false → first.symbol = call.symbol →
    (replyAfter settings pre first).fetched ≠ [] → first.success settings = some q →
    call.bypass = false → (replyAfter settings calls call).fetched ≠ [] →
    lifetime ≤ call.askedAt - first.answeredAt

theorem fromCache_cases (calls : List Call) (call : Call) (hne : call.symbol ≠ []) :
    (∃ entry, call.freshEntry settings (stateAfter settings calls) = some entry
      ∧ replyAfter settings calls call = ⟨.ok (some entry.quote), [], true⟩)
    ∨ (call.freshEntry settings (stateAfter settings calls) = none
      ∧ replyAfter settings calls call = call.fetchReply settings) := by
  unfold replyAfter
  rcases call.perform_cases settings (stateAfter settings calls) with
    ⟨he, _⟩ | ⟨entry, _, hf, hs⟩ | ⟨_, hf, hs⟩
  · exact absurd he hne
  · exact Or.inl ⟨entry, hf, by rw [hs]⟩
  · exact Or.inr ⟨hf, by rw [hs]⟩

theorem fetchReply_not_fromCache (call : Call) : ¬ (call.fetchReply settings).FromCache := by
  intro h
  exact absurd h.1 (List.cons_ne_nil _ _)

/-- A call that gets no quote leaves the cache as it is. -/
theorem cache_of_failed (calls : List Call) (call : Call)
    (hfail : (replyAfter settings calls call).fetched = [] ∨ call.success settings = none) :
    (stateAfter settings (calls ++ [call])).cache = (stateAfter settings calls).cache := by
  funext symbol
  have hnone : successOf settings symbol (call, replyAfter settings calls call) = none := by
    unfold successOf
    split
    next hevent =>
      rcases hfail with hidle | hworthless
      · exact absurd hidle hevent.2
      · rw [hworthless]
        rfl
    next => rfl
  rw [stateAfter_cache, stateAfter_cache, historyOf_snoc, lastSuccess_snoc, hnone,
    Option.none_or]

/-- A fetch by `get_quote` finds the last success at least a lifetime old. -/
theorem lifetime_le_of_fetched (calls : List Call) {call : Call} (hb : call.bypass = false)
    {entry : CacheEntry}
    (hentry : lastSuccess settings (historyOf settings calls) call.symbol = some entry)
    (hfetched : (replyAfter settings calls call).fetched ≠ []) :
    settings.client.comparedTtlNs ≤ call.askedAt - entry.fetchedAt := by
  have hne : call.symbol ≠ [] := by
    intro he
    apply hfetched
    unfold replyAfter
    rw [call.perform_empty settings _ he]
  rcases fromCache_cases settings calls call hne with ⟨_, _, hr⟩ | ⟨hf, _⟩
  · -- a hit fetches nothing
    rw [hr] at hfetched
    exact absurd rfl hfetched
  · rw [freshEntry_eq settings calls call hb, hentry, Option.filter_eq_none_iff] at hf
    have hage := hf entry rfl
    rw [decide_eq_true_eq] at hage
    omega

/-- The promises hold for the lifetime that is compared with the ages. -/
theorem coherent_compared (calls : List Call) (call : Call) :
    Coherent settings settings.client.comparedTtlNs calls call where
  hit_iff := by
    intro hb hne
    have hfresh := freshEntry_eq settings calls call hb
    rcases fromCache_cases settings calls call hne with ⟨entry, hf, hr⟩ | ⟨hf, hr⟩
    · rw [hfresh, Option.filter_eq_some_iff] at hf
      rw [hr]
      exact ⟨fun _ => ⟨entry, hf.1, of_decide_eq_true hf.2⟩, fun _ => ⟨rfl, rfl⟩⟩
    · rw [hr]
      refine ⟨fun h => absurd h (fetchReply_not_fromCache settings call), ?_⟩
      intro ⟨entry, hlast, hage⟩
      rw [hfresh, hlast, Option.filter_some, if_pos (decide_eq_true hage)] at hf
      cases hf
  hit_quote := by
    intro hb hne hcached
    have hfresh := freshEntry_eq settings calls call hb
    rcases fromCache_cases settings calls call hne with ⟨entry, hf, hr⟩ | ⟨_, hr⟩
    · rw [hfresh, Option.filter_eq_some_iff] at hf
      exact ⟨entry, hf.1, by rw [hr]⟩
    · rw [hr] at hcached
      exact absurd hcached (fetchReply_not_fromCache settings call)
  miss := by
    intro _ hne hcached
    rcases fromCache_cases settings calls call hne with ⟨entry, _, hr⟩ | ⟨_, hr⟩
    · rw [hr] at hcached
      exact absurd ⟨rfl, rfl⟩ hcached
    · rw [hr]
      exact ⟨rfl, rfl⟩
  bypass := by
    intro hb hne
    rcases fromCache_cases settings calls call hne with ⟨entry, hf, _⟩ | ⟨_, hr⟩
    · unfold Call.freshEntry at hf
      rw [hb, if_pos rfl] at hf
      cases hf
    · rw [hr]
      exact ⟨rfl, rfl⟩
  answer := by
    intro hfetched
    rw [reply_of_fetched settings calls hfetched, fetchReply_result]
  failed := cache_of_failed settings calls call
  independent :=
    perform_congr settings call (stateAfter_filter settings calls call.symbol)
  spaced := by
    intro pre first mid q hcalls hord hfirst hsymbol hfetched hquote hb hagain
    have hpre : Ordered (pre ++ first :: mid) := by
      rw [← hcalls]
      exact ⟨fun c hc => hord.answered c (List.mem_append_left _ hc),
        (List.pairwise_append.mp hord.pairwise).1⟩
    -- the last success is no older than the first of the two
    obtain ⟨entry, hentry, hle⟩ := lastSuccess_ge settings pre mid first hpre hfetched hquote
    rw [← hcalls, hsymbol] at hentry
    have hage := lifetime_le_of_fetched settings calls hb hentry hagain
    omega

/-- **The client's cache is coherent over whole runs**, with the lifetime as an
`int64` counts its nanoseconds: the client's own up to 292 years. -/
theorem cache_coherent (calls : List Call) (call : Call) :
    Coherent settings settings.client.comparedTtlNs calls call
    ∧ (-2 ^ 63 ≤ settings.client.cacheTtlNs → settings.client.cacheTtlNs < 2 ^ 63 →
      settings.client.comparedTtlNs = settings.client.cacheTtlNs) :=
  ⟨coherent_compared settings calls call, AlphaVantageClient.comparedTtlNs_eq⟩

end Run

/-- A client whose entries live for a minute. -/
def minuteSettings : Settings where
  apiKey := "key".toList
  cacheTtl := 60
  mktime := fun _ => 0
  apiKey_ne := by decide

/-- `get_quote("IBM")`, answered at once. -/
def askIbm (seconds : ℤ) (response : Except Exn Str) : Call where
  bypass := false
  symbol := "IBM".toList
  askedAt := seconds * 10 ^ 9
  response := response
  answeredAt := seconds * 10 ^ 9

def ibmText : Str :=
  ("\"02. open\": \"99\", \"03. high\": \"101\", \"04. low\": \"98.5\", "
    ++ "\"05. price\": \"100.25\", \"06. volume\": \"1000\"").toList

/-- The quote of the first request answers for less than a minute. -/
theorem cache_coherent_minute :
    (replyAfter minuteSettings [askIbm 0 (.ok ibmText)] (askIbm 59 (.ok []))).FromCache
    ∧ (replyAfter minuteSettings [askIbm 0 (.ok ibmText)] (askIbm 60 (.ok []))).fetched
      = ["IBM".toList] := by
  have hlast : (lastSuccess minuteSettings (historyOf minuteSettings [askIbm 0 (.ok ibmText)])
      "IBM".toList).map CacheEntry.fetchedAt = some 0 := by decide +kernel
  obtain ⟨entry, hentry, hfetched⟩ := Option.map_eq_some_iff.mp hlast
  have hlate : ¬ (replyAfter minuteSettings [askIbm 0 (.ok ibmText)]
      (askIbm 60 (.ok []))).FromCache := by
    intro hcached
    obtain ⟨entry', hentry', hage⟩ := ((cache_coherent minuteSettings [askIbm 0 (.ok ibmText)]
      (askIbm 60 (.ok []))).1.hit_iff rfl (by decide)).mp hcached
    obtain rfl := Option.some.inj (hentry.symm.trans hentry')
    rw [hfetched] at hage
    exact absurd hage (by decide)
  constructor
  · refine ((cache_coherent minuteSettings [askIbm 0 (.ok ibmText)]
      (askIbm 59 (.ok []))).1.hit_iff rfl (by decide)).mpr ⟨entry, hentry, ?_⟩
    rw [hfetched]
    decide
  · exact ((cache_coherent minuteSettings [askIbm 0 (.ok ibmText)]
      (askIbm 60 (.ok []))).1.miss rfl (by decide) hlate).1

end FinCore.Api

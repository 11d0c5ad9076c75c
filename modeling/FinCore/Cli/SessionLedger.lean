/-
  FinCore.Cli.SessionLedger
  ─────────────────────────
  The statistics of a session as a ledger.

  Every fetch is entered once, and each of its measurements in the series and
  counters it belongs to.  `Conserved` says how the totals go together; one
  entry preserves it because the metrics of a fetch are settled
  (`Conserved.record`), and so does a session (`session_conserved`).
-/
import FinCore.Cli.OperationStages
import FinCore.Cli.SessionTrace

namespace FinCore.Cli

open FinCore.Cxx

/-! ## §1. Totals. -/

/-- The totals after the given operations. -/
structure Conserved (operations : List OperationMetrics) (stats : SessionStats) : Prop where
  attempts : stats.attempts.toNat = operations.length
  outcomes : stats.successes.toNat + stats.failures.toNat = operations.length
  total : stats.total.length = operations.length
  api : stats.api.length = stats.apiCacheHits.toNat + stats.apiCacheMisses.toNat
  /-- Each API sample is in one of the two series, and they have no others. -/
  api_union : stats.api.Perm (stats.apiCached ++ stats.apiExternal)
  redisRead : stats.redisRead.length = stats.redisCacheHits.toNat + stats.redisCacheMisses.toNat
  redisQuote :
    stats.redisQuote.length = stats.redisQuoteSuccesses.toNat + stats.redisQuoteFailures.toNat
  redisBook :
    stats.redisBook.length = stats.redisBookSuccesses.toNat + stats.redisBookFailures.toNat
  redisQuote_le : stats.redisQuote.length ≤ stats.api.length
  api_le : stats.api.length ≤ stats.redisCacheMisses.toNat
  redisRead_le : stats.redisRead.length ≤ stats.total.length
  bookBuild : stats.bookBuild.length = stats.redisCacheHits.toNat + stats.redisQuote.length
  redisBook_le : stats.redisBook.length ≤ stats.bookBuild.length
  successes_le : stats.successes.toNat ≤ stats.redisBookSuccesses.toNat
  redisBookSuccesses_le : stats.redisBookSuccesses.toNat ≤ stats.bookBuild.length
  last : stats.last = operations.getLast?

/-- Nothing has been entered yet. -/
theorem Conserved.start : Conserved [] {} := by
  constructor <;> simp

/-! ## §2. One entry. -/

section Entry

variable {n : UInt64}

theorem toNat_succ (h : n.toNat + 1 < 2 ^ 64) : (n + 1).toNat = n.toNat + 1 := by
  rw [UInt64.toNat_add]
  show (n.toNat + 1) % 2 ^ 64 = _
  rw [Nat.mod_eq_of_lt h]

/-- A counter that is stepped when `flag` is set. -/
theorem toNat_step (flag : Bool) (h : n.toNat + 1 < 2 ^ 64) :
    (if flag then n + 1 else n).toNat = n.toNat + flag.toNat := by
  cases flag with
  | true => exact toNat_succ h
  | false => rfl

theorem add_length (series : LatencySeries) (sample : Option Int64) :
    (series.add sample).length = series.length + sample.isSome.toNat := by
  cases sample with
  | some sample => exact List.length_append
  | none => rfl

theorem count_fst (sample : Option Int64) (flag : Bool) (m : UInt64) (h : n.toNat + 1 < 2 ^ 64) :
    (SessionStats.count sample flag (n, m)).1.toNat
      = n.toNat + (sample.isSome && flag).toNat := by
  cases sample with
  | none => rfl
  | some sample =>
      cases flag with
      | true => exact toNat_succ h
      | false => rfl

theorem count_snd (sample : Option Int64) (flag : Bool) (m : UInt64) (h : n.toNat + 1 < 2 ^ 64) :
    (SessionStats.count sample flag (m, n)).2.toNat
      = n.toNat + (sample.isSome && !flag).toNat := by
  cases sample with
  | none => rfl
  | some sample =>
      cases flag with
      | true => rfl
      | false => exact toNat_succ h

end Entry

/-- A sample joins the series and one of its two parts. -/
theorem union_add {series cached external : LatencySeries} (h : series.Perm (cached ++ external))
    (sample : Option Int64) (flag : Bool) :
    (series.add sample).Perm ((if flag then cached.add sample else cached)
      ++ (if flag then external else external.add sample)) := by
  cases sample with
  | none => cases flag <;> exact h
  | some sample =>
      have hseries : (series ++ [sample]).Perm (cached ++ external ++ [sample]) := h.append_right _
      cases flag with
      | false =>
          show (series ++ [sample]).Perm (cached ++ (external ++ [sample]))
          rw [← List.append_assoc]
          exact hseries
      | true =>
          show (series ++ [sample]).Perm (cached ++ [sample] ++ external)
          have hmove : (cached ++ external ++ [sample]).Perm (cached ++ [sample] ++ external) := by
            rw [List.append_assoc, List.append_assoc]
            exact List.perm_append_comm.append_left cached
          exact hseries.trans hmove

/-- What the metrics of a settled fetch have, as numbers. -/
structure OperationMetrics.Entry (m : OperationMetrics) : Prop where
  api_le : m.apiUs.isSome.toNat ≤ (m.redisReadUs.isSome && !m.redisCacheHit).toNat
  redisQuote_le : m.redisQuoteUs.isSome.toNat ≤ m.apiUs.isSome.toNat
  bookBuild : m.bookBuildUs.isSome.toNat
    = (m.redisReadUs.isSome && m.redisCacheHit).toNat + m.redisQuoteUs.isSome.toNat
  redisBook_le : m.redisBookUs.isSome.toNat ≤ m.bookBuildUs.isSome.toNat
  success_le : m.success.toNat ≤ (m.redisBookUs.isSome && m.redisBookStored).toNat

theorem OperationMetrics.Settled.entry {m : OperationMetrics} (h : m.Settled) : m.Entry := by
  obtain ⟨⟨hhit, hapi, hquote, hbuild, hbook⟩, hsuccess⟩ := h
  unfold OperationMetrics.stage at hhit hapi hquote hbuild hbook
  simp only at hhit hapi hquote hbuild hbook
  constructor
  · cases hpresent : m.apiUs.isSome with
    | false => exact Nat.zero_le _
    | true =>
        obtain ⟨hread, hmiss⟩ := hapi hpresent
        rw [hread, hmiss]
        decide
  · cases hpresent : m.redisQuoteUs.isSome with
    | false => exact Nat.zero_le _
    | true => rw [hquote hpresent]
  · rw [hbuild]
    cases hhitFlag : m.redisCacheHit with
    | false => cases m.redisQuoteUs.isSome <;> cases m.redisReadUs.isSome <;> rfl
    | true =>
        -- a quote that Redis had is not stored again
        have hnotStored : m.redisQuoteUs.isSome = false := by
          by_contra hstored
          rw [Bool.not_eq_false] at hstored
          have hmiss := (hapi (hquote hstored)).2
          rw [hhitFlag] at hmiss
          cases hmiss
        rw [hhit hhitFlag, hnotStored]
        decide
  · cases hpresent : m.redisBookUs.isSome with
    | false => exact Nat.zero_le _
    | true => rw [hbook hpresent]
  · cases hflag : m.success with
    | false => exact Nat.zero_le _
    | true =>
        obtain ⟨hpresent, hstored⟩ := hsuccess hflag
        rw [hpresent, hstored]
        decide

/-- What an operation adds to each counter and to each series. -/
structure SessionStats.Adds (stats : SessionStats) (m : OperationMetrics) (stats' : SessionStats) :
    Prop where
  attempts : stats'.attempts.toNat = stats.attempts.toNat + 1
  successes : stats'.successes.toNat = stats.successes.toNat + m.success.toNat
  failures : stats'.failures.toNat = stats.failures.toNat + (!m.success).toNat
  total : stats'.total.length = stats.total.length + 1
  api : stats'.api.length = stats.api.length + m.apiUs.isSome.toNat
  redisRead : stats'.redisRead.length = stats.redisRead.length + m.redisReadUs.isSome.toNat
  redisQuote : stats'.redisQuote.length = stats.redisQuote.length + m.redisQuoteUs.isSome.toNat
  bookBuild : stats'.bookBuild.length = stats.bookBuild.length + m.bookBuildUs.isSome.toNat
  redisBook : stats'.redisBook.length = stats.redisBook.length + m.redisBookUs.isSome.toNat
  apiCacheHits : stats'.apiCacheHits.toNat
    = stats.apiCacheHits.toNat + (m.apiUs.isSome && m.apiCached).toNat
  apiCacheMisses : stats'.apiCacheMisses.toNat
    = stats.apiCacheMisses.toNat + (m.apiUs.isSome && !m.apiCached).toNat
  redisCacheHits : stats'.redisCacheHits.toNat
    = stats.redisCacheHits.toNat + (m.redisReadUs.isSome && m.redisCacheHit).toNat
  redisCacheMisses : stats'.redisCacheMisses.toNat
    = stats.redisCacheMisses.toNat + (m.redisReadUs.isSome && !m.redisCacheHit).toNat
  redisQuoteSuccesses : stats'.redisQuoteSuccesses.toNat
    = stats.redisQuoteSuccesses.toNat + (m.redisQuoteUs.isSome && m.redisQuoteStored).toNat
  redisQuoteFailures : stats'.redisQuoteFailures.toNat
    = stats.redisQuoteFailures.toNat + (m.redisQuoteUs.isSome && !m.redisQuoteStored).toNat
  redisBookSuccesses : stats'.redisBookSuccesses.toNat
    = stats.redisBookSuccesses.toNat + (m.redisBookUs.isSome && m.redisBookStored).toNat
  redisBookFailures : stats'.redisBookFailures.toNat
    = stats.redisBookFailures.toNat + (m.redisBookUs.isSome && !m.redisBookStored).toNat

/-- No counter is ahead of the attempts. -/
structure SessionStats.Counted (stats : SessionStats) (n : ℕ) : Prop where
  attempts : stats.attempts.toNat ≤ n
  successes : stats.successes.toNat ≤ n
  failures : stats.failures.toNat ≤ n
  apiCacheHits : stats.apiCacheHits.toNat ≤ n
  apiCacheMisses : stats.apiCacheMisses.toNat ≤ n
  redisCacheHits : stats.redisCacheHits.toNat ≤ n
  redisCacheMisses : stats.redisCacheMisses.toNat ≤ n
  redisQuoteSuccesses : stats.redisQuoteSuccesses.toNat ≤ n
  redisQuoteFailures : stats.redisQuoteFailures.toNat ≤ n
  redisBookSuccesses : stats.redisBookSuccesses.toNat ≤ n
  redisBookFailures : stats.redisBookFailures.toNat ≤ n

theorem Conserved.counted {operations : List OperationMetrics} {stats : SessionStats}
    (h : Conserved operations stats) : stats.Counted operations.length := by
  have hattempts := h.attempts
  have houtcomes := h.outcomes
  have hread := h.redisRead
  have hreadLe := h.redisRead_le
  have htotal := h.total
  have hapi := h.api
  have hapiLe := h.api_le
  have hquote := h.redisQuote
  have hquoteLe := h.redisQuote_le
  have hbook := h.redisBook
  have hbookLe := h.redisBook_le
  have hbuild := h.bookBuild
  constructor <;> omega

/-- `record` does not wrap a counter that is below the limit. -/
theorem SessionStats.Counted.adds {stats : SessionStats} {n : ℕ} (h : stats.Counted n)
    (hn : n + 1 < 2 ^ 64) (m : OperationMetrics) : stats.Adds m (stats.record m) := by
  have hfits : ∀ {count : UInt64}, count.toNat ≤ n → count.toNat + 1 < 2 ^ 64 := by
    intro count hcount
    omega
  refine
    { attempts := toNat_succ (hfits h.attempts)
      successes := toNat_step m.success (hfits h.successes)
      failures := ?_
      total := List.length_append
      api := add_length _ _
      redisRead := add_length _ _
      redisQuote := add_length _ _
      bookBuild := add_length _ _
      redisBook := add_length _ _
      apiCacheHits := count_fst _ _ _ (hfits h.apiCacheHits)
      apiCacheMisses := count_snd _ _ _ (hfits h.apiCacheMisses)
      redisCacheHits := count_fst _ _ _ (hfits h.redisCacheHits)
      redisCacheMisses := count_snd _ _ _ (hfits h.redisCacheMisses)
      redisQuoteSuccesses := count_fst _ _ _ (hfits h.redisQuoteSuccesses)
      redisQuoteFailures := count_snd _ _ _ (hfits h.redisQuoteFailures)
      redisBookSuccesses := count_fst _ _ _ (hfits h.redisBookSuccesses)
      redisBookFailures := count_snd _ _ _ (hfits h.redisBookFailures) }
  -- failures count with the flag the other way round
  have hstep := toNat_step (!m.success) (hfits h.failures)
  rw [← hstep]
  show (if m.success then stats.failures else stats.failures + 1).toNat = _
  cases m.success <;> rfl

/-- **One more operation keeps the totals together.** -/
theorem Conserved.record {operations : List OperationMetrics} {stats : SessionStats}
    {m : OperationMetrics} (h : Conserved operations stats)
    (hcount : operations.length + 1 < 2 ^ 64) (hm : m.Entry) :
    Conserved (operations ++ [m]) (stats.record m) := by
  have hlength : (operations ++ [m]).length = operations.length + 1 := List.length_append
  obtain ⟨hattempts, hsuccesses, hfailures, htotal, hapi, hread, hquote, hbuild, hbook, hapiHits,
    hapiMisses, hhits, hmisses, hquotes, hquoteFailures, hbooks, hbookFailures⟩ :=
    h.counted.adds hcount m
  -- a flag splits its samples in two
  have hsplit : ∀ a b : Bool, (a && b).toNat + (a && !b).toNat = a.toNat := by decide
  have hall : m.success.toNat + (!m.success).toNat = 1 := hsplit true m.success
  have hsplitApi := hsplit m.apiUs.isSome m.apiCached
  have hsplitRead := hsplit m.redisReadUs.isSome m.redisCacheHit
  have hsplitQuote := hsplit m.redisQuoteUs.isSome m.redisQuoteStored
  have hsplitBook := hsplit m.redisBookUs.isSome m.redisBookStored
  have hone : m.redisReadUs.isSome.toNat ≤ 1 := Bool.toNat_le _
  obtain ⟨hentryApi, hentryQuote, hentryBuild, hentryBook, hentrySuccess⟩ := hm
  -- each total follows from its own parts
  exact
    { attempts := by rw [hattempts, h.attempts, hlength]
      outcomes := by
        have hold := h.outcomes
        omega
      total := by rw [htotal, h.total, hlength]
      api := by
        have hold := h.api
        omega
      api_union := union_add h.api_union m.apiUs m.apiCached
      redisRead := by
        have hold := h.redisRead
        omega
      redisQuote := by
        have hold := h.redisQuote
        omega
      redisBook := by
        have hold := h.redisBook
        omega
      redisQuote_le := by
        have hold := h.redisQuote_le
        omega
      api_le := by
        have hold := h.api_le
        omega
      redisRead_le := by
        have hold := h.redisRead_le
        omega
      bookBuild := by
        have hold := h.bookBuild
        omega
      redisBook_le := by
        have hold := h.redisBook_le
        omega
      successes_le := by
        have hold := h.successes_le
        omega
      redisBookSuccesses_le := by
        have hold := h.redisBookSuccesses_le
        omega
      last := (List.getLast?_concat).symm }

/-- The totals after any number of settled operations. -/
theorem recordAll_conserved (operations : List OperationMetrics) :
    (∀ m ∈ operations, m.Entry) → operations.length < 2 ^ 64 →
      Conserved operations (SessionStats.recordAll {} operations) := by
  induction operations using List.reverseRecOn with
  | nil => exact fun _ _ => Conserved.start
  | append_singleton operations m ih =>
      intro hentries hcount
      have hlength : (operations ++ [m]).length = operations.length + 1 := List.length_append
      have hbefore := ih (fun m' hmem => hentries m' (List.mem_append_left _ hmem)) (by omega)
      have hlast : m.Entry := hentries m (List.mem_append_right _ List.mem_cons_self)
      have hfold : SessionStats.recordAll {} (operations ++ [m])
          = (SessionStats.recordAll {} operations).record m := List.foldl_append
      rw [hfold]
      exact hbefore.record (by omega) hlast

/-! ## §3. A session. -/

/-- The symbol that is looked up in Redis; a fetch begins with this. -/
def ServiceCall.readSymbol? : ServiceCall → Option Symbol
  | getCachedQuote symbol _ => some symbol
  | _ => none

/-- A fetch looks its symbol up once. -/
theorem FetchPath.reads {durable : Bool} {symbol : Symbol} {rebuilt : Quote → OrderBook}
    {now : TimePoint} {built : Option Quote} {calls : List ServiceCall}
    {result : Except Exn Bool} (h : FetchPath durable symbol rebuilt now built calls result) :
    calls.filterMap ServiceCall.readSymbol? = [symbol] := by
  have hbook : ∀ {quote : Quote} {stored : Bool} {calls : List ServiceCall}
      {result : Except Exn Bool}, BookPath durable symbol rebuilt now quote stored calls result →
      calls.filterMap ServiceCall.readSymbol? = [] := by
    intro quote stored calls result h
    cases h <;> rfl
  cases h with
  | hit quote h => exact congrArg (symbol :: ·) (hbook h)
  | @fetched quote cached stored calls _ h =>
      have htail : calls.filterMap ServiceCall.readSymbol? = [] := hbook h
      exact congrArg (symbol :: ·) htail
  | _ => rfl

namespace FinCoreCli

variable {σ : Type} (cli : FinCoreCli σ)

/-- Fetches are recorded in order, and each looks its symbol up once. -/
theorem trace_recorded {s t : Logged σ} {events : List (Happening σ)}
    (h : Trace cli s events t) : ∀ fetches : List (FetchCall σ), events = fetches.map .fetch →
      t.2.stats = s.2.stats.recordAll (fetches.map (·.metrics cli))
      ∧ ∃ calls, t.1.2 = s.1.2 ++ calls
        ∧ calls.filterMap ServiceCall.readSymbol? = fetches.map (·.symbol) := by
  induction h with
  | idle hidle =>
      intro fetches hfetches
      -- a trace without fetches has looked up nothing
      obtain rfl := List.map_eq_nil_iff.mp hfetches.symm
      obtain ⟨checks, hchecks⟩ := hidle.calls
      refine ⟨hidle.members.stats, _, hchecks, ?_⟩
      rw [List.filterMap_map]
      exact List.filterMap_eq_nil_iff.mpr (fun _ _ => rfl)
  | fetch fetch =>
      intro fetches hfetches
      obtain ⟨fetch', rfl, hsame⟩ := List.map_eq_singleton_iff.mp hfetches.symm
      obtain rfl := Happening.fetch.inj hsame
      obtain ⟨before, now, built, calls, _, hcalls, hpath, _, hstats⟩ := cli.fetchCall_run fetch'
      exact ⟨hstats, calls, hcalls, hpath.reads⟩
  | reset _ =>
      intro fetches hfetches
      obtain ⟨fetch', _, hsame⟩ := List.map_eq_singleton_iff.mp hfetches.symm
      cases hsame
  | append _ _ ih ih' =>
      intro fetches hfetches
      -- the fetches are split where the trace is
      obtain ⟨first, second, rfl, hfirst, hsecond⟩ := List.map_eq_append_iff.mp hfetches.symm
      obtain ⟨hstats, calls, hcalls, hreads⟩ := ih first hfirst.symm
      obtain ⟨hstats', calls', hcalls', hreads'⟩ := ih' second hsecond.symm
      refine ⟨?_, calls ++ calls', ?_, ?_⟩
      · rw [hstats', hstats, List.map_append]
        exact List.foldl_append.symm
      · rw [hcalls', hcalls, List.append_assoc]
      · rw [List.filterMap_append, hreads, hreads', List.map_append]

/-- What the metrics of a fetch have, wherever it ended. -/
theorem fetchCall_entry (fetch : FetchCall σ) : (fetch.metrics cli).Entry :=
  (cli.logged.fetchMetrics_settled fetch.rawSymbol fetch.printData fetch.printMetrics fetch.start
    fetch.configured).entry

/-- Where the statistics have just been created or cleared. -/
theorem handled_cleared {lines : List Str} {s : Logged σ} (hstart : s.2.stats = {})
    (h : ∀ line ∈ lines.getLast?, isReset line = true) :
    (cli.logged.handled lines s).2.stats = {} := by
  induction lines using List.reverseRecOn with
  | nil => exact hstart
  | append_singleton lines line _ =>
      have hreset : isReset line = true := h line (by rw [List.getLast?_concat]; rfl)
      rw [handled_append]
      exact (cli.runLine_reset hreset (cli.logged.handled lines s)).stats

/-- **The statistics of a session conserve its operations.**  The lines that
are handled are split at a `stats reset`, or at the start; `fetches` are the
calls of `fetch_symbol` since. -/
theorem session_conserved {services : CliServices σ} {symbols : List Str} {defaultPollSeconds : ℤ}
    {host : Host} {cli : FinCoreCli σ} {st : CliState}
    (hcreate : create services symbols defaultPollSeconds host = .ok (cli, st)) (w : σ)
    (lines earlier since : List Str) (hlines : processed lines = earlier ++ since)
    (hearlier : ∀ line ∈ earlier.getLast?, isReset line = true)
    (hsince : ∀ line ∈ since, isReset line = false) :
    ∃ (fetches : List (FetchCall σ)) (calls : List ServiceCall) (t : Logged σ),
      cli.logged.run lines ((w, []), st) = (.ok (), t)
      ∧ Trace cli (cli.logged.handled earlier ((w, []), st)) (fetches.map .fetch) t
      ∧ t.1.2 = (cli.logged.handled earlier ((w, []), st)).1.2 ++ calls
      ∧ calls.filterMap ServiceCall.readSymbol? = fetches.map (·.symbol)
      ∧ (fetches.length < 2 ^ 64 → Conserved (fetches.map (·.metrics cli)) t.2.stats) := by
  have hstart : st.stats = {} := by
    obtain ⟨books, _, h⟩ := Action.except_bind_eq_ok.mp hcreate
    obtain ⟨_, rfl⟩ := Prod.mk.inj (Except.ok.inj h)
    rfl
  obtain ⟨fetches, htrace⟩ := cli.handled_steps hsince (cli.logged.handled earlier ((w, []), st))
  obtain ⟨hstats, calls, hcalls, hreads⟩ := cli.trace_recorded htrace fetches rfl
  -- a session starts, like a reset leaves it, with nothing recorded
  have hcleared : (cli.logged.handled earlier ((w, []), st)).2.stats = {} :=
    cli.handled_cleared hstart hearlier
  have hrun := cli.logged.run_handled lines ((w, []), st)
  rw [hlines, handled_append] at hrun
  refine ⟨fetches, calls, _, hrun, htrace, hcalls, hreads, fun hcount => ?_⟩
  rw [hstats, hcleared]
  refine recordAll_conserved _ (fun m hm => ?_) (by rwa [List.length_map])
  obtain ⟨fetch, _, rfl⟩ := List.mem_map.mp hm
  exact cli.fetchCall_entry fetch

/-- A fetch, a reset, and a batch in which the write of the book throws. -/
theorem session_conserved_afterReset :
    ∃ (cli : FinCoreCli Unit) (st : CliState) (fetches : List (FetchCall Unit))
      (calls : List ServiceCall) (t : Logged Unit),
      create sampleServices ["ibm".toList] 0 sampleHost = .ok (cli, st)
      ∧ cli.logged.run ["fetch ibm".toList, " Stats  reset".toList, "fetch all".toList]
          (((), []), st) = (.ok (), t)
      ∧ Trace cli (cli.logged.handled ["fetch ibm".toList, " Stats  reset".toList] (((), []), st))
          (fetches.map .fetch) t
      ∧ calls.filterMap ServiceCall.readSymbol? = fetches.map (·.symbol)
      ∧ (fetches.length < 2 ^ 64 → Conserved (fetches.map (·.metrics cli)) t.2.stats) := by
  obtain ⟨cli, st, hcreate⟩ : ∃ cli st,
      create sampleServices ["ibm".toList] 0 sampleHost = .ok (cli, st) := ⟨_, _, rfl⟩
  obtain ⟨fetches, calls, t, hrun, htrace, _, hreads, hconserved⟩ :=
    session_conserved hcreate () ["fetch ibm".toList, " Stats  reset".toList, "fetch all".toList]
      ["fetch ibm".toList, " Stats  reset".toList] ["fetch all".toList]
      (by decide +kernel) (by decide +kernel) (by decide +kernel)
  exact ⟨cli, st, fetches, calls, t, hcreate, hrun, htrace, hreads, hconserved⟩

end FinCoreCli

end FinCore.Cli

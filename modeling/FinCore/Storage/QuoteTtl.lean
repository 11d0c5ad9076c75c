/-
  FinCore.Storage.QuoteTtl
  ────────────────────────
  The lifetime of stored quotes.

  `store_quote` writes the hash and sets its expiry with two commands, and
  either may fail.  `storeQuote_own` says what the four commands leave under
  the quote's key for every pattern of failures; from it follows exactly when a
  run of the client keeps every stored quote within its TTL.
-/
import FinCore.Storage.RedisClient

namespace FinCore.Storage.RedisClient

open FinCore.Cxx FinCore.Redis
open RedisWorld Action

/-! ## §1. What storing and reading leave under a quote's key. -/

/-- The clock runs on and other quotes stay. -/
theorem storeQuote_keeps (redis : RedisClient) (symbol : Symbol) (quote : Quote) :
    Keeps (quoteKeys \ {quoteKey symbol}) (redis.storeQuote symbol quote) := by
  have hown : ∀ c : Command, c.key? = some (quoteKey symbol) →
      Keeps (quoteKeys \ {quoteKey symbol}) (command c) := by
    intro c hc
    refine keeps_command ?_
    intro key hkey hk
    rw [hc] at hk
    exact hkey.2 (Option.some.inj hk).symm
  refine falseOnRedisError_keeps ?_
  refine Within.bind (hown _ rfl) (fun _ => ?_)
  refine Within.bind (hown _ rfl) (fun _ => ?_)
  exact (pushHistory_keeps symbol quote).mono Set.sdiff_subset

/-- What the commands after the first leave under the quote's key, once it holds
`stored`. -/
theorem expireQuote_own (redis : RedisClient) (symbol : Symbol) (quote : Quote) (w : RedisWorld)
    {stored : Entry} (hentry : w.keys (quoteKey symbol) = some stored) :
    let rest : Action RedisWorld Exn Bool := do
      let _ ← command (.expire (quoteKey symbol) redis.quoteTtlNs)
      pushHistory symbol quote
    (w.faults w.issued ≠ none ∧ w.now ≤ (rest w).2.now
      ∧ (rest w).2.keys (quoteKey symbol) = some stored)
    ∨ (w.faults w.issued = none ∧ ∃ t, w.now ≤ t ∧ t ≤ (rest w).2.now
      ∧ (rest w).2.keys (quoteKey symbol)
        = ((some stored).filter (Entry.liveAt t)).map
            (fun entry => { entry with expireAt := some (t + redis.quoteTtlNs) })) := by
  intro rest
  set key := quoteKey symbol with hkey
  obtain ⟨n, hexp⟩ := expire_onEntry w.arrive.now key redis.quoteTtlNs
    (lookup w.arrive.now w.keys key)
  obtain ⟨hreply, hexpired⟩ :=
    (Command.expire key redis.quoteTtlNs).run_self w.arrive.now w.keys rfl
  rw [hexp] at hreply hexpired
  rcases command_cases (.expire key redis.quoteTtlNs) w with
    ⟨what, hfault, hrun⟩ | ⟨_, hwrong, _⟩ | ⟨hfault, _, hrun⟩
  · left
    have hrest : rest w = (.error (.redisError what), w.arrive) := Action.bind_error hrun
    rw [hrest, hfault]
    exact ⟨Option.some_ne_none what, (later_arrive w w.keys).now_le, hentry⟩
  · rw [hreply] at hwrong
    cases hwrong
  · right
    have hrest : rest w = pushHistory symbol quote
        { w.arrive with
          keys := ((Command.expire key redis.quoteTtlNs).run w.arrive.now w.keys).2 } :=
      Action.bind_ok hrun
    -- the history commands neither touch the key nor turn the clock back
    obtain ⟨hlater, hkeep⟩ := pushHistory_keeps symbol quote
      { w.arrive with
        keys := ((Command.expire key redis.quoteTtlNs).run w.arrive.now w.keys).2 }
    rw [hrest]
    refine ⟨hfault, w.arrive.now, (later_arrive w w.keys).now_le, hlater.now_le, ?_⟩
    refine ((hkeep key ⟨symbol, rfl⟩).trans hexpired).trans ?_
    show Option.map _ ((w.keys key).filter _) = _
    rw [hentry]

/-- What `store_quote` leaves under its key.  The first command decides whether
anything is written, the second whether an expiry is set; the rest does not
concern the key. -/
theorem storeQuote_own (redis : RedisClient) (symbol : Symbol) (quote : Quote) (w : RedisWorld)
    (hhash : ∀ entry, lookup w.arrive.now w.keys (quoteKey symbol) = some entry →
      ∃ fields, entry.value = .hash fields) :
    (w.faults w.issued ≠ none
      ∧ (redis.storeQuote symbol quote w).2.keys (quoteKey symbol) = w.keys (quoteKey symbol))
    ∨ (w.faults w.issued = none ∧ ∃ old,
        let stored : Entry := ⟨.hash (setFields old (quoteFields quote)),
          (lookup w.arrive.now w.keys (quoteKey symbol)).bind Entry.expireAt⟩
        (w.faults (w.issued + 1) ≠ none
          ∧ w.arrive.now ≤ (redis.storeQuote symbol quote w).2.now
          ∧ (redis.storeQuote symbol quote w).2.keys (quoteKey symbol) = some stored)
        ∨ (w.faults (w.issued + 1) = none ∧ ∃ t, w.arrive.now ≤ t
          ∧ t ≤ (redis.storeQuote symbol quote w).2.now
          ∧ (redis.storeQuote symbol quote w).2.keys (quoteKey symbol)
            = ((some stored).filter (Entry.liveAt t)).map
                (fun entry => { entry with expireAt := some (t + redis.quoteTtlNs) }))) := by
  set key := quoteKey symbol with hkey
  unfold storeQuote
  rw [falseOnRedisError_state]
  unfold storeQuoteCommands
  rw [← hkey]
  obtain ⟨old, hset⟩ := hmset_onEntry w.arrive.now key (quoteFields quote) hhash
  obtain ⟨hreply, hentry⟩ :=
    (Command.hmset key (quoteFields quote)).run_self w.arrive.now w.keys rfl
  rw [hset] at hreply hentry
  -- a hash never refuses HMSET, so only a fault makes it fail
  rcases command_cases (.hmset key (quoteFields quote)) w with
    ⟨what, hfault, hrun⟩ | ⟨_, hwrong, _⟩ | ⟨hfault, _, hrun⟩
  · left
    rw [Action.bind_error hrun]
    exact ⟨by rw [hfault]; simp, rfl⟩
  · rw [hreply] at hwrong
    cases hwrong
  · right
    refine ⟨hfault, old, ?_⟩
    rw [Action.bind_ok hrun]
    exact expireQuote_own redis symbol quote
      { w.arrive with keys := ((Command.hmset key (quoteFields quote)).run w.arrive.now w.keys).2 }
      hentry

/-- Reading a quote drops it if it has expired, and nothing else. -/
theorem getQuote_own (symbol : Symbol) (w : RedisWorld) :
    (getQuote symbol w).2.keys (quoteKey symbol) = w.keys (quoteKey symbol)
    ∨ (getQuote symbol w).2.keys (quoteKey symbol)
        = lookup w.arrive.now w.keys (quoteKey symbol) := by
  have hentry := ((Command.hgetall (quoteKey symbol)).run_self w.arrive.now w.keys rfl).2
  rw [hgetall_onEntry] at hentry
  unfold getQuote
  rw [Action.tryCatch_run]
  rcases command_cases (.hgetall (quoteKey symbol)) w with
    ⟨_, _, hrun⟩ | ⟨_, _, hrun⟩ | ⟨_, _, hrun⟩
  · rw [Action.bind_error hrun]
    exact Or.inl rfl
  · rw [Action.bind_error hrun]
    exact Or.inl rfl
  · rw [Action.bind_ok hrun]
    exact Or.inr hentry

theorem getQuote_keeps (symbol : Symbol) :
    Keeps (quoteKeys \ {quoteKey symbol}) (getQuote symbol) := by
  refine Within.tryCatch (Within.bind (keeps_command ?_) (fun _ => Within.pure _))
    (fun _ => Within.pure _)
  intro key hkey hk
  exact hkey.2 (Option.some.inj hk).symm

/-! ## §2. Steps that keep every quote within its lifetime. -/

/-- Every stored quote expires, at most a TTL from now. -/
def TtlBounded (redis : RedisClient) (w : RedisWorld) : Prop :=
  ∀ symbol, ExpiresWithin redis.quoteTtlNs w.now w.keys (quoteKey symbol)

/-- The hash is written where there is none, and the command that would set its
expiry fails. -/
def StoresWithoutTtl (symbol : Symbol) (w : RedisWorld) : Prop :=
  w.faults w.issued = none ∧ lookup w.arrive.now w.keys (quoteKey symbol) = none
    ∧ w.faults (w.issued + 1) ≠ none

theorem TtlBounded.hash {redis : RedisClient} {w : RedisWorld} (h : TtlBounded redis w)
    (symbol : Symbol) :
    ∀ entry, lookup w.arrive.now w.keys (quoteKey symbol) = some entry →
      ∃ fields, entry.value = .hash fields := by
  intro entry hentry
  have hlater := (h symbol).later (later_arrive w w.keys).now_le
  exact (hlater entry hentry).1

/-- Quotes that an action leaves alone stay bounded. -/
theorem TtlBounded.other {redis : RedisClient} {w w' : RedisWorld} (h : TtlBounded redis w)
    (hlater : Later w w') {symbol : Symbol}
    (hkeys : w'.keys (quoteKey symbol) = w.keys (quoteKey symbol)) :
    ExpiresWithin redis.quoteTtlNs w'.now w'.keys (quoteKey symbol) :=
  ((h symbol).later hlater.now_le).congr hkeys

theorem storeQuote_bounded {redis : RedisClient} {symbol : Symbol} (quote : Quote)
    {w : RedisWorld} (h : TtlBounded redis w) (hok : ¬ StoresWithoutTtl symbol w) :
    TtlBounded redis (redis.storeQuote symbol quote w).2 := by
  obtain ⟨hlater, hkeep⟩ := storeQuote_keeps redis symbol quote w
  have harrive : w.now ≤ w.arrive.now := (later_arrive w w.keys).now_le
  intro other
  by_cases hother : other = symbol
  · subst hother
    rcases storeQuote_own redis other quote w (h.hash other) with
      ⟨_, hkeys⟩ | ⟨hset, old, ⟨hexp, hnow, hkeys⟩ | ⟨_, t, _, ht, hkeys⟩⟩
    · exact h.other hlater hkeys
    · -- the key was there before, and its expiry still is
      refine ExpiresWithin.of_entry ?_
      intro entry hentry
      rw [hkeys] at hentry
      obtain rfl := Option.some.inj hentry
      cases hfound : lookup w.arrive.now w.keys (quoteKey other) with
      | none => exact absurd ⟨hset, hfound, hexp⟩ hok
      | some found =>
          obtain ⟨_, t, ht, hbound⟩ := (h other).later harrive found hfound
          exact ⟨⟨_, rfl⟩, t, ht, by omega⟩
    · refine ExpiresWithin.of_entry ?_
      intro entry hentry
      rw [hkeys, Option.map_eq_some_iff] at hentry
      -- the expiry was set when the command arrived
      obtain ⟨stored, hstored, rfl⟩ := hentry
      obtain rfl := Option.some.inj (Option.filter_eq_some_iff.mp hstored).1
      exact ⟨⟨_, rfl⟩, _, rfl, by omega⟩
  · refine h.other hlater (hkeep _ ⟨⟨other, rfl⟩, ?_⟩)
    intro hkey
    exact hother (quoteKey_inj hkey)

/-- A quote stored without an expiry stays live for ever. -/
theorem storeQuote_unbounded {redis : RedisClient} {symbol : Symbol} (quote : Quote)
    {w : RedisWorld} (hbad : StoresWithoutTtl symbol w) :
    ¬ TtlBounded redis (redis.storeQuote symbol quote w).2 := by
  obtain ⟨hset, hfound, hexp⟩ := hbad
  intro hbounded
  have hhash : ∀ entry, lookup w.arrive.now w.keys (quoteKey symbol) = some entry →
      ∃ fields, entry.value = .hash fields := by
    intro entry hentry
    rw [hfound] at hentry
    cases hentry
  rcases storeQuote_own redis symbol quote w hhash with
    ⟨hfault, _⟩ | ⟨_, old, ⟨_, _, hkeys⟩ | ⟨hnone, _⟩⟩
  · exact hfault hset
  · rw [hfound] at hkeys
    obtain ⟨_, t, ht, _⟩ := hbounded symbol _ (lookup_eq_some.mpr ⟨hkeys, rfl⟩)
    cases ht
  · exact hexp hnone

theorem getQuote_bounded {redis : RedisClient} (symbol : Symbol) {w : RedisWorld}
    (h : TtlBounded redis w) : TtlBounded redis (getQuote symbol w).2 := by
  obtain ⟨hlater, hkeep⟩ := getQuote_keeps symbol w
  intro other
  by_cases hother : other = symbol
  · subst hother
    rcases getQuote_own other w with hkeys | hkeys
    · exact h.other hlater hkeys
    · intro entry hentry
      -- what is left was found before
      obtain ⟨hkey, hlive⟩ := lookup_eq_some.mp hentry
      rw [hkeys, lookup_eq_some] at hkey
      exact (h other).later hlater.now_le entry (lookup_eq_some.mpr ⟨hkey.1, hlive⟩)
  · refine h.other hlater (hkeep _ ⟨⟨other, rfl⟩, ?_⟩)
    intro hkey
    exact hother (quoteKey_inj hkey)

/-! ## §3. Runs. -/

/-- A call on the client. -/
inductive QuoteCall where
  | store (symbol : Symbol) (quote : Quote)
  | get (symbol : Symbol)

/-- The world after a call, whatever the call returns. -/
def QuoteCall.perform (redis : RedisClient) (call : QuoteCall) (w : RedisWorld) : RedisWorld :=
  match call with
  | store symbol quote => (redis.storeQuote symbol quote w).2
  | get symbol => (getQuote symbol w).2

/-- The call stores a quote without an expiry. -/
def QuoteCall.LeavesNoTtl (call : QuoteCall) (w : RedisWorld) : Prop :=
  match call with
  | store symbol _ => StoresWithoutTtl symbol w
  | get _ => False

/-- The world after a run of calls. -/
def runQuoteCalls (redis : RedisClient) (calls : List QuoteCall) (w : RedisWorld) : RedisWorld :=
  calls.foldl (fun w call => call.perform redis w) w

theorem runQuoteCalls_snoc (redis : RedisClient) (calls : List QuoteCall) (call : QuoteCall)
    (w : RedisWorld) :
    runQuoteCalls redis (calls ++ [call]) w = call.perform redis (runQuoteCalls redis calls w) := by
  unfold runQuoteCalls
  rw [List.foldl_append]
  rfl

theorem QuoteCall.perform_bounded_iff {redis : RedisClient} (call : QuoteCall) {w : RedisWorld}
    (h : TtlBounded redis w) : TtlBounded redis (call.perform redis w) ↔ ¬ call.LeavesNoTtl w := by
  cases call with
  | store symbol quote =>
      exact ⟨fun hb hbad => storeQuote_unbounded quote hbad hb, storeQuote_bounded quote h⟩
  | get symbol => exact ⟨fun _ => id, fun _ => getQuote_bounded symbol h⟩

/-- **Every state of a run keeps every quote within its TTL exactly when no
call of the run writes a missing quote and then fails to set its expiry.** -/
theorem ttlBounded_iff (redis : RedisClient) (w₀ : RedisWorld) (hempty : w₀.keys = fun _ => none)
    (calls : List QuoteCall) :
    (∀ pre, pre <+: calls → TtlBounded redis (runQuoteCalls redis pre w₀))
      ↔ ∀ pre call, pre ++ [call] <+: calls →
          ¬ call.LeavesNoTtl (runQuoteCalls redis pre w₀) := by
  constructor
  · intro hall pre call hpre
    have hbefore := hall pre ((List.prefix_append pre [call]).trans hpre)
    have hafter := hall (pre ++ [call]) hpre
    rw [runQuoteCalls_snoc] at hafter
    exact (call.perform_bounded_iff hbefore).mp hafter
  · intro hok pre
    -- each call keeps the bound exactly if it does not leave an entry without TTL
    induction pre using List.reverseRecOn with
    | nil =>
        intro _ symbol
        exact ExpiresWithin.absent (congrFun hempty (quoteKey symbol))
    | append_singleton pre call ih =>
        intro hpre
        have hbefore := ih ((List.prefix_append pre [call]).trans hpre)
        rw [runQuoteCalls_snoc]
        exact (call.perform_bounded_iff hbefore).mpr (hok pre call hpre)

def oneMinute : RedisClient := ⟨60, by decide⟩

/-- An empty server that answers at once and fails the commands in `failing`. -/
def emptyWorld (failing : List ℕ) : RedisWorld where
  now := 0
  keys := fun _ => none
  issued := 0
  faults := fun n => if n ∈ failing then some "Failed to get reply: timed out".toList else none
  delays := fun _ => 0

def storeIbm : QuoteCall := .store "IBM".toList { symbol := "IBM".toList, price := .finite 100 }

theorem storeIbm_bounded :
    TtlBounded oneMinute (runQuoteCalls oneMinute [storeIbm] (emptyWorld [])) := by
  refine (ttlBounded_iff oneMinute (emptyWorld []) rfl [storeIbm]).mpr ?_ [storeIbm]
    List.prefix_rfl
  intro pre call hpre hbad
  have hnil : pre = [] := by
    have hlen := hpre.length_le
    simp only [List.length_append, List.length_singleton] at hlen
    exact List.length_eq_zero_iff.mp (by omega)
  subst hnil
  obtain rfl : call = storeIbm := by simpa using hpre
  exact hbad.2.2 rfl

/-- The expiry of the first quote ever stored fails: the hash stays, and no
read or TTL will ever remove it. -/
theorem storeIbm_without_ttl :
    ¬ (∀ pre, pre <+: [storeIbm] →
        TtlBounded oneMinute (runQuoteCalls oneMinute pre (emptyWorld [1])))
    ∧ ((runQuoteCalls oneMinute [storeIbm] (emptyWorld [1])).keys
        (quoteKey "IBM".toList)).map Entry.expireAt = some none := by
  have hbad : StoresWithoutTtl "IBM".toList (emptyWorld [1]) := by
    refine ⟨rfl, rfl, ?_⟩
    show (some _ : Option Str) ≠ none
    simp
  refine ⟨fun hall => ?_, rfl⟩
  exact storeQuote_unbounded _ hbad (hall [storeIbm] List.prefix_rfl)

end FinCore.Storage.RedisClient

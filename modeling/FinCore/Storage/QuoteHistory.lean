/-
  FinCore.Storage.QuoteHistory
  ────────────────────────────
  When `store_quote` appends to the history list of its symbol, and what is in
  the list afterwards.
-/
import FinCore.Storage.QuoteTtl

namespace FinCore.Storage.RedisClient

open FinCore.Cxx FinCore.Redis
open RedisWorld Action

/-- The commands up to LPUSH. -/
def appendCommands (redis : RedisClient) (symbol : Symbol) (quote : Quote) :
    Action RedisWorld Exn Reply := do
  let _ ← command (.hmset (quoteKey symbol) (quoteFields quote))
  let _ ← command (.expire (quoteKey symbol) redis.quoteTtlNs)
  command (.lpush (quoteHistoryKey symbol) (historyEntry quote))

/-- The server accepts them: `store_quote` appends to the history, whatever
becomes of LTRIM. -/
def appends (redis : RedisClient) (symbol : Symbol) (quote : Quote) (w : RedisWorld) : Bool :=
  match redis.appendCommands symbol quote w with
  | (.ok _, _) => true
  | (.error _, _) => false

theorem storeQuoteCommands_eq (redis : RedisClient) (symbol : Symbol) (quote : Quote) :
    redis.storeQuoteCommands symbol quote = (do
      let _ ← redis.appendCommands symbol quote
      let _ ← command (.ltrim (quoteHistoryKey symbol) 0 999)
      return true) := by
  funext w
  unfold storeQuoteCommands appendCommands pushHistory
  simp only [Action.bind_run]
  cases command (.hmset (quoteKey symbol) (quoteFields quote)) w with
  | mk r w₁ =>
      cases r with
      | error e => rfl
      | ok reply =>
          cases hexpire : command (.expire (quoteKey symbol) redis.quoteTtlNs) w₁ with
          | mk r w₂ => cases r <;> simp only [hexpire]

/-- The keys of all history lists. -/
def historyKeys : Set Str := Set.range quoteHistoryKey

theorem quoteHistoryKey_inj {s t : Symbol} (h : quoteHistoryKey s = quoteHistoryKey t) : s = t :=
  List.append_cancel_left h

/-- A quote's hash is not a history. -/
theorem quoteKey_not_history (symbol : Symbol) : quoteKey symbol ∉ historyKeys := by
  rintro ⟨other, hother⟩
  exact quoteKey_ne_historyKey symbol other hother.symm

/-- A key of an order book is not a history. -/
theorem bookKey_not_history (rest : Str) : "order_book:".toList ++ rest ∉ historyKeys := by
  rintro ⟨symbol, hsymbol⟩
  have hc : (some 'q' : Option Char) = some 'o' := congrArg (fun k : Str => k[0]?) hsymbol
  exact absurd hc (by decide)

/-- Reading a quote leaves every history alone. -/
theorem getQuote_keepsHistory (symbol : Symbol) : Keeps historyKeys (getQuote symbol) := by
  refine Within.tryCatch ?_ (fun _ => Within.pure _)
  exact Within.bind (keeps_key rfl (quoteKey_not_history symbol)) (fun _ => Within.pure _)

/-- Storing a quote writes under two keys. -/
theorem storeQuote_touches (redis : RedisClient) (symbol : Symbol) (quote : Quote) :
    Keeps {key | key ≠ quoteKey symbol ∧ key ≠ quoteHistoryKey symbol}
      (redis.storeQuote symbol quote) := by
  have hhash : quoteKey symbol ∉ {key | key ≠ quoteKey symbol ∧ key ≠ quoteHistoryKey symbol} :=
    fun h => h.1 rfl
  have hlist : quoteHistoryKey symbol
      ∉ {key | key ≠ quoteKey symbol ∧ key ≠ quoteHistoryKey symbol} := fun h => h.2 rfl
  refine falseOnRedisError_keeps ?_
  refine Within.bind (keeps_key rfl hhash) (fun _ => ?_)
  refine Within.bind (keeps_key rfl hhash) (fun _ => ?_)
  refine Within.bind (keeps_key rfl hlist) (fun _ => ?_)
  exact Within.bind (keeps_key rfl hlist) (fun _ => Within.pure _)

/-- Storing a quote leaves the histories of other symbols alone. -/
theorem storeQuote_keepsHistory (redis : RedisClient) (symbol : Symbol) (quote : Quote) :
    Keeps (historyKeys \ {quoteHistoryKey symbol}) (redis.storeQuote symbol quote) := by
  refine (redis.storeQuote_touches symbol quote).mono ?_
  intro key ⟨hhistory, hother⟩
  refine ⟨?_, hother⟩
  intro hhash
  exact quoteKey_not_history symbol (hhash ▸ hhistory)

/-- The list under a key. -/
abbrev Holds (key : Str) (items : List Str) (w : RedisWorld) : Prop := ListAt w.keys key items

/-- A command that runs does to the list what it does to the keyspace; one that
fails does nothing. -/
theorem command_holds {c : Command} {key : Str} {items items' : List Str}
    (h : ∀ now keys, ListAt keys key items → ListAt (c.run now keys).2 key items') :
    Meets (Holds key items) (command c) (fun _ => Holds key items') (Holds key items) := by
  intro w hw
  rcases command_cases c w with ⟨_, _, hrun⟩ | ⟨_, _, hrun⟩ | ⟨_, _, hrun⟩
  · rw [hrun]
    exact hw
  · rw [hrun]
    exact hw
  · rw [hrun]
    exact h _ _ hw

/-- **What is appended**: the entry, in front; or nothing. -/
theorem appendCommands_holds (redis : RedisClient) (symbol : Symbol) (quote : Quote)
    (items : List Str) :
    Meets (Holds (quoteHistoryKey symbol) items) (redis.appendCommands symbol quote)
      (fun _ => Holds (quoteHistoryKey symbol) (historyEntry quote :: items))
      (Holds (quoteHistoryKey symbol) items) := by
  have hhash : ∀ c : Command, c.key? = some (quoteKey symbol) →
      Meets (Holds (quoteHistoryKey symbol) items) (command c)
        (fun _ => Holds (quoteHistoryKey symbol) items) (Holds (quoteHistoryKey symbol) items) := by
    intro c hc
    refine command_holds ?_
    intro now keys hlist
    refine hlist.congr (c.run_other now keys ?_)
    rw [hc]
    exact fun h => quoteKey_ne_historyKey symbol symbol (Option.some.inj h)
  refine Meets.bind (hhash _ rfl) (fun _ => ?_)
  refine Meets.bind (hhash _ rfl) (fun _ => ?_)
  exact command_holds (fun now keys hlist => hlist.lpush now (historyEntry quote))

/-- **What a store leaves of the history.**  It returns true with the entry in
front and the list trimmed; or the entry is there and LTRIM failed; or nothing
was appended. -/
theorem storeQuote_outcome (redis : RedisClient) {symbol : Symbol} (quote : Quote)
    {items : List Str} {w : RedisWorld} (h : Holds (quoteHistoryKey symbol) items w) :
    (redis.appends symbol quote w = true
      ∧ Holds (quoteHistoryKey symbol) ((historyEntry quote :: items).take 1000)
          (redis.storeQuote symbol quote w).2)
    ∨ (redis.appends symbol quote w = true ∧ (redis.storeQuote symbol quote w).1 ≠ .ok true
      ∧ Holds (quoteHistoryKey symbol) (historyEntry quote :: items)
          (redis.storeQuote symbol quote w).2)
    ∨ (redis.appends symbol quote w = false ∧ (redis.storeQuote symbol quote w).1 ≠ .ok true
      ∧ Holds (quoteHistoryKey symbol) items (redis.storeQuote symbol quote w).2) := by
  have happended := redis.appendCommands_holds symbol quote items w h
  have htrue : (redis.storeQuote symbol quote w).1 = .ok true →
      (redis.storeQuoteCommands symbol quote w).1 = .ok true := by
    intro hok
    have hrun : falseOnRedisError (redis.storeQuoteCommands symbol quote) w
        = (.ok true, (redis.storeQuote symbol quote w).2) := Prod.ext hok rfl
    rw [falseOnRedisError_true hrun]
  have hstate : (redis.storeQuote symbol quote w).2 = (redis.storeQuoteCommands symbol quote w).2 :=
    falseOnRedisError_state _ w
  rw [hstate]
  unfold appends
  rw [storeQuoteCommands_eq] at htrue ⊢
  rcases hrun : redis.appendCommands symbol quote w with ⟨r, w₁⟩
  rw [hrun] at happended
  cases r with
  | error e =>
      -- a command up to LPUSH failed, and nothing was appended
      rw [Action.bind_error hrun] at htrue ⊢
      have hfalse : (redis.storeQuote symbol quote w).1 ≠ .ok true := by
        intro hok
        cases (htrue hok : Except.error e = _)
      exact Or.inr (Or.inr ⟨rfl, hfalse, happended⟩)
  | ok reply =>
      rw [Action.bind_ok hrun] at htrue ⊢
      have htrimmed := command_holds (c := .ltrim (quoteHistoryKey symbol) 0 999)
        (fun now keys hlist => hlist.ltrim now 999) w₁ happended
      rcases hrun' : command (.ltrim (quoteHistoryKey symbol) 0 999) w₁ with ⟨r, w₂⟩
      rw [hrun'] at htrimmed
      cases r with
      | error e =>
          -- LTRIM failed, and the list keeps its length of one more
          rw [Action.bind_error hrun'] at htrue ⊢
          have hfalse : (redis.storeQuote symbol quote w).1 ≠ .ok true := by
            intro hok
            cases (htrue hok : Except.error e = _)
          exact Or.inr (Or.inl ⟨rfl, hfalse, htrimmed⟩)
      | ok reply =>
          rw [Action.bind_ok hrun']
          exact Or.inl ⟨rfl, htrimmed⟩

/-- The entry in front of some of the items, or all as it was. -/
theorem storeQuote_history (redis : RedisClient) {symbol : Symbol} (quote : Quote)
    {items : List Str} {w : RedisWorld} (h : Holds (quoteHistoryKey symbol) items w) :
    ∃ kept, kept <+: items
      ∧ Holds (quoteHistoryKey symbol)
        (if redis.appends symbol quote w = true then historyEntry quote :: kept else items)
        (redis.storeQuote symbol quote w).2 := by
  rcases redis.storeQuote_outcome quote h with ⟨happ, hlist⟩ | ⟨happ, _, hlist⟩ | ⟨happ, _, hlist⟩
  · exact ⟨items.take 999, List.take_prefix 999 items, by rwa [if_pos happ]⟩
  · exact ⟨items, List.prefix_rfl, by rwa [if_pos happ]⟩
  · exact ⟨items, List.prefix_rfl, by rwa [happ]⟩

end FinCore.Storage.RedisClient

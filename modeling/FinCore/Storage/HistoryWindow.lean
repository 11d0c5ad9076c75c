/-
  FinCore.Storage.HistoryWindow
  ─────────────────────────────
  The history list of a symbol as a window on the entries pushed for it.

  LPUSH and LTRIM are two commands, so a list may grow past its bound until the
  next LTRIM gets through.  Whatever fails, the list is a prefix of the entries
  pushed, newest first, and it falls short of them only beyond the first
  thousand; a trim that succeeds makes it the window again.
-/
import FinCore.Storage.QuoteHistory

namespace FinCore.Storage.RedisClient

open FinCore.Cxx FinCore.Redis
open RedisWorld Action

/-! ## §1. The keys of a symbol. -/

/-- `tick_stream_key`. -/
def tickStreamKey (symbol : Symbol) : Str := "ticks:".toList ++ symbol

/-- The key `store_tick` sets to the latest tick. -/
def latestTickKey (symbol : Symbol) : Str := "latest_tick:".toList ++ symbol

/-- Every key the client writes for a symbol. -/
def symbolKeys (symbol : Symbol) : List Str :=
  [quoteKey symbol, quoteHistoryKey symbol, tickStreamKey symbol, latestTickKey symbol,
    bidsKey symbol, asksKey symbol, bookTimestampKey symbol]

/-- Keys that differ at one position differ. -/
theorem key_ne {a b : Str} (i : ℕ) (h : a[i]? ≠ b[i]?) : a ≠ b := by
  intro hab
  exact h (by rw [hab])

/-- Whatever characters two symbols have, `store_quote` for one writes under no
key of the other. -/
theorem storeKeys_ne {s t : Symbol} (h : t ≠ s) :
    ∀ key ∈ symbolKeys t, key ≠ quoteKey s ∧ key ≠ quoteHistoryKey s := by
  intro key hkey
  simp only [symbolKeys, List.mem_cons, List.not_mem_nil, or_false] at hkey
  rcases hkey with rfl | rfl | rfl | rfl | rfl | rfl | rfl
  · exact ⟨fun heq => h (quoteKey_inj heq), quoteKey_ne_historyKey t s⟩
  · exact ⟨(quoteKey_ne_historyKey s t).symm, fun heq => h (quoteHistoryKey_inj heq)⟩
  -- the first letters differ
  all_goals
    constructor <;> exact key_ne 0 (by show some _ ≠ some _; decide)

/-- A store for one symbol changes no key of another. -/
theorem storeQuote_other (redis : RedisClient) {symbol other : Symbol} (quote : Quote)
    (h : other ≠ symbol) (w : RedisWorld) :
    ∀ key ∈ symbolKeys other, (redis.storeQuote symbol quote w).2.keys key = w.keys key := by
  intro key hkey
  exact (redis.storeQuote_touches symbol quote w).2 key (storeKeys_ne h key hkey)

/-! ## §2. Runs of stores. -/

/-- One call after the other. -/
def storeAll (redis : RedisClient) : List (Symbol × Quote) → RedisWorld → RedisWorld
  | [], w => w
  | call :: rest, w => storeAll redis rest (redis.storeQuote call.1 call.2 w).2

/-- The entry a call pushes for `symbol`, if it pushes one. -/
def pushes (redis : RedisClient) (symbol : Symbol) (call : Symbol × Quote) (w : RedisWorld) :
    List Str :=
  if call.1 = symbol ∧ redis.appends call.1 call.2 w = true then [historyEntry call.2] else []

/-- The entries a run pushes for `symbol`, newest first. -/
def pushed (redis : RedisClient) (symbol : Symbol) : List (Symbol × Quote) → RedisWorld → List Str
  | [], _ => []
  | call :: rest, w =>
      pushed redis symbol rest (redis.storeQuote call.1 call.2 w).2
        ++ pushes redis symbol call w

theorem storeAll_snoc (redis : RedisClient) (calls : List (Symbol × Quote))
    (call : Symbol × Quote) :
    ∀ w, storeAll redis (calls ++ [call]) w
      = (redis.storeQuote call.1 call.2 (storeAll redis calls w)).2 := by
  induction calls with
  | nil => exact fun w => rfl
  | cons first rest ih => exact fun w => ih _

theorem pushed_snoc (redis : RedisClient) (symbol : Symbol) (calls : List (Symbol × Quote))
    (call : Symbol × Quote) :
    ∀ w, pushed redis symbol (calls ++ [call]) w
      = pushes redis symbol call (storeAll redis calls w) ++ pushed redis symbol calls w := by
  induction calls with
  | nil =>
      intro w
      show [] ++ pushes redis symbol call w = pushes redis symbol call w ++ []
      rw [List.nil_append, List.append_nil]
  | cons first rest ih =>
      intro w
      show pushed redis symbol (rest ++ [call]) _ ++ pushes redis symbol first w = _
      rw [ih, List.append_assoc]
      rfl

/-! ## §3. The window. -/

/-- The list is a prefix of what was pushed, missing at most what lies beyond
the first thousand. -/
def WindowAt (symbol : Symbol) (entries : List Str) (w : RedisWorld) : Prop :=
  ∃ k, 1000 ≤ k ∧ Holds (quoteHistoryKey symbol) (entries.take k) w

theorem WindowAt.start {symbol : Symbol} {w : RedisWorld}
    (h : w.keys (quoteHistoryKey symbol) = none) : WindowAt symbol [] w :=
  ⟨1000, le_rfl, h⟩

/-- **What one store does to the window of its symbol.** -/
theorem WindowAt.store {symbol : Symbol} {entries : List Str} {w : RedisWorld}
    (h : WindowAt symbol entries w) (redis : RedisClient) (quote : Quote) :
    WindowAt symbol (pushes redis symbol (symbol, quote) w ++ entries)
        (redis.storeQuote symbol quote w).2
    ∧ ((redis.storeQuote symbol quote w).1 = .ok true →
        Holds (quoteHistoryKey symbol)
          ((pushes redis symbol (symbol, quote) w ++ entries).take 1000)
          (redis.storeQuote symbol quote w).2) := by
  obtain ⟨k, hk, hlist⟩ := h
  have htake : ∀ n, n ≤ k + 1 → (historyEntry quote :: entries.take k).take n
      = (historyEntry quote :: entries).take n := by
    intro n hn
    rw [← List.take_succ_cons, List.take_take, Nat.min_eq_left hn]
  rcases redis.storeQuote_outcome quote hlist with
    ⟨happ, hafter⟩ | ⟨happ, hfalse, hafter⟩ | ⟨happ, hfalse, hafter⟩
  · -- pushed and trimmed
    have hpush : pushes redis symbol (symbol, quote) w = [historyEntry quote] := if_pos ⟨rfl, happ⟩
    rw [htake 1000 (by omega)] at hafter
    rw [hpush]
    exact ⟨⟨1000, le_rfl, hafter⟩, fun _ => hafter⟩
  · -- pushed but not trimmed
    have hpush : pushes redis symbol (symbol, quote) w = [historyEntry quote] := if_pos ⟨rfl, happ⟩
    rw [hpush]
    exact ⟨⟨k + 1, by omega, hafter⟩, fun hok => absurd hok hfalse⟩
  · have hpush : pushes redis symbol (symbol, quote) w = [] := by
      -- nothing has been pushed
      refine if_neg ?_
      rw [happ]
      exact fun hpair => Bool.false_ne_true hpair.2
    rw [hpush]
    exact ⟨⟨k, hk, hafter⟩, fun hok => absurd hok hfalse⟩

/-- A store for another symbol pushes nothing here and leaves the window. -/
theorem WindowAt.other {symbol other : Symbol} {entries : List Str} {w : RedisWorld}
    (h : WindowAt symbol entries w) (redis : RedisClient) (quote : Quote) (hne : symbol ≠ other) :
    WindowAt symbol (pushes redis symbol (other, quote) w ++ entries)
      (redis.storeQuote other quote w).2 := by
  have hpush : pushes redis symbol (other, quote) w = [] := if_neg fun hpair => hne hpair.1.symm
  have hsame := redis.storeQuote_other quote hne w (quoteHistoryKey symbol)
    (List.mem_cons_of_mem _ List.mem_cons_self)
  obtain ⟨k, hk, hlist⟩ := h
  rw [hpush]
  exact ⟨k, hk, hlist.congr hsame⟩

/-- **What a run does**, by induction from its end. -/
theorem WindowAt.run {symbol : Symbol} {w₀ : RedisWorld}
    (h : w₀.keys (quoteHistoryKey symbol) = none) (redis : RedisClient)
    (calls : List (Symbol × Quote)) :
    WindowAt symbol (pushed redis symbol calls w₀) (storeAll redis calls w₀) := by
  induction calls using List.reverseRecOn with
  | nil => exact WindowAt.start h
  | append_singleton calls call ih =>
      obtain ⟨other, quote⟩ := call
      rw [storeAll_snoc, pushed_snoc]
      by_cases hsymbol : symbol = other
      · subst hsymbol
        exact (ih.store redis quote).1
      · exact ih.other redis quote hsymbol

/-- **Quote history is the newest-1000 window**, and a store touches the keys of
its own symbol only. -/
theorem storeQuote_window (redis : RedisClient) (calls : List (Symbol × Quote)) (symbol : Symbol)
    (quote : Quote) {w₀ : RedisWorld} (h : ∀ s, w₀.keys (quoteHistoryKey s) = none) :
    ((redis.storeQuote symbol quote (storeAll redis calls w₀)).1 = .ok true →
      Holds (quoteHistoryKey symbol)
        ((pushed redis symbol (calls ++ [(symbol, quote)]) w₀).take 1000)
        (storeAll redis (calls ++ [(symbol, quote)]) w₀))
    ∧ ∀ other, other ≠ symbol → ∀ key ∈ symbolKeys other,
        (storeAll redis (calls ++ [(symbol, quote)]) w₀).keys key
          = (storeAll redis calls w₀).keys key := by
  rw [storeAll_snoc, pushed_snoc]
  have hwindow := WindowAt.run (h symbol) redis calls
  constructor
  · exact (hwindow.store redis quote).2
  · intro other hne
    exact redis.storeQuote_other quote hne _

def quoteAt (price : ℚ) : Quote := { symbol := "IBM".toList, price := .finite price }

/-- The first LTRIM times out; the second store keeps the entry of the first
behind its own. -/
theorem storeQuote_window_timeout :
    Holds (quoteHistoryKey "IBM".toList)
        [historyEntry (quoteAt 101), historyEntry (quoteAt 100)]
        (oneMinute.storeAll
          ([("IBM".toList, quoteAt 100)] ++ [("IBM".toList, quoteAt 101)]) (emptyWorld [3]))
    ∧ ∀ key ∈ symbolKeys "IBM:L".toList,
        (oneMinute.storeAll
            ([("IBM".toList, quoteAt 100)] ++ [("IBM".toList, quoteAt 101)])
            (emptyWorld [3])).keys key
          = (oneMinute.storeAll [("IBM".toList, quoteAt 100)] (emptyWorld [3])).keys key := by
  have hwindow := storeQuote_window oneMinute [("IBM".toList, quoteAt 100)] "IBM".toList
    (quoteAt 101) (show ∀ s, (emptyWorld [3]).keys (quoteHistoryKey s) = none from fun _ => rfl)
  have hpushed : (pushed oneMinute "IBM".toList
        ([("IBM".toList, quoteAt 100)] ++ [("IBM".toList, quoteAt 101)]) (emptyWorld [3])).take 1000
      = [historyEntry (quoteAt 101), historyEntry (quoteAt 100)] := by decide +kernel
  have hlist := hwindow.1 rfl
  rw [hpushed] at hlist
  exact ⟨hlist, hwindow.2 "IBM:L".toList (by decide)⟩

end FinCore.Storage.RedisClient

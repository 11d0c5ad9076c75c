/-
  FinCore.Storage.ConcurrentClients
  ─────────────────────────────────
  Several `RedisClient`s on one Redis server.

  Each method is the program of its commands, and between two of them the server
  may serve other clients.  A quote is one HMSET and is never torn
  (`getQuote_whole`).  HMSET and EXPIRE, and LPUSH and LTRIM, are two commands:
  what a client has begun and not finished is all that a time to live or the
  bound of a history can lack (`quotes_expire_but_owed`, `history_bounded`).  A
  book is many commands, and holds what was written since one of its updates
  deleted it (`book_since_deleted`).  Calls for different symbols do not notice each other
  (`symbols_isolated`).
-/
import FinCore.Concurrent.Clients
import FinCore.Core.BookHistory
import FinCore.Storage.HistoryWindow
import FinCore.Storage.RedisBook

namespace FinCore.Storage

open FinCore.Cxx FinCore.Redis FinCore.Concurrent
open RedisWorld RedisClient

/-! ## §1. The methods as programs. -/

abbrev RedisProgram (α : Type) := Program Command Reply TimePoint Exn α

namespace RedisClient

/-- `catch (const sw::redis::Error&) { return false; }`. -/
def catchRedisError (x : RedisProgram Bool) : RedisProgram Bool :=
  tryCatch x fun e =>
    match e with
    | .redisError _ => pure false
    | e => throw e

/-- `is_connected`. -/
def isConnectedProgram : RedisProgram Bool :=
  tryCatch
    (do
      let _ ← Program.command .ping
      return true)
    (fun _ => pure false)

/-- `store_quote`. -/
def storeQuoteProgram (redis : RedisClient) (symbol : Symbol) (quote : Quote) :
    RedisProgram Bool :=
  catchRedisError do
    let _ ← Program.command (.hmset (quoteKey symbol) (quoteFields quote))
    let _ ← Program.command (.expire (quoteKey symbol) redis.quoteTtlNs)
    let _ ← Program.command (.lpush (quoteHistoryKey symbol) (historyEntry quote))
    let _ ← Program.command (.ltrim (quoteHistoryKey symbol) 0 999)
    return true

/-- `get_quote`. -/
def getQuoteProgram (symbol : Symbol) : RedisProgram (Option Quote) :=
  tryCatch
    (do
      let reply ← Program.command (.hgetall (quoteKey symbol))
      return quoteOfReply symbol reply)
    (fun _ => pure none)

/-- HSET every level under its price. -/
def storeLevelsProgram (key : Str) : List (Price × Volume) → RedisProgram Unit
  | [] => pure ()
  | (price, vol) :: rest => do
      let _ ← Program.command (.hset key price.toString (toStringNat vol.toNat))
      storeLevelsProgram key rest

/-- `update_order_book`. -/
def updateOrderBookProgram (symbol : Symbol) (bids asks : Levels Double.lt) : RedisProgram Bool :=
  catchRedisError do
    let _ ← Program.command (.del (bidsKey symbol))
    let _ ← Program.command (.del (asksKey symbol))
    storeLevelsProgram (bidsKey symbol) bids.entries
    storeLevelsProgram (asksKey symbol) asks.entries
    let now ← Program.readClock
    let _ ← Program.command (.set (bookTimestampKey symbol) (toStringInt (toUnixUs now)))
    return true

section Alone

variable (systemNow : RedisWorld → TimePoint)

theorem catchRedisError_perform (x : RedisProgram Bool) :
    (catchRedisError x).perform RedisWorld.command systemNow
      = falseOnRedisError (x.perform RedisWorld.command systemNow) := by
  unfold catchRedisError falseOnRedisError
  rw [Program.perform_tryCatch]
  congr
  funext e
  cases e <;> rfl

theorem isConnectedProgram_perform :
    isConnectedProgram.perform RedisWorld.command systemNow = isConnected := by
  unfold isConnectedProgram isConnected falseOnError
  rw [Program.perform_tryCatch, Program.perform_bind]
  rfl

theorem storeQuoteProgram_perform (redis : RedisClient) (symbol : Symbol) (quote : Quote) :
    (redis.storeQuoteProgram symbol quote).perform RedisWorld.command systemNow
      = redis.storeQuote symbol quote := by
  unfold storeQuoteProgram storeQuote storeQuoteCommands pushHistory
  rw [catchRedisError_perform]
  simp only [Program.perform_bind, Program.perform_command, Program.perform_pure]

theorem getQuoteProgram_perform (symbol : Symbol) :
    (getQuoteProgram symbol).perform RedisWorld.command systemNow = getQuote symbol := by
  unfold getQuoteProgram getQuote
  rw [Program.perform_tryCatch, Program.perform_bind]
  rfl

theorem storeLevelsProgram_perform (key : Str) (levels : List (Price × Volume)) :
    (storeLevelsProgram key levels).perform RedisWorld.command systemNow
      = storeLevels key levels := by
  induction levels with
  | nil => rfl
  | cons level rest ih =>
      unfold storeLevelsProgram storeLevels
      rw [Program.perform_bind, ih]
      rfl

theorem updateOrderBookProgram_perform (symbol : Symbol) (bids asks : Levels Double.lt) :
    (updateOrderBookProgram symbol bids asks).perform RedisWorld.command systemNow
      = updateOrderBook systemNow symbol bids asks := by
  unfold updateOrderBookProgram updateOrderBook
  rw [catchRedisError_perform]
  simp only [Program.perform_bind, Program.perform_command, Program.perform_pure,
    storeLevelsProgram_perform, Program.perform_readClock]
  rfl

end Alone

end RedisClient

/-- The key of one side of a book. -/
def sideKey (symbol : Symbol) : Side → Str
  | .bid => bidsKey symbol
  | .ask => asksKey symbol

def sideLevels (bids asks : Levels Double.lt) : Side → List (Price × Volume)
  | .bid => bids.entries
  | .ask => asks.entries

/-- A call of a method. -/
inductive RedisCall where
  | isConnected
  | storeQuote (symbol : Symbol) (quote : Quote)
  | getQuote (symbol : Symbol)
  | updateOrderBook (symbol : Symbol) (bids asks : Levels Double.lt)

/-- What a method returns. -/
abbrev RedisResult := Bool ⊕ Option Quote

namespace RedisCall

def program (redis : RedisClient) : RedisCall → RedisProgram RedisResult
  | isConnected => do
      let result ← isConnectedProgram
      return .inl result
  | storeQuote symbol quote => do
      let result ← redis.storeQuoteProgram symbol quote
      return .inl result
  | getQuote symbol => do
      let result ← getQuoteProgram symbol
      return .inr result
  | updateOrderBook symbol bids asks => do
      let result ← updateOrderBookProgram symbol bids asks
      return .inl result

/-- The method as an action on the server. -/
def perform (redis : RedisClient) (systemNow : RedisWorld → TimePoint) :
    RedisCall → Action RedisWorld Exn RedisResult
  | isConnected => do
      let result ← RedisClient.isConnected
      return .inl result
  | storeQuote symbol quote => do
      let result ← redis.storeQuote symbol quote
      return .inl result
  | getQuote symbol => do
      let result ← RedisClient.getQuote symbol
      return .inr result
  | updateOrderBook symbol bids asks => do
      let result ← RedisClient.updateOrderBook systemNow symbol bids asks
      return .inl result

/-- **A program performed alone is its method.** -/
theorem program_perform (redis : RedisClient) (systemNow : RedisWorld → TimePoint)
    (call : RedisCall) :
    (call.program redis).perform RedisWorld.command systemNow = call.perform redis systemNow := by
  cases call with
  | isConnected =>
      unfold program perform
      rw [Program.perform_bind, isConnectedProgram_perform]
      rfl
  | storeQuote symbol quote =>
      unfold program perform
      rw [Program.perform_bind, storeQuoteProgram_perform]
      rfl
  | getQuote symbol =>
      unfold program perform
      rw [Program.perform_bind, getQuoteProgram_perform]
      rfl
  | updateOrderBook symbol bids asks =>
      unfold program perform
      rw [Program.perform_bind, updateOrderBookProgram_perform]
      rfl

/-- What the call may issue. -/
def Commands (redis : RedisClient) : RedisCall → Command → Prop
  | isConnected, c => c = .ping
  | storeQuote symbol quote, c =>
      c = .hmset (quoteKey symbol) (quoteFields quote)
        ∨ c = .expire (quoteKey symbol) redis.quoteTtlNs
        ∨ c = .lpush (quoteHistoryKey symbol) (historyEntry quote)
        ∨ c = .ltrim (quoteHistoryKey symbol) 0 999
  | getQuote symbol, c => c = .hgetall (quoteKey symbol)
  | updateOrderBook symbol bids asks, c =>
      (∃ side, c = .del (sideKey symbol side)
        ∨ ∃ level ∈ sideLevels bids asks side,
          c = .hset (sideKey symbol side) (levelField level).1 (levelField level).2)
        ∨ ∃ text, c = .set (bookTimestampKey symbol) text

theorem storeLevelsProgram_issues {P : Command → Prop} (key : Str)
    {levels : List (Price × Volume)}
    (h : ∀ level ∈ levels, P (.hset key (levelField level).1 (levelField level).2)) :
    (storeLevelsProgram key levels).Issues P := by
  induction levels with
  | nil => exact trivial
  | cons level rest ih =>
      refine Program.Issues.bind (Program.Issues.command (h level List.mem_cons_self)) (fun _ => ?_)
      exact ih (fun l hl => h l (List.mem_cons_of_mem _ hl))

theorem program_issues (redis : RedisClient) (call : RedisCall) :
    (call.program redis).Issues (call.Commands redis) := by
  have hcatch : ∀ {x : RedisProgram Bool} {P : Command → Prop}, x.Issues P →
      (catchRedisError x).Issues P := by
    intro x P hx
    refine Program.Issues.tryCatch hx (fun e => ?_)
    cases e <;> exact trivial
  cases call with
  | isConnected =>
      refine Program.Issues.bind (Program.Issues.tryCatch ?_ (fun _ => trivial)) (fun _ => trivial)
      exact Program.Issues.bind (Program.Issues.command rfl) (fun _ => trivial)
  | storeQuote symbol quote =>
      refine Program.Issues.bind (hcatch ?_) (fun _ => trivial)
      refine Program.Issues.bind (Program.Issues.command (Or.inl rfl)) (fun _ => ?_)
      refine Program.Issues.bind (Program.Issues.command (Or.inr (Or.inl rfl))) (fun _ => ?_)
      refine Program.Issues.bind (Program.Issues.command (Or.inr (Or.inr (Or.inl rfl))))
        (fun _ => ?_)
      exact Program.Issues.bind (Program.Issues.command (Or.inr (Or.inr (Or.inr rfl))))
        (fun _ => trivial)
  | getQuote symbol =>
      refine Program.Issues.bind (Program.Issues.tryCatch ?_ (fun _ => trivial)) (fun _ => trivial)
      exact Program.Issues.bind (Program.Issues.command rfl) (fun _ => trivial)
  | updateOrderBook symbol bids asks =>
      refine Program.Issues.bind (hcatch ?_) (fun _ => trivial)
      refine Program.Issues.bind (Program.Issues.command (Or.inl ⟨.bid, Or.inl rfl⟩)) (fun _ => ?_)
      refine Program.Issues.bind (Program.Issues.command (Or.inl ⟨.ask, Or.inl rfl⟩)) (fun _ => ?_)
      refine Program.Issues.bind (storeLevelsProgram_issues _ ?_) (fun _ => ?_)
      · exact fun level hlevel => Or.inl ⟨.bid, Or.inr ⟨level, hlevel, rfl⟩⟩
      refine Program.Issues.bind (storeLevelsProgram_issues _ ?_) (fun _ => ?_)
      · exact fun level hlevel => Or.inl ⟨.ask, Or.inr ⟨level, hlevel, rfl⟩⟩
      refine Program.Issues.bind (fun _ => trivial) (fun now => ?_)
      exact Program.Issues.bind (Program.Issues.command (Or.inr ⟨_, rfl⟩)) (fun _ => trivial)

/-- `update_order_book` uses the three keys of the book. -/
theorem Commands.bookKey {redis : RedisClient} {symbol : Symbol} {bids asks : Levels Double.lt}
    {c : Command} (h : (updateOrderBook symbol bids asks).Commands redis c) :
    ∃ key ∈ [bidsKey symbol, asksKey symbol, bookTimestampKey symbol], c.key? = some key := by
  have hside : ∀ side, sideKey symbol side
      ∈ [bidsKey symbol, asksKey symbol, bookTimestampKey symbol] := by
    intro side
    cases side <;> simp [sideKey]
  rcases h with ⟨side, rfl | ⟨level, _, rfl⟩⟩ | ⟨text, rfl⟩
  · exact ⟨_, hside side, rfl⟩
  · exact ⟨_, hside side, rfl⟩
  · exact ⟨_, by simp, rfl⟩

end RedisCall

/-! ## §2. The server. -/

/-- A command that is accepted, or `WRONGTYPE`. -/
def redisServe (now : ℤ) (c : Command) (keys : Keyspace) : Except Exn (Reply × Keyspace) :=
  match c.run now keys with
  | (.wrongType, _) => .error wrongTypeError
  | (reply, keys) => .ok (reply, keys)

theorem redisServe_ok {now : ℤ} {c : Command} {keys keys' : Keyspace} {reply : Reply}
    (h : redisServe now c keys = .ok (reply, keys')) :
    c.run now keys = (reply, keys') ∧ reply ≠ .wrongType := by
  unfold redisServe at h
  rcases hrun : c.run now keys with ⟨r, k⟩
  rw [hrun] at h
  cases r with
  | wrongType => cases h
  | status | integer _ | fields _ =>
      cases h
      exact ⟨rfl, nofun⟩

theorem redisServe_accepted {now : ℤ} {c : Command} {keys : Keyspace}
    (h : (c.run now keys).1 ≠ .wrongType) :
    redisServe now c keys = .ok ((c.run now keys).1, (c.run now keys).2) := by
  unfold redisServe
  rcases hrun : c.run now keys with ⟨reply, keys'⟩
  rw [hrun] at h
  cases reply with
  | wrongType => exact absurd rfl h
  | status | integer _ | fields _ => rfl

/-- A command on the way to the server, or at it. -/
theorem command_eq (c : Command) (w : RedisWorld) :
    RedisWorld.command c w =
      match w.faults w.issued, redisServe w.arrive.now c w.keys with
      | some what, _ => (.error (.redisError what), w.arrive)
      | none, .ok (reply, keys) => (.ok reply, { w.arrive with keys := keys })
      | none, .error e => (.error e, w.arrive) := by
  unfold RedisWorld.command redisServe
  cases w.faults w.issued with
  | some what => rfl
  | none =>
      rcases c.run w.arrive.now w.keys with ⟨reply, keys⟩
      cases reply <;> rfl

variable {ι : Type} [DecidableEq ι]

abbrev RedisClients (ι : Type) :=
  Clients ι RedisCall Command Reply Keyspace TimePoint Exn RedisResult

abbrev RedisEvent (ι : Type) := ℕ × Act ι RedisCall TimePoint Exn

/-- The clients at work, from a server with `keys` on. -/
def runClients (redis : ι → RedisClient) (events : List (RedisEvent ι)) (now : ℤ)
    (keys : Keyspace) : RedisClients ι :=
  run (fun i call => call.program (redis i)) redisServe events (Clients.initial now keys)

/-- **What a client does alone it can do among others**, while they wait. -/
theorem perform_run (redis : ι → RedisClient) (systemNow : RedisWorld → TimePoint) (i : ι)
    (call : RedisCall) (p : RedisProgram RedisResult) :
    ∀ (w : RedisWorld) (s : RedisClients ι), s.now = w.now → s.data = w.keys →
      s.running i = some (call, p) →
      ∃ events : List (RedisEvent ι),
        let t := run (fun i call => call.program (redis i)) redisServe events s
        let result := p.perform RedisWorld.command systemNow w
        t.now = result.2.now ∧ t.data = result.2.keys ∧ t.running i = some (call, .done result.1) := by
  induction p with
  | done result => exact fun w s hnow hdata hi => ⟨[], hnow, hdata, hi⟩
  | issue c next ih =>
      intro w s hnow hdata hi
      have harrive : s.now + (w.delays w.issued : ℕ) = w.arrive.now := by
        rw [hnow]
        rfl
      -- the command fails as the world has it
      let delivery : Delivery Exn :=
        (w.faults w.issued).elim .answered fun what => .failed (.redisError what)
      have hstep : ∀ {e : Except Exn Reply} {w' : RedisWorld} {s' : RedisClients ι},
          RedisWorld.command c w = (e, w') →
          step (fun i call => call.program (redis i)) redisServe s
            (w.delays w.issued, .command i delivery) = s' →
          s'.now = w'.now → s'.data = w'.keys → s'.running i = some (call, next e) →
          ∃ events : List (RedisEvent ι),
            let t := run (fun i call => call.program (redis i)) redisServe events s
            let result := (Program.issue c next).perform RedisWorld.command systemNow w
            t.now = result.2.now ∧ t.data = result.2.keys
              ∧ t.running i = some (call, .done result.1) := by
        intro e w' s' hcommand hs' hnow' hdata' hi'
        obtain ⟨events, hrun⟩ := ih e w' s' hnow' hdata' hi'
        refine ⟨(w.delays w.issued, .command i delivery) :: events, ?_⟩
        have hperform : (Program.issue c next).perform RedisWorld.command systemNow w
            = (next e).perform RedisWorld.command systemNow w' := by
          show (next (RedisWorld.command c w).1).perform RedisWorld.command systemNow
            (RedisWorld.command c w).2 = _
          rw [hcommand]
        simp only [hperform, run, List.foldl_cons, hs']
        exact hrun
      have hcommand := command_eq c w
      cases hfault : w.faults w.issued with
      | some what =>
          simp only [hfault] at hcommand
          refine hstep hcommand rfl ?_ ?_ ?_ <;>
            simp only [delivery, hfault, Option.elim_some, step, act, hi]
          · exact harrive
          · exact hdata
          · exact Function.update_self _ _ _
      | none =>
          rcases hserve : redisServe w.arrive.now c w.keys with e | ⟨reply, keys⟩
          · simp only [hfault, hserve] at hcommand
            refine hstep hcommand rfl ?_ ?_ ?_ <;>
              simp only [delivery, hfault, Option.elim_none, step, act, hi, harrive, hdata,
                hserve]
            · rfl
            · rfl
            · exact Function.update_self _ _ _
          · simp only [hfault, hserve] at hcommand
            refine hstep hcommand rfl ?_ ?_ ?_ <;>
              simp only [delivery, hfault, Option.elim_none, step, act, hi, harrive, hdata,
                hserve]
            · rfl
            · rfl
            · exact Function.update_self _ _ _
  | clock next ih =>
      intro w s hnow hdata hi
      obtain ⟨events, hrun⟩ := ih (systemNow w) w (s.proceed i call (next (systemNow w))) hnow
        hdata (Function.update_self _ _ _)
      refine ⟨(0, .clock i (systemNow w)) :: events, ?_⟩
      have hstep : step (fun i call => call.program (redis i)) redisServe s
          (0, .clock i (systemNow w)) = s.proceed i call (next (systemNow w)) := by
        simp only [step, act, hi, Nat.cast_zero, add_zero]
      simp only [run, List.foldl_cons, hstep]
      exact hrun

/-! ## §3. Traces. -/

abbrev RedisTrace (ι : Type) := List (Execution ι RedisCall Command)

section Traces

variable {redis : ι → RedisClient} {symbol : Symbol} {keys : Keyspace}

/-- Every command of the trace is one of its call's. -/
def OfCalls (redis : ι → RedisClient) (trace : RedisTrace ι) : Prop :=
  ∀ x ∈ trace, x.call.Commands (redis x.client) x.command

theorem runClients_ofCalls (redis : ι → RedisClient) (events : List (RedisEvent ι)) (now : ℤ)
    (keys : Keyspace) : OfCalls redis (runClients redis events now keys).trace := by
  intro x hx
  exact run_issues (P := fun i call => call.Commands (redis i))
    (fun i call => call.program_issues (redis i)) now keys events x hx

omit [DecidableEq ι] in
/-- A command leaves every key but its own. -/
theorem replay_other (trace : RedisTrace ι) {x : Execution ι RedisCall Command} {key : Str}
    (h : x.command.key? ≠ some key) :
    replay redisServe (trace ++ [x]) keys key = replay redisServe trace keys key := by
  rw [replay_concat]
  split
  next reply keys' hserve =>
    have hrun := (redisServe_ok hserve).1
    have hother := Command.run_other x.now x.command (replay redisServe trace keys) h
    rw [hrun] at hother
    exact hother
  next => rfl

omit [DecidableEq ι] in
/-- What it leaves under its own. -/
theorem replay_self (trace : RedisTrace ι) {x : Execution ι RedisCall Command} {key : Str}
    (h : x.command.key? = some key)
    (haccepted : (x.command.onEntry x.now (lookup x.now (replay redisServe trace keys) key)).1
      ≠ .wrongType) :
    replay redisServe (trace ++ [x]) keys key
      = (x.command.onEntry x.now (lookup x.now (replay redisServe trace keys) key)).2 := by
  obtain ⟨hreply, hkeys⟩ := x.command.run_self x.now (replay redisServe trace keys) h
  rw [← hreply] at haccepted
  rw [← hkeys, replay_snoc (redisServe_accepted haccepted)]

theorem bookKey_eq {key : Str}
    (h : key ∈ [bidsKey symbol, asksKey symbol, bookTimestampKey symbol]) :
    ∃ rest, key = "order_book:".toList ++ rest := by
  simp only [List.mem_cons, List.not_mem_nil, or_false] at h
  rcases h with h | h | h
  · exact ⟨symbol ++ ":bids".toList, h.trans (List.append_assoc _ _ _)⟩
  · exact ⟨symbol ++ ":asks".toList, h.trans (List.append_assoc _ _ _)⟩
  · exact ⟨symbol ++ ":timestamp".toList, h.trans (List.append_assoc _ _ _)⟩

/-- The commands on the hash of a quote. -/
theorem RedisCall.Commands.quoteKey {redis : RedisClient} {call : RedisCall} {c : Command}
    (h : call.Commands redis c) (hkey : c.key? = some (quoteKey symbol)) :
    (∃ quote, call = .storeQuote symbol quote
        ∧ (c = .hmset (RedisClient.quoteKey symbol) (quoteFields quote)
          ∨ c = .expire (RedisClient.quoteKey symbol) redis.quoteTtlNs))
      ∨ (call = .getQuote symbol ∧ c = .hgetall (RedisClient.quoteKey symbol)) := by
  cases call with
  | isConnected =>
      obtain rfl : c = .ping := h
      cases hkey
  | storeQuote s quote =>
      rcases h with rfl | rfl | rfl | rfl
      · cases quoteKey_inj (Option.some.inj hkey)
        exact Or.inl ⟨quote, rfl, Or.inl rfl⟩
      · cases quoteKey_inj (Option.some.inj hkey)
        exact Or.inl ⟨quote, rfl, Or.inr rfl⟩
      · exact absurd (Option.some.inj hkey).symm (quoteKey_ne_historyKey symbol s)
      · exact absurd (Option.some.inj hkey).symm (quoteKey_ne_historyKey symbol s)
  | getQuote s =>
      obtain rfl : c = .hgetall (RedisClient.quoteKey s) := h
      cases quoteKey_inj (Option.some.inj hkey)
      exact Or.inr ⟨rfl, rfl⟩
  | updateOrderBook s bids asks =>
      obtain ⟨key, hmem, hc⟩ := h.bookKey
      have hquote : key = RedisClient.quoteKey symbol := Option.some.inj (hc.symm.trans hkey)
      obtain ⟨rest, hrest⟩ := bookKey_eq hmem
      exact absurd (hquote.symm.trans hrest) (quoteKey_ne_bookKey symbol rest)

/-- The commands on a history. -/
theorem RedisCall.Commands.historyKey {redis : RedisClient} {call : RedisCall} {c : Command}
    (h : call.Commands redis c) (hkey : c.key? = some (quoteHistoryKey symbol)) :
    ∃ quote, call = .storeQuote symbol quote
      ∧ (c = .lpush (quoteHistoryKey symbol) (historyEntry quote)
        ∨ c = .ltrim (quoteHistoryKey symbol) 0 999) := by
  cases call with
  | isConnected =>
      obtain rfl : c = .ping := h
      cases hkey
  | storeQuote s quote =>
      rcases h with rfl | rfl | rfl | rfl
      · exact absurd (Option.some.inj hkey) (quoteKey_ne_historyKey s symbol)
      · exact absurd (Option.some.inj hkey) (quoteKey_ne_historyKey s symbol)
      · cases quoteHistoryKey_inj (Option.some.inj hkey)
        exact ⟨quote, rfl, Or.inl rfl⟩
      · cases quoteHistoryKey_inj (Option.some.inj hkey)
        exact ⟨quote, rfl, Or.inr rfl⟩
  | getQuote s =>
      obtain rfl : c = .hgetall (RedisClient.quoteKey s) := h
      exact absurd (Option.some.inj hkey) (quoteKey_ne_historyKey s symbol)
  | updateOrderBook s bids asks =>
      obtain ⟨key, hmem, hc⟩ := h.bookKey
      have hhistory : key = quoteHistoryKey symbol := Option.some.inj (hc.symm.trans hkey)
      obtain ⟨rest, hrest⟩ := bookKey_eq hmem
      exact absurd ⟨symbol, hhistory.symm.trans hrest⟩ (bookKey_not_history rest)

def isHmset : Command → Bool
  | .hmset _ _ => true
  | _ => false

def isLpush : Command → Bool
  | .lpush _ _ => true
  | _ => false

/-- The quotes of a symbol whose `write` the server has executed, oldest
first. -/
def written (write : Command → Bool) (symbol : Symbol) (trace : RedisTrace ι) : List Quote :=
  trace.filterMap fun x =>
    match x.call with
    | .storeQuote s quote => if s = symbol ∧ write x.command = true then some quote else none
    | _ => none

omit [DecidableEq ι] in
theorem written_snoc_store {write : Command → Bool} (trace : RedisTrace ι)
    {x : Execution ι RedisCall Command} {quote : Quote} (hcall : x.call = .storeQuote symbol quote)
    (hwrite : write x.command = true) :
    written write symbol (trace ++ [x]) = written write symbol trace ++ [quote] := by
  unfold written
  rw [List.filterMap_append]
  simp [hcall, hwrite]

omit [DecidableEq ι] in
theorem written_snoc_other {write : Command → Bool} (trace : RedisTrace ι)
    {x : Execution ι RedisCall Command}
    (h : ∀ quote, x.call = .storeQuote symbol quote → write x.command = false) :
    written write symbol (trace ++ [x]) = written write symbol trace := by
  unfold written
  rw [List.filterMap_append]
  have hnone : (match x.call with
      | .storeQuote s quote => if s = symbol ∧ write x.command = true then some quote else none
      | _ => none) = none := by
    cases hcall : x.call with
    | storeQuote s quote =>
        refine if_neg ?_
        rintro ⟨rfl, hwrite⟩
        rw [h quote hcall] at hwrite
        cases hwrite
    | isConnected | getQuote _ | updateOrderBook _ _ _ => rfl
  rw [List.filterMap_cons, hnone, List.filterMap_nil, List.append_nil]

end Traces

/-! ## §4. Quotes are never torn. -/

section Quotes

variable {redis : ι → RedisClient} {symbol : Symbol} {keys : Keyspace}

/-- What is under the key of a quote reads as the quote of the last HMSET. -/
def ReadsAsLast (symbol : Symbol) (trace : RedisTrace ι) (keys : Keyspace) : Prop :=
  ∀ entry, keys (quoteKey symbol) = some entry → ∃ fields quote, entry.value = .hash fields
    ∧ (written isHmset symbol trace).getLast? = some quote
    ∧ decodeQuote symbol fields = decodeQuote symbol (quoteFields quote)

omit [DecidableEq ι] in
theorem replay_readsAsLast (hkeys : keys (quoteKey symbol) = none) {trace : RedisTrace ι}
    (h : OfCalls redis trace) : ReadsAsLast symbol trace (replay redisServe trace keys) := by
  induction trace using List.reverseRecOn with
  | nil =>
      intro entry hentry
      rw [show replay redisServe [] keys = keys from rfl, hkeys] at hentry
      cases hentry
  | append_singleton trace x ih =>
      have ih := ih (fun y hy => h y (List.mem_append_left _ hy))
      have hx := h x (List.mem_append_right _ (List.mem_singleton_self x))
      -- what the command finds is live, and was there before
      have hfound : ∀ entry,
          lookup x.now (replay redisServe trace keys) (quoteKey symbol) = some entry →
          replay redisServe trace keys (quoteKey symbol) = some entry :=
        fun entry hentry => (lookup_eq_some.mp hentry).1
      by_cases hkey : x.command.key? = some (quoteKey symbol)
      · rcases hx.quoteKey hkey with ⟨quote, hcall, hc | hc⟩ | ⟨hcall, hc⟩
        · -- HMSET replaces every field
          have hhash : ∀ entry,
              lookup x.now (replay redisServe trace keys) (quoteKey symbol) = some entry →
              ∃ fields, entry.value = .hash fields := by
            intro entry hentry
            obtain ⟨fields, _, hfields, _⟩ := ih entry (hfound entry hentry)
            exact ⟨fields, hfields⟩
          obtain ⟨old, honEntry⟩ := hmset_onEntry x.now (quoteKey symbol) (quoteFields quote) hhash
          rw [← hc] at honEntry
          have hself := replay_self trace hkey (by rw [honEntry]; exact nofun)
          rw [honEntry] at hself
          intro entry hentry
          rw [hself] at hentry
          refine ⟨_, quote, congrArg Entry.value (Option.some.inj hentry).symm, ?_,
            decodeQuote_setFields symbol old quote⟩
          rw [written_snoc_store trace hcall (by rw [hc]; rfl), List.getLast?_concat]
        · -- EXPIRE keeps the fields
          obtain ⟨n, honEntry⟩ := expire_onEntry x.now (quoteKey symbol) (redis x.client).quoteTtlNs
            (lookup x.now (replay redisServe trace keys) (quoteKey symbol))
          rw [← hc] at honEntry
          have hself := replay_self trace hkey (by rw [honEntry]; exact nofun)
          rw [honEntry] at hself
          intro entry hentry
          rw [hself] at hentry
          obtain ⟨held, hheld, rfl⟩ := Option.map_eq_some_iff.mp hentry
          rw [written_snoc_other trace (fun _ _ => by rw [hc]; rfl)]
          exact ih held (hfound held hheld)
        · have hlive : (x.command.onEntry x.now
              (lookup x.now (replay redisServe trace keys) (quoteKey symbol))).1 ≠ .wrongType := by
            rw [hc]
            rcases hheld : lookup x.now (replay redisServe trace keys) (quoteKey symbol) with
              _ | ⟨value, expireAt⟩
            · exact nofun
            · obtain ⟨fields, _, hfields, _⟩ := ih _ (hfound _ hheld)
              obtain rfl : value = .hash fields := hfields
              exact nofun
          have hself := replay_self trace hkey hlive
          rw [hc, hgetall_onEntry] at hself
          intro entry hentry
          rw [hself] at hentry
          rw [written_snoc_other trace (fun _ _ => by rw [hc]; rfl)]
          exact ih entry (hfound entry hentry)
      · -- a command on another key is no store of this quote
        have hother : ∀ quote, x.call = .storeQuote symbol quote → isHmset x.command = false := by
          intro quote hcall
          rw [hcall] at hx
          rcases hx with hc | hc | hc | hc
          · exact absurd (by rw [hc]; rfl) hkey
          · rw [hc]
            rfl
          · rw [hc]
            rfl
          · rw [hc]
            rfl
        intro entry hentry
        rw [replay_other trace hkey] at hentry
        rw [written_snoc_other trace hother]
        exact ih entry hentry

/-- What HGETALL read, if it read a quote. -/
theorem quoteOfReply_some {now : ℤ} {reply : Reply} {quote : Quote}
    (hreply : ((Command.hgetall (quoteKey symbol)).run now keys).1 = reply)
    (h : quoteOfReply symbol reply = some quote) :
    ∃ fields expireAt, lookup now keys (quoteKey symbol) = some ⟨.hash fields, expireAt⟩
      ∧ quote = decodeQuote symbol fields := by
  rw [((Command.hgetall (quoteKey symbol)).run_self now keys rfl).1] at hreply
  rcases hheld : lookup now keys (quoteKey symbol) with _ | ⟨value, expireAt⟩
  · rw [hheld] at hreply
    subst hreply
    cases h
  · rw [hheld] at hreply
    subst hreply
    cases value with
    | list items => cases h
    | string text => cases h
    | hash fields =>
        refine ⟨fields, expireAt, rfl, ?_⟩
        cases fields with
        | nil => cases h
        | cons f rest =>
            change (if (decodeQuote symbol (f :: rest)).isValid
              then some (decodeQuote symbol (f :: rest)) else none) = some quote at h
            split at h
            next => exact (Option.some.inj h).symm
            next => cases h

/-- HGETALL of the call, as the server executed it after the commands `before`. -/
structure QuoteRead (symbol : Symbol) (i : ι) (keys : Keyspace) (trace before : RedisTrace ι)
    (reply : Reply) : Prop where
  executed : ∃ now after, trace
    = before ++ ⟨i, .getQuote symbol, now, .hgetall (quoteKey symbol)⟩ :: after
      ∧ ((Command.hgetall (quoteKey symbol)).run now (replay redisServe before keys)).1 = reply

omit [DecidableEq ι] in
theorem QuoteRead.later {i : ι} {trace before : RedisTrace ι} {reply : Reply}
    (h : QuoteRead symbol i keys trace before reply) (x : Execution ι RedisCall Command) :
    QuoteRead symbol i keys (trace ++ [x]) before reply := by
  obtain ⟨now, after, rfl, hreply⟩ := h.executed
  exact ⟨now, after ++ [x], by rw [List.append_assoc]; rfl, hreply⟩

/-- A call of `get_quote` has issued nothing yet, has its reply, or has met an
error. -/
def ReadStage (redis : ι → RedisClient) (keys : Keyspace) (i : ι) (call : RedisCall)
    (p : RedisProgram RedisResult) (trace : RedisTrace ι) : Prop :=
  ∀ symbol, call = .getQuote symbol →
    p = call.program (redis i)
    ∨ (∃ before reply, QuoteRead symbol i keys trace before reply
        ∧ p = .done (.ok (.inr (quoteOfReply symbol reply))))
    ∨ p = .done (.ok (.inr none))

omit [DecidableEq ι] in
theorem readStage_local (redis : ι → RedisClient) (keys : Keyspace) :
    LocalInvariant (fun i (call : RedisCall) => call.program (redis i)) redisServe keys
      (ReadStage redis keys) where
  start := fun _ _ _ _ _ => Or.inl rfl
  later := by
    intro i k p trace x h symbol hk
    rcases h symbol hk with hp | ⟨before, reply, hread, hp⟩ | hp
    · exact Or.inl hp
    · exact Or.inr (Or.inl ⟨before, reply, hread.later x, hp⟩)
    · exact Or.inr (Or.inr hp)
  answered := by
    rintro i k c next trace now reply data' h hserve symbol rfl
    rcases h symbol rfl with hp | ⟨_, _, _, hp⟩ | hp
    · obtain ⟨rfl, rfl⟩ := Program.issue.inj hp
      refine Or.inr (Or.inl ⟨trace, reply, ⟨now, [], rfl, ?_⟩, rfl⟩)
      rw [(redisServe_ok hserve).1]
    · cases hp
    · cases hp
  handed := by
    rintro i k c next trace e h symbol rfl
    rcases h symbol rfl with hp | ⟨_, _, _, hp⟩ | hp
    · obtain ⟨rfl, rfl⟩ := Program.issue.inj hp
      exact Or.inr (Or.inr rfl)
    · cases hp
    · cases hp
  clock := by
    rintro i k next trace reading h symbol rfl
    rcases h symbol rfl with hp | ⟨_, _, _, hp⟩ | hp <;> cases hp

/-- **A quote that `get_quote` returns was stored whole.**  In every
interleaving of the clients, with commands and answers lost at will, it is the
reading of the quote of the last `store_quote` for its symbol whose HMSET the
server had executed when it executed the HGETALL. -/
theorem getQuote_whole (redis : ι → RedisClient) (events : List (RedisEvent ι)) (now : ℤ)
    {i : ι} {symbol : Symbol} {quote : Quote} (hkeys : keys (quoteKey symbol) = none)
    (h : (i, .getQuote symbol, .ok (.inr (some quote)))
      ∈ (runClients redis events now keys).results) :
    ∃ before now' after stored,
      (runClients redis events now keys).trace
        = before ++ ⟨i, .getQuote symbol, now', .hgetall (quoteKey symbol)⟩ :: after
      ∧ (written isHmset symbol before).getLast? = some stored
      ∧ quote = decodeQuote symbol (quoteFields stored) := by
  have hread := (run_local (readStage_local redis keys) now events).2 i _ _ h symbol rfl
  rcases hread with hp | ⟨before, reply, ⟨now', after, htrace, hreply⟩, hp⟩ | hp
  · cases hp
  · obtain ⟨fields, expireAt, hheld, rfl⟩ := quoteOfReply_some hreply
      (Sum.inr.inj (Except.ok.inj (Program.done.inj hp))).symm
    have hcalls : OfCalls redis before := by
      intro x hx
      refine runClients_ofCalls redis events now keys x ?_
      rw [show (runClients redis events now keys).trace = _ from htrace]
      exact List.mem_append_left _ hx
    obtain ⟨fields', stored, hvalue, hlast, hdecode⟩ :=
      replay_readsAsLast hkeys hcalls _ (lookup_eq_some.mp hheld).1
    obtain rfl : fields = fields' := Redis.Value.hash.inj hvalue
    exact ⟨before, now', after, stored, htrace, hlast, hdecode⟩
  · cases hp

/-- One client stores a quote, and another reads it before it has its time to
live. -/
def sampleEvents : List (RedisEvent Bool) :=
  [(0, .start false (.storeQuote "IBM".toList (RedisClient.quoteAt 100))),
    (1, .command false .answered), (0, .start true (.getQuote "IBM".toList)),
    (1, .command true .answered), (0, .finish true),
    (1, .command false .answered), (1, .command false .answered), (1, .command false .answered),
    (0, .finish false)]

/-- The clients after the sample events, on an empty server. -/
def sampleRun : RedisClients Bool := runClients (fun _ => oneMinute) sampleEvents 0 (fun _ => none)

/-- The first quote that was read for IBM. -/
def firstRead (results : List (Bool × RedisCall × Except Exn RedisResult)) : Option Quote :=
  results.findSome? fun
    | (true, .getQuote symbol, .ok (.inr (some quote))) =>
        if symbol = "IBM".toList then some quote else none
    | _ => none

theorem mem_of_firstRead {results : List (Bool × RedisCall × Except Exn RedisResult)}
    {quote : Quote} (h : firstRead results = some quote) :
    (true, .getQuote "IBM".toList, .ok (.inr (some quote))) ∈ results := by
  obtain ⟨result, hmem, hresult⟩ := List.exists_of_findSome?_eq_some h
  rcases result with ⟨_ | _, _ | _ | symbol | _, _ | _ | _ | quote'⟩ <;>
    simp only [reduceCtorEq] at hresult
  split at hresult
  next hsymbol =>
    cases hresult
    rw [← hsymbol]
    exact hmem
  next => cases hresult

theorem getQuote_whole_sampleRun :
    ∃ quote before now' after stored,
      sampleRun.trace = before
        ++ ⟨true, .getQuote "IBM".toList, now', .hgetall (quoteKey "IBM".toList)⟩ :: after
      ∧ (written isHmset "IBM".toList before).getLast? = some stored
      ∧ quote = decodeQuote "IBM".toList (quoteFields stored) := by
  have hread : (firstRead sampleRun.results).isSome = true := by decide +kernel
  obtain ⟨quote, hquote⟩ := Option.isSome_iff_exists.mp hread
  exact ⟨quote, getQuote_whole (fun _ => oneMinute) sampleEvents 0 rfl (mem_of_firstRead hquote)⟩

end Quotes

/-! ## §5. What clients owe. -/

section Debts

variable {redis : ι → RedisClient} {symbol : Symbol} {keys : Keyspace}

/-- The call stores a quote of the symbol. -/
def stores (symbol : Symbol) : RedisCall → Bool
  | .storeQuote s _ => s = symbol
  | _ => false

/-- HMSET on the quote of a symbol. -/
def opensQuote (symbol : Symbol) : Command → Bool
  | .hmset key _ => key = quoteKey symbol
  | _ => false

/-- EXPIRE on the quote of a symbol. -/
def settlesQuote (symbol : Symbol) : Command → Bool
  | .expire key _ => key = quoteKey symbol
  | _ => false

/-- LPUSH on the history of a symbol. -/
def opensHistory (symbol : Symbol) : Command → Bool
  | .lpush key _ => key = quoteHistoryKey symbol
  | _ => false

/-- LTRIM on the history of a symbol. -/
def settlesHistory (symbol : Symbol) : Command → Bool
  | .ltrim key _ _ => key = quoteHistoryKey symbol
  | _ => false

/-- Calls of another kind, or for another symbol, open no quote. -/
theorem program_opensQuote (redis : RedisClient) {call : RedisCall}
    (hcall : stores symbol call = false) :
    (call.program redis).Issues (fun c => opensQuote symbol c = false) := by
  refine (call.program_issues redis).mono (fun c hc => ?_)
  cases c with
  | hmset key fields =>
      refine decide_eq_false (fun hkey => ?_)
      rcases hc.quoteKey (congrArg some hkey) with ⟨quote, rfl, _⟩ | ⟨_, hc⟩
      · exact absurd (decide_eq_true rfl) (ne_true_of_eq_false hcall)
      · cases hc
  | _ => rfl

theorem program_opensHistory (redis : RedisClient) {call : RedisCall}
    (hcall : stores symbol call = false) :
    (call.program redis).Issues (fun c => opensHistory symbol c = false) := by
  refine (call.program_issues redis).mono (fun c hc => ?_)
  cases c with
  | lpush key item =>
      refine decide_eq_false (fun hkey => ?_)
      obtain ⟨quote, rfl, _⟩ := hc.historyKey (congrArg some hkey)
      exact absurd (decide_eq_true rfl) (ne_true_of_eq_false hcall)
  | _ => rfl

/-- An error ends a call of `store_quote`. -/
theorem storeQuote_error {opens settles : Command → Bool} (e : Exn) :
    Program.Balanced opens settles false
      ((match e with
        | .redisError _ => pure false
        | e => throw e : RedisProgram Bool) >>= fun result => pure (.inl result) :
        RedisProgram RedisResult) := by
  cases e <;> exact rfl

theorem program_balanced_quote (redis : RedisClient) (call : RedisCall) :
    (call.program redis).Balanced (opensQuote symbol) (settlesQuote symbol) false := by
  by_cases hcall : stores symbol call = true
  · cases call with
    | storeQuote s quote =>
        obtain rfl : s = symbol := of_decide_eq_true hcall
        refine Program.Balanced.pair (fun _ => rfl) (decide_eq_true rfl) (decide_eq_true rfl) rfl
          storeQuote_error ?_
        rintro (e | reply)
        · exact storeQuote_error e
        · refine Program.Balanced.skip rfl ?_
          rintro (e | reply)
          · exact storeQuote_error e
          · refine Program.Balanced.skip rfl ?_
            rintro (e | reply)
            · exact storeQuote_error e
            · exact rfl
    | isConnected | getQuote _ | updateOrderBook _ _ _ => cases hcall
  · exact Program.Balanced.of_issues (program_opensQuote redis (eq_false_of_ne_true hcall))

theorem program_balanced_history (redis : RedisClient) (call : RedisCall) :
    (call.program redis).Balanced (opensHistory symbol) (settlesHistory symbol) false := by
  by_cases hcall : stores symbol call = true
  · cases call with
    | storeQuote s quote =>
        obtain rfl : s = symbol := of_decide_eq_true hcall
        refine Program.Balanced.skip rfl ?_
        rintro (e | reply)
        · exact storeQuote_error e
        · refine Program.Balanced.skip rfl ?_
          rintro (e | reply)
          · exact storeQuote_error e
          · refine Program.Balanced.pair (fun _ => rfl) (decide_eq_true rfl) (decide_eq_true rfl)
              rfl storeQuote_error ?_
            rintro (e | reply)
            · exact storeQuote_error e
            · exact rfl
    | isConnected | getQuote _ | updateOrderBook _ _ _ => cases hcall
  · exact Program.Balanced.of_issues (program_opensHistory redis (eq_false_of_ne_true hcall))

omit [DecidableEq ι] in
theorem unsettled_concat (opens settles : Command → Bool) (trace : RedisTrace ι)
    (x : Execution ι RedisCall Command) :
    unsettled opens settles ((trace ++ [x]).map (·.command))
      = if opens x.command = true then unsettled opens settles (trace.map (·.command)) + 1
        else if settles x.command = true then 0
        else unsettled opens settles (trace.map (·.command)) := by
  rw [List.map_append, List.map_singleton, unsettled_snoc]

omit [DecidableEq ι] in
theorem unsettled_other {opens settles : Command → Bool} (trace : RedisTrace ι)
    {x : Execution ι RedisCall Command} (hopens : opens x.command = false)
    (hsettles : settles x.command = false) :
    unsettled opens settles ((trace ++ [x]).map (·.command))
      = unsettled opens settles (trace.map (·.command)) := by
  rw [unsettled_concat, hopens, hsettles]
  rfl

/-! ## §6. Time to live. -/

omit [DecidableEq ι] in
/-- A quote expires in time, or an HMSET has not been followed by an EXPIRE. -/
theorem replay_expires {ttl now : ℤ} (httl : ∀ i, (redis i).quoteTtlNs ≤ ttl)
    (hkeys : keys (quoteKey symbol) = none) {trace : RedisTrace ι} (h : OfCalls redis trace)
    (hnow : ∀ x ∈ trace, x.now ≤ now) :
    0 < unsettled (opensQuote symbol) (settlesQuote symbol) (trace.map (·.command))
    ∨ ∀ entry, replay redisServe trace keys (quoteKey symbol) = some entry →
      ∃ t, entry.expireAt = some t ∧ t ≤ now + ttl := by
  induction trace using List.reverseRecOn with
  | nil =>
      refine Or.inr (fun entry hentry => ?_)
      rw [show replay redisServe [] keys = keys from rfl, hkeys] at hentry
      cases hentry
  | append_singleton trace x ih =>
      have hbefore : OfCalls redis trace := fun y hy => h y (List.mem_append_left _ hy)
      have ih := ih hbefore (fun y hy => hnow y (List.mem_append_left _ hy))
      have hmem : x ∈ trace ++ [x] := List.mem_append_right _ (List.mem_singleton_self x)
      by_cases hkey : x.command.key? = some (quoteKey symbol)
      · rcases (h x hmem).quoteKey hkey with ⟨quote, hcall, hc | hc⟩ | ⟨hcall, hc⟩
        · -- the HMSET itself is unsettled
          left
          have hopens : opensQuote symbol (.hmset (quoteKey symbol) (quoteFields quote)) = true :=
            decide_eq_true rfl
          rw [unsettled_concat, hc, if_pos hopens]
          exact Nat.succ_pos _
        · right
          obtain ⟨n, honEntry⟩ := expire_onEntry x.now (quoteKey symbol) (redis x.client).quoteTtlNs
            (lookup x.now (replay redisServe trace keys) (quoteKey symbol))
          rw [← hc] at honEntry
          have hself := replay_self trace hkey (by rw [honEntry]; exact nofun)
          rw [honEntry] at hself
          intro entry hentry
          rw [hself] at hentry
          obtain ⟨held, _, rfl⟩ := Option.map_eq_some_iff.mp hentry
          exact ⟨_, rfl, add_le_add (hnow x hmem) (httl x.client)⟩
        · -- HGETALL changes nothing that is live
          have hother : opensQuote symbol x.command = false ∧ settlesQuote symbol x.command = false := by
            rw [hc]
            exact ⟨rfl, rfl⟩
          rw [unsettled_other trace hother.1 hother.2]
          refine ih.imp_right (fun hexpires entry hentry => ?_)
          have hlive : (x.command.onEntry x.now
              (lookup x.now (replay redisServe trace keys) (quoteKey symbol))).1 ≠ .wrongType := by
            rw [hc]
            rcases hheld : lookup x.now (replay redisServe trace keys) (quoteKey symbol) with
              _ | ⟨value, expireAt⟩
            · exact nofun
            · obtain ⟨fields, _, hfields, _⟩ :=
                replay_readsAsLast hkeys hbefore _ (lookup_eq_some.mp hheld).1
              obtain rfl : value = .hash fields := hfields
              exact nofun
          rw [replay_self trace hkey hlive, hc, hgetall_onEntry] at hentry
          exact hexpires entry (lookup_eq_some.mp hentry).1
      · have hother : opensQuote symbol x.command = false ∧ settlesQuote symbol x.command = false := by
          rcases hc : x.command <;> rw [hc] at hkey
          case hmset key fields => exact ⟨decide_eq_false (fun heq => hkey (congrArg some heq)), rfl⟩
          case expire key ttl => exact ⟨rfl, decide_eq_false (fun heq => hkey (congrArg some heq))⟩
          all_goals exact ⟨rfl, rfl⟩
        rw [unsettled_other trace hother.1 hother.2, replay_other trace hkey]
        exact ih

/-- A client between the two commands. -/
def Between (symbol : Symbol) (c : Command → Prop) (s : RedisClients ι) (i : ι) : Prop :=
  ∃ quote command next, s.running i = some (.storeQuote symbol quote, .issue command next)
    ∧ c command

omit [DecidableEq ι] in
theorem Between.of_owes {opens settles : Command → Bool} {owing : Finset ι} {s : RedisClients ι}
    (h : Indebted opens settles (stores symbol) owing s) {i : ι} (hi : i ∈ owing) :
    Between symbol (fun c => settles c = true) s i := by
  obtain ⟨call, p, hrunning, hcall, hp⟩ := h.owes i hi
  obtain ⟨c, next, rfl, hc⟩ := hp.settles_next
  cases call with
  | storeQuote s quote =>
      obtain rfl : s = symbol := of_decide_eq_true hcall
      exact ⟨quote, c, next, hrunning, hc⟩
  | isConnected | getQuote _ | updateOrderBook _ _ _ => cases hcall

/-- **Every quote expires, but for what is owed.**  In every interleaving, with
commands and answers lost at will, a live quote disappears within the greatest
time to live of the clients, unless a client is about to send the EXPIRE for it
or a call that stores it has met an error. -/
theorem quotes_expire_but_owed (redis : ι → RedisClient) {ttl : ℤ}
    (httl : ∀ i, (redis i).quoteTtlNs ≤ ttl) (events : List (RedisEvent ι)) (now : ℤ)
    (keys : Keyspace) (symbol : Symbol) (hkeys : keys (quoteKey symbol) = none) :
    let s := runClients redis events now keys
    ExpiresWithin ttl s.now s.data (quoteKey symbol)
    ∨ (∃ i, Between symbol (fun c => settlesQuote symbol c = true) s i)
    ∨ ∃ error ∈ s.errors, stores symbol error.2 = true := by
  intro s
  have hdata : s.data = replay redisServe s.trace keys := run_data now keys events
  have hcalls : OfCalls redis s.trace := runClients_ofCalls redis events now keys
  have hclock : ∀ x ∈ s.trace, x.now ≤ s.now := run_clock now keys events
  obtain ⟨owing, howing⟩ : ∃ owing,
      Indebted (opensQuote symbol) (settlesQuote symbol) (stores symbol) owing s :=
    run_balanced (fun i call => program_balanced_quote (redis i) call)
      (fun i call hcall => program_opensQuote (redis i) hcall) now keys events
  rcases replay_expires httl hkeys hcalls hclock with hunsettled | hexpires
  · -- somebody owes, or has met an error
    right
    have hbound := hunsettled.trans_le howing.bound
    rcases Nat.eq_zero_or_pos owing.card with hcard | hcard
    · rw [hcard, Nat.zero_add, List.countP_pos_iff] at hbound
      exact Or.inr hbound
    · obtain ⟨i, hi⟩ := Finset.card_pos.mp hcard
      exact Or.inl ⟨i, Between.of_owes howing hi⟩
  · left
    intro entry hentry
    rw [hdata] at hentry
    have hentry := (lookup_eq_some.mp hentry).1
    obtain ⟨fields, _, hvalue, _⟩ := replay_readsAsLast hkeys hcalls entry hentry
    exact ⟨⟨fields, hvalue⟩, hexpires entry hentry⟩

/-- When both clients are done and met no error, the quote expires. -/
theorem quotes_expire_but_owed_sampleRun :
    ExpiresWithin oneMinute.quoteTtlNs sampleRun.now sampleRun.data (quoteKey "IBM".toList) := by
  have hdone : ∀ i, (sampleRun.running i).isNone = true := by decide +kernel
  have herrors : sampleRun.errors.isEmpty = true := by decide +kernel
  rcases quotes_expire_but_owed (fun _ => oneMinute) (fun _ => le_rfl) sampleEvents 0
      (fun _ => none) "IBM".toList rfl with
    hexpires | ⟨i, _, _, _, hrunning, _⟩ | ⟨error, herror, _⟩
  · exact hexpires
  · have hnone := Option.isNone_iff_eq_none.mp (hdone i)
    rw [show sampleRun.running i = _ from hrunning] at hnone
    cases hnone
  · have hnil := List.isEmpty_iff.mp herrors
    rw [show runClients (fun _ => oneMinute) sampleEvents 0 (fun _ => none) = sampleRun from rfl,
      hnil] at herror
    cases herror

/-! ## §7. Histories. -/

omit [DecidableEq ι] in
theorem replay_lpush {trace : RedisTrace ι} {x : Execution ι RedisCall Command} {key item : Str}
    {items : List Str} (hlist : ListAt (replay redisServe trace keys) key items)
    (hc : x.command = .lpush key item) :
    ListAt (replay redisServe (trace ++ [x]) keys) key (item :: items) := by
  have haccepted : (x.command.onEntry x.now (lookup x.now (replay redisServe trace keys) key)).1
      ≠ .wrongType := by
    rw [hc, hlist.lookup]
    cases items <;> exact nofun
  have hself := replay_self trace (by rw [hc]; rfl) haccepted
  rw [hc, hlist.lookup] at hself
  refine hself.trans ?_
  cases items <;> rfl

omit [DecidableEq ι] in
theorem replay_ltrim {trace : RedisTrace ι} {x : Execution ι RedisCall Command} {key : Str}
    {items : List Str} {stop : ℕ} (hlist : ListAt (replay redisServe trace keys) key items)
    (hc : x.command = .ltrim key 0 stop) :
    ListAt (replay redisServe (trace ++ [x]) keys) key (items.take (stop + 1)) := by
  have haccepted : (x.command.onEntry x.now (lookup x.now (replay redisServe trace keys) key)).1
      ≠ .wrongType := by
    rw [hc, hlist.lookup]
    cases items <;> exact nofun
  have hself := replay_self trace (by rw [hc]; rfl) haccepted
  rw [hc, hlist.lookup] at hself
  refine hself.trans ?_
  cases items <;> rfl

/-- The entries pushed for a symbol, newest first. -/
def pushedEntries (symbol : Symbol) (trace : RedisTrace ι) : List Str :=
  (written isLpush symbol trace).reverse.map historyEntry

omit [DecidableEq ι] in
/-- A history is the newest thousand entries, and one more for each LPUSH since
the last LTRIM. -/
theorem replay_history (hkeys : keys (quoteHistoryKey symbol) = none) {trace : RedisTrace ι}
    (h : OfCalls redis trace) :
    ∃ k, 1000 ≤ k
      ∧ k ≤ 1000
        + unsettled (opensHistory symbol) (settlesHistory symbol) (trace.map (·.command))
      ∧ ListAt (replay redisServe trace keys) (quoteHistoryKey symbol)
        ((pushedEntries symbol trace).take k) := by
  induction trace using List.reverseRecOn with
  | nil => exact ⟨1000, le_rfl, le_rfl, hkeys⟩
  | append_singleton trace x ih =>
      obtain ⟨k, hlower, hupper, hlist⟩ := ih (fun y hy => h y (List.mem_append_left _ hy))
      have hx := h x (List.mem_append_right _ (List.mem_singleton_self x))
      by_cases hkey : x.command.key? = some (quoteHistoryKey symbol)
      · obtain ⟨quote, hcall, hc | hc⟩ := hx.historyKey hkey
        · refine ⟨k + 1, by omega, ?_, ?_⟩
          · have hopens : opensHistory symbol
                (.lpush (quoteHistoryKey symbol) (historyEntry quote)) = true :=
              decide_eq_true rfl
            rw [unsettled_concat, hc, if_pos hopens]
            omega
          · have hpushed : pushedEntries symbol (trace ++ [x])
                = historyEntry quote :: pushedEntries symbol trace := by
              unfold pushedEntries
              rw [written_snoc_store trace hcall (by rw [hc]; rfl), List.reverse_append]
              rfl
            rw [hpushed, List.take_succ_cons]
            exact replay_lpush hlist hc
        · refine ⟨1000, le_rfl, Nat.le_add_right _ _, ?_⟩
          have hpushed : pushedEntries symbol (trace ++ [x]) = pushedEntries symbol trace := by
            unfold pushedEntries
            rw [written_snoc_other trace (fun _ _ => by rw [hc]; rfl)]
          have htrimmed := replay_ltrim hlist hc
          rw [List.take_take, Nat.min_eq_left hlower] at htrimmed
          rw [hpushed]
          exact htrimmed
      · have hother : opensHistory symbol x.command = false
            ∧ settlesHistory symbol x.command = false := by
          rcases hc : x.command <;> rw [hc] at hkey
          case lpush key item => exact ⟨decide_eq_false (fun heq => hkey (congrArg some heq)), rfl⟩
          case ltrim key start stop =>
            exact ⟨rfl, decide_eq_false (fun heq => hkey (congrArg some heq))⟩
          all_goals exact ⟨rfl, rfl⟩
        have hpush : ∀ quote, x.call = .storeQuote symbol quote → isLpush x.command = false := by
          intro quote hcall
          rw [hcall] at hx
          rcases hx with hc | hc | hc | hc
          · rw [hc]
            rfl
          · rw [hc]
            rfl
          · exact absurd (by rw [hc]; rfl) hkey
          · rw [hc]
            rfl
        refine ⟨k, hlower, ?_, ?_⟩
        · rw [unsettled_other trace hother.1 hother.2]
          exact hupper
        · have hpushed : pushedEntries symbol (trace ++ [x]) = pushedEntries symbol trace := by
            unfold pushedEntries
            rw [written_snoc_other trace hpush]
          rw [hpushed]
          exact hlist.congr (replay_other trace hkey)

/-- **A history is the newest thousand entries, but for what is owed.**  In
every interleaving, with commands and answers lost at will, it is a prefix of
the entries that were pushed, newest first, missing nothing of the first
thousand; and it is longer than that by no more than the clients that are about
to trim it and the errors that calls which store it have met. -/
theorem history_bounded (redis : ι → RedisClient) (events : List (RedisEvent ι)) (now : ℤ)
    (keys : Keyspace) (symbol : Symbol) (hkeys : keys (quoteHistoryKey symbol) = none) :
    let s := runClients redis events now keys
    ∃ (owing : Finset ι) (k : ℕ),
      (∀ i ∈ owing, Between symbol (fun c => settlesHistory symbol c = true) s i)
      ∧ 1000 ≤ k ∧ k ≤ 1000 + owing.card + s.errors.countP (fun error => stores symbol error.2)
      ∧ ListAt s.data (quoteHistoryKey symbol) ((pushedEntries symbol s.trace).take k) := by
  intro s
  have hcalls : OfCalls redis s.trace := runClients_ofCalls redis events now keys
  obtain ⟨owing, howing⟩ : ∃ owing,
      Indebted (opensHistory symbol) (settlesHistory symbol) (stores symbol) owing s :=
    run_balanced (fun i call => program_balanced_history (redis i) call)
      (fun i call hcall => program_opensHistory (redis i) hcall) now keys events
  obtain ⟨k, hlower, hupper, hlist⟩ := replay_history hkeys hcalls
  have hdata : s.data = replay redisServe s.trace keys := run_data now keys events
  have hbound := howing.bound
  refine ⟨owing, k, fun i hi => Between.of_owes howing hi, hlower, by omega, ?_⟩
  rw [hdata]
  exact hlist

theorem history_bounded_sampleRun :
    ∃ (owing : Finset Bool) (k : ℕ),
      (∀ i ∈ owing, Between "IBM".toList (fun c => settlesHistory "IBM".toList c = true) sampleRun i)
      ∧ 1000 ≤ k
      ∧ k ≤ 1000 + owing.card
        + sampleRun.errors.countP (fun error => stores "IBM".toList error.2)
      ∧ ListAt sampleRun.data (quoteHistoryKey "IBM".toList)
        ((pushedEntries "IBM".toList sampleRun.trace).take k) :=
  history_bounded (fun _ => oneMinute) sampleEvents 0 (fun _ => none) "IBM".toList rfl

end Debts

/-! ## §8. Books. -/

section Books

variable {redis : ι → RedisClient} {symbol : Symbol} {side : Side} {keys : Keyspace}

/-- The fields written under a key since it was last deleted. -/
def fieldsSince (key : Str) (trace : RedisTrace ι) : List (Str × Str) :=
  trace.foldl (fun fields x =>
    match x.command with
    | .del k => if k = key then [] else fields
    | .hset k field value => if k = key then fields ++ [(field, value)] else fields
    | _ => fields) []

omit [DecidableEq ι] in
theorem fieldsSince_del {key : Str} (trace : RedisTrace ι) {x : Execution ι RedisCall Command}
    (h : x.command = .del key) : fieldsSince key (trace ++ [x]) = [] := by
  unfold fieldsSince
  rw [List.foldl_append, List.foldl_cons, List.foldl_nil, h]
  exact if_pos rfl

omit [DecidableEq ι] in
theorem fieldsSince_hset {key field value : Str} (trace : RedisTrace ι)
    {x : Execution ι RedisCall Command} (h : x.command = .hset key field value) :
    fieldsSince key (trace ++ [x]) = fieldsSince key trace ++ [(field, value)] := by
  unfold fieldsSince
  rw [List.foldl_append, List.foldl_cons, List.foldl_nil, h]
  exact if_pos rfl

omit [DecidableEq ι] in
theorem fieldsSince_other {key : Str} (trace : RedisTrace ι) {x : Execution ι RedisCall Command}
    (h : x.command.key? ≠ some key) : fieldsSince key (trace ++ [x]) = fieldsSince key trace := by
  unfold fieldsSince
  rw [List.foldl_append, List.foldl_cons, List.foldl_nil]
  rcases hc : x.command <;> rw [hc] at h
  case del k => exact if_neg (fun heq => h (congrArg some heq))
  case hset k field value => exact if_neg (fun heq => h (congrArg some heq))

theorem sideKey_inj {s t : Symbol} {side side' : Side} (h : sideKey s side = sideKey t side') :
    s = t ∧ side = side' := by
  cases side <;> cases side'
  · exact ⟨bidsKey_inj h, rfl⟩
  · exact absurd h (ne_of_end (bidsKey_end s) (asksKey_end t) (by decide))
  · exact absurd h (ne_of_end (asksKey_end s) (bidsKey_end t) (by decide))
  · exact ⟨asksKey_inj h, rfl⟩

/-- The commands on one side of a book. -/
theorem RedisCall.Commands.ofSide {redis : RedisClient} {call : RedisCall} {c : Command}
    (h : call.Commands redis c) (hkey : c.key? = some (sideKey symbol side)) :
    ∃ bids asks, call = .updateOrderBook symbol bids asks
      ∧ (c = .del (sideKey symbol side) ∨ ∃ level ∈ sideLevels bids asks side,
        c = .hset (sideKey symbol side) (levelField level).1 (levelField level).2) := by
  have hbook : ∃ rest, sideKey symbol side = "order_book:".toList ++ rest := by
    have hmem : sideKey symbol side ∈ [bidsKey symbol, asksKey symbol, bookTimestampKey symbol] := by
      cases side <;> simp [sideKey]
    exact bookKey_eq hmem
  obtain ⟨rest, hrest⟩ := hbook
  cases call with
  | isConnected =>
      obtain rfl : c = .ping := h
      cases hkey
  | storeQuote s quote =>
      have hquote : ∀ s, RedisClient.quoteKey s ≠ sideKey symbol side :=
        fun s heq => quoteKey_ne_bookKey s rest (heq.trans hrest)
      have hhistory : ∀ s, quoteHistoryKey s ≠ sideKey symbol side :=
        fun s heq => bookKey_not_history rest ⟨s, heq.trans hrest⟩
      rcases h with rfl | rfl | rfl | rfl
      · exact absurd (Option.some.inj hkey) (hquote s)
      · exact absurd (Option.some.inj hkey) (hquote s)
      · exact absurd (Option.some.inj hkey) (hhistory s)
      · exact absurd (Option.some.inj hkey) (hhistory s)
  | getQuote s =>
      obtain rfl : c = .hgetall (RedisClient.quoteKey s) := h
      exact absurd ((Option.some.inj hkey).trans hrest) (quoteKey_ne_bookKey s rest)
  | updateOrderBook s bids asks =>
      refine ⟨bids, asks, ?_⟩
      rcases h with ⟨side', rfl | ⟨level, hlevel, rfl⟩⟩ | ⟨text, rfl⟩
      · obtain ⟨rfl, rfl⟩ := sideKey_inj (Option.some.inj hkey)
        exact ⟨rfl, Or.inl rfl⟩
      · obtain ⟨rfl, rfl⟩ := sideKey_inj (Option.some.inj hkey)
        exact ⟨rfl, Or.inr ⟨level, hlevel, rfl⟩⟩
      · exfalso
        have hstamp : bookTimestampKey s = sideKey symbol side := Option.some.inj hkey
        cases side with
        | bid =>
            exact ne_of_end (bookTimestampKey_end s) (bidsKey_end symbol) (by decide) hstamp
        | ask =>
            exact ne_of_end (bookTimestampKey_end s) (asksKey_end symbol) (by decide) hstamp

/-- The field is a level that a call for the symbol has for this side. -/
def OfUpdate (symbol : Symbol) (side : Side) (trace : RedisTrace ι) (field : Str × Str) : Prop :=
  ∃ x ∈ trace, ∃ bids asks, x.call = .updateOrderBook symbol bids asks
    ∧ ∃ level ∈ sideLevels bids asks side, field = levelField level

omit [DecidableEq ι] in
theorem replay_book (hkeys : keys (sideKey symbol side) = none) {trace : RedisTrace ι}
    (h : OfCalls redis trace) :
    HashAt (replay redisServe trace keys) (sideKey symbol side)
        (setFields [] (fieldsSince (sideKey symbol side) trace))
      ∧ ∀ field ∈ fieldsSince (sideKey symbol side) trace, OfUpdate symbol side trace field := by
  induction trace using List.reverseRecOn with
  | nil => exact ⟨hkeys, nofun⟩
  | append_singleton trace x ih =>
      obtain ⟨hhash, hfields⟩ := ih (fun y hy => h y (List.mem_append_left _ hy))
      have hlater : ∀ field ∈ fieldsSince (sideKey symbol side) trace,
          OfUpdate symbol side (trace ++ [x]) field := by
        intro field hfield
        obtain ⟨y, hy, hof⟩ := hfields field hfield
        exact ⟨y, List.mem_append_left _ hy, hof⟩
      have hmem : x ∈ trace ++ [x] := List.mem_append_right _ (List.mem_singleton_self x)
      by_cases hkey : x.command.key? = some (sideKey symbol side)
      · obtain ⟨bids, asks, hcall, hc | ⟨level, hlevel, hc⟩⟩ := (h x hmem).ofSide hkey
        · -- the side is deleted
          have haccepted : (x.command.onEntry x.now
              (lookup x.now (replay redisServe trace keys) (sideKey symbol side))).1
                ≠ .wrongType := by
            rw [hc]
            exact nofun
          have hself := replay_self trace hkey haccepted
          rw [hc] at hself
          rw [fieldsSince_del trace hc]
          exact ⟨hself, nofun⟩
        · -- a level is written
          have hset := hhash.hset x.now (levelField level).1 (levelField level).2
          have haccepted : (x.command.onEntry x.now
              (lookup x.now (replay redisServe trace keys) (sideKey symbol side))).1
                ≠ .wrongType := by
            rw [hc, hhash.lookup]
            split <;> exact nofun
          have hself := replay_self trace hkey haccepted
          rw [← (x.command.run_self x.now (replay redisServe trace keys) hkey).2, hc] at hself
          rw [fieldsSince_hset trace hc]
          constructor
          · rw [setFields, List.foldl_append]
            exact hself.trans hset
          · intro field hfield
            rcases List.mem_append.mp hfield with hfield | hfield
            · exact hlater field hfield
            · rw [List.mem_singleton.mp hfield]
              exact ⟨x, hmem, bids, asks, hcall, level, hlevel, rfl⟩
      · rw [fieldsSince_other trace hkey]
        exact ⟨hhash.congr (replay_other trace hkey), hlater⟩

/-- **A book is what was written since it was last deleted.**  In every
interleaving, with commands and answers lost at will, a side of a book holds
the levels set since the last DEL of its key, later ones over earlier ones, and
nothing else; each is a level of an update for this symbol, and none expires. -/
theorem book_since_deleted (redis : ι → RedisClient) (events : List (RedisEvent ι)) (now : ℤ)
    (keys : Keyspace) (symbol : Symbol) (side : Side) (hkeys : keys (sideKey symbol side) = none) :
    let s := runClients redis events now keys
    HashAt s.data (sideKey symbol side)
        (setFields [] (fieldsSince (sideKey symbol side) s.trace))
      ∧ ∀ field ∈ fieldsSince (sideKey symbol side) s.trace,
        OfUpdate symbol side s.trace field := by
  intro s
  have hcalls : OfCalls redis s.trace := runClients_ofCalls redis events now keys
  have hdata : s.data = replay redisServe s.trace keys := run_data now keys events
  rw [hdata]
  exact replay_book hkeys hcalls

/-- The first update deletes the key, and the second writes under it. -/
def overlappingUpdates : List (RedisEvent Bool) :=
  [(0, .start false (.updateOrderBook "IBM".toList (OrderedMap.empty.assign (.finite 99) 10)
      OrderedMap.empty)),
    (0, .start true (.updateOrderBook "IBM".toList (OrderedMap.empty.assign (.finite 98) 20)
      OrderedMap.empty)),
    (1, .command false .answered), (1, .command true .answered), (1, .command false .answered),
    (1, .command false .answered), (1, .command true .answered), (1, .command true .answered)]

/-- Two updates at the same time leave a book with the levels of both. -/
theorem book_since_deleted_overlapping :
    HashAt (runClients (fun _ => oneMinute) overlappingUpdates 0 (fun _ => none)).data
      (bidsKey "IBM".toList) [("99.000000".toList, "10".toList), ("98.000000".toList, "20".toList)]
    := by
  have hfields : setFields [] (fieldsSince (sideKey "IBM".toList .bid)
        (runClients (fun _ => oneMinute) overlappingUpdates 0 (fun _ => none)).trace)
      = [("99.000000".toList, "10".toList), ("98.000000".toList, "20".toList)] := by
    decide +kernel
  have hbook := (book_since_deleted (fun _ => oneMinute) overlappingUpdates 0 (fun _ => none)
    "IBM".toList .bid rfl).1
  rw [hfields] at hbook
  exact hbook

end Books

/-! ## §9. Symbols. -/

/-- Keys made of a symbol and fixed text around it. -/
structure KeyFamily where
  before : Str
  after : Str
deriving DecidableEq

namespace KeyFamily

def key (family : KeyFamily) (symbol : Symbol) : Str :=
  family.before ++ symbol ++ family.after

theorem key_inj (family : KeyFamily) {s t : Symbol} (h : family.key s = family.key t) : s = t :=
  List.append_cancel_left (List.append_cancel_right h)

/-- The texts before the symbol, or those after it, tell keys apart. -/
def Apart (f g : KeyFamily) : Prop :=
  ¬ (f.before <+: g.before ∨ g.before <+: f.before)
    ∨ ¬ (f.after <:+ g.after ∨ g.after <:+ f.after)

instance (f g : KeyFamily) : Decidable (f.Apart g) :=
  inferInstanceAs (Decidable (_ ∨ _))

theorem Apart.key_ne {f g : KeyFamily} (h : f.Apart g) (s t : Symbol) : f.key s ≠ g.key t := by
  intro heq
  have hbefore : f.before <+: f.key s := ⟨s ++ f.after, (List.append_assoc _ _ _).symm⟩
  have hbefore' : g.before <+: f.key s := by
    rw [heq]
    exact ⟨t ++ g.after, (List.append_assoc _ _ _).symm⟩
  have hafter' : g.after <:+ f.key s := by
    rw [heq]
    exact List.suffix_append _ _
  rcases h with h | h
  · exact h (List.prefix_or_prefix_of_prefix hbefore hbefore')
  · exact h (List.suffix_or_suffix_of_suffix (List.suffix_append _ _) hafter')

end KeyFamily

def keyFamilies : List KeyFamily :=
  [⟨"quote:".toList, []⟩, ⟨"quote_history:".toList, []⟩, ⟨"ticks:".toList, []⟩,
    ⟨"latest_tick:".toList, []⟩, ⟨"order_book:".toList, ":bids".toList⟩,
    ⟨"order_book:".toList, ":asks".toList⟩, ⟨"order_book:".toList, ":timestamp".toList⟩]

theorem keyFamilies_apart : ∀ f ∈ keyFamilies, ∀ g ∈ keyFamilies, f = g ∨ f.Apart g := by
  decide +kernel

theorem symbolKeys_eq (symbol : Symbol) :
    symbolKeys symbol = keyFamilies.map (fun family => family.key symbol) := by
  have hnothing : ∀ text : Str, text ++ symbol = KeyFamily.key ⟨text, []⟩ symbol :=
    fun _ => (List.append_nil _).symm
  unfold symbolKeys quoteKey quoteHistoryKey tickStreamKey latestTickKey
  rw [hnothing, hnothing, hnothing, hnothing]
  rfl

/-- A key tells its symbol, whatever characters symbols have. -/
theorem symbolKeys_disjoint {s t : Symbol} {key : Str} (hs : key ∈ symbolKeys s)
    (ht : key ∈ symbolKeys t) : s = t := by
  rw [symbolKeys_eq, List.mem_map] at hs ht
  obtain ⟨f, hf, rfl⟩ := hs
  obtain ⟨g, hg, heq⟩ := ht
  rcases keyFamilies_apart f hf g hg with rfl | hapart
  · exact f.key_inj heq.symm
  · exact absurd heq.symm (hapart.key_ne s t)

/-- The symbol a call is about. -/
def RedisCall.symbol? : RedisCall → Option Symbol
  | .isConnected => none
  | .storeQuote symbol _ => some symbol
  | .getQuote symbol => some symbol
  | .updateOrderBook symbol _ _ => some symbol

/-- A call uses no key but those of its symbol. -/
theorem RedisCall.Commands.own {redis : RedisClient} {call : RedisCall} {c : Command}
    (h : call.Commands redis c) :
    (call = .isConnected ∧ c.key? = none)
    ∨ ∃ symbol key, call.symbol? = some symbol ∧ key ∈ symbolKeys symbol ∧ c.key? = some key := by
  have hkeys : ∀ {symbol : Symbol} {key : Str},
      key ∈ [RedisClient.quoteKey symbol, quoteHistoryKey symbol, bidsKey symbol, asksKey symbol,
        bookTimestampKey symbol] → key ∈ symbolKeys symbol := by
    intro symbol key hkey
    simp only [symbolKeys, List.mem_cons, List.not_mem_nil, or_false] at hkey ⊢
    tauto
  cases call with
  | isConnected =>
      obtain rfl : c = .ping := h
      exact Or.inl ⟨rfl, rfl⟩
  | storeQuote symbol quote =>
      right
      rcases h with rfl | rfl | rfl | rfl
      · exact ⟨symbol, _, rfl, hkeys (by simp), rfl⟩
      · exact ⟨symbol, _, rfl, hkeys (by simp), rfl⟩
      · exact ⟨symbol, _, rfl, hkeys (by simp), rfl⟩
      · exact ⟨symbol, _, rfl, hkeys (by simp), rfl⟩
  | getQuote symbol =>
      obtain rfl : c = .hgetall (RedisClient.quoteKey symbol) := h
      exact Or.inr ⟨symbol, _, rfl, hkeys (by simp), rfl⟩
  | updateOrderBook symbol bids asks =>
      obtain ⟨key, hmem, hc⟩ := h.bookKey
      exact Or.inr ⟨symbol, key, rfl,
        hkeys (List.mem_cons_of_mem _ (List.mem_cons_of_mem _ hmem)), hc⟩

/-- The call is about `symbol`. -/
def aboutSymbol (symbol : Symbol) (call : RedisCall) : Bool :=
  decide (call.symbol? = some symbol)

/-- What the server has under the keys of a symbol. -/
def symbolView (symbol : Symbol) (keys : Keyspace) : List (Option Entry) :=
  (symbolKeys symbol).map keys

theorem symbolView_eq_iff {keys keys' : Keyspace} :
    symbolView symbol keys' = symbolView symbol keys
      ↔ ∀ key ∈ symbolKeys symbol, keys' key = keys key :=
  List.map_inj_left

omit [DecidableEq ι] in
/-- The calls for one symbol have nothing in common with the others. -/
theorem symbols_separate (redis : ι → RedisClient) (symbol : Symbol) :
    Separate (fun i (call : RedisCall) => call.program (redis i)) redisServe (aboutSymbol symbol)
      (fun c => ∃ key ∈ symbolKeys symbol, c.key? = some key) (symbolView symbol) where
  calls := by
    intro i call
    refine (call.program_issues (redis i)).mono (fun c hc => ?_)
    rcases hc.own with ⟨rfl, hnone⟩ | ⟨s, key, hs, hkey, hc⟩
    · refine iff_of_false ?_ Bool.false_ne_true
      rintro ⟨key, _, hsome⟩
      rw [hnone] at hsome
      cases hsome
    · rw [aboutSymbol, decide_eq_true_iff, hs]
      constructor
      · rintro ⟨key', hkey', hc'⟩
        obtain rfl : key = key' := Option.some.inj (hc.symm.trans hc')
        rw [symbolKeys_disjoint hkey hkey']
      · intro heq
        rw [← Option.some.inj heq]
        exact ⟨key, hkey, hc⟩
  own := by
    rintro now c keys keys' ⟨key, hkey, hc⟩ hview
    have hview := symbolView_eq_iff.mp hview
    have hrun := c.run_self now keys hc
    have hrun' := c.run_self now keys' hc
    rw [lookup_congr (hview key hkey), ← hrun.1, ← hrun.2] at hrun'
    have hsame : symbolView symbol (c.run now keys').2 = symbolView symbol (c.run now keys).2 := by
      refine symbolView_eq_iff.mpr (fun other hother => ?_)
      by_cases heq : other = key
      · rw [heq, hrun'.2]
      · have hne : c.key? ≠ some other := by
          rw [hc]
          exact fun h => heq (Option.some.inj h).symm
        rw [c.run_other now keys' hne, c.run_other now keys hne, hview other hother]
    have hreply := hrun'.1
    unfold redisServe
    rcases hleft : c.run now keys with ⟨reply, data⟩
    rcases hright : c.run now keys' with ⟨reply', data'⟩
    rw [hleft, hright] at hreply hsame
    simp only at hreply hsame
    rw [hreply]
    cases reply with
    | wrongType => rfl
    | status | integer _ | fields _ =>
        show Except.ok (_, symbolView symbol data') = Except.ok (_, symbolView symbol data)
        rw [hsame]
  other := by
    intro now c keys reply keys' hc hserve
    refine symbolView_eq_iff.mpr (fun key hkey => ?_)
    have hother := c.run_other now keys (fun h => hc ⟨key, hkey, h⟩)
    rw [(redisServe_ok hserve).1] at hother
    exact hother

/-- **Calls for different symbols do not notice each other.**  In every
interleaving, with commands and answers lost at will, the calls for a symbol
run, return and leave under its keys what they do with every other call deleted
and on a server that has only the keys of that symbol. -/
theorem symbols_isolated (redis : ι → RedisClient) (events : List (RedisEvent ι)) (now : ℤ)
    (keys : Keyspace) (symbol : Symbol) :
    let program := fun i (call : RedisCall) => call.program (redis i)
    let start : RedisClients ι := Clients.initial now keys
    Agrees (aboutSymbol symbol) (symbolView symbol) (runClients redis events now keys)
      (runClients redis (ownEvents program redisServe (aboutSymbol symbol) events start) now
        (fun key => if key ∈ symbolKeys symbol then keys key else none)) := by
  intro program start
  refine run_separate (symbols_separate redis symbol) events (Clients.Everyone.initial now keys) ?_
  refine ⟨rfl, ?_, fun _ => rfl, rfl, rfl, rfl⟩
  exact symbolView_eq_iff.mpr (fun key hkey => if_pos hkey)

end FinCore.Storage

/-
  FinCore.Storage.RedisClient
  ───────────────────────────
  `RedisClient`: quotes, quote history and order-book levels in Redis.

  The server and the connection to it are one state, `RedisWorld`.  Every
  command takes some time and may fail on the way, in which case it has no
  effect; which ones do is up to the world, for the n-th command issued.
-/
import FinCore.Redis.Keyspace
import FinCore.Core.OrderBook
import FinCore.Cxx.Convert

namespace FinCore.Storage

open FinCore.Cxx FinCore.Redis

/-! ## §1. The connection. -/

/-- A Redis server and what happens to the commands issued to it. -/
structure RedisWorld where
  /-- In nanoseconds. -/
  now : ℤ
  keys : Keyspace
  /-- How many commands have been issued. -/
  issued : ℕ
  /-- The error the n-th command fails with, if it fails. -/
  faults : ℕ → Option Str
  /-- The time that passes before the n-th command runs. -/
  delays : ℕ → ℕ

namespace RedisWorld

/-- The world once the next command is under way. -/
def arrive (w : RedisWorld) : RedisWorld :=
  { w with now := w.now + w.delays w.issued, issued := w.issued + 1 }

def wrongTypeError : Exn :=
  .redisError "WRONGTYPE Operation against a key holding the wrong kind of value".toList

/-- Issue a command; a failure is an `sw::redis::Error`. -/
def command (c : Command) : Action RedisWorld Exn Reply := fun w =>
  match w.faults w.issued with
  | some what => (.error (.redisError what), w.arrive)
  | none =>
      match c.run w.arrive.now w.keys with
      | (.wrongType, _) => (.error wrongTypeError, w.arrive)
      | (reply, keys) => (.ok reply, { w.arrive with keys := keys })

end RedisWorld

open RedisWorld Action

/-! ## §2. The client. -/

/-- The client; its constructor refuses a TTL that is not positive. -/
structure RedisClient where
  /-- In seconds. -/
  quoteTtl : ℤ
  quoteTtl_pos : 0 < quoteTtl

namespace RedisClient

/-- The lifetime of a stored quote in nanoseconds. -/
def quoteTtlNs (redis : RedisClient) : ℤ := redis.quoteTtl * 10 ^ 9

def quoteKey (symbol : Symbol) : Str := "quote:".toList ++ symbol

def quoteHistoryKey (symbol : Symbol) : Str := "quote_history:".toList ++ symbol

/-- `catch (const sw::redis::Error&) { return false; }`. -/
def falseOnRedisError {σ : Type} (x : Action σ Exn Bool) : Action σ Exn Bool :=
  tryCatch x fun e =>
    match e with
    | .redisError _ => pure false
    | e => throw e

/-- `catch (...) { return false; }`. -/
def falseOnError {σ : Type} (x : Action σ Exn Bool) : Action σ Exn Bool :=
  tryCatch x (fun _ => pure false)

def isConnected : Action RedisWorld Exn Bool :=
  falseOnError do
    let _ ← command .ping
    return true

/-- `std::to_string` of a signed integer. -/
def toStringInt (n : Int64) : Str :=
  if n < 0 then '-' :: toStringNat n.toInt.natAbs else toStringNat n.toInt.natAbs

/-- The hash a quote is stored as. -/
def quoteFields (quote : Quote) : List (Str × Str) :=
  [("price".toList, quote.price.toString), ("open".toList, quote.openPrice.toString),
    ("high".toList, quote.high.toString), ("low".toList, quote.low.toString),
    ("volume".toList, toStringNat quote.volume.toNat),
    ("change_pct".toList, quote.changePct.toString), ("source".toList, quote.source),
    ("timestamp".toList, toStringInt (toUnixUs quote.timestamp))]

/-- The compact record of a quote in the history list. -/
def historyEntry (quote : Quote) : Str :=
  toStringInt (toUnixUs quote.timestamp) ++ ':' :: quote.price.toString
    ++ ':' :: toStringNat quote.volume.toNat

/-- Append the compact record, newest first, and keep the last 1000. -/
def pushHistory (symbol : Symbol) (quote : Quote) : Action RedisWorld Exn Bool := do
  let _ ← command (.lpush (quoteHistoryKey symbol) (historyEntry quote))
  let _ ← command (.ltrim (quoteHistoryKey symbol) 0 999)
  return true

/-- The four commands of `store_quote`. -/
def storeQuoteCommands (redis : RedisClient) (symbol : Symbol) (quote : Quote) :
    Action RedisWorld Exn Bool := do
  let _ ← command (.hmset (quoteKey symbol) (quoteFields quote))
  let _ ← command (.expire (quoteKey symbol) redis.quoteTtlNs)
  pushHistory symbol quote

/-- `store_quote`. -/
def storeQuote (redis : RedisClient) (symbol : Symbol) (quote : Quote) :
    Action RedisWorld Exn Bool :=
  falseOnRedisError (redis.storeQuoteCommands symbol quote)

/-! ## §3. Reading a quote. -/

def findField (fields : List (Str × Str)) (field : Str) : Option Str :=
  (fields.find? (fun f => f.1 == field)).map Prod.snd

/-- A double field, 0 if it is missing or malformed.  The doubles that the cache
keeps are exact rationals here, so the number is the text's own. -/
def getDouble (fields : List (Str × Str)) (field : Str) : Double :=
  match (findField fields field).map stodExact with
  | some (.ok x) => x
  | _ => .finite 0

/-- An unsigned field, 0 if it is missing or malformed. -/
def getUint64 (fields : List (Str × Str)) (field : Str) : UInt64 :=
  match (findField fields field).map stoull with
  | some (.ok (n, _)) => n
  | _ => 0

/-- The quote a non-empty hash stands for; the source and the timestamp keep
their defaults if the field is missing or malformed. -/
def decodeQuote (symbol : Symbol) (fields : List (Str × Str)) : Quote :=
  let blank : Quote := { symbol := symbol }
  { symbol := symbol
    price := getDouble fields "price".toList
    openPrice := getDouble fields "open".toList
    high := getDouble fields "high".toList
    low := getDouble fields "low".toList
    volume := getUint64 fields "volume".toList
    changePct := getDouble fields "change_pct".toList
    source := (findField fields "source".toList).getD blank.source
    -- a timestamp that does not parse is the clock's default, as an absent one
    timestamp :=
      match (findField fields "timestamp".toList).map stoll with
      | some (.ok us) => us
      | _ => blank.timestamp }

/-- What `get_quote` makes of the reply to HGETALL. -/
def quoteOfReply (symbol : Symbol) : Reply → Option Quote
  | .fields [] => none
  | .fields fields =>
      let q := decodeQuote symbol fields
      if q.isValid then some q else none
  | _ => none

/-- `get_quote`; every exception reads as a miss. -/
def getQuote (symbol : Symbol) : Action RedisWorld Exn (Option Quote) :=
  tryCatch
    (do
      let reply ← command (.hgetall (quoteKey symbol))
      return quoteOfReply symbol reply)
    (fun _ => pure none)

/-! ## §4. Order-book levels. -/

def bidsKey (symbol : Symbol) : Str := "order_book:".toList ++ symbol ++ ":bids".toList

def asksKey (symbol : Symbol) : Str := "order_book:".toList ++ symbol ++ ":asks".toList

def bookTimestampKey (symbol : Symbol) : Str :=
  "order_book:".toList ++ symbol ++ ":timestamp".toList

/-- HSET every level under its price. -/
def storeLevels (key : Str) : List (Price × Volume) → Action RedisWorld Exn Unit
  | [] => pure ()
  | (price, vol) :: rest => do
      let _ ← command (.hset key price.toString (toStringNat vol.toNat))
      storeLevels key rest

/-- `update_order_book`; `systemNow` is the wall clock. -/
def updateOrderBook (systemNow : RedisWorld → TimePoint) (symbol : Symbol)
    (bids asks : Levels Double.lt) : Action RedisWorld Exn Bool :=
  falseOnRedisError do
    let _ ← command (.del (bidsKey symbol))
    let _ ← command (.del (asksKey symbol))
    storeLevels (bidsKey symbol) bids.entries
    storeLevels (asksKey symbol) asks.entries
    let w ← Action.get
    let _ ← command (.set (bookTimestampKey symbol) (toStringInt (toUnixUs (systemNow w))))
    return true

end RedisClient

/-! ## §5. What a command does to the world. -/

/-- `w'` comes after `w`: the clock has not gone back, and it has not moved
when commands take no time. -/
structure RedisWorld.Later (w w' : RedisWorld) : Prop where
  now_le : w.now ≤ w'.now
  faults_eq : w'.faults = w.faults
  delays_eq : w'.delays = w.delays
  instant : (∀ n, w.delays n = 0) → w'.now = w.now

namespace RedisWorld

theorem Later.refl (w : RedisWorld) : Later w w :=
  ⟨le_refl _, rfl, rfl, fun _ => rfl⟩

theorem Later.trans {u v w : RedisWorld} (h : Later u v) (h' : Later v w) : Later u w where
  now_le := h.now_le.trans h'.now_le
  faults_eq := h'.faults_eq.trans h.faults_eq
  delays_eq := h'.delays_eq.trans h.delays_eq
  instant := by
    intro hz
    rw [h'.instant (by rw [h.delays_eq]; exact hz), h.instant hz]

theorem later_arrive (w : RedisWorld) (keys : Keyspace) :
    Later w { w.arrive with keys := keys } where
  now_le := by
    show w.now ≤ w.now + w.delays w.issued
    omega
  faults_eq := rfl
  delays_eq := rfl
  instant := by
    intro hz
    show w.now + w.delays w.issued = w.now
    rw [hz]
    simp

/-- A command fails on the way, is refused for its key's type, or runs. -/
theorem command_cases (c : Command) (w : RedisWorld) :
    (∃ what, w.faults w.issued = some what ∧ command c w = (.error (.redisError what), w.arrive))
    ∨ (w.faults w.issued = none ∧ (c.run w.arrive.now w.keys).1 = .wrongType
        ∧ command c w = (.error wrongTypeError, w.arrive))
    ∨ (w.faults w.issued = none ∧ (c.run w.arrive.now w.keys).1 ≠ .wrongType
        ∧ command c w = (.ok (c.run w.arrive.now w.keys).1,
            { w.arrive with keys := (c.run w.arrive.now w.keys).2 })) := by
  unfold command
  cases hf : w.faults w.issued with
  | some what => exact Or.inl ⟨what, rfl, rfl⟩
  | none =>
      rcases hrun : c.run w.arrive.now w.keys with ⟨reply, keys⟩
      cases reply with
      | wrongType => exact Or.inr (Or.inl ⟨rfl, rfl, rfl⟩)
      | status => exact Or.inr (Or.inr ⟨rfl, nofun, rfl⟩)
      | integer n => exact Or.inr (Or.inr ⟨rfl, nofun, rfl⟩)
      | fields l => exact Or.inr (Or.inr ⟨rfl, nofun, rfl⟩)

/-- The command has run in `w`, and led to `w'`. -/
structure Ran (c : Command) (w w' : RedisWorld) (reply : Reply) : Prop where
  fault : w.faults w.issued = none
  accepted : (c.run w.arrive.now w.keys).1 ≠ .wrongType
  reply_eq : reply = (c.run w.arrive.now w.keys).1
  keys_eq : w'.keys = (c.run w.arrive.now w.keys).2
  now_eq : w'.now = w.arrive.now
  issued_eq : w'.issued = w.issued + 1
  faults_eq : w'.faults = w.faults
  delays_eq : w'.delays = w.delays

/-- A command that returns has run. -/
theorem command_ok {c : Command} {w w' : RedisWorld} {reply : Reply}
    (h : command c w = (.ok reply, w')) : Ran c w w' reply := by
  rcases command_cases c w with ⟨_, _, hrun⟩ | ⟨_, _, hrun⟩ | ⟨hfault, hreply, hrun⟩
  · rw [hrun] at h
    cases h
  · rw [hrun] at h
    cases h
  · rw [hrun] at h
    cases h
    exact ⟨hfault, hreply, rfl, rfl, rfl, rfl, rfl, rfl⟩

/-- The next command arrives after its own delay. -/
theorem Ran.arrive_now {c : Command} {w w' : RedisWorld} {reply : Reply} (h : Ran c w w' reply) :
    w'.arrive.now = w.arrive.arrive.now := by
  show w'.now + w'.delays w'.issued = w.arrive.now + w.delays (w.issued + 1)
  rw [h.now_eq, h.delays_eq, h.issued_eq]

/-- Time passes and the keys in `kept` stay as they are. -/
def Frame (kept : Set Str) (w w' : RedisWorld) : Prop :=
  Later w w' ∧ ∀ key ∈ kept, w'.keys key = w.keys key

instance (kept : Set Str) : IsPreorder RedisWorld (Frame kept) where
  refl w := ⟨Later.refl w, fun _ _ => rfl⟩
  trans _ _ _ h h' := ⟨h.1.trans h'.1, fun key hk => (h'.2 key hk).trans (h.2 key hk)⟩

/-- The action takes its time and leaves the keys in `kept` alone. -/
abbrev Keeps {α : Type} (kept : Set Str) (x : Action RedisWorld Exn α) : Prop :=
  Action.Within (Frame kept) x

section Keeps

variable {α : Type} {kept : Set Str}

theorem Keeps.mono {kept' : Set Str} {x : Action RedisWorld Exn α} (h : Keeps kept x)
    (hsub : kept' ⊆ kept) : Keeps kept' x :=
  Action.Within.mono h (fun _ _ hframe => ⟨hframe.1, fun key hk => hframe.2 key (hsub hk)⟩)

theorem keeps_command {c : Command} (h : ∀ key ∈ kept, c.key? ≠ some key) :
    Keeps kept (command c) := by
  intro w
  rcases command_cases c w with ⟨_, _, hrun⟩ | ⟨_, _, hrun⟩ | ⟨_, _, hrun⟩
  · rw [hrun]
    exact ⟨later_arrive w w.keys, fun _ _ => rfl⟩
  · rw [hrun]
    exact ⟨later_arrive w w.keys, fun _ _ => rfl⟩
  · rw [hrun]
    exact ⟨later_arrive w _, fun key hk => c.run_other _ _ (h key hk)⟩

theorem keeps_key {c : Command} {key : Str} (hkey : c.key? = some key) (h : key ∉ kept) :
    Keeps kept (command c) := by
  refine keeps_command ?_
  intro key' hmem heq
  rw [hkey] at heq
  exact h (Option.some.inj heq ▸ hmem)

end Keeps

end RedisWorld

/-! ## §6. Keys. -/

namespace RedisClient

theorem quoteKey_inj {s t : Symbol} (h : quoteKey s = quoteKey t) : s = t :=
  List.append_cancel_left h

theorem quoteKey_ne_historyKey (s t : Symbol) : quoteKey s ≠ quoteHistoryKey t := by
  intro h
  have hc : (some ':' : Option Char) = some '_' := congrArg (fun k : Str => k[5]?) h
  exact absurd hc (by decide)

theorem quoteKey_ne_bookKey (s : Symbol) (t : Str) : quoteKey s ≠ "order_book:".toList ++ t := by
  intro h
  have hc : (some 'q' : Option Char) = some 'o' := congrArg (fun k : Str => k[0]?) h
  exact absurd hc (by decide)

/-- The keys of all quotes. -/
def quoteKeys : Set Str := Set.range quoteKey

/-- Catching an error does not undo anything. -/
theorem falseOnRedisError_state {σ : Type} (x : Action σ Exn Bool) (s : σ) :
    (falseOnRedisError x s).2 = (x s).2 := by
  unfold falseOnRedisError
  rw [Action.tryCatch_run]
  rcases x s with ⟨r, s'⟩
  cases r with
  | ok b => rfl
  | error e => cases e <;> rfl

/-- True is returned only where nothing was caught. -/
theorem falseOnRedisError_true {σ : Type} {x : Action σ Exn Bool} {s s' : σ}
    (h : falseOnRedisError x s = (.ok true, s')) : x s = (.ok true, s') := by
  unfold falseOnRedisError at h
  rw [Action.tryCatch_run] at h
  rcases hx : x s with ⟨r, t⟩
  rw [hx] at h
  cases r with
  | ok b => exact h
  | error e => cases e <;> cases h

theorem falseOnRedisError_keeps {kept : Set Str} {x : Action RedisWorld Exn Bool}
    (h : Keeps kept x) : Keeps kept (falseOnRedisError x) := by
  intro w
  rw [falseOnRedisError_state]
  exact h w

/-- The history list is not a quote. -/
theorem keeps_history {c : Command} {symbol : Symbol} (h : c.key? = some (quoteHistoryKey symbol)) :
    Keeps quoteKeys (command c) := by
  refine keeps_key h ?_
  rintro ⟨s, hs⟩
  exact quoteKey_ne_historyKey s symbol hs

/-- HSET of levels writes under one key. -/
theorem storeLevels_keeps {kept : Set Str} {key : Str} (h : key ∉ kept)
    (levels : List (Price × Volume)) : Keeps kept (storeLevels key levels) := by
  induction levels with
  | nil => exact Within.pure _
  | cons level levels ih =>
      obtain ⟨price, vol⟩ := level
      exact Within.bind (keeps_key rfl h) (fun _ => ih)

/-- **Updating a book leaves every key alone but its own three.** -/
theorem updateOrderBook_frame {kept : Set Str} (systemNow : RedisWorld → TimePoint)
    {symbol : Symbol} (hbids : bidsKey symbol ∉ kept) (hasks : asksKey symbol ∉ kept)
    (hstamp : bookTimestampKey symbol ∉ kept) (bids asks : Levels Double.lt) :
    Keeps kept (updateOrderBook systemNow symbol bids asks) := by
  unfold updateOrderBook
  refine falseOnRedisError_keeps ?_
  refine Within.bind (keeps_key rfl hbids) (fun _ => ?_)
  refine Within.bind (keeps_key rfl hasks) (fun _ => ?_)
  refine Within.bind (storeLevels_keeps hbids _) (fun _ => ?_)
  refine Within.bind (storeLevels_keeps hasks _) (fun _ => ?_)
  refine Within.bind Within.get (fun w => ?_)
  exact Within.bind (keeps_key rfl hstamp) (fun _ => Within.pure _)

/-- A key of an order book is not a quote. -/
theorem bookKey_not_quote (rest : Str) : "order_book:".toList ++ rest ∉ quoteKeys := by
  rintro ⟨symbol, hsymbol⟩
  exact quoteKey_ne_bookKey symbol rest hsymbol

/-- **Updating a book leaves every key alone that is not of an order book.** -/
theorem updateOrderBook_keeps {kept : Set Str} (h : ∀ rest, "order_book:".toList ++ rest ∉ kept)
    (systemNow : RedisWorld → TimePoint) (symbol : Symbol) (bids asks : Levels Double.lt) :
    Keeps kept (updateOrderBook systemNow symbol bids asks) := by
  have hbids : bidsKey symbol = "order_book:".toList ++ (symbol ++ ":bids".toList) :=
    List.append_assoc _ _ _
  have hasks : asksKey symbol = "order_book:".toList ++ (symbol ++ ":asks".toList) :=
    List.append_assoc _ _ _
  have hstamp : bookTimestampKey symbol = "order_book:".toList ++ (symbol ++ ":timestamp".toList) :=
    List.append_assoc _ _ _
  exact updateOrderBook_frame systemNow (hbids ▸ h _) (hasks ▸ h _) (hstamp ▸ h _) bids asks

theorem isConnected_keeps (kept : Set Str) : Keeps kept isConnected := by
  refine Within.tryCatch ?_ (fun _ => Within.pure _)
  exact Within.bind (keeps_command (fun _ _ => nofun)) (fun _ => Within.pure _)

theorem pushHistory_keeps (symbol : Symbol) (quote : Quote) :
    Keeps quoteKeys (pushHistory symbol quote) := by
  refine Within.bind (keeps_history rfl) (fun _ => ?_)
  exact Within.bind (keeps_history rfl) (fun _ => Within.pure _)

/-! ## §7. What a stored quote reads back as. -/

@[simp] theorem findField_nil (name : Str) : findField [] name = none := rfl

theorem findField_cons (f : Str × Str) (fields : List (Str × Str)) (name : Str) :
    findField (f :: fields) name = if f.1 = name then some f.2 else findField fields name := by
  unfold findField
  by_cases h : f.1 = name
  · rw [if_pos h, List.find?_cons_of_pos (by simpa using h)]
    rfl
  · rw [if_neg h, List.find?_cons_of_neg (by simpa using h)]

theorem findField_append (fields news : List (Str × Str)) (name : Str) :
    findField (fields ++ news) name = (findField fields name).or (findField news name) := by
  induction fields with
  | nil => rfl
  | cons f rest ih =>
      rw [List.cons_append, findField_cons, findField_cons, ih]
      by_cases h : f.1 = name
      · rw [if_pos h, if_pos h, Option.some_or]
      · rw [if_neg h, if_neg h]

theorem findField_eq_none {fields : List (Str × Str)} {name : Str}
    (h : fields.any (fun f => f.1 == name) = false) : findField fields name = none := by
  unfold findField
  rw [List.find?_eq_none.mpr (fun f hf => by simpa using List.any_eq_false.mp h f hf)]
  rfl

/-- Overwriting a field changes what is found there, if anything is. -/
theorem findField_overwrite (fields : List (Str × Str)) (field value name : Str) :
    findField (fields.map (fun f => if f.1 = field then (field, value) else f)) name
      = (findField fields name).map (fun old => if field = name then value else old) := by
  induction fields with
  | nil => rfl
  | cons f rest ih =>
      rw [List.map_cons, findField_cons, findField_cons, ih]
      by_cases h : f.1 = field
      · rw [if_pos h, h]
        split <;> rfl
      · rw [if_neg h]
        by_cases hf : f.1 = name
        · have hne : field ≠ name := fun he => h (hf.trans he.symm)
          rw [if_pos hf, if_pos hf, Option.map_some, if_neg hne]
        · rw [if_neg hf, if_neg hf]

theorem findField_setField (fields : List (Str × Str)) (field value name : Str) :
    findField (setField fields field value) name
      = if field = name then some value else findField fields name := by
  unfold setField
  split
  · rename_i hany
    -- the field is there and is overwritten in its place
    rw [findField_overwrite]
    by_cases h : field = name
    · subst h
      obtain ⟨f, hf, hkey⟩ := List.any_eq_true.mp hany
      cases hfound : fields.find? (fun f => f.1 == field) with
      | none => exact absurd hkey (List.find?_eq_none.mp hfound f hf)
      | some f => simp [findField, hfound]
    · simp only [if_neg h, Option.map_id']
  · rename_i hany
    -- it is new and goes to the end
    rw [findField_append, findField_cons, findField_nil]
    by_cases h : field = name
    · subst h
      rw [findField_eq_none (Bool.eq_false_iff.mpr hany), if_pos rfl]
      rfl
    · rw [if_neg h, if_neg h, Option.or_none]

/-- The last of the new values counts. -/
theorem findField_setFields (fields news : List (Str × Str)) (name : Str) :
    findField (setFields fields news) name
      = (findField news.reverse name).or (findField fields name) := by
  induction news generalizing fields with
  | nil => rfl
  | cons f rest ih =>
      show findField (setFields (setField fields f.1 f.2) rest) name = _
      rw [ih, findField_setField, List.reverse_cons, findField_append, findField_cons,
        findField_nil]
      by_cases h : f.1 = name
      · rw [if_pos h, if_pos h, Option.or_assoc, Option.some_or]
      · rw [if_neg h, if_neg h, Option.or_none]

/-- A stored quote replaces every field of an older one. -/
theorem decodeQuote_setFields (symbol : Symbol) (old : List (Str × Str)) (quote : Quote) :
    decodeQuote symbol (setFields old (quoteFields quote))
      = decodeQuote symbol (quoteFields quote) := by
  have hfield : ∀ name ∈ (quoteFields quote).map Prod.fst,
      findField (setFields old (quoteFields quote)) name = findField (quoteFields quote) name := by
    intro name hname
    rw [findField_setFields]
    simp only [quoteFields, List.map_cons, List.map_nil, List.mem_cons, List.not_mem_nil,
      or_false] at hname
    rcases hname with rfl | rfl | rfl | rfl | rfl | rfl | rfl | rfl <;> rfl
  simp only [decodeQuote, getDouble, getUint64]
  rw [hfield "price".toList (by simp [quoteFields]), hfield "open".toList (by simp [quoteFields]),
    hfield "high".toList (by simp [quoteFields]), hfield "low".toList (by simp [quoteFields]),
    hfield "volume".toList (by simp [quoteFields]),
    hfield "change_pct".toList (by simp [quoteFields]),
    hfield "source".toList (by simp [quoteFields]),
    hfield "timestamp".toList (by simp [quoteFields])]

/-- A quote that `get_quote` returns is the reading of a live hash. -/
theorem getQuote_eq_some {symbol : Symbol} {w w' : RedisWorld} {quote : Quote}
    (h : getQuote symbol w = (.ok (some quote), w')) :
    ∃ fields expireAt, lookup w.arrive.now w.keys (quoteKey symbol)
        = some ⟨.hash fields, expireAt⟩
      ∧ quote = decodeQuote symbol fields := by
  unfold getQuote at h
  rw [Action.tryCatch_run] at h
  obtain ⟨hreply, _⟩ := (Command.hgetall (quoteKey symbol)).run_self w.arrive.now w.keys rfl
  rcases command_cases (.hgetall (quoteKey symbol)) w with
    ⟨_, _, hrun⟩ | ⟨_, _, hrun⟩ | ⟨_, _, hrun⟩
  · rw [Action.bind_error hrun] at h
    cases h
  · rw [Action.bind_error hrun] at h
    cases h
  · rw [Action.bind_ok hrun, hreply] at h
    -- of what can stand under the key only a hash with fields is read
    cases hfound : lookup w.arrive.now w.keys (quoteKey symbol) with
    | none =>
        rw [hfound] at h
        cases h
    | some entry =>
        rw [hfound] at h
        obtain ⟨value, expireAt⟩ := entry
        cases value with
        | list items => cases h
        | string text => cases h
        | hash fields =>
            refine ⟨fields, expireAt, rfl, ?_⟩
            cases fields with
            | nil => cases h
            | cons f rest =>
                simp only [Action.pure_run, Prod.mk.injEq, Except.ok.injEq] at h
                obtain ⟨hq, _⟩ := h
                change (if (decodeQuote symbol (f :: rest)).isValid
                  then some (decodeQuote symbol (f :: rest)) else none) = some quote at hq
                split at hq
                · exact (Option.some.inj hq).symm
                · cases hq

end RedisClient

end FinCore.Storage

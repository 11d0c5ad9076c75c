/-
  FinCore.Storage.RedisBook
  ─────────────────────────
  Order books in Redis after `update_order_book`.

  An acknowledged update starts from two deleted keys, so it leaves no level of
  an older or half-written book.  Fields are named after prices printed with
  six fractional digits: the book in Redis is the acknowledged one exactly if
  these names are distinct on each side (`acknowledged_book_iff`).
-/
import FinCore.Cxx.Rounding
import FinCore.Redis.Hash
import FinCore.Storage.QuoteTtl

namespace FinCore.Storage

open FinCore.Cxx FinCore.Redis
open RedisWorld Action

namespace RedisClient

/-! ## §1. Field names. -/

/-- The field of a level. -/
def levelField (level : Price × Volume) : Str × Str :=
  (level.1.toString, toStringNat level.2.toNat)

/-- A positive number. -/
def PositivePrice (price : Price) : Prop := ∃ q : ℚ, 0 < q ∧ price = .finite q

/-- The millionths that a price is rounded to. -/
def millionths : Price → ℤ
  | .finite q => Double.scaledRound 6 q
  | _ => 0

/-- **Two positive prices have the same field name exactly if they round to the
same millionth.** -/
theorem toString_eq_iff {p r : Price} (hp : PositivePrice p) (hr : PositivePrice r) :
    p.toString = r.toString ↔ millionths p = millionths r := by
  obtain ⟨q, hq, rfl⟩ := hp
  obtain ⟨s, hs, rfl⟩ := hr
  unfold Double.toString
  rw [Double.formatFixed_eq_text (by decide), Double.formatFixed_eq_text (by decide)]
  constructor
  · intro heq
    have hliteral := DecimalLiteral.text_inj heq
    have hvalue := @Double.fixedLiteral_value 6 (by decide) q
    rw [hliteral, Double.fixedLiteral_value (by decide) s] at hvalue
    exact_mod_cast hvalue.symm
  · intro heq
    change Double.scaledRound 6 q = Double.scaledRound 6 s at heq
    unfold Double.fixedLiteral
    simp only [heq, not_lt.mpr hq.le, not_lt.mpr hs.le, if_false]

/-- No two prices round to the same millionth. -/
def PricesApart (levels : List (Price × Volume)) : Prop :=
  (levels.map (fun level => millionths level.1)).Nodup

instance (levels : List (Price × Volume)) : Decidable (PricesApart levels) :=
  inferInstanceAs (Decidable (List.Nodup _))

theorem names_nodup_iff {levels : List (Price × Volume)}
    (h : ∀ level ∈ levels, PositivePrice level.1) :
    ((levels.map levelField).map Prod.fst).Nodup ↔ PricesApart levels := by
  unfold PricesApart
  rw [List.map_map]
  induction levels with
  | nil => simp
  | cons level rest ih =>
      have hlevel := h level List.mem_cons_self
      have hrest : ∀ l ∈ rest, PositivePrice l.1 := fun l hl => h l (List.mem_cons_of_mem _ hl)
      rw [List.map_cons, List.map_cons, List.nodup_cons, List.nodup_cons, ih hrest]
      have hmem : (Prod.fst ∘ levelField) level ∈ rest.map (Prod.fst ∘ levelField)
          ↔ millionths level.1 ∈ rest.map (fun l => millionths l.1) := by
        rw [List.mem_map, List.mem_map]
        refine exists_congr (fun l => and_congr_right ?_)
        intro hl
        exact toString_eq_iff (hrest l hl) hlevel
      rw [hmem]

/-! ## §2. One call. -/

theorem bidsKey_inj {s t : Symbol} (h : bidsKey s = bidsKey t) : s = t :=
  List.append_cancel_left (List.append_cancel_right h)

theorem asksKey_inj {s t : Symbol} (h : asksKey s = asksKey t) : s = t :=
  List.append_cancel_left (List.append_cancel_right h)

theorem bidsKey_end (s : Symbol) : (bidsKey s).reverse[1]? = some 'd' := by
  unfold bidsKey
  rw [List.reverse_append]
  rfl

theorem asksKey_end (s : Symbol) : (asksKey s).reverse[1]? = some 'k' := by
  unfold asksKey
  rw [List.reverse_append]
  rfl

theorem bookTimestampKey_end (s : Symbol) : (bookTimestampKey s).reverse[1]? = some 'm' := by
  unfold bookTimestampKey
  rw [List.reverse_append]
  rfl

/-- The three keys of a book differ in their last letters but one. -/
theorem ne_of_end {a b : Str} {x y : Char} (ha : a.reverse[1]? = some x)
    (hb : b.reverse[1]? = some y) (h : x ≠ y) : a ≠ b := by
  rintro rfl
  exact h (Option.some.inj (ha.symm.trans hb))

/-- **A loop over levels writes their fields**, one after the other. -/
theorem storeLevels_ok {key : Str} (levels : List (Price × Volume)) :
    ∀ {w w' : RedisWorld} {fields : List (Str × Str)}, HashAt w.keys key fields →
      storeLevels key levels w = (.ok (), w') →
      HashAt w'.keys key (setFields fields (levels.map levelField)) := by
  induction levels with
  | nil =>
      intro w w' fields hfields hrun
      cases hrun
      exact hfields
  | cons level rest ih =>
      intro w w' fields hfields hrun
      obtain ⟨price, vol⟩ := level
      obtain ⟨reply, v, hset, hrest⟩ := Action.bind_eq_ok hrun
      have hran := command_ok hset
      refine ih ?_ hrest
      rw [hran.keys_eq]
      exact hfields.hset _ _ _

/-- What an update leaves alone. -/
theorem keys_of_keeps {A : Type} {kept : Set Str} {x : Action RedisWorld Exn A}
    (h : Keeps kept x) {w w' : RedisWorld} {a : A} (hrun : x w = (.ok a, w')) {key : Str}
    (hkey : key ∈ kept) : w'.keys key = w.keys key := by
  have hframe := h w
  rw [hrun] at hframe
  exact hframe.2 key hkey

theorem command_other {c : Command} {key other : Str} (hkey : c.key? = some other)
    (hne : key ≠ other) {w w' : RedisWorld} {reply : Reply}
    (hrun : command c w = (.ok reply, w')) : w'.keys key = w.keys key := by
  have hnot : other ∉ ({key} : Set Str) := hne.symm
  exact keys_of_keeps (keeps_key hkey hnot) hrun rfl

theorem storeLevels_other {key other : Str} (hne : key ≠ other)
    {levels : List (Price × Volume)} {w w' : RedisWorld}
    (hrun : storeLevels other levels w = (.ok (), w')) : w'.keys key = w.keys key := by
  have hnot : other ∉ ({key} : Set Str) := hne.symm
  exact keys_of_keeps (storeLevels_keeps hnot levels) hrun rfl

/-- **An acknowledged update leaves the fields of its levels**, whatever was
there before. -/
theorem updateOrderBook_ok {systemNow : RedisWorld → TimePoint} {symbol : Symbol}
    {bids asks : Levels Double.lt} {w w' : RedisWorld}
    (h : updateOrderBook systemNow symbol bids asks w = (.ok true, w')) :
    HashAt w'.keys (bidsKey symbol) (setFields [] (bids.entries.map levelField))
    ∧ HashAt w'.keys (asksKey symbol) (setFields [] (asks.entries.map levelField)) := by
  have hne : bidsKey symbol ≠ asksKey symbol :=
    ne_of_end (bidsKey_end symbol) (asksKey_end symbol) (by decide)
  have hbidsStamp : bidsKey symbol ≠ bookTimestampKey symbol :=
    ne_of_end (bidsKey_end symbol) (bookTimestampKey_end symbol) (by decide)
  have hasksStamp : asksKey symbol ≠ bookTimestampKey symbol :=
    ne_of_end (asksKey_end symbol) (bookTimestampKey_end symbol) (by decide)
  -- every command has run: two deletes, the levels of both sides, the time stamp
  obtain ⟨_, w₁, hdelBids, h⟩ := Action.bind_eq_ok (falseOnRedisError_true h)
  obtain ⟨_, w₂, hdelAsks, h⟩ := Action.bind_eq_ok h
  obtain ⟨_, w₃, hbids, h⟩ := Action.bind_eq_ok h
  obtain ⟨_, w₄, hasks, h⟩ := Action.bind_eq_ok h
  change (command (.set (bookTimestampKey symbol) (toStringInt (toUnixUs (systemNow w₄))))
    >>= fun _ => pure true) w₄ = (.ok true, w') at h
  obtain ⟨_, w₅, hstamp, h⟩ := Action.bind_eq_ok h
  cases h
  constructor
  · have hdeleted : HashAt w₁.keys (bidsKey symbol) [] := by
      rw [(command_ok hdelBids).keys_eq]
      exact hashAt_del _ _ _
    have hkept : w₂.keys (bidsKey symbol) = w₁.keys (bidsKey symbol) :=
      command_other rfl hne hdelAsks
    have hlevels := storeLevels_ok bids.entries (hdeleted.congr hkept) hbids
    have hkept : w₄.keys (bidsKey symbol) = w₃.keys (bidsKey symbol) :=
      storeLevels_other hne hasks
    have hkept' : w'.keys (bidsKey symbol) = w₄.keys (bidsKey symbol) :=
      command_other rfl hbidsStamp hstamp
    exact (hlevels.congr hkept).congr hkept'
  · have hdeleted : HashAt w₂.keys (asksKey symbol) [] := by
      rw [(command_ok hdelAsks).keys_eq]
      exact hashAt_del _ _ _
    have hkept : w₃.keys (asksKey symbol) = w₂.keys (asksKey symbol) :=
      storeLevels_other hne.symm hbids
    have hlevels := storeLevels_ok asks.entries (hdeleted.congr hkept) hasks
    have hkept' : w'.keys (asksKey symbol) = w₄.keys (asksKey symbol) :=
      command_other rfl hasksStamp hstamp
    exact hlevels.congr hkept'

/-! ## §3. Runs. -/

/-- A call of `update_order_book`. -/
structure BookCall where
  symbol : Symbol
  bids : Levels Double.lt
  asks : Levels Double.lt

section Run

variable (systemNow : RedisWorld → TimePoint)

def BookCall.perform (call : BookCall) : Action RedisWorld Exn Bool :=
  updateOrderBook systemNow call.symbol call.bids call.asks

/-- The world after the calls. -/
def runBookCalls (calls : List BookCall) (w : RedisWorld) : RedisWorld :=
  calls.foldl (fun w call => (call.perform systemNow w).2) w

/-- HGETALL, whenever it comes, replies with one field for each level, and no
other. -/
def HoldsLevels (w : RedisWorld) (key : Str) (levels : List (Price × Volume)) : Prop :=
  ∀ now, ∃ fields, ((Command.hgetall key).run now w.keys).1 = .fields fields
    ∧ fields.Perm (levels.map levelField)

theorem holdsLevels_iff {w : RedisWorld} {key : Str} {levels : List (Price × Volume)}
    (hpositive : ∀ level ∈ levels, PositivePrice level.1)
    (h : HashAt w.keys key (setFields [] (levels.map levelField))) :
    HoldsLevels w key levels ↔ PricesApart levels := by
  rw [← names_nodup_iff hpositive, ← setFields_perm_iff]
  constructor
  · intro hholds
    obtain ⟨fields, hreply, hperm⟩ := hholds 0
    rw [h.hgetall 0] at hreply
    rw [Reply.fields.inj hreply]
    exact hperm
  · intro hperm now
    exact ⟨_, h.hgetall now, hperm⟩

/-- Calls for other symbols leave a book alone. -/
theorem runBookCalls_other {symbol : Symbol} {calls : List BookCall}
    (h : ∀ call ∈ calls, call.symbol ≠ symbol) (w : RedisWorld) :
    (runBookCalls systemNow calls w).keys (bidsKey symbol) = w.keys (bidsKey symbol)
    ∧ (runBookCalls systemNow calls w).keys (asksKey symbol) = w.keys (asksKey symbol) := by
  induction calls generalizing w with
  | nil => exact ⟨rfl, rfl⟩
  | cons call rest ih =>
      have hother := h call List.mem_cons_self
      -- keys of one kind tell the symbols apart, keys of two kinds their ends
      have hbids : bidsKey call.symbol ∉ ({bidsKey symbol, asksKey symbol} : Set Str) := by
        rintro (heq | heq)
        · exact hother (bidsKey_inj heq)
        · exact ne_of_end (bidsKey_end _) (asksKey_end _) (by decide) heq
      have hasks : asksKey call.symbol ∉ ({bidsKey symbol, asksKey symbol} : Set Str) := by
        rintro (heq | heq)
        · exact ne_of_end (asksKey_end _) (bidsKey_end _) (by decide) heq
        · exact hother (asksKey_inj heq)
      have hstamp : bookTimestampKey call.symbol
          ∉ ({bidsKey symbol, asksKey symbol} : Set Str) := by
        rintro (heq | heq)
        · exact ne_of_end (bookTimestampKey_end _) (bidsKey_end _) (by decide) heq
        · exact ne_of_end (bookTimestampKey_end _) (asksKey_end _) (by decide) heq
      have hframe := updateOrderBook_frame systemNow hbids hasks hstamp call.bids call.asks w
      obtain ⟨ihbids, ihasks⟩ := ih (fun c hc => h c (List.mem_cons_of_mem _ hc))
        (call.perform systemNow w).2
      exact ⟨ihbids.trans (hframe.2 _ (Or.inl rfl)), ihasks.trans (hframe.2 _ (Or.inr rfl))⟩

/-- **When the book in Redis is the book last acknowledged.**  After a run of
updates over any symbols, with any failures, the hashes of the last update that
was acknowledged for a symbol hold exactly its levels if and only if no two
prices of a side round to the same millionth. -/
theorem acknowledged_book_iff (w : RedisWorld) (before after : List BookCall) (call : BookCall)
    (hpositive : ∀ level ∈ call.bids.entries ++ call.asks.entries, PositivePrice level.1)
    (hacknowledged : (call.perform systemNow (runBookCalls systemNow before w)).1 = .ok true)
    (hafter : ∀ c ∈ after, c.symbol ≠ call.symbol) :
    (HoldsLevels (runBookCalls systemNow (before ++ call :: after) w) (bidsKey call.symbol)
        call.bids.entries
      ∧ HoldsLevels (runBookCalls systemNow (before ++ call :: after) w) (asksKey call.symbol)
        call.asks.entries)
    ↔ PricesApart call.bids.entries ∧ PricesApart call.asks.entries := by
  have hrun : runBookCalls systemNow (before ++ call :: after) w
      = runBookCalls systemNow after
        (call.perform systemNow (runBookCalls systemNow before w)).2 := by
    unfold runBookCalls
    rw [List.foldl_append, List.foldl_cons]
  obtain ⟨hbids, hasks⟩ := updateOrderBook_ok (Prod.ext hacknowledged rfl)
  obtain ⟨hkeepsBids, hkeepsAsks⟩ := runBookCalls_other systemNow hafter
    (call.perform systemNow (runBookCalls systemNow before w)).2
  -- the calls behind it leave the keys of this symbol alone
  rw [hrun]
  rw [holdsLevels_iff (fun level hmem => hpositive level (List.mem_append_left _ hmem))
      (hbids.congr hkeepsBids),
    holdsLevels_iff (fun level hmem => hpositive level (List.mem_append_right _ hmem))
      (hasks.congr hkeepsAsks)]

end Run

/-- Two bids for IBM and no asks. -/
def twoBids (p r : Price) (h : Double.lt p r = true) : BookCall where
  symbol := "IBM".toList
  bids := ⟨[(p, 10), (r, 20)], List.pairwise_pair.mpr h⟩
  asks := ⟨[], List.Pairwise.nil⟩

def oneAsk : BookCall where
  symbol := "MSFT".toList
  bids := ⟨[], List.Pairwise.nil⟩
  asks := ⟨[(.finite 101, 30)], List.pairwise_singleton _ _⟩

/-- The first update fails after its first level; the second replaces it, and
the update of another symbol leaves it alone. -/
theorem acknowledged_book_iff_halfWritten :
    HoldsLevels (runBookCalls (fun _ => 0) [twoBids (.finite 7) (.finite 8) (by decide +kernel),
        twoBids (.finite 99) (.finite 100) (by decide +kernel), oneAsk] (emptyWorld [3]))
      (bidsKey "IBM".toList) [(.finite 99, 10), (.finite 100, 20)] := by
  refine ((acknowledged_book_iff (fun _ => 0) (emptyWorld [3])
    [twoBids (.finite 7) (.finite 8) (by decide +kernel)] [oneAsk]
    (twoBids (.finite 99) (.finite 100) (by decide +kernel)) ?_ (by decide +kernel) ?_).mpr
    ⟨by decide +kernel, by decide +kernel⟩).1
  · intro level hmem
    simp only [twoBids, List.append_nil, List.mem_cons, List.not_mem_nil, or_false] at hmem
    rcases hmem with rfl | rfl
    · exact ⟨99, by norm_num, rfl⟩
    · exact ⟨100, by norm_num, rfl⟩
  · intro c hc
    rw [List.mem_singleton.mp hc]
    decide

/-- Two prices that a double tells apart. -/
def closeBids : BookCall :=
  twoBids (.finite (100 + 1 / 2 ^ 31)) (.finite (100 + 1 / 2 ^ 30)) (by decide +kernel)

/-- Both print as 100.000000: the update is acknowledged and one level lost. -/
theorem closeBids_merged :
    (closeBids.perform (fun _ => 0) (emptyWorld [])).1 = .ok true
    ∧ ¬ HoldsLevels (runBookCalls (fun _ => 0) [closeBids] (emptyWorld []))
        (bidsKey "IBM".toList) closeBids.bids.entries := by
  have hacknowledged : (closeBids.perform (fun _ => 0) (emptyWorld [])).1 = .ok true := by
    decide +kernel
  refine ⟨hacknowledged, ?_⟩
  intro hholds
  have hbids := (updateOrderBook_ok (Prod.ext hacknowledged rfl)).1
  have hpositive : ∀ level ∈ closeBids.bids.entries, PositivePrice level.1 := by
    intro level hmem
    simp only [closeBids, twoBids, List.mem_cons, List.not_mem_nil, or_false] at hmem
    rcases hmem with rfl | rfl
    · exact ⟨_, by norm_num, rfl⟩
    · exact ⟨_, by norm_num, rfl⟩
  have hapart := (holdsLevels_iff hpositive hbids).mp hholds
  exact absurd hapart (by decide +kernel)

end RedisClient

end FinCore.Storage

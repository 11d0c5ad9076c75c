/-
  FinCore.Storage.QuoteRoundTrip
  ──────────────────────────────
  Storing a quote in Redis and reading it back.

  The integers and the source come back as they were.  The five doubles are
  stored with six fractional digits, so they come back as they were exactly when
  they are multiples of `10 ^ -6`; a price below half of that comes back as zero
  and the whole quote as a miss.
-/
import FinCore.Cxx.Numeral
import FinCore.Storage.QuoteTtl

namespace FinCore.Storage.RedisClient

open FinCore.Cxx FinCore.Redis
open FinCore.Cxx.Double (scaledRound fixedLiteral)
open RedisWorld Action

/-! ## §1. One field. -/

/-- What a double comes back as: 0 if its text is malformed. -/
def storedDouble (x : Double) : Double :=
  match stodExact x.toString with
  | .ok y => y
  | .error _ => .finite 0

theorem stoll_toStringInt (n : Int64) : stoll (toStringInt n) = .ok n := by
  unfold toStringInt
  split
  next h =>
    rw [Int64.lt_iff_toInt_lt] at h
    have hzero : (0 : Int64).toInt = 0 := rfl
    refine stoll_text .minus ?_
    show -(n.toInt.natAbs : ℤ) = n.toInt
    omega
  next h =>
    rw [Int64.lt_iff_toInt_lt] at h
    have hzero : (0 : Int64).toInt = 0 := rfl
    refine stoll_text .none ?_
    show (n.toInt.natAbs : ℤ) = n.toInt
    omega

/-- The printed literal of a number with at most six fractional digits denotes
that number. -/
theorem fixedLiteral_value_of_multiple {x : ℚ} {n : ℤ} (h : x = n / 10 ^ 6) :
    (fixedLiteral 6 x).value = x := by
  have hscaled : (fixedLiteral 6 x).value * 10 ^ 6 = scaledRound 6 x :=
    Double.fixedLiteral_value (by decide) x
  have hround : scaledRound 6 x = n := by
    unfold scaledRound
    rw [h, div_mul_cancel₀ _ (by norm_num)]
    exact Double.roundHalfEven_intCast n
  rw [hround] at hscaled
  exact (eq_div_of_mul_eq (by norm_num) hscaled).trans h.symm

/-- A multiple of `10 ^ -6` is far from the subnormal numbers. -/
theorem multiple_inRange {x : ℚ} {n : ℤ} (h : x = n / 10 ^ 6) (hrange : |x| < 2 ^ 1024 - 2 ^ 970) :
    (Double.finite |x|).isOutOfRange = false := by
  show (decide (2 ^ 1024 - 2 ^ 970 ≤ |(|x|)|)
    || (decide (|x| ≠ 0 ∧ |(|x|)| < 1 / 2 ^ 1022 - 1 / 2 ^ 1076)
      && decide ((|x| * 2 ^ 1074).den ≠ 1))) = false
  rw [abs_abs, Bool.or_eq_false_iff, decide_eq_false_iff_not, not_le, Bool.and_eq_false_iff,
    decide_eq_false_iff_not]
  refine ⟨hrange, Or.inl ?_⟩
  -- no nonzero multiple of a millionth is subnormal
  rintro ⟨hne, htiny⟩
  have hsmall : |x| < 1 / 2 ^ 1022 := htiny.trans (sub_lt_self _ (by positivity))
  have hn : n ≠ 0 := by
    rintro rfl
    rw [h] at hne
    exact hne (by norm_num)
  have hone : (1 : ℚ) ≤ |(n : ℚ)| := by
    have habs : (1 : ℤ) ≤ |n| := Int.one_le_abs hn
    exact_mod_cast habs
  rw [h, abs_div, abs_of_pos (show (0 : ℚ) < 10 ^ 6 by norm_num)] at hsmall
  have hlow : (1 : ℚ) / 10 ^ 6 ≤ |(n : ℚ)| / 10 ^ 6 := by gcongr
  have hpow : (2 : ℚ) ^ 20 ≤ 2 ^ 1022 := pow_le_pow_right₀ (by norm_num) (by decide)
  have hcmp : (1 : ℚ) / 2 ^ 1022 < 1 / 10 ^ 6 := by
    refine one_div_lt_one_div_of_lt (by norm_num) (lt_of_lt_of_le ?_ hpow)
    norm_num
  exact absurd (hcmp.trans_le hlow) (not_lt.mpr hsmall.le)

/-- **A double of the program's range comes back exactly when six fractional
digits suffice.** -/
theorem storedDouble_eq_iff {x : ℚ} (hrange : |x| < 2 ^ 1024 - 2 ^ 970) :
    storedDouble (.finite x) = .finite x ↔ ∃ n : ℤ, x = n / 10 ^ 6 := by
  have htext : (Double.finite x).toString = (fixedLiteral 6 x).text :=
    Double.formatFixed_eq_text (by decide) x
  unfold storedDouble
  rw [htext]
  constructor
  · intro h
    rw [Numeral.stodExact_text] at h
    split at h
    next y hy =>
      split at hy
      next => cases hy
      next =>
        -- what is read back is the value of the six printed digits
        have hvalue : (fixedLiteral 6 x).value = x := by
          rw [← Except.ok.inj hy] at h
          exact Double.finite.inj h
        refine ⟨scaledRound 6 x, ?_⟩
        rw [eq_div_iff (by norm_num), ← Double.fixedLiteral_value (by decide), hvalue]
    next => exact ⟨0, by rw [← Double.finite.inj h]; norm_num⟩
  · rintro ⟨n, h⟩
    rw [Numeral.stodExact_text, fixedLiteral_value_of_multiple h, multiple_inRange h hrange,
      if_neg Bool.false_ne_true]

/-! ## §2. The hash of a quote. -/

/-- The reading of a stored quote, field by field. -/
theorem decodeQuote_quoteFields (symbol : Symbol) (quote : Quote) :
    decodeQuote symbol (quoteFields quote)
      = { symbol := symbol, price := storedDouble quote.price
          openPrice := storedDouble quote.openPrice, high := storedDouble quote.high
          low := storedDouble quote.low, volume := quote.volume
          changePct := storedDouble quote.changePct, source := quote.source
          timestamp := quote.timestamp } := by
  -- every double is read out of the text `to_string` gave it
  have hdouble : ∀ field (x : Double), findField (quoteFields quote) field = some x.toString →
      getDouble (quoteFields quote) field = storedDouble x := by
    intro field x hfound
    unfold getDouble storedDouble
    rw [hfound, Option.map_some]
    cases stodExact x.toString with
    | ok y => rfl
    | error e => rfl
  have hvolume : getUint64 (quoteFields quote) "volume".toList = quote.volume := by
    unfold getUint64
    rw [show findField (quoteFields quote) "volume".toList
      = some (toStringNat quote.volume.toNat) from rfl, Option.map_some, stoull_toStringNat]
  have hstamp : (findField (quoteFields quote) "timestamp".toList).map stoll
      = some (.ok quote.timestamp) := by
    rw [show findField (quoteFields quote) "timestamp".toList
      = some (toStringInt quote.timestamp) from rfl, Option.map_some, stoll_toStringInt]
  unfold decodeQuote
  rw [hdouble "price".toList quote.price rfl, hdouble "open".toList quote.openPrice rfl,
    hdouble "high".toList quote.high rfl, hdouble "low".toList quote.low rfl,
    hdouble "change_pct".toList quote.changePct rfl, hvolume, hstamp]
  rfl

/-- The five doubles of a quote. -/
def doubles (quote : Quote) : List Double :=
  [quote.price, quote.openPrice, quote.high, quote.low, quote.changePct]

theorem decodeQuote_eq_iff (quote : Quote) :
    decodeQuote quote.symbol (quoteFields quote) = quote
      ↔ ∀ x ∈ doubles quote, storedDouble x = x := by
  rw [decodeQuote_quoteFields]
  simp only [doubles, List.forall_mem_cons, List.not_mem_nil, false_implies, implies_true, and_true]
  constructor
  · intro h
    obtain ⟨symbol, price, openPrice, high, low, volume, changePct, source, timestamp⟩ := quote
    simp only [Quote.mk.injEq, true_and, and_true] at h
    exact h
  · rintro ⟨hprice, hopen, hhigh, hlow, hchange⟩
    rw [hprice, hopen, hhigh, hlow, hchange]

/-! ## §3. A store that returns, and a later read. -/

/-- What a store that returned true has left: the replaced hash has lost its
expiry, unless it expired before the second command. -/
theorem storeQuote_true {redis : RedisClient} {symbol : Symbol} {quote : Quote} {w w' : RedisWorld}
    (h : redis.storeQuote symbol quote w = (.ok true, w')) :
    ∃ old, w'.keys (quoteKey symbol)
      = ((some ⟨.hash (setFields old (quoteFields quote)),
            (lookup w.arrive.now w.keys (quoteKey symbol)).bind Entry.expireAt⟩).filter
          (Entry.liveAt w.arrive.arrive.now)).map
        (fun entry => { entry with expireAt := some (w.arrive.arrive.now + redis.quoteTtlNs) }) := by
  obtain ⟨_, w₁, hset, hrest⟩ := Action.bind_eq_ok (falseOnRedisError_true h)
  obtain ⟨_, w₂, hexpire, hpush⟩ := Action.bind_eq_ok hrest
  have hran := command_ok hset
  have hran' := command_ok hexpire
  obtain ⟨hreply, hsetEntry⟩ :=
    (Command.hmset (quoteKey symbol) (quoteFields quote)).run_self w.arrive.now w.keys rfl
  obtain ⟨old, hhash⟩ := hmset_onEntry w.arrive.now (quoteKey symbol) (quoteFields quote)
    (hmset_held (hreply ▸ hran.accepted))
  rw [hhash, ← hran.keys_eq] at hsetEntry
  obtain ⟨n, hexp⟩ := expire_onEntry w₁.arrive.now (quoteKey symbol) redis.quoteTtlNs
    (lookup w₁.arrive.now w₁.keys (quoteKey symbol))
  have hexpEntry :=
    ((Command.expire (quoteKey symbol) redis.quoteTtlNs).run_self w₁.arrive.now w₁.keys rfl).2
  rw [hexp, ← hran'.keys_eq, hran.arrive_now] at hexpEntry
  -- the history commands do not touch the key
  have hkept := (pushHistory_keeps symbol quote w₂).2 (quoteKey symbol) ⟨symbol, rfl⟩
  rw [hpush] at hkept
  refine ⟨old, (hkept.trans hexpEntry).trans ?_⟩
  show Option.map _ ((w₁.keys (quoteKey symbol)).filter _) = _
  rw [hsetEntry]

/-- What `get_quote` returns. -/
theorem getQuote_result (symbol : Symbol) (w : RedisWorld) :
    (getQuote symbol w).1 = .ok (if w.faults w.issued = none then
      quoteOfReply symbol ((Command.hgetall (quoteKey symbol)).onEntry w.arrive.now
        (lookup w.arrive.now w.keys (quoteKey symbol))).1 else none) := by
  have hreply := ((Command.hgetall (quoteKey symbol)).run_self w.arrive.now w.keys rfl).1
  unfold getQuote
  rw [Action.tryCatch_run]
  rcases command_cases (.hgetall (quoteKey symbol)) w with
    ⟨_, hfault, hrun⟩ | ⟨hfault, hwrong, hrun⟩ | ⟨hfault, _, hrun⟩
  · rw [Action.bind_error hrun, hfault, if_neg (by simp)]
    rfl
  · rw [Action.bind_error hrun, hfault, if_pos rfl, ← hreply, hwrong]
    rfl
  · rw [Action.bind_ok hrun, hfault, if_pos rfl, ← hreply]
    rfl

theorem setFields_ne_nil (old : List (Str × Str)) (quote : Quote) :
    setFields old (quoteFields quote) ≠ [] := by
  intro h
  have hfound := findField_setFields old (quoteFields quote) "price".toList
  rw [h, findField_nil] at hfound
  cases hfound

/-- No older hash under the quote's key expires between the two commands that
write the quote and set its lifetime. -/
def SurvivesStore (symbol : Symbol) (w : RedisWorld) : Prop :=
  ∀ entry, lookup w.arrive.now w.keys (quoteKey symbol) = some entry →
    entry.liveAt w.arrive.arrive.now = true

/-- The reply to a hash that a quote was written into: of the older fields none
counts. -/
theorem quoteOfReply_setFields (old : List (Str × Str)) (quote : Quote) :
    quoteOfReply quote.symbol (.fields (setFields old (quoteFields quote)))
      = if (decodeQuote quote.symbol (quoteFields quote)).isValid
        then some (decodeQuote quote.symbol (quoteFields quote)) else none := by
  rw [← decodeQuote_setFields quote.symbol old quote]
  cases hfields : setFields old (quoteFields quote) with
  | nil => exact absurd hfields (setFields_ne_nil old quote)
  | cons f rest => rfl

/-- **When a stored quote comes back.** -/
theorem storedQuote_transparent_iff (redis : RedisClient) {quote : Quote} {w w₁ w₂ : RedisWorld}
    (hvalid : quote.isValid = true)
    (hfinite : ∀ x ∈ doubles quote, ∃ q : ℚ, x = .finite q ∧ |q| < 2 ^ 1024 - 2 ^ 970)
    (hstored : redis.storeQuote quote.symbol quote w = (.ok true, w₁))
    (hkept : w₂.keys (quoteKey quote.symbol) = w₁.keys (quoteKey quote.symbol))
    (hbefore : w₂.arrive.now < w.arrive.arrive.now + redis.quoteTtlNs) :
    (getQuote quote.symbol w₂).1 = .ok (some quote)
      ↔ (∀ x ∈ doubles quote, ∃ n : ℤ, x = .finite (n / 10 ^ 6))
        ∧ SurvivesStore quote.symbol w ∧ w₂.faults w₂.issued = none := by
  have hdoubles : (∀ x ∈ doubles quote, storedDouble x = x)
      ↔ ∀ x ∈ doubles quote, ∃ n : ℤ, x = .finite (n / 10 ^ 6) := by
    refine forall₂_congr fun x hx => ?_
    obtain ⟨q, rfl, hrange⟩ := hfinite x hx
    rw [storedDouble_eq_iff hrange]
    exact exists_congr fun n => by rw [Double.finite.injEq]
  obtain ⟨old, hentry⟩ := storeQuote_true hstored
  rw [← hkept] at hentry
  rw [getQuote_result, ← hdoubles, ← decodeQuote_eq_iff]
  by_cases hfault : w₂.faults w₂.issued = none
  swap
  · -- Redis refuses the read
    rw [if_neg hfault]
    exact ⟨nofun, fun h => absurd h.2.2 hfault⟩
  rw [if_pos hfault]
  by_cases hlive : SurvivesStore quote.symbol w
  · -- the hash outlived the store, and is read out of the rewritten fields
    have hfilter : Entry.liveAt w.arrive.arrive.now ⟨.hash (setFields old (quoteFields quote)),
        (lookup w.arrive.now w.keys (quoteKey quote.symbol)).bind Entry.expireAt⟩ = true := by
      cases hfound : lookup w.arrive.now w.keys (quoteKey quote.symbol) with
      | none => rfl
      | some entry => exact hlive entry hfound
    rw [Option.filter_some_pos hfilter, Option.map_some] at hentry
    rw [lookup_eq_some.mpr ⟨hentry, decide_eq_true hbefore⟩]
    show Except.ok (quoteOfReply quote.symbol (.fields (setFields old (quoteFields quote))))
      = _ ↔ _
    rw [quoteOfReply_setFields]
    constructor
    · intro h
      split at h
      next => exact ⟨Option.some.inj (Except.ok.inj h), hlive, hfault⟩
      next => cases h
    · rintro ⟨hdecode, _⟩
      rw [hdecode, if_pos hvalid]
  · -- the older hash is gone, and the new fields with it
    have hgone : w₂.keys (quoteKey quote.symbol) = none := by
      unfold SurvivesStore at hlive
      push Not at hlive
      obtain ⟨entry, hfound, hdead⟩ := hlive
      have hdead' : Entry.liveAt w.arrive.arrive.now ⟨.hash (setFields old (quoteFields quote)),
          entry.expireAt⟩ = false := Bool.eq_false_iff.mpr hdead
      rw [hentry, hfound]
      exact congrArg (Option.map _) (Option.filter_some_neg hdead')
    have hlookup : lookup w₂.arrive.now w₂.keys (quoteKey quote.symbol) = none := by
      unfold lookup
      rw [hgone]
      rfl
    rw [hlookup]
    exact ⟨nofun, fun h => absurd h.2.1 hlive⟩

/-- A quote in full cents. -/
def centsQuote : Quote where
  symbol := "IBM".toList
  price := .finite (10025 / 100)
  openPrice := .finite 99
  high := .finite 101
  low := .finite (985 / 10)
  volume := 1000
  changePct := .finite (-5 / 100)
  timestamp := -1

theorem centsQuote_transparent :
    (getQuote "IBM".toList (oneMinute.storeQuote "IBM".toList centsQuote (emptyWorld [])).2).1
      = .ok (some centsQuote) := by
  have hvalid : centsQuote.isValid = true := by decide +kernel
  have hstored : oneMinute.storeQuote centsQuote.symbol centsQuote (emptyWorld [])
      = (.ok true, (oneMinute.storeQuote "IBM".toList centsQuote (emptyWorld [])).2) :=
    Prod.ext (by decide +kernel) rfl
  have hfinite : ∀ x ∈ doubles centsQuote, ∃ q : ℚ, x = .finite q ∧ |q| < 2 ^ 1024 - 2 ^ 970 := by
    simp only [doubles, centsQuote, List.forall_mem_cons, List.not_mem_nil, false_implies,
      implies_true, and_true]
    refine ⟨⟨_, rfl, ?_⟩, ⟨_, rfl, ?_⟩, ⟨_, rfl, ?_⟩, ⟨_, rfl, ?_⟩, ⟨_, rfl, ?_⟩⟩ <;>
      decide +kernel
  have hnothing : SurvivesStore centsQuote.symbol (emptyWorld []) := by
    intro entry hfound
    have hnone : lookup (emptyWorld []).arrive.now (emptyWorld []).keys
        (quoteKey centsQuote.symbol) = none := rfl
    rw [hnone] at hfound
    cases hfound
  refine (storedQuote_transparent_iff oneMinute hvalid hfinite hstored rfl (by decide)).mpr
    ⟨?_, hnothing, by decide +kernel⟩
  simp only [doubles, centsQuote, List.forall_mem_cons, List.not_mem_nil, false_implies,
    implies_true, and_true]
  refine ⟨⟨100250000, ?_⟩, ⟨99000000, ?_⟩, ⟨101000000, ?_⟩, ⟨98500000, ?_⟩, ⟨-50000, ?_⟩⟩ <;>
    norm_num

/-- The smallest price the domain and the schema keep. -/
def tinyQuote : Quote := { symbol := "IBM".toList, price := .finite (1 / 10 ^ 8), volume := 1000 }

/-- A price of `10 ^ -8` is stored as zero, and the stored quote reads as a miss. -/
theorem tinyQuote_lost :
    tinyQuote.isValid = true
    ∧ (oneMinute.storeQuote "IBM".toList tinyQuote (emptyWorld [])).1 = .ok true
    ∧ (getQuote "IBM".toList (oneMinute.storeQuote "IBM".toList tinyQuote (emptyWorld [])).2).1
      = .ok none := by
  refine ⟨by decide +kernel, by decide +kernel, by decide +kernel⟩

end FinCore.Storage.RedisClient

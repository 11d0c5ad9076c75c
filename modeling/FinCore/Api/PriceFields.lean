/-
  FinCore.Api.PriceFields
  ───────────────────────
  Which texts `parse_quote` takes for prices.

  `std::stod` converts what a text begins with and says how far it got;
  `extract_double` does not ask.  So a price with something behind it is
  accepted, as are leading white space, `nan`, `inf` and hexadecimal, and the
  quote is cached.  Malformed prices are rejected exactly when one of the four
  does not even begin with a number, or none is malformed at all.
-/
import FinCore.Api.AlphaVantageClient
import FinCore.Api.Response
import FinCore.Cxx.FloatText

namespace FinCore.Api

open FinCore.Cxx

/-! ## §1. One field. -/

section Field

variable {json key : Str}

/-- A field is converted if its text is there and begins with a number. -/
theorem extractDouble_eq_some_iff {x : Double} :
    extractDouble json key = some x
      ↔ ∃ text, extractString json key = some text ∧ stod text = .ok x := by
  unfold extractDouble
  cases extractString json key with
  | none => simp
  | some text =>
      show (stod text).toOption = some x ↔ _
      cases hread : stod text with
      | error e => simp [Except.toOption, hread]
      | ok y => simp [Except.toOption, hread]

theorem extractDouble_ne_none_iff :
    extractDouble json key ≠ none
      ↔ ∃ text, extractString json key = some text ∧ BeginsNumber text := by
  rw [Option.ne_none_iff_exists']
  simp only [extractDouble_eq_some_iff, ← exists_stod_ok_iff]
  constructor
  · rintro ⟨x, text, htext, hread⟩
    exact ⟨text, htext, x, hread⟩
  · rintro ⟨text, htext, x, hread⟩
    exact ⟨x, text, htext, hread⟩

/-- The text of the field is a numeral of a double, in its entirety. -/
def IsPrice (json key : Str) : Prop :=
  ∃ n : Numeral, n.InRange ∧ extractString json key = some n.text

/-- The text of the field is a numeral, and this is the double nearest to its
number. -/
def ReadWhole (json key : Str) (x : Double) : Prop :=
  ∃ n : Numeral, n.InRange ∧ extractString json key = some n.text ∧ x = n.nearest

theorem ReadWhole.isPrice {x : Double} (h : ReadWhole json key x) : IsPrice json key := by
  obtain ⟨n, hn, htext, -⟩ := h
  exact ⟨n, hn, htext⟩

/-- A numeral that is converted is read whole. -/
theorem readWhole_of_numeral {n : Numeral} {x : Double}
    (htext : extractString json key = some n.text) (h : extractDouble json key = some x) :
    ReadWhole json key x := by
  obtain ⟨text, htext', hread⟩ := extractDouble_eq_some_iff.mp h
  rw [htext] at htext'
  rw [← Option.some.inj htext'] at hread
  exact ⟨n, Numeral.inRange_of_ok hread, htext, Numeral.stod_numeral_ok hread⟩

/-- What follows a numeral does not matter. -/
theorem extractDouble_tail {n : Numeral} (hn : n.InRange) {r : Str} (hr : Numeral.IsTail r)
    (h : extractString json key = some (n.text ++ r)) :
    extractDouble json key = some n.nearest := by
  refine extractDouble_eq_some_iff.mpr ⟨n.text ++ r, h, ?_⟩
  rw [n.stod_append hr, hn]
  rfl

/-- A numeral with a tail is no price. -/
theorem not_isPrice_of_tail {s r : Str} {c : Char} (hc : Numeral.isNumeralChar c = false)
    (h : extractString json key = some (s ++ c :: r)) : ¬ IsPrice json key := by
  rintro ⟨n, -, htext⟩
  rw [h] at htext
  have hchar := n.text_chars c (Option.some.inj htext ▸ by simp)
  rw [hc] at hchar
  cases hchar

end Field

/-! ## §2. The four prices. -/

/-- The prices of a quote by the searches they come from. -/
def quotePrices (q : Quote) : List (Str × Double) :=
  priceKeys.zip [q.price, q.openPrice, q.high, q.low]

theorem quotePrices_keys (q : Quote) : (quotePrices q).map Prod.fst = priceKeys := rfl

theorem parseQuote_prices {mktime : ℤ → Int64} {json : Str} {symbol : Symbol} {q : Quote}
    (h : parseQuote mktime json symbol = some q) {key : Str} {x : Double}
    (hmem : (key, x) ∈ quotePrices q) : extractDouble json key = some x := by
  obtain ⟨hprice, hopen, hhigh, hlow, -⟩ := parseQuote_fields h
  unfold quotePrices priceKeys at hmem
  simp only [List.zip_cons_cons, List.zip_nil_right, List.mem_cons, List.not_mem_nil, or_false,
    Prod.mk.injEq] at hmem
  obtain ⟨rfl, rfl⟩ | ⟨rfl, rfl⟩ | ⟨rfl, rfl⟩ | ⟨rfl, rfl⟩ := hmem
  · exact hprice
  · exact hopen
  · exact hhigh
  · exact hlow

/-- Where each of the four begins with a number, each is a numeral from its first
character to its last. -/
def PlainPrices (json : Str) : Prop :=
  (∀ key ∈ priceKeys, ∃ text, extractString json key = some text ∧ BeginsNumber text) →
    ∀ key ∈ priceKeys, ∃ n : Numeral, extractString json key = some n.text

section Client

variable {σ : Type} (client : AlphaVantageClient σ)

/-- Malformed prices are rejected: a quote has read its four prices whole, and
where one is no price there is no quote and `get_quote_fresh` caches nothing. -/
structure RejectsMalformed (symbol : Symbol) (json : Str) : Prop where
  whole : ∀ q, parseQuote client.mktime json symbol = some q →
    ∀ key x, (key, x) ∈ quotePrices q → ReadWhole json key x
  rejected : (∃ key ∈ priceKeys, ¬ IsPrice json key) →
    parseQuote client.mktime json symbol = none
  uncached : (∃ key ∈ priceKeys, ¬ IsPrice json key) → ∀ (w w' : σ) (st : ClientState),
    client.fetch symbol w = (.ok json, w') →
    (client.getQuoteFresh symbol (w, st)).1 = .ok none
      ∧ (client.getQuoteFresh symbol (w, st)).2.2.cache = st.cache

/-- A response without a quote is not cached. -/
theorem getQuoteFresh_unparsed {symbol : Symbol} {json : Str}
    (hnone : parseQuote client.mktime json symbol = none) {w w' : σ} (st : ClientState)
    (hfetch : client.fetch symbol w = (.ok json, w')) :
    (client.getQuoteFresh symbol (w, st)).1 = .ok none
      ∧ (client.getQuoteFresh symbol (w, st)).2.2.cache = st.cache := by
  by_cases hne : symbol = []
  · rw [hne]
    exact ⟨rfl, rfl⟩
  · have haccept : client.acceptResponse symbol json = none := by
      unfold AlphaVantageClient.acceptResponse
      rw [hnone, ite_self]
    rw [client.getQuoteFresh_none hne hfetch haccept st]
    exact ⟨rfl, rfl⟩

/-- **Malformed prices are rejected exactly where the prices are plain.** -/
theorem rejectsMalformed_iff (symbol : Symbol) (json : Str) :
    RejectsMalformed client symbol json ↔ PlainPrices json := by
  constructor
  · intro h hbegins key hkey
    obtain ⟨q, hq⟩ : ∃ q, parseQuote client.mktime json symbol = some q :=
      parseQuote_exists (fun k hk => extractDouble_ne_none_iff.mpr (hbegins k hk))
    rw [← quotePrices_keys q] at hkey
    obtain ⟨⟨key, x⟩, hmem, rfl⟩ := List.mem_map.mp hkey
    obtain ⟨n, -, htext, -⟩ := h.whole q hq key x hmem
    exact ⟨n, htext⟩
  · intro h
    -- a quote has converted the four texts, so each of them is read whole
    have hwhole : ∀ q, parseQuote client.mktime json symbol = some q →
        ∀ key x, (key, x) ∈ quotePrices q → ReadWhole json key x := by
      intro q hq key x hmem
      have hconverted : ∀ k ∈ priceKeys, extractDouble json k ≠ none := by
        intro k hk hnone
        have hq' : parseQuote client.mktime json symbol = none :=
          parseQuote_eq_none_iff.mpr ⟨k, hk, hnone⟩
        rw [hq] at hq'
        cases hq'
      have hkey : key ∈ priceKeys := quotePrices_keys q ▸ List.mem_map_of_mem hmem
      have hbegins : ∀ k ∈ priceKeys, ∃ text, extractString json k = some text
          ∧ BeginsNumber text :=
        fun k hk => extractDouble_ne_none_iff.mp (hconverted k hk)
      obtain ⟨n, htext⟩ := h hbegins key hkey
      exact readWhole_of_numeral htext (parseQuote_prices hq hmem)
    have hrejected : (∃ key ∈ priceKeys, ¬ IsPrice json key) →
        parseQuote client.mktime json symbol = none := by
      rintro ⟨key, hkey, hprice⟩
      cases hq : parseQuote client.mktime json symbol with
      | none => rfl
      | some q =>
          rw [← quotePrices_keys q] at hkey
          obtain ⟨⟨key, x⟩, hmem, rfl⟩ := List.mem_map.mp hkey
          exact absurd (hwhole q hq key x hmem).isPrice hprice
    refine ⟨hwhole, hrejected, fun hmalformed w w' st hfetch => ?_⟩
    exact getQuoteFresh_unparsed client (hrejected hmalformed) st hfetch

/-- **The failing inputs of a kind**: numerals, each possibly with something
behind it, give a quote. -/
theorem not_rejectsMalformed_of_tails (symbol : Symbol) {json : Str}
    (hread : ∀ key ∈ priceKeys, ∃ (n : Numeral) (r : Str), n.InRange ∧ Numeral.IsTail r
      ∧ extractString json key = some (n.text ++ r))
    (hmalformed : ∃ key ∈ priceKeys, ¬ IsPrice json key) :
    ¬ RejectsMalformed client symbol json := by
  intro h
  have hconverted : ∀ key ∈ priceKeys, extractDouble json key ≠ none := by
    intro key hkey
    obtain ⟨n, r, hn, hr, htext⟩ := hread key hkey
    rw [extractDouble_tail hn hr htext]
    exact Option.some_ne_none _
  obtain ⟨q, hq⟩ : ∃ q, parseQuote client.mktime json symbol = some q :=
    parseQuote_exists hconverted
  rw [h.rejected hmalformed] at hq
  cases hq

end Client

/-- A client whose fetches answer `json`. -/
def stubClient (json : Str) : AlphaVantageClient Unit where
  apiKey := "test-key".toList
  cacheTtl := 60
  fetchFunction := some fun _ w => (.ok json, w)
  transport := fun _ w => (.initFailed, w)
  steadyNow := fun w => (0, w)
  mktime := fun _ => 0
  apiKey_ne := by decide

/-- The other prices in order, the price `100abc`. -/
def trailingJson : Str := compactText (sampleMembers "100abc".toList (by decide))

/-- `100abc` is taken for 100, and the quote is cached. -/
theorem trailing_accepted :
    extractString trailingJson "\"05. price\": \"".toList = some "100abc".toList
    ∧ (∀ n : Numeral, n.text ≠ "100abc".toList)
    ∧ (parseQuote (fun _ => 0) trailingJson "IBM".toList).map Quote.price = some (.finite 100)
    ∧ (((stubClient trailingJson).getQuoteFresh "IBM".toList ((), {})).2.2.cache
        "IBM".toList).map (fun entry => entry.quote.price) = some (.finite 100)
    ∧ ¬ RejectsMalformed (stubClient trailingJson) "IBM".toList trailingJson := by
  have htext : extractString trailingJson "\"05. price\": \"".toList
      = some ("100".toList ++ 'a' :: "bc".toList) := by decide +kernel
  have hmalformed : ¬ IsPrice trailingJson "\"05. price\": \"".toList :=
    not_isPrice_of_tail (by decide) htext
  refine ⟨htext, ?_, by decide +kernel, by decide +kernel, ?_⟩
  · intro n hn
    have hchar := n.text_chars 'a' (hn ▸ by decide)
    exact absurd hchar (by decide)
  · intro h
    have hnone := h.rejected ⟨_, List.mem_cons_self, hmalformed⟩
    exact absurd hnone (by decide +kernel)

end FinCore.Api

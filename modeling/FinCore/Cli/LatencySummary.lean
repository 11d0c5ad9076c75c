/-
  FinCore.Cli.LatencySummary
  ──────────────────────────
  The latency line of the session report: `percentile` and
  `SessionStats::LatencySeries::print`.

  Positions and interpolation are exact rationals here.  The mean is what
  `long double` makes of it: with 64 significant bits it is exact as long as the
  sum is below `2 ^ 64`, and can leave the range of the samples above that.
  Reading an entry at an index out of range is undefined in C++ and `none` here.
-/
import FinCore.Cli.ProcessMetrics
import FinCore.Cxx.OrderStatistic
import FinCore.Cxx.FloatFormat

namespace FinCore.Cli

open FinCore.Cxx

/-! ## §1. The figures. -/

/-- The position in the sorted samples. -/
def percentilePosition (values : LatencySeries) (p : ℚ) : ℚ := p * ((values.length - 1 : ℕ) : ℚ)

def percentileLower (values : LatencySeries) (p : ℚ) : ℕ := ⌊percentilePosition values p⌋₊

def percentileUpper (values : LatencySeries) (p : ℚ) : ℕ := ⌈percentilePosition values p⌉₊

/-- `std::sort`. -/
def sortSamples (values : LatencySeries) : LatencySeries :=
  values.insertionSort (· ≤ ·)

/-- `percentile`. -/
def percentile (values : LatencySeries) (p : ℚ) : Option Int64 :=
  if values = [] then some 0
  else
    let sorted := sortSamples values
    let lower := percentileLower values p
    let upper := percentileUpper values p
    -- a position on an index needs no interpolation
    if lower = upper then sorted[lower]?
    else do
      let low ← sorted[lower]?
      let high ← sorted[upper]?
      let fraction := percentilePosition values p - lower
      let interpolated : ℚ := low.toInt + fraction * (high - low).toInt
      return Int64.ofInt (llround interpolated)

/-- `std::minmax_element`, the entries themselves. -/
def minmaxElement : LatencySeries → Option (Int64 × Int64)
  | [] => none
  | first :: rest =>
      some (rest.foldl (fun least v => if v < least then v else least) first,
        rest.foldl (fun greatest v => if v < greatest then greatest else v) first)

/-- The figures of a printed line. -/
structure LatencySummary where
  average : Int64
  minimum : Int64
  p50 : Int64
  p95 : Int64
  p99 : Int64
  maximum : Int64

/-- `std::accumulate` in `long double`: every sum is rounded. -/
def LatencySeries.total (series : LatencySeries) : ℚ :=
  series.foldl (fun total sample => FloatFormat.extended.round (total + sample.toInt)) 0

/-- The mean in `long double`. -/
def LatencySeries.mean (series : LatencySeries) : ℚ :=
  FloatFormat.extended.round (series.total / series.length)

/-- What `LatencySeries::print` prints of a series with samples. -/
def LatencySeries.summary (series : LatencySeries) : Option LatencySummary := do
  let (minimum, maximum) ← minmaxElement series
  let p50 ← percentile series 0.50
  let p95 ← percentile series 0.95
  let p99 ← percentile series 0.99
  return { average := Int64.ofInt (llround series.mean), minimum := minimum
           p50 := p50, p95 := p95, p99 := p99, maximum := maximum }

/-! ## §2. The line. -/

/-- `format_duration`. -/
def formatDuration (microseconds : Int64) : Str :=
  if 1000000 ≤ microseconds then
    (Double.finite (microseconds.toInt / 1000000)).formatFixed 3 ++ " s".toList
  else if 1000 ≤ microseconds then
    (Double.finite (microseconds.toInt / 1000)).formatFixed 3 ++ " ms".toList
  else
    (if microseconds < 0 then ['-'] else []) ++ toStringNat microseconds.toInt.natAbs
      ++ " us".toList

/-- `LatencySeries::print`. -/
def LatencySeries.print (series : LatencySeries) (name : Str) : Option Str :=
  let head := "  ".toList ++ name ++ List.replicate (18 - name.length) ' '
  if series = [] then some (head ++ "no samples\n".toList)
  else
    series.summary.map fun line =>
      head ++ "n=".toList ++ toStringNat series.length
        ++ " avg=".toList ++ formatDuration line.average
        ++ " min=".toList ++ formatDuration line.minimum
        ++ " p50=".toList ++ formatDuration line.p50
        ++ " p95=".toList ++ formatDuration line.p95
        ++ " p99=".toList ++ formatDuration line.p99
        ++ " max=".toList ++ formatDuration line.maximum ++ "\n".toList

example : LatencySeries.print [400, 100, 300, 200] "API get_quote".toList
    = some ("  API get_quote     n=4 avg=250 us min=100 us p50=250 us p95=385 us p99=397 us "
        ++ "max=400 us\n").toList := by
  decide +kernel

/-! ## §3. The sorted samples. -/

/-- The samples as numbers, smallest first. -/
def sortedUs (values : LatencySeries) : List ℤ := (sortSamples values).map Int64.toInt

namespace LatencySummary

variable {values : LatencySeries}

theorem sortSamples_perm (values : LatencySeries) : (sortSamples values).Perm values :=
  List.perm_insertionSort _ _

theorem sortedUs_perm (values : LatencySeries) :
    (sortedUs values).Perm (values.map Int64.toInt) :=
  (sortSamples_perm values).map _

@[simp] theorem sortSamples_length (values : LatencySeries) :
    (sortSamples values).length = values.length :=
  (sortSamples_perm values).length_eq

@[simp] theorem sortedUs_length (values : LatencySeries) :
    (sortedUs values).length = values.length := by
  rw [sortedUs, List.length_map, sortSamples_length]

theorem sortSamples_sorted (values : LatencySeries) :
    (sortSamples values).Pairwise (· ≤ ·) :=
  List.pairwise_insertionSort _ _

theorem sortedUs_sorted (values : LatencySeries) : (sortedUs values).Pairwise (· ≤ ·) := by
  rw [sortedUs, List.pairwise_map]
  exact (sortSamples_sorted values).imp Int64.le_iff_toInt_le.mp

/-- One arrangement of the samples is sorted. -/
theorem sortSamples_congr {values' : LatencySeries} (h : values'.Perm values) :
    sortSamples values' = sortSamples values := by
  refine List.Perm.eq_of_pairwise' (sortSamples_sorted values') (sortSamples_sorted values) ?_
  exact ((sortSamples_perm values').trans h).trans (sortSamples_perm values).symm

/-- The `k`-th entry of the sorted samples. -/
def height (values : LatencySeries) (k : ℕ) : ℤ := (sortedUs values).getD k 0

theorem getElem?_sortSamples {k : ℕ} (hk : k < values.length) :
    ∃ v : Int64, (sortSamples values)[k]? = some v ∧ v.toInt = height values k ∧ v ∈ values := by
  have hk' : k < (sortSamples values).length := by rwa [sortSamples_length]
  refine ⟨(sortSamples values)[k], List.getElem?_eq_getElem hk', ?_, ?_⟩
  · rw [height, sortedUs, List.getD_eq_getElem _ _ (by rwa [List.length_map]), List.getElem_map]
  · exact (sortSamples_perm values).mem_iff.mp (List.getElem_mem hk')

theorem height_isOrderStatistic {k : ℕ} (hk : k < values.length) :
    IsOrderStatistic (values.map Int64.toInt) k (height values k) := by
  have hk' : k < (sortedUs values).length := by rwa [sortedUs_length]
  rw [height, List.getD_eq_getElem _ _ hk']
  exact (isOrderStatistic_sorted (sortedUs_sorted values) hk').perm (sortedUs_perm values)

theorem height_mono {i j : ℕ} (hij : i ≤ j) (hj : j < values.length) :
    height values i ≤ height values j :=
  (height_isOrderStatistic (lt_of_le_of_lt hij hj)).mono (height_isOrderStatistic hj) hij

/-! ## §4. The percentile. -/

variable {p q : ℚ}

theorem position_nonneg (hp : 0 ≤ p) : 0 ≤ percentilePosition values p :=
  mul_nonneg hp (Nat.cast_nonneg _)

theorem position_mono (h : p ≤ q) : percentilePosition values p ≤ percentilePosition values q :=
  mul_le_mul_of_nonneg_right h (Nat.cast_nonneg _)

theorem position_le (hp : p ≤ 1) : percentilePosition values p ≤ ((values.length - 1 : ℕ) : ℚ) := by
  calc percentilePosition values p ≤ percentilePosition values 1 := position_mono hp
    _ = ((values.length - 1 : ℕ) : ℚ) := one_mul _

theorem lower_le_upper (values : LatencySeries) (p : ℚ) :
    percentileLower values p ≤ percentileUpper values p :=
  Nat.floor_le_ceil _

theorem upper_lt (hne : values ≠ []) (hp : p ≤ 1) : percentileUpper values p < values.length := by
  have hle : percentileUpper values p ≤ values.length - 1 := Nat.ceil_le.mpr (position_le hp)
  have hpos : 0 < values.length := List.length_pos_of_ne_nil hne
  omega

theorem lower_lt (hne : values ≠ []) (hp : p ≤ 1) : percentileLower values p < values.length :=
  lt_of_le_of_lt (lower_le_upper values p) (upper_lt hne hp)

/-- The interpolated samples. -/
def interpolated (values : LatencySeries) (p : ℚ) : ℚ :=
  interpolate (fun k => (height values k : ℚ)) (percentilePosition values p)

theorem height_mono_cast (hne : values ≠ []) :
    ∀ i j, i ≤ j → j ≤ values.length - 1 → (height values i : ℚ) ≤ height values j := by
  intro i j hij hj
  have hpos : 0 < values.length := List.length_pos_of_ne_nil hne
  exact_mod_cast height_mono hij (by omega)

theorem interpolated_between (hne : values ≠ []) (hp : 0 ≤ p) (hp1 : p ≤ 1) :
    (height values (percentileLower values p) : ℚ) ≤ interpolated values p
      ∧ interpolated values p ≤ height values (percentileUpper values p) :=
  ⟨le_interpolate (height_mono_cast hne) (position_nonneg hp) (position_le hp1),
    interpolate_le (height_mono_cast hne) (position_le hp1)⟩

theorem rounded_between (hne : values ≠ []) (hp : 0 ≤ p) (hp1 : p ≤ 1) :
    height values (percentileLower values p) ≤ llround (interpolated values p)
      ∧ llround (interpolated values p) ≤ height values (percentileUpper values p) := by
  obtain ⟨hlow, hhigh⟩ := interpolated_between hne hp hp1
  exact llround_between hlow hhigh

/-- Samples that are not negative have no overflow in their difference. -/
theorem toInt_sub_of_le {a b : Int64} (ha : 0 ≤ a.toInt) (hab : a.toInt ≤ b.toInt) :
    (b - a).toInt = b.toInt - a.toInt := by
  have hb : b.toInt < 2 ^ 63 := b.toInt_lt
  rw [Int64.toInt_sub]
  exact Int.bmod_eq_of_le (by omega) (by omega)

/-- **The percentile is the interpolated value, rounded.** -/
theorem percentile_eq (hne : values ≠ []) (hpos : ∀ v ∈ values, 0 ≤ v.toInt) (hp : 0 ≤ p)
    (hp1 : p ≤ 1) :
    ∃ r : Int64, percentile values p = some r ∧ r.toInt = llround (interpolated values p) := by
  obtain ⟨low, hlow, hlowInt, hlowMem⟩ := getElem?_sortSamples (lower_lt hne hp1)
  obtain ⟨high, hhigh, hhighInt, hhighMem⟩ := getElem?_sortSamples (upper_lt hne hp1)
  unfold percentile
  rw [if_neg hne]
  dsimp only
  by_cases heq : percentileLower values p = percentileUpper values p
  · rw [if_pos heq]
    refine ⟨low, hlow, ?_⟩
    -- the position is whole: the sample there is the value
    have hflat : interpolated values p = (low.toInt : ℚ) := by
      show (height values (percentileLower values p) : ℚ)
        + (percentilePosition values p - (percentileLower values p : ℚ))
          * ((height values (percentileUpper values p) : ℚ)
            - height values (percentileLower values p)) = _
      rw [← heq, sub_self, mul_zero, add_zero, hlowInt]
    rw [hflat, llround_intCast]
  · rw [if_neg heq, hlow, hhigh]
    refine ⟨_, rfl, ?_⟩
    -- the difference of two samples that are not negative does not wrap
    have hrise : (high - low).toInt = high.toInt - low.toInt := by
      refine toInt_sub_of_le (hpos low hlowMem) ?_
      rw [hlowInt, hhighInt]
      exact height_mono (lower_le_upper values p) (upper_lt hne hp1)
    have hvalue : (low.toInt : ℚ) + (percentilePosition values p - percentileLower values p)
        * (high - low).toInt = interpolated values p := by
      rw [hrise, hlowInt, hhighInt, Int.cast_sub]
      rfl
    rw [hvalue]
    obtain ⟨hmin, hmax⟩ := rounded_between hne hp hp1
    have hlowPos := hpos low hlowMem
    have hhighLt : high.toInt < 2 ^ 63 := high.toInt_lt
    exact Int64.toInt_ofInt_of_le (by omega) (by omega)

theorem percentile_mono (hne : values ≠ []) (hpos : ∀ v ∈ values, 0 ≤ v.toInt) (hp : 0 ≤ p)
    (hpq : p ≤ q) (hq : q ≤ 1) :
    ∃ r s : Int64, percentile values p = some r ∧ percentile values q = some s ∧ r ≤ s := by
  obtain ⟨r, hr, hrInt⟩ := percentile_eq hne hpos hp (le_trans hpq hq)
  obtain ⟨s, hs, hsInt⟩ := percentile_eq hne hpos (le_trans hp hpq) hq
  refine ⟨r, s, hr, hs, Int64.le_iff_toInt_le.mpr ?_⟩
  rw [hrInt, hsInt]
  exact llround_mono (interpolate_mono (height_mono_cast hne) (position_nonneg hp)
    (position_mono hpq) (position_le hq))

/-- At a position of the samples the percentile is that sample. -/
theorem percentile_exact (hne : values ≠ []) (hpos : ∀ v ∈ values, 0 ≤ v.toInt) (hp : 0 ≤ p)
    (hp1 : p ≤ 1) {k : ℕ} (hk : percentilePosition values p = k) :
    ∃ r : Int64, percentile values p = some r
      ∧ IsOrderStatistic (values.map Int64.toInt) k r.toInt := by
  obtain ⟨r, hr, hrInt⟩ := percentile_eq hne hpos hp hp1
  have hlower : percentileLower values p = k := by
    rw [percentileLower, hk, Nat.floor_natCast]
  have hlt : k < values.length := by
    rw [← hlower]
    exact lower_lt hne hp1
  refine ⟨r, hr, ?_⟩
  rw [hrInt, interpolated, hk, interpolate_natCast, llround_intCast]
  exact height_isOrderStatistic hlt

theorem percentile_perm {values' : LatencySeries} (h : values'.Perm values) (p : ℚ) :
    percentile values' p = percentile values p := by
  have hlen : values'.length = values.length := h.length_eq
  have hnil : values' = [] ↔ values = [] := by
    rw [← List.length_eq_zero_iff, hlen, List.length_eq_zero_iff]
  unfold percentile percentileLower percentileUpper percentilePosition
  rw [sortSamples_congr h, hlen]
  simp only [hnil]

/-! ## §5. The line's figures. -/

/-- A fold that keeps the better of two entries finds one that no entry beats. -/
theorem foldl_best {α : Type} {R : α → α → Prop} (hrefl : ∀ a, R a a)
    (htrans : ∀ a b c, R a b → R b c → R a c) {pick : α → α → α}
    (hpick : ∀ a b, (pick a b = a ∨ pick a b = b) ∧ R (pick a b) a ∧ R (pick a b) b) :
    ∀ (rest : List α) (first : α),
      rest.foldl pick first ∈ first :: rest ∧ ∀ x ∈ first :: rest, R (rest.foldl pick first) x := by
  intro rest
  induction rest with
  | nil =>
      intro first
      refine ⟨List.mem_cons_self, fun x hx => ?_⟩
      rw [List.mem_singleton.mp hx]
      exact hrefl first
  | cons b rest ih =>
      intro first
      rw [List.foldl_cons]
      obtain ⟨hmem, hbest⟩ := ih (pick first b)
      obtain ⟨hone, hfirst, hb⟩ := hpick first b
      constructor
      · rcases List.mem_cons.mp hmem with heq | hrest
        · rw [heq]
          -- what has been picked first is one of the first two
          rcases hone with hpicked | hpicked
          · rw [hpicked]
            exact List.mem_cons_self
          · rw [hpicked]
            exact List.mem_cons_of_mem _ List.mem_cons_self
        · exact List.mem_cons_of_mem _ (List.mem_cons_of_mem _ hrest)
      · intro x hx
        rcases List.mem_cons.mp hx with rfl | hx
        · exact htrans _ _ _ (hbest _ List.mem_cons_self) hfirst
        · rcases List.mem_cons.mp hx with rfl | hx
          · exact htrans _ _ _ (hbest _ List.mem_cons_self) hb
          · exact hbest x (List.mem_cons_of_mem _ hx)

theorem minmaxElement_spec (hne : values ≠ []) :
    ∃ minimum maximum : Int64, minmaxElement values = some (minimum, maximum)
      ∧ (minimum ∈ values ∧ ∀ v ∈ values, minimum.toInt ≤ v.toInt)
      ∧ (maximum ∈ values ∧ ∀ v ∈ values, v.toInt ≤ maximum.toInt) := by
  obtain ⟨first, rest, rfl⟩ := List.exists_cons_of_ne_nil hne
  refine ⟨_, _, rfl, ?_, ?_⟩
  · refine foldl_best (R := fun a b => a.toInt ≤ b.toInt) (fun _ => le_rfl)
      (fun _ _ _ => le_trans) (fun a b => ?_) rest first
    by_cases h : b < a
    · rw [if_pos h]
      exact ⟨Or.inr rfl, le_of_lt (Int64.lt_iff_toInt_lt.mp h), le_rfl⟩
    · rw [if_neg h]
      exact ⟨Or.inl rfl, le_rfl, not_lt.mp fun hlt => h (Int64.lt_iff_toInt_lt.mpr hlt)⟩
  · refine foldl_best (R := fun a b => b.toInt ≤ a.toInt) (fun _ => le_rfl)
      (fun _ _ _ hab hbc => le_trans hbc hab) (fun a b => ?_) rest first
    by_cases h : b < a
    · rw [if_pos h]
      exact ⟨Or.inl rfl, le_rfl, le_of_lt (Int64.lt_iff_toInt_lt.mp h)⟩
    · rw [if_neg h]
      exact ⟨Or.inr rfl, not_lt.mp fun hlt => h (Int64.lt_iff_toInt_lt.mpr hlt), le_rfl⟩

/-- Below `2 ^ 64` every partial sum is an integer of 64 bits, so none is
rounded. -/
theorem total_eq (hpos : ∀ v ∈ values, 0 ≤ v.toInt)
    (hsum : (values.map Int64.toInt).sum < 2 ^ 64) :
    values.total = ((values.map Int64.toInt).sum : ℤ) := by
  have hfold : ∀ (rest : LatencySeries) (start : ℤ), 0 ≤ start → (∀ v ∈ rest, 0 ≤ v.toInt) →
      start + (rest.map Int64.toInt).sum < 2 ^ 64 →
      rest.foldl (fun total sample => FloatFormat.extended.round (total + sample.toInt)) (start : ℚ)
        = ((start + (rest.map Int64.toInt).sum : ℤ) : ℚ) := by
    intro rest
    induction rest with
    | nil =>
        intro start _ _ _
        simp
    | cons v rest ih =>
        intro start hstart hrest hlt
        obtain ⟨hv, hrest⟩ := List.forall_mem_cons.mp hrest
        rw [List.map_cons, List.sum_cons] at hlt ⊢
        have hnonneg : 0 ≤ (rest.map Int64.toInt).sum :=
          List.sum_nonneg (List.forall_mem_map.mpr hrest)
        have hrepresents : FloatFormat.extended.Represents ((start + v.toInt : ℤ) : ℚ) := by
          refine FloatFormat.represents_intCast ?_ (by decide)
          rw [abs_of_nonneg (by omega)]
          exact lt_of_le_of_lt (by omega) hlt
        have hround := FloatFormat.round_of_represents hrepresents
        push_cast at hround
        rw [List.foldl_cons, hround, ← add_assoc]
        have hrun := ih (start + v.toInt) (by omega) hrest (by omega)
        push_cast at hrun ⊢
        exact hrun
  have hrun := hfold values 0 le_rfl hpos (by omega)
  rw [Int.cast_zero, zero_add] at hrun
  exact hrun

/-- Below `2 ^ 64` the rounded mean lies between bounds of the samples. -/
theorem mean_between (hne : values ≠ []) (hpos : ∀ v ∈ values, 0 ≤ v.toInt)
    (hsum : (values.map Int64.toInt).sum < 2 ^ 64) {a b : Int64} (hzero : 0 ≤ a.toInt)
    (ha : ∀ v ∈ values, a.toInt ≤ v.toInt) (hb : ∀ v ∈ values, v.toInt ≤ b.toInt) :
    a.toInt ≤ llround values.mean ∧ llround values.mean ≤ b.toInt := by
  have hlen : (0 : ℚ) < values.length := by
    exact_mod_cast List.length_pos_of_ne_nil hne
  have hlow : (values.length : ℤ) * a.toInt ≤ (values.map Int64.toInt).sum := by
    have h := List.card_nsmul_le_sum (values.map Int64.toInt) a.toInt (by
      intro x hx
      obtain ⟨v, hv, rfl⟩ := List.mem_map.mp hx
      exact ha v hv)
    rwa [List.length_map, nsmul_eq_mul] at h
  have hhigh : (values.map Int64.toInt).sum ≤ (values.length : ℤ) * b.toInt := by
    have h := List.sum_le_card_nsmul (values.map Int64.toInt) b.toInt (by
      intro x hx
      obtain ⟨v, hv, rfl⟩ := List.mem_map.mp hx
      exact hb v hv)
    rwa [List.length_map, nsmul_eq_mul] at h
  obtain ⟨v, hv⟩ := List.exists_mem_of_ne_nil values hne
  have hbnonneg : 0 ≤ b.toInt := (hpos v hv).trans (hb v hv)
  -- a sample is an integer of 63 bits, so rounding the quotient does not pass it
  have hrepresents : ∀ w : Int64, 0 ≤ w.toInt → FloatFormat.extended.Represents (w.toInt : ℚ) := by
    intro w hw
    have hlt := w.toInt_lt
    refine FloatFormat.represents_intCast ?_ (by decide)
    rw [abs_of_nonneg hw]
    exact hlt.trans (by decide)
  unfold LatencySeries.mean
  rw [total_eq hpos hsum]
  apply llround_between
  · refine FloatFormat.le_round (hrepresents a hzero) ?_
    rw [le_div_iff₀ hlen, mul_comm]
    exact_mod_cast hlow
  · refine FloatFormat.round_le (hrepresents b hbnonneg) ?_
    rw [div_le_iff₀ hlen, mul_comm]
    exact_mod_cast hhigh

/-- A percentile lies between bounds of the samples. -/
theorem percentile_bounds (hne : values ≠ []) (hpos : ∀ v ∈ values, 0 ≤ v.toInt) (hp : 0 ≤ p)
    (hp1 : p ≤ 1) {a b : ℤ} (ha : ∀ v ∈ values, a ≤ v.toInt) (hb : ∀ v ∈ values, v.toInt ≤ b)
    {r : Int64} (hr : percentile values p = some r) : a ≤ r.toInt ∧ r.toInt ≤ b := by
  obtain ⟨r', hr', hrInt⟩ := percentile_eq hne hpos hp hp1
  rw [hr] at hr'
  obtain rfl := Option.some.inj hr'
  obtain ⟨low, -, hlowInt, hlowMem⟩ := getElem?_sortSamples (lower_lt hne hp1)
  obtain ⟨high, -, hhighInt, hhighMem⟩ := getElem?_sortSamples (upper_lt hne hp1)
  obtain ⟨hmin, hmax⟩ := rounded_between hne hp hp1
  have hlow := ha low hlowMem
  have hhigh := hb high hhighMem
  omega

end LatencySummary

/-- A line whose figures are in order. -/
structure LatencySummary.Ordered (line : LatencySummary) : Prop where
  minimum_le_p50 : line.minimum ≤ line.p50
  p50_le_p95 : line.p50 ≤ line.p95
  p95_le_p99 : line.p95 ≤ line.p99
  p99_le_maximum : line.p99 ≤ line.maximum
  minimum_le_average : line.minimum ≤ line.average
  average_le_maximum : line.average ≤ line.maximum

open LatencySummary in
/-- There is a line, and its percentiles are in order; the mean is where it
should be as long as the sum is below `2 ^ 64`. -/
theorem LatencySummary.summary_ordered {values : LatencySeries} (hne : values ≠ [])
    (hpos : ∀ v ∈ values, 0 ≤ v.toInt) :
    ∃ line, values.summary = some line
      ∧ (line.Ordered ↔ line.minimum ≤ line.average ∧ line.average ≤ line.maximum)
      ∧ ((values.map Int64.toInt).sum < 2 ^ 64 → line.Ordered) := by
  obtain ⟨minimum, maximum, hminmax, ⟨hminMem, hmin⟩, ⟨-, hmax⟩⟩ := minmaxElement_spec hne
  obtain ⟨p50, p95, h50, h95, hle1⟩ :=
    percentile_mono (p := 0.50) (q := 0.95) hne hpos (by norm_num) (by norm_num) (by norm_num)
  obtain ⟨p95', p99, h95', h99, hle2⟩ :=
    percentile_mono (p := 0.95) (q := 0.99) hne hpos (by norm_num) (by norm_num) (by norm_num)
  rw [h95] at h95'
  obtain rfl := Option.some.inj h95'
  obtain ⟨hlow, -⟩ := percentile_bounds hne hpos (by norm_num) (by norm_num) hmin hmax h50
  obtain ⟨-, hhigh⟩ := percentile_bounds hne hpos (by norm_num) (by norm_num) hmin hmax h99
  have hiff : ∀ average : Int64, LatencySummary.Ordered ⟨average, minimum, p50, p95, p99, maximum⟩
      ↔ minimum ≤ average ∧ average ≤ maximum := by
    intro average
    constructor
    · intro h
      exact ⟨h.minimum_le_average, h.average_le_maximum⟩
    · rintro ⟨hbelow, habove⟩
      exact ⟨Int64.le_iff_toInt_le.mpr hlow, hle1, hle2, Int64.le_iff_toInt_le.mpr hhigh, hbelow,
        habove⟩
  unfold LatencySeries.summary
  rw [hminmax, h50, h95, h99]
  refine ⟨_, rfl, hiff _, fun hsum => (hiff _).mpr ?_⟩
  have hminPos := hpos minimum hminMem
  obtain ⟨hmeanLow, hmeanHigh⟩ := mean_between hne hpos hsum hminPos hmin hmax
  -- the mean is an `int64`, so the conversion keeps it
  have hmaxLt : maximum.toInt < 2 ^ 63 := maximum.toInt_lt
  have hmean := Int64.toInt_ofInt_of_le (n := llround values.mean) (by omega) (by omega)
  rw [Int64.le_iff_toInt_le, Int64.le_iff_toInt_le, hmean]
  exact ⟨hmeanLow, hmeanHigh⟩

/-- What the reported latencies of a series promise. -/
structure ReportedInOrder (values : LatencySeries) : Prop where
  indices : ∀ p : ℚ, 0 ≤ p → p ≤ 1 →
    percentileLower values p < values.length ∧ percentileUpper values p < values.length
  between : ∀ p : ℚ, 0 ≤ p → p ≤ 1 → ∃ (r : Int64) (low high : ℤ), percentile values p = some r
    ∧ IsOrderStatistic (values.map Int64.toInt) (percentileLower values p) low
    ∧ IsOrderStatistic (values.map Int64.toInt) (percentileUpper values p) high
    ∧ percentileUpper values p ≤ percentileLower values p + 1
    ∧ low ≤ r.toInt ∧ r.toInt ≤ high
  exact : ∀ p : ℚ, 0 ≤ p → p ≤ 1 → ∀ k : ℕ, p * (values.length - 1) = k →
    ∃ r : Int64, percentile values p = some r
      ∧ IsOrderStatistic (values.map Int64.toInt) k r.toInt
  monotone : ∀ p q : ℚ, 0 ≤ p → p ≤ q → q ≤ 1 →
    ∃ r s : Int64, percentile values p = some r ∧ percentile values q = some s ∧ r ≤ s
  permuted : ∀ values' : LatencySeries, values'.Perm values → ∀ p : ℚ,
    percentile values' p = percentile values p
  line : ∃ line, values.summary = some line ∧ line.Ordered

open LatencySummary in
theorem percentiles_in_order {values : LatencySeries} (hne : values ≠ [])
    (hpos : ∀ v ∈ values, 0 ≤ v.toInt)
    (hline : ∃ line, values.summary = some line ∧ line.Ordered) : ReportedInOrder values := by
  have hlen : 1 ≤ values.length := List.length_pos_of_ne_nil hne
  refine ⟨fun p _ hp1 => ⟨lower_lt hne hp1, upper_lt hne hp1⟩, ?_, ?_, ?_, ?_, hline⟩
  · intro p hp hp1
    obtain ⟨r, hr, hrInt⟩ := percentile_eq hne hpos hp hp1
    obtain ⟨hmin, hmax⟩ := rounded_between hne hp hp1
    refine ⟨r, _, _, hr, height_isOrderStatistic (lower_lt hne hp1),
      height_isOrderStatistic (upper_lt hne hp1), Nat.ceil_le_floor_add_one _, ?_, ?_⟩
    · rw [hrInt]
      exact hmin
    · rw [hrInt]
      exact hmax
  · intro p hp hp1 k hk
    refine percentile_exact hne hpos hp hp1 ?_
    rw [percentilePosition, Nat.cast_sub hlen, Nat.cast_one]
    exact hk
  · intro p q hp hpq hq
    exact percentile_mono hne hpos hp hpq hq
  · intro values' h p
    exact percentile_perm h p

/-- **When reported latencies are ordered and do not depend on the order of the
samples**: whenever the mean lies within them, and so whenever their sum is below
`2 ^ 64`. -/
theorem reported_in_order (values : LatencySeries) (hne : values ≠ [])
    (hpos : ∀ v ∈ values, 0 ≤ v) :
    (∃ line, values.summary = some line
      ∧ (ReportedInOrder values ↔ line.minimum ≤ line.average ∧ line.average ≤ line.maximum))
    ∧ ((values.map Int64.toInt).sum < 2 ^ 64 → ReportedInOrder values) := by
  have hposInt : ∀ v ∈ values, 0 ≤ v.toInt := fun v hv => Int64.le_iff_toInt_le.mp (hpos v hv)
  obtain ⟨line, hline, hiff, hsmall⟩ := LatencySummary.summary_ordered hne hposInt
  refine ⟨⟨line, hline, ?_⟩, fun hsum => ?_⟩
  · rw [← hiff]
    constructor
    · intro h
      obtain ⟨line', hline', hordered⟩ := h.line
      rw [hline] at hline'
      exact Option.some.inj hline' ▸ hordered
    · intro hordered
      exact percentiles_in_order hne hposInt ⟨line, hline, hordered⟩
  · exact percentiles_in_order hne hposInt ⟨line, hline, hsmall hsum⟩

theorem reported_in_order_four : ReportedInOrder [400, 100, 300, 200] :=
  (reported_in_order [400, 100, 300, 200] (List.cons_ne_nil _ _) (by simp)).2 (by decide)

/-- The mean of three times `2 ^ 63 - 3` is one above their maximum. -/
theorem reported_out_of_order :
    (LatencySeries.summary (List.replicate 3 9223372036854775805)).map
        (fun line => (line.average, line.maximum))
      = some (9223372036854775806, 9223372036854775805)
    ∧ ¬ ReportedInOrder (List.replicate 3 9223372036854775805) := by
  have hline : (LatencySeries.summary (List.replicate 3 9223372036854775805)).map
      (fun line => (line.average, line.maximum))
      = some (9223372036854775806, 9223372036854775805) := by decide +kernel
  refine ⟨hline, fun h => ?_⟩
  obtain ⟨line, hsome, hordered⟩ := h.line
  rw [hsome, Option.map_some, Option.some_inj, Prod.mk.injEq] at hline
  have hle := hordered.average_le_maximum
  rw [hline.1, hline.2] at hle
  exact absurd hle (by decide)

end FinCore.Cli

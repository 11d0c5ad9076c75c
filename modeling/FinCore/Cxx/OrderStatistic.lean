/-
  FinCore.Cxx.OrderStatistic
  ──────────────────────────
  Order statistics of a list, linear interpolation between the values of a
  sequence, and rounding half away from zero.

  An order statistic is defined by counting, so that it belongs to the list and
  not to a way of sorting it; `isOrderStatistic_sorted` finds it in a sorted
  arrangement.  Interpolation between neighbouring positions is monotone where
  the sequence is (`interpolate_mono`).
-/
import Mathlib.Algebra.Order.Floor.Semiring
import Mathlib.Data.List.Sort
import Mathlib.Data.Rat.Floor
import Mathlib.Tactic.Linarith
import Mathlib.Tactic.Positivity

namespace FinCore.Cxx

/-! ## §1. Order statistics. -/

section OrderStatistic

variable {α : Type*} [LinearOrder α] {l m : List α} {j k : ℕ} {v w : α}

/-- `v` is the `k`-th smallest entry, counted from zero: at most `k` entries lie
below it, and more than `k` do not lie above it. -/
def IsOrderStatistic (l : List α) (k : ℕ) (v : α) : Prop :=
  v ∈ l ∧ l.countP (· < v) ≤ k ∧ k < l.countP (· ≤ v)

theorem IsOrderStatistic.mono (hv : IsOrderStatistic l j v) (hw : IsOrderStatistic l k w)
    (h : j ≤ k) : v ≤ w := by
  by_contra hlt
  have hle : l.countP (· ≤ w) ≤ l.countP (· < v) := by
    refine List.countP_mono_left fun x _ hx => ?_
    have hxw : x ≤ w := of_decide_eq_true hx
    exact decide_eq_true (lt_of_le_of_lt hxw (not_le.mp hlt))
  have hj := hv.2.1
  have hk := hw.2.2
  omega

/-- There is one `k`-th smallest entry. -/
theorem IsOrderStatistic.unique (hv : IsOrderStatistic l k v) (hw : IsOrderStatistic l k w) :
    v = w :=
  le_antisymm (hv.mono hw le_rfl) (hw.mono hv le_rfl)

theorem IsOrderStatistic.perm (h : l.Perm m) (hv : IsOrderStatistic l k v) :
    IsOrderStatistic m k v := by
  obtain ⟨hmem, hbelow, habove⟩ := hv
  rw [h.countP_eq] at hbelow habove
  exact ⟨h.mem_iff.mp hmem, hbelow, habove⟩

/-- In a sorted list the entries that satisfy a downward closed property come
first. -/
theorem sat_iff_lt_countP {P : α → Bool} (hP : ∀ x y, x ≤ y → P y = true → P x = true) :
    ∀ {l : List α}, l.Pairwise (· ≤ ·) → ∀ {i : ℕ} (hi : i < l.length),
      P (l[i]) = true ↔ i < l.countP P := by
  intro l
  induction l with
  | nil =>
      intro _ i hi
      exact absurd hi (Nat.not_lt_zero i)
  | cons a l ih =>
      intro hsorted i hi
      obtain ⟨hhead, htail⟩ := List.pairwise_cons.mp hsorted
      by_cases ha : P a = true
      · rw [List.countP_cons_of_pos ha]
        cases i with
        | zero => simp [ha]
        | succ i =>
            rw [List.getElem_cons_succ, ih htail (Nat.lt_of_succ_lt_succ hi)]
            omega
      · -- nothing behind `a` satisfies the property either
        have hnone : ∀ x ∈ a :: l, ¬ P x = true := by
          intro x hx hPx
          cases hx with
          | head => exact ha hPx
          | tail _ hmem => exact ha (hP a x (hhead x hmem) hPx)
        rw [List.countP_eq_zero.mpr hnone]
        exact iff_of_false (hnone _ (List.getElem_mem hi)) (Nat.not_lt_zero i)

/-- **The entries of a sorted list are its order statistics.** -/
theorem isOrderStatistic_sorted (h : l.Pairwise (· ≤ ·)) (hk : k < l.length) :
    IsOrderStatistic l k (l[k]) := by
  refine ⟨List.getElem_mem hk, ?_, ?_⟩
  · have hbelow := sat_iff_lt_countP (P := fun x => decide (x < l[k]))
      (fun x y hxy hy => decide_eq_true (lt_of_le_of_lt hxy (of_decide_eq_true hy))) h hk
    by_contra hlt
    exact absurd (of_decide_eq_true (hbelow.mpr (by omega))) (lt_irrefl _)
  · have habove := sat_iff_lt_countP (P := fun x => decide (x ≤ l[k]))
      (fun x y hxy hy => decide_eq_true (le_trans hxy (of_decide_eq_true hy))) h hk
    exact habove.mp (decide_eq_true le_rfl)

end OrderStatistic

/-! ## §2. Interpolation. -/

section Interpolation

variable {K : Type*} [Field K] [LinearOrder K] [IsStrictOrderedRing K] [FloorSemiring K]
variable {v : ℕ → K} {n : ℕ} {x y : K}

/-- The value at position `x`, on the line between the positions around it. -/
def interpolate (v : ℕ → K) (x : K) : K := v ⌊x⌋₊ + (x - ⌊x⌋₊) * (v ⌈x⌉₊ - v ⌊x⌋₊)

/-- At a position of the sequence there is nothing to interpolate. -/
@[simp] theorem interpolate_natCast (v : ℕ → K) (k : ℕ) : interpolate v (k : K) = v k := by
  rw [interpolate, Nat.floor_natCast, sub_self, zero_mul, add_zero]

theorem ceil_eq_floor_or (hx : 0 ≤ x) : (⌈x⌉₊ = ⌊x⌋₊ ∧ x = ⌊x⌋₊) ∨ ⌈x⌉₊ = ⌊x⌋₊ + 1 := by
  by_cases heq : x = ⌊x⌋₊
  · left
    refine ⟨?_, heq⟩
    conv_lhs => rw [heq]
    exact Nat.ceil_natCast _
  · right
    have hlt : (⌊x⌋₊ : K) < x := lt_of_le_of_ne (Nat.floor_le hx) (Ne.symm heq)
    have hlow : ⌊x⌋₊ < ⌈x⌉₊ := Nat.lt_ceil.mpr hlt
    have hhigh : ⌈x⌉₊ ≤ ⌊x⌋₊ + 1 := Nat.ceil_le_floor_add_one x
    omega

section Monotone

variable (hv : ∀ i j, i ≤ j → j ≤ n → v i ≤ v j)

include hv

theorem le_interpolate (hx : 0 ≤ x) (hxn : x ≤ n) : v ⌊x⌋₊ ≤ interpolate v x := by
  have hrise : 0 ≤ v ⌈x⌉₊ - v ⌊x⌋₊ :=
    sub_nonneg.mpr (hv _ _ (Nat.floor_le_ceil x) (Nat.ceil_le.mpr hxn))
  have hpart : 0 ≤ x - ⌊x⌋₊ := sub_nonneg.mpr (Nat.floor_le hx)
  have hprod := mul_nonneg hpart hrise
  unfold interpolate
  linarith

theorem interpolate_le (hxn : x ≤ n) : interpolate v x ≤ v ⌈x⌉₊ := by
  have hrise : 0 ≤ v ⌈x⌉₊ - v ⌊x⌋₊ :=
    sub_nonneg.mpr (hv _ _ (Nat.floor_le_ceil x) (Nat.ceil_le.mpr hxn))
  have hpart : x - ⌊x⌋₊ ≤ 1 := by
    have hfloor := Nat.lt_floor_add_one x
    linarith
  have hprod : (x - ⌊x⌋₊) * (v ⌈x⌉₊ - v ⌊x⌋₊) ≤ 1 * (v ⌈x⌉₊ - v ⌊x⌋₊) :=
    mul_le_mul_of_nonneg_right hpart hrise
  unfold interpolate
  linarith

/-- **Interpolation keeps the order of the positions.** -/
theorem interpolate_mono (hx : 0 ≤ x) (hxy : x ≤ y) (hyn : y ≤ n) :
    interpolate v x ≤ interpolate v y := by
  have hy : 0 ≤ y := le_trans hx hxy
  have hxn : x ≤ n := le_trans hxy hyn
  have hfloor : ⌊x⌋₊ ≤ ⌊y⌋₊ := Nat.floor_mono hxy
  rcases Nat.lt_or_eq_of_le hfloor with hlt | heq
  · -- a position of the sequence lies between the two
    have hceil : ⌈x⌉₊ ≤ ⌊y⌋₊ := le_trans (Nat.ceil_le_floor_add_one x) hlt
    have hyfloor : ⌊y⌋₊ ≤ n := le_trans (Nat.floor_le_ceil y) (Nat.ceil_le.mpr hyn)
    calc interpolate v x ≤ v ⌈x⌉₊ := interpolate_le hv hxn
      _ ≤ v ⌊y⌋₊ := hv _ _ hceil hyfloor
      _ ≤ interpolate v y := le_interpolate hv hy hyn
  · rcases ceil_eq_floor_or hx with ⟨-, hwhole⟩ | hceil
    · calc interpolate v x = v ⌊x⌋₊ := by
            conv_lhs => rw [hwhole]
            exact interpolate_natCast v _
        _ = v ⌊y⌋₊ := by rw [heq]
        _ ≤ interpolate v y := le_interpolate hv hy hyn
    · -- both lie between the same two positions
      have hceily : ⌈y⌉₊ = ⌈x⌉₊ := by
        have hge : ⌈x⌉₊ ≤ ⌈y⌉₊ := Nat.ceil_mono hxy
        have hle : ⌈y⌉₊ ≤ ⌊y⌋₊ + 1 := Nat.ceil_le_floor_add_one y
        omega
      have hrise : 0 ≤ v ⌈x⌉₊ - v ⌊x⌋₊ :=
        sub_nonneg.mpr (hv _ _ (Nat.floor_le_ceil x) (Nat.ceil_le.mpr hxn))
      have hprod : (x - ⌊x⌋₊) * (v ⌈x⌉₊ - v ⌊x⌋₊) ≤ (y - ⌊x⌋₊) * (v ⌈x⌉₊ - v ⌊x⌋₊) :=
        mul_le_mul_of_nonneg_right (by linarith) hrise
      unfold interpolate
      rw [← heq, hceily]
      linarith

end Monotone

end Interpolation

/-! ## §3. Rounding half away from zero. -/

/-- `std::llround`. -/
def llround (q : ℚ) : ℤ := if 0 ≤ q then ⌊q + 1 / 2⌋ else ⌈q - 1 / 2⌉

@[simp] theorem llround_intCast (n : ℤ) : llround (n : ℚ) = n := by
  unfold llround
  split
  · rw [Int.floor_intCast_add]
    norm_num
  · rw [sub_eq_add_neg, Int.ceil_intCast_add]
    norm_num

theorem llround_mono {x y : ℚ} (h : x ≤ y) : llround x ≤ llround y := by
  unfold llround
  split
  next hx =>
    rw [if_pos (le_trans hx h)]
    exact Int.floor_mono (by linarith)
  next hx =>
    split
    next hy =>
      have hneg : ⌈x - 1 / 2⌉ ≤ 0 := Int.ceil_le.mpr (by push_cast; linarith [not_le.mp hx])
      have hpos : 0 ≤ ⌊y + 1 / 2⌋ := Int.floor_nonneg.mpr (by linarith)
      exact le_trans hneg hpos
    next => exact Int.ceil_mono (by linarith)

/-- A rounded number stays between integers. -/
theorem llround_between {a b : ℤ} {q : ℚ} (ha : (a : ℚ) ≤ q) (hb : q ≤ b) :
    a ≤ llround q ∧ llround q ≤ b := by
  have hlow := llround_mono ha
  have hhigh := llround_mono hb
  rw [llround_intCast] at hlow hhigh
  exact ⟨hlow, hhigh⟩

end FinCore.Cxx
